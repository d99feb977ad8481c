import ConfigScript.Catalog.Basic

/-!
# Bundled catalogs

The types of the settings and project scripts of a build, and of the plugin blocks that are
interpreted before the rest of such a script.
-/

namespace ConfigScript.Bundled

def pluginsReceiver : String := "build.plugins.PluginsTopLevelReceiver"

def settingsPluginsReceiver : String := "build.plugins.SettingsPluginsReceiver"

def settingsReceiver : String := "build.settings.Settings"

def projectReceiver : String := "build.project.Project"

/-- The settings type on which software types put their convention blocks. -/
def conventionsType : String := "build.settings.Conventions"

def typeNamed (name : String) : TypeDecl :=
  ⟨name, [], [], [], []⟩

def required (name type : String) : ParameterDecl :=
  ⟨name, type, false, none⟩

def stored (name type property : String) : ParameterDecl :=
  ⟨name, type, false, some property⟩

/-- The parameter that takes the block behind a call. -/
def configureBlock (type : String) : ParameterDecl :=
  required "configure" (type ++ ".() -> Unit")

def pureFunction (name : String) (parameter : ParameterDecl) : FunctionDecl :=
  ⟨name, .pure, [parameter], none, none, none⟩

def builder (name : String) (parameter : ParameterDecl) : FunctionDecl :=
  ⟨name, .builder, [parameter], none, none, none⟩

def configuringProperty (property type : String) : FunctionDecl :=
  ⟨property, .configuring, [configureBlock type], none, some property, none⟩

def configuringAccessor (accessor type : String) : FunctionDecl :=
  ⟨accessor, .configuring, [configureBlock type], none, none, some accessor⟩

def plugins : Catalog where
  types :=
    [{ typeNamed pluginsReceiver with
        properties := [⟨"plugins", "build.plugins.PluginsBlock", true, false⟩]
        functions := [configuringProperty "plugins" "build.plugins.PluginsBlock"] },
      { typeNamed settingsPluginsReceiver with
        supertypes := [pluginsReceiver]
        functions :=
          [configuringAccessor "pluginManagement" "build.plugins.PluginManagementSpec"] },
      { typeNamed "build.plugins.PluginManagementSpec" with
        supertypes := [pluginsReceiver]
        functions := [pureFunction "includeBuild" (required "rootProject" "String")] },
      { typeNamed "build.plugins.PluginsBlock" with
        functions :=
          [⟨"id", .adding, [stored "identifier" "String" "id"],
            some "build.plugins.PluginDefinition", none, none⟩] },
      { typeNamed "build.plugins.PluginDefinition" with
        properties :=
          [⟨"id", "String", true, false⟩, ⟨"version", "String", false, true⟩,
            ⟨"apply", "Boolean", false, true⟩]
        functions :=
          [builder "version" (stored "newValue" "String" "version"),
            builder "apply" (stored "apply" "Boolean" "apply")] }]
  functions := []
  objects := []
  defaultImports := []

def settings : Catalog where
  types :=
    [{ typeNamed settingsReceiver with
        properties := [⟨"rootProject", "build.settings.ProjectDescriptor", true, false⟩]
        functions :=
          [pureFunction "include" (required "projectPath" "String"),
            pureFunction "enableFeaturePreview" (required "name" "String"),
            configuringAccessor "conventions" conventionsType] },
      { typeNamed "build.settings.ProjectDescriptor" with
        properties := [⟨"name", "String", false, false⟩] },
      typeNamed conventionsType]
  functions := []
  objects := []
  defaultImports := []

def project : Catalog where
  types :=
    [{ typeNamed projectReceiver with
        properties :=
          [⟨"group", "String", false, true⟩, ⟨"version", "String", false, true⟩,
            ⟨"description", "String", false, true⟩] }]
  functions := []
  objects := []
  defaultImports := []

/-- The bundled catalogs merged, plugins first. -/
def catalog : Catalog :=
  .mergeAll [plugins, settings, project]

end ConfigScript.Bundled
