import ConfigScript.Catalog.Basic
import ConfigScript.Catalog.Document

/-!
# Catalogs in documents

Reads catalogs and registries from documents of any format, and writes them as JSON. Lists may be
left out when they are empty, flags when they are off, optional texts when there is none.
-/

namespace ConfigScript

open Document

namespace FunctionKind

def name : FunctionKind → String
  | .pure => "pure"
  | .builder => "builder"
  | .adding => "adding"
  | .configuring => "configuring"

def ofName? : String → Option FunctionKind
  | "pure" => some .pure
  | "builder" => some .builder
  | "adding" => some .adding
  | "configuring" => some .configuring
  | _ => none

end FunctionKind

variable {ν : Type} [Document ν]

def FunctionKind.read (value : ν) : Decoder FunctionKind :=
  return ← .ofOption (ofName? (← choice value))

def PropertyDecl.read (value : ν) : Decoder PropertyDecl := do
  let fields ← Document.fields ["name", "type", "read_only", "has_default"] value
  let name ← textField fields "name"
  let type ← textField fields "type"
  return ⟨name, type, ← flagField fields "read_only", ← flagField fields "has_default"⟩

def ParameterDecl.read (value : ν) : Decoder ParameterDecl := do
  let fields ← Document.fields ["name", "type", "default", "stores"] value
  let name ← textField fields "name"
  let type ← textField fields "type"
  return ⟨name, type, ← flagField fields "default", ← optionalTextField fields "stores"⟩

def FunctionDecl.read (value : ν) : Decoder FunctionDecl := do
  let fields ←
    Document.fields ["name", "kind", "parameters", "returns", "configures", "accessor"] value
  let name ← textField fields "name"
  let kind ← FunctionKind.read (← .ofOption (fields.lookup "kind"))
  let parameters ← listField fields "parameters" ParameterDecl.read
  return ⟨name, kind, parameters, ← optionalTextField fields "returns",
    ← optionalTextField fields "configures", ← optionalTextField fields "accessor"⟩

def ConstructorDecl.read (value : ν) : Decoder ConstructorDecl := do
  let fields ← Document.fields ["parameters"] value
  return ⟨← listField fields "parameters" ParameterDecl.read⟩

def TypeDecl.read (value : ν) : Decoder TypeDecl := do
  let fields ←
    Document.fields ["name", "supertypes", "properties", "functions", "constructors"] value
  let name ← textField fields "name"
  let supertypes ← listField fields "supertypes" text
  let properties ← listField fields "properties" PropertyDecl.read
  let functions ← listField fields "functions" FunctionDecl.read
  return ⟨name, supertypes, properties, functions,
    ← listField fields "constructors" ConstructorDecl.read⟩

/-- A function of a package; its kind may be left out when it is pure. -/
def PackageFunctionDecl.read (value : ν) : Decoder PackageFunctionDecl := do
  let fields ← Document.fields ["package", "name", "kind", "parameters", "returns"] value
  let package ← textField fields "package"
  let name ← textField fields "name"
  let kind ←
    match fields.lookup "kind" with
    | none => pure FunctionKind.pure
    | some value => FunctionKind.read value
  let parameters ← listField fields "parameters" ParameterDecl.read
  return ⟨package, name, kind, parameters, ← optionalTextField fields "returns"⟩

def ObjectDecl.read (value : ν) : Decoder ObjectDecl := do
  let fields ← Document.fields ["name", "type"] value
  return ⟨← textField fields "name", ← textField fields "type"⟩

def Catalog.read (value : ν) : Decoder Catalog := do
  let fields ← Document.fields ["types", "functions", "objects", "default_imports"] value
  let types ← listField fields "types" TypeDecl.read
  let functions ← listField fields "functions" PackageFunctionDecl.read
  let objects ← listField fields "objects" ObjectDecl.read
  return ⟨types, functions, objects, ← listField fields "default_imports" text⟩

def SoftwareType.read (value : ν) : Decoder SoftwareType := do
  let fields ← Document.fields ["name", "model", "types"] value
  let name ← textField fields "name"
  let model ← textField fields "model"
  return ⟨name, model, ← listField fields "types" TypeDecl.read⟩

def Registry.read (value : ν) : Decoder Registry := do
  let fields ← Document.fields ["software_types"] value
  return ⟨← listField fields "software_types" SoftwareType.read⟩

def Catalog.ofDocument? (document : ν) : Option Catalog :=
  decode? Catalog.read document

def Registry.ofDocument? (document : ν) : Option Registry :=
  decode? Registry.read document

def PropertyDecl.toJson (decl : PropertyDecl) : Json :=
  .object [("name", .string decl.name), ("type", .string decl.type),
    ("read_only", .bool decl.readOnly), ("has_default", .bool decl.hasDefault)]

def ParameterDecl.toJson (decl : ParameterDecl) : Json :=
  .object [("name", .string decl.name), ("type", .string decl.type),
    ("default", .bool decl.optional), ("stores", .ofOption .string decl.stores)]

def FunctionDecl.toJson (decl : FunctionDecl) : Json :=
  .object [("name", .string decl.name), ("kind", .string decl.kind.name),
    ("parameters", .array (decl.parameters.map ParameterDecl.toJson)),
    ("returns", .ofOption .string decl.returns), ("configures", .ofOption .string decl.configures),
    ("accessor", .ofOption .string decl.accessor)]

def ConstructorDecl.toJson (decl : ConstructorDecl) : Json :=
  .object [("parameters", .array (decl.parameters.map ParameterDecl.toJson))]

def TypeDecl.toJson (decl : TypeDecl) : Json :=
  .object [("name", .string decl.name), ("supertypes", .array (decl.supertypes.map .string)),
    ("properties", .array (decl.properties.map PropertyDecl.toJson)),
    ("functions", .array (decl.functions.map FunctionDecl.toJson)),
    ("constructors", .array (decl.constructors.map ConstructorDecl.toJson))]

def PackageFunctionDecl.toJson (decl : PackageFunctionDecl) : Json :=
  .object [("package", .string decl.package), ("name", .string decl.name),
    ("kind", .string decl.kind.name),
    ("parameters", .array (decl.parameters.map ParameterDecl.toJson)),
    ("returns", .ofOption .string decl.returns)]

def ObjectDecl.toJson (decl : ObjectDecl) : Json :=
  .object [("name", .string decl.name), ("type", .string decl.type)]

def Catalog.toJson (catalog : Catalog) : Json :=
  .object [("types", .array (catalog.types.map TypeDecl.toJson)),
    ("functions", .array (catalog.functions.map PackageFunctionDecl.toJson)),
    ("objects", .array (catalog.objects.map ObjectDecl.toJson)),
    ("default_imports", .array (catalog.defaultImports.map .string))]

def SoftwareType.toJson (type : SoftwareType) : Json :=
  .object [("name", .string type.name), ("model", .string type.model),
    ("types", .array (type.types.map TypeDecl.toJson))]

def Registry.toJson (registry : Registry) : Json :=
  .object [("software_types", .array (registry.softwareTypes.map SoftwareType.toJson))]

end ConfigScript
