import ConfigScript.Catalog.Bundled
import ConfigScript.Schema.LambdaStyle

/-!
# Software types in catalogs

Every software type of a registry becomes a block that configures its model: on projects, and
among the conventions of the settings.
-/

namespace ConfigScript

inductive RegistryError where
  | duplicateSoftwareType (name : String)
  | undeclaredOwner (type : String)
deriving DecidableEq, Repr

def RegistryError.message : RegistryError → String
  | .duplicateSoftwareType name => "Duplicate software type: " ++ name
  | .undeclaredOwner type => "Catalog does not declare " ++ type

namespace SoftwareType

/-- The function whose block configures the model. -/
def configuringFunction (type : SoftwareType) : FunctionDecl where
  name := type.name
  kind := .configuring
  parameters := [⟨"configure", LambdaStyle.receiverFunction.spell type.model, false, none⟩]
  returns := none
  configures := none
  accessor := some ("softwareType:" ++ type.name)

/-- The types that get a block for every software type. -/
def owners : List String :=
  [Bundled.projectReceiver, Bundled.conventionsType]

end SoftwareType

namespace Catalog

/-- Adds a function behind the others of a declared type. -/
def addFunction (catalog : Catalog) (function : FunctionDecl) (owner : String) :
    Except RegistryError Catalog :=
  match catalog.type? owner with
  | none => .error (.undeclaredOwner owner)
  | some _ =>
    .ok (catalog.modifyType owner fun type =>
      { type with functions := type.functions ++ [function] })

/-- Adds the block of a software type to its owners, and then the types that come with it. -/
def addSoftwareType (catalog : Catalog) (type : SoftwareType) : Except RegistryError Catalog := do
  let extended ←
    SoftwareType.owners.foldlM (addFunction · type.configuringFunction ·) catalog
  return { extended with types := extended.types ++ type.types }

/-- Adds software types in order; `seen` lists the names of those already added. -/
def addSoftwareTypes (catalog : Catalog) :
    List String → List SoftwareType → Except RegistryError Catalog
  | _, [] => .ok catalog
  | seen, type :: types => do
    if type.name ∈ seen then throw (.duplicateSoftwareType type.name)
    (← catalog.addSoftwareType type).addSoftwareTypes (type.name :: seen) types

/-- The catalog with the software types of a registry. -/
def withRegistry (catalog : Catalog) (registry : Registry) : Except RegistryError Catalog :=
  catalog.addSoftwareTypes [] registry.softwareTypes

end Catalog

end ConfigScript
