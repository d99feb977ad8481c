/-!
# Catalogs

A catalog declares the host types that scripts may use: their properties, functions and
constructors, and beside them functions and objects of packages. Names and types are kept as they
are spelled; what they mean is settled when a schema is built. A registry adds software types,
each a block name with the model type that the block configures.
-/

namespace ConfigScript

structure PropertyDecl where
  name : String
  type : String
  readOnly : Bool
  hasDefault : Bool
deriving DecidableEq, Repr

structure ParameterDecl where
  name : String
  type : String
  /-- The argument may be left out. -/
  optional : Bool
  /-- The property of the function's target that receives the argument. -/
  stores : Option String
deriving DecidableEq, Repr

/-- How a call of a function interacts with the objects it touches. -/
inductive FunctionKind where
  | pure
  | builder
  | adding
  | configuring
deriving DecidableEq, Repr

structure FunctionDecl where
  name : String
  kind : FunctionKind
  parameters : List ParameterDecl
  returns : Option String
  /-- The property of the receiver that the function configures. -/
  configures : Option String
  /-- The identifier of the accessor through which the function reaches what it configures. -/
  accessor : Option String
deriving DecidableEq, Repr

structure ConstructorDecl where
  parameters : List ParameterDecl
deriving DecidableEq, Repr

structure TypeDecl where
  name : String
  supertypes : List String
  properties : List PropertyDecl
  functions : List FunctionDecl
  constructors : List ConstructorDecl
deriving DecidableEq, Repr

structure PackageFunctionDecl where
  package : String
  name : String
  kind : FunctionKind
  parameters : List ParameterDecl
  returns : Option String
deriving DecidableEq, Repr

structure ObjectDecl where
  name : String
  type : String
deriving DecidableEq, Repr

structure Catalog where
  types : List TypeDecl
  functions : List PackageFunctionDecl
  objects : List ObjectDecl
  defaultImports : List String
deriving DecidableEq, Repr

structure SoftwareType where
  name : String
  model : String
  types : List TypeDecl
deriving DecidableEq, Repr

structure Registry where
  softwareTypes : List SoftwareType
deriving DecidableEq, Repr

namespace Catalog

def empty : Catalog :=
  ⟨[], [], [], []⟩

/-- Adds the texts that are not among those already there, each once. -/
def appendNew (present added : List String) : List String :=
  added.foldl (fun texts text => if text ∈ texts then texts else texts ++ [text]) present

/-- Appends all declarations of `other`. A type that both declare stands there twice, and no default
name is repeated among the imports. -/
def merge (catalog other : Catalog) : Catalog where
  types := catalog.types ++ other.types
  functions := catalog.functions ++ other.functions
  objects := catalog.objects ++ other.objects
  defaultImports := appendNew catalog.defaultImports other.defaultImports

/-- The catalogs merged one after another into the empty one. -/
def mergeAll (catalogs : List Catalog) : Catalog :=
  catalogs.foldl merge empty

/-- The first type declared under a name. -/
def type? (catalog : Catalog) (name : String) : Option TypeDecl :=
  catalog.types.find? (·.name == name)

/-- Applies a change to the first type declared under a name, if there is one. -/
def modifyType (catalog : Catalog) (name : String) (change : TypeDecl → TypeDecl) : Catalog :=
  { catalog with types := go catalog.types }
where
  go : List TypeDecl → List TypeDecl
    | [] => []
    | type :: types => if type.name = name then change type :: types else type :: go types

end Catalog

namespace Registry

def empty : Registry :=
  ⟨[]⟩

def merge (registry other : Registry) : Registry :=
  ⟨registry.softwareTypes ++ other.softwareTypes⟩

def mergeAll (registries : List Registry) : Registry :=
  registries.foldl merge empty

end Registry

end ConfigScript
