import ConfigScript.Catalog.Basic
import ConfigScript.NameMap
import ConfigScript.NameSet
import ConfigScript.Reach
import ConfigScript.Schema.BuildError
import ConfigScript.Schema.LambdaStyle

/-!
# Declared types

The types of a catalog by name, the types that each of them mentions, and its lineage: the type
itself and all declared types above it, nearest first.
-/

namespace ConfigScript

/-- A name read where an invalid one makes the whole catalog unusable. -/
def buildName {α : Type} (result : Except InvalidName α) : Except BuildError α :=
  result.mapError .invalidName

/-- What type texts are read against: the declared types, and the style of configure lambdas. -/
structure Declarations where
  types : NameMap TypeDecl
  style : LambdaStyle

namespace TypeDecl

/-- The members of a type that mention types, each with the text of the type it mentions. -/
def mentions (decl : TypeDecl) : List (String × String) :=
  decl.properties.map (fun property => (property.name, property.type)) ++
    decl.functions.flatMap (fun function =>
      function.parameters.map (fun parameter => (function.name, parameter.type)) ++
        function.returns.toList.map (fun type => (function.name, type))) ++
    decl.constructors.flatMap (fun constructor =>
      constructor.parameters.map fun parameter => ("<init>", parameter.type))

end TypeDecl

namespace Declarations

def indexTypes (types : List TypeDecl) : Except BuildError (NameMap TypeDecl) :=
  types.foldlM (fun index decl => do
    let name ← buildName (QualifiedName.parse decl.name)
    if index.contains name then throw (.duplicateType decl.name)
    return index.insert name decl) .empty

def ofCatalog (catalog : Catalog) (style : LambdaStyle) : Except BuildError Declarations := do
  return ⟨← indexTypes catalog.types, style⟩

/-- The class that a type text names, be it the class that a block of that type configures. -/
def className? (style : LambdaStyle) (text : String) :
    Except BuildError (Option QualifiedName) := do
  let type ← buildName (TypeRef.parse ((style.configuredType? text).getD text))
  return type.className?

/-- The classes that a declared type mentions and its declared supertypes, with the links to
them. -/
def references (declarations : Declarations) (name : QualifiedName) (decl : TypeDecl) :
    Except BuildError (List (Link × QualifiedName)) := do
  let mentioned ← decl.mentions.filterMapM fun (member, text) => do
    return (← className? declarations.style text).map fun type => (Link.member name member, type)
  let inherited ← decl.supertypes.filterMapM fun text => do
    let supertype ← buildName (QualifiedName.parse text)
    if declarations.types.contains supertype then
      return some (Link.supertype name supertype, supertype)
    else return none
  return mentioned ++ inherited

/-- The supertypes that a declared type names, whether declared or not. -/
def supertypesOf (declarations : Declarations) (name : QualifiedName) : List QualifiedName :=
  match declarations.types.find? name with
  | some decl => decl.supertypes.filterMap fun text => (QualifiedName.parse text).toOption
  | none => []

def supertypeCount (declarations : Declarations) : Nat :=
  (declarations.types.values.flatMap fun decl => decl.supertypes).length

/-- A type and its declared supertypes, nearest first. -/
def lineage (declarations : Declarations) (name : QualifiedName) :
    List (QualifiedName × TypeDecl) :=
  (reachFrom declarations.supertypesOf declarations.supertypeCount name).filterMap fun above =>
    (declarations.types.find? above).map fun decl => (above, decl)

end Declarations

end ConfigScript
