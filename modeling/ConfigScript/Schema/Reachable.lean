import ConfigScript.Schema.Declarations

/-!
# Types that a schema needs

A schema holds the types that can be reached from its receiver, from the functions and objects of
packages, and from the default imports that name types. A type may be mentioned and not declared;
the search goes on all the same, so that it finds every such type.
-/

namespace ConfigScript.Declarations

/-- A type that the search has met, with the links that led to it. -/
structure Visit where
  name : QualifiedName
  chain : List Link

/-- The types that the functions, objects and default imports of a catalog mention. -/
def mentionedByPackages (declarations : Declarations) (catalog : Catalog) :
    Except BuildError (List Visit) := do
  let functions ← catalog.functions.flatMapM fun function => do
    let texts := function.parameters.map (·.type) ++ function.returns.toList
    let names ← texts.filterMapM (className? declarations.style)
    return names.map fun name => ⟨name, [.function function.package function.name]⟩
  let objects ← catalog.objects.filterMapM fun object => do
    let name ← className? declarations.style object.type
    return name.map fun name => ⟨name, [.object object.name]⟩
  let imports ← catalog.defaultImports.filterMapM fun text => do
    let name ← buildName (QualifiedName.parse text)
    return if declarations.types.contains name then some ⟨name, []⟩ else none
  return functions ++ objects ++ imports

/-- Visits the types of a queue in turn, each name once, and puts the types that it refers to at
the end of the queue. -/
def visitTypes (declarations : Declarations) : Nat → List QualifiedName → List Visit →
    Except BuildError (List Visit)
  | 0, _, _ => .ok []
  | _, _, [] => .ok []
  | budget + 1, seen, visit :: queue =>
    if visit.name ∈ seen then declarations.visitTypes budget seen queue
    else do
      let next ←
        match declarations.types.find? visit.name with
        | none => pure []
        | some decl => declarations.references visit.name decl
      let found := next.map fun (link, name) => ⟨name, visit.chain ++ [link]⟩
      let later ← declarations.visitTypes budget (visit.name :: seen) (queue ++ found)
      return visit :: later

/-- How many references all declared types make, an upper bound. -/
def referenceCount (declarations : Declarations) : Nat :=
  (declarations.types.values.flatMap fun decl =>
    decl.mentions.map Prod.snd ++ decl.supertypes).length

/-- The declared types that a schema with this receiver needs. -/
def reachable (declarations : Declarations) (catalog : Catalog) (receiver : QualifiedName) :
    Except BuildError NameSet := do
  let queue := ⟨receiver, []⟩ :: (← declarations.mentionedByPackages catalog)
  let visits ←
    declarations.visitTypes (queue.length + declarations.referenceCount) [] queue
  let (declared, unresolved) := visits.partition fun visit => declarations.types.contains visit.name
  if unresolved.isEmpty then return .ofList (declared.map Visit.name)
  else throw (.unresolvedTypes (unresolved.map fun visit => ⟨visit.name, visit.chain⟩))

end ConfigScript.Declarations
