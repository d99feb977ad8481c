import ConfigScript.Resolution.Attempt
import ConfigScript.Resolution.Binding
import ConfigScript.Resolution.Imports

/-!
# Environments

What a name means at a place of a script: the values that are named in the blocks around it, the
objects that those blocks configure, and the imported entities of the schema. A name is looked up
from the innermost block outward.
-/

namespace ConfigScript

/-- A value that a block names. Its type is unknown when the expression behind the name failed. -/
structure LocalBinding where
  type : Option TypeRef
  span : Span

/-- One block: the class of the object that it configures, if there is one, and the values that it
has named so far, the last one first. -/
structure Scope where
  receiver : Option QualifiedName
  locals : List (String × LocalBinding)

/-- A schema, what is imported of it, and the scopes around a place, innermost first. -/
structure Environment where
  schema : Schema
  imports : Imports
  scopes : List Scope

namespace Scope

/-- The objects that blocks configure, innermost first, each with the number of scopes around its
own. -/
def receivers : List Scope → List (Nat × QualifiedName)
  | [] => []
  | scope :: outer =>
    match scope.receiver with
    | some type => (outer.length, type) :: receivers outer
    | none => receivers outer

/-- Names a value in the innermost scope; a name that it has already keeps its meaning. -/
def declare (name : String) (binding : LocalBinding) : List Scope → List Scope
  | [] => []
  | scope :: outer =>
    if (scope.locals.lookup name).isSome then scope :: outer
    else { scope with locals := (name, binding) :: scope.locals } :: outer

end Scope

namespace Environment

/-- The environment inside a block that configures an object of a class. -/
def enter (environment : Environment) (receiver : QualifiedName) : Environment :=
  { environment with scopes := ⟨some receiver, []⟩ :: environment.scopes }

/-- The innermost value of a name. -/
def local? (environment : Environment) (name : String) : Option LocalBinding :=
  environment.scopes.findSome? fun scope => scope.locals.lookup name

/-- The value of a name that the innermost block itself has named. -/
def declaredHere? (environment : Environment) (name : String) : Option LocalBinding :=
  environment.scopes.head?.bind fun scope => scope.locals.lookup name

/-- The environment behind a statement, which came to an operation or failed. Only a statement
that names a value changes it. -/
def after (environment : Environment) (result : Option Operation) : Statement → Environment
  | .localValue name _ span =>
    let binding := ⟨result.bind Operation.boundType?, span⟩
    { environment with scopes := Scope.declare name binding environment.scopes }
  | _ => environment

/-- The innermost object in scope. -/
def this? (environment : Environment) (span : Span) : Option TypedExpr :=
  (Scope.receivers environment.scopes).head?.map fun (depth, type) => .receiver type depth span

/-- The innermost object in scope whose class has a property of that name. -/
def receiverProperty? (environment : Environment) (name : String) (span : Span) :
    Option (TypedExpr × Property) :=
  (Scope.receivers environment.scopes).findSome? fun (depth, type) => do
    let property ← (← environment.schema.classes.find? type).property? name
    return (.receiver type depth span, property)

/-- The innermost object in scope whose class has a function of that name, with those functions. -/
def receiverFunctions? (environment : Environment) (name : String) (span : Span) :
    Option (TypedExpr × List Candidate) :=
  (Scope.receivers environment.scopes).findSome? fun (depth, type) =>
    match environment.schema.memberCandidates type name with
    | [] => none
    | candidates => some (.receiver type depth span, candidates)

def importedObject? (environment : Environment) (name : String) :
    Option (QualifiedName × TypeRef) := do
  let object ← environment.imports.find? name
  return (object, ← environment.schema.objects.find? object)

/-- A name without receiver: a local value, else a property of an object in scope, else an imported
object. -/
def readName (environment : Environment) (name : String) (span : Span) : Attempt TypedExpr :=
  match environment.local? name with
  | some ⟨some type, _⟩ => .ok (.localValue name type span)
  | some ⟨none, _⟩ => .silent
  | none =>
    match environment.receiverProperty? name span with
    | some (receiver, property) => .ok (.property receiver property span)
    | none =>
      match environment.importedObject? name with
      | some (object, type) => .ok (.object object type span)
      | none => .fail (.unresolvedReference name) span

/-- The type whose members an access through `receiver` means; `null` has no members. -/
def memberOwner (receiver : TypedExpr) (span : Span) : Attempt TypeRef :=
  match receiver.type with
  | .null => .fail .membersOfNull span
  | type => .ok type

/-- The property of a receiver. -/
def memberProperty (environment : Environment) (receiver : TypedExpr) (name : String)
    (span : Span) : Attempt Property := do
  let owner ← memberOwner receiver span
  match owner.className?.bind environment.schema.classes.find? |>.bind (·.property? name) with
  | some property => .ok property
  | none => .fail (.unresolvedProperty name owner) span

/-- The property that an assignment without receiver means. A local value hides it. -/
def assignedName (environment : Environment) (name : String) (span : Span) :
    Attempt (TypedExpr × Property) :=
  match environment.local? name with
  | some ⟨some _, _⟩ => .fail (.reassignedLocal name) span
  | some ⟨none, _⟩ => .silent
  | none =>
    match environment.receiverProperty? name span with
    | some found => .ok found
    | none => .fail (.unresolvedTarget name) span

/-- The property that an assignment writes, and the object that has it. -/
def assignedProperty (environment : Environment) (receiver : Option TypedExpr) (name : String)
    (span : Span) : Attempt (TypedExpr × Property) := do
  let (owner, property) ←
    match receiver with
    | none => environment.assignedName name span
    | some owner => (owner, ·) <$> environment.memberProperty owner name span
  if property.readOnly then .fail (.readOnlyProperty property.name) span
  else return (owner, property)

/-- The functions that a call may mean and the object that they are members of. Without receiver
they are those of the innermost object in scope that has any of that name, else imported ones. -/
def callTarget (environment : Environment) (receiver : Option TypedExpr) (name : String)
    (span : Span) : Attempt (Option TypedExpr × List Candidate) := do
  let (receiver, candidates) ←
    match receiver with
    | some receiver => do
      let owner ← memberOwner receiver span
      let candidates :=
        match owner.className? with
        | some type => environment.schema.memberCandidates type name
        | none => []
      pure (some receiver, candidates)
    | none =>
      match environment.receiverFunctions? name span with
      | some (receiver, candidates) => pure (some receiver, candidates)
      | none =>
        match environment.imports.find? name with
        | some imported => pure (none, environment.schema.packageCandidates imported)
        | none => pure (none, [])
  if candidates.isEmpty then .fail (.unresolvedFunction name) span
  else return (receiver, candidates)

/-- The function that a call means, with the arguments that its parameters get. -/
def choose (environment : Environment) (name : String) (candidates : List Candidate)
    (arguments : List GivenArgument) (hasBlock : Bool) (span : Span) :
    Attempt (Candidate × List BoundArgument) :=
  match selectCandidate environment.schema name candidates arguments hasBlock with
  | .ok (candidate, assignment) =>
    .ok (candidate, assignment.bound candidate.parameters arguments)
  | .error cause => .fail cause span

/-- Checks that a value may be assigned to a property. -/
def checkAssignable (environment : Environment) (property : Property) (value : TypedExpr)
    (span : Span) : Attempt Unit :=
  if environment.schema.isAssignable property.type value.type then .ok ()
  else .fail (.typeMismatch property.type value.type) span

end Environment

end ConfigScript
