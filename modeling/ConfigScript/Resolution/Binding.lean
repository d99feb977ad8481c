import ConfigScript.Resolution.Diagnostic
import ConfigScript.Resolution.Operation
import ConfigScript.Schema.Basic

/-!
# Binding arguments

A call by name may mean several functions. Each of them either accepts the call, with an
assignment of the arguments to its parameters, or has a reason not to. Named arguments go to the
first parameter of their name, positional ones fill the parameters that are left, in order.
-/

namespace ConfigScript

/-- A function that a call may refer to. -/
structure Candidate where
  callee : Callee
  parameters : List Parameter
  semantics : Semantics
deriving DecidableEq

namespace Schema

/-- The functions of a class that have a name. -/
def memberCandidates (schema : Schema) (owner : QualifiedName) (name : String) :
    List Candidate :=
  match schema.classes.find? owner with
  | none => []
  | some dataClass =>
    (dataClass.functionsNamed name).map fun function =>
      ⟨.member owner function.name, function.parameters, function.semantics⟩

/-- The function with a qualified name, or else the constructors of the class with that name. -/
def packageCandidates (schema : Schema) (name : QualifiedName) : List Candidate :=
  match schema.functions.find? name with
  | some function => [⟨.function function.name, function.parameters, function.semantics⟩]
  | none =>
    match schema.classes.find? name with
    | none => []
    | some dataClass =>
      dataClass.constructors.map fun constructor =>
        ⟨.constructor name, constructor.parameters, .pure (.named name)⟩

end Schema

/-- An argument of a call that is no lambda, with its name if one is given. -/
structure GivenArgument where
  name : Option String
  value : TypedExpr

namespace GivenArgument

def type (argument : GivenArgument) : TypeRef :=
  argument.value.type

end GivenArgument

/-- For every parameter the position of the argument that it gets, if it gets one. -/
abbrev Assignment := List (Option Nat)

namespace Assignment

/-- Gives each named argument to the first parameter of its name. -/
def bindNamed (parameters : List Parameter) :
    List (GivenArgument × Nat) → Assignment → Except Mismatch Assignment
  | [], slots => .ok slots
  | (argument, index) :: arguments, slots =>
    match argument.name with
    | none => bindNamed parameters arguments slots
    | some name =>
      match parameters.findIdx? (·.name == name) with
      | none => .error (.unknownArgument name)
      | some position =>
        if slots[position]? = some none then
          bindNamed parameters arguments (slots.set position (some index))
        else .error (.repeatedArgument name)

/-- Gives the positional arguments to the parameters that have none, from the left. -/
def fill : Assignment → List Nat → Except Mismatch Assignment
  | slots, [] => .ok slots
  | [], _ :: _ => .error .tooManyArguments
  | some index :: slots, indices => (some index :: ·) <$> fill slots indices
  | none :: slots, index :: indices => (some index :: ·) <$> fill slots indices

/-- Checks that a parameter without argument may have none, and the type of the argument that it
gets. -/
def checkSlot (schema : Schema) (arguments : List GivenArgument) (parameter : Parameter)
    (slot : Option Nat) : Except Mismatch Unit :=
  match slot.bind (arguments[·]?) with
  | none => if parameter.optional then .ok () else .error (.missingArgument parameter.name)
  | some argument =>
    if schema.isAssignable parameter.type argument.type then .ok ()
    else .error (.wrongType parameter.name parameter.type argument.type)

/-- The parameters that get arguments, in their order, each with its argument. -/
def bound (parameters : List Parameter) (arguments : List GivenArgument)
    (assignment : Assignment) : List BoundArgument :=
  (parameters.zip assignment).filterMap fun (parameter, slot) =>
    (slot.bind (arguments[·]?)).map fun argument => .mk parameter argument.value

end Assignment

namespace Candidate

def checkBlock (candidate : Candidate) (hasBlock : Bool) : Except Mismatch Unit :=
  match candidate.semantics.blockRequirement, hasBlock with
  | .notAllowed, true => .error .unexpectedBlock
  | .required, false => .error .missingBlock
  | _, _ => .ok ()

/-- Accepts a call with these arguments, with or without a block behind it, or says what is the
matter first. -/
def accept (schema : Schema) (candidate : Candidate) (arguments : List GivenArgument)
    (hasBlock : Bool) : Except Mismatch Assignment := do
  candidate.checkBlock hasBlock
  let indexed := arguments.zipIdx
  let named ←
    Assignment.bindNamed candidate.parameters indexed (candidate.parameters.map fun _ => none)
  let positional := indexed.filterMap fun (argument, index) =>
    if argument.name.isNone then some index else none
  let assignment ← Assignment.fill named positional
  for (parameter, slot) in candidate.parameters.zip assignment do
    Assignment.checkSlot schema arguments parameter slot
  return assignment

end Candidate

/-- What becomes of a call that may mean any of several functions. -/
def selectCandidate (schema : Schema) (name : String) (candidates : List Candidate)
    (arguments : List GivenArgument) (hasBlock : Bool) :
    Except Diagnostic.Cause (Candidate × Assignment) :=
  let outcomes := candidates.map fun candidate =>
    (candidate, candidate.accept schema arguments hasBlock)
  let accepted := outcomes.filterMap fun (candidate, outcome) =>
    outcome.toOption.map fun assignment => (candidate, assignment)
  match accepted, outcomes with
  | [choice], _ => .ok choice
  | _ :: _ :: _, _ => .error (.ambiguousCall name accepted.length)
  | [], outcomes =>
    if outcomes.all fun (_, outcome) => outcome matches .error .unexpectedBlock then
      .error (.unexpectedBlock name)
    else
      match outcomes with
      | [(_, .error mismatch)] => .error (.inapplicable name mismatch)
      | _ => .error (.noneApplicable name)

end ConfigScript
