import ConfigScript.Proofs.Resolution.Framed
import ConfigScript.Proofs.Syntax.Moved
import ConfigScript.Resolution.Resolve

/-!
# Operations in another place

What remains of operations, diagnostics and environments when every span in them is moved. A move
keeps types, names and wordings, so nothing that is asked of a part of a script during its
resolution can tell the part from its moved form.
-/

namespace ConfigScript

mutual

def TypedExpr.mapSpans (move : Span → Span) : TypedExpr → TypedExpr
  | .constant value span => .constant value (move span)
  | .null span => .null (move span)
  | .receiver type depth span => .receiver type depth (move span)
  | .localValue name type span => .localValue name type (move span)
  | .property owner read span => .property (owner.mapSpans move) read (move span)
  | .object name type span => .object name type (move span)
  | .invocation call => .invocation (call.mapSpans move)

def Invocation.mapSpans (move : Span → Span) : Invocation → Invocation
  | .mk callee receiver semantics arguments block span =>
    .mk callee (receiverMapSpans move receiver) semantics (boundMapSpans move arguments)
      (blockMapSpans move block) (move span)

def receiverMapSpans (move : Span → Span) : Option TypedExpr → Option TypedExpr
  | none => none
  | some receiver => some (receiver.mapSpans move)

def BoundArgument.mapSpans (move : Span → Span) : BoundArgument → BoundArgument
  | .mk parameter value => .mk parameter (value.mapSpans move)

def boundMapSpans (move : Span → Span) : List BoundArgument → List BoundArgument
  | [] => []
  | argument :: arguments => argument.mapSpans move :: boundMapSpans move arguments

def blockMapSpans (move : Span → Span) : Option (List Operation) → Option (List Operation)
  | none => none
  | some operations => some (operationsMapSpans move operations)

def operationsMapSpans (move : Span → Span) : List Operation → List Operation
  | [] => []
  | operation :: operations => operation.mapSpans move :: operationsMapSpans move operations

def Operation.mapSpans (move : Span → Span) : Operation → Operation
  | .write receiver target value span =>
    .write (receiver.mapSpans move) target (value.mapSpans move) (move span)
  | .bind name value span => .bind name (value.mapSpans move) (move span)
  | .invoke call => .invoke (call.mapSpans move)
  | .evaluate value => .evaluate (value.mapSpans move)

end

namespace Diagnostic

def Cause.mapSpans (move : Span → Span) : Cause → Cause
  | .duplicateLocal name first => .duplicateLocal name (move first)
  | cause => cause

def mapSpans (move : Span → Span) (diagnostic : Diagnostic) : Diagnostic :=
  ⟨diagnostic.cause.mapSpans move, move diagnostic.span⟩

end Diagnostic

def Resolution.mapSpans (move : Span → Span) (resolution : Resolution) : Resolution :=
  ⟨resolution.operations.map (Operation.mapSpans move),
    resolution.diagnostics.map (Diagnostic.mapSpans move)⟩

/-- An attempt in another place, whose result is changed with it. -/
def Attempt.moved {α β : Type} (move : Span → Span) (change : α → β) (attempt : Attempt α) :
    Attempt β :=
  ⟨attempt.result.map change, attempt.diagnostics.map (Diagnostic.mapSpans move)⟩

def GivenArgument.mapSpans (move : Span → Span) (argument : GivenArgument) : GivenArgument :=
  { argument with value := argument.value.mapSpans move }

def LocalBinding.mapSpans (move : Span → Span) (binding : LocalBinding) : LocalBinding :=
  { binding with span := move binding.span }

def Scope.mapSpans (move : Span → Span) (scope : Scope) : Scope :=
  { scope with locals := scope.locals.map fun (name, binding) => (name, binding.mapSpans move) }

def Environment.mapSpans (move : Span → Span) (environment : Environment) : Environment :=
  { environment with scopes := environment.scopes.map (Scope.mapSpans move) }

section MapSpans

variable {move : Span → Span}

theorem receiverMapSpans_eq_map (receiver : Option TypedExpr) :
    receiverMapSpans move receiver = receiver.map (TypedExpr.mapSpans move) := by
  cases receiver with
  | none => rw [receiverMapSpans, Option.map_none]
  | some receiver => rw [receiverMapSpans, Option.map_some]

theorem boundMapSpans_eq_map (arguments : List BoundArgument) :
    boundMapSpans move arguments = arguments.map (BoundArgument.mapSpans move) := by
  induction arguments with
  | nil => rw [boundMapSpans, List.map_nil]
  | cons argument arguments ih => rw [boundMapSpans, List.map_cons, ih]

theorem operationsMapSpans_eq_map (operations : List Operation) :
    operationsMapSpans move operations = operations.map (Operation.mapSpans move) := by
  induction operations with
  | nil => rw [operationsMapSpans, List.map_nil]
  | cons operation operations ih => rw [operationsMapSpans, List.map_cons, ih]

theorem blockMapSpans_eq_map (block : Option (List Operation)) :
    blockMapSpans move block = block.map (List.map (Operation.mapSpans move)) := by
  cases block with
  | none => rw [blockMapSpans, Option.map_none]
  | some operations => rw [blockMapSpans, Option.map_some, operationsMapSpans_eq_map]

@[simp] theorem TypedExpr.type_mapSpans (value : TypedExpr) :
    (value.mapSpans move).type = value.type := by
  cases value with
  | invocation call =>
    obtain ⟨callee, receiver, semantics, arguments, block, span⟩ := call
    simp only [TypedExpr.mapSpans, Invocation.mapSpans, TypedExpr.type, Invocation.resultType,
      Invocation.semantics]
  | _ => simp only [TypedExpr.mapSpans, TypedExpr.type]

@[simp] theorem GivenArgument.type_mapSpans (argument : GivenArgument) :
    (argument.mapSpans move).type = argument.type :=
  argument.value.type_mapSpans

@[simp] theorem Operation.boundType?_mapSpans (operation : Operation) :
    (operation.mapSpans move).boundType? = operation.boundType? := by
  cases operation with
  | bind name value span =>
    simp only [Operation.mapSpans, Operation.boundType?, TypedExpr.type_mapSpans]
  | _ => simp only [Operation.mapSpans, Operation.boundType?]

theorem Operation.mapSpans_ofExpr (value : TypedExpr) :
    (Operation.ofExpr value).mapSpans move = .ofExpr (value.mapSpans move) := by
  cases value <;> simp only [Operation.ofExpr, Operation.mapSpans, TypedExpr.mapSpans]

@[simp] theorem Expr.span_mapSpans (value : Expr) :
    (value.mapSpans move).span = move value.span := by
  cases value with
  | property receiver => cases receiver <;> rfl
  | call receiver => cases receiver <;> rfl
  | _ => rfl

theorem Expr.mapSpans_call (receiver : Option Expr) (name : String) (arguments : List Argument)
    (span : Span) :
    (Expr.call receiver name arguments span).mapSpans move =
      .call (receiver.map (Expr.mapSpans move)) name (argumentsMapSpans move arguments)
        (move span) := by
  cases receiver <;> rfl

theorem Argument.isLambda_mapSpans (argument : Argument) :
    (argument.mapSpans move).isLambda = argument.isLambda := by
  cases argument <;> rfl

theorem any_isLambda_mapSpans (arguments : List Argument) :
    (argumentsMapSpans move arguments).any Argument.isLambda =
      arguments.any Argument.isLambda := by
  induction arguments with
  | nil => rfl
  | cons argument arguments ih =>
    rw [argumentsMapSpans, List.any_cons, List.any_cons, Argument.isLambda_mapSpans, ih]

namespace Diagnostic

@[simp] theorem code_mapSpans (diagnostic : Diagnostic) :
    (diagnostic.mapSpans move).code = diagnostic.code := by
  obtain ⟨cause, span⟩ := diagnostic
  cases cause <;> rfl

@[simp] theorem message_mapSpans (diagnostic : Diagnostic) :
    (diagnostic.mapSpans move).message = diagnostic.message := by
  obtain ⟨cause, span⟩ := diagnostic
  cases cause <;> rfl

theorem related_mapSpans (diagnostic : Diagnostic) :
    (diagnostic.mapSpans move).cause.related =
      diagnostic.cause.related.map fun (text, span) => (text, move span) := by
  obtain ⟨cause, span⟩ := diagnostic
  cases cause <;> rfl

end Diagnostic

namespace Environment

@[simp] theorem schema_mapSpans (environment : Environment) :
    (environment.mapSpans move).schema = environment.schema :=
  rfl

@[simp] theorem imports_mapSpans (environment : Environment) :
    (environment.mapSpans move).imports = environment.imports :=
  rfl

@[simp] theorem scopes_mapSpans (environment : Environment) :
    (environment.mapSpans move).scopes = environment.scopes.map (Scope.mapSpans move) :=
  rfl

@[simp] theorem importedObject?_mapSpans (environment : Environment) (name : String) :
    (environment.mapSpans move).importedObject? name = environment.importedObject? name :=
  rfl

theorem enter_mapSpans (environment : Environment) (type : QualifiedName) :
    (environment.mapSpans move).enter type = (environment.enter type).mapSpans move :=
  rfl

end Environment

/-- What is the matter with a call is said without a place. -/
theorem mapSpans_of_selectCandidate {schema : Schema} {name : String} {candidates : List Candidate}
    {arguments : List GivenArgument} {hasBlock : Bool} {cause : Diagnostic.Cause}
    (h : selectCandidate schema name candidates arguments hasBlock = .error cause) :
    cause.mapSpans move = cause := by
  unfold selectCandidate at h
  dsimp only at h
  split at h
  · cases h
  · obtain rfl := Except.error.inj h
    rfl
  · split at h
    · obtain rfl := Except.error.inj h
      rfl
    · split at h
      all_goals
        obtain rfl := Except.error.inj h
        rfl

end MapSpans

namespace Attempt

variable {α β γ δ : Type} {move : Span → Span}

theorem moved_ok {value : α} {change : α → β} : (ok value).moved move change = ok (change value) :=
  rfl

theorem moved_fail {cause : Diagnostic.Cause} {span : Span} {change : α → β} :
    (fail cause span : Attempt α).moved move change = fail (cause.mapSpans move) (move span) :=
  rfl

/-- A chain of attempts is moved by moving each of them. -/
theorem bind_moved {first : Attempt α} {next : α → Attempt β} {change : α → γ} {after : β → δ}
    {movedNext : γ → Attempt δ}
    (h : ∀ value, movedNext (change value) = (next value).moved move after) :
    first.moved move change >>= movedNext = (first >>= next).moved move after := by
  cases hresult : first.result with
  | none =>
    rw [bind_of_none hresult, bind_of_none (by rw [moved, hresult, Option.map_none])]
    rfl
  | some value =>
    have hmoved : (first.moved move change).result = some (change value) := by
      rw [moved, hresult, Option.map_some]
    rw [bind_of_some hresult, bind_of_some hmoved, h value]
    simp only [moved, List.map_append]

theorem map_moved {first : Attempt α} {change : α → γ} {after : β → δ} {own : α → β}
    {movedOwn : γ → δ} (h : ∀ value, movedOwn (change value) = after (own value)) :
    movedOwn <$> first.moved move change = (own <$> first).moved move after :=
  bind_moved fun value => congrArg ok (h value)

theorem both_moved {first : Attempt α} {second : Attempt β} {change : α → γ} {other : β → δ} :
    (first.moved move change).both (second.moved move other) =
      (first.both second).moved move (Prod.map change other) := by
  simp only [both, moved, List.map_append]
  cases first.result <;> cases second.result <;> rfl

end Attempt

/-! ### Without places -/

def TypedExpr.eraseSpans : TypedExpr → TypedExpr :=
  mapSpans fun _ => .blank

def Operation.eraseSpans : Operation → Operation :=
  mapSpans fun _ => .blank

def Diagnostic.eraseSpans : Diagnostic → Diagnostic :=
  mapSpans fun _ => .blank

/-- What a diagnostic says: its code, its message and the texts of its notes. -/
def Diagnostic.wording (diagnostic : Diagnostic) : DiagnosticCode × String × List String :=
  (diagnostic.code, diagnostic.message, diagnostic.cause.related.map Prod.fst)

theorem Diagnostic.wording_eraseSpans (diagnostic : Diagnostic) :
    diagnostic.eraseSpans.wording = diagnostic.wording := by
  unfold wording eraseSpans
  rw [code_mapSpans, message_mapSpans, related_mapSpans, List.map_map]
  rfl

/-- The same diagnostics in the same order, wherever they stand. -/
structure SameReports (left right : List Diagnostic) : Prop where
  erased : left.map Diagnostic.eraseSpans = right.map Diagnostic.eraseSpans
  wording : left.map Diagnostic.wording = right.map Diagnostic.wording

/-- The same operations and the same diagnostics, wherever they stand. -/
structure Resolution.Same (left right : Resolution) : Prop where
  operations : left.operations.map Operation.eraseSpans =
    right.operations.map Operation.eraseSpans
  diagnostics : SameReports left.diagnostics right.diagnostics

/-- Two expressions that have the same meaning, or none for the same reasons. -/
inductive SameOutcome :
    Except (List Diagnostic) TypedExpr → Except (List Diagnostic) TypedExpr → Prop where
  | ok {left right : TypedExpr} (h : left.eraseSpans = right.eraseSpans) :
      SameOutcome (.ok left) (.ok right)
  | error {left right : List Diagnostic} (h : SameReports left right) :
      SameOutcome (.error left) (.error right)

theorem sameReports_of_erased {left right : List Diagnostic}
    (h : left.map Diagnostic.eraseSpans = right.map Diagnostic.eraseSpans) :
    SameReports left right := by
  have hwording : ∀ diagnostics : List Diagnostic,
      (diagnostics.map Diagnostic.eraseSpans).map Diagnostic.wording =
        diagnostics.map Diagnostic.wording := by
    intro diagnostics
    rw [List.map_map]
    exact List.map_congr_left fun diagnostic _ => diagnostic.wording_eraseSpans
  exact ⟨h, by rw [← hwording left, h, hwording right]⟩

end ConfigScript
