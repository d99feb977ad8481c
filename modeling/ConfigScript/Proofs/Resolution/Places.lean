import ConfigScript.Resolution.Resolve

/-!
# Places in a script

A place is a script with a gap where a statement may stand, at the top or inside a configure block
at any depth. An outline is a list of operations with a gap of that kind, or without one if the
block around the place comes to no operation.
-/

namespace ConfigScript

namespace Statement

/-- Whether a statement is neither an import nor the declaration of a value. -/
def declaresNothing : Statement → Bool
  | .importName _ _ => false
  | .localValue _ _ _ => false
  | _ => true

theorem isImport_of_declaresNothing {statement : Statement}
    (h : statement.declaresNothing = true) : statement.isImport = false := by
  cases statement with
  | importName => cases h
  | _ => rfl

end Statement

/-- An argument that is no lambda, with its name if one is written. -/
def Argument.ofValue : Option String → Expr → Span → Argument
  | none, value, span => .positional value span
  | some name, value, span => .named name value span

mutual

/-- A place among the statements of a block, or inside one of them. -/
inductive StatementsPlace where
  | here (before after : List Statement)
  | inside (before : List Statement) (statement : StatementPlace) (after : List Statement)

/-- A place in the receiver of an assignment, in the value of one, in the initialiser of a value or
in a statement that is an expression. -/
inductive StatementPlace where
  | receiver (receiver : ExprPlace) (name : String) (target : Span) (value : Expr) (span : Span)
  | value (receiver : Option Expr) (name : String) (target : Span) (value : ExprPlace)
      (span : Span)
  | initialiser (name : String) (value : ExprPlace) (span : Span)
  | expr (value : ExprPlace)

/-- A place in the block behind a call, which may be part of another expression. -/
inductive ExprPlace where
  | property (receiver : ExprPlace) (name : String) (span : Span)
  | receiver (receiver : ExprPlace) (name : String) (arguments : List Argument) (span : Span)
  | argument (receiver : Option Expr) (name : String) (before : List Argument)
      (label : Option String) (value : ExprPlace) (valueSpan : Span) (after : List Argument)
      (span : Span)
  | block (receiver : Option Expr) (name : String) (before : List Argument)
      (body : StatementsPlace) (bodySpan lambdaSpan : Span) (after : List Argument) (span : Span)

end

mutual

/-- The statements around a place, with others in the gap. -/
def StatementsPlace.fill (gap : List Statement) : StatementsPlace → List Statement
  | .here before after => before ++ gap ++ after
  | .inside before statement after => before ++ statement.fill gap :: after

def StatementPlace.fill (gap : List Statement) : StatementPlace → Statement
  | .receiver receiver name target value span =>
    .assignment (some (receiver.fill gap)) name target value span
  | .value receiver name target value span =>
    .assignment receiver name target (value.fill gap) span
  | .initialiser name value span => .localValue name (value.fill gap) span
  | .expr value => .expr (value.fill gap)

def ExprPlace.fill (gap : List Statement) : ExprPlace → Expr
  | .property receiver name span => .property (some (receiver.fill gap)) name span
  | .receiver receiver name arguments span =>
    .call (some (receiver.fill gap)) name arguments span
  | .argument receiver name before label value valueSpan after span =>
    .call receiver name (before ++ .ofValue label (value.fill gap) valueSpan :: after) span
  | .block receiver name before body bodySpan lambdaSpan after span =>
    .call receiver name (before ++ .lambda (.mk (body.fill gap) bodySpan) lambdaSpan :: after)
      span

end

namespace ExprPlace

def span : ExprPlace → Span
  | .property _ _ span => span
  | .receiver _ _ _ span => span
  | .argument _ _ _ _ _ _ _ span => span
  | .block _ _ _ _ _ _ _ span => span

@[simp] theorem span_fill (source : ExprPlace) (gap : List Statement) :
    (source.fill gap).span = source.span := by
  cases source <;> rw [fill] <;> rfl

end ExprPlace

mutual

/-- Operations with a gap among them or inside one of them, or without a gap. -/
inductive OperationsOutline where
  | fixed (operations : List Operation)
  | here (before after : List Operation)
  | inside (before : List Operation) (operation : OperationOutline) (after : List Operation)

inductive OperationOutline where
  | receiver (receiver : ExprOutline) (target : Property) (value : TypedExpr) (span : Span)
  | value (receiver : TypedExpr) (target : Property) (value : ExprOutline) (span : Span)
  | bind (name : String) (value : ExprOutline) (span : Span)
  | ofExpr (value : ExprOutline)

inductive ExprOutline where
  | fixed (value : TypedExpr)
  | property (owner : ExprOutline) (read : Property) (span : Span)
  | receiver (callee : Callee) (receiver : ExprOutline) (semantics : Semantics)
      (arguments : List BoundArgument) (block : Option (List Operation)) (span : Span)
  | argument (callee : Callee) (receiver : Option TypedExpr) (semantics : Semantics)
      (before : List BoundArgument) (parameter : Parameter) (value : ExprOutline)
      (after : List BoundArgument) (block : Option (List Operation)) (span : Span)
  | block (callee : Callee) (receiver : Option TypedExpr) (semantics : Semantics)
      (arguments : List BoundArgument) (operations : OperationsOutline) (span : Span)

end

mutual

/-- The operations of an outline, with others in the gap. -/
def OperationsOutline.fill (gap : List Operation) : OperationsOutline → List Operation
  | .fixed operations => operations
  | .here before after => before ++ gap ++ after
  | .inside before operation after => before ++ operation.fill gap :: after

def OperationOutline.fill (gap : List Operation) : OperationOutline → Operation
  | .receiver receiver target value span => .write (receiver.fill gap) target value span
  | .value receiver target value span => .write receiver target (value.fill gap) span
  | .bind name value span => .bind name (value.fill gap) span
  | .ofExpr value => .ofExpr (value.fill gap)

def ExprOutline.fill (gap : List Operation) : ExprOutline → TypedExpr
  | .fixed value => value
  | .property owner read span => .property (owner.fill gap) read span
  | .receiver callee receiver semantics arguments block span =>
    .invocation (.mk callee (some (receiver.fill gap)) semantics arguments block span)
  | .argument callee receiver semantics before parameter value after block span =>
    .invocation (.mk callee receiver semantics
      (before ++ .mk parameter (value.fill gap) :: after) block span)
  | .block callee receiver semantics arguments operations span =>
    .invocation (.mk callee receiver semantics arguments (some (operations.fill gap)) span)

end

variable {gap : List Operation}

namespace ExprOutline

def type : ExprOutline → TypeRef
  | .fixed value => value.type
  | .property _ read _ => read.type
  | .receiver _ _ semantics _ _ _ => semantics.returnType
  | .argument _ _ semantics _ _ _ _ _ _ => semantics.returnType
  | .block _ _ semantics _ _ _ => semantics.returnType

/-- What stands in a block has no part in the type of an expression around it. -/
@[simp] theorem type_fill (outline : ExprOutline) : (outline.fill gap).type = outline.type := by
  cases outline <;> rw [fill] <;> rfl

end ExprOutline

namespace OperationOutline

def boundType? : OperationOutline → Option TypeRef
  | .bind _ initialiser _ => some initialiser.type
  | _ => none

@[simp] theorem boundType?_fill (outline : OperationOutline) :
    (outline.fill gap).boundType? = outline.boundType? := by
  cases outline with
  | receiver owner target assigned span =>
    rw [fill]
    rfl
  | value owner target assigned span =>
    rw [fill]
    rfl
  | bind name initialiser span =>
    rw [fill]
    exact congrArg some initialiser.type_fill
  | ofExpr evaluated =>
    rw [fill]
    cases evaluated.fill gap <;> rfl

end OperationOutline

end ConfigScript
