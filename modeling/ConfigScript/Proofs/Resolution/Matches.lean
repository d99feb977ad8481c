import Mathlib.Data.List.Perm.Basic
import ConfigScript.Resolution.Operation

/-!
# Operations that match their statements

Operations match a list of statements one to one and in order, at every level of blocks: what
stands for an expression has its span and its names, a call has a block if and only if a lambda was
written behind it, and the operations of the block match the statements of the lambda.
-/

namespace ConfigScript

mutual

/-- A resolved expression stands for an expression of the script. The arguments of a call may have
been put in another order, that of the parameters. -/
inductive ExprMatches : Expr → TypedExpr → Prop where
  | literal {value : Literal} {span : Span} :
      ExprMatches (.literal value span) (.constant value span)
  | null {span : Span} : ExprMatches (.null span) (.null span)
  | this {type : QualifiedName} {depth : Nat} {span : Span} :
      ExprMatches (.this span) (.receiver type depth span)
  | localValue {name : String} {type : TypeRef} {span : Span} :
      ExprMatches (.property none name span) (.localValue name type span)
  | object {name : String} {object : QualifiedName} {type : TypeRef} {span : Span}
      (hname : object.simpleName = name) :
      ExprMatches (.property none name span) (.object object type span)
  | property {receiver : Option Expr} {owner : TypedExpr} {name : String} {read : Property}
      {span : Span} (hreceiver : ReceiverMatches span receiver (some owner))
      (hname : read.name = name) :
      ExprMatches (.property receiver name span) (.property owner read span)
  | call {receiver : Option Expr} {target : Option TypedExpr} {name : String}
      {arguments : List Argument} {callee : Callee} {semantics : Semantics}
      {bound : List BoundArgument} {values : List TypedExpr}
      {block : Option (List Operation)} {span : Span}
      (hreceiver : ReceiverMatches span receiver target) (hname : callee.simpleName = name)
      (harguments : ArgumentsMatch arguments values block)
      (hbound : (bound.map BoundArgument.value).Perm values) :
      ExprMatches (.call receiver name arguments span)
        (.invocation (.mk callee target semantics bound block span))

/-- Where no receiver is written, an object in scope may stand for it, or there is none. -/
inductive ReceiverMatches : Span → Option Expr → Option TypedExpr → Prop where
  | none {span : Span} : ReceiverMatches span none none
  | scope {span : Span} {type : QualifiedName} {depth : Nat} :
      ReceiverMatches span none (some (.receiver type depth span))
  | written {span : Span} {receiver : Expr} {owner : TypedExpr} (h : ExprMatches receiver owner) :
      ReceiverMatches span (some receiver) (some owner)

/-- The values of the arguments in the order in which they are written, and the operations of the
lambda behind them. -/
inductive ArgumentsMatch : List Argument → List TypedExpr → Option (List Operation) → Prop where
  | nil : ArgumentsMatch [] [] none
  | lambda {statements : List Statement} {operations : List Operation} {bodySpan span : Span}
      (h : StatementsMatch statements operations) :
      ArgumentsMatch [.lambda (.mk statements bodySpan) span] [] (some operations)
  | positional {value : Expr} {resolved : TypedExpr} {arguments : List Argument}
      {values : List TypedExpr} {block : Option (List Operation)} {span : Span}
      (hvalue : ExprMatches value resolved) (hrest : ArgumentsMatch arguments values block) :
      ArgumentsMatch (.positional value span :: arguments) (resolved :: values) block
  | named {name : String} {value : Expr} {resolved : TypedExpr} {arguments : List Argument}
      {values : List TypedExpr} {block : Option (List Operation)} {span : Span}
      (hvalue : ExprMatches value resolved) (hrest : ArgumentsMatch arguments values block) :
      ArgumentsMatch (.named name value span :: arguments) (resolved :: values) block

inductive StatementMatches : Statement → Operation → Prop where
  | assignment {receiver : Option Expr} {name : String} {target span : Span} {value : Expr}
      {owner resolved : TypedExpr} {property : Property}
      (hreceiver : ReceiverMatches target receiver (some owner)) (hname : property.name = name)
      (hvalue : ExprMatches value resolved) :
      StatementMatches (.assignment receiver name target value span)
        (.write owner property resolved span)
  | localValue {name : String} {value : Expr} {resolved : TypedExpr} {span : Span}
      (hvalue : ExprMatches value resolved) :
      StatementMatches (.localValue name value span) (.bind name resolved span)
  | expr {value : Expr} {resolved : TypedExpr} {operation : Operation}
      (hvalue : ExprMatches value resolved) (hoperation : operation = .ofExpr resolved) :
      StatementMatches (.expr value) operation

inductive StatementsMatch : List Statement → List Operation → Prop where
  | nil : StatementsMatch [] []
  | cons {statement : Statement} {operation : Operation} {statements : List Statement}
      {operations : List Operation} (hfirst : StatementMatches statement operation)
      (hrest : StatementsMatch statements operations) :
      StatementsMatch (statement :: statements) (operation :: operations)

end

theorem ExprMatches.span_eq {value : Expr} {resolved : TypedExpr} (h : ExprMatches value resolved) :
    resolved.span = value.span := by
  cases h <;> rfl

theorem Operation.span_ofExpr {value : TypedExpr} : (Operation.ofExpr value).span = value.span := by
  cases value <;> rfl

theorem StatementMatches.span_eq {statement : Statement} {operation : Operation}
    (h : StatementMatches statement operation) : operation.span = statement.span := by
  cases h with
  | assignment => rfl
  | localValue => rfl
  | expr hvalue hoperation => rw [hoperation, Operation.span_ofExpr, hvalue.span_eq, Statement.span]

/-- Matching operations have the spans of their statements, in the same order. -/
theorem StatementsMatch.spans_eq {statements : List Statement} {operations : List Operation}
    (h : StatementsMatch statements operations) :
    operations.map Operation.span = statements.map Statement.span := by
  induction statements generalizing operations with
  | nil =>
    cases h
    rfl
  | cons statement statements ih =>
    cases h with
    | cons hfirst hrest => rw [List.map_cons, List.map_cons, hfirst.span_eq, ih hrest]

end ConfigScript
