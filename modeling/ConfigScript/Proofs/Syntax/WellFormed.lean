import ConfigScript.Syntax.Token

/-!
# Well-formed trees

A tree is well formed when a source can spell it: its names are names, at most one lambda stands
in a call and no argument behind it, and imports are found at the top only, before all other
statements.
-/

namespace ConfigScript

mutual

def Expr.WellFormed : Expr → Prop
  | .property receiver name _ => receiverWellFormed receiver ∧ isName name = true
  | .call receiver name arguments _ =>
    receiverWellFormed receiver ∧ isName name = true ∧ argumentsWellFormed arguments
  | .literal _ _ => True
  | .null _ => True
  | .this _ => True

def receiverWellFormed : Option Expr → Prop
  | none => True
  | some receiver => receiver.WellFormed

/-- Positional and named arguments, and then at most one lambda. -/
def argumentsWellFormed : List Argument → Prop
  | [] => True
  | .positional value _ :: arguments => value.WellFormed ∧ argumentsWellFormed arguments
  | .named name value _ :: arguments =>
    isName name = true ∧ value.WellFormed ∧ argumentsWellFormed arguments
  | .lambda (.mk statements _) _ :: arguments => statementsWellFormed statements ∧ arguments = []

/-- Statements of a lambda, among which there are no imports. -/
def statementsWellFormed : List Statement → Prop
  | [] => True
  | statement :: statements => statement.WellFormed ∧ statementsWellFormed statements

def Statement.WellFormed : Statement → Prop
  | .importName _ _ => False
  | .assignment receiver name _ value _ =>
    receiverWellFormed receiver ∧ isName name = true ∧ value.WellFormed
  | .localValue name value _ => isName name = true ∧ value.WellFormed
  | .expr value => value.WellFormed

end

/-- Imports, and behind them the statements of a script. -/
def scriptWellFormed : List Statement → Prop
  | .importName parts _ :: statements =>
    parts ≠ [] ∧ (∀ part ∈ parts, isName part = true) ∧ scriptWellFormed statements
  | statements => statementsWellFormed statements

def Block.WellFormed (block : Block) : Prop :=
  scriptWellFormed block.statements

theorem statementsWellFormed_iff {statements : List Statement} :
    statementsWellFormed statements ↔ ∀ statement ∈ statements, statement.WellFormed := by
  induction statements with
  | nil => simp [statementsWellFormed]
  | cons statement statements ih => simp [statementsWellFormed, ih]

theorem not_import_of_wellFormed {statement : Statement} (h : statement.WellFormed) :
    statement.isImport = false := by
  cases statement with
  | importName => exact h.elim
  | assignment => rfl
  | localValue => rfl
  | expr => rfl

theorem scriptWellFormed_of_statements {statements : List Statement}
    (h : statementsWellFormed statements) : scriptWellFormed statements := by
  cases statements with
  | nil => exact h
  | cons statement statements =>
    cases statement with
    | importName => exact h.1.elim
    | assignment => exact h
    | localValue => exact h
    | expr => exact h

/-- Behind the imports of a well-formed script all statements are well formed. -/
theorem wellFormed_of_not_import {statements : List Statement} (h : scriptWellFormed statements)
    {statement : Statement} (hmem : statement ∈ statements) (hnot : statement.isImport = false) :
    statement.WellFormed := by
  induction statements with
  | nil => cases hmem
  | cons first statements ih =>
    cases first with
    | importName parts span =>
      cases List.mem_cons.mp hmem with
      | inl heq =>
        subst heq
        cases hnot
      | inr hrest => exact ih h.2.2 hrest
    | assignment => exact statementsWellFormed_iff.mp h statement hmem
    | localValue => exact statementsWellFormed_iff.mp h statement hmem
    | expr => exact statementsWellFormed_iff.mp h statement hmem

end ConfigScript
