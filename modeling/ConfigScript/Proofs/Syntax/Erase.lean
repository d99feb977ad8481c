import ConfigScript.Syntax.Tree

/-!
# Trees up to spans

The tree that remains when every node forgets where it stood. Two trees are equal up to spans when
the same remains of both.
-/

namespace ConfigScript

mutual

def Expr.eraseSpans : Expr → Expr
  | .property none name _ => .property none name .blank
  | .property (some receiver) name _ => .property (some receiver.eraseSpans) name .blank
  | .call none name arguments _ => .call none name (argumentsEraseSpans arguments) .blank
  | .call (some receiver) name arguments _ =>
    .call (some receiver.eraseSpans) name (argumentsEraseSpans arguments) .blank
  | .literal value _ => .literal value .blank
  | .null _ => .null .blank
  | .this _ => .this .blank

def Argument.eraseSpans : Argument → Argument
  | .positional value _ => .positional value.eraseSpans .blank
  | .named name value _ => .named name value.eraseSpans .blank
  | .lambda body _ => .lambda body.eraseSpans .blank

def argumentsEraseSpans : List Argument → List Argument
  | [] => []
  | argument :: arguments => argument.eraseSpans :: argumentsEraseSpans arguments

def Block.eraseSpans : Block → Block
  | .mk statements _ => .mk (statementsEraseSpans statements) .blank

def statementsEraseSpans : List Statement → List Statement
  | [] => []
  | statement :: statements => statement.eraseSpans :: statementsEraseSpans statements

def Statement.eraseSpans : Statement → Statement
  | .importName parts _ => .importName parts .blank
  | .assignment none name _ value _ => .assignment none name .blank value.eraseSpans .blank
  | .assignment (some receiver) name _ value _ =>
    .assignment (some receiver.eraseSpans) name .blank value.eraseSpans .blank
  | .localValue name value _ => .localValue name value.eraseSpans .blank
  | .expr value => .expr value.eraseSpans

end

theorem argumentsEraseSpans_append (first second : List Argument) :
    argumentsEraseSpans (first ++ second) =
      argumentsEraseSpans first ++ argumentsEraseSpans second := by
  induction first with
  | nil => rfl
  | cons argument arguments ih => simp [argumentsEraseSpans, ih]

theorem statementsEraseSpans_eq_map (statements : List Statement) :
    statementsEraseSpans statements = statements.map Statement.eraseSpans := by
  induction statements with
  | nil => rfl
  | cons statement statements ih => rw [statementsEraseSpans, ih, List.map_cons]

end ConfigScript
