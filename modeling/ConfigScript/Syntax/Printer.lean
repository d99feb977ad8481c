import ConfigScript.Syntax.Tree

/-!
# Trees as source text

Every tree has a source text: one statement a line, four spaces a level, the arguments of a call
in parentheses and its first lambda behind them. A call without arguments but with a lambda has no
parentheses.
-/

namespace ConfigScript

namespace Literal

/-- A character as it stands between the quotes of a string literal. -/
def escapeChar (c : Char) : List Char :=
  if c = '\\' then ['\\', '\\']
  else if c = '"' then ['\\', '"']
  else if c = '$' then ['\\', '$']
  else if c = '\n' then ['\\', 'n']
  else if c = '\t' then ['\\', 't']
  else if c = '\r' then ['\\', 'r']
  else [c]

/-- Integers of 64 bits carry the suffix that tells them from those of 32. -/
def render : Literal → String
  | .string value => String.ofList ('"' :: value.toList.flatMap escapeChar ++ ['"'])
  | .int value => toString value.toInt
  | .long value => toString value.toInt ++ "L"
  | .boolean true => "true"
  | .boolean false => "false"

end Literal

/-- The blanks in front of a statement at a depth of nesting. -/
def indentation (depth : Nat) : String :=
  String.ofList (List.replicate (4 * depth) ' ')

/-- A call from the texts of its callee, its value arguments and the lines of its lambda. -/
def callText (depth : Nat) (callee : String) (values : List String)
    (lambda : Option (List String)) : String :=
  let list := "(" ++ ", ".intercalate values ++ ")"
  match values, lambda with
  | _, none => callee ++ list
  | [], some lines => callee ++ body lines
  | _ :: _, some lines => callee ++ list ++ body lines
where
  body : List String → String
    | [] => " \x7b \x7d"
    | lines => " \x7b\n" ++ "\n".intercalate lines ++ "\n" ++ indentation depth ++ "\x7d"

mutual

def Expr.renderAt (depth : Nat) : Expr → String
  | .property none name _ => name
  | .property (some receiver) name _ => receiver.renderAt depth ++ "." ++ name
  | .call none name arguments _ =>
    callText depth name (renderValues depth arguments) (renderLambda? depth arguments)
  | .call (some receiver) name arguments _ =>
    callText depth (receiver.renderAt depth ++ "." ++ name)
      (renderValues depth arguments) (renderLambda? depth arguments)
  | .literal value _ => value.render
  | .null _ => "null"
  | .this _ => "this"

/-- The texts of the positional and named arguments. -/
def renderValues (depth : Nat) : List Argument → List String
  | [] => []
  | .positional value _ :: arguments => value.renderAt depth :: renderValues depth arguments
  | .named name value _ :: arguments =>
    (name ++ " = " ++ value.renderAt depth) :: renderValues depth arguments
  | .lambda _ _ :: arguments => renderValues depth arguments

/-- The lines of the first lambda. -/
def renderLambda? (depth : Nat) : List Argument → Option (List String)
  | [] => none
  | .positional _ _ :: arguments => renderLambda? depth arguments
  | .named _ _ _ :: arguments => renderLambda? depth arguments
  | .lambda body _ :: _ => some (body.linesAt (depth + 1))

/-- The statements of a block, each indented and as long as it is. -/
def Block.linesAt (depth : Nat) : Block → List String
  | .mk statements _ => statementLines depth statements

def statementLines (depth : Nat) : List Statement → List String
  | [] => []
  | statement :: statements =>
    (indentation depth ++ statement.renderAt depth) :: statementLines depth statements

def Statement.renderAt (depth : Nat) : Statement → String
  | .importName parts _ => "import " ++ ".".intercalate parts
  | .assignment none name _ value _ => name ++ " = " ++ value.renderAt depth
  | .assignment (some receiver) name _ value _ =>
    receiver.renderAt depth ++ "." ++ name ++ " = " ++ value.renderAt depth
  | .localValue name value _ => "val " ++ name ++ " = " ++ value.renderAt depth
  | .expr value => value.renderAt depth

end

def Expr.render (value : Expr) : String :=
  value.renderAt 0

def Statement.render (statement : Statement) : String :=
  statement.renderAt 0

def Block.render (block : Block) : String :=
  "\n".intercalate (block.linesAt 0)

end ConfigScript
