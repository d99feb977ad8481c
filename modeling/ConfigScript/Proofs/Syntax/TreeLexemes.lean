import ConfigScript.Proofs.Syntax.Erase
import ConfigScript.Proofs.Syntax.Lexemes

/-!
# Lexemes of a tree

What a tree says, in the order in which a source says it. Every name, literal and block of the tree
is there once; where the tree stood in its source is not.
-/

namespace ConfigScript

def Literal.lexeme : Literal → Lexeme
  | .string value => .string value
  | .int value => .int value.toInt
  | .long value => .long value.toInt
  | .boolean true => .word "true"
  | .boolean false => .word "false"

mutual

def Expr.lexemes : Expr → List Lexeme
  | .property none name _ => [.word name]
  | .property (some receiver) name _ => receiver.lexemes ++ [.symbol '.', .word name]
  | .call none name arguments _ => .word name :: argumentsLexemes arguments
  | .call (some receiver) name arguments _ =>
    receiver.lexemes ++ .symbol '.' :: .word name :: argumentsLexemes arguments
  | .literal value _ => [value.lexeme]
  | .null _ => [.word "null"]
  | .this _ => [.word "this"]

def Argument.lexemes : Argument → List Lexeme
  | .positional value _ => value.lexemes
  | .named name value _ => .word name :: .symbol '=' :: value.lexemes
  | .lambda body _ => .symbol '\x7b' :: (body.lexemes ++ [.symbol '\x7d'])

def argumentsLexemes : List Argument → List Lexeme
  | [] => []
  | argument :: arguments => argument.lexemes ++ argumentsLexemes arguments

def Block.lexemes : Block → List Lexeme
  | .mk statements _ => statementsLexemes statements

def statementsLexemes : List Statement → List Lexeme
  | [] => []
  | statement :: statements => statement.lexemes ++ statementsLexemes statements

def Statement.lexemes : Statement → List Lexeme
  | .importName parts _ =>
    .word "import" :: [Lexeme.symbol '.'].intercalate (parts.map fun part => [.word part])
  | .assignment none name _ value _ => .word name :: .symbol '=' :: value.lexemes
  | .assignment (some receiver) name _ value _ =>
    receiver.lexemes ++ .symbol '.' :: .word name :: .symbol '=' :: value.lexemes
  | .localValue name value _ =>
    .word "val" :: .word name :: .symbol '=' :: value.lexemes
  | .expr value => value.lexemes

end

theorem argumentsLexemes_append (first second : List Argument) :
    argumentsLexemes (first ++ second) = argumentsLexemes first ++ argumentsLexemes second := by
  induction first with
  | nil => simp [argumentsLexemes]
  | cons argument arguments ih => simp [argumentsLexemes, ih]

mutual

theorem Expr.lexemes_eraseSpans (value : Expr) : value.eraseSpans.lexemes = value.lexemes := by
  cases value with
  | property receiver name span =>
    cases receiver with
    | none => simp [Expr.eraseSpans, Expr.lexemes]
    | some receiver => simp [Expr.eraseSpans, Expr.lexemes, receiver.lexemes_eraseSpans]
  | call receiver name arguments span =>
    have harguments := argumentsLexemes_eraseSpans arguments
    cases receiver with
    | none => simp [Expr.eraseSpans, Expr.lexemes, harguments]
    | some receiver =>
      simp [Expr.eraseSpans, Expr.lexemes, receiver.lexemes_eraseSpans, harguments]
  | literal => simp [Expr.eraseSpans, Expr.lexemes]
  | null => simp [Expr.eraseSpans, Expr.lexemes]
  | this => simp [Expr.eraseSpans, Expr.lexemes]

theorem Argument.lexemes_eraseSpans (argument : Argument) :
    argument.eraseSpans.lexemes = argument.lexemes := by
  cases argument with
  | positional value span =>
    simp [Argument.eraseSpans, Argument.lexemes, value.lexemes_eraseSpans]
  | named name value span =>
    simp [Argument.eraseSpans, Argument.lexemes, value.lexemes_eraseSpans]
  | lambda body span =>
    obtain ⟨statements, bodySpan⟩ := body
    simp [Argument.eraseSpans, Argument.lexemes, Block.eraseSpans, Block.lexemes,
      statementsLexemes_eraseSpans statements]

theorem argumentsLexemes_eraseSpans (arguments : List Argument) :
    argumentsLexemes (argumentsEraseSpans arguments) = argumentsLexemes arguments := by
  cases arguments with
  | nil => simp [argumentsEraseSpans]
  | cons argument arguments =>
    simp [argumentsEraseSpans, argumentsLexemes, argument.lexemes_eraseSpans,
      argumentsLexemes_eraseSpans arguments]

theorem statementsLexemes_eraseSpans (statements : List Statement) :
    statementsLexemes (statementsEraseSpans statements) = statementsLexemes statements := by
  cases statements with
  | nil => simp [statementsEraseSpans]
  | cons statement statements =>
    simp [statementsEraseSpans, statementsLexemes, statement.lexemes_eraseSpans,
      statementsLexemes_eraseSpans statements]

theorem Statement.lexemes_eraseSpans (statement : Statement) :
    statement.eraseSpans.lexemes = statement.lexemes := by
  cases statement with
  | importName => simp [Statement.eraseSpans, Statement.lexemes]
  | assignment receiver name target value span =>
    cases receiver with
    | none => simp [Statement.eraseSpans, Statement.lexemes, value.lexemes_eraseSpans]
    | some receiver =>
      simp [Statement.eraseSpans, Statement.lexemes, receiver.lexemes_eraseSpans,
        value.lexemes_eraseSpans]
  | localValue name value span =>
    simp [Statement.eraseSpans, Statement.lexemes, value.lexemes_eraseSpans]
  | expr value => simp [Statement.eraseSpans, Statement.lexemes, value.lexemes_eraseSpans]

end

end ConfigScript
