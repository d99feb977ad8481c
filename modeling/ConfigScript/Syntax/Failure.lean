import ConfigScript.Syntax.Cursor
import ConfigScript.Text.Blank

/-!
# Structural failures

A failure says why a statement cannot be read, where, and what stands there. A script that has
several broken statements yields all their failures, under the label by which it is known.
-/

namespace ConfigScript

inductive Failure.Cause where
  | unterminatedComment
  | expectedEndOfStatement
  | expectedImportedName
  | misplacedImport
  | expectedLocalName
  | expectedLocalValue
  | variableDeclaration
  | notAssignable
  | expectedExpression
  | expectedMemberName
  | expectedClosingParenthesis
  | unclosedArguments
  | unclosedBlock
  | integerOutOfRange
  | unterminatedString
  | invalidEscape
  | stringTemplate
  | trailingInput
  /-- The budget of a reading is spent. The budgets that this library grants cover every source. -/
  | exhausted
deriving DecidableEq, Repr

def Failure.Cause.message : Failure.Cause → String
  | .unterminatedComment => "unterminated block comment"
  | .expectedEndOfStatement => "expected end of statement"
  | .expectedImportedName => "expected qualified name after 'import'"
  | .misplacedImport => "imports must precede all other statements"
  | .expectedLocalName => "expected name after 'val'"
  | .expectedLocalValue => "expected '=' after local name"
  | .variableDeclaration => "'var' is not supported, use 'val'"
  | .notAssignable => "only properties can be assigned"
  | .expectedExpression => "expected expression"
  | .expectedMemberName => "expected name after '.'"
  | .expectedClosingParenthesis => "expected ')'"
  | .unclosedArguments => "expected ')' to close argument list"
  | .unclosedBlock => "expected '\x7d' to close block"
  | .integerOutOfRange => "integer literal out of range"
  | .unterminatedString => "unterminated string literal"
  | .invalidEscape => "invalid escape sequence"
  | .stringTemplate => "string templates are not supported"
  | .trailingInput => "unexpected input after expression"
  | .exhausted => "nesting too deep"

structure Failure where
  cause : Failure.Cause
  position : Position
  /-- The source text at the position, as a message quotes it. -/
  found : String
deriving DecidableEq

namespace Failure

/-- The rest of the first line without trailing blanks, quoted; at most 24 characters of it. -/
def foundText (cs : List Char) : String :=
  let line := Text.trimEnd (cs.takeWhile (· != '\n'))
  if line.isEmpty then "end of input"
  else
    let ellipsis := if line.length > 24 then "..." else ""
    "'" ++ String.ofList (line.take 24) ++ ellipsis ++ "'"

def ofCursor (cause : Cause) (cursor : Cursor) : Failure :=
  ⟨cause, cursor.position, foundText cursor.rest⟩

def message (failure : Failure) : String :=
  toString failure.position.line ++ ":" ++ toString failure.position.column ++ ": " ++
    failure.cause.message ++ " (found " ++ failure.found ++ ")"

end Failure

/-- All failures of one script, in the order in which they were met. -/
structure ParseFailures where
  label : String
  failures : List Failure
deriving DecidableEq

def ParseFailures.message (failures : ParseFailures) : String :=
  failures.label ++ ": " ++ "; ".intercalate (failures.failures.map Failure.message)

end ConfigScript
