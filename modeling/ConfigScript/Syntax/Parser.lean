import ConfigScript.Syntax.Token

/-!
# Expressions and statements

Recursive descent over a cursor. A reader answers with what it read and the cursor behind it,
with nothing when its kind of thing does not begin here, or with a failure once the beginning has
committed it. Every reader takes a budget that bounds the depth of the descent; `budget` grants
more than any source can use.
-/

namespace ConfigScript

namespace Parser

/-- What must be there: its absence is a failure at the cursor. -/
def require {α : Type} (cause : Failure.Cause) (cursor : Cursor) :
    Option (Reading α) → Except Failure (Reading α)
  | some result => .ok result
  | none => .error (.ofCursor cause cursor)

def literalOrWord? (cursor : Cursor) : Except Failure (Option (Reading Expr)) := do
  if let some (value, after) ← Literal.readString cursor then
    return some (.literal value (cursor.spanTo after), after)
  if let some (value, after) ← Literal.readNumber cursor then
    return some (.literal value (cursor.spanTo after), after)
  if let some (value, after) := Literal.readBoolean cursor then
    return some (.literal value (cursor.spanTo after), after)
  if let some after := cursor.keyword? "null" then
    return some (.null (cursor.spanTo after), after)
  if let some after := cursor.keyword? "this" then
    return some (.this (cursor.spanTo after), after)
  return none

/-- A name, as a property or, with arguments behind it, as a call. -/
def member (receiver : Option Expr) (name : String) (span : Span) :
    Option (List Argument) → Expr
  | some arguments => .call receiver name arguments span
  | none => .property receiver name span

/-- The cursor behind spacing and a character, when both are there. -/
def charAfter (spacing : Spacing) (expected : Char) (cursor : Cursor) :
    Except Failure (Option Cursor) := do
  return (← spacing.skip cursor).char? expected

/-- The end of a statement: a semicolon, a line end, the end of the source, or a closing brace,
which stays unread. -/
def statementEnd (cursor : Cursor) : Except Failure Cursor := do
  let cursor ← Spacing.inline.skip cursor
  match cursor.rest with
  | [] => return cursor
  | ';' :: _ => return cursor.drop 1
  | '\n' :: _ => return cursor.drop 1
  | '\r' :: '\n' :: _ => return cursor.drop 2
  | '\x7d' :: _ => return cursor
  | _ => throw (.ofCursor .expectedEndOfStatement cursor)

mutual

def expression : Nat → Cursor → Except Failure (Option (Reading Expr))
  | 0, cursor => .error (.ofCursor .exhausted cursor)
  | budget + 1, cursor => do
    match ← primary budget cursor with
    | none => return none
    | some (value, after) => return some (← chain budget cursor value after)

/-- The members asked of a value, one after another; `start` is where the value began. -/
def chain : Nat → Cursor → Expr → Cursor → Except Failure (Reading Expr)
  | 0, _, _, cursor => .error (.ofCursor .exhausted cursor)
  | budget + 1, start, value, cursor => do
    match ← charAfter .multiline '.' cursor with
    | none => return (value, cursor)
    | some afterDot =>
      let afterDot ← Spacing.multiline.skip afterDot
      match afterDot.name? with
      | none => throw (.ofCursor .expectedMemberName afterDot)
      | some (name, afterName) =>
        let (arguments, after) ← suffix budget afterName
        chain budget start (member (some value) name (start.spanTo after) arguments) after

def primary : Nat → Cursor → Except Failure (Option (Reading Expr))
  | 0, cursor => .error (.ofCursor .exhausted cursor)
  | budget + 1, cursor => do
    if let some result ← literalOrWord? cursor then return some result
    if let some inside := cursor.char? '(' then
      let inside ← Spacing.multiline.skip inside
      let (value, after) ← require .expectedExpression inside (← expression budget inside)
      let after ← Spacing.multiline.skip after
      match after.char? ')' with
      | some after => return some (value, after)
      | none => throw (.ofCursor .expectedClosingParenthesis after)
    match cursor.name? with
    | none => return none
    | some (name, afterName) =>
      let (arguments, after) ← suffix budget afterName
      return some (member none name (cursor.spanTo after) arguments, after)

/-- The arguments behind a name: a list in parentheses, a lambda, or both. Without either the
cursor stays where the name ended. -/
def suffix : Nat → Cursor → Except Failure (Reading (Option (List Argument)))
  | 0, cursor => .error (.ofCursor .exhausted cursor)
  | budget + 1, cursor => do
    let opening ← Spacing.inline.skip cursor
    match opening.char? '(' with
    | some inside =>
      let (values, after) ← valueArguments budget inside
      match ← lambda budget (← Spacing.inline.skip after) with
      | some (lambda, after) => return (some (values ++ [lambda]), after)
      | none => return (some values, after)
    | none =>
      match ← lambda budget opening with
      | some (lambda, after) => return (some [lambda], after)
      | none => return (none, cursor)

/-- The arguments behind an opening parenthesis, up to and including the closing one. -/
def valueArguments : Nat → Cursor → Except Failure (Reading (List Argument))
  | 0, cursor => .error (.ofCursor .exhausted cursor)
  | budget + 1, cursor => do
    let (values, after) ←
      match ← argument budget (← Spacing.multiline.skip cursor) with
      | none => pure ([], cursor)
      | some (first, after) =>
        let (others, after) ← moreArguments budget after
        pure (first :: others, after)
    let after := (← charAfter .multiline ',' after).getD after
    let after ← Spacing.multiline.skip after
    match after.char? ')' with
    | some after => return (values, after)
    | none => throw (.ofCursor .unclosedArguments after)

/-- Further arguments, each behind a comma. A comma that no argument follows stays unread. -/
def moreArguments : Nat → Cursor → Except Failure (Reading (List Argument))
  | 0, cursor => .error (.ofCursor .exhausted cursor)
  | budget + 1, cursor => do
    match ← charAfter .multiline ',' cursor with
    | none => return ([], cursor)
    | some afterComma =>
      match ← argument budget (← Spacing.multiline.skip afterComma) with
      | none => return ([], cursor)
      | some (next, after) =>
        let (others, after) ← moreArguments budget after
        return (next :: others, after)

def argument : Nat → Cursor → Except Failure (Option (Reading Argument))
  | 0, cursor => .error (.ofCursor .exhausted cursor)
  | budget + 1, cursor => do
    if let some (name, afterName) := cursor.name? then
      if let some afterSign := (← Spacing.multiline.skip afterName).assignmentSign? then
        let inside ← Spacing.multiline.skip afterSign
        let (value, after) ← require .expectedExpression inside (← expression budget inside)
        return some (.named name value (cursor.spanTo after), after)
    match ← expression budget cursor with
    | none => return none
    | some (value, after) => return some (.positional value (cursor.spanTo after), after)

def lambda : Nat → Cursor → Except Failure (Option (Reading Argument))
  | 0, cursor => .error (.ofCursor .exhausted cursor)
  | budget + 1, cursor => do
    match cursor.char? '\x7b' with
    | none => return none
    | some inside =>
      let inside ← Spacing.separators.skip inside
      let (statements, after) ← blockBody budget inside
      let span := cursor.spanTo after
      return some (.lambda (.mk statements span) span, after)

/-- Statements up to and including the closing brace. -/
def blockBody : Nat → Cursor → Except Failure (Reading (List Statement))
  | 0, cursor => .error (.ofCursor .exhausted cursor)
  | budget + 1, cursor => do
    if let some after := cursor.char? '\x7d' then return ([], after)
    if cursor.rest.isEmpty then throw (.ofCursor .unclosedBlock cursor)
    let (first, after) ← statement budget cursor
    let after ← Spacing.separators.skip (← statementEnd after)
    let (others, after) ← blockBody budget after
    return (first :: others, after)

def statement : Nat → Cursor → Except Failure (Reading Statement)
  | 0, cursor => .error (.ofCursor .exhausted cursor)
  | budget + 1, cursor => do
    if let some after := cursor.keyword? "val" then
      let start ← Spacing.inline.skip after
      match start.name? with
      | none => throw (.ofCursor .expectedLocalName start)
      | some (name, after) =>
        let sign ← Spacing.inline.skip after
        match sign.char? '=' with
        | none => throw (.ofCursor .expectedLocalValue sign)
        | some after =>
          let inside ← Spacing.multiline.skip after
          let (value, after) ← require .expectedExpression inside (← expression budget inside)
          return (.localValue name value (cursor.spanTo after), after)
    if (cursor.keyword? "var").isSome then throw (.ofCursor .variableDeclaration cursor)
    let (target, after) ← require .expectedExpression cursor (← expression budget cursor)
    match (← Spacing.inline.skip after).assignmentSign? with
    | none => return (.expr target, after)
    | some afterSign =>
      match target with
      | .property receiver name span =>
        let inside ← Spacing.multiline.skip afterSign
        let (value, after) ← require .expectedExpression inside (← expression budget inside)
        return (.assignment receiver name span value (cursor.spanTo after), after)
      | _ => throw (.ofCursor .notAssignable cursor)

end

/-- A budget that no reading from the cursor exceeds: every step of the descent that reads nothing
is one of few, and each of the others reads a character. -/
def budget (cursor : Cursor) : Nat :=
  8 * (cursor.rest.length + 1)

end Parser

end ConfigScript
