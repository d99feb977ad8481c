import ConfigScript.Syntax.Parser

/-!
# Scripts

A script is read statement by statement. A broken statement costs only itself: its failure is
recorded and reading goes on behind it, so that one pass reports every broken statement. The tree
is given only when there is no failure.
-/

namespace ConfigScript

namespace Parser

/-- Names joined by dots without spacing. A dot that no name follows stays unread. -/
def dottedNames : Nat → Cursor → Option (Reading (List String))
  | 0, _ => none
  | budget + 1, cursor =>
    match cursor.name? with
    | none => none
    | some (name, after) =>
      match after.char? '.' with
      | none => some ([name], after)
      | some afterDot =>
        match dottedNames budget afterDot with
        | none => some ([name], after)
        | some (names, after) => some (name :: names, after)

def importStatement (cursor : Cursor) : Except Failure (Option (Reading Statement)) := do
  match cursor.keyword? "import" with
  | none => return none
  | some after =>
    let start ← Spacing.inline.skip after
    let (parts, after) ← require .expectedImportedName start (dottedNames (budget start) start)
    return some (.importName parts (cursor.spanTo after), after)

/-- A statement with its end; outside of lambdas it may be an import. -/
def topLevelStatement (cursor : Cursor) : Except Failure (Reading Statement) := do
  let (result, after) ←
    match ← importStatement cursor with
    | some result => pure result
    | none => statement (budget cursor) cursor
  return (result, ← statementEnd after)

/-- Whether the search for the end of a broken statement is inside a string, and whether a
backslash came last there. -/
inductive Quoting where
  | outside
  | inside
  | escaped
deriving DecidableEq, Repr

/-- The state behind a character inside a string; a line feed ends the string. -/
def Quoting.afterInside (quoting : Quoting) (c : Char) : Quoting :=
  if quoting = .escaped then .inside
  else if c = '\\' then .escaped
  else if c = '"' ∨ c = '\n' then .outside
  else .inside

/-- The brackets left open once a closing one is met. It also closes whatever was opened inside its
pair, and nothing when its opener is not among them. -/
def closeBracket (opener : Char) (brackets : List Char) : List Char :=
  match brackets.dropWhile (· != opener) with
  | [] => brackets
  | _ :: outer => outer

/-- How many characters belong to a broken statement: all up to the next line feed or semicolon
outside of brackets and strings, and that one too. The open brackets are listed innermost first. -/
def brokenLength : Quoting → List Char → List Char → Nat
  | _, _, [] => 0
  | .outside, brackets, c :: cs =>
    if c = '"' then 1 + brokenLength .inside brackets cs
    else if c = '(' ∨ c = '\x7b' then 1 + brokenLength .outside (c :: brackets) cs
    else if c = ')' then 1 + brokenLength .outside (closeBracket '(' brackets) cs
    else if c = '\x7d' then 1 + brokenLength .outside (closeBracket '\x7b' brackets) cs
    else if (c = '\n' ∨ c = ';') ∧ brackets = [] then 1
    else 1 + brokenLength .outside brackets cs
  | quoting, brackets, c :: cs =>
    if c = '\n' ∧ brackets = [] then 1
    else 1 + brokenLength (quoting.afterInside c) brackets cs

/-- The place where reading resumes behind a broken statement. -/
def recover (cursor : Cursor) : Cursor :=
  cursor.drop (brokenLength .outside [] cursor.rest)

/-- The statements of a script and its failures, each in source order, and where reading ended. -/
structure Outcome where
  statements : List Statement
  failures : List Failure
  stop : Cursor

/-- Reads the statements that remain; `started` tells whether a statement other than an import has
been met, broken ones included. -/
def statementsFrom : Nat → Bool → Cursor → Outcome
  | 0, _, cursor => ⟨[], [.ofCursor .exhausted cursor], cursor⟩
  | budget + 1, started, cursor =>
    match Spacing.separators.skip cursor with
    | .error failure => ⟨[], [failure], cursor.atEnd⟩
    | .ok start =>
      if start.rest.isEmpty then ⟨[], [], start⟩
      else match topLevelStatement start with
        | .error failure =>
          let later := statementsFrom budget true (recover start)
          ⟨later.statements, failure :: later.failures, later.stop⟩
        | .ok (statement, after) =>
          let later := statementsFrom budget (started || !statement.isImport) after
          let misplaced :=
            if started && statement.isImport then [Failure.ofCursor .misplacedImport start] else []
          ⟨statement :: later.statements, misplaced ++ later.failures, later.stop⟩

end Parser

/-- Reads a whole script, known by `label` in reports. -/
def Block.parse (label source : String) : Except ParseFailures Block :=
  let start := Cursor.ofSource source
  let outcome := Parser.statementsFrom (start.rest.length + 1) false start
  if outcome.failures.isEmpty then .ok (.mk outcome.statements (start.spanTo outcome.stop))
  else .error ⟨label, outcome.failures⟩

/-- Reads a single expression that fills the source. -/
def Expr.parse (source : String) : Except ParseFailures Expr :=
  (read (.ofSource source)).mapError fun failure => ⟨"<expression>", [failure]⟩
where
  read (cursor : Cursor) : Except Failure Expr := do
    let start ← Spacing.multiline.skip cursor
    let (value, after) ←
      Parser.require .expectedExpression start
        (← Parser.expression (Parser.budget start) start)
    let stop ← Spacing.multiline.skip after
    if stop.rest.isEmpty then return value
    else throw (.ofCursor .trailingInput stop)

end ConfigScript
