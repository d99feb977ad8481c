import ConfigScript.Text.Split

/-!
# Places in a YAML text

Characters that separate and structure a text, and cursors in it. A line ends with a line feed or
with one of the two Unicode separators; every other spelling of a line end is a line feed here.
-/

namespace ConfigScript.Yaml

def isBlank (c : Char) : Bool :=
  c == ' ' || c == '\t'

def isBreak (c : Char) : Bool :=
  c == '\n' || c == '\u2028' || c == '\u2029'

/-- Blanks and line ends. -/
def isGap (c : Char) : Bool :=
  isBlank c || isBreak c

/-- Whether a blank, a line end or the end of the text comes next. -/
def beforeGap (cs : List Char) : Bool :=
  cs.head?.all isGap

/-- The characters that structure a flow collection. -/
def isFlowIndicator (c : Char) : Bool :=
  c == ',' || c == '[' || c == ']' || c == '\x7b' || c == '\x7d'

/-- The characters of the names of anchors, handles and directives. -/
def isWordChar (c : Char) : Bool :=
  c.isAlphanum || c == '_' || c == '-'

/-- The text with each line end of one or two characters written as one line feed. The two Unicode
separators stay what they are. -/
def normalizeBreaks : List Char → List Char
  | '\r' :: '\n' :: cs => '\n' :: normalizeBreaks cs
  | '\r' :: cs => '\n' :: normalizeBreaks cs
  | '\u0085' :: cs => '\n' :: normalizeBreaks cs
  | c :: cs => c :: normalizeBreaks cs
  | [] => []

/-- A place: the characters that follow it, and its line and column, both counted from one. -/
structure Cursor where
  rest : List Char
  line : Nat
  column : Nat
deriving DecidableEq

/-- What was read, and the cursor behind it. -/
abbrev Scanned (α : Type) := α × Cursor

namespace Cursor

def ofText (cs : List Char) : Cursor :=
  ⟨cs, 1, 1⟩

/-- The cursor behind the next character. -/
def next (cursor : Cursor) : Cursor :=
  match cursor.rest with
  | [] => cursor
  | c :: cs =>
    if isBreak c then ⟨cs, cursor.line + 1, 1⟩ else ⟨cs, cursor.line, cursor.column + 1⟩

/-- The cursor behind the next `count` characters. -/
def drop (cursor : Cursor) : Nat → Cursor
  | 0 => cursor
  | count + 1 => cursor.next.drop count

/-- The longest run of characters of a class, and the cursor behind it. -/
def takeWhile (cursor : Cursor) (p : Char → Bool) : List Char × Cursor :=
  let run := cursor.rest.takeWhile p
  (run, cursor.drop run.length)

def skipWhile (cursor : Cursor) (p : Char → Bool) : Cursor :=
  (cursor.takeWhile p).2

/-- Whether the next character belongs to a class. -/
def startsWith (cursor : Cursor) (p : Char → Bool) : Bool :=
  cursor.rest.head?.any p

/-- Whether one of the marks between documents stands here, at the start of a line. -/
def atMarker (cursor : Cursor) : Bool :=
  cursor.column == 1 &&
    [['-', '-', '-'], ['.', '.', '.']].any fun mark =>
      (Text.dropStart? mark cursor.rest).any beforeGap

/-- Passes over a comment, if one begins here. -/
def skipComment (cursor : Cursor) : Cursor :=
  if cursor.startsWith (· == '#') then cursor.skipWhile fun c => !isBreak c else cursor

/-- Passes over the rest of a line and its end; nothing but blanks and a comment may stand there. -/
def endLine? (cursor : Cursor) : Option Cursor :=
  let stop := (cursor.skipWhile isBlank).skipComment
  if stop.rest.head?.all isBreak then some stop.next else none

end Cursor

end ConfigScript.Yaml
