import ConfigScript.Name
import ConfigScript.Syntax.Span

/-!
# Cursors

A cursor is a place in a source: the characters that follow it, and its position as byte offset,
line and column. Reading a character moves all three; a line feed begins the next line. None of the
three wraps around, however long the source is.
-/

namespace ConfigScript

structure Position where
  offset : Nat
  line : Nat
  column : Nat
deriving DecidableEq, Repr, Inhabited

namespace Position

def origin : Position :=
  ⟨0, 1, 1⟩

/-- The position behind a character. -/
def after (position : Position) (c : Char) : Position :=
  if c = '\n' then ⟨position.offset + c.utf8Size, position.line + 1, 1⟩
  else ⟨position.offset + c.utf8Size, position.line, position.column + 1⟩

/-- The position behind a text. -/
def afterAll (position : Position) (cs : List Char) : Position :=
  cs.foldl after position

end Position

structure Cursor where
  rest : List Char
  position : Position
deriving DecidableEq

/-- What was read, and the cursor behind it. -/
abbrev Reading (α : Type) := α × Cursor

namespace Cursor

def ofSource (source : String) : Cursor :=
  ⟨source.toList, .origin⟩

/-- The cursor behind the next `count` characters. -/
def drop (cursor : Cursor) (count : Nat) : Cursor :=
  ⟨cursor.rest.drop count, cursor.position.afterAll (cursor.rest.take count)⟩

def atEnd (cursor : Cursor) : Cursor :=
  ⟨[], cursor.position.afterAll cursor.rest⟩

/-- The longest run of characters of a class, and the cursor behind it. -/
def takeWhile (cursor : Cursor) (p : Char → Bool) : List Char × Cursor :=
  let run := cursor.rest.takeWhile p
  (run, ⟨cursor.rest.dropWhile p, cursor.position.afterAll run⟩)

/-- The cursor behind a character that comes next. -/
def char? (cursor : Cursor) (expected : Char) : Option Cursor :=
  match cursor.rest with
  | [] => none
  | c :: rest => if c = expected then some ⟨rest, cursor.position.after c⟩ else none

/-- The cursor behind a text that comes next. -/
def text? (cursor : Cursor) (expected : List Char) : Option Cursor :=
  (Text.dropStart? expected cursor.rest).map fun rest =>
    ⟨rest, cursor.position.afterAll expected⟩

/-- Whether the next character belongs to a class. -/
def startsWith (cursor : Cursor) (p : Char → Bool) : Bool :=
  match cursor.rest with
  | [] => false
  | c :: _ => p c

/-- The span from one cursor to a later one. -/
def spanTo (start stop : Cursor) : Span :=
  ⟨start.position.offset, stop.position.offset, start.position.line, start.position.column⟩

end Cursor

end ConfigScript
