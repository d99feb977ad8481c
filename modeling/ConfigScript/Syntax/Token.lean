import ConfigScript.Syntax.Spacing
import ConfigScript.Syntax.Tree

/-!
# Names and literals

The words of the language. A name is an identifier that is no keyword. A literal that begins
properly but cannot be read is a failure, not the absence of a literal.
-/

namespace ConfigScript

/-- Words that are never names. -/
def keywords : List String :=
  ["as", "class", "do", "else", "false", "for", "fun", "if", "import", "in", "interface", "is",
    "null", "object", "package", "return", "this", "throw", "true", "try", "typealias", "val",
    "var", "when", "while"]

/-- Whether a text can be read back as a name. -/
def isName (name : String) : Bool :=
  isIdentifier name.toList && !keywords.contains name

namespace Cursor

/-- The name that comes next. -/
def name? (cursor : Cursor) : Option (String × Cursor) :=
  if cursor.startsWith startsIdentifier then
    let (word, after) := cursor.takeWhile continuesIdentifier
    let name := String.ofList word
    if keywords.contains name then none else some (name, after)
  else none

/-- The cursor behind a keyword, which must not run on as a longer word. -/
def keyword? (cursor : Cursor) (word : String) : Option Cursor :=
  match cursor.text? word.toList with
  | some after => if after.startsWith continuesIdentifier then none else some after
  | none => none

/-- An equals sign that is not the first half of a comparison. -/
def assignmentSign? (cursor : Cursor) : Option Cursor :=
  match cursor.char? '=' with
  | some after => if after.startsWith (· == '=') then none else some after
  | none => none

end Cursor

namespace Literal

/-- The integer that digits and a sign denote, as a literal of the narrowest type that holds it;
the suffix asks for 64 bits. -/
def ofInteger? (value : Int) (suffixed : Bool) : Option Literal :=
  if !suffixed && decide (Int32.minValue.toInt ≤ value ∧ value ≤ Int32.maxValue.toInt) then
    some (.int (.ofInt value))
  else if Int64.minValue.toInt ≤ value ∧ value ≤ Int64.maxValue.toInt then
    some (.long (.ofInt value))
  else none

/-- A decimal integer that no identifier character follows. -/
def readNumber (cursor : Cursor) : Except Failure (Option (Literal × Cursor)) :=
  let (negative, unsigned) :=
    match cursor.char? '-' with
    | some after => (true, after)
    | none => (false, cursor)
  let (digits, afterDigits) := unsigned.takeWhile Char.isDigit
  let (suffixed, after) :=
    match afterDigits.char? 'L' with
    | some after => (true, after)
    | none => (false, afterDigits)
  if digits.isEmpty || after.startsWith continuesIdentifier then .ok none
  else
    let magnitude : Int := Nat.ofDigitChars 10 digits 0
    match ofInteger? (if negative then -magnitude else magnitude) suffixed with
    | some literal => .ok (some (literal, after))
    | none => .error (.ofCursor .integerOutOfRange cursor)

/-- The character that a letter stands for behind a backslash. -/
def unescape? : Char → Option Char
  | 'n' => some '\n'
  | 't' => some '\t'
  | 'r' => some '\r'
  | '\\' => some '\\'
  | '"' => some '"'
  | '\'' => some '\''
  | '$' => some '$'
  | _ => none

/-- Whether a character behind a dollar sign would open a template. -/
def opensTemplate (c : Char) : Bool :=
  c == '\x7b' || startsIdentifier c

/-- The characters up to the closing quote, and the cursor behind it. -/
def readCharacters (opening : Cursor) : List Char → Position →
    Except Failure (List Char × Cursor)
  | [], _ => .error (.ofCursor .unterminatedString opening)
  | ['\\'], position => .error (.ofCursor .invalidEscape ⟨['\\'], position⟩)
  | '\\' :: c :: cs, position =>
    match unescape? c with
    | some value => do
      let (values, after) ← readCharacters opening cs ((position.after '\\').after c)
      return (value :: values, after)
    | none => .error (.ofCursor .invalidEscape ⟨'\\' :: c :: cs, position⟩)
  | c :: cs, position =>
    if c = '"' then .ok ([], ⟨cs, position.after c⟩)
    else if c = '\n' ∨ c = '\r' then .error (.ofCursor .unterminatedString opening)
    else if c = '$' ∧ (cs.head?.any opensTemplate) = true then
      .error (.ofCursor .stringTemplate ⟨c :: cs, position⟩)
    else do
      let (values, after) ← readCharacters opening cs (position.after c)
      return (c :: values, after)

def readString (cursor : Cursor) : Except Failure (Option (Literal × Cursor)) :=
  match cursor.char? '"' with
  | none => .ok none
  | some after => do
    let (values, after) ← readCharacters cursor after.rest after.position
    return some (.string (String.ofList values), after)

def readBoolean (cursor : Cursor) : Option (Literal × Cursor) :=
  match cursor.keyword? "true", cursor.keyword? "false" with
  | some after, _ => some (.boolean true, after)
  | none, some after => some (.boolean false, after)
  | none, none => none

end Literal

end ConfigScript
