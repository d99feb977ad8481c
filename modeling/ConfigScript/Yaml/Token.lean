import ConfigScript.Yaml.Scalar

/-!
# Tokens

The tokens of a document, and the readers of those that carry a name: anchors and aliases, tags,
and directives. A tag is kept as the bytes that it denotes, since escapes may spell any of them.
-/

namespace ConfigScript.Yaml

/-- The bytes of a tag. -/
abbrev Tag := List UInt8

inductive Token where
  /-- A directive that gives the version of the format. -/
  | version
  /-- A directive that lets a handle stand for the start of a tag. -/
  | handle (name : String) (start : Tag)
  | documentStart
  | documentEnd
  | blockSequenceStart
  | blockMappingStart
  | blockEnd
  | flowSequenceStart
  | flowSequenceEnd
  | flowMappingStart
  | flowMappingEnd
  | dash
  | comma
  | key
  | value
  | anchor (name : String)
  | alias (name : String)
  | tag (handle : String) (suffix : Tag)
  | scalar (style : Style) (text : String)
deriving DecidableEq, Repr

/-- The name of an anchor or alias, behind its indicator. -/
def anchorName (cursor : Cursor) : Option (Scanned String) :=
  let (name, behind) := cursor.takeWhile isWordChar
  let ends := behind.rest.head?.all fun c => isGap c || "?:,]\x7d%@\u0060".toList.contains c
  if name.isEmpty || !ends then none else some (String.ofList name, behind)

def Tag.ofChars (cs : List Char) : Tag :=
  cs.map fun c => c.toNat.toUInt8

/-- A tag goes no further than its first null byte. -/
def Tag.cut (tag : Tag) : Tag :=
  tag.takeWhile (· != 0)

/-- The byte that an escape in a tag stands for. -/
def octet? : List Char → Option UInt8
  | '%' :: cs => (hexNumber? 2 cs).map Nat.toUInt8
  | _ => none

/-- How many bytes follow the first one of a character. -/
def continuationLength? (lead : UInt8) : Option Nat :=
  if lead &&& 0x80 = 0 then some 0
  else if lead &&& 0xE0 = 0xC0 then some 1
  else if lead &&& 0xF0 = 0xE0 then some 2
  else if lead &&& 0xF8 = 0xF0 then some 3
  else none

/-- So many escapes of bytes that go on with a character. -/
def continuation : Nat → Cursor → Option (Scanned Tag)
  | 0, cursor => some ([], cursor)
  | count + 1, cursor => do
    let octet ← octet? cursor.rest
    if octet &&& 0xC0 ≠ 0x80 then none
    let (more, behind) ← continuation count (cursor.drop 3)
    return (octet :: more, behind)

/-- The escapes of one character. -/
def escapedCharacter (cursor : Cursor) : Option (Scanned Tag) := do
  let lead ← octet? cursor.rest
  let (more, behind) ← continuation (← continuationLength? lead) (cursor.drop 3)
  return (lead :: more, behind)

/-- Whether a character may stand in a tag. Commas and brackets may only in a tag that has an end
of its own. -/
def isTagChar (bounded : Bool) (c : Char) : Bool :=
  isWordChar c || ";/?:@&=+$.%!~*'()".toList.contains c || bounded && ",[]".toList.contains c

/-- Reads on in a tag; the bytes before are given in reverse. -/
def tagBytes (bounded : Bool) : Nat → Tag → Cursor → Option (Scanned Tag)
  | 0, _, _ => none
  | budget + 1, before, cursor =>
    match cursor.rest with
    | [] => some (before.reverse, cursor)
    | c :: _ =>
      if c = '%' then do
        let (octets, behind) ← escapedCharacter cursor
        tagBytes bounded budget (octets.reverse ++ before) behind
      else if isTagChar bounded c then
        tagBytes bounded budget (c.toNat.toUInt8 :: before) cursor.next
      else some (before.reverse, cursor)

/-- A piece of a tag that must not be empty. -/
def tagPiece (bounded : Bool) (budget : Nat) (cursor : Cursor) : Option (Scanned Tag) := do
  let (bytes, behind) ← tagBytes bounded budget [] cursor
  if bytes.isEmpty then none else some (bytes.cut, behind)

/-- An exclamation mark and the word behind it, and whether another mark closes the two. -/
def handleName (cursor : Cursor) : Option (Scanned (List Char × Bool)) := do
  if !cursor.startsWith (· == '!') then none
  let (word, behind) := cursor.next.takeWhile isWordChar
  if behind.startsWith (· == '!') then return ((word, true), behind.next)
  else return ((word, false), behind)

/-- A tag between angle brackets, one with a handle of its own, or one whose handle is a single
mark. A mark alone is a tag too. -/
def tagParts (budget : Nat) (cursor : Cursor) : Option (Scanned (String × Tag)) := do
  if cursor.next.startsWith (· == '<') then
    let (tag, behind) ← tagPiece true budget (cursor.drop 2)
    if behind.startsWith (· == '>') then return (("", tag), behind.next) else none
  let ((word, closed), behind) ← handleName cursor
  if closed then
    let (suffix, behind) ← tagPiece false budget behind
    return ((String.ofList ('!' :: word ++ ['!']), suffix), behind)
  let (suffix, behind) ← tagBytes false budget (Tag.ofChars word).reverse behind
  let suffix := Tag.cut suffix
  if suffix.isEmpty then return (("", Tag.ofChars ['!']), behind)
  else return (("!", suffix), behind)

/-- A tag, behind which a blank or a line end follows, or a comma in a flow collection. -/
def tagToken (flow : Bool) (budget : Nat) (cursor : Cursor) : Option (Scanned Token) := do
  let ((handle, suffix), behind) ← tagParts budget cursor
  if beforeGap behind.rest || flow && behind.startsWith (· == ',') then
    return (.tag handle suffix, behind)
  else none

/-- A number of at most nine digits. -/
def versionNumber (cursor : Cursor) : Option (Scanned Nat) :=
  let (digits, behind) := cursor.takeWhile Char.isDigit
  if digits.isEmpty || 9 < digits.length then none
  else some (digits.foldl (fun value c => 10 * value + (c.toNat - '0'.toNat)) 0, behind)

/-- The version of the format: 1.1 or 1.2. -/
def versionDirective (cursor : Cursor) : Option (Scanned Token) := do
  let (major, behind) ← versionNumber cursor
  if !behind.startsWith (· == '.') then none
  let (minor, behind) ← versionNumber behind.next
  if major = 1 ∧ (minor = 1 ∨ minor = 2) then return (.version, behind) else none

/-- A handle and what it stands for. -/
def handleDirective (budget : Nat) (cursor : Cursor) : Option (Scanned Token) := do
  let ((word, closed), behind) ← handleName cursor
  if !closed && !word.isEmpty || !behind.startsWith isBlank then none
  let (start, behind) ← tagPiece true budget (behind.skipWhile isBlank)
  if !beforeGap behind.rest then none
  return (.handle (String.ofList ('!' :: word ++ if closed then ['!'] else [])) start, behind)

/-- A line that begins with a percent sign. -/
def directive (budget : Nat) (cursor : Cursor) : Option (Scanned Token) := do
  let (name, behind) := cursor.next.takeWhile isWordChar
  if !beforeGap behind.rest then none
  let start := behind.skipWhile isBlank
  let (token, behind) ←
    if name = "YAML".toList then versionDirective start
    else if name = "TAG".toList then handleDirective budget start
    else none
  return (token, ← behind.endLine?)

end ConfigScript.Yaml
