import ConfigScript.Json.Basic

/-!
# JSON text

The compact form has no spaces; the indented form puts every item and field on a line of its own,
two spaces deeper than its parent. Of a string only the quote, the backslash and the control
characters are escaped.
-/

namespace ConfigScript.Json

/-- The lower-case digits of `n` to base 16, at least `width` of them. -/
def hexDigits (width n : Nat) : List Char :=
  let digits := Nat.toDigits 16 n
  List.replicate (width - digits.length) '0' ++ digits

/-- A character as it stands inside a string. -/
def escapeChar (c : Char) : List Char :=
  if c = '"' then ['\\', '"']
  else if c = '\\' then ['\\', '\\']
  else if c = '\x08' then ['\\', 'b']
  else if c = '\t' then ['\\', 't']
  else if c = '\n' then ['\\', 'n']
  else if c = '\x0c' then ['\\', 'f']
  else if c = '\r' then ['\\', 'r']
  else if c.toNat < 0x20 then '\\' :: 'u' :: hexDigits 4 c.toNat
  else [c]

def stringText (s : String) : String :=
  String.ofList ('"' :: s.toList.flatMap escapeChar ++ ['"'])

/-- The decimal digits of `mantissa`, with a point in front of the last `places` of them. -/
def fractionText (mantissa : Int) (places : Nat) : String :=
  let digits := Nat.toDigits 10 mantissa.natAbs
  let padded := List.replicate (places + 1 - digits.length) '0' ++ digits
  let whole := padded.length - places
  String.ofList
    ((if mantissa < 0 then ['-'] else []) ++ padded.take whole ++ '.' :: padded.drop whole)

mutual

def compact : Json → String
  | .null => "null"
  | .bool true => "true"
  | .bool false => "false"
  | .int value => toString value
  | .fraction mantissa places => fractionText mantissa places
  | .string value => stringText value
  | .array items => "[" ++ ",".intercalate (compactItems items) ++ "]"
  | .object fields => "\x7b" ++ ",".intercalate (compactFields fields) ++ "\x7d"

def compactItems : List Json → List String
  | [] => []
  | item :: items => item.compact :: compactItems items

def compactFields : List (String × Json) → List String
  | [] => []
  | (name, value) :: fields => (stringText name ++ ":" ++ value.compact) :: compactFields fields

end

/-- The start of a line at a depth, two spaces a level. -/
def newLine (depth : Nat) : String :=
  String.ofList ('\n' :: List.replicate (2 * depth) ' ')

/-- Lines of items between two brackets, or the brackets alone when there is no item. -/
def bracketed (opening closing : String) (depth : Nat) : List String → String
  | [] => opening ++ closing
  | items =>
    opening ++ ",".intercalate (items.map (newLine (depth + 1) ++ ·)) ++ newLine depth ++ closing

mutual

def indentedAt (depth : Nat) : Json → String
  | .array items => bracketed "[" "]" depth (indentedItems (depth + 1) items)
  | .object fields => bracketed "\x7b" "\x7d" depth (indentedFields (depth + 1) fields)
  | .null => "null"
  | .bool true => "true"
  | .bool false => "false"
  | .int value => toString value
  | .fraction mantissa places => fractionText mantissa places
  | .string value => stringText value

def indentedItems (depth : Nat) : List Json → List String
  | [] => []
  | item :: items => item.indentedAt depth :: indentedItems depth items

def indentedFields (depth : Nat) : List (String × Json) → List String
  | [] => []
  | (name, value) :: fields =>
    (stringText name ++ ": " ++ value.indentedAt depth) :: indentedFields depth fields

end

/-- The value over several lines, two spaces a level. -/
def indented (value : Json) : String :=
  value.indentedAt 0

end ConfigScript.Json
