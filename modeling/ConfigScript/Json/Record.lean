import ConfigScript.Json.Basic

/-!
# Reading records

Readers for the parts of a record. A required field that is missing or holds a value of another
kind makes the record unreadable; fields that a record does not know are skipped. A record may
also be written as the array of its fields in their order.
-/

namespace ConfigScript.Json

def text? : Json → Option String
  | .string value => some value
  | _ => none

def flag? : Json → Option Bool
  | .bool value => some value
  | _ => none

/-- A natural number below `bound`. -/
def natBelow? (bound : Nat) : Json → Option Nat
  | .int (.ofNat value) => if value < bound then some value else none
  | _ => none

def int32? : Json → Option Int32
  | .int value =>
    if Int32.minValue.toInt ≤ value ∧ value ≤ Int32.maxValue.toInt then some (.ofInt value)
    else none
  | _ => none

def int64? : Json → Option Int64
  | .int value =>
    if Int64.minValue.toInt ≤ value ∧ value ≤ Int64.maxValue.toInt then some (.ofInt value)
    else none
  | _ => none

/-- The items of an array, each read in the same way. -/
def items? {α : Type} (read : Json → Option α) : Json → Option (List α)
  | .array items => items.mapM read
  | _ => none

/-- The fields of a record whose fields stand in the order of `names`. -/
def record? (names : List String) : Json → Option (List (String × Json))
  | .object fields => some fields
  | .array items => if items.length ≤ names.length then some (names.zip items) else none
  | _ => none

/-- A field that must be there. -/
def required? {α : Type} (fields : List (String × Json)) (name : String)
    (read : Json → Option α) : Option α :=
  fields.lookup name >>= read

/-- A value that may be `null`. -/
def nullable? {α : Type} (read : Json → Option α) : Json → Option (Option α)
  | .null => some none
  | value => (read value).map some

/-- A choice: its case and, unless it is only named, the data of the case. -/
def case? : Json → Option (String × Option Json)
  | .string name => some (name, none)
  | .object [(name, data)] => some (name, some data)
  | _ => none

/-- A choice among cases without data; the case may also be written with `null` for its data. -/
def named? {α : Type} (read : String → Option α) (value : Json) : Option α := do
  match ← value.case? with
  | (name, none) => read name
  | (name, some .null) => read name
  | _ => none

end ConfigScript.Json
