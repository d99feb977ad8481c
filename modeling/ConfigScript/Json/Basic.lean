/-!
# JSON values

Values as documents hold them. An object is the list of its fields in the order in which they are
written; numbers are integers, and a number with a fractional part is kept as an integer and a
count of decimal places.
-/

namespace ConfigScript

inductive Json where
  | null
  | bool (value : Bool)
  | int (value : Int)
  | fraction (mantissa : Int) (places : Nat)
  | string (value : String)
  | array (items : List Json)
  | object (fields : List (String × Json))

namespace Json

/-- The value of the first field of that name. -/
def field? (name : String) : Json → Option Json
  | .object fields => fields.lookup name
  | _ => none

/-- An optional value, `null` when there is none. -/
def ofOption {α : Type} (encode : α → Json) : Option α → Json
  | some value => encode value
  | none => .null

/-- An object with one field, which names the case and holds its data. -/
def tagged (name : String) (value : Json) : Json :=
  .object [(name, value)]

/-- Adds a field in front of all fields whose name is greater. -/
def insertField (name : String) (value : Json) : List (String × Json) → List (String × Json)
  | [] => [(name, value)]
  | (other, otherValue) :: fields =>
    if name < other then (name, value) :: (other, otherValue) :: fields
    else (other, otherValue) :: insertField name value fields

mutual

/-- The same value with the fields of every object in the order of their names. -/
def sortFields : Json → Json
  | .array items => .array (sortItems items)
  | .object fields => .object (sortObject fields)
  | other => other

def sortItems : List Json → List Json
  | [] => []
  | item :: items => item.sortFields :: sortItems items

def sortObject : List (String × Json) → List (String × Json)
  | [] => []
  | (name, value) :: fields => insertField name value.sortFields (sortObject fields)

end

end Json

end ConfigScript
