import ConfigScript.Json.Record

/-!
# Documents

Catalogs are read from documents of several formats. What a decoder asks of a value is the same in
all of them: the fields of a record, the items of a list, a text, a flag, and whether an optional
text is there. Where a format has aliases, decoding follows only so many of them, so that a short
document cannot stand for a huge one.
-/

namespace ConfigScript

/-- Decoding may fail, and keeps how often aliases may still be followed. -/
abbrev Decoder := StateT Nat Option

namespace Decoder

def ofOption {α : Type} (value : Option α) : Decoder α :=
  StateT.lift value

/-- Counts an alias that is followed. -/
def followAlias : Decoder Unit := do
  match ← get with
  | 0 => failure
  | rest + 1 => set rest

end Decoder

/-- A format of documents. A question that does not fit the value has no answer. -/
class Document (ν : Type) where
  /-- The fields of a record that has these fields. -/
  fields : List String → ν → Decoder (List (String × ν))
  items : ν → Decoder (List ν)
  text : ν → Decoder String
  flag : ν → Decoder Bool
  optionalText : ν → Decoder (Option String)
  /-- The name of a choice that carries no data. -/
  choice : ν → Decoder String
  /-- How often aliases may be followed in a document. -/
  aliasAllowance : ν → Nat

namespace Document

variable {ν α : Type} [Document ν]

/-- What a decoder reads from a whole document. -/
def decode? (read : ν → Decoder α) (document : ν) : Option α :=
  (read document).run' (aliasAllowance document)

/-- A list whose items are all read in the same way; a missing field is the empty list. -/
def listField (fields : List (String × ν)) (name : String) (read : ν → Decoder α) :
    Decoder (List α) :=
  match fields.lookup name with
  | none => pure []
  | some value => do (← items value).mapM read

def textField (fields : List (String × ν)) (name : String) : Decoder String := do
  text (← Decoder.ofOption (fields.lookup name))

/-- A flag that is off when its field is missing. -/
def flagField (fields : List (String × ν)) (name : String) : Decoder Bool :=
  match fields.lookup name with
  | none => pure false
  | some value => flag value

def optionalTextField (fields : List (String × ν)) (name : String) : Decoder (Option String) :=
  match fields.lookup name with
  | none => pure none
  | some value => optionalText value

end Document

instance : Document Json where
  fields names value := .ofOption (value.record? names)
  items value := .ofOption (value.items? some)
  text value := .ofOption value.text?
  flag value := .ofOption value.flag?
  optionalText value := .ofOption (Json.nullable? Json.text? value)
  choice value := .ofOption (Json.named? some value)
  aliasAllowance _ := 0

end ConfigScript
