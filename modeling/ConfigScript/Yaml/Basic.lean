import ConfigScript.Catalog.Document
import ConfigScript.Text.CharRange
import ConfigScript.Yaml.Node

/-!
# YAML documents

A document is a node together with the anchored nodes that its aliases refer to. Any scalar is a
text; only one that was written without quotes may mean a flag or nothing at all.
-/

namespace ConfigScript

structure Yaml where
  node : Yaml.Node
  /-- The nodes with their numbers, the last of each number first. -/
  anchored : List (Nat × Yaml.Node)

namespace Yaml

/-- The characters of a document: among control characters only tabs and line ends. -/
def allowedRanges : List Text.CharRange :=
  [(0x9, 0xA), (0xD, 0xD), (0x20, 0x7E), (0x85, 0x85), (0xA0, 0xFFFD), (0x10000, 0x10FFFF)]

/-- Reads the only document of a text. -/
def parse (text : String) : Option Yaml := do
  let cs := text.toList
  if !cs.all (Text.inRanges allowedRanges) then none
  let node ← Node.ofTokens? (← tokens? (normalizeBreaks cs))
  return ⟨node, node.anchors.reverse⟩

/-- How often aliases may be followed in the reading of a document: a hundred times for each of its
scalars, aliases and ends of collections. -/
def aliasAllowance (yaml : Yaml) : Nat :=
  100 * yaml.node.extent

/-- The scalar or collection that a node is, or that its alias refers to. -/
def resolve (yaml : Yaml) : Decoder Node :=
  match yaml.node with
  | .alias number => do
    Decoder.followAlias
    Decoder.ofOption (yaml.anchored.lookup number)
  | .anchored _ node => pure node
  | node => pure node

/-- Another node of the same document. -/
def withNode (yaml : Yaml) (node : Node) : Yaml :=
  { yaml with node }

def text (yaml : Yaml) : Decoder String := do
  match ← yaml.resolve with
  | .scalar _ _ text => return text
  | _ => failure

/-- The entries of a mapping, all of whose keys are texts; no field of the record occurs twice.
Where nothing is written the record has no fields. -/
def fields (names : List String) (yaml : Yaml) : Decoder (List (String × Yaml)) := do
  match ← yaml.resolve with
  | .mapping entries =>
    let fields ← entries.mapM fun (key, value) =>
      return (← (yaml.withNode key).text, yaml.withNode value)
    let known := (fields.map Prod.fst).filter (· ∈ names)
    if known.Nodup then return fields else failure
  | .scalar _ .plain "" => return []
  | _ => failure

def items (yaml : Yaml) : Decoder (List Yaml) := do
  match ← yaml.resolve with
  | .sequence items => return items.map yaml.withNode
  | .scalar _ .plain "" => return []
  | _ => failure

/-- The tag of one of the standard types. -/
def standardTag (name : String) : Tag :=
  Tag.ofChars ("tag:yaml.org,2002:" ++ name).toList

/-- A flag stands without quotes; as a literal block it needs the tag of a flag. -/
def flag (yaml : Yaml) : Decoder Bool := do
  match ← yaml.resolve with
  | .scalar tag style text =>
    if style = .plain ∨ style = .literal ∧ tag = some (standardTag "bool") then
      if text ∈ ["true", "True", "TRUE"] then return true
      else if text ∈ ["false", "False", "FALSE"] then return false
      else failure
    else failure
  | _ => failure

/-- The scalars that mean that there is no value. -/
def nullTexts : List String :=
  ["~", "null", "Null", "NULL"]

/-- There is no text where nothing or one of the null texts is written, unless a tag says something
else; what has the tag of nothing must be such a text. -/
def optionalText (yaml : Yaml) : Decoder (Option String) := do
  match ← yaml.resolve with
  | .scalar tag .plain text =>
    match tag with
    | none => return if text = "" ∨ text ∈ nullTexts then none else some text
    | some tag =>
      if tag ≠ standardTag "null" then return some text
      else if text ∈ nullTexts then return none
      else failure
  | .scalar _ _ text => return some text
  | _ => failure

/-- A choice is a text, or a local tag with nothing behind it. -/
def choice (yaml : Yaml) : Decoder String := do
  match ← yaml.resolve with
  | .scalar tag style text =>
    match tag >>= localName? with
    | none => return text
    | some name =>
      if style = .plain ∧ (text = "" ∨ text ∈ nullTexts) then return name else failure
  | _ => failure
where
  localName? (tag : Tag) : Option String :=
    match tag with
    | 0x21 :: name => String.fromUTF8? ⟨name.toArray⟩
    | _ => none

end Yaml

instance : Document Yaml where
  fields := Yaml.fields
  items := Yaml.items
  text := Yaml.text
  flag := Yaml.flag
  optionalText := Yaml.optionalText
  choice := Yaml.choice
  aliasAllowance := Yaml.aliasAllowance

end ConfigScript
