import ConfigScript.Yaml.Layout

/-!
# Nodes

A document is a tree of scalars, sequences and mappings. Anchors mark nodes, to which aliases
refer. An anchor is numbered by how many different names came before it, so one that is declared
again may share its number with the next new one; an alias means the last node of its number.
-/

namespace ConfigScript.Yaml

inductive Node where
  | scalar (tag : Option Tag) (style : Style) (text : String)
  | sequence (items : List Node)
  | mapping (entries : List (Node × Node))
  | alias (number : Nat)
  | anchored (number : Nat) (node : Node)

namespace Node

/-- What stands where nothing is written. -/
def empty : Node :=
  .scalar none .plain ""

mutual

/-- The anchored nodes in a tree, each before those inside it. -/
def anchors : Node → List (Nat × Node)
  | .scalar .. | .alias _ => []
  | .sequence items => anchorsOfItems items
  | .mapping entries => anchorsOfEntries entries
  | .anchored number node => (number, node) :: node.anchors

def anchorsOfItems : List Node → List (Nat × Node)
  | [] => []
  | item :: items => item.anchors ++ anchorsOfItems items

def anchorsOfEntries : List (Node × Node) → List (Nat × Node)
  | [] => []
  | (key, value) :: entries => key.anchors ++ value.anchors ++ anchorsOfEntries entries

end

mutual

/-- How many scalars, aliases and ends of collections a tree has. -/
def extent : Node → Nat
  | .scalar .. | .alias _ => 1
  | .sequence items => extentOfItems items + 2
  | .mapping entries => extentOfEntries entries + 2
  | .anchored _ node => node.extent

def extentOfItems : List Node → Nat
  | [] => 0
  | item :: items => item.extent + extentOfItems items

def extentOfEntries : List (Node × Node) → Nat
  | [] => 0
  | (key, value) :: entries => key.extent + value.extent + extentOfEntries entries

end

end Node

/-- What is left of the tokens, what the handles of tags stand for, and the anchors declared so
far. -/
structure TokenReader where
  tokens : List Token
  handles : List (String × Tag)
  anchors : List (String × Nat)

/-- Reading of tokens, which may fail. -/
abbrev TokenRead := StateT TokenReader Option

namespace TokenRead

def peek : TokenRead (Option Token) := do
  return (← get).tokens.head?

def advance : TokenRead Unit :=
  modify fun reader => { reader with tokens := reader.tokens.tail }

/-- Passes over a token that must come next. -/
def expect (token : Token) : TokenRead Unit := do
  if (← peek) = some token then advance else failure

/-- Passes over a token if it comes next, and tells whether it did. -/
def accept (token : Token) : TokenRead Bool := do
  if (← peek) = some token then
    advance
    return true
  else return false

/-- Whether one of some tokens comes next. -/
def atAny (tokens : List Token) : TokenRead Bool := do
  return (← peek).any (· ∈ tokens)

def anchor? : TokenRead (Option String) := do
  match ← peek with
  | some (.anchor name) =>
    advance
    return some name
  | _ => return none

/-- A tag, which begins with what its handle stands for. -/
def tag? : TokenRead (Option Tag) := do
  match ← peek with
  | some (.tag "" tag) =>
    advance
    return some tag
  | some (.tag handle suffix) =>
    match (← get).handles.lookup handle with
    | some start =>
      advance
      return some (start ++ suffix)
    | none => failure
  | _ => return none

/-- The anchor and the tag in front of a node, in any order. -/
def properties : TokenRead (Option String × Option Tag) := do
  match ← anchor? with
  | some name => return (some name, ← tag?)
  | none =>
    let tag ← tag?
    let name ← if tag.isSome then anchor? else pure none
    return (name, tag)

/-- Gives an anchor its number. -/
def declare (name : String) : TokenRead Nat := do
  let reader ← get
  let number := reader.anchors.length
  set { reader with anchors := (name, number) :: reader.anchors.filter (·.1 != name) }
  return number

/-- The number of an anchor that has been declared. -/
def number (name : String) : TokenRead Nat := do
  match (← get).anchors.lookup name with
  | some number => return number
  | none => failure

end TokenRead

/-- Where a node stands: by itself or behind a dash, as key or value of a block mapping, or in a
flow collection. -/
inductive Place where
  | block
  | entry
  | flow
deriving DecidableEq, Repr

namespace TokenRead

mutual

/-- The node that comes next. -/
def node : Nat → Place → TokenRead Node
  | 0, _ => failure
  | budget + 1, place => do
    if let some (.alias name) ← peek then
      advance
      return .alias (← number name)
    let (anchor, tag) ← properties
    match anchor with
    | none => content budget place tag false
    | some name =>
      let number ← declare name
      return .anchored number (← content budget place tag true)

/-- A node behind its anchor and tag. If it has one of them, it may be empty. Dashes behind a key
need no indentation of their own. -/
def content : Nat → Place → Option Tag → Bool → TokenRead Node
  | 0, _, _, _ => failure
  | budget + 1, place, tag, isAnchored => do
    match ← peek with
    | some (.scalar style text) =>
      advance
      return .scalar tag style text
    | some .flowSequenceStart =>
      advance
      return .sequence (← flowItems budget true)
    | some .flowMappingStart =>
      advance
      return .mapping (← flowEntries budget true)
    | token =>
      if token = some .dash ∧ place = .entry then
        return .sequence (← dashes budget)
      else if token = some .blockSequenceStart ∧ place ≠ .flow then
        advance
        return .sequence (← blockItems budget)
      else if token = some .blockMappingStart ∧ place ≠ .flow then
        advance
        return .mapping (← blockEntries budget)
      else if isAnchored ∨ tag.isSome then return .scalar tag .plain ""
      else failure

/-- A node that is empty when one of some tokens comes next. -/
def nodeUnless : Nat → List Token → Place → TokenRead Node
  | 0, _, _ => failure
  | budget + 1, tokens, place => do
    if ← atAny tokens then return .empty else node budget place

/-- The items of a block sequence up to its end. -/
def blockItems : Nat → TokenRead (List Node)
  | 0 => failure
  | budget + 1 => do
    if ← accept .dash then
      let item ← nodeUnless budget [.dash, .blockEnd] .block
      return item :: (← blockItems budget)
    expect .blockEnd
    return []

/-- The items behind dashes that stand in the column of their key. -/
def dashes : Nat → TokenRead (List Node)
  | 0 => failure
  | budget + 1 => do
    if ← accept .dash then
      let item ← nodeUnless budget [.dash, .key, .value, .blockEnd] .block
      return item :: (← dashes budget)
    return []

/-- The entries of a block mapping up to its end. Key and value may be empty. -/
def blockEntries : Nat → TokenRead (List (Node × Node))
  | 0 => failure
  | budget + 1 => do
    if ← accept .key then
      let key ← nodeUnless budget [.key, .value, .blockEnd] .entry
      let value ←
        if ← accept .value then nodeUnless budget [.key, .value, .blockEnd] .entry
        else pure .empty
      return (key, value) :: (← blockEntries budget)
    expect .blockEnd
    return []

/-- The items of a flow sequence up to its end, with commas between them and perhaps behind the
last. A key makes an item that is a mapping of its own. -/
def flowItems : Nat → Bool → TokenRead (List Node)
  | 0, _ => failure
  | budget + 1, isFirst => do
    if ← accept .flowSequenceEnd then return []
    if !isFirst then expect .comma
    if ← accept .flowSequenceEnd then return []
    let item ← if ← accept .key then flowPair budget else node budget .flow
    return item :: (← flowItems budget false)

/-- The pair behind a key in a flow sequence. Where the key is empty, the token behind it is passed
over whatever it is. -/
def flowPair : Nat → TokenRead Node
  | 0 => failure
  | budget + 1 => do
    let key ←
      if ← atAny [.value, .comma, .flowSequenceEnd] then advance *> pure .empty
      else node budget .flow
    let value ←
      if ← accept .value then nodeUnless budget [.comma, .flowSequenceEnd] .flow else pure .empty
    return .mapping [(key, value)]

/-- The entries of a flow mapping up to its end. Only behind a key a value can be written. -/
def flowEntries : Nat → Bool → TokenRead (List (Node × Node))
  | 0, _ => failure
  | budget + 1, isFirst => do
    if ← accept .flowMappingEnd then return []
    if !isFirst then expect .comma
    if ← accept .flowMappingEnd then return []
    let entry ←
      if ← accept .key then do
        let key ← nodeUnless budget [.value, .comma, .flowMappingEnd] .flow
        let value ←
          if ← accept .value then nodeUnless budget [.comma, .flowMappingEnd] .flow
          else pure .empty
        pure (key, value)
      else do
        let key ← node budget .flow
        pure (key, .empty)
    return entry :: (← flowEntries budget false)

end

/-- Reads the directives in front of a document. The version is given at most once, and so is each
handle. -/
def directives : Nat → Bool → TokenRead Unit
  | 0, _ => failure
  | budget + 1, hasVersion => do
    match ← peek with
    | some .version =>
      if hasVersion then failure
      advance
      directives budget true
    | some (.handle name start) =>
      let reader ← get
      if (reader.handles.lookup name).isSome then failure
      set { reader with handles := (name, start) :: reader.handles }
      advance
      directives budget hasVersion
    | _ => return

/-- What the handles stand for that no directive has declared. -/
def standardHandles : List (String × Tag) :=
  [("!", Tag.ofChars "!".toList), ("!!", Tag.ofChars "tag:yaml.org,2002:".toList)]

/-- Whether a token stands between documents; the end of the text does, too. -/
def isOuterToken : Option Token → Bool
  | none | some .version | some (.handle ..) | some .documentStart | some .documentEnd => true
  | _ => false

/-- The node of the only document of a text. Without a mark in front of it, it must not be empty
unless there is nothing at all. -/
def document (budget : Nat) : TokenRead Node := do
  let first ← peek
  if first.isNone then return .empty
  if isOuterToken first && first ≠ some .documentEnd then
    directives budget false
    expect .documentStart
    modify fun reader => { reader with handles := reader.handles ++ standardHandles }
    if isOuterToken (← peek) then return .empty else node budget .block
  else
    modify fun reader => { reader with handles := standardHandles }
    node budget .block

end TokenRead

/-- The node of the only document that some tokens make up. Marks of its end may follow. -/
def Node.ofTokens? (tokens : List Token) : Option Node := do
  let (node, reader) ← (TokenRead.document (4 * tokens.length + 8)).run ⟨tokens, [], []⟩
  if reader.tokens.all (· = .documentEnd) then some node else none

end ConfigScript.Yaml
