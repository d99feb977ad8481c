import ConfigScript.Yaml.Token

/-!
# Layout

Outside of flow collections the columns of a text tell where collections begin and end. A layout
is what has been read of a text: its tokens, the columns of the open collections, and the places
that become keys if a colon follows on their line.
-/

namespace ConfigScript.Yaml

/-- A place at which a key may have begun. -/
structure KeyPlace where
  /-- How many tokens stand before it. -/
  index : Nat
  line : Nat
  column : Nat
  /-- Nothing but a key can stand there. -/
  required : Bool
deriving DecidableEq, Repr

namespace KeyPlace

/-- A key stands on one line with its colon, at most 1024 characters before it. -/
def isStale (place : KeyPlace) (cursor : Cursor) : Bool :=
  place.line < cursor.line || place.column + 1024 < cursor.column

/-- Gives up a place, unless a key is required there. -/
def release? : Option KeyPlace → Option (Option KeyPlace)
  | some place => if place.required then none else some none
  | none => some none

/-- Gives up a place that the cursor has left behind. -/
def refresh? (cursor : Cursor) : Option KeyPlace → Option (Option KeyPlace)
  | some place => if place.isStale cursor then release? (some place) else some (some place)
  | none => some none

end KeyPlace

structure Layout where
  cursor : Cursor
  tokens : Array Token
  /-- The column of the innermost open block collection; zero if there is none. -/
  indent : Nat
  outerIndents : List Nat
  /-- Whether a key, or a collection, may begin at the cursor. -/
  keysAllowed : Bool
  /-- The place of a key in the innermost open flow collection, or outside of all. -/
  key : Option KeyPlace
  /-- Those outside of each open flow collection. -/
  outerKeys : List (Option KeyPlace)

namespace Layout

def ofText (cs : List Char) : Layout :=
  ⟨.ofText cs, #[], 0, [], true, none, []⟩

def inFlow (layout : Layout) : Bool :=
  !layout.outerKeys.isEmpty

/-- The layout with one more token, up to a cursor. -/
def emit (layout : Layout) (token : Token) (cursor : Cursor) : Layout :=
  { layout with cursor, tokens := layout.tokens.push token }

/-- The layout with one more token of a single character. -/
def emitNext (layout : Layout) (token : Token) : Layout :=
  layout.emit token layout.cursor.next

/-- Passes over blanks, line ends and comments, and a byte order mark at the start of a line. Where
a key may begin outside of flow collections, a tab is no blank; behind a line end there, one may. -/
def skipGap : Nat → Layout → Layout
  | 0, layout => layout
  | budget + 1, layout =>
    let start := layout.cursor
    let start := if start.column = 1 ∧ start.startsWith (· == '\ufeff') then start.next else start
    let tabs := layout.inFlow || !layout.keysAllowed
    let stop := (start.skipWhile fun c => c == ' ' || tabs && c == '\t').skipComment
    if stop.startsWith isBreak then
      skipGap budget
        { layout with cursor := stop.next, keysAllowed := layout.keysAllowed || !layout.inFlow }
    else { layout with cursor := stop }

/-- Gives up the places of keys that the cursor has left behind. -/
def refreshKeys? (layout : Layout) : Option Layout := do
  let key ← KeyPlace.refresh? layout.cursor layout.key
  let outerKeys ← layout.outerKeys.mapM (KeyPlace.refresh? layout.cursor)
  return { layout with key, outerKeys }

/-- Closes the block collections that begin to the right of a column. -/
def closeBlocks (layout : Layout) (column : Nat) : Layout :=
  if layout.inFlow then layout
  else
    let (indent, outerIndents, tokens) := close layout.indent layout.outerIndents layout.tokens
    { layout with indent, outerIndents, tokens }
where
  close (indent : Nat) : List Nat → Array Token → Nat × List Nat × Array Token
    | [], tokens => (indent, [], tokens)
    | outer :: outers, tokens =>
      if column < indent then close outer outers (tokens.push .blockEnd)
      else (indent, outer :: outers, tokens)

/-- Opens a block collection in a column, in front of the token with an index, unless it is open
already. -/
def openBlock (layout : Layout) (token : Token) (column index : Nat) : Layout :=
  if !layout.inFlow && layout.indent < column then
    { layout with
      indent := column, outerIndents := layout.indent :: layout.outerIndents
      tokens := layout.tokens.insertIdxIfInBounds index token }
  else layout

/-- Notes that a key may begin at the cursor. -/
def noteKey? (layout : Layout) : Option Layout := do
  if !layout.keysAllowed then return layout
  let _ ← KeyPlace.release? layout.key
  let required := !layout.inFlow && layout.indent = layout.cursor.column
  let place := ⟨layout.tokens.size, layout.cursor.line, layout.cursor.column, required⟩
  return { layout with key := some place }

def releaseKey? (layout : Layout) : Option Layout :=
  (KeyPlace.release? layout.key).map fun key => { layout with key }

/-- Reads a token that a key may begin with, but behind which none may begin. -/
def keyToken? (layout : Layout) (read : Cursor → Option (Scanned Token)) : Option Layout := do
  let layout ← layout.noteKey?
  let (token, behind) ← read layout.cursor
  return { layout.emit token behind with keysAllowed := false }

def openFlow? (layout : Layout) (token : Token) : Option Layout := do
  let layout ← layout.noteKey?
  return { layout.emitNext token with
    keysAllowed := true, key := none, outerKeys := layout.key :: layout.outerKeys }

def closeFlow? (layout : Layout) (token : Token) : Option Layout := do
  let layout ← layout.releaseKey?
  let (key, outerKeys) :=
    match layout.outerKeys with
    | key :: outerKeys => (key, outerKeys)
    | [] => (none, [])
  return { layout.emitNext token with keysAllowed := false, key, outerKeys }

def comma? (layout : Layout) : Option Layout := do
  return { (← layout.releaseKey?).emitNext .comma with keysAllowed := true }

/-- Opens a block collection at the cursor, where a collection must be allowed to begin. Inside of
flow collections nothing is opened. -/
def openHere? (layout : Layout) (token : Token) : Option Layout :=
  if layout.inFlow then some layout
  else if layout.keysAllowed then
    some (layout.openBlock token layout.cursor.column layout.tokens.size)
  else none

def dash? (layout : Layout) : Option Layout := do
  let layout ← (← layout.openHere? .blockSequenceStart).releaseKey?
  return { layout.emitNext .dash with keysAllowed := true }

/-- A question mark in front of a key. -/
def key? (layout : Layout) : Option Layout := do
  let layout ← (← layout.openHere? .blockMappingStart).releaseKey?
  return { layout.emitNext .key with keysAllowed := !layout.inFlow }

/-- A colon. What has begun at the noted place turns out to be a key; it may open a mapping. -/
def value? (layout : Layout) : Option Layout :=
  match layout.key with
  | some place =>
    let layout := { layout with tokens := layout.tokens.insertIdxIfInBounds place.index .key }
    let layout := layout.openBlock .blockMappingStart place.column place.index
    some { layout.emitNext .value with keysAllowed := false, key := none }
  | none => do
    let layout ← layout.openHere? .blockMappingStart
    return { layout.emitNext .value with keysAllowed := !layout.inFlow }

/-- Ends all block collections in front of a token that stands outside of every document. -/
def outerToken? (layout : Layout) (token : Token) (cursor : Cursor) : Option Layout := do
  let layout ← (layout.closeBlocks 0).releaseKey?
  return { layout.emit token cursor with keysAllowed := false }

def blockScalar? (layout : Layout) (budget : Nat) (style : Style) : Option Layout := do
  let layout ← layout.releaseKey?
  let (text, behind) ←
    blockScalar (style == .folded) layout.indent budget layout.cursor.next
  return { layout.emit (.scalar style (String.ofList text)) behind with keysAllowed := true }

/-- A bare scalar. Behind one that ends with its line, a key may begin. -/
def plainScalar? (layout : Layout) (budget : Nat) : Option Layout := do
  let layout ← layout.noteKey?
  let ((text, endsLine), behind) ←
    plain layout.inFlow layout.indent budget [] [] layout.cursor
  return { layout.emit (.scalar .plain (String.ofList text)) behind with keysAllowed := endsLine }

/-- A scalar that is read on behind its opening quote. -/
def quotedToken (read : Cursor → Option (Scanned (List Char))) (cursor : Cursor) :
    Option (Scanned Token) :=
  (read cursor.next).map fun (text, behind) => (.scalar .quoted (String.ofList text), behind)

/-- Reads the token that begins at the cursor with a character, with others behind it. -/
def token? (layout : Layout) (budget : Nat) (c : Char) (cs : List Char) : Option Layout :=
  if layout.cursor.column = 1 ∧ c = '%' then do
    let (token, behind) ← directive budget layout.cursor
    layout.outerToken? token behind
  else if layout.cursor.atMarker then
    layout.outerToken? (if c = '-' then .documentStart else .documentEnd) (layout.cursor.drop 3)
  else
    match c with
    | '[' => layout.openFlow? .flowSequenceStart
    | '\x7b' => layout.openFlow? .flowMappingStart
    | ']' => layout.closeFlow? .flowSequenceEnd
    | '\x7d' => layout.closeFlow? .flowMappingEnd
    | ',' => layout.comma?
    | '*' => layout.keyToken? fun cursor =>
      (anchorName cursor.next).map fun (name, behind) => (.alias name, behind)
    | '&' => layout.keyToken? fun cursor =>
      (anchorName cursor.next).map fun (name, behind) => (.anchor name, behind)
    | '!' => layout.keyToken? (tagToken layout.inFlow budget)
    | '\'' => layout.keyToken? (quotedToken (singleQuoted budget []))
    | '"' => layout.keyToken? (quotedToken (doubleQuoted budget []))
    | _ =>
      if c = '-' ∧ beforeGap cs then layout.dash?
      else if c = '?' ∧ (layout.inFlow ∨ beforeGap cs) then layout.key?
      else if c = ':' ∧ (layout.inFlow ∨ beforeGap cs) then layout.value?
      else if c = '|' ∧ !layout.inFlow then layout.blockScalar? budget .literal
      else if c = '>' ∧ !layout.inFlow then layout.blockScalar? budget .folded
      else if startsPlain c then layout.plainScalar? budget
      else none

/-- Reads on to the end of the text. -/
def finish? : Nat → Layout → Option (List Token)
  | 0, _ => none
  | budget + 1, layout => do
    let layout ← (layout.skipGap (budget + 1)).refreshKeys?
    let layout := layout.closeBlocks layout.cursor.column
    match layout.cursor.rest with
    | [] => return (← (layout.closeBlocks 0).releaseKey?).tokens.toList
    | c :: cs => finish? budget (← layout.token? (budget + 1) c cs)

end Layout

/-- The tokens of a text, whose line ends are normalized. -/
def tokens? (cs : List Char) : Option (List Token) :=
  (Layout.ofText cs).finish? (cs.length + 2)

end ConfigScript.Yaml
