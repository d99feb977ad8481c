import ConfigScript.Yaml.Cursor

/-!
# Scalars

Scalars stand in single quotes, in which only the quote is written twice, in double quotes, with
escapes, bare, or as a block of lines of one indentation. Quoted and bare ones may go over several
lines and are then folded: a line feed becomes a blank, and of several in a row the first is
dropped.
-/

namespace ConfigScript.Yaml

/-- How a scalar was written. -/
inductive Style where
  | plain
  | quoted
  | literal
  | folded
deriving DecidableEq, Repr

/-- What a row of line ends stands for when it joins two lines. Only a line feed is folded. -/
def fold : List Char → List Char
  | ['\n'] => [' ']
  | '\n' :: breaks => breaks
  | breaks => breaks

/-- What a run of blanks and line ends between two words stands for. -/
def foldGap (gap : List Char) : List Char :=
  if gap.any isBreak then fold (gap.filter isBreak) else gap

/-- The value of a hexadecimal digit. -/
def hexDigit? (c : Char) : Option Nat :=
  if c.isDigit then some (c.toNat - '0'.toNat)
  else if 'a' ≤ c ∧ c ≤ 'f' then some (c.toNat - 'a'.toNat + 10)
  else if 'A' ≤ c ∧ c ≤ 'F' then some (c.toNat - 'A'.toNat + 10)
  else none

/-- The number that is written with so many hexadecimal digits at the start of a text. -/
def hexNumber? (width : Nat) (cs : List Char) : Option Nat :=
  let digits := cs.take width
  if digits.length < width then none
  else digits.foldlM (fun value c => (hexDigit? c).map (16 * value + ·)) 0

/-- The character whose code point is written with so many hexadecimal digits. -/
def codePoint? (width : Nat) (cs : List Char) : Option Char := do
  let value ← hexNumber? width cs
  if value.isValidChar then some (.ofNat value) else none

/-- The character that an escape stands for, and how many characters it takes behind the
backslash. -/
def escape? : List Char → Option (Char × Nat)
  | '0' :: _ => some ('\x00', 1)
  | 'a' :: _ => some ('\x07', 1)
  | 'b' :: _ => some ('\x08', 1)
  | 't' :: _ => some ('\t', 1)
  | '\t' :: _ => some ('\t', 1)
  | 'n' :: _ => some ('\n', 1)
  | 'v' :: _ => some ('\x0b', 1)
  | 'f' :: _ => some ('\x0c', 1)
  | 'r' :: _ => some ('\r', 1)
  | 'e' :: _ => some ('\x1b', 1)
  | ' ' :: _ => some (' ', 1)
  | '"' :: _ => some ('"', 1)
  | '/' :: _ => some ('/', 1)
  | '\\' :: _ => some ('\\', 1)
  | 'N' :: _ => some ('\u0085', 1)
  | '_' :: _ => some ('\u00a0', 1)
  | 'L' :: _ => some ('\u2028', 1)
  | 'P' :: _ => some ('\u2029', 1)
  | 'x' :: cs => (codePoint? 2 cs).map (·, 3)
  | 'u' :: cs => (codePoint? 4 cs).map (·, 5)
  | 'U' :: cs => (codePoint? 8 cs).map (·, 9)
  | _ => none

/-- Reads on behind an opening single quote. What was read before is given in reverse. -/
def singleQuoted : Nat → List Char → Cursor → Option (Scanned (List Char))
  | 0, _, _ => none
  | budget + 1, before, cursor =>
    match cursor.rest with
    | [] => none
    | '\'' :: '\'' :: _ => singleQuoted budget ('\'' :: before) (cursor.drop 2)
    | '\'' :: _ => some (before.reverse, cursor.next)
    | c :: _ =>
      if isGap c then
        let (gap, behind) := cursor.takeWhile isGap
        if behind.atMarker then none
        else singleQuoted budget ((foldGap gap).reverse ++ before) behind
      else singleQuoted budget (c :: before) cursor.next

/-- Reads on behind an opening double quote. A line end behind a backslash is dropped, the blanks
that follow it as well, and further line ends stand for themselves. -/
def doubleQuoted : Nat → List Char → Cursor → Option (Scanned (List Char))
  | 0, _, _ => none
  | budget + 1, before, cursor =>
    match cursor.rest with
    | [] => none
    | '"' :: _ => some (before.reverse, cursor.next)
    | '\\' :: cs =>
      if cs.head?.any isBreak then
        let (gap, behind) := (cursor.drop 2).takeWhile isGap
        if behind.atMarker then none
        else doubleQuoted budget ((gap.filter isBreak).reverse ++ before) behind
      else do
        let (c, length) ← escape? cs
        doubleQuoted budget (c :: before) (cursor.drop (length + 1))
    | c :: _ =>
      if isGap c then
        let (gap, behind) := cursor.takeWhile isGap
        if behind.atMarker then none
        else doubleQuoted budget ((foldGap gap).reverse ++ before) behind
      else doubleQuoted budget (c :: before) cursor.next

/-- Whether a bare scalar may start with a character that starts no other token. -/
def startsPlain (c : Char) : Bool :=
  !isGap c && !isFlowIndicator c && !"#&*!|>'\"%@\u0060".toList.contains c

/-- The length of the piece of a bare scalar up to the next blank or line end, and `count` more. It
ends in front of a colon at the end of a word and, inside of a flow collection, of a character that
structures it; there a colon must not stand directly in front of such a character. -/
def plainLength? (flow : Bool) : Nat → List Char → Option Nat
  | count, [] => some count
  | count, c :: cs =>
    if isGap c then some count
    else if flow && c == ':' && cs.head?.any (fun d => d == '?' || isFlowIndicator d) then none
    else if c == ':' && beforeGap cs || flow && isFlowIndicator c then some count
    else plainLength? flow (count + 1) cs

/-- Whether a tab stands among the first `indent` characters of a line behind the first one. -/
def tabInIndent (indent : Nat) (gap : List Char) : Bool :=
  linesBehind (gap.dropWhile isBlank)
where
  linesBehind : List Char → Bool
    | [] => false
    | c :: cs => isBreak c && '\t' ∈ (cs.takeWhile isBlank).take indent || linesBehind cs

/-- Reads on in a bare scalar, in front of a gap that has been passed. Outside of flow collections
a line belongs to it only when it stands deeper than `indent`. The result tells also whether the
gap behind it holds a line end. -/
def plain (flow : Bool) (indent : Nat) :
    Nat → List Char → List Char → Cursor → Option (Scanned (List Char × Bool))
  | 0, _, _, _ => none
  | budget + 1, before, gap, cursor => do
    if cursor.atMarker || cursor.startsWith (· == '#') then
      return ((before.reverse, gap.any isBreak), cursor)
    let length ← plainLength? flow 0 cursor.rest
    if length = 0 then return ((before.reverse, gap.any isBreak), cursor)
    let before := (cursor.rest.take length).reverse ++ (foldGap gap).reverse ++ before
    let (gap, behind) := (cursor.drop length).takeWhile isGap
    if tabInIndent indent gap then none
    if gap.isEmpty || !flow && behind.column ≤ indent then
      return ((before.reverse, gap.any isBreak), behind)
    plain flow indent budget before gap behind

/-- What becomes of the line ends behind the last line of a block: all are dropped, one is kept, or
all are. -/
inductive Chomping where
  | strip
  | clip
  | keep
deriving DecidableEq, Repr

def chomping? : Char → Option Chomping
  | '-' => some .strip
  | '+' => some .keep
  | _ => none

/-- A digit other than zero that says how deep a block is indented. -/
def indentDigit? (c : Char) : Option Nat :=
  if c.isDigit && c != '0' then some (c.toNat - '0'.toNat) else none

/-- The indicators of a block behind its first one: the sign for the line ends and the digit for
the indentation, in any order. -/
def blockIndicators (cursor : Cursor) : (Chomping × Option Nat) × Cursor :=
  match cursor.rest with
  | c :: cs =>
    match chomping? c, indentDigit? c with
    | some chomping, _ =>
      match cs.head? >>= indentDigit? with
      | some digit => ((chomping, some digit), cursor.drop 2)
      | none => ((chomping, none), cursor.next)
    | none, some digit =>
      match cs.head? >>= chomping? with
      | some chomping => ((chomping, some digit), cursor.drop 2)
      | none => ((.clip, some digit), cursor.next)
    | none, none => ((.clip, none), cursor)
  | [] => ((.clip, none), cursor)

/-- The line ends of empty lines, the cursor behind them and behind the indentation of the line
after them, and the rightmost column that blanks reach. With no column given, all blanks are
indentation; no tab may stand in it. -/
def emptyLines (column? : Option Nat) :
    Nat → List Char → Nat → Cursor → Option (Scanned (List Char × Nat))
  | 0, _, _, _ => none
  | budget + 1, breaks, widest, cursor =>
    let blanks := (cursor.rest.takeWhile (· == ' ')).length
    let start := cursor.drop (column?.elim blanks fun column => min blanks (column - cursor.column))
    let widest := max widest start.column
    if start.startsWith (· == '\t') && column?.all (start.column < ·) then none
    else
      match start.rest with
      | c :: _ =>
        if isBreak c then emptyLines column? budget (c :: breaks) widest start.next
        else some ((breaks.reverse, widest), start)
      | [] => some ((breaks.reverse, widest), start)

/-- Whether the next line of a block is joined to the one before it: neither starts with a blank,
and a line feed stands between them. -/
def joinsLines (breaks : List Char) (blankBefore : Bool) (cursor : Cursor) : Bool :=
  breaks == ['\n'] && !blankBefore && !cursor.startsWith isBlank

/-- Reads the lines of a block that begin in a column. The end of the line before and those of
empty lines after it have been passed. -/
def blockLines (isFolded : Bool) (chomping : Chomping) (column : Nat) :
    Nat → List Char → List Char → List Char → Bool → Cursor → Option (Scanned (List Char))
  | 0, _, _, _, _, _ => none
  | budget + 1, before, lastBreak, breaks, blankBefore, cursor =>
    if cursor.column = column && !cursor.rest.isEmpty then do
      let gap :=
        if isFolded && joinsLines lastBreak blankBefore cursor then fold (lastBreak ++ breaks)
        else lastBreak ++ breaks
      let (line, behind) := cursor.takeWhile fun c => !isBreak c
      let lineBreak := behind.rest.take 1
      let ((empty, _), start) ← emptyLines (some column) budget [] 1 behind.next
      blockLines isFolded chomping column budget (line.reverse ++ gap.reverse ++ before) lineBreak
        empty (cursor.startsWith isBlank) start
    else
      let tail :=
        match chomping with
        | .strip => []
        | .clip => lastBreak
        | .keep => lastBreak ++ breaks
      some (before.reverse ++ tail, cursor)

/-- Reads a block behind its first indicator, inside a collection that begins in column `indent`.
Its lines stand where the digit says, else where the first of them that is not empty does. -/
def blockScalar (isFolded : Bool) (indent budget : Nat) (cursor : Cursor) :
    Option (Scanned (List Char)) := do
  let ((chomping, digit?), behind) := blockIndicators cursor
  let start ← behind.endLine?
  let column? := digit?.map (max indent 1 + ·)
  let ((breaks, widest), start) ← emptyLines column? budget [] 1 start
  let column := column?.getD (max widest (max (indent + 1) 2))
  blockLines isFolded chomping column budget [] [] breaks false start

end ConfigScript.Yaml
