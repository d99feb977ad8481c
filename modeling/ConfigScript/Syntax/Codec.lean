import ConfigScript.Json.Record
import ConfigScript.Syntax.Tree

/-!
# Trees as JSON

The written form of a tree: a record for every node, and for every choice an object with one
field, which names the case. `ofJson?` reads what `toJson` writes; it also skips unknown fields,
takes a missing receiver for none, and refuses numbers out of range.
-/

namespace ConfigScript

namespace Span

def toJson (span : Span) : Json :=
  .object [("start", .int span.start), ("end", .int span.stop), ("line", .int span.line),
    ("column", .int span.column)]

def ofJson? (value : Json) : Option Span := do
  let fields ← value.record? ["start", "end", "line", "column"]
  let start ← Json.required? fields "start" (Json.natBelow? UInt64.size)
  let stop ← Json.required? fields "end" (Json.natBelow? UInt64.size)
  let line ← Json.required? fields "line" (Json.natBelow? UInt32.size)
  let column ← Json.required? fields "column" (Json.natBelow? UInt32.size)
  return ⟨start, stop, line, column⟩

end Span

/-- The value that a literal spells. -/
def Literal.content : Literal → Json
  | .string value => .string value
  | .int value => .int value.toInt
  | .long value => .int value.toInt
  | .boolean value => .bool value

/-- A literal with its span, tagged by its type. -/
def Literal.toJson (literal : Literal) (span : Span) : Json :=
  .tagged literal.constantType.name
    (.object [("value", literal.content), ("span", span.toJson)])

def Literal.ofJson? : Json → Option (Literal × Span)
  | .object [(tag, .object fields)] => do
    let literal ←
      if tag = "String" then Literal.string <$> Json.required? fields "value" Json.text?
      else if tag = "Int" then Literal.int <$> Json.required? fields "value" Json.int32?
      else if tag = "Long" then Literal.long <$> Json.required? fields "value" Json.int64?
      else if tag = "Boolean" then Literal.boolean <$> Json.required? fields "value" Json.flag?
      else none
    let span ← Json.required? fields "span" Span.ofJson?
    return (literal, span)
  | _ => none

/-- The record of a property access; a receiver that is not there is `null`. -/
def accessJson (receiver : Json) (name : String) (span : Span) : Json :=
  .object [("receiver", receiver), ("name", .string name), ("span", span.toJson)]

def callJson (receiver : Json) (name : String) (arguments : List Json) (span : Span) : Json :=
  .object [("receiver", receiver), ("name", .string name), ("args", .array arguments),
    ("span", span.toJson)]

mutual

def Expr.toJson : Expr → Json
  | .property none name span => .tagged "PropertyAccess" (accessJson .null name span)
  | .property (some receiver) name span =>
    .tagged "PropertyAccess" (accessJson receiver.toJson name span)
  | .call none name arguments span =>
    .tagged "FunctionCall" (callJson .null name (argumentsJson arguments) span)
  | .call (some receiver) name arguments span =>
    .tagged "FunctionCall" (callJson receiver.toJson name (argumentsJson arguments) span)
  | .literal value span => .tagged "Literal" (value.toJson span)
  | .null span => .tagged "Null" span.toJson
  | .this span => .tagged "This" span.toJson

def Argument.toJson : Argument → Json
  | .positional value span =>
    .tagged "Positional" (.object [("expr", value.toJson), ("span", span.toJson)])
  | .named name value span =>
    .tagged "Named"
      (.object [("name", .string name), ("expr", value.toJson), ("span", span.toJson)])
  | .lambda body span =>
    .tagged "Lambda" (.object [("block", body.toJson), ("span", span.toJson)])

def argumentsJson : List Argument → List Json
  | [] => []
  | argument :: arguments => argument.toJson :: argumentsJson arguments

def Block.toJson : Block → Json
  | .mk statements span =>
    .object [("statements", .array (statementsJson statements)), ("span", span.toJson)]

def statementsJson : List Statement → List Json
  | [] => []
  | statement :: statements => statement.toJson :: statementsJson statements

def Statement.toJson : Statement → Json
  | .importName parts span =>
    .tagged "Import" (.object [("name", .object [("parts", .array (parts.map .string))]),
      ("span", span.toJson)])
  | .assignment none name target value span =>
    .tagged "Assignment" (.object [("lhs", accessJson .null name target),
      ("rhs", value.toJson), ("span", span.toJson)])
  | .assignment (some receiver) name target value span =>
    .tagged "Assignment" (.object [("lhs", accessJson receiver.toJson name target),
      ("rhs", value.toJson), ("span", span.toJson)])
  | .localValue name value span =>
    .tagged "LocalValue" (.object [("name", .string name), ("rhs", value.toJson),
      ("span", span.toJson)])
  | .expr value => .tagged "Expr" value.toJson

end

/-- The dotted name of an import, a record of its parts. -/
def importPartsOfJson? (value : Json) : Option (List String) := do
  let fields ← value.record? ["parts"]
  Json.required? fields "parts" (Json.items? Json.text?)

def importOfJson? (value : Json) : Option Statement := do
  let fields ← value.record? ["name", "span"]
  let parts ← Json.required? fields "name" importPartsOfJson?
  let span ← Json.required? fields "span" Span.ofJson?
  return .importName parts span

-- A recursive field is read where the list of fields is walked, so that the recursion follows
-- the value; the first field of a name is the one that counts.
mutual

def Expr.ofJson? : Json → Option Expr
  | .object [(tag, data)] =>
    if tag = "PropertyAccess" then do
      let (receiver, name, span) ← accessOfJson? data
      return .property receiver name span
    else if tag = "FunctionCall" then callOfJson? data
    else if tag = "Literal" then do
      let (literal, span) ← Literal.ofJson? data
      return .literal literal span
    else if tag = "Null" then Expr.null <$> Span.ofJson? data
    else if tag = "This" then Expr.this <$> Span.ofJson? data
    else none
  | _ => none

/-- A property access: its receiver, its name and its span. -/
def accessOfJson? : Json → Option (Option Expr × String × Span)
  | .object fields => do
    let receiver ← receiverField? fields
    let name ← Json.required? fields "name" Json.text?
    let span ← Json.required? fields "span" Span.ofJson?
    return (receiver, name, span)
  | .array [.null, name, span] => do
    return (none, ← name.text?, ← Span.ofJson? span)
  | .array [receiver, name, span] => do
    return (some (← Expr.ofJson? receiver), ← name.text?, ← Span.ofJson? span)
  | _ => none

def callOfJson? : Json → Option Expr
  | .object fields => do
    let receiver ← receiverField? fields
    let name ← Json.required? fields "name" Json.text?
    let arguments ← argumentsField? fields
    let span ← Json.required? fields "span" Span.ofJson?
    return .call receiver name arguments span
  | .array [.null, name, .array arguments, span] => do
    return .call none (← name.text?) (← argumentsOfJson? arguments) (← Span.ofJson? span)
  | .array [receiver, name, .array arguments, span] => do
    return .call (some (← Expr.ofJson? receiver)) (← name.text?) (← argumentsOfJson? arguments)
      (← Span.ofJson? span)
  | _ => none

def receiverField? : List (String × Json) → Option (Option Expr)
  | [] => some none
  | (name, value) :: fields =>
    if name = "receiver" then
      match value with
      | .null => some none
      | _ => some <$> Expr.ofJson? value
    else receiverField? fields

def exprField? (wanted : String) : List (String × Json) → Option Expr
  | [] => none
  | (name, value) :: fields =>
    if name = wanted then Expr.ofJson? value else exprField? wanted fields

def argumentsField? : List (String × Json) → Option (List Argument)
  | [] => none
  | (name, value) :: fields =>
    if name = "args" then
      match value with
      | .array items => argumentsOfJson? items
      | _ => none
    else argumentsField? fields

def argumentsOfJson? : List Json → Option (List Argument)
  | [] => some []
  | item :: items => do return (← Argument.ofJson? item) :: (← argumentsOfJson? items)

def Argument.ofJson? : Json → Option Argument
  | .object [(tag, .object fields)] =>
    if tag = "Positional" then do
      let value ← exprField? "expr" fields
      return .positional value (← Json.required? fields "span" Span.ofJson?)
    else if tag = "Named" then do
      let name ← Json.required? fields "name" Json.text?
      let value ← exprField? "expr" fields
      return .named name value (← Json.required? fields "span" Span.ofJson?)
    else if tag = "Lambda" then do
      let body ← blockField? fields
      return .lambda body (← Json.required? fields "span" Span.ofJson?)
    else none
  | _ => none

def blockField? : List (String × Json) → Option Block
  | [] => none
  | (name, value) :: fields =>
    if name = "block" then Block.ofJson? value else blockField? fields

def Block.ofJson? : Json → Option Block
  | .object fields => do
    let statements ← statementsField? fields
    return .mk statements (← Json.required? fields "span" Span.ofJson?)
  | .array [.array statements, span] => do
    return .mk (← statementsOfJson? statements) (← Span.ofJson? span)
  | _ => none

def statementsField? : List (String × Json) → Option (List Statement)
  | [] => none
  | (name, value) :: fields =>
    if name = "statements" then
      match value with
      | .array items => statementsOfJson? items
      | _ => none
    else statementsField? fields

def statementsOfJson? : List Json → Option (List Statement)
  | [] => some []
  | item :: items => do return (← Statement.ofJson? item) :: (← statementsOfJson? items)

def Statement.ofJson? : Json → Option Statement
  | .object [(tag, data)] =>
    if tag = "Import" then importOfJson? data
    else if tag = "Assignment" then assignmentOfJson? data
    else if tag = "LocalValue" then localValueOfJson? data
    else if tag = "Expr" then Statement.expr <$> Expr.ofJson? data
    else none
  | _ => none

def assignmentOfJson? : Json → Option Statement
  | .object fields => do
    let (receiver, name, target) ← targetField? fields
    let value ← exprField? "rhs" fields
    let span ← Json.required? fields "span" Span.ofJson?
    return .assignment receiver name target value span
  | .array [target, value, span] => do
    let (receiver, name, target) ← accessOfJson? target
    return .assignment receiver name target (← Expr.ofJson? value) (← Span.ofJson? span)
  | _ => none

def targetField? : List (String × Json) → Option (Option Expr × String × Span)
  | [] => none
  | (name, value) :: fields =>
    if name = "lhs" then accessOfJson? value else targetField? fields

def localValueOfJson? : Json → Option Statement
  | .object fields => do
    let name ← Json.required? fields "name" Json.text?
    let value ← exprField? "rhs" fields
    return .localValue name value (← Json.required? fields "span" Span.ofJson?)
  | .array [name, value, span] => do
    return .localValue (← name.text?) (← Expr.ofJson? value) (← Span.ofJson? span)
  | _ => none

end

end ConfigScript
