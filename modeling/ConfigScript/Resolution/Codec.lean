import ConfigScript.Resolution.Diagnostic
import ConfigScript.Resolution.Resolve
import ConfigScript.Schema.Codec
import ConfigScript.Syntax.Codec

/-!
# Resolutions as JSON

The written form of operations and diagnostics, in the manner of that of trees: a record for every
node, tagged by its case where there is a choice.
-/

namespace ConfigScript

def Callee.toJson : Callee → Json
  | .member owner name =>
    .tagged "Member" (.object [("owner", owner.toJson), ("name", .string name)])
  | .function name => .tagged "External" name.toJson
  | .constructor name => .tagged "Constructor" name.toJson

/-- A record with a name, the type that it has, and its span. -/
def typedNameJson (name : String) (type : TypeRef) (span : Span) : Json :=
  .object [("name", .string name), ("type_ref", type.toJson), ("span", span.toJson)]

mutual

def TypedExpr.toJson : TypedExpr → Json
  | .constant value span =>
    .tagged "Constant"
      (.object [("value", .tagged value.constantType.name value.content),
        ("span", span.toJson)])
  | .null span => .tagged "Null" span.toJson
  | .receiver type depth span =>
    .tagged "Receiver"
      (.object [("type_name", type.toJson), ("depth", .int depth), ("span", span.toJson)])
  | .localValue name type span => .tagged "LocalValue" (typedNameJson name type span)
  | .property owner read span =>
    .tagged "PropertyRead"
      (.object [("receiver", owner.toJson), ("property", read.toJson), ("span", span.toJson)])
  | .object name type span => .tagged "ExternalObject" (typedNameJson name.text type span)
  | .invocation call => .tagged "Invocation" call.toJson

def Invocation.toJson : Invocation → Json
  | .mk callee receiver semantics arguments block span =>
    .object [("callee", callee.toJson), ("receiver", TypedExpr.optionJson receiver),
      ("semantics", semantics.toJson), ("arguments", .array (BoundArgument.listJson arguments)),
      ("configure_block", Operation.blockJson block), ("result_type", semantics.returnType.toJson),
      ("span", span.toJson)]

def BoundArgument.toJson : BoundArgument → Json
  | .mk parameter value =>
    .object [("parameter", parameter.toJson), ("value", value.toJson)]

def Operation.toJson : Operation → Json
  | .write receiver target value span =>
    .tagged "PropertyWrite"
      (.object [("receiver", receiver.toJson), ("property", target.toJson),
        ("value", value.toJson), ("span", span.toJson)])
  | .bind name value span =>
    .tagged "LocalValue"
      (.object [("name", .string name), ("value", value.toJson), ("span", span.toJson)])
  | .invoke call => .tagged "Invocation" call.toJson
  | .evaluate value => .tagged "Expression" value.toJson

def TypedExpr.optionJson : Option TypedExpr → Json
  | none => .null
  | some receiver => receiver.toJson

def BoundArgument.listJson : List BoundArgument → List Json
  | [] => []
  | argument :: arguments => argument.toJson :: BoundArgument.listJson arguments

def Operation.blockJson : Option (List Operation) → Json
  | none => .null
  | some operations => .array (Operation.listJson operations)

def Operation.listJson : List Operation → List Json
  | [] => []
  | operation :: operations => operation.toJson :: Operation.listJson operations

end

def Diagnostic.toJson (diagnostic : Diagnostic) : Json :=
  let related := diagnostic.cause.related.map fun (message, span) =>
    Json.object [("message", .string message), ("span", span.toJson)]
  .object [("code", .string diagnostic.code.name), ("message", .string diagnostic.message),
    ("span", diagnostic.span.toJson), ("related", .array related)]

def Resolution.toJson (resolution : Resolution) : Json :=
  .object [("operations", .array (Operation.listJson resolution.operations)),
    ("diagnostics", .array (resolution.diagnostics.map Diagnostic.toJson))]

namespace StatementFilter

def toJson : StatementFilter → Json
  | .all => .string "All"
  | .onlyCalls names => .tagged "TopLevelCallsNamed" (.array (names.map .string))
  | .exceptCalls names => .tagged "ExcludeTopLevelCallsNamed" (.array (names.map .string))

def ofJson? (value : Json) : Option StatementFilter := do
  match ← value.case? with
  | ("All", none) => return .all
  | ("All", some .null) => return .all
  | ("TopLevelCallsNamed", some names) => return .onlyCalls (← names.items? Json.text?)
  | ("ExcludeTopLevelCallsNamed", some names) => return .exceptCalls (← names.items? Json.text?)
  | _ => none

end StatementFilter

end ConfigScript
