import ConfigScript.Interpretation.Evaluation
import ConfigScript.Syntax.Printer
import ConfigScript.Text.Quoted

/-!
# Listings

Trees, schemas, operations and diagnostics as lines of text for a reader.
-/

namespace ConfigScript.CommandLine

/-- Every line with a line end behind it. -/
def joinLines (lines : List String) : String :=
  String.join (lines.map (· ++ "\n"))

/-- The text with `indent` in front of every line but the first. -/
def indentRest (indent text : String) : String :=
  ("\n" ++ indent).intercalate ((Text.segments '\n' text.toList).map String.ofList)

def blockListing (block : Block) : List String :=
  ("OK Parsed " ++ toString block.statements.length ++ " statement(s)") ::
    block.statements.zipIdx.map fun (statement, index) =>
      "  [" ++ toString index ++ "] " ++ indentRest "      " statement.render

/-- An expression in a few words: literals and names are shown, other expressions by their type. -/
def describe : TypedExpr → String
  | .constant (.string value) _ => Text.quoted value
  | .constant (.int value) _ => toString value.toInt
  | .constant (.long value) _ => toString value.toInt ++ "L"
  | .constant (.boolean value) _ => toString value
  | .null _ => "null"
  | .localValue name _ _ => name
  | .object name _ _ => name.text
  | .invocation call => call.callee.simpleName ++ "(..)"
  | value => "<" ++ toString value.type ++ ">"

def callListing (call : Invocation) : String :=
  let arguments := call.arguments.map fun argument =>
    argument.parameter.name ++ " = " ++ describe argument.value
  call.callee.simpleName ++ "(" ++ ", ".intercalate arguments ++ ") -> " ++
    toString call.resultType ++ "  [" ++ call.semantics.kindName ++ "]"

mutual

/-- The lines of an operation; those of a block stand deeper than the call that it belongs to. -/
def operationListing (indent : String) : Operation → List String
  | .write _ target value _ => [indent ++ target.name ++ " = " ++ describe value]
  | .bind name value _ => [indent ++ "val " ++ name ++ " = " ++ describe value]
  | .evaluate value => [indent ++ describe value]
  | .invoke (.mk callee receiver semantics arguments none span) =>
    [indent ++ callListing (.mk callee receiver semantics arguments none span)]
  | .invoke (.mk callee receiver semantics arguments (some block) span) =>
    (indent ++ callListing (.mk callee receiver semantics arguments none span)) ::
      operationsListing (indent ++ "  ") block

def operationsListing (indent : String) : List Operation → List String
  | [] => []
  | operation :: operations =>
    operationListing indent operation ++ operationsListing indent operations

end

def propertyListing (property : Property) : String :=
  "    " ++ (if property.readOnly then "val " else "var ") ++ property.name ++ ": " ++
    toString property.type

def functionListing (function : MemberFunction) : String :=
  let parameters := function.parameters.map fun parameter =>
    parameter.name ++ ": " ++ toString parameter.type
  "    fun " ++ function.name ++ "(" ++ ", ".intercalate parameters ++ "): " ++
    toString function.semantics.returnType ++ "  [" ++ function.semantics.kindName ++ "]"

def classListing (verbose : Bool) (dataClass : DataClass) : List String :=
  ("  " ++ dataClass.name.text) ::
    if verbose then
      dataClass.properties.map propertyListing ++ dataClass.functions.map functionListing
    else []

def stepListing (verbose : Bool) (step : Step) : List String :=
  ["Step: " ++ step.identifier ++ " (" ++ step.schema.receiver.text ++ ")",
    "  fingerprint: " ++ step.schema.fingerprint] ++
    step.schema.classes.values.flatMap (classListing verbose)

def resolutionListing (step : StepResolution) : List String :=
  ("Step: " ++ step.identifier) :: operationsListing "  " step.resolution.operations

/-- A diagnostic of the script known by `label`, if wanted with its notes. -/
def diagnosticListing (label : String) (notes : Bool) (diagnostic : Diagnostic) : List String :=
  let related := diagnostic.cause.related.map fun (message, span) =>
    "    note: " ++ span.place ++ ": " ++ message
  (label ++ ":" ++ diagnostic.text) :: if notes then related else []

end ConfigScript.CommandLine
