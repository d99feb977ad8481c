import ConfigScript.Catalog.Load
import ConfigScript.CommandLine.Arguments
import ConfigScript.CommandLine.Listing
import ConfigScript.Interpretation.Codec

/-!
# Commands

What a command writes, and whether it succeeds, given the files, the standard input and the
environment. A command that fails has written all that it found out before.
-/

namespace ConfigScript.CommandLine

/-- Where a command reads from. -/
structure Inputs where
  disk : Disk
  stdin : Except ReadError String
  /-- The catalog that the environment names. -/
  environment : Option String

structure Output where
  code : Nat
  stdout : String
  stderr : String
deriving DecidableEq, Repr

inductive CommandError where
  | unreadableFile (path : String) (reason : ReadError)
  | unreadableStdin (reason : ReadError)
  | parse (failures : ParseFailures)
  | load (error : LoadError)
  | registry (error : RegistryError)
  | context (error : ContextError)
  | evaluation (error : EvaluationError)
  | unresolved (label : String)
  | diagnostics (count : Nat) (label : String)
deriving DecidableEq

def CommandError.message : CommandError → String
  | .unreadableFile path reason => "Failed to read '" ++ path ++ "': " ++ reason.message
  | .unreadableStdin reason => "Failed to read stdin: " ++ reason.message
  | .parse failures => failures.message
  | .load error => error.detail
  | .registry error => error.message
  | .context error => error.message
  | .evaluation error => error.message
  | .unresolved label => label ++ " has unresolved statements"
  | .diagnostics count label => toString count ++ " diagnostic(s) in " ++ label

/-- What a command has written, and the error that it ends with. -/
structure Report where
  written : String
  error : Option CommandError

namespace Report

def ok (written : String) : Report :=
  ⟨written, none⟩

/-- A report that had to be given up before anything was written. -/
def ofExcept : Except CommandError Report → Report
  | .ok report => report
  | .error error => ⟨"", some error⟩

end Report

def jsonText (value : Json) : String :=
  value.indented ++ "\n"

/-- The name by which a script is known, and its source. -/
def readInput (inputs : Inputs) : Option String → Except CommandError (String × String)
  | some path => (inputs.disk.readText path).mapError (.unreadableFile path) |>.map (path, ·)
  | none => inputs.stdin.mapError .unreadableStdin |>.map ("<stdin>", ·)

def interpreter (inputs : Inputs) (selection : SchemaSelection) :
    Except CommandError Interpreter := do
  let registry ←
    match selection.registry with
    | some path => (Registry.load inputs.disk path).mapError .load
    | none => pure .empty
  let catalog ←
    match selection.catalog with
    | some path => (Catalog.load inputs.disk path).mapError .load
    | none => pure Bundled.catalog
  (Interpreter.ofCatalog catalog registry).mapError .registry

/-- What the script that stands at a path is interpreted for. -/
def scriptContext (kind : ScriptKind) (path : String) : ScriptContext :=
  match kind with
  | .settings => ⟨.settings, some (.settings path)⟩
  | .project => ⟨.project, some (.project (":" ++ Path.stem path))⟩
  | .unknown => ⟨.unknown, none⟩

def evaluate (inputs : Inputs) (file : Option String) (selection : SchemaSelection) :
    Except CommandError (String × Evaluation) := do
  let (label, source) ← readInput inputs file
  let interpreter ← interpreter inputs selection
  let (evaluation, _) := interpreter.evaluate (scriptContext selection.kind label) source
  return (label, ← evaluation.mapError .evaluation)

def parseCommand (inputs : Inputs) (format : OutputFormat) (file : Option String) :
    Except CommandError Report := do
  let (label, source) ← readInput inputs file
  let block ← (Block.parse label source).mapError .parse
  return .ok <|
    match format with
    | .json => jsonText block.toJson
    | .text => block.render
    | .pretty => joinLines (blockListing block)

/-- The listing of a step, with the whole schema if wanted. -/
def stepJson (verbose : Bool) (step : Step) : Json :=
  Json.sortFields (.object [("step", .string step.identifier), ("filter", step.filter.toJson),
    ("fingerprint", .string step.schema.fingerprint),
    ("schema", if verbose then step.schema.toJson else .null)])

def schemaCommand (inputs : Inputs) (format : OutputFormat) (selection : SchemaSelection)
    (verbose : Bool) : Except CommandError Report := do
  let interpreter ← interpreter inputs selection
  let (steps, _) := interpreter.stepsOf selection.kind
  let steps ← steps.mapError fun cause => .context (.schemaBuild cause)
  return .ok <|
    match format with
    | .json => jsonText (.array (steps.map (stepJson verbose)))
    | _ => joinLines (steps.flatMap (stepListing verbose))

def diagnosticLines (label : String) (format : OutputFormat) (diagnostics : List Diagnostic) :
    List String :=
  diagnostics.flatMap (diagnosticListing label (format == .pretty))

def resolveCommand (inputs : Inputs) (format : OutputFormat) (file : Option String)
    (selection : SchemaSelection) : Except CommandError Report := do
  let (label, evaluation) ← evaluate inputs file selection
  let written :=
    match format with
    | .json => jsonText evaluation.toJson
    | _ =>
      joinLines (evaluation.steps.flatMap resolutionListing ++
        diagnosticLines label format evaluation.diagnostics)
  return ⟨written, if evaluation.isUsable then none else some (.unresolved label)⟩

def checkCommand (inputs : Inputs) (format : OutputFormat) (file : Option String)
    (selection : SchemaSelection) : Except CommandError Report := do
  let (label, evaluation) ← evaluate inputs file selection
  let diagnostics := evaluation.diagnostics
  let praise := if format = .pretty ∧ diagnostics.isEmpty then ["OK " ++ label] else []
  let written :=
    match format with
    | .json => jsonText (.array (diagnostics.map Diagnostic.toJson))
    | _ => joinLines (diagnosticLines label format diagnostics ++ praise)
  let error :=
    if diagnostics.isEmpty then none
    else some (CommandError.diagnostics diagnostics.length label)
  return ⟨written, error⟩

def Command.report (command : Command) (format : OutputFormat) (inputs : Inputs) : Report :=
  .ofExcept <|
    match command with
    | .parse file => parseCommand inputs format file
    | .schema selection verbose => schemaCommand inputs format selection verbose
    | .resolve file selection => resolveCommand inputs format file selection
    | .check file selection => checkCommand inputs format file selection

/-- The error of a command goes where its output goes when that is JSON. -/
def Report.output (report : Report) (format : OutputFormat) : Output :=
  match report.error with
  | none => ⟨0, report.written, ""⟩
  | some error =>
    match format with
    | .json =>
      let object := Json.object [("error", .string error.message)]
      ⟨1, report.written ++ object.compact ++ "\n", ""⟩
    | _ => ⟨1, report.written, "error: " ++ error.message ++ "\n"⟩

/-- Carries out what the arguments ask for. Arguments that ask for nothing end with code 2. -/
def run (arguments : List String) (inputs : Inputs) : Output :=
  match Request.ofArguments? inputs.environment arguments with
  | none => ⟨2, "", "error: invalid arguments\n"⟩
  | some .version => ⟨0, "dcl_cli 0.1.0\n", ""⟩
  | some (.run command format) => (command.report format inputs).output format

end ConfigScript.CommandLine
