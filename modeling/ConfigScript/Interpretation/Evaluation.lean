import ConfigScript.Files.FileTree
import ConfigScript.Interpretation.Steps
import ConfigScript.Schema.Fingerprint
import ConfigScript.Syntax.Script

/-!
# Evaluation

A script is parsed once and resolved in every step of its interpretation. An import is in order
when any of the steps declares what it names; the others are reported once, behind everything that
the last step reports.
-/

namespace ConfigScript

/-- What a step made of a script, and the fingerprint of the schema that it was resolved against. -/
structure StepResolution where
  identifier : String
  fingerprint : String
  resolution : Resolution

inductive Evaluation where
  | notDeclarative
  | resolved (steps : List StepResolution)

namespace Evaluation

def steps : Evaluation → List StepResolution
  | .notDeclarative => []
  | .resolved steps => steps

/-- The diagnostics of all steps. -/
def diagnostics (evaluation : Evaluation) : List Diagnostic :=
  evaluation.steps.flatMap (·.resolution.diagnostics)

def isUsable (evaluation : Evaluation) : Bool :=
  evaluation.steps.all (·.resolution.isUsable)

end Evaluation

inductive EvaluationError where
  | parse (failures : ParseFailures)
  | context (error : ContextError)
  | unreadable (path : String) (reason : ReadError)
deriving DecidableEq

namespace EvaluationError

def message : EvaluationError → String
  | .parse failures => failures.message
  | .context error => error.message
  | .unreadable path reason => "Failed to read script '" ++ path ++ "': " ++ reason.message

/-- Whether the caller is at fault, and not who wrote the script. -/
def isContractViolation : EvaluationError → Bool
  | .context (.contractViolation _ _) => true
  | _ => false

end EvaluationError

def Step.resolve (step : Step) (block : Block) : StepResolution :=
  ⟨step.identifier, step.schema.fingerprint, step.schema.resolve .ignored step.filter block⟩

/-- Adds diagnostics behind those of the last step. -/
def reportLast (diagnostics : List Diagnostic) : List StepResolution → List StepResolution
  | [] => []
  | [step] =>
    let resolution := step.resolution
    [{ step with
      resolution := { resolution with diagnostics := resolution.diagnostics ++ diagnostics } }]
  | step :: steps => step :: reportLast diagnostics steps

/-- Resolves a script in every step. -/
def Block.evaluate (block : Block) (steps : List Step) : List StepResolution :=
  reportLast (block.undeclaredImports (steps.map Step.schema)) (steps.map (·.resolve block))

namespace Interpreter

def evaluate (interpreter : Interpreter) (context : ScriptContext) (source : String) :
    Except EvaluationError Evaluation × Interpreter :=
  let (steps, interpreter) := interpreter.stepsFor context
  let evaluation :=
    match steps with
    | .error error => .error (.context error)
    | .ok none => .ok .notDeclarative
    | .ok (some steps) =>
      match Block.parse context.label source with
      | .error failures => .error (.parse failures)
      | .ok block => .ok (.resolved (block.evaluate steps))
  (evaluation, interpreter)

/-- Evaluates the script that stands at a path. -/
def evaluateFile (interpreter : Interpreter) (context : ScriptContext) (disk : Disk)
    (path : String) : Except EvaluationError Evaluation × Interpreter :=
  match disk.readText path with
  | .error reason => (.error (.unreadable path reason), interpreter)
  | .ok source => interpreter.evaluate context source

end Interpreter

end ConfigScript
