import ConfigScript.Interpretation.Context
import ConfigScript.Interpretation.SoftwareTypes
import ConfigScript.Resolution.Resolve
import ConfigScript.Schema.Build

/-!
# Interpretation steps

A declarative script is interpreted in two steps, each with a schema of its own: the plugin blocks
at its top first, then all other statements. Schemas are built when a script first needs them and
kept for the scripts after it.
-/

namespace ConfigScript

/-- A step before its schema is built: the receiver, and the statements that it takes. -/
structure StepPlan where
  identifier : String
  receiver : String
  filter : StatementFilter
deriving DecidableEq, Repr

/-- The steps of a kind of script. -/
def ScriptKind.plans : ScriptKind → List StepPlan
  | .unknown => []
  | .settings =>
    let blocks := ["pluginManagement", "plugins"]
    [⟨"settingsPlugins", Bundled.settingsPluginsReceiver, .onlyCalls blocks⟩,
      ⟨"settings", Bundled.settingsReceiver, .exceptCalls blocks⟩]
  | .project =>
    let blocks := ["plugins"]
    [⟨"plugins", Bundled.pluginsReceiver, .onlyCalls blocks⟩,
      ⟨"project", Bundled.projectReceiver, .exceptCalls blocks⟩]

structure Step where
  identifier : String
  schema : Schema
  filter : StatementFilter
deriving DecidableEq

def StepPlan.build (plan : StepPlan) (catalog : Catalog) : Except BuildError Step := do
  return ⟨plan.identifier, ← Schema.build catalog .receiverFunction plan.receiver, plan.filter⟩

/-- The steps of a kind of script, in the order in which they are carried out. -/
def ScriptKind.steps (kind : ScriptKind) (catalog : Catalog) : Except BuildError (List Step) :=
  kind.plans.mapM (·.build catalog)

inductive ContextError where
  /-- The payload is not one for this kind of script. -/
  | contractViolation (kind : ScriptKind) (payload : Option Payload)
  | schemaBuild (cause : BuildError)
deriving DecidableEq

namespace ContextError

def requiredPayload : ScriptKind → String
  | .unknown => "no"
  | .settings => "settings"
  | .project => "project"

def foundPayload : Option Payload → String
  | none => "no payload"
  | some (.settings _) => "a settings payload"
  | some (.project _) => "a project payload"

def message : ContextError → String
  | .contractViolation kind payload =>
    kind.name ++ " script requires a " ++ requiredPayload kind ++ " payload, found " ++
      foundPayload payload
  | .schemaBuild cause => "failed to build interpretation schema: " ++ cause.message

end ContextError

/-- A catalog, and the steps that have been built from it so far. -/
structure Interpreter where
  catalog : Catalog
  built : List (ScriptKind × List Step)

namespace Interpreter

def ofCatalog (catalog : Catalog) (registry : Registry) : Except RegistryError Interpreter := do
  return ⟨← catalog.withRegistry registry, []⟩

/-- The steps of a kind of script, built unless they are there already. A failure is not kept. -/
def stepsOf (interpreter : Interpreter) (kind : ScriptKind) :
    Except BuildError (List Step) × Interpreter :=
  match interpreter.built.lookup kind with
  | some steps => (.ok steps, interpreter)
  | none =>
    match kind.steps interpreter.catalog with
    | .ok steps => (.ok steps, { interpreter with built := (kind, steps) :: interpreter.built })
    | .error cause => (.error cause, interpreter)

/-- The steps in which a script is interpreted, or none when it is not declarative. -/
def stepsFor (interpreter : Interpreter) (context : ScriptContext) :
    Except ContextError (Option (List Step)) × Interpreter :=
  if context.kind = .unknown then (.ok none, interpreter)
  else if context.payload.map Payload.kind ≠ some context.kind then
    (.error (.contractViolation context.kind context.payload), interpreter)
  else
    let (steps, interpreter) := interpreter.stepsOf context.kind
    ((steps.mapError .schemaBuild).map some, interpreter)

end Interpreter

/-- How a declarative script is interpreted: its steps in order, and the kind of script whose target
they change. -/
structure Interpretation where
  steps : List Step
  target : ScriptKind
deriving DecidableEq

namespace Interpreter

/-- The interpretation of a script, or none when it is not declarative. -/
def interpretation (interpreter : Interpreter) (context : ScriptContext) :
    Except ContextError (Option Interpretation) × Interpreter :=
  let (steps, interpreter) := interpreter.stepsFor context
  (steps.map (Option.map (⟨·, context.kind⟩)), interpreter)

/-- The interpretations of scripts that one interpreter is asked for in turn. -/
def interpretations (interpreter : Interpreter) :
    List ScriptContext → List (Except ContextError (Option Interpretation)) × Interpreter
  | [] => ([], interpreter)
  | context :: contexts =>
    let (first, interpreter) := interpreter.interpretation context
    let (others, interpreter) := interpreter.interpretations contexts
    (first :: others, interpreter)

end Interpreter

end ConfigScript
