import ConfigScript.Interpretation.Evaluation
import ConfigScript.Resolution.Codec

/-!
# Evaluations as JSON

The written form of what became of a script: its outcome, and what each step made of it.
-/

namespace ConfigScript

def StepResolution.toJson (step : StepResolution) : Json :=
  .object [("step_identifier", .string step.identifier),
    ("schema_fingerprint", .string step.fingerprint), ("result", step.resolution.toJson)]

def Evaluation.toJson : Evaluation → Json
  | .notDeclarative => .object [("outcome", .string "not_declarative")]
  | .resolved steps =>
    .object [("outcome", .string "resolved"),
      ("steps", .array (steps.map StepResolution.toJson))]

end ConfigScript
