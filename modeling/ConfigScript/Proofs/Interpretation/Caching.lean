import ConfigScript.Proofs.Interpretation.Agreement

/-!
# Kept steps do not show

An interpreter builds the steps of a kind of script when it is first asked for them and keeps them.
Whatever it has been asked for before, in whatever order and with whatever failures, its answers
are those of a fresh interpreter, and these are read off the catalog.
-/

namespace ConfigScript

/-- How a script is interpreted with a catalog, every schema built anew. -/
def ScriptContext.interpretation (context : ScriptContext) (catalog : Catalog) :
    Except ContextError (Option Interpretation) :=
  if context.kind = .unknown then .ok none
  else if context.payload.map Payload.kind ≠ some context.kind then
    .error (.contractViolation context.kind context.payload)
  else
    match context.kind.steps catalog with
    | .ok steps => .ok (some ⟨steps, context.kind⟩)
    | .error cause => .error (.schemaBuild cause)

namespace Interpreter

variable {interpreter : Interpreter}

/-- One request: the answer is that of the catalog, and what is kept afterwards is as faithful to
it as before. -/
theorem Faithful.interpretation (h : interpreter.Faithful) (context : ScriptContext) :
    (interpreter.interpretation context).1 = context.interpretation interpreter.catalog ∧
      (interpreter.interpretation context).2.Faithful := by
  refine ⟨?_, h.stepsFor context⟩
  unfold Interpreter.interpretation Interpreter.stepsFor ScriptContext.interpretation
  by_cases hkind : context.kind = .unknown
  · rw [if_pos hkind, if_pos hkind]
    rfl
  · rw [if_neg hkind, if_neg hkind]
    by_cases hpayload : context.payload.map Payload.kind ≠ some context.kind
    · rw [if_pos hpayload, if_pos hpayload]
      rfl
    · rw [if_neg hpayload, if_neg hpayload, ← (h.stepsOf context.kind).1]
      dsimp only
      cases (interpreter.stepsOf context.kind).1 with
      | error cause => rfl
      | ok steps => rfl

/-- All requests: no answer depends on the requests before it. -/
theorem Faithful.interpretations (h : interpreter.Faithful) (contexts : List ScriptContext) :
    (interpreter.interpretations contexts).1 =
      contexts.map (ScriptContext.interpretation · interpreter.catalog) := by
  induction contexts generalizing interpreter with
  | nil => rfl
  | cons context contexts ih =>
    obtain ⟨hanswer, hkept⟩ := h.interpretation context
    have hcatalog : (interpreter.interpretation context).2.catalog = interpreter.catalog :=
      catalog_stepsFor context
    have hothers := ih hkept
    rw [hcatalog] at hothers
    rw [Interpreter.interpretations, List.map_cons, ← hanswer, ← hothers]

/-- Every request of a sequence is answered as a fresh interpreter answers it: with the schemas that
the catalog gives, with the same fault, or with nothing. -/
theorem interpretations_eq_fresh {catalog : Catalog} {registry : Registry} {fresh : Interpreter}
    (h : ofCatalog catalog registry = .ok fresh) (contexts : List ScriptContext) :
    (fresh.interpretations contexts).1 =
        contexts.map (fun context => (fresh.interpretation context).1) ∧
      ∀ context, (fresh.interpretation context).1 = context.interpretation fresh.catalog := by
  have hfresh := faithful_ofCatalog h
  refine ⟨?_, fun context => (hfresh.interpretation context).1⟩
  rw [hfresh.interpretations]
  exact List.map_congr_left fun context _ => (hfresh.interpretation context).1.symm

/-- Requests to an interpreter without settings: two of them fail in between. -/
def interleavedRequests : List ScriptContext :=
  [⟨.settings, some (.settings "settings.dcl")⟩, ⟨.project, some (.project ":lib")⟩,
    ⟨.project, some (.settings "settings.dcl")⟩, ⟨.unknown, none⟩,
    ⟨.project, some (.project ":app")⟩]

theorem interpretations_eq_fresh_interleaved :
    ∃ fresh, ofCatalog projectCatalog .empty = .ok fresh ∧
      ((fresh.interpretations interleavedRequests).1.map Except.isOk) =
        [false, true, false, true, true] ∧
      (fresh.interpretations interleavedRequests).1 =
        interleavedRequests.map (fun context => (fresh.interpretation context).1) := by
  have hok : (ofCatalog projectCatalog .empty).toOption.any (fun fresh =>
      ((fresh.interpretations interleavedRequests).1.map Except.isOk) =
        [false, true, false, true, true]) = true := by
    decide +kernel
  cases hfresh : ofCatalog projectCatalog .empty with
  | error fault => simp [hfresh, Except.toOption] at hok
  | ok fresh =>
    exact ⟨fresh, rfl, by simpa [hfresh, Except.toOption] using hok,
      (interpretations_eq_fresh hfresh interleavedRequests).1⟩

end Interpreter

end ConfigScript
