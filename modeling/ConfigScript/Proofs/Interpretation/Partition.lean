import Mathlib.Algebra.GroupWithZero.Nat
import ConfigScript.Interpretation.Evaluation
import ConfigScript.Proofs.Resolution.Codes
import ConfigScript.Proofs.Resolution.Faithful

/-!
# Steps partition a script

Every statement of a script that is no import belongs to exactly one step of its interpretation, and
what a step makes of the script is what it makes of its own statements alone. When nothing is
reported, the operations of all steps together are as many as the statements.
-/

namespace ConfigScript

namespace StatementFilter

/-- Of two filters over the same names, one takes what the other leaves. -/
theorem accepts_exceptCalls (names : List String) (statement : Statement) :
    (exceptCalls names).accepts statement = !(onlyCalls names).accepts statement := by
  unfold accepts
  cases topLevelCall? statement with
  | none => rfl
  | some name => rfl

end StatementFilter

/-- The script that keeps its imports and the statements that a filter accepts. -/
def Block.restrict (block : Block) (filter : StatementFilter) : Block :=
  .mk (block.statements.filter fun statement => statement.isImport || filter.accepts statement)
    block.span

theorem Block.imports_restrict (block : Block) (filter : StatementFilter) :
    (block.restrict filter).imports = block.imports := by
  obtain ⟨statements, span⟩ := block
  simp only [restrict, imports, Block.statements, List.filterMap_filter]
  congr 1
  funext statement
  cases statement <;> simp [Statement.isImport]

/-- A filter resolves what, without a filter, the script of the accepted statements resolves to. -/
theorem Schema.resolve_restrict (schema : Schema) (undeclared : UndeclaredImports)
    (filter : StatementFilter) (block : Block) :
    schema.resolve undeclared filter block =
      schema.resolve undeclared .all (block.restrict filter) := by
  have hstatements : ((block.restrict filter).statements.filter fun statement =>
      !statement.isImport && StatementFilter.all.accepts statement) =
      block.statements.filter fun statement =>
        !statement.isImport && filter.accepts statement := by
    simp only [Block.restrict, Block.statements, List.filter_filter]
    congr 1
    funext statement
    cases statement.isImport <;> simp [StatementFilter.accepts]
  simp only [resolve, Block.imports_restrict, hstatements]

namespace Interpreter

/-- What becomes of an interpreter for a catalog and a registry while it is asked for steps, as
every evaluation of a script does. -/
inductive Reached (catalog : Catalog) (registry : Registry) : Interpreter → Prop where
  | start {interpreter : Interpreter} (h : ofCatalog catalog registry = .ok interpreter) :
      Reached catalog registry interpreter
  | stepsFor {interpreter : Interpreter} (h : Reached catalog registry interpreter)
      (context : ScriptContext) : Reached catalog registry (interpreter.stepsFor context).2

/-- The steps that are kept are those that the catalog gives. -/
def Faithful (interpreter : Interpreter) : Prop :=
  ∀ kind steps, interpreter.built.lookup kind = some steps →
    kind.steps interpreter.catalog = .ok steps

variable {interpreter : Interpreter}

theorem faithful_ofCatalog {catalog : Catalog} {registry : Registry}
    (h : ofCatalog catalog registry = .ok interpreter) : interpreter.Faithful := by
  obtain ⟨extended, -, hresult⟩ := Fallible.bind_eq_ok.mp h
  obtain rfl := Fallible.pure_eq_ok.mp hresult
  intro kind steps hlookup
  cases hlookup

/-- Kept or built anew, the steps of a kind are those of the catalog, and what is kept behind that
is as faithful as before. -/
theorem Faithful.stepsOf (h : interpreter.Faithful) (kind : ScriptKind) :
    (interpreter.stepsOf kind).1 = kind.steps interpreter.catalog ∧
      (interpreter.stepsOf kind).2.Faithful := by
  unfold Interpreter.stepsOf
  split
  · rename_i steps hlookup
    exact ⟨(h kind steps hlookup).symm, h⟩
  · split
    · rename_i steps hsteps
      refine ⟨hsteps.symm, fun other kept hlookup => ?_⟩
      rw [List.lookup_cons] at hlookup
      by_cases heq : other = kind
      · subst heq
        simp only [beq_self_eq_true, Option.some.injEq] at hlookup
        exact hlookup ▸ hsteps
      · rw [beq_eq_false_iff_ne.mpr heq] at hlookup
        exact h other kept hlookup
    · rename_i cause hcause
      exact ⟨hcause.symm, h⟩

theorem Faithful.stepsFor (h : interpreter.Faithful) (context : ScriptContext) :
    (interpreter.stepsFor context).2.Faithful := by
  unfold Interpreter.stepsFor
  split
  · exact h
  · split
    · exact h
    · exact (h.stepsOf context.kind).2

theorem Reached.faithful {catalog : Catalog} {registry : Registry}
    (h : Reached catalog registry interpreter) : interpreter.Faithful := by
  induction h with
  | start h => exact faithful_ofCatalog h
  | stepsFor _ context ih => exact ih.stepsFor context

/-- Steps are given to settings and project scripts only. -/
theorem Faithful.steps_of_stepsFor (h : interpreter.Faithful) {context : ScriptContext}
    {steps : List Step} (hsteps : (interpreter.stepsFor context).1 = .ok (some steps)) :
    context.kind ≠ .unknown ∧ context.kind.steps interpreter.catalog = .ok steps := by
  unfold Interpreter.stepsFor at hsteps
  split at hsteps
  · cases hsteps
  · rename_i hkind
    split at hsteps
    · cases hsteps
    · refine ⟨hkind, ?_⟩
      rw [← (h.stepsOf context.kind).1]
      dsimp only at hsteps
      cases hresult : (interpreter.stepsOf context.kind).1 with
      | error cause => simp [hresult, Except.mapError, Except.map] at hsteps
      | ok found =>
        rw [hresult] at hsteps
        cases hsteps
        rfl

theorem evaluate_eq_resolved {context : ScriptContext} {source : String}
    {results : List StepResolution}
    (h : (interpreter.evaluate context source).1 = .ok (.resolved results)) :
    ∃ steps block, (interpreter.stepsFor context).1 = .ok (some steps) ∧
      Block.parse context.label source = .ok block ∧ results = block.evaluate steps := by
  unfold evaluate at h
  dsimp only at h
  split at h
  · cases h
  · cases h
  · rename_i steps hsteps
    split at h
    · cases h
    · rename_i block hblock
      cases h
      exact ⟨steps, block, hsteps, hblock, rfl⟩

end Interpreter

/-- A declarative script has two steps: calls of some names at its top, and all that is left. -/
theorem ScriptKind.two_steps {kind : ScriptKind} (hkind : kind ≠ .unknown) {catalog : Catalog}
    {steps : List Step} (h : kind.steps catalog = .ok steps) :
    (∀ step ∈ steps, ∃ receiver,
        Schema.build catalog .receiverFunction receiver = .ok step.schema) ∧
      ∃ names, steps.map Step.filter = [.onlyCalls names, .exceptCalls names] := by
  have hbuilt := Fallible.mapM_eq_ok.mp h
  have hstep : ∀ plan step, StepPlan.build plan catalog = .ok step →
      Schema.build catalog .receiverFunction plan.receiver = .ok step.schema ∧
        plan.filter = step.filter := by
    intro plan step hplan
    obtain ⟨schema, hschema, hresult⟩ := Fallible.bind_eq_ok.mp hplan
    obtain rfl := Fallible.pure_eq_ok.mp hresult
    exact ⟨hschema, rfl⟩
  constructor
  · intro step hmem
    obtain ⟨plan, -, hplan⟩ := Fallible.mem_of_mapM_eq_ok h hmem
    exact ⟨plan.receiver, (hstep plan step hplan).1⟩
  · have hfilters : kind.plans.map StepPlan.filter = steps.map Step.filter := by
      clear h
      generalize kind.plans = plans at hbuilt
      induction hbuilt with
      | nil => rfl
      | cons hfirst _ ih => rw [List.map_cons, List.map_cons, (hstep _ _ hfirst).2, ih]
    rw [← hfilters]
    cases kind with
    | unknown => exact absurd rfl hkind
    | settings => exact ⟨_, rfl⟩
    | project => exact ⟨_, rfl⟩

/-- One step and no other takes a statement. -/
theorem countP_accepts {steps : List Step} {names : List String}
    (h : steps.map Step.filter = [.onlyCalls names, .exceptCalls names]) (statement : Statement) :
    steps.countP (·.filter.accepts statement) = 1 := by
  have hcount : steps.countP (·.filter.accepts statement) =
      (steps.map Step.filter).countP (·.accepts statement) := by
    rw [List.countP_map]
    rfl
  rw [hcount, h, List.countP_cons, List.countP_cons, StatementFilter.accepts_exceptCalls]
  cases (StatementFilter.onlyCalls names).accepts statement <;> rfl

/-- A statement adds one to the share of every step that takes it. -/
theorem sum_accepted_cons (statement : Statement) (statements : List Statement)
    (steps : List Step) :
    (steps.map fun step => ((statement :: statements).filter step.filter.accepts).length).sum =
      steps.countP (·.filter.accepts statement) +
        (steps.map fun step => (statements.filter step.filter.accepts).length).sum := by
  induction steps with
  | nil => rfl
  | cons step steps ih =>
    rw [List.map_cons, List.sum_cons, ih, List.countP_cons, List.map_cons, List.sum_cons]
    cases hcase : step.filter.accepts statement with
    | false =>
      simp only [List.filter_cons, hcase, Bool.false_eq_true, if_false]
      omega
    | true =>
      simp only [List.filter_cons, hcase, if_true, List.length_cons]
      omega

/-- When each statement has its one step, the shares of the steps add up to all statements. -/
theorem sum_accepted {steps : List Step} {statements : List Statement}
    (h : ∀ statement ∈ statements, steps.countP (·.filter.accepts statement) = 1) :
    (steps.map fun step => (statements.filter step.filter.accepts).length).sum =
      statements.length := by
  induction statements with
  | nil => simp
  | cons statement statements ih =>
    have hfirst := h statement List.mem_cons_self
    have hrest := ih fun other hother => h other (List.mem_cons_of_mem _ hother)
    rw [sum_accepted_cons, hfirst, hrest, List.length_cons]
    omega

/-- The diagnostics that are reported last leave everything else as it was. -/
theorem reportLast_eq (diagnostics : List Diagnostic) (results : List StepResolution) :
    List.Forall₂ (fun result reported => reported.identifier = result.identifier ∧
        reported.resolution.operations = result.resolution.operations ∧
        ∃ extra, (∀ diagnostic ∈ extra, diagnostic ∈ diagnostics) ∧
          reported.resolution.diagnostics = result.resolution.diagnostics ++ extra)
      results (reportLast diagnostics results) := by
  induction results with
  | nil => exact .nil
  | cons result results ih =>
    cases results with
    | nil => exact .cons ⟨rfl, rfl, diagnostics, fun _ => id, rfl⟩ .nil
    | cons second results => exact .cons ⟨rfl, rfl, [], by simp, by simp⟩ ih

theorem code_of_undeclaredImports {block : Block} {schemas : List Schema}
    {diagnostic : Diagnostic} (h : diagnostic ∈ block.undeclaredImports schemas) :
    diagnostic.code = .unresolvedImport := by
  obtain ⟨⟨parts, span⟩, -, hreported⟩ := List.mem_filterMap.mp h
  dsimp only at hreported
  split at hreported
  · cases hreported
  · exact Option.some.inj hreported ▸ rfl

theorem Imports.code_of_registerAll_ignored {schema : Schema} {imports : Imports}
    {names : List (List String × Span)} {diagnostic : Diagnostic}
    (h : diagnostic ∈ (imports.registerAll schema .ignored names).2) :
    diagnostic.code ≠ .unresolvedImport := by
  induction names generalizing imports with
  | nil => cases h
  | cons name names ih =>
    cases List.mem_append.mp h with
    | inl hfirst =>
      split at hfirst
      · cases hfirst
      · split at hfirst
        · cases hfirst
        · obtain rfl := List.mem_singleton.mp hfirst
          simp [Diagnostic.code, Diagnostic.Cause.code]
    | inr hrest => exact ih hrest

/-- Where undeclared imports are ignored, none is reported. -/
theorem Schema.code_of_resolve_ignored {schema : Schema} {filter : StatementFilter} {block : Block}
    {diagnostic : Diagnostic}
    (h : diagnostic ∈ (schema.resolve .ignored filter block).diagnostics) :
    diagnostic.code ≠ .unresolvedImport := by
  cases List.mem_append.mp h with
  | inl himports => exact Imports.code_of_registerAll_ignored himports
  | inr hstatements =>
    intro hcode
    exact Environment.spares_resolveStatements _ diagnostic hstatements (.inl hcode)

/-- What came of a step is what comes of its own statements alone; imports that no schema declares
are reported beside it. -/
structure Step.Isolates (step : Step) (block : Block) (result : StepResolution) : Prop where
  identifier : result.identifier = step.identifier
  operations : result.resolution.operations =
    (step.schema.resolve .ignored .all (block.restrict step.filter)).operations
  diagnostics : (result.resolution.diagnostics.filter (·.code ≠ .unresolvedImport)) =
    (step.schema.resolve .ignored .all (block.restrict step.filter)).diagnostics

theorem Block.isolates_evaluate (block : Block) (steps : List Step) :
    List.Forall₂ (fun step result => step.Isolates block result) steps (block.evaluate steps) := by
  have hreported := reportLast_eq (block.undeclaredImports (steps.map Step.schema))
    (steps.map (·.resolve block))
  rw [List.forall₂_map_left_iff] at hreported
  refine hreported.imp fun step result hresult => ?_
  obtain ⟨hidentifier, hoperations, extra, hextra, hdiagnostics⟩ := hresult
  have halone : (step.resolve block).resolution =
      step.schema.resolve .ignored .all (block.restrict step.filter) :=
    Schema.resolve_restrict step.schema .ignored step.filter block
  refine ⟨hidentifier, by rw [hoperations, halone], ?_⟩
  rw [hdiagnostics, halone, List.filter_append]
  have hown : (step.schema.resolve .ignored .all (block.restrict step.filter)).diagnostics.filter
      (·.code ≠ .unresolvedImport) =
      (step.schema.resolve .ignored .all (block.restrict step.filter)).diagnostics :=
    List.filter_eq_self.mpr fun diagnostic hmem => by
      simpa using Schema.code_of_resolve_ignored hmem
  have hnone : extra.filter (·.code ≠ .unresolvedImport) = [] :=
    List.filter_eq_nil_iff.mpr fun diagnostic hmem => by
      simpa using code_of_undeclaredImports (hextra diagnostic hmem)
  rw [hown, hnone, List.append_nil]

/-- Where nothing is reported, as many operations come of a script as a filter takes statements. -/
theorem Schema.length_operations_of_quiet {catalog : Catalog} {style : LambdaStyle}
    {receiver : String} {schema : Schema} (hbuild : build catalog style receiver = .ok schema)
    {label source : String} {block : Block} (hparse : Block.parse label source = .ok block)
    {undeclared : UndeclaredImports} {filter : StatementFilter}
    (hquiet : (schema.resolve undeclared filter block).diagnostics = []) :
    (schema.resolve undeclared filter block).operations.length =
      ((block.statements.filter fun statement => !statement.isImport).filter
        filter.accepts).length := by
  have hclean : (schema.scriptEnvironment undeclared block).Clean := by
    intro scope hscope entry hentry
    obtain rfl := List.mem_singleton.mp hscope
    cases hentry
  have hwell : statementsWellFormed (block.statements.filter fun statement =>
      !statement.isImport && filter.accepts statement) := by
    refine statementsWellFormed_iff.mpr fun statement hstatement => ?_
    obtain ⟨hmem, hkept⟩ := List.mem_filter.mp hstatement
    rw [Bool.and_eq_true, Bool.not_eq_true'] at hkept
    exact wellFormed_of_not_import (Block.wellFormed_of_parse hparse) hmem hkept.1
  obtain ⟨-, hstatements⟩ := List.append_eq_nil_iff.mp hquiet
  have hclosed : (schema.scriptEnvironment undeclared block).schema.Closed := closed_of_build hbuild
  have hmatches := Environment.matches_resolveStatements hclosed hclean _ hwell
    fun diagnostic hmem => by
      have hnone := List.eq_nil_iff_forall_not_mem.mp hstatements diagnostic
      exact absurd hmem hnone
  have hlength := congrArg List.length hmatches.spans_eq
  rw [List.length_map, List.length_map] at hlength
  rw [List.filter_filter]
  simp only [Bool.and_comm (filter.accepts _)]
  exact hlength

/-- The results of steps share out a script: its statements among the steps, one step each, and the
operations by their steps. -/
structure Block.Partitioned (block : Block) (steps : List Step) (results : List StepResolution) :
    Prop where
  taken : ∀ statement ∈ block.statements, statement.isImport = false →
    steps.countP (·.filter.accepts statement) = 1
  isolated : List.Forall₂ (fun step result => step.Isolates block result) steps results
  total : (Evaluation.resolved results).isUsable = true →
    (results.map (·.resolution.operations.length)).sum =
      (block.statements.filter fun statement => !statement.isImport).length

theorem Block.sum_operations {block : Block} {label source : String}
    (hparse : Block.parse label source = .ok block) {catalog : Catalog} {steps : List Step}
    {results : List StepResolution}
    (hbuilt : ∀ step ∈ steps, ∃ receiver,
      Schema.build catalog .receiverFunction receiver = .ok step.schema)
    (hisolated : List.Forall₂ (fun step result => step.Isolates block result) steps results)
    (husable : ∀ result ∈ results, result.resolution.diagnostics = []) :
    (results.map (·.resolution.operations.length)).sum =
      (steps.map fun step => ((block.statements.filter fun statement =>
        !statement.isImport).filter step.filter.accepts).length).sum := by
  induction hisolated with
  | nil => rfl
  | @cons step result steps results hfirst _ ih =>
    have hrest := ih (fun other hother => hbuilt other (List.mem_cons_of_mem _ hother))
      fun other hother => husable other (List.mem_cons_of_mem _ hother)
    obtain ⟨receiver, hschema⟩ := hbuilt step List.mem_cons_self
    have hdiagnostics := hfirst.diagnostics
    rw [husable result List.mem_cons_self, ← Schema.resolve_restrict] at hdiagnostics
    have hlength := Schema.length_operations_of_quiet hschema hparse hdiagnostics.symm
    rw [List.map_cons, List.sum_cons, List.map_cons, List.sum_cons, hrest, hfirst.operations,
      ← Schema.resolve_restrict, hlength]

/-- When a script has been resolved, its steps have shared it out among them. -/
theorem partitioned_of_evaluate {catalog : Catalog} {registry : Registry}
    {interpreter : Interpreter} (hreached : Interpreter.Reached catalog registry interpreter)
    {context : ScriptContext} {source : String} {results : List StepResolution}
    (h : (interpreter.evaluate context source).1 = .ok (.resolved results)) :
    ∃ steps block, context.kind.steps interpreter.catalog = .ok steps ∧
      Block.parse context.label source = .ok block ∧ block.Partitioned steps results := by
  obtain ⟨steps, block, hsteps, hparse, rfl⟩ := Interpreter.evaluate_eq_resolved h
  obtain ⟨hkind, hsteps⟩ := hreached.faithful.steps_of_stepsFor hsteps
  obtain ⟨hbuilt, names, hfilters⟩ := ScriptKind.two_steps hkind hsteps
  have hisolated := block.isolates_evaluate steps
  refine ⟨steps, block, hsteps, hparse, fun statement _ _ => countP_accepts hfilters statement,
    hisolated, fun husable => ?_⟩
  have hquiet : ∀ result ∈ block.evaluate steps, result.resolution.diagnostics = [] := by
    intro result hresult
    exact List.isEmpty_iff.mp (List.all_eq_true.mp husable result hresult)
  rw [Block.sum_operations hparse hbuilt hisolated hquiet]
  exact sum_accepted fun statement _ => countP_accepts hfilters statement

/-- A project script whose plugins and whose property belong to different steps. -/
theorem partitioned_of_evaluate_project :
    ∃ interpreter results, Interpreter.Reached Bundled.catalog .empty interpreter ∧
      (interpreter.evaluate ⟨.project, some (.project ":lib")⟩
        "group = \"org\"\nplugins \x7b id(\"java\") \x7d").1 = .ok (.resolved results) ∧
      ∃ steps block, ScriptKind.project.steps interpreter.catalog = .ok steps ∧
        Block.parse "project ':lib'" "group = \"org\"\nplugins \x7b id(\"java\") \x7d" =
          .ok block ∧ block.Partitioned steps results := by
  have hok : (Interpreter.ofCatalog Bundled.catalog .empty).toOption.any (fun interpreter =>
      (interpreter.evaluate ⟨.project, some (.project ":lib")⟩
        "group = \"org\"\nplugins \x7b id(\"java\") \x7d").1.toOption.any fun evaluation =>
          !evaluation.steps.isEmpty && evaluation.isUsable) = true := by
    decide +kernel
  cases hinterpreter : Interpreter.ofCatalog Bundled.catalog .empty with
  | error fault => simp [hinterpreter, Except.toOption] at hok
  | ok interpreter =>
    cases hevaluation : (interpreter.evaluate ⟨.project, some (.project ":lib")⟩
        "group = \"org\"\nplugins \x7b id(\"java\") \x7d").1 with
    | error fault => simp [hinterpreter, hevaluation, Except.toOption] at hok
    | ok evaluation =>
      cases evaluation with
      | notDeclarative =>
        simp [hinterpreter, hevaluation, Except.toOption, Evaluation.steps] at hok
      | resolved results =>
        exact ⟨interpreter, results, .start hinterpreter, hevaluation,
          partitioned_of_evaluate (.start hinterpreter) hevaluation⟩

end ConfigScript
