import Mathlib.Data.List.Pairwise
import ConfigScript.Proofs.Interpretation.Partition
import ConfigScript.Proofs.Resolution.Cascade
import ConfigScript.Proofs.Syntax.Imported

/-!
# What is reported about imports

An import that no step of an interpretation declares is reported once, in the last step, although
every step registers all imports anew. An import that clashes with an earlier one is another matter:
every step that declares both reports it.
-/

namespace ConfigScript

/-- A schema declares what an import names. -/
def Schema.DeclaresImport (schema : Schema) (parts : List String) : Prop :=
  ∃ name, QualifiedName.ofParts parts = .ok name ∧ schema.declares name = true

theorem Schema.isSome_imported?_iff {schema : Schema} {parts : List String} :
    (schema.imported? parts).isSome ↔ schema.DeclaresImport parts := by
  unfold imported? DeclaresImport
  cases QualifiedName.ofParts parts with
  | error invalid => simp
  | ok name => by_cases h : schema.declares name <;> simp [h]

instance (schema : Schema) (parts : List String) : Decidable (schema.DeclaresImport parts) :=
  decidable_of_iff _ Schema.isSome_imported?_iff

/-- What is reported about an import that is not declared. -/
def undeclaredImport (imported : List String × Span) : Diagnostic :=
  ⟨.unresolvedImport (importText imported.1), imported.2⟩

/-- What is reported about an import that clashes with an earlier one. -/
def ambiguousImport (imported : List String × Span) (existing : QualifiedName) : Diagnostic :=
  ⟨.ambiguousImport (importText imported.1) existing, imported.2⟩

/-- The import with which another one clashes in a schema: of the declared ones before it that have
its simple name the first, unless both import the same. -/
def Schema.clash? (schema : Schema) (earlier : List (List String × Span)) (parts : List String) :
    Option QualifiedName :=
  (schema.imported? parts).bind fun name =>
    (Imports.named (earlier.filterMap fun other => schema.imported? other.1)
      name.simpleName).filter (· ≠ name)

theorem Block.undeclaredImports_eq (block : Block) (schemas : List Schema) :
    block.undeclaredImports schemas = (block.imports.filter fun imported =>
      ∀ schema ∈ schemas, ¬ schema.DeclaresImport imported.1).map undeclaredImport := by
  rw [undeclaredImports, ← List.filterMap_eq_map, List.filterMap_filter]
  congr 1
  funext ⟨parts, span⟩
  simp only [List.any_eq_true, Schema.isSome_imported?_iff]
  by_cases h : ∃ schema ∈ schemas, schema.DeclaresImport parts
  · simp [h]
  · simp [h, undeclaredImport]

namespace Imports

variable {schema : Schema} {imports : Imports} {undeclared : UndeclaredImports}
  {parts : List String} {span : Span}

theorem register_of_undeclared (h : ¬ schema.DeclaresImport parts) :
    imports.register schema undeclared parts span =
      (imports, if undeclared = .reported then [undeclaredImport (parts, span)] else []) := by
  have hnone : schema.imported? parts = none := by
    rwa [← Schema.isSome_imported?_iff, Option.not_isSome_iff_eq_none] at h
  unfold register
  rw [hnone]
  cases undeclared <;> rfl

/-- A declared import is taken up, or it is reported that it clashes with an earlier one; undeclared
imports have no part in that. -/
theorem register_of_declared (imports : Imports) (span : Span)
    (h : schema.DeclaresImport parts) :
    ∃ later own, (∀ undeclared, imports.register schema undeclared parts span = (later, own)) ∧
      (own = [] ∨ ∃ existing, own = [⟨.ambiguousImport (importText parts) existing, span⟩]) := by
  obtain ⟨name, hname⟩ := Option.isSome_iff_exists.mp (Schema.isSome_imported?_iff.mpr h)
  simp only [register, hname]
  cases imports.add name with
  | ok later => exact ⟨later, [], fun _ => rfl, .inl rfl⟩
  | error existing => exact ⟨imports, _, fun _ => rfl, .inr ⟨existing, rfl⟩⟩

/-- Whether undeclared imports are reported makes no other difference. -/
theorem registerAll_reported (schema : Schema) (imports : Imports)
    (names : List (List String × Span)) :
    (imports.registerAll schema .reported names).1 =
        (imports.registerAll schema .ignored names).1 ∧
      (imports.registerAll schema .reported names).2.filter (·.code ≠ .unresolvedImport) =
        (imports.registerAll schema .ignored names).2 ∧
      (imports.registerAll schema .reported names).2.filter (·.code = .unresolvedImport) =
        (names.filter fun imported => ¬ schema.DeclaresImport imported.1).map
          undeclaredImport := by
  induction names generalizing imports with
  | nil => simp [registerAll]
  | cons imported names ih =>
    obtain ⟨parts, span⟩ := imported
    simp only [registerAll, List.filter_append]
    by_cases hdeclared : schema.DeclaresImport parts
    · obtain ⟨later, own, hregister, hown⟩ :=
        register_of_declared imports span hdeclared
      obtain ⟨htable, hothers, hundeclared⟩ := ih later
      have hcode : ∀ found ∈ own, found.code ≠ .unresolvedImport := by
        rcases hown with rfl | ⟨existing, rfl⟩
        · simp
        · simp [Diagnostic.code, Diagnostic.Cause.code]
      rw [hregister, hregister, htable, hothers, hundeclared,
        List.filter_eq_self.mpr (by simpa using hcode),
        List.filter_eq_nil_iff.mpr (by simpa using hcode), List.filter_cons_of_neg (by simpa)]
      exact ⟨rfl, rfl, rfl⟩
    · obtain ⟨htable, hothers, hundeclared⟩ := ih imports
      rw [register_of_undeclared hdeclared, register_of_undeclared hdeclared, htable, hothers,
        hundeclared, List.filter_cons_of_pos (by simpa)]
      exact ⟨rfl, rfl, rfl⟩

theorem named_append (first second : List QualifiedName) (simpleName : String) :
    named (first ++ second) simpleName =
      (named first simpleName).or (named second simpleName) := by
  unfold named
  exact List.find?_append

/-- Which name stands for a simple name after an import is the same whether the import was taken up
or not. -/
theorem named_register (schema : Schema) (imports : Imports) (parts : List String) (span : Span)
    (simpleName : String) :
    named (imports.register schema .ignored parts span).1.explicit simpleName =
      named (imports.explicit ++ (schema.imported? parts).toList) simpleName := by
  unfold register
  cases hname : schema.imported? parts with
  | none => simp
  | some name =>
    have hstands : ∀ existing, named imports.explicit name.simpleName = some existing →
        named imports.explicit simpleName =
          named (imports.explicit ++ (some name).toList) simpleName := by
      intro existing hexisting
      rw [named_append, Option.toList_some]
      by_cases hsame : name.simpleName = simpleName
      · rw [← hsame, hexisting, Option.some_or]
      · have hother : named [name] simpleName = none := by simp [named, hsame]
        rw [hother, Option.or_none]
    dsimp only
    unfold add
    cases hexisting : named imports.explicit name.simpleName with
    | none => rfl
    | some existing =>
      by_cases hsame : existing = name
      · simpa [hsame] using hstands existing hexisting
      · simpa [hsame] using hstands existing hexisting

theorem named_registerAll (schema : Schema) (imports : Imports)
    (names : List (List String × Span)) (simpleName : String) :
    named (imports.registerAll schema .ignored names).1.explicit simpleName =
      named (imports.explicit ++ names.filterMap fun other => schema.imported? other.1)
        simpleName := by
  induction names generalizing imports with
  | nil => simp [registerAll]
  | cons imported names ih =>
    obtain ⟨parts, span⟩ := imported
    have hlater := ih (imports.register schema .ignored parts span).1
    rw [named_append, named_register, ← named_append, List.append_assoc] at hlater
    rw [registerAll]
    dsimp only
    rw [hlater]
    cases hname : schema.imported? parts <;> simp [hname]

theorem registerAll_append (schema : Schema) (undeclared : UndeclaredImports) (imports : Imports)
    (first second : List (List String × Span)) :
    (imports.registerAll schema undeclared (first ++ second)).2 =
      (imports.registerAll schema undeclared first).2 ++
        ((imports.registerAll schema undeclared first).1.registerAll schema undeclared
          second).2 := by
  induction first generalizing imports with
  | nil => rfl
  | cons imported first ih =>
    obtain ⟨parts, span⟩ := imported
    simp only [List.cons_append, registerAll]
    rw [ih, List.append_assoc]

/-- An import that clashes with the name that stands for its simple name is reported. -/
theorem register_ignored (schema : Schema) (imports : Imports) (imported : List String × Span) :
    (imports.register schema .ignored imported.1 imported.2).2 =
      (((schema.imported? imported.1).bind fun name =>
        (named imports.explicit name.simpleName).filter (· ≠ name)).map
          (ambiguousImport imported)).toList := by
  unfold register
  cases hname : schema.imported? imported.1 with
  | none => rfl
  | some name =>
    dsimp only
    unfold add
    cases hexisting : named imports.explicit name.simpleName with
    | none => simp [hexisting]
    | some existing =>
      by_cases hsame : existing = name
      · simp [hexisting, hsame]
      · simp [hexisting, hsame, Option.filter, ambiguousImport]

theorem span_of_mem_registerAll {found : Diagnostic} {names : List (List String × Span)}
    (h : found ∈ (imports.registerAll schema .ignored names).2) :
    ∃ imported ∈ names, found.span = imported.2 := by
  induction names generalizing imports with
  | nil => cases h
  | cons imported names ih =>
    rw [registerAll] at h
    cases List.mem_append.mp h with
    | inl hfirst =>
      rw [register_ignored, Option.mem_toList, Option.map_eq_some_iff] at hfirst
      obtain ⟨existing, -, rfl⟩ := hfirst
      exact ⟨imported, List.mem_cons_self, rfl⟩
    | inr hrest =>
      obtain ⟨other, hother, hspan⟩ := ih hrest
      exact ⟨other, List.mem_cons_of_mem _ hother, hspan⟩

/-- Among imports at places of their own, one is reported if it clashes with those before it. -/
theorem filter_registerAll (schema : Schema) {earlier later : List (List String × Span)}
    {imported : List String × Span}
    (hapart : ∀ other ∈ earlier ++ later, other.2 ≠ imported.2) :
    ((ofDefaults schema.defaultImports).registerAll schema .ignored
        (earlier ++ imported :: later)).2.filter (·.span = imported.2) =
      ((schema.clash? earlier imported.1).map (ambiguousImport imported)).toList := by
  have helsewhere : ∀ (table : Imports) (names : List (List String × Span)),
      (∀ other ∈ names, other ∈ earlier ++ later) →
        (table.registerAll schema .ignored names).2.filter (·.span = imported.2) = [] := by
    intro table names hnames
    rw [List.filter_eq_nil_iff]
    intro found hfound
    obtain ⟨other, hother, hspan⟩ := span_of_mem_registerAll hfound
    simpa [hspan] using hapart other (hnames other hother)
  rw [registerAll_append, registerAll]
  dsimp only
  rw [List.filter_append, List.filter_append,
    helsewhere _ earlier fun _ => List.mem_append_left _,
    helsewhere _ later fun _ => List.mem_append_right _, List.nil_append, List.append_nil,
    register_ignored, List.filter_eq_self.mpr]
  · simp only [named_registerAll, ofDefaults, List.nil_append, Schema.clash?]
  · intro found hfound
    rw [Option.mem_toList, Option.map_eq_some_iff] at hfound
    obtain ⟨existing, -, rfl⟩ := hfound
    exact decide_eq_true rfl

end Imports

/-- A resolver that reports undeclared imports comes to the same operations as one that ignores
them, and reports beside what the other does the undeclared imports of its schema, in their
order. -/
theorem Schema.resolve_reported (schema : Schema) (filter : StatementFilter) (block : Block) :
    (schema.resolve .reported filter block).operations =
        (schema.resolve .ignored filter block).operations ∧
      (schema.resolve .reported filter block).diagnostics.filter (·.code ≠ .unresolvedImport) =
        (schema.resolve .ignored filter block).diagnostics ∧
      (schema.resolve .reported filter block).diagnostics.filter (·.code = .unresolvedImport) =
        block.undeclaredImports [schema] := by
  obtain ⟨htable, hothers, hundeclared⟩ := Imports.registerAll_reported schema
    (.ofDefaults schema.defaultImports) block.imports
  have hstatements : ∀ (environment : Environment) (statements : List Statement),
      let reported := (environment.resolveStatements statements).diagnostics
      reported.filter (·.code ≠ .unresolvedImport) = reported ∧
        reported.filter (·.code = .unresolvedImport) = [] := by
    intro environment statements
    have hcode : ∀ found ∈ (environment.resolveStatements statements).diagnostics,
        found.code ≠ .unresolvedImport := fun found hfound hcode =>
      Environment.spares_resolveStatements statements found hfound (.inl hcode)
    exact ⟨List.filter_eq_self.mpr (by simpa using hcode),
      List.filter_eq_nil_iff.mpr (by simpa using hcode)⟩
  simp only [resolve, htable, List.filter_append, hothers, hundeclared, Block.undeclaredImports_eq,
    List.mem_singleton, forall_eq, hstatements, List.append_nil, and_self]

/-- A result with more diagnostics behind its own. -/
def StepResolution.reporting (result : StepResolution) (diagnostics : List Diagnostic) :
    StepResolution :=
  { result with
    resolution := { result.resolution with
      diagnostics := result.resolution.diagnostics ++ diagnostics } }

theorem reportLast_append (diagnostics : List Diagnostic) (init : List StepResolution)
    (last : StepResolution) :
    reportLast diagnostics (init ++ [last]) = init ++ [last.reporting diagnostics] := by
  induction init with
  | nil => rfl
  | cons first init ih =>
    rw [List.cons_append, List.cons_append, ← ih]
    cases init <;> rfl

theorem Block.evaluate_append (block : Block) (init : List Step) (last : Step) :
    block.evaluate (init ++ [last]) = init.map (·.resolve block) ++
      [(last.resolve block).reporting
        (block.undeclaredImports ((init ++ [last]).map Step.schema))] := by
  rw [evaluate, List.map_append, List.map_append]
  exact reportLast_append _ _ _

namespace Block

variable {source : String} {block : Block}

/-- The statements of a placed script stand one behind another. -/
theorem pairwise_statements (hplaced : (Node.block block).Everywhere (Node.Placed source)) :
    block.statements.Pairwise fun first second => first.span.Before second.span := by
  obtain ⟨statements, span⟩ := block
  have hordered : (statements.map Node.statement).Pairwise
      fun first second => first.span.Before second.span := hplaced.here.ordered
  rwa [List.pairwise_map] at hordered

theorem pairwise_imports (hplaced : (Node.block block).Everywhere (Node.Placed source)) :
    block.imports.Pairwise fun first second => first.2.Before second.2 := by
  apply (pairwise_statements hplaced).filterMap
  intro first second hbefore imported himported later hlater
  cases first with
  | importName parts span =>
    cases second with
    | importName others place =>
      obtain rfl := Option.some.inj himported
      obtain rfl := Option.some.inj hlater
      exact hbefore
    | assignment => cases hlater
    | localValue => cases hlater
    | expr => cases hlater
  | assignment => cases himported
  | localValue => cases himported
  | expr => cases himported

end Block

/-- The imports that no step declares are reported in the last step and in no other one, once each
and in the order in which they stand in the script. -/
structure Block.UndeclaredOnce (block : Block) (steps : List Step)
    (results : List StepResolution) : Prop where
  identifiers : results.map StepResolution.identifier = steps.map Step.identifier
  earlier : ∀ result ∈ results.dropLast, ∀ found ∈ result.resolution.diagnostics,
    found.code ≠ .unresolvedImport
  last : ∃ last ∈ results.getLast?,
    last.resolution.diagnostics.filter (·.code = .unresolvedImport) =
      (block.imports.filter fun imported =>
        ∀ step ∈ steps, ¬ step.schema.DeclaresImport imported.1).map undeclaredImport
  ordered : block.imports.Pairwise fun first second => first.2.Before second.2

theorem Block.undeclaredOnce_evaluate {source : String} {block : Block}
    (hplaced : (Node.block block).Everywhere (Node.Placed source)) {steps : List Step}
    (hsteps : steps ≠ []) : block.UndeclaredOnce steps (block.evaluate steps) := by
  obtain ⟨init, final, rfl⟩ := (List.eq_nil_or_concat' steps).resolve_left hsteps
  have hquiet : ∀ step : Step, ∀ found ∈ (step.resolve block).resolution.diagnostics,
      found.code ≠ .unresolvedImport := fun _ _ => Schema.code_of_resolve_ignored
  rw [evaluate_append]
  constructor
  case identifiers => simp [Step.resolve, StepResolution.reporting, Function.comp_def]
  case earlier =>
    intro result hresult
    rw [List.dropLast_concat] at hresult
    obtain ⟨step, -, rfl⟩ := List.mem_map.mp hresult
    exact hquiet step
  case last =>
    refine ⟨_, List.getLast?_concat, ?_⟩
    rw [StepResolution.reporting, List.filter_append,
      List.filter_eq_nil_iff.mpr (by simpa using hquiet final), List.nil_append,
      List.filter_eq_self.mpr fun found hfound => by simpa using code_of_undeclaredImports hfound,
      undeclaredImports_eq]
    simp only [List.forall_mem_map]
  case ordered => exact pairwise_imports hplaced

/-- A script comes to results of some kind when an evaluation of it says so. -/
theorem Interpreter.exists_resolved {catalog : Catalog} {registry : Registry}
    {context : ScriptContext} {source : String} {p : Evaluation → Bool}
    (h : (ofCatalog catalog registry).toOption.any (fun interpreter =>
      (interpreter.evaluate context source).1.toOption.any p) = true)
    (hleft : p .notDeclarative = false) :
    ∃ interpreter results, Reached catalog registry interpreter ∧
      (interpreter.evaluate context source).1 = .ok (.resolved results) ∧
      p (.resolved results) = true := by
  cases hinterpreter : ofCatalog catalog registry with
  | error fault => simp [hinterpreter, Except.toOption] at h
  | ok interpreter =>
    cases hevaluation : (interpreter.evaluate context source).1 with
    | error fault => simp [hinterpreter, hevaluation, Except.toOption] at h
    | ok evaluation =>
      simp only [hinterpreter, hevaluation, Except.toOption, Option.any_some] at h
      cases evaluation with
      | notDeclarative => simp [hleft] at h
      | resolved results => exact ⟨interpreter, results, .start hinterpreter, hevaluation, h⟩

theorem Interpreter.Reached.evaluated {catalog : Catalog} {registry : Registry}
    {interpreter : Interpreter} (hreached : Reached catalog registry interpreter)
    {context : ScriptContext} {source : String} {results : List StepResolution}
    (h : (interpreter.evaluate context source).1 = .ok (.resolved results)) :
    ∃ steps block, context.kind.steps interpreter.catalog = .ok steps ∧ steps ≠ [] ∧
      Block.parse context.label source = .ok block ∧ results = block.evaluate steps := by
  obtain ⟨steps, block, hsteps, hparse, hresults⟩ := evaluate_eq_resolved h
  obtain ⟨hkind, hsteps⟩ := hreached.faithful.steps_of_stepsFor hsteps
  obtain ⟨-, names, hfilters⟩ := ScriptKind.two_steps hkind hsteps
  refine ⟨steps, block, hsteps, ?_, hparse, hresults⟩
  rintro rfl
  cases hfilters

/-- Undeclared imports are reported exactly once: over all steps of an evaluation, and by a resolver
that does not leave them to others. -/
theorem undeclared_imports_once :
    (∀ (catalog : Catalog) (registry : Registry) (interpreter : Interpreter),
      Interpreter.Reached catalog registry interpreter →
        ∀ (context : ScriptContext) (source : String) (results : List StepResolution),
          (interpreter.evaluate context source).1 = .ok (.resolved results) →
            ∃ steps block, context.kind.steps interpreter.catalog = .ok steps ∧
              Block.parse context.label source = .ok block ∧
              block.UndeclaredOnce steps results) ∧
      ∀ (schema : Schema) (filter : StatementFilter) (block : Block),
        (schema.resolve .reported filter block).operations =
            (schema.resolve .ignored filter block).operations ∧
          (schema.resolve .reported filter block).diagnostics.filter
              (·.code ≠ .unresolvedImport) =
            (schema.resolve .ignored filter block).diagnostics ∧
          (schema.resolve .reported filter block).diagnostics.filter
              (·.code = .unresolvedImport) =
            block.undeclaredImports [schema] := by
  refine ⟨?_, Schema.resolve_reported⟩
  intro catalog registry interpreter hreached context source results h
  obtain ⟨steps, block, hsteps, hne, hparse, rfl⟩ := hreached.evaluated h
  exact ⟨steps, block, hsteps, hparse,
    Block.undeclaredOnce_evaluate (Block.placed_of_parse hparse) hne⟩

/-- An import that neither step declares, and one that only the first step does. -/
theorem undeclared_imports_once_missing :
    ∃ interpreter results, Interpreter.Reached Bundled.catalog .empty interpreter ∧
      (interpreter.evaluate ⟨.project, some (.project ":lib")⟩
        "import build.plugins.PluginsBlock\nimport a.Missing\ngroup = \"org\"").1 =
          .ok (.resolved results) ∧
      (Evaluation.resolved results).diagnostics.map Diagnostic.code = [.unresolvedImport] ∧
      ∃ steps block, ScriptKind.project.steps interpreter.catalog = .ok steps ∧
        Block.parse "project ':lib'"
          "import build.plugins.PluginsBlock\nimport a.Missing\ngroup = \"org\"" = .ok block ∧
        block.UndeclaredOnce steps results := by
  have hok : (Interpreter.ofCatalog Bundled.catalog .empty).toOption.any (fun interpreter =>
      (interpreter.evaluate ⟨.project, some (.project ":lib")⟩
        "import build.plugins.PluginsBlock\nimport a.Missing\ngroup = \"org\"").1.toOption.any
          fun evaluation => evaluation.diagnostics.map Diagnostic.code = [.unresolvedImport]) =
      true := by
    decide +kernel
  obtain ⟨interpreter, results, hreached, hevaluation, hcodes⟩ :=
    Interpreter.exists_resolved hok rfl
  exact ⟨interpreter, results, hreached, hevaluation, of_decide_eq_true hcodes,
    undeclared_imports_once.1 _ _ _ hreached _ _ _ hevaluation⟩

namespace Block

variable {source : String} {block : Block} {earlier later : List (List String × Span)}
  {imported : List String × Span}

theorem start_le_stop_of_import (hplaced : (Node.block block).Everywhere (Node.Placed source))
    (himported : imported ∈ block.imports) : imported.2.start ≤ imported.2.stop := by
  have hstatement := mem_imports_iff.mp himported
  obtain ⟨statements, span⟩ := block
  have hchild : (Node.block (.mk statements span)).Child
      (.statement (.importName imported.1 imported.2)) := List.mem_map_of_mem hstatement
  exact (hplaced _ (.single hchild)).exact.start_le_stop

theorem span_ne_of_imports (hplaced : (Node.block block).Everywhere (Node.Placed source))
    (himports : block.imports = earlier ++ imported :: later) :
    ∀ other ∈ earlier ++ later, other.2 ≠ imported.2 := by
  have himported : imported ∈ block.imports := by simp [himports]
  have hspan := start_le_stop_of_import hplaced himported
  have hordered := pairwise_imports hplaced
  rw [himports, List.pairwise_append, List.pairwise_cons] at hordered
  obtain ⟨-, ⟨hlater, -⟩, hearlier⟩ := hordered
  intro other hother hsame
  cases List.mem_append.mp hother with
  | inl hmem =>
    exact Span.not_before_self hspan (hsame ▸ hearlier other hmem imported List.mem_cons_self)
  | inr hmem => exact Span.not_before_self hspan (hsame ▸ hlater other hmem)

/-- Nothing inside another statement has the place of an import. -/
theorem span_ne_of_inside (hplaced : (Node.block block).Everywhere (Node.Placed source))
    (himported : imported ∈ block.imports) {statement : Statement}
    (hstatement : statement ∈ block.statements) (hother : statement.isImport = false)
    {span : Span} (hinside : span.Inside statement.span) : span ≠ imported.2 := by
  rintro rfl
  have hspan := start_le_stop_of_import hplaced himported
  have hne : statement ≠ .importName imported.1 imported.2 := by
    rintro rfl
    cases hother
  have hsymm : Std.Symm fun first second : Statement => first.span.Apart second.span :=
    ⟨fun _ _ => Or.symm⟩
  have hapart : block.statements.Pairwise fun first second => first.span.Apart second.span :=
    (pairwise_statements hplaced).imp Or.inl
  cases hapart.forall hstatement (mem_imports_iff.mp himported) hne with
  | inl hbefore => exact Span.not_before_self hspan (hbefore.inside hinside (.refl _))
  | inr hbefore => exact Span.not_before_self hspan (hbefore.inside (.refl _) hinside)

/-- At an import a step reports that it clashes with an earlier one, and nothing else. -/
theorem filter_resolve (hplaced : (Node.block block).Everywhere (Node.Placed source))
    (himports : block.imports = earlier ++ imported :: later) (step : Step) :
    (step.resolve block).resolution.diagnostics.filter (·.span = imported.2) =
      ((step.schema.clash? earlier imported.1).map (ambiguousImport imported)).toList := by
  rw [Step.resolve, Schema.diagnostics_resolve, himports, List.filter_append,
    Imports.filter_registerAll _ (span_ne_of_imports hplaced himports),
    List.filter_eq_nil_iff.mpr, List.append_nil]
  intro found hfound
  obtain ⟨⟨environment, statement⟩, hentry, hfound⟩ := List.mem_flatMap.mp hfound
  obtain ⟨hstatement, hkept⟩ := List.mem_filter.mp (Environment.mem_of_mem_along hentry)
  rw [Bool.and_eq_true, Bool.not_eq_true'] at hkept
  have hwithin : (Node.statement statement).Everywhere (Node.Placed source) := by
    obtain ⟨statements, span⟩ := block
    exact hplaced.within (.single (List.mem_map_of_mem hstatement))
  have hinside := (Environment.orderly hwithin environment).inside hwithin hfound
  simpa using span_ne_of_inside hplaced (by simp [himports]) hstatement hkept.1 hinside

theorem filter_undeclaredImports (hplaced : (Node.block block).Everywhere (Node.Placed source))
    (himports : block.imports = earlier ++ imported :: later) (steps : List Step) :
    (block.undeclaredImports (steps.map Step.schema)).filter (·.span = imported.2) =
      if ∃ step ∈ steps, step.schema.DeclaresImport imported.1 then []
      else [undeclaredImport imported] := by
  have helsewhere : ∀ (kept : List String × Span → Bool) (names : List (List String × Span)),
      (∀ other ∈ names, other ∈ earlier ++ later) →
        ((names.filter kept).map undeclaredImport).filter (·.span = imported.2) = [] := by
    intro kept names hnames
    rw [List.filter_eq_nil_iff]
    intro found hfound
    obtain ⟨other, hother, rfl⟩ := List.mem_map.mp hfound
    intro hsame
    exact span_ne_of_imports hplaced himports other
      (hnames other (List.mem_of_mem_filter hother)) (of_decide_eq_true hsame)
  rw [undeclaredImports_eq, himports, ← List.singleton_append]
  simp only [List.filter_append, List.map_append, List.forall_mem_map]
  rw [helsewhere _ earlier fun _ => List.mem_append_left _,
    helsewhere _ later fun _ => List.mem_append_right _, List.nil_append, List.append_nil]
  by_cases hdeclared : ∃ step ∈ steps, step.schema.DeclaresImport imported.1
  · rw [if_pos hdeclared, List.filter_cons_of_neg (by simpa using hdeclared)]
    rfl
  · rw [if_neg hdeclared, List.filter_cons_of_pos (by simpa using hdeclared)]
    exact List.filter_cons_of_pos (decide_eq_true rfl)

theorem filter_flatMap_resolve (hplaced : (Node.block block).Everywhere (Node.Placed source))
    (himports : block.imports = earlier ++ imported :: later) (steps : List Step) :
    (steps.flatMap fun step => (step.resolve block).resolution.diagnostics).filter
        (·.span = imported.2) =
      (steps.filterMap fun step => step.schema.clash? earlier imported.1).map
        (ambiguousImport imported) := by
  induction steps with
  | nil => rfl
  | cons step steps ih =>
    rw [List.flatMap_cons, List.filter_append, filter_resolve hplaced himports, ih,
      List.filterMap_cons]
    cases step.schema.clash? earlier imported.1 <;> rfl

/-- What is reported at an import over all steps: every step that sees it clash with an earlier one
says so, and if no step declares it, that is reported once. -/
structure ImportReported (steps : List Step) (evaluation : Evaluation)
    (earlier : List (List String × Span)) (imported : List String × Span) : Prop where
  reports : evaluation.diagnostics.filter (·.span = imported.2) =
    (steps.filterMap fun step => step.schema.clash? earlier imported.1).map
        (ambiguousImport imported) ++
      if ∃ step ∈ steps, step.schema.DeclaresImport imported.1 then []
      else [undeclaredImport imported]
  bounded : (evaluation.diagnostics.filter (·.span = imported.2)).length ≤
    max 1 (steps.countP fun step => step.schema.DeclaresImport imported.1)

theorem importReported_evaluate (hplaced : (Node.block block).Everywhere (Node.Placed source))
    (himports : block.imports = earlier ++ imported :: later) {steps : List Step}
    (hsteps : steps ≠ []) :
    ImportReported steps (.resolved (block.evaluate steps)) earlier imported := by
  have hreports : (Evaluation.resolved (block.evaluate steps)).diagnostics.filter
      (·.span = imported.2) =
        (steps.filterMap fun step => step.schema.clash? earlier imported.1).map
            (ambiguousImport imported) ++
          if ∃ step ∈ steps, step.schema.DeclaresImport imported.1 then []
          else [undeclaredImport imported] := by
    rw [← filter_undeclaredImports hplaced himports, ← filter_flatMap_resolve hplaced himports,
      ← List.filter_append]
    obtain ⟨init, last, rfl⟩ := (List.eq_nil_or_concat' steps).resolve_left hsteps
    rw [Evaluation.diagnostics, Evaluation.steps, evaluate_append]
    simp [StepResolution.reporting, List.flatMap_map]
  refine ⟨hreports, ?_⟩
  rw [hreports, List.length_append, List.length_map, List.length_filterMap_eq_countP]
  have hclashes : steps.countP (fun step => (step.schema.clash? earlier imported.1).isSome) ≤
      steps.countP fun step => step.schema.DeclaresImport imported.1 := by
    apply List.countP_mono_left
    intro step _ hclash
    rw [decide_eq_true_eq, ← Schema.isSome_imported?_iff]
    obtain ⟨existing, hexisting⟩ := Option.isSome_iff_exists.mp hclash
    obtain ⟨name, hname, -⟩ := Option.bind_eq_some_iff.mp hexisting
    exact Option.isSome_of_eq_some hname
  split
  · simp only [List.length_nil]
    omega
  · rename_i hnone
    have hzero : (steps.countP fun step => step.schema.DeclaresImport imported.1) = 0 := by
      rw [List.countP_eq_zero]
      intro step hstep hdeclared
      exact hnone ⟨step, hstep, of_decide_eq_true hdeclared⟩
    simp only [List.length_singleton]
    omega

end Block

/-- An import is complained about at most once for each step that declares it: by those that see it
clash with an earlier import, or else in the last step when no step declares it. -/
theorem imports_reported_of_evaluate {catalog : Catalog} {registry : Registry}
    {interpreter : Interpreter} (hreached : Interpreter.Reached catalog registry interpreter)
    {context : ScriptContext} {source : String} {results : List StepResolution}
    (h : (interpreter.evaluate context source).1 = .ok (.resolved results)) :
    ∃ steps block, context.kind.steps interpreter.catalog = .ok steps ∧
      Block.parse context.label source = .ok block ∧
      ∀ earlier imported later, block.imports = earlier ++ imported :: later →
        Block.ImportReported steps (.resolved results) earlier imported := by
  obtain ⟨steps, block, hsteps, hne, hparse, rfl⟩ := hreached.evaluated h
  exact ⟨steps, block, hsteps, hparse, fun earlier imported later himports =>
    Block.importReported_evaluate (Block.placed_of_parse hparse) himports hne⟩

/-- Two functions with one simple name, which are part of every schema. -/
def clashingImports : Catalog where
  types :=
    [Bundled.typeNamed Bundled.pluginsReceiver,
      { Bundled.typeNamed Bundled.projectReceiver with
        properties := [⟨"group", "String", false, false⟩] }]
  functions := [⟨"a", "f", .pure, [], some "Int"⟩, ⟨"b", "f", .pure, [], some "Int"⟩]
  objects := []
  defaultImports := []

def clashingScript : String :=
  "import a.f\nimport b.f\ngroup = \"x\""

/-- What is reported about the second import of `clashingScript`. -/
def importClash : Diagnostic :=
  ambiguousImport (["b", "f"], ⟨11, 21, 2, 1⟩) ⟨"a.f", by decide⟩

theorem exists_evaluate_clashingScript :
    ∃ interpreter results, Interpreter.Reached clashingImports .empty interpreter ∧
      (interpreter.evaluate ⟨.project, some (.project ":app")⟩ clashingScript).1 =
        .ok (.resolved results) ∧
      (Evaluation.resolved results).diagnostics = [importClash, importClash] := by
  have hok : (Interpreter.ofCatalog clashingImports .empty).toOption.any (fun interpreter =>
      (interpreter.evaluate ⟨.project, some (.project ":app")⟩ clashingScript).1.toOption.any
        fun evaluation => evaluation.diagnostics = [importClash, importClash]) = true := by
    decide +kernel
  obtain ⟨interpreter, results, hreached, hevaluation, hfound⟩ :=
    Interpreter.exists_resolved hok rfl
  exact ⟨interpreter, results, hreached, hevaluation, of_decide_eq_true hfound⟩

theorem imports_reported_of_clashingScript :
    ∃ interpreter results, Interpreter.Reached clashingImports .empty interpreter ∧
      (interpreter.evaluate ⟨.project, some (.project ":app")⟩ clashingScript).1 =
        .ok (.resolved results) ∧
      ∃ steps block, ScriptKind.project.steps interpreter.catalog = .ok steps ∧
        Block.parse "project ':app'" clashingScript = .ok block ∧
        ∀ earlier imported later, block.imports = earlier ++ imported :: later →
          Block.ImportReported steps (.resolved results) earlier imported := by
  obtain ⟨interpreter, results, hreached, hevaluation, -⟩ := exists_evaluate_clashingScript
  exact ⟨interpreter, results, hreached, hevaluation,
    imports_reported_of_evaluate hreached hevaluation⟩

/-- A clash that both steps see is reported by both of them, at one import and in the same words. -/
theorem ambiguous_import_repeated :
    ∃ interpreter results, Interpreter.Reached clashingImports .empty interpreter ∧
      (interpreter.evaluate ⟨.project, some (.project ":app")⟩ clashingScript).1 =
        .ok (.resolved results) ∧
      ¬ (Evaluation.resolved results).diagnostics.Nodup ∧
      ∃ block imported, Block.parse "project ':app'" clashingScript = .ok block ∧
        imported ∈ block.imports ∧
        ((Evaluation.resolved results).diagnostics.filter (·.span = imported.2)).length = 2 := by
  have hok : (Block.parse "project ':app'" clashingScript).toOption.any (fun block =>
      (["b", "f"], importClash.span) ∈ block.imports) = true := by
    decide +kernel
  obtain ⟨interpreter, results, hreached, hevaluation, hfound⟩ := exists_evaluate_clashingScript
  refine ⟨interpreter, results, hreached, hevaluation, ?_, ?_⟩
  · rw [hfound]
    simp
  · cases hparse : Block.parse "project ':app'" clashingScript with
    | error failures => simp [hparse, Except.toOption] at hok
    | ok block =>
      refine ⟨block, (["b", "f"], importClash.span), rfl, ?_, ?_⟩
      · simpa [hparse, Except.toOption] using hok
      · rw [hfound]
        simp

end ConfigScript
