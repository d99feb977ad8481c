import ConfigScript.Proofs.Resolution.Alike
import ConfigScript.Proofs.Resolution.Faithful
import ConfigScript.Proofs.Resolution.Soundness

/-!
# Statements beside each other

A statement that declares nothing has no effect on the resolution of any other, wherever it stands
and whether or not it fails. The induction goes down to its place, through the receivers, values and
blocks around it.
-/

namespace ConfigScript

namespace Environment

open Attempt

variable {environment : Environment}

/-- The environment behind a sequence of statements. -/
def behind (environment : Environment) : List Statement → Environment
  | [] => environment
  | statement :: statements =>
    (environment.after (environment.resolveStatement statement).result statement).behind statements

theorem resolveStatements_append (before rest : List Statement) :
    environment.resolveStatements (before ++ rest) =
      ⟨(environment.resolveStatements before).operations ++
          ((environment.behind before).resolveStatements rest).operations,
        (environment.resolveStatements before).diagnostics ++
          ((environment.behind before).resolveStatements rest).diagnostics⟩ := by
  induction before generalizing environment with
  | nil => simp [resolveStatements, behind]
  | cons statement before ih =>
    rw [List.cons_append, resolveStatements, ih, resolveStatements, behind]
    simp only [List.append_assoc]

theorem after_of_declaresNothing {statement : Statement}
    (h : statement.declaresNothing = true) (result : Option Operation) :
    environment.after result statement = environment := by
  cases statement with
  | localValue => cases h
  | _ => rfl

/-- What stands at a place changes nothing for the statements behind it. -/
theorem resolveStatements_filling (filling : Filling) (after : List Statement) :
    environment.resolveStatements (filling.statements ++ after) =
      ⟨filling.operations (some environment) ++ (environment.resolveStatements after).operations,
        filling.diagnostics (some environment) ++
          (environment.resolveStatements after).diagnostics⟩ := by
  obtain ⟨_ | own, hplain⟩ := filling
  · rfl
  · have hown : own.declaresNothing = true := hplain own rfl
    change environment.resolveStatements (own :: after) = _
    rw [resolveStatements, after_of_declaresNothing hown]
    simp [Filling.operations, Filling.diagnostics, attemptAt]

/-- Behind a statement with a place in it, a value has the type that its initialiser has in any
case. -/
theorem after_fill (source : StatementPlace) (outline : Option OperationOutline)
    (gap : List Operation) (statements : List Statement) :
    environment.after (outline.map (OperationOutline.fill gap)) (source.fill statements) =
      environment.after (outline.map (OperationOutline.fill [])) (source.fill []) := by
  cases source with
  | initialiser name value span =>
    simp only [StatementPlace.fill, after]
    cases outline with
    | none => rfl
    | some operation => simp
  | receiver => simp only [StatementPlace.fill, after]
  | value => simp only [StatementPlace.fill, after]
  | expr => simp only [StatementPlace.fill, after]

/-! ### Arguments around a place -/

theorem resolveArguments_lambda {before after : List Argument} {body : Block} {span : Span} :
    environment.resolveArguments (before ++ .lambda body span :: after) =
      environment.resolveArguments (before ++ after) := by
  induction before with
  | nil => rw [List.nil_append, List.nil_append, resolveArguments]
  | cons first before ih =>
    cases first <;> simp only [List.cons_append, resolveArguments, ih]

theorem resolveBlock_ofValue {configured : Option QualifiedName} {before after : List Argument}
    {label : Option String} {value : Expr} {span : Span} :
    environment.resolveBlock configured (before ++ .ofValue label value span :: after) =
      environment.resolveBlock configured (before ++ after) := by
  induction before with
  | nil => cases label <;> simp only [List.nil_append, Argument.ofValue, resolveBlock]
  | cons first before ih =>
    obtain value | value | ⟨⟨statements, bodySpan⟩, span⟩ := first
    · simp only [List.cons_append, resolveBlock_positional, ih]
    · simp only [List.cons_append, resolveBlock_named, ih]
    · simp only [List.cons_append, resolveBlock_lambda]

theorem isLambda_ofValue {label : Option String} {value : Expr} {span : Span} :
    (Argument.ofValue label value span).isLambda = false := by
  cases label <;> rfl

theorem resolveArguments_ofValue {label : Option String} {value : Expr} {span : Span}
    {after : List Argument} :
    environment.resolveArguments (.ofValue label value span :: after) =
      (environment.resolveExpr value).both (environment.resolveArguments after) >>=
        fun pair => pure (⟨label, pair.1⟩ :: pair.2) := by
  cases label <;> rw [Argument.ofValue, resolveArguments]

variable {runs : Filling → Expr}

/-- One argument with a place in it among others. -/
theorem framed_resolveArguments {label : Option String} {span : Span} {after : List Argument}
    (h : Framed ExprOutline.fill fun filling => environment.resolveExpr (runs filling))
    (before : List Argument) :
    Framed GivenOutline.fill fun filling =>
      environment.resolveArguments (before ++ .ofValue label (runs filling) span :: after) := by
  induction before with
  | nil =>
    simp only [List.nil_append, resolveArguments_ofValue]
    apply (h.both_left (environment.resolveArguments after)).bind
    intro pair
    exact uniform_pure ⟨[], label, pair.1, pair.2⟩ fun _ => rfl
  | cons first before ih =>
    cases first with
    | positional value span =>
      simp only [List.cons_append, resolveArguments]
      apply (ih.both_right (environment.resolveExpr value)).bind
      intro pair
      exact uniform_pure { pair.2 with before := ⟨none, pair.1⟩ :: pair.2.before } fun _ => rfl
    | named name value span =>
      simp only [List.cons_append, resolveArguments]
      apply (ih.both_right (environment.resolveExpr value)).bind
      intro pair
      exact uniform_pure { pair.2 with before := ⟨some name, pair.1⟩ :: pair.2.before } fun _ => rfl
    | lambda body span =>
      simp only [List.cons_append, resolveArguments]
      exact ih

/-- Statements with a place among them, whose operations have one gap at most. -/
def FramedStatements (environment : Environment) (runs : Filling → List Statement) : Prop :=
  ∃ (place : Option Environment) (outline : OperationsOutline)
    (before after : List Diagnostic), ∀ filling,
      environment.resolveStatements (runs filling) =
        ⟨outline.fill (filling.operations place),
          before ++ filling.diagnostics place ++ after⟩

theorem framed_resolveBlock {body : Filling → List Statement} {bodySpan span : Span}
    {after : List Argument} (configured : Option QualifiedName)
    (h : ∀ type, (environment.enter type).FramedStatements body) (before : List Argument) :
    Framed (fun gap => Option.map (OperationsOutline.fill gap)) fun filling =>
      environment.resolveBlock configured
        (before ++ .lambda (.mk (body filling) bodySpan) span :: after) := by
  induction before with
  | nil =>
    simp only [List.nil_append, resolveBlock_lambda]
    cases configured with
    | none => exact framed_of_uniform (uniform_pure none fun _ => rfl)
    | some type =>
      obtain ⟨place, outline, before, after, hstatements⟩ := h type
      refine ⟨place, before, ⟨some (some outline), after⟩, fun filling => ?_⟩
      simp only [hstatements filling]
      rfl
  | cons first before ih =>
    obtain value | value | ⟨⟨statements, lambdaSpan⟩, span⟩ := first
    · simp only [List.cons_append, resolveBlock_positional]
      exact ih
    · simp only [List.cons_append, resolveBlock_named]
      exact ih
    · simp only [List.cons_append, resolveBlock_lambda]
      cases configured with
      | none => exact framed_of_uniform (uniform_pure none fun _ => rfl)
      | some type =>
        refine ⟨none, [], ⟨some (some (.fixed
          ((environment.enter type).resolveStatements statements).operations)),
          ((environment.enter type).resolveStatements statements).diagnostics⟩, fun filling => ?_⟩
        rw [Filling.diagnostics_none]
        dsimp only
        rw [Option.map_some, Option.map_some, OperationsOutline.fill]
        rfl

/-! ### Statements around a place -/

theorem framedStatements_here (before after : List Statement) :
    environment.FramedStatements fun filling =>
      (StatementsPlace.here before after).fill filling.statements := by
  refine ⟨some (environment.behind before),
    .here (environment.resolveStatements before).operations
      ((environment.behind before).resolveStatements after).operations,
    (environment.resolveStatements before).diagnostics,
    ((environment.behind before).resolveStatements after).diagnostics, fun filling => ?_⟩
  dsimp only
  rw [StatementsPlace.fill, List.append_assoc, resolveStatements_append,
    resolveStatements_filling, OperationsOutline.fill]
  simp only [List.append_assoc]

/-- A statement with a place in it may come to an operation or fail, but it does so whatever stands
at the place. -/
theorem framedStatements_inside {before after : List Statement} {source : StatementPlace}
    (h : Framed OperationOutline.fill fun filling =>
      (environment.behind before).resolveStatement (source.fill filling.statements)) :
    environment.FramedStatements fun filling =>
      (StatementsPlace.inside before source after).fill filling.statements := by
  obtain ⟨place, reported, outline, hsource⟩ := h
  dsimp only at hsource
  let first := environment.resolveStatements before
  let rest := ((environment.behind before).after (outline.result.map (OperationOutline.fill []))
    (source.fill [])).resolveStatements after
  have hresolve : ∀ filling : Filling,
      environment.resolveStatements (before ++ source.fill filling.statements :: after) =
        ⟨first.operations ++
            ((outline.result.map (OperationOutline.fill (filling.operations place))).toList ++
              rest.operations),
          first.diagnostics ++ reported ++ filling.diagnostics place ++
            (outline.diagnostics ++ rest.diagnostics)⟩ := by
    intro filling
    rw [resolveStatements_append, resolveStatements, hsource filling]
    dsimp only
    rw [after_fill]
    simp only [List.append_assoc]
    rfl
  simp only [FramedStatements, StatementsPlace.fill, hresolve]
  cases outline.result with
  | none =>
    refine ⟨place, .fixed (first.operations ++ rest.operations), first.diagnostics ++ reported,
      outline.diagnostics ++ rest.diagnostics, fun filling => ?_⟩
    rw [OperationsOutline.fill]
    rfl
  | some operation =>
    refine ⟨place, .inside first.operations operation rest.operations,
      first.diagnostics ++ reported, outline.diagnostics ++ rest.diagnostics, fun filling => ?_⟩
    rw [OperationsOutline.fill]
    rfl

/-! ### The way down to a place -/

mutual

theorem framed_resolveExpr (environment : Environment) (source : ExprPlace) :
    Framed ExprOutline.fill fun filling =>
      environment.resolveExpr (source.fill filling.statements) := by
  cases source with
  | property receiver name span =>
    simp only [ExprPlace.fill, resolveExpr]
    apply (framed_resolveExpr environment receiver).bind
    intro owner
    simp only [memberProperty_fill owner]
    apply uniform_behind
    intro property _
    exact uniform_pure (.property owner property span) fun gap => by rw [ExprOutline.fill]
  | receiver receiver name arguments span =>
    simp only [ExprPlace.fill, resolveExpr, resolveReceiver]
    apply ((framed_resolveExpr environment receiver).map some).bind
    intro owner
    apply (uniform_callTarget owner).bind
    intro candidates
    apply uniform_behind
    intro values _
    dsimp only
    apply uniform_behind
    intro choice _
    apply uniform_behind
    intro block _
    exact uniform_pure (.receiver choice.1.callee owner choice.1.semantics choice.2 block span)
      fun gap => by rw [ExprOutline.fill]
  | argument receiver name before label value valueSpan after span =>
    simp only [ExprPlace.fill, resolveExpr, resolveBlock_ofValue, List.any_append, List.any_cons,
      isLambda_ofValue, Bool.false_or]
    apply framed_behind
    intro owner _
    apply framed_behind
    intro target _
    apply (framed_resolveArguments (framed_resolveExpr environment value) before).bind
    intro given
    apply (uniform_choose given).bind
    intro choice
    dsimp only
    apply uniform_behind
    intro block _
    exact uniform_pure (.argument choice.1.callee target.1 choice.1.semantics choice.2.before
      choice.2.parameter given.value choice.2.after block span) fun gap => by
        rw [ExprOutline.fill]
        rfl
  | block receiver name before body bodySpan lambdaSpan after span =>
    simp only [ExprPlace.fill, resolveExpr, resolveArguments_lambda, List.any_append,
      List.any_cons, Argument.isLambda]
    apply framed_behind
    intro owner _
    apply framed_behind
    intro target _
    apply framed_behind
    intro values _
    apply framed_behind
    intro choice _
    apply (framed_resolveBlock _ (fun type => framed_resolveStatements _ body) before).bind
    intro block
    cases block with
    | none =>
      exact uniform_pure (.fixed (.invocation (.mk choice.1.callee target.1 choice.1.semantics
        choice.2 none span))) fun gap => by rw [ExprOutline.fill, Option.map_none]
    | some operations =>
      exact uniform_pure (.block choice.1.callee target.1 choice.1.semantics choice.2 operations
        span) fun gap => by rw [ExprOutline.fill, Option.map_some]

theorem framed_resolveStatement (environment : Environment) (source : StatementPlace) :
    Framed OperationOutline.fill fun filling =>
      environment.resolveStatement (source.fill filling.statements) := by
  cases source with
  | receiver receiver name target value span =>
    simp only [StatementPlace.fill, resolveStatement, resolveReceiver]
    apply ((framed_resolveExpr environment receiver).map some).bind
    intro owner
    apply (uniform_assignedProperty owner).bind
    intro property
    dsimp only
    apply uniform_behind
    intro resolved _
    apply uniform_behind
    intro _ _
    exact uniform_pure (.receiver owner property resolved span) fun gap => by
      rw [OperationOutline.fill]
  | value receiver name target value span =>
    simp only [StatementPlace.fill, resolveStatement, ExprPlace.span_fill]
    apply framed_behind
    intro owner _
    apply framed_behind
    intro found _
    apply (framed_resolveExpr environment value).bind
    intro resolved
    simp only [checkAssignable_fill found.2 resolved]
    apply uniform_behind
    intro _ _
    exact uniform_pure (.value found.1 found.2 resolved span) fun gap => by
      rw [OperationOutline.fill]
  | initialiser name value span =>
    simp only [StatementPlace.fill, resolveStatement]
    split
    · exact framed_of_uniform uniform_fail
    · apply (framed_resolveExpr environment value).bind
      intro resolved
      exact uniform_pure (.bind name resolved span) fun gap => by rw [OperationOutline.fill]
  | expr value =>
    simp only [StatementPlace.fill, resolveStatement]
    apply (framed_resolveExpr environment value).bind
    intro resolved
    exact uniform_pure (.ofExpr resolved) fun gap => by rw [OperationOutline.fill]

theorem framed_resolveStatements (environment : Environment) (source : StatementsPlace) :
    environment.FramedStatements fun filling => source.fill filling.statements := by
  cases source with
  | here before after => exact framedStatements_here before after
  | inside before statement after =>
    apply framedStatements_inside
    exact framed_resolveStatement (environment.behind before) statement

end

end Environment

namespace StatementsPlace

/-- The place among the statements that are no imports. -/
def dropImports : StatementsPlace → StatementsPlace
  | .here before after =>
    .here (before.filter fun other => !other.isImport) (after.filter fun other => !other.isImport)
  | .inside before statement after =>
    .inside (before.filter fun other => !other.isImport) statement
      (after.filter fun other => !other.isImport)

theorem isImport_fill (source : StatementPlace) (gap : List Statement) :
    (source.fill gap).isImport = false := by
  cases source <;> rw [StatementPlace.fill] <;> rfl

theorem isImport_filling {filling : Filling} {own : Statement} (h : own ∈ filling.statements) :
    own.isImport = false :=
  Statement.isImport_of_declaresNothing (filling.plain own (Option.mem_toList.mp h))

theorem filter_fill (source : StatementsPlace) (filling : Filling) :
    ((source.fill filling.statements).filter fun other => !other.isImport) =
      source.dropImports.fill filling.statements := by
  have hfilling : (filling.statements.filter fun other => !other.isImport) =
      filling.statements := by
    apply List.filter_eq_self.mpr
    intro own hown
    rw [isImport_filling hown, Bool.not_false]
  cases source with
  | here before after =>
    rw [fill, dropImports, fill, List.filter_append, List.filter_append, hfilling]
  | inside before statement after =>
    rw [fill, dropImports, fill, List.filter_append, List.filter_cons_of_pos]
    rw [isImport_fill, Bool.not_false]

/-- What stands at a place is not among the imports of a script. -/
theorem imports_fill (source : StatementsPlace) (filling : Filling) (span : Span) :
    (Block.mk (source.fill filling.statements) span).imports =
      (Block.mk (source.fill []) span).imports := by
  unfold Block.imports Block.statements
  cases source with
  | here before after =>
    simp only [fill, List.filterMap_append, List.filterMap_nil]
    congr 2
    apply List.filterMap_eq_nil_iff.mpr
    intro own hown
    cases own with
    | importName => cases isImport_filling hown
    | _ => rfl
  | inside before statement after =>
    cases statement <;> simp only [fill, StatementPlace.fill, List.filterMap_append,
      List.filterMap_cons]

end StatementsPlace

namespace Schema

theorem resolve_fill (schema : Schema) (undeclared : UndeclaredImports)
    (source : StatementsPlace) (span : Span) :
    ∃ (place : Option Environment) (outline : OperationsOutline)
      (before after : List Diagnostic), ∀ filling : Filling,
        schema.resolve undeclared .all (.mk (source.fill filling.statements) span) =
          ⟨outline.fill (filling.operations place),
            before ++ filling.diagnostics place ++ after⟩ := by
  let block : Block := .mk (source.fill []) span
  obtain ⟨place, outline, before, after, hstatements⟩ := Environment.framed_resolveStatements
    (schema.scriptEnvironment undeclared block) source.dropImports
  refine ⟨place, outline, (Imports.registerAll schema undeclared
    (.ofDefaults schema.defaultImports) block.imports).2 ++ before, after, fun filling => ?_⟩
  rw [resolve_all, scriptEnvironment, StatementsPlace.imports_fill]
  rw [scriptEnvironment] at hstatements
  dsimp only [Block.statements]
  rw [StatementsPlace.filter_fill, hstatements filling]
  simp only [List.append_assoc]
  rfl

/-- A statement that declares nothing, at the top of a script or in any of its blocks, has no
effect beyond its own operation and what is reported about it: without it the same operations
remain, and the same diagnostics in the same order. -/
theorem unaffected_of_declaresNothing (schema : Schema) (undeclared : UndeclaredImports)
    (source : StatementsPlace) (span : Span) :
    ∃ (place : Option Environment) (outline : OperationsOutline)
      (before after : List Diagnostic),
        schema.resolve undeclared .all (.mk (source.fill []) span) =
            ⟨outline.fill [], before ++ after⟩ ∧
          ∀ own : Statement, own.declaresNothing = true →
            schema.resolve undeclared .all (.mk (source.fill [own]) span) =
              ⟨outline.fill (Environment.attemptAt place own).result.toList,
                before ++ (Environment.attemptAt place own).diagnostics ++ after⟩ := by
  obtain ⟨place, outline, before, after, hresolve⟩ := schema.resolve_fill undeclared source span
  refine ⟨place, outline, before, after, ?_, fun own hown => ?_⟩
  · have hempty := hresolve .empty
    rwa [Filling.operations_empty, Filling.diagnostics_empty, List.append_nil] at hempty
  · have hfilled := hresolve (.of own hown)
    rwa [Filling.operations_of, Filling.diagnostics_of] at hfilled

/-- A place before an assignment, in a block that configures an object. -/
def configuringPlace : StatementsPlace :=
  let span : Span := ⟨0, 23, 1, 1⟩
  .inside [] (.expr (.block none "right" [] (.here [] [.assignment none "count" span
    (.literal (.int 1) span) span]) span span [] span)) []

/-- An assignment of a text to a number, which fails. -/
def failingAssignment : Statement :=
  let span : Span := ⟨8, 21, 1, 9⟩
  .assignment none "count" span (.literal (.string "one") span) span

theorem unaffected_of_declaresNothing_failing :
    ∃ schema, build mutualCatalog .receiverFunction "Left" = .ok schema ∧
      (schema.resolve .reported .all
        (.mk (configuringPlace.fill [failingAssignment]) ⟨0, 23, 1, 1⟩)).diagnostics ≠ [] ∧
      ∃ (place : Option Environment) (outline : OperationsOutline)
        (before after : List Diagnostic),
          schema.resolve .reported .all (.mk (configuringPlace.fill []) ⟨0, 23, 1, 1⟩) =
              ⟨outline.fill [], before ++ after⟩ ∧
            schema.resolve .reported .all
                (.mk (configuringPlace.fill [failingAssignment]) ⟨0, 23, 1, 1⟩) =
              ⟨outline.fill (Environment.attemptAt place failingAssignment).result.toList,
                before ++ (Environment.attemptAt place failingAssignment).diagnostics ++
                  after⟩ := by
  have hok : (build mutualCatalog .receiverFunction "Left").toOption.any (fun schema =>
      !(schema.resolve .reported .all (.mk (configuringPlace.fill [failingAssignment])
        ⟨0, 23, 1, 1⟩)).diagnostics.isEmpty) = true := by
    decide +kernel
  cases hbuild : build mutualCatalog .receiverFunction "Left" with
  | error fault => simp [hbuild, Except.toOption] at hok
  | ok schema =>
    obtain ⟨place, outline, before, after, hwithout, hwith⟩ :=
      unaffected_of_declaresNothing schema .reported configuringPlace ⟨0, 23, 1, 1⟩
    refine ⟨schema, rfl, ?_, place, outline, before, after, hwithout, hwith _ rfl⟩
    simpa [hbuild, Except.toOption] using hok

end Schema

end ConfigScript
