import ConfigScript.Proofs.Resolution.Reporting
import ConfigScript.Proofs.Resolution.Soundness

/-!
# Scripts without problems

When nothing but imports is reported about well-formed statements, each of them has come to an
operation that matches. The induction carries along that no value in scope has failed: behind a
statement that came to an operation this is still so.
-/

namespace ConfigScript.Environment

variable {environment : Environment}

mutual

theorem reports_resolveExpr {environment : Environment} (hclosed : environment.schema.Closed)
    (hclean : environment.Clean) (source : Expr) (hwell : source.WellFormed) :
    (environment.resolveExpr source).ReportsOr (ExprMatches source) := by
  cases source with
  | literal value span =>
    rw [resolveExpr]
    exact Attempt.reportsOr_ok .literal
  | null span =>
    rw [resolveExpr]
    exact Attempt.reportsOr_ok .null
  | this span =>
    rw [resolveExpr]
    split
    · rename_i receiver hthis
      obtain ⟨⟨depth, type⟩, -, rfl⟩ := Option.map_eq_some_iff.mp hthis
      exact Attempt.reportsOr_ok .this
    · exact Attempt.reportsOr_fail (by simp [Diagnostic.Cause.code])
  | property receiver name span =>
    cases receiver with
    | none =>
      rw [resolveExpr]
      exact hclean.reports_readName
    | some owner =>
      rw [resolveExpr]
      refine (reports_resolveExpr hclosed hclean owner hwell.1).bind fun resolved _ howner => ?_
      refine reports_memberProperty.bind fun property _ hname => ?_
      exact Attempt.reportsOr_ok (.property (.written howner) hname)
  | call receiver name arguments span =>
    obtain ⟨hreceiver, -, harguments⟩ := hwell
    rw [resolveExpr]
    refine (reports_resolveReceiver hclosed hclean receiver hreceiver).bind
      fun owner _ howner => ?_
    refine (reports_callTarget hclosed howner).bind fun target htarget hnames => ?_
    obtain ⟨target, candidates⟩ := target
    refine (reports_resolveArguments hclosed hclean arguments harguments).bind
      fun values _ hvalues => ?_
    refine reports_choose.bind fun choice _ hchoice => ?_
    obtain ⟨candidate, bound⟩ := choice
    obtain ⟨hcandidate, hblock, hbound⟩ := hchoice
    have hoffers := offers_of_callTarget hclosed htarget hcandidate
    refine Attempt.ReportsOr.bind (reports_resolveBlock hclosed hclean arguments harguments
      fun hlambda => exists_configured_of_offers hclosed hoffers (hlambda ▸ hblock))
      fun block _ hmatches => ?_
    exact Attempt.reportsOr_ok (.call hnames.1 (hnames.2 candidate hcandidate)
      (hvalues block hmatches) hbound)

theorem reports_resolveReceiver {environment : Environment} (hclosed : environment.schema.Closed)
    (hclean : environment.Clean) (source : Option Expr) (hwell : receiverWellFormed source) :
    (environment.resolveReceiver source).ReportsOr (Option.Rel ExprMatches source) := by
  cases source with
  | none =>
    rw [resolveReceiver]
    exact Attempt.reportsOr_ok .none
  | some source =>
    rw [resolveReceiver]
    refine Attempt.ReportsOr.map fun hdiagnostics => ?_
    obtain ⟨value, hvalue, hmatches⟩ :=
      reports_resolveExpr hclosed hclean source hwell hdiagnostics
    exact ⟨value, hvalue, .some hmatches⟩

theorem reports_resolveArguments {environment : Environment} (hclosed : environment.schema.Closed)
    (hclean : environment.Clean) (arguments : List Argument)
    (hwell : argumentsWellFormed arguments) :
    (environment.resolveArguments arguments).ReportsOr fun given => ∀ block,
      BlockMatches arguments block →
        ArgumentsMatch arguments (given.map GivenArgument.value) block := by
  cases arguments with
  | nil =>
    rw [resolveArguments]
    refine Attempt.reportsOr_ok fun block hblock => ?_
    obtain rfl := hblock
    exact .nil
  | cons argument arguments =>
    cases argument with
    | positional value span =>
      rw [resolveArguments]
      refine ((reports_resolveExpr hclosed hclean value hwell.1).both
        (reports_resolveArguments hclosed hclean arguments hwell.2)).bind fun pair _ hpair => ?_
      exact Attempt.reportsOr_ok fun block hblock => .positional hpair.1 (hpair.2 block hblock)
    | named name value span =>
      rw [resolveArguments]
      refine ((reports_resolveExpr hclosed hclean value hwell.2.1).both
        (reports_resolveArguments hclosed hclean arguments hwell.2.2)).bind fun pair _ hpair => ?_
      exact Attempt.reportsOr_ok fun block hblock => .named hpair.1 (hpair.2 block hblock)
    | lambda body span =>
      obtain ⟨statements, bodySpan⟩ := body
      obtain ⟨-, rfl⟩ := hwell
      rw [resolveArguments, resolveArguments]
      refine Attempt.reportsOr_ok fun block hblock => ?_
      obtain ⟨operations, rfl, hmatches⟩ := hblock
      exact .lambda hmatches

theorem reports_resolveBlock {environment : Environment} (hclosed : environment.schema.Closed)
    (hclean : environment.Clean) {configured : Option QualifiedName} (arguments : List Argument)
    (hwell : argumentsWellFormed arguments)
    (hconfigured : arguments.any Argument.isLambda = true → ∃ type, configured = some type) :
    (environment.resolveBlock configured arguments).ReportsOr (BlockMatches arguments) := by
  cases arguments with
  | nil =>
    rw [resolveBlock]
    exact Attempt.reportsOr_ok rfl
  | cons argument arguments =>
    cases argument with
    | positional value span =>
      rw [resolveBlock_positional]
      exact reports_resolveBlock hclosed hclean arguments hwell.2 hconfigured
    | named name value span =>
      rw [resolveBlock_named]
      exact reports_resolveBlock hclosed hclean arguments hwell.2.2 hconfigured
    | lambda body span =>
      obtain ⟨statements, bodySpan⟩ := body
      obtain ⟨type, rfl⟩ := hconfigured rfl
      rw [resolveBlock_lambda]
      have hclosed : (environment.enter type).schema.Closed := hclosed
      exact fun hdiagnostics => ⟨_, rfl, _, rfl,
        matches_resolveStatements hclosed hclean.enter statements hwell.1 hdiagnostics⟩

theorem reports_resolveStatement {environment : Environment} (hclosed : environment.schema.Closed)
    (hclean : environment.Clean) (statement : Statement) (hwell : statement.WellFormed) :
    (environment.resolveStatement statement).ReportsOr (StatementMatches statement) := by
  cases statement with
  | importName parts span => exact hwell.elim
  | assignment receiver name target value span =>
    obtain ⟨hreceiver, -, hvalue⟩ := hwell
    rw [resolveStatement]
    refine (reports_resolveReceiver hclosed hclean receiver hreceiver).bind
      fun owner _ howner => ?_
    refine (hclean.reports_assignedProperty howner).bind fun found _ hfound => ?_
    obtain ⟨found, property⟩ := found
    refine (reports_resolveExpr hclosed hclean value hvalue).bind fun resolved _ hresolved => ?_
    refine Attempt.ReportsOr.bind reports_checkAssignable fun _ _ _ => ?_
    exact Attempt.reportsOr_ok (.assignment hfound.2 hfound.1 hresolved)
  | localValue name value span =>
    rw [resolveStatement]
    split
    · exact Attempt.reportsOr_fail (by simp [Diagnostic.Cause.code])
    · refine (reports_resolveExpr hclosed hclean value hwell.2).bind fun resolved _ hresolved => ?_
      exact Attempt.reportsOr_ok (.localValue hresolved)
  | expr value =>
    rw [resolveStatement]
    refine (reports_resolveExpr hclosed hclean value hwell).bind fun resolved _ hresolved => ?_
    exact Attempt.reportsOr_ok (.expr hresolved rfl)

theorem matches_resolveStatements {environment : Environment}
    (hclosed : environment.schema.Closed) (hclean : environment.Clean)
    (statements : List Statement) (hwell : statementsWellFormed statements)
    (hdiagnostics : ∀ diagnostic ∈ (environment.resolveStatements statements).diagnostics,
      diagnostic.ConcernsImport) :
    StatementsMatch statements (environment.resolveStatements statements).operations := by
  cases statements with
  | nil =>
    rw [resolveStatements]
    exact .nil
  | cons statement statements =>
    rw [resolveStatements] at hdiagnostics ⊢
    obtain ⟨operation, hoperation, hmatches⟩ :=
      reports_resolveStatement hclosed hclean statement hwell.1 fun diagnostic hmem =>
        hdiagnostics diagnostic (List.mem_append_left _ hmem)
    rw [hoperation] at hdiagnostics ⊢
    rw [← schema_after] at hclosed
    exact .cons hmatches (matches_resolveStatements hclosed (hclean.after hmatches) statements
      hwell.2 fun diagnostic hmem => hdiagnostics diagnostic (List.mem_append_right _ hmem))

end

end ConfigScript.Environment
