import ConfigScript.Proofs.Resolution.Operands
import ConfigScript.Proofs.Resolution.Overloads
import ConfigScript.Proofs.Resolution.Placement

/-!
# Which function a call means

A call of a name means a function when that one alone among the functions of the name accepts it.
Its arguments then go where the rule of that function puts them; when several functions accept the
call it is ambiguous, and when none does it is reported with the reason.
-/

namespace ConfigScript

/-- The arguments that a function is called with, as an assignment hands them to its parameters. -/
structure Assignment.Delivers (assignment : Assignment) (parameters : List Parameter)
    (arguments : List GivenArgument) (bound : List BoundArgument) : Prop where
  gives : ∀ argument, argument ∈ bound ↔ ∃ position index parameter given,
    assignment.Gives position index ∧ parameters[position]? = some parameter ∧
      arguments[index]? = some given ∧ argument = .mk parameter given.value
  inOrder : (bound.map BoundArgument.parameter).Sublist parameters
  values : (bound.map BoundArgument.value).Perm (arguments.map GivenArgument.value)

namespace Assignment

variable {parameters : List Parameter} {arguments : List GivenArgument} {assignment : Assignment}

theorem mem_bound {argument : BoundArgument} :
    argument ∈ assignment.bound parameters arguments ↔ ∃ position index parameter given,
      assignment.Gives position index ∧ parameters[position]? = some parameter ∧
        arguments[index]? = some given ∧ argument = .mk parameter given.value := by
  unfold bound
  rw [List.mem_filterMap]
  constructor
  · rintro ⟨⟨parameter, slot⟩, hmem, hargument⟩
    obtain ⟨position, hposition⟩ := List.mem_iff_getElem?.mp hmem
    obtain ⟨hparameter, hslot⟩ := List.getElem?_zip_eq_some.mp hposition
    obtain ⟨given, hgiven, rfl⟩ := Option.map_eq_some_iff.mp hargument
    obtain ⟨index, rfl, hindex⟩ := Option.bind_eq_some_iff.mp hgiven
    exact ⟨position, index, parameter, given, hslot, hparameter, hindex, rfl⟩
  · rintro ⟨position, index, parameter, given, hgives, hparameter, hindex, rfl⟩
    refine ⟨(parameter, some index), List.mem_iff_getElem?.mpr ⟨position, ?_⟩, ?_⟩
    · exact List.getElem?_zip_eq_some.mpr ⟨hparameter, hgives⟩
    · simp [hindex]

theorem parameters_bound_sublist :
    ((assignment.bound parameters arguments).map BoundArgument.parameter).Sublist parameters := by
  induction parameters generalizing assignment with
  | nil => simp [bound]
  | cons parameter parameters ih =>
    cases assignment with
    | nil => simp [bound]
    | cons slot slots =>
      have hrest := @ih slots
      rw [bound_cons, List.map_append]
      cases slot.bind (arguments[·]?) with
      | none => exact hrest.cons parameter
      | some given => exact hrest.cons_cons parameter

end Assignment

namespace Candidate

variable {schema : Schema} {candidate : Candidate} {arguments : List GivenArgument}
  {hasBlock : Bool} {assignment : Assignment} {outcomes : Outcomes} {name : String}

theorem Admits.delivers (h : candidate.Admits schema arguments hasBlock assignment) :
    assignment.Delivers candidate.parameters arguments
      (assignment.bound candidate.parameters arguments) where
  gives _ := Assignment.mem_bound
  inOrder := Assignment.parameters_bound_sublist
  values := values_perm_of_accept (accept_of_admits h)

/-- How many of the functions that a call may mean accept it. -/
def countAccepting (schema : Schema) (candidates : List Candidate)
    (arguments : List GivenArgument) (hasBlock : Bool) : Nat :=
  candidates.countP fun candidate => decide (candidate.Accepts schema arguments hasBlock)

theorem length_accepting {candidates : List Candidate} :
    (accepting (candidates.map fun candidate =>
        (candidate, candidate.accept schema arguments hasBlock))).length =
      countAccepting schema candidates arguments hasBlock := by
  unfold accepting countAccepting
  rw [List.length_filterMap_eq_countP, List.countP_map]
  refine List.countP_congr fun candidate _ => ?_
  rw [Function.comp_apply, decide_eq_true_iff, accepts_iff, Option.isSome_map]

theorem refusal_ne_ok {choice : Candidate × Assignment} : refusal name outcomes ≠ .ok choice := by
  unfold refusal
  split
  · simp
  · split <;> simp

theorem refusal_ne_ambiguous {spelled : String} {count : Nat} :
    refusal name outcomes ≠ .error (.ambiguousCall spelled count) := by
  unfold refusal
  split
  · simp
  · split <;> simp

/-- A choice is made when one function accepts the call. -/
theorem verdict_eq_ok_iff : (∃ choice, verdict name outcomes = .ok choice) ↔
    (accepting outcomes).length = 1 := by
  unfold verdict
  split
  · rename_i choice haccepting
    simp [haccepting]
  · rename_i haccepting
    simp [haccepting]
  · rename_i haccepting
    simp [haccepting, refusal_ne_ok]

/-- A call is ambiguous when several functions accept it. -/
theorem verdict_eq_ambiguous_iff {spelled : String} {count : Nat} :
    verdict name outcomes = .error (.ambiguousCall spelled count) ↔
      2 ≤ (accepting outcomes).length ∧ spelled = name ∧ count = (accepting outcomes).length := by
  unfold verdict
  split
  · rename_i choice haccepting
    simp [haccepting]
  · rename_i haccepting
    rw [haccepting]
    simp [eq_comm]
  · rename_i haccepting
    simp [haccepting, refusal_ne_ambiguous]

end Candidate

theorem selectCandidate_eq_ok_iff {schema : Schema} {name : String} {candidates : List Candidate}
    {arguments : List GivenArgument} {hasBlock : Bool} :
    (∃ choice, selectCandidate schema name candidates arguments hasBlock = .ok choice) ↔
      Candidate.countAccepting schema candidates arguments hasBlock = 1 := by
  rw [selectCandidate_eq_verdict, Candidate.verdict_eq_ok_iff, Candidate.length_accepting]

theorem selectCandidate_eq_ambiguous_iff {schema : Schema} {name spelled : String} {count : Nat}
    {candidates : List Candidate} {arguments : List GivenArgument} {hasBlock : Bool} :
    selectCandidate schema name candidates arguments hasBlock =
        .error (.ambiguousCall spelled count) ↔
      2 ≤ Candidate.countAccepting schema candidates arguments hasBlock ∧ spelled = name ∧
        count = Candidate.countAccepting schema candidates arguments hasBlock := by
  rw [selectCandidate_eq_verdict, Candidate.verdict_eq_ambiguous_iff, Candidate.length_accepting]

namespace Environment

variable {environment : Environment} {receiver : Option Expr} {name : String}
  {arguments : List Argument} {span : Span} {target owner : Option TypedExpr}
  {candidates : List Candidate} {values : List GivenArgument}

/-- What becomes of a call once its receiver, the functions of its name and the values of its
arguments are known. -/
def callOf (environment : Environment) (owner : Option TypedExpr) (name : String)
    (candidates : List Candidate) (values : List GivenArgument) (arguments : List Argument)
    (span : Span) : Attempt TypedExpr := do
  let (candidate, bound) ←
    environment.choose name candidates values (arguments.any Argument.isLambda) span
  let configured := candidate.semantics.configuredType?.bind TypeRef.className?
  let block ← environment.resolveBlock configured arguments
  return .invocation (.mk candidate.callee owner candidate.semantics bound block span)

theorem resolveExpr_call (hreceiver : (environment.resolveReceiver receiver).result = some target)
    (htarget : (environment.callTarget target name span).result = some (owner, candidates))
    (hvalues : (environment.resolveArguments arguments).result = some values) :
    environment.resolveExpr (.call receiver name arguments span) =
      ⟨(environment.callOf owner name candidates values arguments span).result,
        (environment.resolveReceiver receiver).diagnostics ++
          ((environment.callTarget target name span).diagnostics ++
            ((environment.resolveArguments arguments).diagnostics ++
              (environment.callOf owner name candidates values arguments span).diagnostics))⟩ := by
  rw [resolveExpr, Attempt.bind_of_some hreceiver, Attempt.bind_of_some htarget]
  dsimp only
  rw [Attempt.bind_of_some hvalues]
  rfl

/-- A call whose function is chosen comes to that function, with its arguments in place. -/
theorem callOf_of_ok {candidate : Candidate} {assignment : Assignment}
    (h : selectCandidate environment.schema name candidates values
      (arguments.any Argument.isLambda) = .ok (candidate, assignment)) :
    ∃ block, (environment.callOf owner name candidates values arguments span).result =
      some (.invocation (.mk candidate.callee owner candidate.semantics
        (assignment.bound candidate.parameters values) block span)) := by
  have hchoose : environment.choose name candidates values (arguments.any Argument.isLambda) span =
      .ok (candidate, assignment.bound candidate.parameters values) := by
    rw [choose, h]
  obtain ⟨block, hblock⟩ := Option.isSome_iff_exists.mp (environment.resolveBlock_eq
    (candidate.semantics.configuredType?.bind TypeRef.className?) arguments).1
  refine ⟨block, ?_⟩
  rw [callOf, hchoose, Attempt.ok_bind]
  exact Attempt.result_bind.mpr ⟨block, hblock, rfl⟩

theorem callOf_of_error {cause : Diagnostic.Cause}
    (h : selectCandidate environment.schema name candidates values
      (arguments.any Argument.isLambda) = .error cause) :
    environment.callOf owner name candidates values arguments span = .fail cause span := by
  rw [callOf, choose, h]
  rfl

end Environment

/-- A function accepts a call just with the assignments that obey the rule, of which there is at
most one. A call whose parts resolve comes to a function when one alone accepts it, then to that
function with each argument at the parameter that the assignment gives it to; else the call is
reported, as ambiguous when several functions accept it. -/
theorem Environment.call_resolves_iff :
    (∀ (schema : Schema) (candidate : Candidate) (arguments : List GivenArgument)
        (hasBlock : Bool) (assignment : Assignment),
      candidate.accept schema arguments hasBlock = .ok assignment ↔
        candidate.Admits schema arguments hasBlock assignment) ∧
    (∀ (schema : Schema) (candidate : Candidate) (arguments : List GivenArgument)
        (hasBlock : Bool) (assignment other : Assignment),
      candidate.Admits schema arguments hasBlock assignment →
        candidate.Admits schema arguments hasBlock other → assignment = other) ∧
    ∀ (environment : Environment) (receiver : Option Expr) (name : String)
        (arguments : List Argument) (span : Span) (target owner : Option TypedExpr)
        (candidates : List Candidate) (values : List GivenArgument),
      (environment.resolveReceiver receiver).result = some target →
      (environment.callTarget target name span).result = some (owner, candidates) →
      (environment.resolveArguments arguments).result = some values →
        let hasBlock := arguments.any Argument.isLambda
        let accepting :=
          Candidate.countAccepting environment.schema candidates values hasBlock
        let attempt := environment.resolveExpr (.call receiver name arguments span)
        ((∃ typed, attempt.result = some typed) ↔ accepting = 1) ∧
        (∀ typed, attempt.result = some typed → ∃ candidate ∈ candidates,
          ∃ assignment bound block,
            candidate.Admits environment.schema values hasBlock assignment ∧
            assignment.Delivers candidate.parameters values bound ∧
            typed = .invocation
              (.mk candidate.callee owner candidate.semantics bound block span)) ∧
        (attempt.result = none → ∃ cause,
          attempt.diagnostics = (environment.resolveReceiver receiver).diagnostics ++
            ((environment.callTarget target name span).diagnostics ++
              ((environment.resolveArguments arguments).diagnostics ++ [⟨cause, span⟩])) ∧
          ∀ spelled count, cause = .ambiguousCall spelled count ↔
            2 ≤ accepting ∧ spelled = name ∧ count = accepting) := by
  refine ⟨fun _ _ _ _ _ => Candidate.accept_iff, fun _ _ _ _ _ _ => Candidate.Admits.unique, ?_⟩
  intro environment receiver name arguments span target owner candidates values hreceiver htarget
    hvalues hasBlock accepting attempt
  have hattempt : attempt = _ := resolveExpr_call hreceiver htarget hvalues
  have hone : (∃ choice, selectCandidate environment.schema name candidates values hasBlock =
      .ok choice) ↔ accepting = 1 := selectCandidate_eq_ok_iff
  cases hselect : selectCandidate environment.schema name candidates values hasBlock with
  | ok choice =>
    obtain ⟨candidate, assignment⟩ := choice
    obtain ⟨hmem, haccept⟩ := selectCandidate_eq_ok hselect
    have hadmits := Candidate.admits_of_accept haccept
    obtain ⟨block, hresult⟩ : ∃ block, attempt.result = some (.invocation (.mk candidate.callee owner
        candidate.semantics (assignment.bound candidate.parameters values) block span)) := by
      rw [hattempt]
      exact callOf_of_ok hselect
    refine ⟨iff_of_true ⟨_, hresult⟩ (hone.mp ⟨_, hselect⟩), fun typed htyped => ?_, fun hnone => ?_⟩
    · obtain rfl := Option.some.inj (hresult.symm.trans htyped)
      exact ⟨candidate, hmem, assignment, _, block, hadmits, hadmits.delivers, rfl⟩
    · cases hresult.symm.trans hnone
  | error cause =>
    rw [callOf_of_error hselect] at hattempt
    have hresult : attempt.result = none := congrArg Attempt.result hattempt
    have hmany : accepting ≠ 1 := by
      refine fun heq => ?_
      obtain ⟨choice, hchoice⟩ := hone.mpr heq
      cases hselect.symm.trans hchoice
    refine ⟨iff_of_false ?_ hmany, fun typed htyped => ?_, fun _ => ?_⟩
    · rintro ⟨typed, htyped⟩
      cases hresult.symm.trans htyped
    · cases hresult.symm.trans htyped
    · refine ⟨cause, congrArg Attempt.diagnostics hattempt, fun spelled count => ?_⟩
      have hambiguous : selectCandidate environment.schema name candidates values hasBlock =
          .error (.ambiguousCall spelled count) ↔ _ := selectCandidate_eq_ambiguous_iff
      rw [hselect, Except.error.injEq] at hambiguous
      exact hambiguous

/-- Two ways to plant, told apart by the names of their parameters. -/
def plantingCatalog : Catalog :=
  ⟨[⟨"Garden", [], [],
      [⟨"plant", .pure, [⟨"kind", "String", false, none⟩, ⟨"row", "Int", true, none⟩,
          ⟨"depth", "Int", false, none⟩], some "Int", none, none⟩,
        ⟨"plant", .pure, [⟨"kind", "String", false, none⟩, ⟨"label", "String", false, none⟩],
          some "Int", none, none⟩], []⟩], [], [], []⟩

/-- A call that names its last parameter first and leaves the second one out. -/
def plantingArguments : List Argument :=
  [.named "depth" (.literal (.int 2) .blank) .blank,
    .positional (.literal (.string "fig") .blank) .blank]

/-- Where a script starts that imports nothing. -/
def Schema.atStart (schema : Schema) : Environment :=
  ⟨schema, .ofDefaults schema.defaultImports, [⟨some schema.receiver, []⟩]⟩

theorem Environment.call_resolves_planting : ∃ schema owner candidates values,
    Schema.build plantingCatalog .receiverFunction "Garden" = .ok schema ∧
      (schema.atStart.resolveReceiver none).result = some none ∧
      (schema.atStart.callTarget none "plant" .blank).result = some (owner, candidates) ∧
      (schema.atStart.resolveArguments plantingArguments).result = some values ∧
      candidates.map (·.accept schema values false) =
        [.ok [some 1, none, some 0], .error (.unknownArgument "depth")] ∧
      ∃ typed, (schema.atStart.resolveExpr (.call none "plant" plantingArguments .blank)).result =
        some typed := by
  have hok : (Schema.build plantingCatalog .receiverFunction "Garden").toOption.any (fun schema =>
      (schema.atStart.callTarget none "plant" .blank).result.any fun target =>
        (schema.atStart.resolveArguments plantingArguments).result.any fun values =>
          target.2.map (·.accept schema values false) =
              [.ok [some 1, none, some 0], .error (.unknownArgument "depth")] ∧
            Candidate.countAccepting schema target.2 values false = 1) = true := by
    decide +kernel
  simp only [Option.any_eq_true, decide_eq_true_eq] at hok
  obtain ⟨schema, hschema, ⟨owner, candidates⟩, htarget, values, hvalues, houtcomes, hone⟩ := hok
  exact ⟨schema, owner, candidates, values, Fallible.toOption_eq_some.mp hschema, rfl, htarget,
    hvalues, houtcomes, (call_resolves_iff.2.2 _ _ _ _ _ _ _ _ _ rfl htarget hvalues).1.mpr hone⟩

end ConfigScript
