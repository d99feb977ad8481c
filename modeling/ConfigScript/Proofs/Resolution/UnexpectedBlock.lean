import ConfigScript.Proofs.Faults
import ConfigScript.Proofs.Resolution.Chosen
import ConfigScript.Proofs.Resolution.Counting

/-!
# Blocks that no function takes

A function looks at the block behind a call before it looks at the arguments. A call is therefore
reported for its block whenever none of the functions of the name takes one, whether or not the
arguments would have been accepted; what is the matter with them is reported once the block is
gone.
-/

namespace ConfigScript

/-- What is the matter lies in the arguments of a call and not in its block. -/
def Mismatch.OfArguments (mismatch : Mismatch) : Prop :=
  mismatch ≠ .unexpectedBlock ∧ mismatch ≠ .missingBlock

namespace Assignment

open Fallible

variable {parameters : List Parameter}

theorem faults_bindNamed {arguments : List (GivenArgument × Nat)} {slots : Assignment} :
    FaultsIn Mismatch.OfArguments (bindNamed parameters arguments slots) := by
  induction arguments generalizing slots with
  | nil => exact faultsIn_ok slots
  | cons entry arguments ih =>
    obtain ⟨argument, index⟩ := entry
    unfold bindNamed
    split
    · exact ih
    · split
      · exact faultsIn_error (by simp [Mismatch.OfArguments])
      · split
        · exact ih
        · exact faultsIn_error (by simp [Mismatch.OfArguments])

theorem faults_fill {slots : Assignment} {indices : List Nat} :
    FaultsIn Mismatch.OfArguments (fill slots indices) := by
  induction slots generalizing indices with
  | nil =>
    cases indices with
    | nil => exact faultsIn_ok []
    | cons index indices => exact faultsIn_error (by simp [Mismatch.OfArguments])
  | cons slot slots ih =>
    cases indices with
    | nil => exact faultsIn_ok (slot :: slots)
    | cons index indices =>
      cases slot with
      | none => exact ih.map _
      | some given => exact ih.map _

theorem faults_checkSlot {schema : Schema} {arguments : List GivenArgument} {parameter : Parameter}
    {slot : Option Nat} :
    FaultsIn Mismatch.OfArguments (checkSlot schema arguments parameter slot) := by
  unfold checkSlot
  split
  · split
    · exact faultsIn_ok ()
    · exact faultsIn_error (by simp [Mismatch.OfArguments])
  · split
    · exact faultsIn_ok ()
    · exact faultsIn_error (by simp [Mismatch.OfArguments])

end Assignment

namespace Candidate

open Fallible

variable {schema : Schema} {candidate : Candidate} {candidates : List Candidate}
  {arguments : List GivenArgument} {hasBlock : Bool} {name : String}

/-- No block may follow a call of the function. -/
def TakesNoBlock (candidate : Candidate) : Prop :=
  candidate.semantics.blockRequirement = .notAllowed

instance : Decidable candidate.TakesNoBlock :=
  inferInstanceAs (Decidable (_ = _))

/-- The part of accepting a call that concerns its arguments. -/
def acceptArguments (schema : Schema) (candidate : Candidate) (arguments : List GivenArgument) :
    Except Mismatch Assignment := do
  let indexed := arguments.zipIdx
  let named ←
    Assignment.bindNamed candidate.parameters indexed (candidate.parameters.map fun _ => none)
  let positional := indexed.filterMap fun (argument, index) =>
    if argument.name.isNone then some index else none
  let assignment ← Assignment.fill named positional
  for (parameter, slot) in candidate.parameters.zip assignment do
    Assignment.checkSlot schema arguments parameter slot
  return assignment

/-- The block comes first. -/
theorem accept_eq : candidate.accept schema arguments hasBlock =
    candidate.checkBlock hasBlock >>= fun _ => candidate.acceptArguments schema arguments :=
  rfl

theorem faults_acceptArguments :
    FaultsIn Mismatch.OfArguments (candidate.acceptArguments schema arguments) := by
  unfold acceptArguments
  apply Assignment.faults_bindNamed.bind
  intro named _
  apply Assignment.faults_fill.bind
  intro assignment _
  have hloop : FaultsIn Mismatch.OfArguments
      (forIn (candidate.parameters.zip assignment) PUnit.unit fun pair _ => do
        Assignment.checkSlot schema arguments pair.1 pair.2
        pure (.yield PUnit.unit)) :=
    faultsIn_forIn (fun _ => rfl) fun _ _ => Assignment.faults_checkSlot
  exact hloop.bind fun _ _ => faultsIn_pure assignment

theorem TakesNoBlock.accept_with_block (h : candidate.TakesNoBlock) :
    candidate.accept schema arguments true = .error .unexpectedBlock := by
  have hcheck : candidate.checkBlock true = .error .unexpectedBlock := by
    unfold checkBlock
    rw [h]
  rw [accept_eq, hcheck]
  rfl

theorem TakesNoBlock.accept_without_block (h : candidate.TakesNoBlock) :
    candidate.accept schema arguments false = candidate.acceptArguments schema arguments := by
  have hcheck : candidate.checkBlock false = .ok () := by
    unfold checkBlock
    rw [h]
  rw [accept_eq, hcheck]
  rfl

/-- A function refuses a call for its block just when it takes none. -/
theorem accept_eq_unexpectedBlock_iff :
    candidate.accept schema arguments hasBlock = .error .unexpectedBlock ↔
      hasBlock = true ∧ candidate.TakesNoBlock := by
  constructor
  · intro h
    cases hcheck : candidate.checkBlock hasBlock with
    | ok passed =>
      rw [accept_eq, hcheck] at h
      exact absurd rfl (faults_acceptArguments _ h).1
    | error mismatch =>
      rw [accept_eq, hcheck] at h
      obtain rfl := Except.error.inj h
      unfold checkBlock at hcheck
      split at hcheck
      · rename_i hrequirement
        exact ⟨rfl, hrequirement⟩
      · cases hcheck
      · cases hcheck
  · rintro ⟨rfl, h⟩
    exact h.accept_with_block

/-! ### Calls that are reported for their block -/

variable {outcomes : Outcomes} {spelled : String}

theorem refusal_eq_unexpectedBlock_iff :
    refusal name outcomes = .error (.unexpectedBlock spelled) ↔
      spelled = name ∧ ∀ outcome ∈ outcomes, outcome.2 = .error .unexpectedBlock := by
  unfold refusal
  split
  · rename_i hblock
    rw [List.all_eq_true] at hblock
    constructor
    · intro h
      refine ⟨(Diagnostic.Cause.unexpectedBlock.inj (Except.error.inj h)).symm, ?_⟩
      rintro ⟨candidate, verdict⟩ hmem
      have hrefused := hblock _ hmem
      dsimp only at hrefused
      split at hrefused
      · rfl
      · cases hrefused
    · rintro ⟨rfl, -⟩
      rfl
  · rename_i hblock
    refine iff_of_false (by split <;> simp) fun h => hblock ?_
    rw [List.all_eq_true]
    rintro ⟨candidate, verdict⟩ hmem
    obtain rfl : verdict = .error .unexpectedBlock := h.2 _ hmem
    rfl

theorem verdict_eq_unexpectedBlock_iff :
    verdict name outcomes = .error (.unexpectedBlock spelled) ↔
      spelled = name ∧ ∀ outcome ∈ outcomes, outcome.2 = .error .unexpectedBlock := by
  -- Where every function refuses the call, none accepts it.
  have hempty : (∀ outcome ∈ outcomes, outcome.2 = .error .unexpectedBlock) →
      accepting outcomes = [] := by
    intro hall
    refine List.filterMap_eq_nil_iff.mpr fun outcome hmem => ?_
    obtain ⟨candidate, verdict⟩ := outcome
    obtain rfl : verdict = .error .unexpectedBlock := hall _ hmem
    rfl
  unfold verdict
  split
  · rename_i choice haccepting
    refine iff_of_false nofun fun h => ?_
    cases haccepting.symm.trans (hempty h.2)
  · rename_i haccepting
    refine iff_of_false nofun fun h => ?_
    cases haccepting.symm.trans (hempty h.2)
  · exact refusal_eq_unexpectedBlock_iff

theorem cause_of_verdict {cause : Diagnostic.Cause} (h : verdict name outcomes = .error cause) :
    cause = .unexpectedBlock name ∨ cause = .ambiguousCall name (accepting outcomes).length ∨
      cause.code = .unresolvedCall := by
  unfold verdict at h
  split at h
  · cases h
  · exact .inr (.inl (Except.error.inj h).symm)
  · unfold refusal at h
    split at h
    · exact .inl (Except.error.inj h).symm
    · split at h
      all_goals
        obtain rfl := Except.error.inj h
        exact .inr (.inr rfl)

end Candidate

open Candidate in
/-- A call is reported for its block just when none of the functions takes one. -/
theorem selectCandidate_eq_unexpectedBlock_iff {schema : Schema} {name spelled : String}
    {candidates : List Candidate} {arguments : List GivenArgument} {hasBlock : Bool}
    (hsome : candidates ≠ []) :
    selectCandidate schema name candidates arguments hasBlock =
        .error (.unexpectedBlock spelled) ↔
      spelled = name ∧ hasBlock = true ∧ ∀ candidate ∈ candidates, candidate.TakesNoBlock := by
  rw [selectCandidate_eq_verdict, verdict_eq_unexpectedBlock_iff, List.forall_mem_map]
  simp only [accept_eq_unexpectedBlock_iff]
  constructor
  · rintro ⟨hname, hall⟩
    obtain ⟨candidate, hmem⟩ := List.exists_mem_of_ne_nil candidates hsome
    exact ⟨hname, (hall candidate hmem).1, fun other hother => (hall other hother).2⟩
  · rintro ⟨hname, hblock, hall⟩
    exact ⟨hname, fun candidate hmem => ⟨hblock, hall candidate hmem⟩⟩

namespace Environment

variable {environment : Environment} {receiver : Option Expr} {name : String}
  {arguments : List Argument} {span : Span} {target owner : Option TypedExpr}
  {candidates : List Candidate} {values : List GivenArgument}

/-- A call may mean some function, or it fails before its arguments are bound. -/
theorem candidates_ne_nil_of_callTarget
    (h : (environment.callTarget target name span).result = some (owner, candidates)) :
    candidates ≠ [] := by
  rw [callTarget_eq, Attempt.result_bind] at h
  obtain ⟨⟨found, named⟩, -, h⟩ := h
  dsimp only at h
  split at h
  · cases h
  · rename_i hsome
    obtain ⟨rfl, rfl⟩ := Prod.mk.inj (Option.some.inj h)
    simpa using hsome

/-- The values of a call are those of its other arguments. -/
theorem resolveArguments_withoutLambdas (environment : Environment) (arguments : List Argument) :
    environment.resolveArguments (arguments.filter (!·.isLambda)) =
      environment.resolveArguments arguments := by
  induction arguments with
  | nil => rfl
  | cons argument arguments ih =>
    cases argument with
    | positional value span =>
      rw [List.filter_cons_of_pos rfl, resolveArguments, resolveArguments, ih]
    | named label value span =>
      rw [List.filter_cons_of_pos rfl, resolveArguments, resolveArguments, ih]
    | lambda body span => rw [List.filter_cons_of_neg Bool.false_ne_true, resolveArguments, ih]

theorem any_isLambda_withoutLambdas (arguments : List Argument) :
    (arguments.filter (!·.isLambda)).any Argument.isLambda = false := by
  simp [List.any_filter]

/-- The functions of a name are found, though there may be none, unless they are those of `null`. -/
theorem namedFunctions_cases (environment : Environment) (target : Option TypedExpr)
    (name : String) (span : Span) :
    environment.namedFunctions target name span = .fail .membersOfNull span ∨
      ∃ found, environment.namedFunctions target name span = .ok found := by
  cases target with
  | none =>
    unfold namedFunctions
    dsimp only
    split
    · exact .inr ⟨_, rfl⟩
    · exact .inr ⟨_, rfl⟩
  | some target =>
    unfold namedFunctions memberOwner
    dsimp only
    split
    · exact .inl rfl
    · exact .inr ⟨_, rfl⟩

/-- A call that means no function is reported for that, or for the `null` that it is made on. -/
theorem callTarget_failed (h : (environment.callTarget target name span).result = none) :
    ∃ cause, cause.code ≠ .unexpectedConfigureBlock ∧
      environment.callTarget target name span = .fail cause span := by
  rw [callTarget_eq] at h ⊢
  obtain hnull | ⟨⟨found, named⟩, hfound⟩ :=
    namedFunctions_cases environment target name span
  · exact ⟨.membersOfNull, nofun, by rw [hnull]; rfl⟩
  · rw [hfound, Attempt.ok_bind] at h ⊢
    dsimp only at h ⊢
    by_cases hnone : named.isEmpty = true
    · rw [if_pos hnone]
      exact ⟨.unresolvedFunction name, nofun, rfl⟩
    · rw [if_neg hnone] at h
      cases h

/-- A call that is refused, with what its receiver and its arguments report in front. -/
def refusedCall (environment : Environment) (receiver : Option Expr) (arguments : List Argument)
    (cause : Diagnostic.Cause) (span : Span) : Attempt TypedExpr :=
  ⟨none, (environment.resolveReceiver receiver).diagnostics ++
    ((environment.resolveArguments arguments).diagnostics ++ [⟨cause, span⟩])⟩

theorem refusedCall_inj {cause other : Diagnostic.Cause} :
    environment.refusedCall receiver arguments cause span =
      environment.refusedCall receiver arguments other span ↔ cause = other := by
  simp [refusedCall]

/-- A call without a function fails before its arguments are resolved. -/
theorem resolveExpr_call_failed
    (hreceiver : (environment.resolveReceiver receiver).result = some target)
    (h : (environment.callTarget target name span).result = none) :
    ∃ cause, cause.code ≠ .unexpectedConfigureBlock ∧
      environment.resolveExpr (.call receiver name arguments span) =
        ⟨none, (environment.resolveReceiver receiver).diagnostics ++ [⟨cause, span⟩]⟩ := by
  obtain ⟨cause, hcode, hfail⟩ := callTarget_failed h
  refine ⟨cause, hcode, ?_⟩
  rw [resolveExpr, Attempt.bind_of_some hreceiver, Attempt.bind_of_none h, hfail]
  rfl

/-- What is reported of a call whose parts resolve, but which means no function. -/
theorem resolveExpr_call_error
    (hreceiver : (environment.resolveReceiver receiver).result = some target)
    (htarget : (environment.callTarget target name span).result = some (owner, candidates))
    (hvalues : (environment.resolveArguments arguments).result = some values)
    {cause : Diagnostic.Cause}
    (h : selectCandidate environment.schema name candidates values
      (arguments.any Argument.isLambda) = .error cause) :
    environment.resolveExpr (.call receiver name arguments span) =
      environment.refusedCall receiver arguments cause span := by
  rw [resolveExpr_call hreceiver htarget hvalues, callOf_of_error h, quiet_callTarget _ htarget]
  rfl

theorem resolves_iff_of_parts
    (hreceiver : (environment.resolveReceiver receiver).result = some target)
    (htarget : (environment.callTarget target name span).result = some (owner, candidates))
    (hvalues : (environment.resolveArguments arguments).result = some values) :
    (∃ typed, (environment.resolveExpr (.call receiver name arguments span)).result = some typed) ↔
      Candidate.countAccepting environment.schema candidates values
        (arguments.any Argument.isLambda) = 1 := by
  rw [← @selectCandidate_eq_ok_iff environment.schema name]
  cases hselect : selectCandidate environment.schema name candidates values
      (arguments.any Argument.isLambda) with
  | ok choice =>
    rw [resolveExpr_call hreceiver htarget hvalues]
    refine iff_of_true ?_ ⟨choice, rfl⟩
    exact (callOf_of_ok hselect).elim fun block hresult => ⟨_, hresult⟩
  | error cause =>
    rw [resolveExpr_call_error hreceiver htarget hvalues hselect]
    exact iff_of_false nofun nofun

/-- Where a call with a block behind it may mean some functions, it is reported for the block just
when none of them takes one. -/
theorem reported_iff_takesNoBlock
    (hreceiver : (environment.resolveReceiver receiver).result = some target)
    (htarget : (environment.callTarget target name span).result = some (owner, candidates))
    (hvalues : (environment.resolveArguments arguments).result = some values)
    (hblock : arguments.any Argument.isLambda = true) :
    (∃ cause, cause.code = .unexpectedConfigureBlock ∧
        environment.resolveExpr (.call receiver name arguments span) =
          environment.refusedCall receiver arguments cause span) ↔
      ∀ candidate ∈ candidates, candidate.TakesNoBlock := by
  have hsome := candidates_ne_nil_of_callTarget htarget
  constructor
  · rintro ⟨cause, hcode, hcause⟩
    cases hselect : selectCandidate environment.schema name candidates values true with
    | ok choice =>
      obtain ⟨typed, htyped⟩ := (resolves_iff_of_parts hreceiver htarget hvalues).mpr
        (hblock.symm ▸ selectCandidate_eq_ok_iff.mp ⟨choice, hselect⟩)
      cases htyped.symm.trans (congrArg Attempt.result hcause)
    | error other =>
      have hother := resolveExpr_call_error hreceiver htarget hvalues (hblock ▸ hselect)
      obtain rfl := refusedCall_inj.mp (hcause.symm.trans hother)
      rw [selectCandidate_eq_verdict] at hselect
      obtain rfl | rfl | hunresolved := Candidate.cause_of_verdict hselect
      · exact ((selectCandidate_eq_unexpectedBlock_iff hsome).mp hselect).2.2
      · cases hcode
      · cases hcode.symm.trans hunresolved
  · intro hall
    have hselect : selectCandidate environment.schema name candidates values true =
        .error (.unexpectedBlock name) :=
      (selectCandidate_eq_unexpectedBlock_iff hsome).mpr ⟨rfl, rfl, hall⟩
    exact ⟨_, rfl, resolveExpr_call_error hreceiver htarget hvalues (hblock ▸ hselect)⟩

/-- A call without a block comes to a function that accepts its arguments, if there is one only. -/
theorem plain_call_cases
    (hreceiver : (environment.resolveReceiver receiver).result = some target)
    (htarget : (environment.callTarget target name span).result = some (owner, candidates))
    (hvalues : (environment.resolveArguments arguments).result = some values)
    (hplain : arguments.any Argument.isLambda = false) :
    let attempt := environment.resolveExpr (.call receiver name arguments span)
    let accepting := Candidate.countAccepting environment.schema candidates values false
    ((∃ typed, attempt.result = some typed) ↔ accepting = 1) ∧
      (accepting = 0 → ∃ cause, cause.code = .unresolvedCall ∧
        attempt = environment.refusedCall receiver arguments cause span) ∧
      (2 ≤ accepting → attempt =
        environment.refusedCall receiver arguments (.ambiguousCall name accepting) span) := by
  have hsome := candidates_ne_nil_of_callTarget htarget
  intro attempt accepting
  have hrefused : ∀ cause, selectCandidate environment.schema name candidates values false =
      .error cause → attempt = environment.refusedCall receiver arguments cause span := by
    intro cause hselect
    exact resolveExpr_call_error hreceiver htarget hvalues (hplain ▸ hselect)
  refine ⟨?_, fun hnone => ?_, fun hmany => ?_⟩
  · rw [resolves_iff_of_parts hreceiver htarget hvalues, hplain]
  · cases hselect : selectCandidate environment.schema name candidates values false with
    | ok choice => cases hnone.symm.trans (selectCandidate_eq_ok_iff.mp ⟨choice, hselect⟩)
    | error cause =>
      refine ⟨cause, ?_, hrefused cause hselect⟩
      obtain rfl | rfl | hunresolved :=
        Candidate.cause_of_verdict (selectCandidate_eq_verdict.symm.trans hselect)
      · cases ((selectCandidate_eq_unexpectedBlock_iff hsome).mp hselect).2.1
      · have hmany := (selectCandidate_eq_ambiguous_iff.mp hselect).1
        omega
      · exact hunresolved
  · exact hrefused _ (selectCandidate_eq_ambiguous_iff.mpr ⟨hmany, rfl, rfl⟩)

/-- A call with a block behind it is reported for the block just when it may mean some function and
none of the functions of the name takes one, whatever its arguments are. Without the block each of
the functions then accepts the call or not for the arguments alone, and the call comes to a function
when one of them accepts it. -/
theorem reported_for_block_iff
    (hreceiver : (environment.resolveReceiver receiver).result = some target)
    (hvalues : (environment.resolveArguments arguments).result = some values)
    (hblock : arguments.any Argument.isLambda = true) :
    let attempt := environment.resolveExpr (.call receiver name arguments span)
    let plain := environment.resolveExpr
      (.call receiver name (arguments.filter (!·.isLambda)) span)
    let refused := environment.refusedCall receiver arguments
    ((environment.callTarget target name span).result = none →
        ∃ cause, cause.code ≠ .unexpectedConfigureBlock ∧ attempt =
          ⟨none, (environment.resolveReceiver receiver).diagnostics ++ [⟨cause, span⟩]⟩) ∧
      ∀ owner candidates,
        (environment.callTarget target name span).result = some (owner, candidates) →
          let accepting := Candidate.countAccepting environment.schema candidates values false
          ((∃ cause, cause.code = .unexpectedConfigureBlock ∧ attempt = refused cause span) ↔
              ∀ candidate ∈ candidates, candidate.TakesNoBlock) ∧
            ((∀ candidate ∈ candidates, candidate.TakesNoBlock) →
              (∀ candidate ∈ candidates,
                candidate.accept environment.schema values true = .error .unexpectedBlock ∧
                  ∀ mismatch,
                    candidate.accept environment.schema values false = .error mismatch →
                      mismatch.OfArguments) ∧
              ((∃ typed, plain.result = some typed) ↔ accepting = 1) ∧
              (accepting = 0 → ∃ cause, cause.code = .unresolvedCall ∧
                plain = refused cause span) ∧
              (2 ≤ accepting → plain = refused (.ambiguousCall name accepting) span)) := by
  intro attempt plain refused
  refine ⟨resolveExpr_call_failed hreceiver, fun owner candidates htarget => ?_⟩
  refine ⟨reported_iff_takesNoBlock hreceiver htarget hvalues hblock, fun hall => ⟨?_, ?_⟩⟩
  · intro candidate hmem
    refine ⟨(hall candidate hmem).accept_with_block, fun mismatch hmismatch => ?_⟩
    rw [(hall candidate hmem).accept_without_block] at hmismatch
    exact Candidate.faults_acceptArguments mismatch hmismatch
  · have hwithout := resolveArguments_withoutLambdas environment arguments
    have hsame : environment.refusedCall receiver (arguments.filter (!·.isLambda)) = refused := by
      funext cause span
      rw [refusedCall, hwithout]
      rfl
    rw [← hsame]
    exact plain_call_cases hreceiver htarget (hwithout ▸ hvalues)
      (any_isLambda_withoutLambdas arguments)

/-- A function of a number, which takes no block. -/
def measuringCatalog : Catalog :=
  ⟨[⟨"Garden", [], [], [⟨"size", .pure, [⟨"width", "Int", false, none⟩], some "Int", none, none⟩],
    []⟩], [], [], []⟩

/-- A value and an empty block behind it. -/
def withBlock (value : Literal) : List Argument :=
  [.positional (.literal value .blank) .blank, .lambda (.mk [] .blank) .blank]

/-- Where the argument fits, the block is all that keeps the call from resolving. -/
theorem reported_for_block_iff_measuring : ∃ schema owner candidates values,
    Schema.build measuringCatalog .receiverFunction "Garden" = .ok schema ∧
      (schema.atStart.resolveReceiver none).result = some none ∧
      (schema.atStart.callTarget none "size" .blank).result = some (owner, candidates) ∧
      (schema.atStart.resolveArguments (withBlock (.int 1))).result = some values ∧
      (withBlock (.int 1)).any Argument.isLambda = true ∧
      (∃ cause, cause.code = .unexpectedConfigureBlock ∧
        schema.atStart.resolveExpr (.call none "size" (withBlock (.int 1)) .blank) =
          schema.atStart.refusedCall none (withBlock (.int 1)) cause .blank) ∧
      ∃ typed, (schema.atStart.resolveExpr (.call none "size"
        ((withBlock (.int 1)).filter (!·.isLambda)) .blank)).result = some typed := by
  have hok : (Schema.build measuringCatalog .receiverFunction "Garden").toOption.any (fun schema =>
      (schema.atStart.callTarget none "size" .blank).result.any fun target =>
        (schema.atStart.resolveArguments (withBlock (.int 1))).result.any fun values =>
          (∀ candidate ∈ target.2, candidate.TakesNoBlock) ∧
            Candidate.countAccepting schema target.2 values false = 1) = true := by
    decide +kernel
  simp only [Option.any_eq_true, decide_eq_true_eq] at hok
  obtain ⟨schema, hschema, ⟨owner, candidates⟩, htarget, values, hvalues, hall, hone⟩ := hok
  have hreceiver : (schema.atStart.resolveReceiver none).result = some none := rfl
  obtain ⟨hreported, hwithout⟩ :=
    (reported_for_block_iff hreceiver hvalues rfl).2 owner candidates htarget
  exact ⟨schema, owner, candidates, values, Fallible.toOption_eq_some.mp hschema, hreceiver,
    htarget, hvalues, rfl, hreported.mpr hall, (hwithout hall).2.1.mpr hone⟩

/-- The block need not be all that is the matter: the function may not take the argument either. -/
theorem reported_for_block_of_wrong_argument : ∃ schema owner candidates values,
    Schema.build measuringCatalog .receiverFunction "Garden" = .ok schema ∧
      (schema.atStart.callTarget none "size" .blank).result = some (owner, candidates) ∧
      (schema.atStart.resolveArguments (withBlock (.string "wide"))).result = some values ∧
      (schema.atStart.resolveExpr
        (.call none "size" (withBlock (.string "wide")) .blank)).diagnostics =
          [⟨.unexpectedBlock "size", .blank⟩] ∧
      ∀ candidate ∈ candidates, ¬ candidate.Accepts schema values false := by
  have hok : (Schema.build measuringCatalog .receiverFunction "Garden").toOption.any (fun schema =>
      (schema.atStart.callTarget none "size" .blank).result.any fun target =>
        (schema.atStart.resolveArguments (withBlock (.string "wide"))).result.any fun values =>
          (schema.atStart.resolveExpr
            (.call none "size" (withBlock (.string "wide")) .blank)).diagnostics =
              [⟨.unexpectedBlock "size", .blank⟩] ∧
            ∀ candidate ∈ target.2, ¬ candidate.Accepts schema values false) = true := by
    decide +kernel
  simp only [Option.any_eq_true, decide_eq_true_eq] at hok
  obtain ⟨schema, hschema, ⟨owner, candidates⟩, htarget, values, hvalues, hreported, hnone⟩ := hok
  exact ⟨schema, owner, candidates, values, Fallible.toOption_eq_some.mp hschema, htarget, hvalues,
    hreported, hnone⟩

end Environment

end ConfigScript
