import ConfigScript.Proofs.Resolution.Lookup
import ConfigScript.Proofs.Resolution.Matches
import ConfigScript.Proofs.Syntax.WellFormed
import ConfigScript.Resolution.Resolve

/-!
# Nothing fails silently

As long as no value in scope has failed, resolution reports a problem or comes to an operation that
matches. A silent failure hence always follows a reported one.
-/

namespace ConfigScript

/-- What is reported about the imports of a script. -/
def Diagnostic.ConcernsImport (diagnostic : Diagnostic) : Prop :=
  diagnostic.code = .unresolvedImport ∨ diagnostic.code = .ambiguousImport

namespace Attempt

variable {α β : Type}

/-- An attempt that reports a problem beside imports, or else has a result of a kind. -/
def ReportsOr (attempt : Attempt α) (post : α → Prop) : Prop :=
  (∀ diagnostic ∈ attempt.diagnostics, diagnostic.ConcernsImport) →
    ∃ value, attempt.result = some value ∧ post value

theorem reportsOr_ok {value : α} {post : α → Prop} (h : post value) : (ok value).ReportsOr post :=
  fun _ => ⟨value, rfl, h⟩

theorem reportsOr_fail {cause : Diagnostic.Cause} {span : Span} {post : α → Prop}
    (h : cause.code ≠ .unresolvedImport ∧ cause.code ≠ .ambiguousImport) :
    (fail cause span).ReportsOr post := by
  intro hdiagnostics
  cases hdiagnostics ⟨cause, span⟩ List.mem_cons_self with
  | inl hunresolved => exact absurd hunresolved h.1
  | inr hambiguous => exact absurd hambiguous h.2

theorem ReportsOr.bind {first : Attempt α} {next : α → Attempt β} {middle : α → Prop}
    {post : β → Prop} (hfirst : first.ReportsOr middle)
    (hnext : ∀ value, first.result = some value → middle value → (next value).ReportsOr post) :
    (first >>= next).ReportsOr post := by
  intro hdiagnostics
  change ∀ diagnostic ∈ (first.andThen next).diagnostics, _ at hdiagnostics
  change ∃ value, (first.andThen next).result = some value ∧ post value
  unfold andThen at hdiagnostics ⊢
  cases hresult : first.result with
  | none =>
    rw [hresult] at hdiagnostics
    obtain ⟨value, hvalue, -⟩ := hfirst hdiagnostics
    cases hresult.symm.trans hvalue
  | some value =>
    rw [hresult] at hdiagnostics
    obtain ⟨found, hfound, hmiddle⟩ := hfirst fun diagnostic hmem =>
      hdiagnostics diagnostic (List.mem_append_left _ hmem)
    obtain rfl := Option.some.inj (hresult.symm.trans hfound)
    exact hnext value hresult hmiddle fun diagnostic hmem =>
      hdiagnostics diagnostic (List.mem_append_right _ hmem)

theorem ReportsOr.map {first : Attempt α} {change : α → β} {post : β → Prop}
    (h : first.ReportsOr fun value => post (change value)) : (change <$> first).ReportsOr post :=
  ReportsOr.bind h fun _ _ hpost => reportsOr_ok hpost

theorem ReportsOr.both {first : Attempt α} {second : Attempt β} {left : α → Prop}
    {right : β → Prop} (hfirst : first.ReportsOr left) (hsecond : second.ReportsOr right) :
    (first.both second).ReportsOr fun pair => left pair.1 ∧ right pair.2 := by
  intro hdiagnostics
  obtain ⟨a, ha, hleft⟩ := hfirst fun diagnostic hmem =>
    hdiagnostics diagnostic (List.mem_append_left _ hmem)
  obtain ⟨b, hb, hright⟩ := hsecond fun diagnostic hmem =>
    hdiagnostics diagnostic (List.mem_append_right _ hmem)
  exact ⟨(a, b), result_both.mpr ⟨ha, hb⟩, hleft, hright⟩

end Attempt

/-- The block behind a call, for the first lambda among its arguments. -/
def BlockMatches : List Argument → Option (List Operation) → Prop
  | [], block => block = none
  | .positional _ _ :: arguments, block => BlockMatches arguments block
  | .named _ _ _ :: arguments, block => BlockMatches arguments block
  | .lambda (.mk statements _) _ :: _, block =>
    ∃ operations, block = some operations ∧ StatementsMatch statements operations

namespace Environment

/-- No value in scope has failed. -/
def Clean (environment : Environment) : Prop :=
  ∀ scope ∈ environment.scopes, ∀ entry ∈ scope.locals, entry.2.type ≠ none

variable {environment : Environment} {name : String} {span : Span}

theorem Clean.enter (h : environment.Clean) {receiver : QualifiedName} :
    (environment.enter receiver).Clean := by
  intro scope hscope entry hentry
  cases List.mem_cons.mp hscope with
  | inl heq =>
    obtain rfl := heq
    cases hentry
  | inr hmem => exact h scope hmem entry hentry

theorem Clean.after (h : environment.Clean) {statement : Statement} {operation : Operation}
    (hmatches : StatementMatches statement operation) :
    (environment.after (some operation) statement).Clean := by
  cases hmatches with
  | localValue hvalue =>
    intro scope hscope entry hentry
    rcases mem_declare hscope with hmem | ⟨old, hold, rfl⟩
    · exact h scope hmem entry hentry
    · cases List.mem_cons.mp hentry with
      | inl heq =>
        subst heq
        exact Option.some_ne_none _
      | inr hmem => exact h old hold entry hmem
  | assignment => exact h
  | expr => exact h

theorem Clean.type_ne_none (h : environment.Clean) {binding : LocalBinding}
    (hlocal : environment.local? name = some binding) : binding.type ≠ none := by
  obtain ⟨scope, hscope, hentry⟩ := exists_of_local? hlocal
  exact h scope hscope _ hentry

theorem simpleName_of_find? {imports : Imports} {found : QualifiedName}
    (h : imports.find? name = some found) : found.simpleName = name := by
  unfold Imports.find? Imports.named at h
  cases hexplicit : imports.explicit.find? (·.simpleName == name) with
  | none =>
    rw [hexplicit] at h
    simpa using List.find?_some h
  | some explicit =>
    rw [hexplicit] at h
    obtain rfl := Option.some.inj h
    simpa using List.find?_some hexplicit

theorem Clean.reports_readName (h : environment.Clean) :
    (environment.readName name span).ReportsOr (ExprMatches (.property none name span)) := by
  unfold readName
  split
  · exact Attempt.reportsOr_ok .localValue
  · rename_i hlocal
    exact absurd rfl (h.type_ne_none hlocal)
  · split
    · rename_i hproperty
      obtain ⟨hname, type, depth, rfl⟩ := name_of_receiverProperty? hproperty
      exact Attempt.reportsOr_ok (.property .scope hname)
    · split
      · rename_i hobject
        obtain ⟨found, hfound, hobject⟩ := Option.bind_eq_some_iff.mp hobject
        obtain ⟨type, -, heq⟩ := Option.bind_eq_some_iff.mp hobject
        obtain ⟨rfl, rfl⟩ := Prod.mk.inj (Option.some.inj heq)
        exact Attempt.reportsOr_ok (.object (simpleName_of_find? hfound))
      · exact Attempt.reportsOr_fail (by simp [Diagnostic.Cause.code])

theorem reports_memberOwner {receiver : TypedExpr} :
    (memberOwner receiver span).ReportsOr fun _ => True := by
  unfold memberOwner
  split
  · exact Attempt.reportsOr_fail (by simp [Diagnostic.Cause.code])
  · exact Attempt.reportsOr_ok trivial

theorem reports_memberProperty {receiver : TypedExpr} :
    (environment.memberProperty receiver name span).ReportsOr (·.name = name) := by
  refine reports_memberOwner.bind fun owner _ _ => ?_
  split
  · rename_i property hproperty
    obtain ⟨dataClass, -, hfind⟩ := Option.bind_eq_some_iff.mp hproperty
    exact Attempt.reportsOr_ok (by simpa using List.find?_some hfind)
  · exact Attempt.reportsOr_fail (by simp [Diagnostic.Cause.code])

theorem Clean.reports_assignedName (h : environment.Clean) :
    (environment.assignedName name span).ReportsOr fun found =>
      found.2.name = name ∧ ∃ type depth, found.1 = .receiver type depth span := by
  unfold assignedName
  split
  · exact Attempt.reportsOr_fail (by simp [Diagnostic.Cause.code])
  · rename_i hlocal
    exact absurd rfl (h.type_ne_none hlocal)
  · split
    · rename_i hproperty
      exact Attempt.reportsOr_ok (name_of_receiverProperty? hproperty)
    · exact Attempt.reportsOr_fail (by simp [Diagnostic.Cause.code])

theorem Clean.reports_assignedProperty (h : environment.Clean) {source : Option Expr}
    {receiver : Option TypedExpr} (hreceiver : Option.Rel ExprMatches source receiver) :
    (environment.assignedProperty receiver name span).ReportsOr fun found =>
      found.2.name = name ∧ ReceiverMatches span source (some found.1) := by
  have hnamed : (environment.namedProperty receiver name span).ReportsOr fun found =>
      found.2.name = name ∧ ReceiverMatches span source (some found.1) := by
    cases hreceiver with
    | none =>
      intro hdiagnostics
      obtain ⟨found, hfound, hname, type, depth, heq⟩ := h.reports_assignedName hdiagnostics
      exact ⟨found, hfound, hname, heq ▸ .scope⟩
    | some hmatches =>
      refine Attempt.ReportsOr.map fun hdiagnostics => ?_
      obtain ⟨property, hproperty, hname⟩ := reports_memberProperty hdiagnostics
      exact ⟨property, hproperty, hname, .written hmatches⟩
  rw [assignedProperty_eq]
  refine hnamed.bind fun found _ hfound => ?_
  obtain ⟨owner, property⟩ := found
  dsimp only
  split
  · exact Attempt.reportsOr_fail (by simp [Diagnostic.Cause.code])
  · exact Attempt.reportsOr_ok hfound

theorem simpleName_of_mem_memberCandidates {schema : Schema} {owner : QualifiedName}
    {candidate : Candidate} (h : candidate ∈ schema.memberCandidates owner name) :
    candidate.callee.simpleName = name := by
  unfold Schema.memberCandidates at h
  split at h
  · cases h
  · obtain ⟨function, hfunction, rfl⟩ := List.mem_map.mp h
    simpa [Callee.simpleName] using (List.mem_filter.mp hfunction).2

theorem simpleName_of_mem_packageCandidates {schema : Schema} (hclosed : schema.Closed)
    {imported : QualifiedName} {candidate : Candidate}
    (h : candidate ∈ schema.packageCandidates imported) :
    candidate.callee.simpleName = imported.simpleName := by
  unfold Schema.packageCandidates at h
  split at h
  · rename_i function hfunction
    obtain rfl := List.mem_singleton.mp h
    rw [← (hclosed.functions _ _ hfunction).1]
    rfl
  · split at h
    · cases h
    · obtain ⟨constructor, -, rfl⟩ := List.mem_map.mp h
      rfl

theorem reports_callTarget (hclosed : environment.schema.Closed) {source : Option Expr}
    {receiver : Option TypedExpr} (hreceiver : Option.Rel ExprMatches source receiver) :
    (environment.callTarget receiver name span).ReportsOr fun found =>
      ReceiverMatches span source found.1 ∧
        ∀ candidate ∈ found.2, candidate.callee.simpleName = name := by
  have hnamed : (environment.namedFunctions receiver name span).ReportsOr fun _ => True := by
    unfold namedFunctions
    split
    · exact reports_memberOwner.bind fun _ _ _ => Attempt.reportsOr_ok trivial
    · split <;> exact Attempt.reportsOr_ok trivial
  have hreports : (environment.callTarget receiver name span).ReportsOr fun _ => True := by
    rw [callTarget_eq]
    refine hnamed.bind fun found _ _ => ?_
    dsimp only
    split
    · exact Attempt.reportsOr_fail (by simp [Diagnostic.Cause.code])
    · exact Attempt.reportsOr_ok trivial
  intro hdiagnostics
  obtain ⟨⟨target, candidates⟩, htarget, -⟩ := hreports hdiagnostics
  refine ⟨(target, candidates), htarget, ?_⟩
  rcases callTarget_cases htarget with ⟨value, rfl, rfl, hmembers⟩ |
    ⟨depth, type, rfl, -, rfl, rfl⟩ | ⟨rfl, rfl, hpackage⟩
  · cases hreceiver with
    | some hmatches =>
      refine ⟨.written hmatches, fun candidate hcandidate => ?_⟩
      obtain ⟨type, -, hmember⟩ := hmembers candidate hcandidate
      exact simpleName_of_mem_memberCandidates hmember
  · cases hreceiver with
    | none => exact ⟨.scope, fun candidate => simpleName_of_mem_memberCandidates⟩
  · cases hreceiver with
    | none =>
      refine ⟨.none, fun candidate hcandidate => ?_⟩
      obtain ⟨imported, himported, hmember⟩ := hpackage candidate hcandidate
      rw [simpleName_of_mem_packageCandidates hclosed hmember, simpleName_of_find? himported]

theorem code_of_selectCandidate {schema : Schema} {candidates : List Candidate}
    {arguments : List GivenArgument} {hasBlock : Bool} {cause : Diagnostic.Cause}
    (h : selectCandidate schema name candidates arguments hasBlock = .error cause) :
    cause.code ≠ .unresolvedImport ∧ cause.code ≠ .ambiguousImport := by
  unfold selectCandidate at h
  dsimp only at h
  split at h
  · cases h
  · obtain rfl := Except.error.inj h
    simp [Diagnostic.Cause.code]
  · split at h
    · obtain rfl := Except.error.inj h
      simp [Diagnostic.Cause.code]
    · split at h
      all_goals
        obtain rfl := Except.error.inj h
        simp [Diagnostic.Cause.code]

theorem reports_choose {candidates : List Candidate} {arguments : List GivenArgument}
    {hasBlock : Bool} :
    (environment.choose name candidates arguments hasBlock span).ReportsOr fun choice =>
      choice.1 ∈ candidates ∧ choice.1.checkBlock hasBlock = .ok () ∧
        (choice.2.map BoundArgument.value).Perm (arguments.map GivenArgument.value) := by
  unfold choose
  split
  · rename_i candidate assignment hselected
    obtain ⟨hmem, haccept⟩ := selectCandidate_eq_ok hselected
    exact Attempt.reportsOr_ok ⟨hmem, (Candidate.accept_eq_ok haccept).1,
      Candidate.values_perm_of_accept haccept⟩
  · rename_i cause hcause
    exact Attempt.reportsOr_fail (code_of_selectCandidate hcause)

/-- A function that lets a block follow configures an object of a class, so the block is never
passed over. -/
theorem exists_configured_of_offers {schema : Schema} (hclosed : schema.Closed)
    {candidate : Candidate} {receiver : Option TypeRef}
    (hoffers : schema.Offers candidate.callee receiver candidate.parameters candidate.semantics)
    (hblock : candidate.checkBlock true = .ok ()) :
    ∃ type, candidate.semantics.configuredType?.bind TypeRef.className? = some type := by
  obtain ⟨owner, hfits⟩ := hoffers.fits hclosed
  refine hfits.exists_configured fun hnot => ?_
  simp [Candidate.checkBlock, hnot] at hblock

theorem reports_checkAssignable {property : Property} {value : TypedExpr} :
    (environment.checkAssignable property value span).ReportsOr fun _ => True := by
  unfold checkAssignable
  split
  · exact Attempt.reportsOr_ok trivial
  · exact Attempt.reportsOr_fail (by simp [Diagnostic.Cause.code])

end Environment

end ConfigScript
