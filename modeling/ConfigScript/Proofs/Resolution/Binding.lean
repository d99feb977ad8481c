import ConfigScript.Proofs.Fallible
import ConfigScript.Resolution.Binding

/-!
# Accepted calls

A function that accepts a call gives every argument of the call to one of its parameters, leaves
out optional parameters only, and gets arguments of the types that it asks for.
-/

namespace ConfigScript

/-- Arguments for the parameters of a function in their order. A parameter is passed over only if
it is optional. -/
inductive Schema.Binds (schema : Schema) : List Parameter → List BoundArgument → Prop where
  | nil : Binds schema [] []
  | given {parameter : Parameter} {value : TypedExpr} {parameters : List Parameter}
      {arguments : List BoundArgument}
      (htype : schema.isAssignable parameter.type value.type = true)
      (hrest : Binds schema parameters arguments) :
      Binds schema (parameter :: parameters) (.mk parameter value :: arguments)
  | omitted {parameter : Parameter} {parameters : List Parameter}
      {arguments : List BoundArgument} (hoptional : parameter.optional = true)
      (hrest : Binds schema parameters arguments) :
      Binds schema (parameter :: parameters) arguments

namespace Assignment

/-- The positions of the arguments that an assignment gives to parameters. -/
def indices (assignment : Assignment) : List Nat :=
  assignment.filterMap id

theorem length_bindNamed {parameters : List Parameter} {arguments : List (GivenArgument × Nat)}
    {slots assignment : Assignment} (h : bindNamed parameters arguments slots = .ok assignment) :
    assignment.length = slots.length := by
  induction arguments generalizing slots with
  | nil => exact congrArg List.length (Except.ok.inj h).symm
  | cons argument arguments ih =>
    unfold bindNamed at h
    split at h
    · exact ih h
    · split at h
      · cases h
      · split at h
        · simpa using ih h
        · cases h

theorem length_fill {slots assignment : Assignment} {indices : List Nat}
    (h : fill slots indices = .ok assignment) : assignment.length = slots.length := by
  induction slots generalizing indices assignment with
  | nil =>
    cases indices with
    | nil => simp_all [fill]
    | cons index indices => simp [fill] at h
  | cons slot slots ih =>
    cases indices with
    | nil => simp_all [fill]
    | cons index indices =>
      cases slot with
      | none =>
        obtain ⟨rest, hrest, rfl⟩ := Fallible.map_eq_ok.mp h
        simpa using ih hrest
      | some other =>
        obtain ⟨rest, hrest, rfl⟩ := Fallible.map_eq_ok.mp h
        simpa using ih hrest

/-- Filling an empty slot adds its index to those that are assigned. -/
theorem indices_set_perm {slots : Assignment} {position index : Nat}
    (h : slots[position]? = some none) :
    (indices (slots.set position (some index))).Perm (index :: indices slots) := by
  induction slots generalizing position with
  | nil => simp at h
  | cons slot slots ih =>
    cases position with
    | zero =>
      obtain rfl : slot = none := by simpa using h
      simp [indices]
    | succ position =>
      have hrest := ih (by simpa using h)
      cases slot with
      | none => simpa [indices] using hrest
      | some other =>
        have hswap := (hrest.cons other).trans (.swap index other _)
        simpa [indices] using hswap

/-- The named ones among numbered arguments, by their numbers. -/
def namedIndices (arguments : List (GivenArgument × Nat)) : List Nat :=
  arguments.filterMap fun (argument, index) => if argument.name.isNone then none else some index

def positionalIndices (arguments : List (GivenArgument × Nat)) : List Nat :=
  arguments.filterMap fun (argument, index) => if argument.name.isNone then some index else none

theorem named_append_positional_perm {arguments : List (GivenArgument × Nat)} :
    (namedIndices arguments ++ positionalIndices arguments).Perm (arguments.map Prod.snd) := by
  induction arguments with
  | nil => simp [namedIndices, positionalIndices]
  | cons argument arguments ih =>
    obtain ⟨⟨name, value⟩, index⟩ := argument
    cases name with
    | none => simpa [namedIndices, positionalIndices] using List.perm_middle.trans (ih.cons index)
    | some name => simpa [namedIndices, positionalIndices] using ih

theorem indices_bindNamed_perm {parameters : List Parameter}
    {arguments : List (GivenArgument × Nat)} {slots assignment : Assignment}
    (h : bindNamed parameters arguments slots = .ok assignment) :
    assignment.indices.Perm (namedIndices arguments ++ slots.indices) := by
  induction arguments generalizing slots with
  | nil => simp_all [bindNamed, namedIndices]
  | cons argument arguments ih =>
    obtain ⟨⟨name, value⟩, index⟩ := argument
    unfold bindNamed at h
    cases name with
    | none => simpa [namedIndices] using ih h
    | some name =>
      dsimp only at h
      split at h
      · cases h
      · split at h
        · rename_i hfree
          have hset : (namedIndices arguments ++ indices (slots.set _ (some index))).Perm _ :=
            (indices_set_perm hfree).append_left _
          simpa [namedIndices] using ((ih h).trans hset).trans List.perm_middle
        · cases h

theorem indices_fill_perm {slots assignment : Assignment} {indices : List Nat}
    (h : fill slots indices = .ok assignment) :
    assignment.indices.Perm (slots.indices ++ indices) := by
  induction slots generalizing indices assignment with
  | nil =>
    cases indices with
    | nil => simp_all [fill]
    | cons index indices => simp [fill] at h
  | cons slot slots ih =>
    cases indices with
    | nil => simp_all [fill]
    | cons index indices =>
      cases slot with
      | none =>
        obtain ⟨rest, hrest, rfl⟩ := Fallible.map_eq_ok.mp h
        simpa [Assignment.indices] using ((ih hrest).cons index).trans List.perm_middle.symm
      | some other =>
        obtain ⟨rest, hrest, rfl⟩ := Fallible.map_eq_ok.mp h
        simpa [Assignment.indices] using (ih hrest).cons other

theorem bound_cons {parameter : Parameter} {parameters : List Parameter}
    {arguments : List GivenArgument} {slot : Option Nat} {slots : Assignment} :
    Assignment.bound (parameter :: parameters) arguments (slot :: slots) =
      ((slot.bind (arguments[·]?)).map fun argument => .mk parameter argument.value).toList ++
        slots.bound parameters arguments := by
  unfold bound
  rw [List.zip_cons_cons, List.filterMap_cons]
  cases hargument : slot.bind (arguments[·]?) <;> simp [hargument]

/-- Checked slots are a binding, in which the arguments stand in the order of the parameters. -/
theorem binds_bound {schema : Schema} {parameters : List Parameter}
    {arguments : List GivenArgument} {assignment : Assignment}
    (hlength : assignment.length = parameters.length)
    (hcheck : ∀ pair ∈ parameters.zip assignment,
      checkSlot schema arguments pair.1 pair.2 = .ok ()) :
    schema.Binds parameters (assignment.bound parameters arguments) := by
  induction parameters generalizing assignment with
  | nil => exact .nil
  | cons parameter parameters ih =>
    cases assignment with
    | nil => simp at hlength
    | cons slot slots =>
      have hrest := ih (by simpa using hlength) fun pair hpair =>
        hcheck pair (List.mem_cons_of_mem _ hpair)
      have hfirst := hcheck (parameter, slot) List.mem_cons_self
      unfold checkSlot at hfirst
      split at hfirst
      · rename_i hnone
        have hoptional : parameter.optional = true := by simpa using hfirst
        simpa [bound_cons, hnone] using Schema.Binds.omitted hoptional hrest
      · rename_i argument hsome
        have htype : schema.isAssignable parameter.type argument.value.type = true := by
          by_contra hwrong
          rw [GivenArgument.type, if_neg hwrong] at hfirst
          cases hfirst
        simpa [bound_cons, hsome] using Schema.Binds.given htype hrest

theorem values_bound {parameters : List Parameter} {arguments : List GivenArgument}
    {assignment : Assignment} (hlength : assignment.length = parameters.length) :
    (assignment.bound parameters arguments).map BoundArgument.value =
      (assignment.indices.filterMap (arguments[·]?)).map GivenArgument.value := by
  induction parameters generalizing assignment with
  | nil => simp_all [bound, indices]
  | cons parameter parameters ih =>
    cases assignment with
    | nil => simp at hlength
    | cons slot slots =>
      have hrest := @ih slots (by simpa using hlength)
      rw [bound_cons, List.map_append, hrest]
      cases slot with
      | none => rfl
      | some index =>
        cases hargument : arguments[index]? <;> simp [indices, hargument, BoundArgument.value]

end Assignment

namespace Candidate

variable {schema : Schema} {candidate : Candidate} {arguments : List GivenArgument}
  {hasBlock : Bool} {assignment : Assignment}

/-- What is true of the assignment with which a function accepts a call. -/
theorem accept_eq_ok (h : candidate.accept schema arguments hasBlock = .ok assignment) :
    candidate.checkBlock hasBlock = .ok () ∧
      assignment.length = candidate.parameters.length ∧
      (∀ pair ∈ candidate.parameters.zip assignment,
        Assignment.checkSlot schema arguments pair.1 pair.2 = .ok ()) ∧
      assignment.indices.Perm (List.range arguments.length) := by
  obtain ⟨_, hblock, h⟩ := Fallible.bind_eq_ok.mp h
  obtain ⟨named, hnamed, h⟩ := Fallible.bind_eq_ok.mp h
  obtain ⟨filled, hfilled, h⟩ := Fallible.bind_eq_ok.mp h
  obtain ⟨_, hchecks, h⟩ := Fallible.bind_eq_ok.mp h
  obtain rfl := Fallible.pure_eq_ok.mp h
  refine ⟨hblock, ?_, Fallible.forIn_eq_ok (fun _ => rfl) hchecks, ?_⟩
  · rw [Assignment.length_fill hfilled, Assignment.length_bindNamed hnamed, List.length_map]
  · have hempty : Assignment.indices (candidate.parameters.map fun _ => none) = [] := by
      simp [Assignment.indices, List.filterMap_map]
    have hnamedIndices := Assignment.indices_bindNamed_perm hnamed
    rw [hempty, List.append_nil] at hnamedIndices
    have hall := (hnamedIndices.append_right
      (Assignment.positionalIndices arguments.zipIdx)).trans Assignment.named_append_positional_perm
    rw [List.zipIdx_map_snd, ← List.range_eq_range'] at hall
    exact (Assignment.indices_fill_perm hfilled).trans hall

theorem binds_of_accept (h : candidate.accept schema arguments hasBlock = .ok assignment) :
    schema.Binds candidate.parameters (assignment.bound candidate.parameters arguments) := by
  obtain ⟨-, hlength, hchecks, -⟩ := accept_eq_ok h
  exact Assignment.binds_bound hlength hchecks

/-- No argument of an accepted call is lost, and none is used twice. -/
theorem values_perm_of_accept (h : candidate.accept schema arguments hasBlock = .ok assignment) :
    ((assignment.bound candidate.parameters arguments).map BoundArgument.value).Perm
      (arguments.map GivenArgument.value) := by
  obtain ⟨-, hlength, -, hindices⟩ := accept_eq_ok h
  have hrange : (List.range arguments.length).filterMap (arguments[·]?) = arguments := by
    clear h hindices hlength
    induction arguments with
    | nil => rfl
    | cons argument arguments ih =>
      simpa [List.range_succ_eq_map, List.filterMap_map, Function.comp_def] using ih
  rw [Assignment.values_bound hlength]
  exact (hrange ▸ hindices.filterMap _).map _

end Candidate

theorem selectCandidate_eq_ok {schema : Schema} {name : String} {candidates : List Candidate}
    {arguments : List GivenArgument} {hasBlock : Bool} {candidate : Candidate}
    {assignment : Assignment}
    (h : selectCandidate schema name candidates arguments hasBlock = .ok (candidate, assignment)) :
    candidate ∈ candidates ∧ candidate.accept schema arguments hasBlock = .ok assignment := by
  unfold selectCandidate at h
  dsimp only at h
  split at h
  · rename_i choice haccepted
    obtain rfl := Except.ok.inj h
    have hmem : (candidate, assignment) ∈ [(candidate, assignment)] := List.mem_singleton_self _
    rw [← haccepted] at hmem
    simp only [List.mem_filterMap, List.mem_map] at hmem
    obtain ⟨_, ⟨found, hfound, rfl⟩, hassignment⟩ := hmem
    obtain ⟨accepted, hresult, heq⟩ := Option.map_eq_some_iff.mp hassignment
    obtain ⟨rfl, rfl⟩ := Prod.mk.inj heq
    exact ⟨hfound, Fallible.toOption_eq_some.mp hresult⟩
  · cases h
  · split at h
    · cases h
    · split at h <;> cases h

end ConfigScript
