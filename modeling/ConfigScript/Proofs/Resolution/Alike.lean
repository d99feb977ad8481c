import ConfigScript.Proofs.Resolution.Binding
import ConfigScript.Proofs.Resolution.Framed
import ConfigScript.Proofs.Resolution.Lookup

/-!
# What resolution asks of a value

Once an expression has been resolved, nothing but its type has a part in what a member of it means,
whether it may be assigned, and which function a call with it means. An operation in a block inside
the expression hence shows nowhere else.
-/

namespace ConfigScript

/-- Arguments that a function cannot tell apart. -/
def GivenArgument.Alike (left right : GivenArgument) : Prop :=
  left.name = right.name ∧ left.type = right.type

section Alike

variable {left right : List GivenArgument} (h : List.Forall₂ GivenArgument.Alike left right)

include h

theorem Assignment.bindNamed_alike (parameters : List Parameter) (start : Nat)
    (slots : Assignment) :
    bindNamed parameters (left.zipIdx start) slots =
      bindNamed parameters (right.zipIdx start) slots := by
  induction h generalizing start slots with
  | nil => rfl
  | cons hfirst hrest ih =>
    simp only [List.zipIdx_cons, bindNamed, hfirst.1]
    split
    · exact ih _ _
    · split
      · rfl
      · split
        · exact ih _ _
        · rfl

theorem Assignment.positionalIndices_alike (start : Nat) :
    positionalIndices (left.zipIdx start) = positionalIndices (right.zipIdx start) := by
  unfold positionalIndices
  induction h generalizing start with
  | nil => rfl
  | cons hfirst hrest ih => simp only [List.zipIdx_cons, List.filterMap_cons, hfirst.1, ih]

theorem GivenArgument.getElem?_alike (index : Nat) :
    Option.Rel GivenArgument.Alike left[index]? right[index]? := by
  induction h generalizing index with
  | nil => exact .none
  | cons hfirst hrest ih =>
    cases index with
    | zero => exact .some hfirst
    | succ index => exact ih index

theorem Assignment.checkSlot_alike (schema : Schema) (parameter : Parameter)
    (slot : Option Nat) :
    checkSlot schema left parameter slot = checkSlot schema right parameter slot := by
  cases slot with
  | none => rfl
  | some index =>
    unfold checkSlot
    rw [Option.bind_some, Option.bind_some]
    have halike := GivenArgument.getElem?_alike h index
    generalize left[index]? = first, right[index]? = second at halike
    cases halike with
    | none => rfl
    | some halike => simp only [halike.2]

theorem Candidate.accept_alike (schema : Schema) (candidate : Candidate) (hasBlock : Bool) :
    candidate.accept schema left hasBlock = candidate.accept schema right hasBlock := by
  have hpositional := Assignment.positionalIndices_alike h 0
  unfold Assignment.positionalIndices at hpositional
  unfold accept
  simp only [Assignment.bindNamed_alike h, Assignment.checkSlot_alike h, hpositional]

theorem selectCandidate_alike (schema : Schema) (name : String) (candidates : List Candidate)
    (hasBlock : Bool) :
    selectCandidate schema name candidates left hasBlock =
      selectCandidate schema name candidates right hasBlock := by
  unfold selectCandidate
  simp only [Candidate.accept_alike h]

end Alike

/-! ### One argument among others -/

/-- Given arguments, one of them with a gap. -/
structure GivenOutline where
  before : List GivenArgument
  label : Option String
  value : ExprOutline
  after : List GivenArgument

/-- A parameter that gets an argument among others that do. -/
structure BoundSlot where
  before : List BoundArgument
  parameter : Parameter
  after : List BoundArgument

def GivenOutline.fill (gap : List Operation) (given : GivenOutline) : List GivenArgument :=
  given.before ++ ⟨given.label, given.value.fill gap⟩ :: given.after

def BoundSlot.fill (value : TypedExpr) (slot : BoundSlot) : List BoundArgument :=
  slot.before ++ .mk slot.parameter value :: slot.after

theorem GivenOutline.alike_fill (given : GivenOutline) (gap other : List Operation) :
    List.Forall₂ GivenArgument.Alike (given.fill gap) (given.fill other) := by
  have hsame : ∀ arguments, List.Forall₂ GivenArgument.Alike arguments arguments :=
    fun arguments => List.forall₂_same.mpr fun _ _ => ⟨rfl, rfl⟩
  refine List.rel_append (hsame given.before) (.cons ⟨rfl, ?_⟩ (hsame given.after))
  rw [GivenArgument.type, GivenArgument.type, ExprOutline.type_fill, ExprOutline.type_fill]

namespace Assignment

variable {parameters : List Parameter} {assignment : Assignment}
  {before after : List GivenArgument} {label : Option String}

/-- An argument that no parameter gets has no part in what the parameters get. -/
theorem bound_of_not_mem (h : before.length ∉ assignment.indices) (value other : TypedExpr) :
    assignment.bound parameters (before ++ ⟨label, value⟩ :: after) =
      assignment.bound parameters (before ++ ⟨label, other⟩ :: after) := by
  have hslots : ∀ slot ∈ assignment,
      slot.bind ((before ++ ⟨label, value⟩ :: after)[·]?) =
        slot.bind ((before ++ ⟨label, other⟩ :: after)[·]?) := by
    intro slot hslot
    cases slot with
    | none => rfl
    | some index =>
      have hne : index ≠ before.length := by
        rintro rfl
        exact h (List.mem_filterMap.mpr ⟨_, hslot, rfl⟩)
      grind
  unfold bound
  apply List.filterMap_congr
  intro pair hpair
  dsimp only
  rw [hslots pair.2 (List.of_mem_zip hpair).2]

/-- An argument that just one parameter gets is in one place among those that are bound. What stands
beside it is read off with another value in its place. -/
theorem exists_slot (sample : TypedExpr) (hlength : assignment.length = parameters.length)
    (hmem : before.length ∈ assignment.indices) (hnodup : assignment.indices.Nodup) :
    ∃ slot : BoundSlot, ∀ value,
      assignment.bound parameters (before ++ ⟨label, value⟩ :: after) = slot.fill value := by
  induction parameters generalizing assignment with
  | nil =>
    obtain rfl := List.length_eq_zero_iff.mp hlength
    cases hmem
  | cons parameter parameters ih =>
    cases assignment with
    | nil => cases hmem
    | cons slot slots =>
      have hlater := @ih slots (by simpa using hlength)
      by_cases hslot : slot = some before.length
      · subst hslot
        have hrest : before.length ∉ indices slots := (List.nodup_cons.mp hnodup).1
        refine ⟨⟨[], parameter, bound parameters (before ++ ⟨label, sample⟩ :: after) slots⟩,
          fun value => ?_⟩
        rw [bound_cons, bound_of_not_mem hrest value sample]
        simp [BoundSlot.fill]
      · have hmem : before.length ∈ indices slots := by
          cases slot with
          | none => exact hmem
          | some index => grind [indices]
        have hnodup : (indices slots).Nodup := by
          cases slot with
          | none => exact hnodup
          | some index => exact (List.nodup_cons.mp hnodup).2
        obtain ⟨found, hfound⟩ := hlater hmem hnodup
        refine ⟨⟨((slot.bind ((before ++ ⟨label, sample⟩ :: after)[·]?)).map fun argument =>
          .mk parameter argument.value).toList ++ found.before, found.parameter, found.after⟩,
          fun value => ?_⟩
        rw [bound_cons, hfound value, BoundSlot.fill, BoundSlot.fill, List.append_assoc]
        congr 3
        cases slot with
        | none => rfl
        | some index => grind

end Assignment

namespace Environment

open Attempt

variable {environment : Environment} {name : String} {span : Span}

theorem memberOwner_fill (outline : ExprOutline) (gap : List Operation) :
    memberOwner (outline.fill gap) span = memberOwner (outline.fill []) span := by
  unfold memberOwner
  rw [ExprOutline.type_fill, ExprOutline.type_fill]

theorem memberProperty_fill (outline : ExprOutline) (gap : List Operation) :
    environment.memberProperty (outline.fill gap) name span =
      environment.memberProperty (outline.fill []) name span := by
  unfold memberProperty
  rw [memberOwner_fill]

theorem checkAssignable_fill (property : Property) (outline : ExprOutline)
    (gap : List Operation) :
    environment.checkAssignable property (outline.fill gap) span =
      environment.checkAssignable property (outline.fill []) span := by
  unfold checkAssignable
  rw [ExprOutline.type_fill, ExprOutline.type_fill]

theorem uniform_assignedProperty (owner : ExprOutline) :
    Uniform (fun gap (property : Property) => (owner.fill gap, property)) fun gap =>
      environment.assignedProperty (some (owner.fill gap)) name span := by
  have hnamed : Uniform (fun gap (property : Property) => (owner.fill gap, property)) fun gap =>
      environment.namedProperty (some (owner.fill gap)) name span := by
    simp only [namedProperty, memberProperty_fill owner]
    exact uniform_behind fun property _ => uniform_pure property fun _ => rfl
  simp only [assignedProperty_eq]
  apply hnamed.bind
  intro property
  by_cases hreadOnly : property.readOnly
  · simp only [hreadOnly, if_true]
    exact uniform_fail
  · simp only [hreadOnly]
    exact uniform_pure property fun _ => rfl

theorem uniform_callTarget (receiver : ExprOutline) :
    Uniform (fun gap (candidates : List Candidate) => (some (receiver.fill gap), candidates))
      fun gap => environment.callTarget (some (receiver.fill gap)) name span := by
  have hnamed :
      Uniform (fun gap (candidates : List Candidate) => (some (receiver.fill gap), candidates))
        fun gap => environment.namedFunctions (some (receiver.fill gap)) name span := by
    simp only [namedFunctions, memberOwner_fill receiver]
    exact uniform_behind fun owner _ => uniform_pure _ fun _ => rfl
  simp only [callTarget_eq]
  apply hnamed.bind
  intro candidates
  by_cases hnone : candidates.isEmpty
  · simp only [hnone, if_true]
    exact uniform_fail
  · simp only [hnone]
    exact uniform_pure candidates fun _ => rfl

/-- The same function is chosen whatever stands in the gap, and the argument with the gap is bound
to the same parameter. -/
theorem uniform_choose (given : GivenOutline) {candidates : List Candidate} {hasBlock : Bool} :
    Uniform (fun gap (choice : Candidate × BoundSlot) =>
        (choice.1, choice.2.fill (given.value.fill gap)))
      fun gap => environment.choose name candidates (given.fill gap) hasBlock span := by
  unfold choose
  simp only [selectCandidate_alike (given.alike_fill _ [])]
  cases hselected : selectCandidate environment.schema name candidates (given.fill []) hasBlock with
  | error cause => exact uniform_fail
  | ok choice =>
    obtain ⟨candidate, assignment⟩ := choice
    obtain ⟨-, haccept⟩ := selectCandidate_eq_ok hselected
    obtain ⟨-, hlength, -, hindices⟩ := Candidate.accept_eq_ok haccept
    have hmem : given.before.length ∈ assignment.indices := by
      apply hindices.mem_iff.mpr
      simp [GivenOutline.fill]
    have hnodup : assignment.indices.Nodup := hindices.nodup_iff.mpr List.nodup_range
    obtain ⟨slot, hslot⟩ := @Assignment.exists_slot candidate.parameters assignment given.before
      given.after given.label (given.value.fill []) hlength hmem hnodup
    exact ⟨.ok (candidate, slot), fun gap => congrArg (fun bound => Attempt.ok (candidate, bound))
      (hslot (given.value.fill gap))⟩

end Environment

end ConfigScript
