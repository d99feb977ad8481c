import Mathlib.Data.List.Sort
import ConfigScript.Proofs.Resolution.Binding

/-!
# Where arguments go

The rule by which a function accepts a call, said without the order in which the arguments are
looked at: each named argument belongs to the first parameter of its name, and the positional ones
take the leftmost of the other parameters. There is at most one assignment that obeys the rule, and
a function that accepts a call finds it.
-/

namespace ConfigScript

/-- The place of the first parameter of a name. -/
structure Parameter.FirstNamed (parameters : List Parameter) (name : String) (position : Nat) :
    Prop where
  named : ∃ parameter, parameters[position]? = some parameter ∧ parameter.name = name
  first : ∀ earlier < position, ∀ parameter, parameters[earlier]? = some parameter →
    parameter.name ≠ name

/-- Whether the argument at a place is given without a name. -/
def GivenArgument.Positional (arguments : List GivenArgument) (index : Nat) : Prop :=
  ∃ argument, arguments[index]? = some argument ∧ argument.name = none

namespace Assignment

/-- Whether the parameter at a place gets the argument at another. -/
def Gives (assignment : Assignment) (position index : Nat) : Prop :=
  assignment[position]? = some (some index)

/-- Whether the parameter at a place gets no argument. -/
def Leaves (assignment : Assignment) (position : Nat) : Prop :=
  assignment[position]? = some none

end Assignment

/-- Whether an assignment of the arguments of a call to the parameters of a function obeys the rule
and the function takes the call with it. -/
structure Candidate.Admits (schema : Schema) (candidate : Candidate)
    (arguments : List GivenArgument) (hasBlock : Bool) (assignment : Assignment) : Prop where
  noBlock : candidate.semantics.blockRequirement = .notAllowed → hasBlock = false
  someBlock : candidate.semantics.blockRequirement = .required → hasBlock = true
  length : assignment.length = candidate.parameters.length
  within : ∀ {position index}, assignment.Gives position index → index < arguments.length
  once : ∀ index < arguments.length, ∃! position, assignment.Gives position index
  named : ∀ {position index argument name}, assignment.Gives position index →
    arguments[index]? = some argument → argument.name = some name →
      Parameter.FirstNamed candidate.parameters name position
  inOrder : ∀ {position other index later}, GivenArgument.Positional arguments index →
    GivenArgument.Positional arguments later → assignment.Gives position index →
      assignment.Gives other later → index < later → position < other
  leftmost : ∀ {position index}, GivenArgument.Positional arguments index →
    assignment.Gives position index → ∀ earlier < position, ¬ assignment.Leaves earlier
  optional : ∀ {position parameter}, assignment.Leaves position →
    candidate.parameters[position]? = some parameter → parameter.optional = true
  types : ∀ {position index parameter argument}, assignment.Gives position index →
    candidate.parameters[position]? = some parameter → arguments[index]? = some argument →
      schema.isAssignable parameter.type argument.type = true

/-- Whether a function takes a call with some assignment. -/
def Candidate.Accepts (schema : Schema) (candidate : Candidate) (arguments : List GivenArgument)
    (hasBlock : Bool) : Prop :=
  ∃ assignment, candidate.Admits schema arguments hasBlock assignment

theorem Parameter.findIdx?_eq_some_iff {parameters : List Parameter} {name : String}
    {position : Nat} : parameters.findIdx? (·.name == name) = some position ↔
      Parameter.FirstNamed parameters name position := by
  rw [List.findIdx?_eq_some_iff_getElem]
  constructor
  · rintro ⟨hlt, hname, hfirst⟩
    refine ⟨⟨_, List.getElem?_eq_getElem hlt, by simpa using hname⟩, ?_⟩
    intro earlier hearlier parameter hparameter
    obtain ⟨hbound, rfl⟩ := List.getElem?_eq_some_iff.mp hparameter
    simpa using hfirst earlier hearlier
  · rintro ⟨⟨parameter, hparameter, hname⟩, hfirst⟩
    obtain ⟨hlt, rfl⟩ := List.getElem?_eq_some_iff.mp hparameter
    refine ⟨hlt, by simpa using hname, fun earlier hearlier => ?_⟩
    simpa using hfirst earlier hearlier _ (List.getElem?_eq_getElem (Nat.lt_trans hearlier hlt))

namespace Assignment

variable {parameters : List Parameter} {slots assignment : Assignment} {position index : Nat}

theorem Gives.eq {other : Nat} (h : assignment.Gives position index)
    (hother : assignment.Gives position other) : index = other := by
  simpa using Option.some.inj (h.symm.trans hother)

theorem not_leaves_taken {given : Nat} : ¬ Leaves (some given :: assignment) 0 := nofun

theorem Gives.not_leaves (h : assignment.Gives position index) : ¬ assignment.Leaves position := by
  intro hleaves
  cases h.symm.trans hleaves

/-- A slot that was empty now holds its argument, and the others hold what they held. -/
theorem gives_set (h : slots.Leaves position) {other later : Nat} :
    Gives (slots.set position (some index)) other later ↔
      slots.Gives other later ∨ other = position ∧ later = index := by
  have hlt : position < slots.length := (List.getElem?_eq_some_iff.mp h).1
  unfold Gives
  by_cases heq : other = position
  · subst heq
    have hnone : slots[other]? = some none := h
    rw [List.getElem?_set_self hlt, hnone]
    simp [eq_comm]
  · simp [List.getElem?_set_ne (Ne.symm heq), heq]

theorem not_gives_empty : ¬ Gives (parameters.map fun _ => none) position index := by
  unfold Gives
  rw [List.getElem?_map]
  simp

/-- Where no argument is given twice, an argument has one place. -/
theorem Gives.position_eq (hnodup : assignment.indices.Nodup) {other : Nat}
    (h : assignment.Gives position index) (hother : assignment.Gives other index) :
    position = other := by
  have hpairs := List.pairwise_filterMap.mp hnodup
  obtain ⟨hfirst, hfirstEq⟩ := List.getElem?_eq_some_iff.mp h
  obtain ⟨hsecond, hsecondEq⟩ := List.getElem?_eq_some_iff.mp hother
  rcases Nat.lt_trichotomy position other with hlt | heq | hgt
  · exact absurd rfl (List.pairwise_iff_getElem.mp hpairs _ _ hfirst hsecond hlt index hfirstEq
      index hsecondEq)
  · exact heq
  · exact absurd rfl (List.pairwise_iff_getElem.mp hpairs _ _ hsecond hfirst hgt index hsecondEq
      index hfirstEq)

/-! ### What the two passes come to -/

/-- Behind the first pass each named argument stands at the first parameter of its name. -/
theorem gives_bindNamed {arguments : List (GivenArgument × Nat)}
    (h : bindNamed parameters arguments slots = .ok assignment) :
    assignment.Gives position index ↔ slots.Gives position index ∨
      ∃ argument name, (argument, index) ∈ arguments ∧ argument.name = some name ∧
        Parameter.FirstNamed parameters name position := by
  induction arguments generalizing slots with
  | nil =>
    obtain rfl := Except.ok.inj h
    simp
  | cons argument arguments ih =>
    obtain ⟨argument, place⟩ := argument
    unfold bindNamed at h
    cases hname : argument.name with
    | none =>
      rw [hname] at h
      rw [ih h]
      refine or_congr_right ⟨?_, ?_⟩
      · rintro ⟨other, name, hmem, hother⟩
        exact ⟨other, name, List.mem_cons_of_mem _ hmem, hother⟩
      · rintro ⟨other, name, hmem, hother⟩
        rcases List.mem_cons.mp hmem with heq | hmem
        · obtain ⟨rfl, -⟩ := Prod.mk.inj heq
          cases hname.symm.trans hother.1
        · exact ⟨other, name, hmem, hother⟩
    | some name =>
      rw [hname] at h
      dsimp only at h
      split at h
      · cases h
      · rename_i target htarget
        split at h
        · rename_i hfree
          rw [ih h, gives_set hfree, or_assoc]
          refine or_congr_right ⟨?_, ?_⟩
          · rintro (⟨rfl, rfl⟩ | ⟨other, spelled, hmem, hother⟩)
            · exact ⟨argument, name, List.mem_cons_self, hname,
                Parameter.findIdx?_eq_some_iff.mp htarget⟩
            · exact ⟨other, spelled, List.mem_cons_of_mem _ hmem, hother⟩
          · rintro ⟨other, spelled, hmem, hother, hfirst⟩
            rcases List.mem_cons.mp hmem with heq | hmem
            · obtain ⟨rfl, rfl⟩ := Prod.mk.inj heq
              obtain rfl := Option.some.inj (hname.symm.trans hother)
              rw [← Parameter.findIdx?_eq_some_iff, htarget] at hfirst
              exact .inl ⟨(Option.some.inj hfirst).symm, rfl⟩
            · exact .inr ⟨other, spelled, hmem, hother, hfirst⟩
        · cases h

/-- What the second pass makes of the slots: the empty ones are filled from the left. -/
structure Fills (slots : Assignment) (indices : List Nat) (assignment : Assignment) : Prop where
  keeps : ∀ {position index}, slots.Gives position index → assignment.Gives position index
  only : ∀ {position index}, assignment.Gives position index →
    slots.Gives position index ∨ slots.Leaves position ∧ index ∈ indices
  leftmost : ∀ {position index}, slots.Leaves position → assignment.Gives position index →
    ∀ earlier < position, ¬ assignment.Leaves earlier
  inOrder : ∀ {position other index later}, slots.Leaves position → slots.Leaves other →
    assignment.Gives position index → assignment.Gives other later → position < other →
      index < later

theorem fills_nil : Fills slots [] slots where
  keeps h := h
  only h := .inl h
  leftmost hleaves h := (h.not_leaves hleaves).elim
  inOrder hleaves _ h := (h.not_leaves hleaves).elim

/-- A slot that is taken stays as it is. -/
theorem Fills.taken {indices : List Nat} {given : Nat} (h : Fills slots indices assignment) :
    Fills (some given :: slots) indices (some given :: assignment) where
  keeps {position index} hgives := by
    cases position with
    | zero => exact hgives
    | succ position => exact h.keeps hgives
  only {position index} hgives := by
    cases position with
    | zero => exact .inl hgives
    | succ position => exact h.only hgives
  leftmost {position index} hleaves hgives earlier hearlier := by
    cases position with
    | zero => exact absurd hearlier (Nat.not_lt_zero _)
    | succ position =>
      cases earlier with
      | zero => exact not_leaves_taken
      | succ earlier => exact h.leftmost hleaves hgives earlier (by omega)
  inOrder {position other index later} hleaves hother hgives hlater hlt := by
    cases position with
    | zero => cases hleaves
    | succ position =>
      cases other with
      | zero => cases hother
      | succ other => exact h.inOrder hleaves hother hgives hlater (by omega)

/-- An empty slot takes the first of the arguments that are left. -/
theorem Fills.fresh {indices : List Nat} {given : Nat} (h : Fills slots indices assignment)
    (hgiven : ∀ later ∈ indices, given < later) :
    Fills (none :: slots) (given :: indices) (some given :: assignment) where
  keeps {position index} hgives := by
    cases position with
    | zero => cases hgives
    | succ position => exact h.keeps hgives
  only {position index} hgives := by
    cases position with
    | zero =>
      obtain rfl : given = index := by simpa [Gives] using hgives
      exact .inr ⟨rfl, List.mem_cons_self⟩
    | succ position =>
      exact (h.only hgives).imp_right fun hrest =>
        ⟨hrest.1, List.mem_cons_of_mem _ hrest.2⟩
  leftmost {position index} hleaves hgives earlier hearlier := by
    cases position with
    | zero => exact absurd hearlier (Nat.not_lt_zero _)
    | succ position =>
      cases earlier with
      | zero => exact not_leaves_taken
      | succ earlier => exact h.leftmost hleaves hgives earlier (by omega)
  inOrder {position other index later} hleaves hother hgives hlater hlt := by
    cases other with
    | zero => exact absurd hlt (Nat.not_lt_zero _)
    | succ other =>
      cases position with
      | succ position => exact h.inOrder hleaves hother hgives hlater (by omega)
      | zero =>
        obtain rfl : given = index := by simpa [Gives] using hgives
        rcases h.only hlater with htaken | ⟨-, hmem⟩
        · exact (htaken.not_leaves hother).elim
        · exact hgiven later hmem

theorem fills_of_fill {indices : List Nat} (h : fill slots indices = .ok assignment)
    (hsorted : indices.Pairwise (· < ·)) : Fills slots indices assignment := by
  induction slots generalizing indices assignment with
  | nil =>
    cases indices with
    | nil =>
      obtain rfl := Except.ok.inj h
      exact fills_nil
    | cons index indices => simp [fill] at h
  | cons slot slots ih =>
    cases indices with
    | nil =>
      obtain rfl : slot :: slots = assignment := by simpa [fill] using h
      exact fills_nil
    | cons index indices =>
      cases slot with
      | none =>
        obtain ⟨rest, hrest, rfl⟩ := Fallible.map_eq_ok.mp h
        obtain ⟨hfirst, hlater⟩ := List.pairwise_cons.mp hsorted
        exact (ih hrest hlater).fresh hfirst
      | some given =>
        obtain ⟨rest, hrest, rfl⟩ := Fallible.map_eq_ok.mp h
        exact (ih hrest hsorted).taken

theorem mem_indices_iff :
    index ∈ assignment.indices ↔ ∃ position, assignment.Gives position index := by
  rw [indices, List.mem_filterMap]
  constructor
  · rintro ⟨slot, hmem, rfl⟩
    exact List.mem_iff_getElem?.mp hmem
  · rintro ⟨position, hgives⟩
    exact ⟨_, List.mem_of_getElem? hgives, rfl⟩

/-! ### An assignment that obeys the rule is found -/

/-- The slots of an assignment that hold arguments of one kind. -/
def keep (kind : Nat → Bool) (assignment : Assignment) : Assignment :=
  assignment.map (Option.filter kind)

theorem gives_keep {kind : Nat → Bool} :
    (assignment.keep kind).Gives position index ↔
      assignment.Gives position index ∧ kind index = true := by
  unfold Gives keep
  rw [List.getElem?_map]
  cases assignment[position]? with
  | none => simp
  | some slot => simp [Option.filter_eq_some_iff]

theorem leaves_keep {kind : Nat → Bool} :
    (assignment.keep kind).Leaves position ↔ position < assignment.length ∧
      ∀ index, assignment.Gives position index → kind index = false := by
  unfold Leaves Gives keep
  rw [List.getElem?_map]
  by_cases hlt : position < assignment.length
  · simp [hlt, Option.filter_eq_none_iff]
  · simp [hlt]

theorem ext_gives {other : Assignment} (hlength : assignment.length = other.length)
    (h : ∀ position index, assignment.Gives position index ↔ other.Gives position index) :
    assignment = other := by
  apply List.ext_getElem hlength
  intro position hfirst hsecond
  apply Option.ext
  intro index
  have hgives := h position index
  simpa [Gives, List.getElem?_eq_getElem, hfirst, hsecond] using hgives

theorem fill_taken {given : Nat} {indices : List Nat} :
    fill (some given :: slots) indices = (some given :: ·) <$> fill slots indices := by
  cases indices with
  | nil => simp [fill, Functor.map, Except.map]
  | cons => rfl

theorem keep_congr {kind other : Nat → Bool}
    (h : ∀ position index, assignment.Gives position index → kind index = other index) :
    assignment.keep kind = assignment.keep other := by
  refine ext_gives (by simp [keep]) fun position index => ?_
  rw [gives_keep, gives_keep, and_congr_right_iff]
  intro hgives
  rw [h position index hgives]

/-- The second pass gives back what the first pass had left out, when no slot in front of it is
empty. -/
theorem fill_keep (kind : Nat → Bool)
    (hleft : ∀ position index, assignment.Gives position index → kind index = false →
      ∀ earlier < position, ¬ assignment.Leaves earlier) :
    fill (assignment.keep kind) (assignment.indices.filter (!kind ·)) = .ok assignment := by
  induction assignment with
  | nil => rfl
  | cons slot slots ih =>
    have hlater := ih fun position index hgives hkind earlier hearlier =>
      hleft (position + 1) index hgives hkind (earlier + 1) (Nat.succ_lt_succ hearlier)
    cases slot with
    | some index =>
      cases hkind : kind index with
      | true =>
        have hkept : keep kind (some index :: slots) = some index :: keep kind slots := by
          simp [keep, hkind]
        have hindices : (indices (some index :: slots)).filter (!kind ·) =
            (indices slots).filter (!kind ·) := by
          simp [indices, hkind]
        rw [hkept, hindices, fill_taken, hlater]
        rfl
      | false =>
        have hkept : keep kind (some index :: slots) = none :: keep kind slots := by
          simp [keep, hkind]
        have hindices : (indices (some index :: slots)).filter (!kind ·) =
            index :: (indices slots).filter (!kind ·) := by
          simp [indices, hkind]
        rw [hkept, hindices, fill, hlater]
        rfl
    | none =>
      -- Behind an empty slot everything was kept.
      have hall : ∀ index ∈ indices slots, kind index = true := by
        intro index hmem
        obtain ⟨position, hgives⟩ := mem_indices_iff.mp hmem
        by_contra hkind
        exact hleft (position + 1) index hgives (by simpa using hkind) 0 (Nat.succ_pos _) rfl
      have hnone : (indices (none :: slots)).filter (!kind ·) = [] := by
        rw [List.filter_eq_nil_iff]
        intro index hmem
        simpa using hall index hmem
      have hkept : keep kind (none :: slots) = none :: slots := by
        refine ext_gives (by simp [keep]) fun position index => ?_
        rw [gives_keep, and_iff_left_iff_imp]
        intro hgives
        refine hall index (mem_indices_iff.mpr ?_)
        cases position with
        | zero => cases hgives
        | succ position => exact ⟨position, hgives⟩
      rw [hnone, hkept, fill]

end Assignment

namespace Candidate

variable {schema : Schema} {candidate : Candidate} {arguments : List GivenArgument}
  {hasBlock : Bool} {assignment : Assignment}

theorem checkBlock_eq_ok : candidate.checkBlock hasBlock = .ok () ↔
    (candidate.semantics.blockRequirement = .notAllowed → hasBlock = false) ∧
      (candidate.semantics.blockRequirement = .required → hasBlock = true) := by
  unfold checkBlock
  cases candidate.semantics.blockRequirement <;> cases hasBlock <;> simp

theorem checkSlot_eq_ok {parameter : Parameter} {slot : Option Nat} :
    Assignment.checkSlot schema arguments parameter slot = .ok () ↔
      (slot.bind (arguments[·]?) = none → parameter.optional = true) ∧
        ∀ argument, slot.bind (arguments[·]?) = some argument →
          schema.isAssignable parameter.type argument.type = true := by
  unfold Assignment.checkSlot
  cases slot.bind (arguments[·]?) with
  | none => simp
  | some argument => simp

theorem mem_zipIdx {argument : GivenArgument} {index : Nat} :
    (argument, index) ∈ arguments.zipIdx ↔ arguments[index]? = some argument := by
  simp [List.mem_zipIdx_iff_getElem?]

theorem mem_positionalIndices {index : Nat} :
    index ∈ Assignment.positionalIndices arguments.zipIdx ↔
      GivenArgument.Positional arguments index := by
  unfold Assignment.positionalIndices GivenArgument.Positional
  simp only [List.mem_filterMap, Prod.exists, mem_zipIdx]
  constructor
  · rintro ⟨argument, place, hargument, hplace⟩
    split at hplace
    · rename_i hname
      obtain rfl := Option.some.inj hplace
      exact ⟨argument, hargument, by simpa using hname⟩
    · cases hplace
  · rintro ⟨argument, hargument, hname⟩
    exact ⟨argument, index, hargument, by simp [hname]⟩

theorem pairwise_positionalIndices :
    (Assignment.positionalIndices arguments.zipIdx).Pairwise (· < ·) := by
  have hrange : (arguments.zipIdx.map Prod.snd).Pairwise (· < ·) := by
    rw [List.zipIdx_map_snd]
    exact List.pairwise_lt_range'
  unfold Assignment.positionalIndices
  rw [List.pairwise_filterMap]
  refine (List.pairwise_map.mp hrange).imp ?_
  intro first second hlt index hindex later hlater
  simp only [Option.ite_none_right_eq_some, Option.some.injEq] at hindex hlater
  rw [← hindex.2, ← hlater.2]
  exact hlt

/-- The steps by which a function accepts a call. -/
theorem accept_eq_ok_iff : candidate.accept schema arguments hasBlock = .ok assignment ↔
    candidate.checkBlock hasBlock = .ok () ∧
      (∃ slots, Assignment.bindNamed candidate.parameters arguments.zipIdx
          (candidate.parameters.map fun _ => none) = .ok slots ∧
        Assignment.fill slots (Assignment.positionalIndices arguments.zipIdx) = .ok assignment) ∧
      ∀ pair ∈ candidate.parameters.zip assignment,
        Assignment.checkSlot schema arguments pair.1 pair.2 = .ok () := by
  constructor
  · intro h
    obtain ⟨_, hblock, h⟩ := Fallible.bind_eq_ok.mp h
    obtain ⟨slots, hslots, h⟩ := Fallible.bind_eq_ok.mp h
    obtain ⟨filled, hfilled, h⟩ := Fallible.bind_eq_ok.mp h
    obtain ⟨_, hchecks, h⟩ := Fallible.bind_eq_ok.mp h
    obtain rfl := Fallible.pure_eq_ok.mp h
    exact ⟨hblock, ⟨slots, hslots, hfilled⟩, Fallible.forIn_eq_ok (fun _ => rfl) hchecks⟩
  · rintro ⟨hblock, ⟨slots, hslots, hfilled⟩, hchecks⟩
    refine Fallible.bind_eq_ok.mpr ⟨(), hblock, Fallible.bind_eq_ok.mpr ⟨slots, hslots, ?_⟩⟩
    refine Fallible.bind_eq_ok.mpr ⟨assignment, hfilled, ?_⟩
    exact Fallible.bind_eq_ok.mpr ⟨⟨⟩, Fallible.forIn_ok (fun _ => rfl) hchecks, rfl⟩

/-- An assignment with which a function accepts a call obeys the rule. -/
theorem admits_of_accept (h : candidate.accept schema arguments hasBlock = .ok assignment) :
    candidate.Admits schema arguments hasBlock assignment := by
  obtain ⟨-, hlength, -, hperm⟩ := accept_eq_ok h
  obtain ⟨hblock, ⟨slots, hslots, hfilled⟩, hchecks⟩ := accept_eq_ok_iff.mp h
  have hfills := Assignment.fills_of_fill hfilled pairwise_positionalIndices
  -- Nothing stands in the slots at first, so what the first pass leaves in them is named.
  have hnamed : ∀ {position index}, slots.Gives position index ↔ ∃ argument name,
      arguments[index]? = some argument ∧ argument.name = some name ∧
        Parameter.FirstNamed candidate.parameters name position := by
    intro position index
    rw [Assignment.gives_bindNamed hslots, or_iff_right Assignment.not_gives_empty]
    simp only [mem_zipIdx]
  have hleaves : ∀ {position index}, GivenArgument.Positional arguments index →
      assignment.Gives position index → slots.Leaves position := by
    rintro position index ⟨argument, hargument, hnone⟩ hgives
    rcases hfills.only hgives with htaken | ⟨hleaves, -⟩
    · obtain ⟨other, name, hother, hname, -⟩ := hnamed.mp htaken
      obtain rfl := Option.some.inj (hargument.symm.trans hother)
      cases hnone.symm.trans hname
    · exact hleaves
  have hunique : ∀ {position other index}, assignment.Gives position index →
      assignment.Gives other index → position = other :=
    Assignment.Gives.position_eq (hperm.nodup_iff.mpr List.nodup_range)
  have hcheck : ∀ {position : Nat} {parameter : Parameter} {slot : Option Nat},
      candidate.parameters[position]? = some parameter → assignment[position]? = some slot →
        Assignment.checkSlot schema arguments parameter slot = .ok () := by
    intro position parameter slot hparameter hslot
    refine hchecks (parameter, slot) (List.mem_iff_getElem?.mpr ⟨position, ?_⟩)
    exact List.getElem?_zip_eq_some.mpr ⟨hparameter, hslot⟩
  refine ⟨(checkBlock_eq_ok.mp hblock).1, (checkBlock_eq_ok.mp hblock).2, hlength, ?within, ?once,
    ?named, ?inOrder, ?leftmost, ?optional, ?types⟩
  case within =>
    intro position index hgives
    exact List.mem_range.mp (hperm.mem_iff.mp (Assignment.mem_indices_iff.mpr ⟨position, hgives⟩))
  case once =>
    intro index hindex
    obtain ⟨position, hgives⟩ :=
      Assignment.mem_indices_iff.mp (hperm.mem_iff.mpr (List.mem_range.mpr hindex))
    exact ⟨position, hgives, fun other hother => hunique hother hgives⟩
  case named =>
    intro position index argument name hgives hargument hname
    rcases hfills.only hgives with htaken | ⟨-, hmem⟩
    · obtain ⟨other, spelled, hother, hspelled, hfirst⟩ := hnamed.mp htaken
      obtain rfl := Option.some.inj (hargument.symm.trans hother)
      obtain rfl := Option.some.inj (hname.symm.trans hspelled)
      exact hfirst
    · obtain ⟨other, hother, hnone⟩ := mem_positionalIndices.mp hmem
      obtain rfl := Option.some.inj (hargument.symm.trans hother)
      cases hname.symm.trans hnone
  case inOrder =>
    intro position other index later hindex hlater hgives hother hlt
    rcases Nat.lt_trichotomy position other with hbefore | rfl | hbehind
    · exact hbefore
    · exact absurd (hgives.eq hother) hlt.ne
    · have hback := hfills.inOrder (hleaves hlater hother) (hleaves hindex hgives) hother hgives
        hbehind
      exact absurd hback hlt.not_gt
  case leftmost =>
    intro position index hindex hgives
    exact hfills.leftmost (hleaves hindex hgives) hgives
  case optional =>
    intro position parameter hnone hparameter
    exact (checkSlot_eq_ok.mp (hcheck hparameter hnone)).1 rfl
  case types =>
    intro position index parameter argument hgives hparameter hargument
    exact (checkSlot_eq_ok.mp (hcheck hparameter hgives)).2 argument hargument

/-- Whether the argument at a place is given with a name. -/
def isNamed (arguments : List GivenArgument) (index : Nat) : Bool :=
  (arguments[index]?.bind GivenArgument.name).isSome

theorem isNamed_of_name {argument : GivenArgument} {index : Nat}
    (h : arguments[index]? = some argument) : isNamed arguments index = argument.name.isSome := by
  rw [isNamed, h, Option.bind_some]

/-- The first pass finds the places of the named arguments, one after another. -/
theorem bindNamed_keep (h : candidate.Admits schema arguments hasBlock assignment)
    {front rest : List GivenArgument} (hsplit : arguments = front ++ rest) :
    Assignment.bindNamed candidate.parameters (rest.zipIdx front.length)
        (assignment.keep fun index => decide (index < front.length) && isNamed arguments index) =
      .ok (assignment.keep (isNamed arguments)) := by
  induction rest generalizing front with
  | nil =>
    refine congrArg Except.ok (Assignment.keep_congr fun position index hgives => ?_)
    have hindex := h.within hgives
    rw [hsplit, List.append_nil] at hindex
    simp [hindex]
  | cons argument rest ih =>
    have hargument : arguments[front.length]? = some argument := by
      rw [hsplit]
      simp
    have hnext := @ih (front ++ [argument]) (by rw [hsplit]; simp)
    rw [List.length_append, List.length_singleton] at hnext
    rw [List.zipIdx_cons, Assignment.bindNamed]
    cases hname : argument.name with
    | none =>
      dsimp only
      rw [← hnext]
      refine congrArg _ (Assignment.keep_congr fun position index hgives => ?_)
      by_cases heq : index = front.length
      · subst heq
        simp [isNamed_of_name hargument, hname]
      · have hlt : index < front.length ↔ index < front.length + 1 := by omega
        simp only [hlt]
    | some name =>
      obtain ⟨position, hgives, hunique⟩ :=
        h.once front.length (List.getElem?_eq_some_iff.mp hargument).1
      have hfree : Assignment.Leaves (assignment.keep fun index =>
          decide (index < front.length) && isNamed arguments index) position := by
        refine Assignment.leaves_keep.mpr ⟨(List.getElem?_eq_some_iff.mp hgives).1, ?_⟩
        intro index hother
        simp [hother.eq hgives]
      dsimp only
      rw [Parameter.findIdx?_eq_some_iff.mpr (h.named hgives hargument hname)]
      have hslot : (assignment.keep fun index =>
          decide (index < front.length) && isNamed arguments index)[position]? = some none := hfree
      dsimp only
      rw [if_pos hslot, ← hnext]
      refine congrArg _ (Assignment.ext_gives (by simp [Assignment.keep]) fun other index => ?_)
      rw [Assignment.gives_set hfree, Assignment.gives_keep, Assignment.gives_keep]
      by_cases heq : index = front.length
      · subst heq
        have hplace : assignment.Gives other front.length ↔ other = position :=
          ⟨fun hother => hunique other hother, fun hother => hother ▸ hgives⟩
        simp [isNamed_of_name hargument, hname, hplace]
      · have hlt : index < front.length ↔ index < front.length + 1 := by omega
        simp only [hlt, heq, and_false, or_false]

theorem isNamed_eq_false {index : Nat} (h : index < arguments.length) :
    isNamed arguments index = false ↔ GivenArgument.Positional arguments index := by
  have hargument := List.getElem?_eq_getElem h
  unfold GivenArgument.Positional
  rw [isNamed_of_name hargument, hargument]
  simp

/-- The positional arguments stand in an assignment in their order. -/
theorem filter_indices (h : candidate.Admits schema arguments hasBlock assignment) :
    assignment.indices.filter (!isNamed arguments ·) =
      Assignment.positionalIndices arguments.zipIdx := by
  have hpositional : ∀ {position index}, assignment.Gives position index →
      (isNamed arguments index = false ↔ GivenArgument.Positional arguments index) :=
    fun hgives => isNamed_eq_false (h.within hgives)
  have hsorted : (assignment.indices.filter (!isNamed arguments ·)).Pairwise (· < ·) := by
    rw [Assignment.indices, List.filter_filterMap, List.pairwise_filterMap,
      List.pairwise_iff_getElem]
    intro position other hposition hother hlt index hindex later hlater
    obtain ⟨hgives, hunnamed⟩ : assignment[position] = some index ∧
        isNamed arguments index = false := by
      simpa [Option.filter_eq_some_iff] using hindex
    obtain ⟨hlaterGives, hlaterUnnamed⟩ : assignment[other] = some later ∧
        isNamed arguments later = false := by
      simpa [Option.filter_eq_some_iff] using hlater
    replace hgives : assignment.Gives position index :=
      List.getElem?_eq_some_iff.mpr ⟨hposition, hgives⟩
    replace hlaterGives : assignment.Gives other later :=
      List.getElem?_eq_some_iff.mpr ⟨hother, hlaterGives⟩
    rcases Nat.lt_trichotomy index later with hbefore | rfl | hbehind
    · exact hbefore
    · exact absurd ((h.once index (h.within hgives)).unique hgives hlaterGives) hlt.ne
    · have hback := h.inOrder ((hpositional hlaterGives).mp hlaterUnnamed)
        ((hpositional hgives).mp hunnamed) hlaterGives hgives hbehind
      exact absurd hback hlt.not_gt
  refine hsorted.eq_of_mem_iff pairwise_positionalIndices fun index => ?_
  rw [List.mem_filter, Assignment.mem_indices_iff, mem_positionalIndices, Bool.not_eq_true']
  constructor
  · rintro ⟨⟨position, hgives⟩, hunnamed⟩
    exact (hpositional hgives).mp hunnamed
  · intro hindex
    obtain ⟨argument, hargument, -⟩ := id hindex
    obtain ⟨position, hgives, -⟩ := h.once index (List.getElem?_eq_some_iff.mp hargument).1
    exact ⟨⟨position, hgives⟩, (hpositional hgives).mpr hindex⟩

/-- A function accepts a call with every assignment that obeys the rule. -/
theorem accept_of_admits (h : candidate.Admits schema arguments hasBlock assignment) :
    candidate.accept schema arguments hasBlock = .ok assignment := by
  refine accept_eq_ok_iff.mpr ⟨checkBlock_eq_ok.mpr ⟨h.noBlock, h.someBlock⟩,
    ⟨assignment.keep (isNamed arguments), ?named, ?positional⟩, ?checks⟩
  case named =>
    have hempty : (assignment.keep fun index => decide (index < 0) && isNamed arguments index) =
        candidate.parameters.map fun _ => none := by
      refine Assignment.ext_gives (by simp [Assignment.keep, h.length]) fun position index => ?_
      rw [Assignment.gives_keep, iff_false_right Assignment.not_gives_empty]
      simp
    rw [← hempty]
    exact bindNamed_keep h (List.nil_append arguments).symm
  case positional =>
    rw [← filter_indices h]
    refine Assignment.fill_keep _ fun position index hgives hunnamed => ?_
    exact h.leftmost ((isNamed_eq_false (h.within hgives)).mp hunnamed) hgives
  case checks =>
    rintro ⟨parameter, slot⟩ hmem
    obtain ⟨position, hposition⟩ := List.mem_iff_getElem?.mp hmem
    obtain ⟨hparameter, hslot⟩ := List.getElem?_zip_eq_some.mp hposition
    refine checkSlot_eq_ok.mpr ⟨fun hnone => ?_, fun argument hargument => ?_⟩
    · cases slot with
      | none => exact h.optional hslot hparameter
      | some index =>
        have hlt := h.within hslot
        rw [Option.bind_some, List.getElem?_eq_getElem hlt] at hnone
        cases hnone
    · obtain ⟨index, rfl, hindex⟩ := Option.bind_eq_some_iff.mp hargument
      exact h.types hslot hparameter hindex

/-- A function accepts a call with an assignment just when the assignment obeys the rule. -/
theorem accept_iff : candidate.accept schema arguments hasBlock = .ok assignment ↔
    candidate.Admits schema arguments hasBlock assignment :=
  ⟨admits_of_accept, accept_of_admits⟩

/-- The rule leaves no choice. -/
theorem Admits.unique {other : Assignment}
    (h : candidate.Admits schema arguments hasBlock assignment)
    (hother : candidate.Admits schema arguments hasBlock other) : assignment = other :=
  Except.ok.inj ((accept_of_admits h).symm.trans (accept_of_admits hother))

theorem accepts_iff : candidate.Accepts schema arguments hasBlock ↔
    (candidate.accept schema arguments hasBlock).toOption.isSome = true := by
  unfold Accepts
  simp only [← accept_iff]
  cases candidate.accept schema arguments hasBlock with
  | error mismatch => simp [Except.toOption]
  | ok found => simp [Except.toOption]

instance : Decidable (candidate.Accepts schema arguments hasBlock) :=
  decidable_of_iff _ accepts_iff.symm

end Candidate

end ConfigScript
