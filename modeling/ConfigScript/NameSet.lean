import ConfigScript.Name

/-!
# Sets of names

A finite set of qualified names, kept as its list in ascending order, so that equal sets are equal
values and every listing of a set is sorted.
-/

namespace ConfigScript

structure NameSet where
  names : List QualifiedName
  ascending : names.Pairwise (· < ·)
deriving DecidableEq

namespace NameSet

instance : Membership QualifiedName NameSet where
  mem set name := name ∈ set.names

instance (name : QualifiedName) (set : NameSet) : Decidable (name ∈ set) :=
  inferInstanceAs (Decidable (name ∈ set.names))

def empty : NameSet :=
  ⟨[], .nil⟩

def insertInto (name : QualifiedName) : List QualifiedName → List QualifiedName
  | [] => [name]
  | other :: names =>
    if name < other then name :: other :: names
    else if other < name then other :: insertInto name names
    else other :: names

theorem mem_insertInto {name other : QualifiedName} {names : List QualifiedName} :
    other ∈ insertInto name names ↔ other = name ∨ other ∈ names := by
  induction names with
  | nil => simp [insertInto]
  | cons head tail ih =>
    unfold insertInto
    split
    · simp
    · split
      · simp [ih]
        grind
      · rename_i hlt hgt
        have := QualifiedName.eq_of_not_lt hlt hgt
        subst this
        simp

theorem pairwise_insertInto {name : QualifiedName} {names : List QualifiedName}
    (h : names.Pairwise (· < ·)) : (insertInto name names).Pairwise (· < ·) := by
  induction names with
  | nil => simp [insertInto]
  | cons head tail ih =>
    obtain ⟨hhead, htail⟩ := List.pairwise_cons.mp h
    unfold insertInto
    split
    · rename_i hlt
      refine List.pairwise_cons.mpr ⟨fun other hother => ?_, h⟩
      cases hother with
      | head => exact hlt
      | tail _ hmem => exact QualifiedName.lt_trans hlt (hhead other hmem)
    · split
      · rename_i hgt
        refine List.pairwise_cons.mpr ⟨fun other hother => ?_, ih htail⟩
        cases mem_insertInto.mp hother with
        | inl heq => exact heq ▸ hgt
        | inr hmem => exact hhead other hmem
      · exact h

def insert (set : NameSet) (name : QualifiedName) : NameSet :=
  ⟨insertInto name set.names, pairwise_insertInto set.ascending⟩

def ofList (names : List QualifiedName) : NameSet :=
  names.foldl insert empty

@[simp] theorem mem_empty {name : QualifiedName} : ¬ name ∈ empty :=
  List.not_mem_nil

@[simp] theorem mem_insert {set : NameSet} {name other : QualifiedName} :
    other ∈ set.insert name ↔ other = name ∨ other ∈ set :=
  mem_insertInto

theorem mem_ofList {names : List QualifiedName} {name : QualifiedName} :
    name ∈ ofList names ↔ name ∈ names := by
  have general : ∀ (set : NameSet), name ∈ names.foldl insert set ↔ name ∈ set ∨ name ∈ names := by
    induction names with
    | nil => simp
    | cons head tail ih =>
      intro set
      rw [List.foldl_cons, ih, mem_insert, List.mem_cons]
      grind
  simp [ofList, general]

end NameSet

end ConfigScript
