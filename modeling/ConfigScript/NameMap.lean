import ConfigScript.Name

/-!
# Maps keyed by names

A finite map from qualified names, kept as its entries in ascending order of their names, so that
equal maps are equal values and every listing of a map is sorted.
-/

namespace ConfigScript

structure NameMap (α : Type) where
  entries : List (QualifiedName × α)
  ascending : entries.Pairwise fun a b => a.1 < b.1
deriving DecidableEq

namespace NameMap

variable {α : Type}

def empty : NameMap α :=
  ⟨[], .nil⟩

def names (map : NameMap α) : List QualifiedName :=
  map.entries.map Prod.fst

def values (map : NameMap α) : List α :=
  map.entries.map Prod.snd

def find? (map : NameMap α) (name : QualifiedName) : Option α :=
  map.entries.lookup name

def contains (map : NameMap α) (name : QualifiedName) : Bool :=
  (map.find? name).isSome

/-- The entries with a value given to a name, in place of the value it had. -/
def insertInto (name : QualifiedName) (value : α) :
    List (QualifiedName × α) → List (QualifiedName × α)
  | [] => [(name, value)]
  | (other, old) :: entries =>
    if name < other then (name, value) :: (other, old) :: entries
    else if other < name then (other, old) :: insertInto name value entries
    else (name, value) :: entries

theorem fst_of_mem_insertInto {name : QualifiedName} {value : α}
    {entries : List (QualifiedName × α)} {entry : QualifiedName × α}
    (h : entry ∈ insertInto name value entries) : entry.1 = name ∨ entry ∈ entries := by
  induction entries with
  | nil => simp_all [insertInto]
  | cons head tail ih =>
    unfold insertInto at h
    split at h
    · grind
    · split at h <;> grind

theorem pairwise_insertInto {name : QualifiedName} {value : α}
    {entries : List (QualifiedName × α)} (h : entries.Pairwise fun a b => a.1 < b.1) :
    (insertInto name value entries).Pairwise fun a b => a.1 < b.1 := by
  induction entries with
  | nil => simp [insertInto]
  | cons head tail ih =>
    obtain ⟨hhead, htail⟩ := List.pairwise_cons.mp h
    unfold insertInto
    split
    · rename_i hlt
      refine List.pairwise_cons.mpr ⟨fun other hother => ?_, h⟩
      cases hother with
      | head => exact hlt
      | tail _ hmem => exact QualifiedName.lt_trans hlt (hhead other hmem)
    · split
      · rename_i hgt
        refine List.pairwise_cons.mpr ⟨fun other hother => ?_, ih htail⟩
        cases fst_of_mem_insertInto hother with
        | inl heq => exact heq ▸ hgt
        | inr hmem => exact hhead other hmem
      · rename_i hlt hgt
        have heq := QualifiedName.eq_of_not_lt hlt hgt
        exact List.pairwise_cons.mpr ⟨fun other hother => heq ▸ hhead other hother, htail⟩

def insert (map : NameMap α) (name : QualifiedName) (value : α) : NameMap α :=
  ⟨insertInto name value map.entries, pairwise_insertInto map.ascending⟩

/-- Of two entries for one name the later one counts. -/
def ofList (entries : List (QualifiedName × α)) : NameMap α :=
  entries.foldl (fun map entry => map.insert entry.1 entry.2) empty

@[simp] theorem find?_empty {name : QualifiedName} : (empty : NameMap α).find? name = none :=
  rfl

theorem lookup_cons {name : QualifiedName} {entry : QualifiedName × α}
    {entries : List (QualifiedName × α)} :
    (entry :: entries).lookup name =
      if name = entry.1 then some entry.2 else entries.lookup name := by
  rw [List.lookup_cons]
  by_cases heq : name = entry.1
  · simp [heq]
  · simp [heq, beq_eq_false_iff_ne.mpr heq]

theorem lookup_insertInto {name other : QualifiedName} {value : α}
    {entries : List (QualifiedName × α)} (h : entries.Pairwise fun a b => a.1 < b.1) :
    (insertInto name value entries).lookup other =
      if other = name then some value else entries.lookup other := by
  induction entries with
  | nil => simp [insertInto, lookup_cons]
  | cons head tail ih =>
    obtain ⟨hhead, htail⟩ := List.pairwise_cons.mp h
    unfold insertInto
    split
    · simp [lookup_cons]
    · split
      · rename_i hgt
        have hne : head.1 ≠ name := fun heq => QualifiedName.lt_irrefl name (heq ▸ hgt)
        by_cases heq : other = head.1
        · simp [lookup_cons, heq, hne]
        · simp [lookup_cons, ih htail, heq]
      · rename_i hlt hgt
        have hsame := QualifiedName.eq_of_not_lt hlt hgt
        by_cases heq : other = name
        · simp [heq]
        · simp [lookup_cons, heq, show other ≠ head.1 from hsame ▸ heq]

theorem find?_insert {map : NameMap α} {name other : QualifiedName} {value : α} :
    (map.insert name value).find? other =
      if other = name then some value else map.find? other :=
  lookup_insertInto map.ascending

theorem contains_iff {map : NameMap α} {name : QualifiedName} :
    map.contains name = true ↔ ∃ value, map.find? name = some value :=
  Option.isSome_iff_exists

@[simp] theorem contains_empty {name : QualifiedName} : (empty : NameMap α).contains name = false :=
  rfl

theorem contains_insert {map : NameMap α} {name other : QualifiedName} {value : α} :
    (map.insert name value).contains other = true ↔ other = name ∨ map.contains other = true := by
  rw [contains, contains, find?_insert]
  by_cases heq : other = name <;> simp [heq]

theorem mem_entries_iff {map : NameMap α} {name : QualifiedName} {value : α} :
    (name, value) ∈ map.entries ↔ map.find? name = some value := by
  obtain ⟨entries, h⟩ := map
  change (name, value) ∈ entries ↔ entries.lookup name = some value
  induction entries with
  | nil => simp
  | cons head tail ih =>
    obtain ⟨hhead, htail⟩ := List.pairwise_cons.mp h
    rw [List.mem_cons, ih htail, lookup_cons]
    by_cases heq : name = head.1
    · have habsent : tail.lookup name ≠ some value := fun hmem =>
        QualifiedName.lt_irrefl name (heq ▸ hhead (name, value) ((ih htail).mpr hmem))
      simp [heq, Prod.ext_iff] at habsent ⊢
      simp [habsent, eq_comm]
    · simp [heq, Prod.ext_iff]

end NameMap

end ConfigScript
