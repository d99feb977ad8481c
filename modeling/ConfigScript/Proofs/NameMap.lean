import ConfigScript.NameMap
import ConfigScript.NameSet
import Mathlib.Data.List.Induction
import Mathlib.Data.List.Sort

/-!
# Maps made from lists, and counting over the entries of a map

Sets and maps list their names in ascending order, so they are equal as soon as they hold the same.
-/

/-- A set is what its members are. -/
theorem ConfigScript.NameSet.eq_of_mem_iff {set other : NameSet}
    (h : ∀ name, name ∈ set ↔ name ∈ other) : set = other := by
  have hirrefl : Std.Irrefl fun a b : QualifiedName => a < b := ⟨QualifiedName.lt_irrefl⟩
  have hantisymm : Std.Antisymm fun a b : QualifiedName => a < b :=
    ⟨fun a b hab hba => absurd (QualifiedName.lt_trans hab hba) (QualifiedName.lt_irrefl a)⟩
  have hnames : set.names = other.names := set.ascending.eq_of_mem_iff other.ascending h
  cases set
  cases other
  simp_all

namespace ConfigScript.NameMap

variable {α β γ : Type} {map other : NameMap α}

/-- A map is what it holds under each name. -/
theorem eq_of_find?_eq (h : ∀ name, map.find? name = other.find? name) : map = other := by
  have hirrefl : Std.Irrefl fun a b : QualifiedName × α => a.1 < b.1 :=
    ⟨fun a => QualifiedName.lt_irrefl a.1⟩
  have hantisymm : Std.Antisymm fun a b : QualifiedName × α => a.1 < b.1 :=
    ⟨fun a b hab hba => absurd (QualifiedName.lt_trans hab hba) (QualifiedName.lt_irrefl a.1)⟩
  have hentries : map.entries = other.entries := by
    apply map.ascending.eq_of_mem_iff other.ascending
    intro entry
    rw [mem_entries_iff, mem_entries_iff, h]
  cases map
  cases other
  simp_all

theorem mem_names_iff {name : QualifiedName} :
    name ∈ map.names ↔ ∃ value, map.find? name = some value := by
  simp only [names, List.mem_map, Prod.exists, exists_and_right, exists_eq_right, mem_entries_iff]

theorem mem_values_iff {value : α} :
    value ∈ map.values ↔ ∃ name, map.find? name = some value := by
  simp only [values, List.mem_map, Prod.exists, exists_eq_right, mem_entries_iff]

/-- A map made from a list holds, under every name, the last value that the list has for it. -/
theorem find?_ofList {entries : List (QualifiedName × α)} {name : QualifiedName} :
    (ofList entries).find? name = entries.reverse.lookup name := by
  induction entries using List.reverseRecOn with
  | nil => rfl
  | append_singleton entries entry ih =>
    have hsnoc : ofList (entries ++ [entry]) = (ofList entries).insert entry.1 entry.2 := by
      rw [ofList, List.foldl_append]
      rfl
    rw [hsnoc, find?_insert, ih, List.reverse_append, List.reverse_singleton,
      List.singleton_append, lookup_cons]

theorem mem_of_find?_ofList {entries : List (QualifiedName × α)} {name : QualifiedName} {value : α}
    (h : (ofList entries).find? name = some value) : (name, value) ∈ entries := by
  rw [find?_ofList, List.lookup_eq_some_iff] at h
  obtain ⟨before, after, hsplit, -⟩ := h
  rw [← List.mem_reverse, hsplit]
  simp

theorem contains_ofList {entries : List (QualifiedName × α)} {name : QualifiedName} :
    (ofList entries).contains name = true ↔ name ∈ entries.map Prod.fst := by
  constructor
  · intro h
    obtain ⟨value, hvalue⟩ := contains_iff.mp h
    exact List.mem_map.mpr ⟨(name, value), mem_of_find?_ofList hvalue, rfl⟩
  · intro h
    obtain ⟨⟨name, value⟩, hentry, rfl⟩ := List.mem_map.mp h
    rw [contains, find?_ofList, Option.isSome_iff_ne_none, Ne, List.lookup_eq_none_iff]
    intro habsent
    simpa using habsent _ (List.mem_reverse.mpr hentry)

theorem find?_ofList_of_last {before after : List (QualifiedName × α)} {name : QualifiedName}
    {value : α} (h : ∀ entry ∈ after, entry.1 ≠ name) :
    (ofList (before ++ (name, value) :: after)).find? name = some value := by
  rw [find?_ofList, List.reverse_append, List.reverse_cons, List.append_assoc, List.lookup_append]
  have hafter : after.reverse.lookup name = none := by
    rw [List.lookup_eq_none_iff]
    intro entry hentry
    simpa using (h entry (List.mem_reverse.mp hentry)).symm
  simp [hafter]

/-- When no name has two values in a list, the map made from it holds what the list does. -/
theorem find?_ofList_iff {entries : List (QualifiedName × α)}
    (hsingle : ∀ name value later, (name, value) ∈ entries → (name, later) ∈ entries →
      value = later)
    {name : QualifiedName} {value : α} :
    (ofList entries).find? name = some value ↔ (name, value) ∈ entries := by
  constructor
  · exact mem_of_find?_ofList
  · intro hmem
    have hcontains : (ofList entries).contains name = true :=
      contains_ofList.mpr (List.mem_map_of_mem hmem)
    obtain ⟨found, hfound⟩ := contains_iff.mp hcontains
    rw [hfound, hsingle name found value (mem_of_find?_ofList hfound) hmem]

/-- When no name stands twice in a list, its order makes no difference to the map. -/
theorem ofList_eq_of_perm {entries reordered : List (QualifiedName × α)}
    (hperm : entries.Perm reordered) (hnodup : (entries.map Prod.fst).Nodup) :
    ofList entries = ofList reordered := by
  have hsingle : ∀ name value later, (name, value) ∈ entries → (name, later) ∈ entries →
      value = later := by
    intro name value later hvalue hlater
    have heq := List.inj_on_of_nodup_map hnodup hvalue hlater rfl
    exact (Prod.mk.inj heq).2
  apply eq_of_find?_eq
  intro name
  ext value
  rw [find?_ofList_iff hsingle, hperm.mem_iff, find?_ofList_iff]
  intro name value later hvalue hlater
  exact hsingle name value later (hperm.mem_iff.mpr hvalue) (hperm.mem_iff.mpr hlater)

/-- The entries of a map whose names are kept. -/
def restrict (map : NameMap α) (kept : QualifiedName → Bool) : NameMap α :=
  ⟨map.entries.filter (kept ·.1), map.ascending.filter _⟩

theorem find?_restrict {kept : QualifiedName → Bool} {name : QualifiedName} {value : α} :
    (map.restrict kept).find? name = some value ↔
      kept name = true ∧ map.find? name = some value := by
  rw [← mem_entries_iff, ← mem_entries_iff, restrict, List.mem_filter, and_comm]

/-- A map with every value changed and every name kept. -/
def mapValues (change : α → β) (map : NameMap α) : NameMap β :=
  ⟨map.entries.map fun entry => (entry.1, change entry.2), List.pairwise_map.mpr map.ascending⟩

theorem values_mapValues {change : α → β} : (map.mapValues change).values =
    map.values.map change := by
  simp only [values, mapValues, List.map_map, Function.comp_def]

theorem find?_mapValues {change : α → β} {name : QualifiedName} :
    (map.mapValues change).find? name = (map.find? name).map change := by
  have hlookup : ∀ entries : List (QualifiedName × α),
      (entries.map fun entry => (entry.1, change entry.2)).lookup name =
        (entries.lookup name).map change := by
    intro entries
    induction entries with
    | nil => rfl
    | cons entry entries ih =>
      rw [List.map_cons, lookup_cons, lookup_cons, ih]
      split <;> rfl
  exact hlookup map.entries

theorem contains_mapValues {change : α → β} {name : QualifiedName} :
    (map.mapValues change).contains name = map.contains name := by
  rw [contains, contains, find?_mapValues, Option.isSome_map]

theorem mapValues_insert {change : α → β} {name : QualifiedName} {value : α} :
    (map.insert name value).mapValues change =
      (map.mapValues change).insert name (change value) := by
  apply eq_of_find?_eq
  intro asked
  rw [find?_mapValues, find?_insert, find?_insert, find?_mapValues]
  split <;> rfl

/-- A bound on what single entries contribute bounds what all of them do. -/
theorem length_flatMap_names_le {part : QualifiedName → List β} {bound : α → List γ}
    (h : ∀ name value, map.find? name = some value → (part name).length ≤ (bound value).length) :
    (map.names.flatMap part).length ≤ (map.values.flatMap bound).length := by
  have general : ∀ entries : List (QualifiedName × α),
      (∀ entry ∈ entries, (part entry.1).length ≤ (bound entry.2).length) →
        ((entries.map Prod.fst).flatMap part).length ≤
          ((entries.map Prod.snd).flatMap bound).length := by
    intro entries hentries
    induction entries with
    | nil => simp
    | cons entry entries ih =>
      have hfirst := hentries entry List.mem_cons_self
      have hrest := ih fun other hother => hentries other (List.mem_cons_of_mem _ hother)
      simp only [List.map_cons, List.flatMap_cons, List.length_append]
      omega
  exact general map.entries fun entry hentry => h entry.1 entry.2 (mem_entries_iff.mp hentry)

end ConfigScript.NameMap
