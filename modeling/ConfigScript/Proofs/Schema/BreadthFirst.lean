import ConfigScript.Proofs.Schema.Flattening

/-!
# The order of a search

A search lists its start and then, of the references of each listed name in turn, those that stand
at no earlier place. That alone puts the names in the order of their distances: what was discovered
from a nearer name stands in front of what was discovered from a farther one.
-/

namespace ConfigScript

/-- Of a list, the elements whose keys no earlier element has, in their order. -/
inductive Firsts {α κ : Type} (key : α → κ) : List α → List α → Prop where
  | nil : Firsts key [] []
  | new {values kept : List α} {value : α} (h : Firsts key values kept)
    (hnew : key value ∉ values.map key) : Firsts key (values ++ [value]) (kept ++ [value])
  | known {values kept : List α} {value : α} (h : Firsts key values kept)
    (hknown : key value ∈ values.map key) : Firsts key (values ++ [value]) kept

namespace Firsts

variable {α κ : Type} {key : α → κ} {values kept front back before after : List α} {value : α}

theorem sublist (h : Firsts key values kept) : kept.Sublist values := by
  induction h with
  | nil => exact .slnil
  | new _ _ ih => exact ih.append (.refl _)
  | known _ _ ih => exact ih.trans (List.sublist_append_left _ _)

/-- No key is lost. -/
theorem mem_keys_iff (h : Firsts key values kept) (text : κ) :
    text ∈ kept.map key ↔ text ∈ values.map key := by
  induction h with
  | nil => rfl
  | new _ _ ih => simp only [List.map_append, List.mem_append, ih]
  | @known values kept value _ hknown ih =>
    rw [ih, List.map_append, List.mem_append, List.map_singleton, List.mem_singleton]
    exact ⟨.inl, fun h => h.elim id fun heq => heq ▸ hknown⟩

theorem nodup_keys (h : Firsts key values kept) : (kept.map key).Nodup := by
  induction h with
  | nil => exact .nil
  | @new values kept value h hnew ih =>
    rw [List.map_append, List.map_singleton, List.nodup_append]
    refine ⟨ih, List.nodup_singleton _, fun text htext other hother heq => hnew ?_⟩
    rw [List.mem_singleton] at hother
    rw [← hother, ← heq]
    exact (h.mem_keys_iff text).mp htext
  | known _ _ ih => exact ih

/-- Leaving out keys leaves out the elements that have them, before or after repeated ones are
dropped. -/
theorem filter (h : Firsts key values kept) {own : α → Bool}
    (hrespects : ∀ first second, key first = key second → own first = own second) :
    Firsts key (values.filter own) (kept.filter own) := by
  induction h with
  | nil => exact .nil
  | @new values kept value _ hnew ih =>
    rw [List.filter_append, List.filter_append, List.filter_singleton]
    cases own value with
    | false => simpa using ih
    | true =>
      refine ih.new fun hkept => hnew ?_
      obtain ⟨other, hother, hkey⟩ := List.mem_map.mp hkept
      exact List.mem_map.mpr ⟨other, (List.mem_filter.mp hother).1, hkey⟩
  | @known values kept value _ hknown ih =>
    rw [List.filter_append, List.filter_singleton]
    cases hown : own value with
    | false => simpa using ih
    | true =>
      obtain ⟨other, hother, hkey⟩ := List.mem_map.mp hknown
      refine ih.known (List.mem_map.mpr ⟨other, List.mem_filter.mpr ⟨hother, ?_⟩, hkey⟩)
      rw [hrespects other value hkey, hown]

/-- An element in a list with a last one is that last one or stands in the rest. -/
theorem concat_eq_append_cons {values front back : List α} {last value : α}
    (h : values ++ [last] = front ++ value :: back) :
    (back = [] ∧ values = front ∧ last = value) ∨
      ∃ rest, back = rest ++ [last] ∧ values = front ++ value :: rest := by
  rcases List.eq_nil_or_concat back with rfl | ⟨rest, final, rfl⟩
  · obtain ⟨rfl, hlast⟩ := List.append_inj' h rfl
    exact .inl ⟨rfl, rfl, List.singleton_inj.mp hlast⟩
  · rw [List.concat_eq_append, ← List.cons_append, ← List.append_assoc] at h
    obtain ⟨rfl, hlast⟩ := List.append_inj' h rfl
    exact .inr ⟨rest, by rw [List.singleton_inj.mp hlast, List.concat_eq_append], rfl⟩

/-- What is kept in front of an element stood in front of each place of that element. -/
theorem before_subset (h : Firsts id values kept) (hkept : kept = before ++ value :: after)
    (hvalues : values = front ++ value :: back) : before ⊆ front := by
  induction h generalizing front back before after with
  | nil => simp at hkept
  | @new values kept last h hnew ih =>
    rw [List.map_id] at hnew
    obtain ⟨rfl, rfl, rfl⟩ | ⟨rest, rfl, rfl⟩ := concat_eq_append_cons hkept
    · obtain ⟨-, rfl, -⟩ | ⟨rest, -, rfl⟩ := concat_eq_append_cons hvalues
      · exact h.sublist.subset
      · exact absurd (List.mem_append_right _ List.mem_cons_self) hnew
    · obtain ⟨-, -, rfl⟩ | ⟨rest, -, rfl⟩ := concat_eq_append_cons hvalues
      · exact absurd (h.sublist.subset (List.mem_append_right _ List.mem_cons_self)) hnew
      · exact ih rfl rfl
  | known h _ ih =>
    obtain ⟨-, rfl, -⟩ | ⟨rest, -, rfl⟩ := concat_eq_append_cons hvalues
    · subst hkept
      exact fun other hother => h.sublist.subset (List.mem_append_left _ hother)
    · exact ih hkept rfl

end Firsts

section Keys

variable {α κ : Type} [BEq κ] [LawfulBEq κ] (key : α → κ)

/-- One more element at the end is kept unless one with its key stands somewhere before. -/
theorem eraseDupsBy_concat (values : List α) (value : α) :
    (values ++ [value]).eraseDupsBy (fun first second => key first == key second) =
      values.eraseDupsBy (fun first second => key first == key second) ++
        if (values.map key).contains (key value) then [] else [value] := by
  induction values using eraseDupsBy_induction fun first second => key first == key second with
  | nil => rfl
  | cons first rest ih =>
    rw [List.cons_append, List.eraseDupsBy_cons, List.eraseDupsBy_cons, List.filter_append,
      List.cons_append, List.filter_singleton]
    by_cases hsame : key value = key first
    · simp [hsame]
    · have hknown : ((rest.filter fun other => decide ((key other == key first) = false)).map
          key).contains (key value) = ((first :: rest).map key).contains (key value) := by
        rw [Bool.eq_iff_iff, List.contains_iff_mem, List.contains_iff_mem]
        simp only [List.mem_map, List.mem_filter, List.mem_cons, decide_eq_true_eq,
          beq_eq_false_iff_ne]
        grind
      rw [beq_eq_false_iff_ne.mpr hsame, decide_eq_true rfl, cond_true, ih, hknown]

theorem firsts_eraseDupsBy (values : List α) :
    Firsts key values (values.eraseDupsBy fun first second => key first == key second) := by
  induction values using List.reverseRecOn with
  | nil => exact .nil
  | append_singleton values value ih =>
    rw [eraseDupsBy_concat]
    split
    · rename_i hknown
      rw [List.append_nil]
      exact ih.known (List.contains_iff_mem.mp hknown)
    · rename_i hnew
      exact ih.new fun hknown => hnew (List.contains_iff_mem.mpr hknown)

end Keys

theorem nodup_eraseDups {α : Type} [BEq α] [LawfulBEq α] (values : List α) :
    values.eraseDups.Nodup := by
  have hdistinct := (firsts_eraseDupsBy id values).nodup_keys
  rw [List.map_id] at hdistinct
  exact hdistinct

variable {next : QualifiedName → List QualifiedName} {sources seen queue names : List QualifiedName}
  {start name other : QualifiedName} {budget references count : Nat}

/-- So many references lead from one name to another. -/
inductive LeadsIn (next : QualifiedName → List QualifiedName) (start : QualifiedName) :
    Nat → QualifiedName → Prop where
  | start : LeadsIn next start 0 start
  | step {count : Nat} {name other : QualifiedName} (h : LeadsIn next start count name)
    (hstep : other ∈ next name) : LeadsIn next start (count + 1) other

theorem LeadsIn.leads (h : LeadsIn next start count name) : Leads next start name := by
  induction h with
  | start => exact .refl
  | step _ hstep ih => exact ih.tail hstep

/-- However many references lead to the second name, no more of them are needed for the first. -/
def NoFarther (next : QualifiedName → List QualifiedName) (start first second : QualifiedName) :
    Prop :=
  ∀ count, LeadsIn next start count second → ∃ fewer ≤ count, LeadsIn next start fewer first

/-- What a visit lists is what waits and then the references of the listed names in turn, without
those that are known already. -/
theorem visit_eq (hsources : ∀ name, name ∉ sources → next name = [])
    (hbudget : queue.length + openReferences next sources seen ≤ budget) :
    visit next budget seen queue =
      ((queue ++ (visit next budget seen queue).flatMap next).filter (· ∉ seen)).eraseDups := by
  fun_induction visit next budget seen queue with
  | case1 seen queue =>
    have hempty : queue = [] := List.eq_nil_of_length_eq_zero (by omega)
    simp [hempty]
  | case2 => simp
  | case3 budget seen first queue hseen ih =>
    rw [List.cons_append, List.filter_cons_of_neg (by simpa using hseen)]
    exact ih (by rw [List.length_cons] at hbudget; omega)
  | case4 budget seen first queue hnew ih =>
    have hpaid := openReferences_visit hsources hnew
    have ih := ih (by rw [List.length_append]; rw [List.length_cons] at hbudget; omega)
    rw [List.flatMap_cons, ← List.append_assoc, List.cons_append, List.cons_append,
      List.filter_cons_of_pos (by simpa using hnew), List.eraseDups_cons, List.filter_filter]
    congr 1
    conv_lhs => rw [ih]
    congr 2
    funext name
    simp [Bool.beq_eq_decide_eq]

/-- A search lists its start and then the references of the listed names in turn. -/
theorem firsts_reachFrom (hsources : ∀ name, name ∉ sources → next name = [])
    (hreferences : (sources.flatMap next).length ≤ references) :
    Firsts id (start :: (reachFrom next references start).flatMap next)
      (reachFrom next references start) := by
  have hbudget : [start].length + openReferences next sources [] ≤ references + 1 := by
    rw [openReferences_nil, List.length_singleton]
    omega
  have hlisted : reachFrom next references start =
      (start :: (reachFrom next references start).flatMap next).eraseDups := by
    simpa [reachFrom] using visit_eq hsources hbudget
  have hfirsts := firsts_eraseDupsBy id (start :: (reachFrom next references start).flatMap next)
  conv_rhs => rw [hlisted]
  exact hfirsts

/-- A name in front of another was discovered from a name that is no farther than the one that the
other was discovered from, so it is no farther itself. -/
theorem exists_leadsIn_of_before {before after : List QualifiedName} {first second : QualifiedName}
    (h : Firsts id (start :: names.flatMap next) names)
    (hnames : names = before ++ second :: after) (hfirst : first ∈ before)
    (hcount : LeadsIn next start count second) :
    ∃ fewer ≤ count, LeadsIn next start fewer first := by
  induction hcount generalizing first before after with
  | start =>
    have hnone : before ⊆ [] := h.before_subset hnames (List.nil_append _).symm
    exact absurd (hnone hfirst) List.not_mem_nil
  | @step count parent second hparent hstep ih =>
    have hlisted : ∀ name, Leads next start name → name ∈ names := by
      intro name hleads
      have hmem := h.mem_keys_iff
      simp only [List.map_id] at hmem
      induction hleads with
      | refl => exact (hmem _).mpr List.mem_cons_self
      | tail _ hstep ih =>
        exact (hmem _).mpr (List.mem_cons_of_mem _ (List.mem_flatMap.mpr ⟨_, ih, hstep⟩))
    obtain ⟨older, younger, hsplit⟩ := List.append_of_mem (hlisted parent hparent.leads)
    obtain ⟨sooner, later, hnext⟩ := List.append_of_mem hstep
    have hplace : start :: names.flatMap next =
        (start :: older.flatMap next ++ sooner) ++ second :: (later ++ younger.flatMap next) := by
      rw [hsplit, List.flatMap_append, List.flatMap_cons, hnext]
      simp
    have hdiscovered := h.before_subset hnames hplace hfirst
    rw [List.mem_append, List.mem_cons] at hdiscovered
    obtain (rfl | hearlier) | hbeside := hdiscovered
    · exact ⟨0, Nat.zero_le _, .start⟩
    · obtain ⟨source, hsource, hreference⟩ := List.mem_flatMap.mp hearlier
      obtain ⟨fewer, hfewer, hleads⟩ := ih hsplit hsource
      exact ⟨fewer + 1, Nat.succ_le_succ hfewer, hleads.step hreference⟩
    · exact ⟨count + 1, le_rfl, hparent.step (hnext ▸ List.mem_append_left _ hbeside)⟩

/-- Names that are listed in the order of their discovery are listed in that of their distances. -/
theorem pairwise_noFarther (h : Firsts id (start :: names.flatMap next) names) :
    names.Pairwise (NoFarther next start) := by
  rw [List.pairwise_iff_getElem]
  intro i j hi hj hij count hcount
  have hsplit : names = names.take j ++ names[j] :: names.drop (j + 1) := by
    rw [List.getElem_cons_drop, List.take_append_drop]
  exact exists_leadsIn_of_before h hsplit (List.mem_take_iff_getElem.mpr ⟨i, by omega, rfl⟩) hcount

end ConfigScript
