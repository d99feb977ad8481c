import ConfigScript.Reach
import Mathlib.Logic.Relation

/-!
# The names that a search visits

A search with a sufficient budget visits exactly the names that references lead to. The budget is
measured by what may still enter the queue: the references of the names that were not visited yet.
-/

namespace ConfigScript

variable {next : QualifiedName → List QualifiedName} {sources seen queue : List QualifiedName}
  {budget : Nat}

/-- Some number of references, perhaps none, leads from one name to another. -/
def Leads (next : QualifiedName → List QualifiedName) : QualifiedName → QualifiedName → Prop :=
  Relation.ReflTransGen fun name other => other ∈ next name

/-- References do not lead out of a set that each of them stays in. -/
theorem Leads.stays {own : QualifiedName → Prop}
    (hclosed : ∀ name, own name → ∀ found ∈ next name, own found) {start name : QualifiedName}
    (hleads : Leads next start name) (hstart : own start) : own name := by
  induction hleads with
  | refl => exact hstart
  | tail _ hstep ih => exact hclosed _ ih _ hstep

/-- How many references go out from those of the listed names that were not seen yet. -/
def openReferences (next : QualifiedName → List QualifiedName)
    (sources seen : List QualifiedName) : Nat :=
  ((sources.filter (· ∉ seen)).flatMap next).length

theorem openReferences_nil : openReferences next sources [] = (sources.flatMap next).length := by
  rw [openReferences, List.filter_eq_self.mpr (by simp)]

theorem openReferences_cons_source {source : QualifiedName} :
    openReferences next (source :: sources) seen =
      (if source ∈ seen then 0 else (next source).length) + openReferences next sources seen := by
  by_cases h : source ∈ seen <;> simp [openReferences, h]

theorem openReferences_cons_le {name : QualifiedName} :
    openReferences next sources (name :: seen) ≤ openReferences next sources seen := by
  induction sources with
  | nil => simp [openReferences]
  | cons source sources ih =>
    rw [openReferences_cons_source, openReferences_cons_source]
    by_cases hseen : source ∈ seen <;> by_cases heq : source = name <;> simp [hseen, heq] <;> omega

/-- Seeing a name for the first time pays for its references. -/
theorem openReferences_cons {name : QualifiedName} (hsource : name ∈ sources)
    (hnew : name ∉ seen) :
    (next name).length + openReferences next sources (name :: seen) ≤
      openReferences next sources seen := by
  induction sources with
  | nil => cases hsource
  | cons source sources ih =>
    rw [openReferences_cons_source, openReferences_cons_source]
    by_cases heq : source = name
    · have hle : openReferences next sources (name :: seen) ≤ openReferences next sources seen :=
        openReferences_cons_le
      simp [heq, hnew]
      omega
    · have ih := ih ((List.mem_cons.mp hsource).resolve_left (Ne.symm heq))
      by_cases hseen : source ∈ seen <;> simp [hseen, heq] <;> omega

/-- A visit pays for the references that join the queue out of those that were open before. -/
theorem openReferences_visit (hsources : ∀ name, name ∉ sources → next name = [])
    {first : QualifiedName} (hnew : first ∉ seen) :
    (next first).length + openReferences next sources (first :: seen) ≤
      openReferences next sources seen := by
  by_cases hsource : first ∈ sources
  · exact openReferences_cons hsource hnew
  · simpa [hsources first hsource] using openReferences_cons_le

theorem visit_leads {name : QualifiedName} (h : name ∈ visit next budget seen queue) :
    ∃ start ∈ queue, Leads next start name := by
  fun_induction visit next budget seen queue with
  | case1 => cases h
  | case2 => cases h
  | case3 budget seen first queue hseen ih =>
    obtain ⟨start, hstart, hleads⟩ := ih h
    exact ⟨start, List.mem_cons_of_mem _ hstart, hleads⟩
  | case4 budget seen first queue hnew ih =>
    cases List.mem_cons.mp h with
    | inl heq => exact ⟨first, List.mem_cons_self, heq ▸ .refl⟩
    | inr h =>
      obtain ⟨start, hstart, hleads⟩ := ih h
      cases List.mem_append.mp hstart with
      | inl hqueue => exact ⟨start, List.mem_cons_of_mem _ hqueue, hleads⟩
      | inr hnext => exact ⟨first, List.mem_cons_self, .head hnext hleads⟩

/-- With enough budget nothing that was waiting is left out, nor is anything that a visited name
refers to. -/
theorem visit_closed (hsources : ∀ name, name ∉ sources → next name = [])
    (hbudget : queue.length + openReferences next sources seen ≤ budget) :
    (∀ name ∈ queue, name ∈ seen ∨ name ∈ visit next budget seen queue) ∧
      ∀ name ∈ visit next budget seen queue, ∀ other ∈ next name,
        other ∈ seen ∨ other ∈ visit next budget seen queue := by
  fun_induction visit next budget seen queue with
  | case1 seen queue =>
    have hempty : queue = [] := List.eq_nil_of_length_eq_zero (by omega)
    simp [hempty]
  | case2 => simp
  | case3 budget seen first queue hseen ih =>
    obtain ⟨hqueue, hclosed⟩ := ih (by simp at hbudget; omega)
    exact ⟨by grind, hclosed⟩
  | case4 budget seen first queue hnew ih =>
    have hpaid := openReferences_visit hsources hnew
    obtain ⟨hqueue, hclosed⟩ := ih (by simp at hbudget ⊢; omega)
    refine ⟨fun name hname => ?_, fun name hname other hother => ?_⟩
    · grind
    · cases hname with
      | head => grind
      | tail _ hname =>
        have := hclosed name hname other hother
        grind

theorem mem_visit_iff (hsources : ∀ name, name ∉ sources → next name = [])
    (hbudget : queue.length + (sources.flatMap next).length ≤ budget) {name : QualifiedName} :
    name ∈ visit next budget [] queue ↔ ∃ start ∈ queue, Leads next start name := by
  have hbudget : queue.length + openReferences next sources [] ≤ budget := by
    rwa [openReferences_nil]
  obtain ⟨hqueue, hclosed⟩ := visit_closed hsources hbudget
  constructor
  · exact visit_leads
  · rintro ⟨start, hstart, hleads⟩
    induction hleads with
    | refl => exact (hqueue start hstart).resolve_left List.not_mem_nil
    | tail _ hstep ih => exact (hclosed _ ih _ hstep).resolve_left List.not_mem_nil

/-- What a visit finds is decided by the references of the names that it can come to: neither those
of other names nor the budget, as long as it suffices, make a difference. -/
theorem visit_congr {other : QualifiedName → List QualifiedName} {others : List QualifiedName}
    {own : QualifiedName → Prop} (hsources : ∀ name, name ∉ sources → next name = [])
    (hothers : ∀ name, name ∉ others → other name = [])
    (hsame : ∀ name, own name → other name = next name)
    (hclosed : ∀ name, own name → ∀ found ∈ next name, own found)
    (hqueue : ∀ name ∈ queue, own name) {enough : Nat}
    (hbudget : queue.length + openReferences next sources seen ≤ budget)
    (henough : queue.length + openReferences other others seen ≤ enough) :
    visit other enough seen queue = visit next budget seen queue := by
  induction budget generalizing enough seen queue with
  | zero =>
    obtain rfl : queue = [] := List.eq_nil_of_length_eq_zero (by omega)
    cases enough <;> rfl
  | succ budget ih =>
    cases queue with
    | nil => cases enough <;> rfl
    | cons first queue =>
      obtain ⟨hfirst, hqueue⟩ := List.forall_mem_cons.mp hqueue
      rw [List.length_cons] at hbudget henough
      obtain ⟨enough, rfl⟩ : ∃ rest, enough = rest + 1 := ⟨enough - 1, by omega⟩
      by_cases hseen : first ∈ seen
      · rw [visit, visit, if_pos hseen, if_pos hseen]
        exact ih hqueue (by omega) (by omega)
      · have hpaid := openReferences_visit hsources hseen
        have hpays := openReferences_visit hothers hseen
        rw [visit, visit, if_neg hseen, if_neg hseen, hsame first hfirst]
        rw [hsame first hfirst] at hpays
        congr 1
        apply ih
        · intro name hname
          cases List.mem_append.mp hname with
          | inl hold => exact hqueue name hold
          | inr hfound => exact hclosed first hfirst name hfound
        · rw [List.length_append]
          omega
        · rw [List.length_append]
          omega

theorem reachFrom_congr {other : QualifiedName → List QualifiedName} {others : List QualifiedName}
    {own : QualifiedName → Prop} (hsources : ∀ name, name ∉ sources → next name = [])
    (hothers : ∀ name, name ∉ others → other name = [])
    (hsame : ∀ name, own name → other name = next name)
    (hclosed : ∀ name, own name → ∀ found ∈ next name, own found) {start : QualifiedName}
    (hstart : own start) {references enough : Nat}
    (hreferences : (sources.flatMap next).length ≤ references)
    (henough : (others.flatMap other).length ≤ enough) :
    reachFrom other enough start = reachFrom next references start := by
  apply visit_congr hsources hothers hsame hclosed
  · intro name hname
    exact List.mem_singleton.mp hname ▸ hstart
  · rw [openReferences_nil, List.length_singleton]
    omega
  · rw [openReferences_nil, List.length_singleton]
    omega

theorem mem_reachFrom_iff {references : Nat} (hsources : ∀ name, name ∉ sources → next name = [])
    (hbudget : (sources.flatMap next).length ≤ references) {start name : QualifiedName} :
    name ∈ reachFrom next references start ↔ Leads next start name := by
  rw [reachFrom, mem_visit_iff hsources (by rw [List.length_singleton]; omega)]
  simp

end ConfigScript
