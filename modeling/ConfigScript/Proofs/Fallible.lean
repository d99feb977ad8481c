import Mathlib.Data.List.Forall2
import Mathlib.Data.List.Perm.Basic

/-!
# Sequences of fallible steps

What it means that a chain of steps, or one step for every element of a list, has come to a result:
each of the steps has, and the result is put together from theirs.
-/

namespace ConfigScript.Fallible

variable {ε α β γ δ : Type}

theorem bind_eq_ok {step : Except ε α} {next : α → Except ε β} {result : β} :
    (step >>= next) = .ok result ↔ ∃ value, step = .ok value ∧ next value = .ok result := by
  cases step with
  | error fault => simp [bind, Except.bind]
  | ok value => simp [bind, Except.bind]

theorem map_eq_ok {step : Except ε α} {change : α → β} {result : β} :
    (change <$> step) = .ok result ↔ ∃ value, step = .ok value ∧ change value = result := by
  cases step with
  | error fault => simp [Functor.map, Except.map]
  | ok value => simp [Functor.map, Except.map]

theorem pure_eq_ok {value result : α} :
    (pure value : Except ε α) = .ok result ↔ value = result := by
  simp [pure, Except.pure]

theorem mapError_eq_ok {step : Except ε α} {change : ε → γ} {result : α} :
    step.mapError change = .ok result ↔ step = .ok result := by
  cases step with
  | error fault => simp [Except.mapError]
  | ok value => simp [Except.mapError]

theorem toOption_eq_some {step : Except ε α} {result : α} :
    step.toOption = some result ↔ step = .ok result := by
  cases step with
  | error fault => simp [Except.toOption]
  | ok value => simp [Except.toOption]

theorem mapM_eq_ok {step : α → Except ε β} {values : List α} {results : List β} :
    values.mapM step = .ok results ↔
      List.Forall₂ (fun value result => step value = .ok result) values results := by
  induction values generalizing results with
  | nil => simp [pure, Except.pure, eq_comm]
  | cons value values ih =>
    simp only [List.mapM_cons, bind_eq_ok, pure_eq_ok, List.forall₂_cons_left_iff, ih]
    constructor
    · rintro ⟨first, hfirst, rest, hrest, rfl⟩
      exact ⟨first, rest, hfirst, hrest, rfl⟩
    · rintro ⟨first, rest, hfirst, hrest, rfl⟩
      exact ⟨first, hfirst, rest, hrest, rfl⟩

/-- What can be read off a result as well as off what it comes from. -/
theorem map_of_mapM_eq_ok {step : α → Except ε β} {spelled : α → γ} {read : β → γ}
    (hsame : ∀ value result, step value = .ok result → read result = spelled value)
    {values : List α} {results : List β} (h : values.mapM step = .ok results) :
    results.map read = values.map spelled := by
  rw [mapM_eq_ok] at h
  induction h with
  | nil => rfl
  | cons hfirst _ ih => rw [List.map_cons, List.map_cons, ih, hsame _ _ hfirst]

/-- What a part of each step comes to can be read off the results. -/
theorem filterMap_of_mapM_eq_ok {step : α → Except ε β} {part : α → Except δ γ} {read : β → γ}
    (hsame : ∀ value result, step value = .ok result → part value = .ok (read result))
    {values : List α} {results : List β} (h : values.mapM step = .ok results) :
    values.filterMap (fun value => (part value).toOption) = results.map read := by
  rw [mapM_eq_ok] at h
  induction h with
  | nil => rfl
  | cons hfirst _ ih =>
    rw [List.map_cons, ← ih]
    apply List.filterMap_cons_some
    rw [toOption_eq_some, hsame _ _ hfirst]

theorem mem_of_mapM_eq_ok {step : α → Except ε β} {values : List α} {results : List β}
    (h : values.mapM step = .ok results) {result : β} (hmem : result ∈ results) :
    ∃ value ∈ values, step value = .ok result := by
  rw [mapM_eq_ok] at h
  induction h with
  | nil => cases hmem
  | cons hhead _ ih =>
    cases hmem with
    | head => exact ⟨_, List.mem_cons_self, hhead⟩
    | tail _ hmem =>
      obtain ⟨value, hvalue, hstep⟩ := ih hmem
      exact ⟨value, List.mem_cons_of_mem _ hvalue, hstep⟩

theorem exists_of_mapM_eq_ok {step : α → Except ε β} {values : List α} {results : List β}
    (h : values.mapM step = .ok results) {value : α} (hmem : value ∈ values) :
    ∃ result ∈ results, step value = .ok result := by
  rw [mapM_eq_ok] at h
  induction h with
  | nil => cases hmem
  | cons hhead _ ih =>
    cases hmem with
    | head => exact ⟨_, List.mem_cons_self, hhead⟩
    | tail _ hmem =>
      obtain ⟨result, hresult, hstep⟩ := ih hmem
      exact ⟨result, List.mem_cons_of_mem _ hresult, hstep⟩

/-- A pass over a list passes every element between what stands before it and what stands after. -/
theorem split_of_mapM_eq_ok {step : α → Except ε β} {before after : List α} {value : α}
    {results : List β} (h : (before ++ value :: after).mapM step = .ok results) :
    ∃ front result rest, results = front ++ result :: rest ∧ step value = .ok result ∧
      after.mapM step = .ok rest := by
  simp only [List.mapM_append, List.mapM_cons, bind_eq_ok, pure_eq_ok] at h
  obtain ⟨front, -, back, ⟨result, hresult, rest, hrest, rfl⟩, rfl⟩ := h
  exact ⟨front, result, rest, rfl, hresult, hrest⟩

/-- The results of a filtering pass, and that no step of the pass has failed. -/
theorem filterMapM_eq_ok {step : α → Except ε (Option β)} {values : List α} {results : List β}
    (h : values.filterMapM step = .ok results) :
    (∀ value ∈ values, ∃ kept, step value = .ok kept) ∧
      ∀ result, result ∈ results ↔ ∃ value ∈ values, step value = .ok (some result) := by
  induction values generalizing results with
  | nil => simp_all [pure, Except.pure]
  | cons value values ih =>
    rw [List.filterMapM_cons, bind_eq_ok] at h
    obtain ⟨kept, hkept, hrest⟩ := h
    cases kept with
    | none =>
      obtain ⟨hall, hmem⟩ := ih hrest
      exact ⟨by grind, by simp [hmem, hkept]⟩
    | some first =>
      simp only [bind_eq_ok, pure_eq_ok] at hrest
      obtain ⟨rest, hrest, rfl⟩ := hrest
      obtain ⟨hall, hmem⟩ := ih hrest
      exact ⟨by grind, by simp [hmem, hkept, eq_comm]⟩

theorem length_le_of_filterMapM_eq_ok {step : α → Except ε (Option β)} {values : List α}
    {results : List β} (h : values.filterMapM step = .ok results) :
    results.length ≤ values.length := by
  induction values generalizing results with
  | nil => simp_all [pure, Except.pure]
  | cons value values ih =>
    rw [List.filterMapM_cons, bind_eq_ok] at h
    obtain ⟨kept, -, hkept⟩ := h
    cases kept with
    | none =>
      have hlength := ih hkept
      simp only [List.length_cons]
      omega
    | some first =>
      simp only [bind_eq_ok, pure_eq_ok] at hkept
      obtain ⟨rest, hrest, rfl⟩ := hkept
      have hlength := ih hrest
      simp only [List.length_cons]
      omega

theorem flatMapM_eq_ok {step : α → Except ε (List β)} {values : List α} {results : List β}
    (h : values.flatMapM step = .ok results) :
    (∀ value ∈ values, ∃ parts, step value = .ok parts) ∧
      ∀ result, result ∈ results ↔ ∃ value ∈ values, ∃ parts,
        step value = .ok parts ∧ result ∈ parts := by
  induction values generalizing results with
  | nil => simp_all [pure, Except.pure]
  | cons value values ih =>
    simp only [List.flatMapM_cons, bind_eq_ok, pure_eq_ok] at h
    obtain ⟨parts, hparts, rest, hrest, rfl⟩ := h
    obtain ⟨hall, hmem⟩ := ih hrest
    exact ⟨by grind, by simp [hmem, hparts]⟩

theorem exists_bind_eq_ok {step : Except ε α} {next : α → Except ε β} :
    (∃ result, (step >>= next) = .ok result) ↔
      ∃ value, step = .ok value ∧ ∃ result, next value = .ok result := by
  simp only [bind_eq_ok]
  grind

theorem exists_pure_eq_ok {value : α} : ∃ result, (pure value : Except ε α) = .ok result :=
  ⟨value, rfl⟩

/-- A pass over a list ends well exactly when each of its steps does. -/
theorem exists_mapM_eq_ok {step : α → Except ε β} {values : List α} :
    (∃ results, values.mapM step = .ok results) ↔
      ∀ value ∈ values, ∃ result, step value = .ok result := by
  induction values with
  | nil => simp [pure, Except.pure]
  | cons value values ih =>
    simp only [List.mapM_cons, exists_bind_eq_ok, exists_pure_eq_ok, and_true, exists_and_right, ih,
      List.forall_mem_cons]

theorem exists_filterMapM_eq_ok {step : α → Except ε (Option β)} {values : List α} :
    (∃ results, values.filterMapM step = .ok results) ↔
      ∀ value ∈ values, ∃ kept, step value = .ok kept := by
  induction values with
  | nil => simp [pure, Except.pure]
  | cons value values ih =>
    rw [List.filterMapM_cons, exists_bind_eq_ok, List.forall_mem_cons, ← ih, ← exists_and_right]
    apply exists_congr
    intro kept
    cases kept with
    | none => rfl
    | some first => simp only [exists_bind_eq_ok, exists_pure_eq_ok, and_true]

theorem exists_flatMapM_eq_ok {step : α → Except ε (List β)} {values : List α} :
    (∃ results, values.flatMapM step = .ok results) ↔
      ∀ value ∈ values, ∃ parts, step value = .ok parts := by
  induction values with
  | nil => simp [pure, Except.pure]
  | cons value values ih =>
    simp only [List.flatMapM_cons, exists_bind_eq_ok, exists_pure_eq_ok, and_true,
      exists_and_right, ih, List.forall_mem_cons]

/-- Steps taken in another order have the same results in another order. -/
theorem exists_mapM_perm {step : α → Except ε β} {values others : List α} {results : List β}
    (hperm : values.Perm others) (h : values.mapM step = .ok results) :
    ∃ reordered, others.mapM step = .ok reordered ∧ results.Perm reordered := by
  simp only [mapM_eq_ok] at h ⊢
  obtain ⟨reordered, hreordered, hresults⟩ := List.perm_comp_forall₂ hperm.symm h
  exact ⟨reordered, hreordered, hresults.symm⟩

theorem bind_congr {step : Except ε α} {next other : α → Except ε β}
    (h : ∀ value, step = .ok value → next value = other value) :
    (step >>= next) = (step >>= other) := by
  cases step with
  | error fault => rfl
  | ok value => exact h value rfl

theorem bind_congr_of_eq {step other : Except ε α} {next later : α → Except ε β}
    (hstep : step = other) (hnext : ∀ value, step = .ok value → next value = later value) :
    (step >>= next) = (other >>= later) := by
  rw [← hstep]
  exact bind_congr hnext

theorem mapM_congr {step other : α → Except ε β} {values : List α}
    (h : ∀ value ∈ values, step value = other value) : values.mapM step = values.mapM other := by
  induction values with
  | nil => rfl
  | cons value values ih =>
    obtain ⟨hfirst, hrest⟩ := List.forall_mem_cons.mp h
    rw [List.mapM_cons, List.mapM_cons, hfirst, ih hrest]

theorem filterMapM_congr {step other : α → Except ε (Option β)} {values : List α}
    (h : ∀ value ∈ values, step value = other value) :
    values.filterMapM step = values.filterMapM other := by
  induction values with
  | nil => rfl
  | cons value values ih =>
    obtain ⟨hfirst, hrest⟩ := List.forall_mem_cons.mp h
    rw [List.filterMapM_cons, List.filterMapM_cons, hfirst, ih hrest]

theorem flatMapM_congr {step other : α → Except ε (List β)} {values : List α}
    (h : ∀ value ∈ values, step value = other value) :
    values.flatMapM step = values.flatMapM other := by
  induction values with
  | nil => rfl
  | cons value values ih =>
    obtain ⟨hfirst, hrest⟩ := List.forall_mem_cons.mp h
    rw [List.flatMapM_cons, List.flatMapM_cons, hfirst, ih hrest]

theorem filterMapM_map {change : γ → α} {step : α → Except ε (Option β)} {values : List γ} :
    (values.map change).filterMapM step = values.filterMapM (step ∘ change) := by
  induction values with
  | nil => rfl
  | cons value values ih =>
    rw [List.map_cons, List.filterMapM_cons, List.filterMapM_cons, ih]
    rfl

theorem flatMapM_map {change : γ → α} {step : α → Except ε (List β)} {values : List γ} :
    (values.map change).flatMapM step = values.flatMapM (step ∘ change) := by
  induction values with
  | nil => rfl
  | cons value values ih =>
    rw [List.map_cons, List.flatMapM_cons, List.flatMapM_cons, ih]
    rfl

theorem toOption_map {step : Except ε α} {change : α → β} :
    (change <$> step).toOption = step.toOption.map change := by
  cases step with
  | error fault => rfl
  | ok value => rfl

/-- Chains whose steps come to the same results, faults apart, come to the same result. -/
theorem toOption_bind_congr {step other : Except ε α} {next later : α → Except ε β}
    (hstep : step.toOption = other.toOption)
    (hnext : ∀ value, step = .ok value → (next value).toOption = (later value).toOption) :
    (step >>= next).toOption = (other >>= later).toOption := by
  cases step with
  | error fault =>
    cases other with
    | error => rfl
    | ok value => cases hstep
  | ok value =>
    obtain rfl := toOption_eq_some.mp hstep.symm
    exact hnext value rfl

theorem toOption_mapM_congr {step other : α → Except ε β} {values : List α}
    (h : ∀ value ∈ values, (step value).toOption = (other value).toOption) :
    (values.mapM step).toOption = (values.mapM other).toOption := by
  induction values with
  | nil => rfl
  | cons value values ih =>
    obtain ⟨hfirst, hrest⟩ := List.forall_mem_cons.mp h
    rw [List.mapM_cons, List.mapM_cons]
    exact toOption_bind_congr hfirst fun _ _ => toOption_bind_congr (ih hrest) fun _ _ => rfl

theorem toOption_filterMapM_congr {step other : α → Except ε (Option β)} {values : List α}
    (h : ∀ value ∈ values, (step value).toOption = (other value).toOption) :
    (values.filterMapM step).toOption = (values.filterMapM other).toOption := by
  induction values with
  | nil => rfl
  | cons value values ih =>
    obtain ⟨hfirst, hrest⟩ := List.forall_mem_cons.mp h
    rw [List.filterMapM_cons, List.filterMapM_cons]
    refine toOption_bind_congr hfirst fun kept _ => ?_
    cases kept with
    | none => exact ih hrest
    | some first => exact toOption_bind_congr (ih hrest) fun _ _ => rfl

/-- A loop over checks that comes to its end has passed all of them. -/
theorem forIn_eq_ok {check : α → Except ε Unit}
    {step : α → PUnit → Except ε (ForInStep PUnit)}
    (hstep : ∀ value, step value ⟨⟩ = do check value; pure (.yield ⟨⟩)) {values : List α}
    {result : PUnit} (h : forIn values ⟨⟩ step = .ok result) :
    ∀ value ∈ values, check value = .ok () := by
  induction values with
  | nil => simp
  | cons value values ih =>
    simp only [List.forIn_cons, hstep, bind_eq_ok, pure_eq_ok] at h
    obtain ⟨next, ⟨passed, hpassed, rfl⟩, h⟩ := h
    exact List.forall_mem_cons.mpr ⟨hpassed, ih h⟩

/-- A loop over checks comes to its end when all of them pass. -/
theorem forIn_ok {check : α → Except ε Unit} {step : α → PUnit → Except ε (ForInStep PUnit)}
    (hstep : ∀ value, step value ⟨⟩ = do check value; pure (.yield ⟨⟩)) {values : List α}
    (h : ∀ value ∈ values, check value = .ok ()) : forIn values ⟨⟩ step = .ok ⟨⟩ := by
  induction values with
  | nil => rfl
  | cons value values ih =>
    obtain ⟨hfirst, hrest⟩ := List.forall_mem_cons.mp h
    rw [List.forIn_cons, hstep, hfirst]
    exact ih hrest

end ConfigScript.Fallible
