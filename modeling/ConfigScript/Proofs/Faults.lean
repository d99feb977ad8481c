import ConfigScript.Proofs.Fallible

/-!
# Faults of fallible steps

A chain of steps, or one step for every element of a list, fails only when one of the steps does,
and with the fault of that step. What holds of the faults of all steps hence holds of the faults of
the chain.
-/

namespace ConfigScript.Fallible

variable {ε α β γ : Type} {kind : ε → Prop}

/-- A step that has no fault but such of one kind. -/
def FaultsIn (kind : ε → Prop) (step : Except ε α) : Prop :=
  ∀ fault, step = .error fault → kind fault

theorem faultsIn_ok (value : α) : FaultsIn kind (.ok value : Except ε α) := by
  intro fault h
  cases h

theorem faultsIn_pure (value : α) : FaultsIn kind (pure value : Except ε α) :=
  faultsIn_ok value

theorem faultsIn_error {fault : ε} (h : kind fault) :
    FaultsIn kind (.error fault : Except ε α) := by
  intro other heq
  exact Except.error.inj heq ▸ h

theorem faultsIn_throw {fault : ε} (h : kind fault) :
    FaultsIn kind (throw fault : Except ε α) :=
  faultsIn_error h

theorem FaultsIn.bind {step : Except ε α} {next : α → Except ε β} (h : FaultsIn kind step)
    (hnext : ∀ value, step = .ok value → FaultsIn kind (next value)) :
    FaultsIn kind (step >>= next) := by
  intro fault hfault
  cases hstep : step with
  | error own =>
    rw [hstep] at hfault
    exact Except.error.inj hfault ▸ h own hstep
  | ok value =>
    rw [hstep] at hfault
    exact hnext value hstep fault hfault

theorem FaultsIn.map {step : Except ε α} (h : FaultsIn kind step) (change : α → β) :
    FaultsIn kind (change <$> step) := by
  intro fault hfault
  cases hstep : step with
  | error own =>
    rw [hstep] at hfault
    exact Except.error.inj hfault ▸ h own hstep
  | ok value =>
    rw [hstep] at hfault
    cases hfault

theorem faultsIn_mapError {step : Except γ α} {change : γ → ε} (h : ∀ fault, kind (change fault)) :
    FaultsIn kind (step.mapError change) := by
  intro fault hfault
  cases step with
  | error own => exact Except.error.inj hfault ▸ h own
  | ok value => cases hfault

/-- A fault that is none of the first step comes from what follows it. -/
theorem FaultsIn.ok_of_bind {step : Except ε α} {next : α → Except ε β} {fault : ε}
    (h : FaultsIn kind step) (hnot : ¬ kind fault) (hfault : (step >>= next) = .error fault) :
    ∃ value, step = .ok value ∧ next value = .error fault := by
  cases hstep : step with
  | error own =>
    rw [hstep] at hfault
    exact absurd (Except.error.inj hfault ▸ h own hstep) hnot
  | ok value =>
    rw [hstep] at hfault
    exact ⟨value, rfl, hfault⟩

/-- A fault that is none of what follows the first step comes from that step. -/
theorem error_of_bind {step : Except ε α} {next : α → Except ε β} {fault : ε}
    (hnext : ∀ value, FaultsIn kind (next value)) (hnot : ¬ kind fault)
    (hfault : (step >>= next) = .error fault) : step = .error fault := by
  cases hstep : step with
  | error own =>
    rw [hstep] at hfault
    exact congrArg _ (Except.error.inj hfault)
  | ok value =>
    rw [hstep] at hfault
    exact absurd (hnext value fault hfault) hnot

/-! ### One step for every element -/

theorem faultsIn_mapM {step : α → Except ε β} {values : List α}
    (h : ∀ value ∈ values, FaultsIn kind (step value)) : FaultsIn kind (values.mapM step) := by
  induction values with
  | nil => exact faultsIn_pure []
  | cons value values ih =>
    obtain ⟨hfirst, hrest⟩ := List.forall_mem_cons.mp h
    rw [List.mapM_cons]
    apply hfirst.bind
    intro first _
    exact (ih hrest).bind fun rest _ => faultsIn_pure (first :: rest)

theorem faultsIn_filterMapM {step : α → Except ε (Option β)} {values : List α}
    (h : ∀ value ∈ values, FaultsIn kind (step value)) :
    FaultsIn kind (values.filterMapM step) := by
  induction values with
  | nil => exact faultsIn_pure []
  | cons value values ih =>
    obtain ⟨hfirst, hrest⟩ := List.forall_mem_cons.mp h
    rw [List.filterMapM_cons]
    apply hfirst.bind
    intro kept _
    cases kept with
    | none => exact ih hrest
    | some first => exact (ih hrest).bind fun rest _ => faultsIn_pure (first :: rest)

theorem faultsIn_flatMapM {step : α → Except ε (List β)} {values : List α}
    (h : ∀ value ∈ values, FaultsIn kind (step value)) : FaultsIn kind (values.flatMapM step) := by
  induction values with
  | nil => exact faultsIn_pure []
  | cons value values ih =>
    obtain ⟨hfirst, hrest⟩ := List.forall_mem_cons.mp h
    rw [List.flatMapM_cons]
    apply hfirst.bind
    intro first _
    exact (ih hrest).bind fun rest _ => faultsIn_pure (first ++ rest)

theorem faultsIn_foldlM {step : β → α → Except ε β} {values : List α}
    (h : ∀ state, ∀ value ∈ values, FaultsIn kind (step state value)) (state : β) :
    FaultsIn kind (values.foldlM step state) := by
  induction values generalizing state with
  | nil => exact faultsIn_pure state
  | cons value values ih =>
    rw [List.foldlM_cons]
    apply (h state value List.mem_cons_self).bind
    intro next _
    exact ih (fun other later hlater => h other later (List.mem_cons_of_mem _ hlater)) next

/-- A loop over checks fails with the fault of one of them. -/
theorem faultsIn_forIn {check : α → Except ε Unit} {step : α → PUnit → Except ε (ForInStep PUnit)}
    (hstep : ∀ value, step value ⟨⟩ = do check value; pure (.yield ⟨⟩)) {values : List α}
    (h : ∀ value ∈ values, FaultsIn kind (check value)) :
    FaultsIn kind (forIn values ⟨⟩ step) := by
  induction values with
  | nil => exact faultsIn_pure _
  | cons value values ih =>
    obtain ⟨hfirst, hrest⟩ := List.forall_mem_cons.mp h
    rw [List.forIn_cons, hstep]
    apply FaultsIn.bind
    · exact hfirst.bind fun _ _ => faultsIn_pure _
    · intro next hnext
      obtain ⟨_, _, hyield⟩ := bind_eq_ok.mp hnext
      obtain rfl := pure_eq_ok.mp hyield
      exact ih hrest

end ConfigScript.Fallible
