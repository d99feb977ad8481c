import ConfigScript.Proofs.Resolution.Attempt
import ConfigScript.Proofs.Resolution.Places

/-!
# Framed attempts

An attempt over a script with a place in it is framed when what stands at the place shows in one
spot only: its operation in the gap of an outline, and what is reported about it between
diagnostics that do not depend on it.
-/

namespace ConfigScript

/-- What may stand at a place: nothing, or a statement that declares nothing. -/
structure Filling where
  statement : Option Statement
  plain : ∀ own ∈ statement, own.declaresNothing = true

/-- What a statement comes to by itself, in the environment of its place. Where resolution does not
come to the place, it comes to nothing. -/
def Environment.attemptAt : Option Environment → Statement → Attempt Operation
  | none, _ => .silent
  | some environment, statement => environment.resolveStatement statement

namespace Filling

def empty : Filling :=
  ⟨none, by simp⟩

def of (statement : Statement) (h : statement.declaresNothing = true) : Filling :=
  ⟨some statement, by simpa using h⟩

def statements (filling : Filling) : List Statement :=
  filling.statement.toList

def operations (filling : Filling) (place : Option Environment) : List Operation :=
  filling.statement.toList.flatMap fun own => (Environment.attemptAt place own).result.toList

def diagnostics (filling : Filling) (place : Option Environment) : List Diagnostic :=
  filling.statement.toList.flatMap fun own => (Environment.attemptAt place own).diagnostics

theorem operations_empty {place : Option Environment} : empty.operations place = [] :=
  rfl

theorem diagnostics_empty {place : Option Environment} : empty.diagnostics place = [] :=
  rfl

variable {statement : Statement} {h : statement.declaresNothing = true}

theorem operations_of {place : Option Environment} :
    (of statement h).operations place =
      (Environment.attemptAt place statement).result.toList := by
  simp [operations, of]

theorem diagnostics_of {place : Option Environment} :
    (of statement h).diagnostics place = (Environment.attemptAt place statement).diagnostics := by
  simp [diagnostics, of]

theorem operations_none {filling : Filling} : filling.operations none = [] := by
  obtain ⟨_ | own, hplain⟩ := filling <;> rfl

theorem diagnostics_none {filling : Filling} : filling.diagnostics none = [] := by
  obtain ⟨_ | own, hplain⟩ := filling <;> rfl

end Filling

namespace Attempt

variable {α β γ ω φ : Type}

theorem bind_of_none {first : Attempt α} {next : α → Attempt β} (h : first.result = none) :
    first >>= next = ⟨none, first.diagnostics⟩ := by
  change first.andThen next = _
  rw [andThen, h]

theorem bind_of_some {first : Attempt α} {next : α → Attempt β} {value : α}
    (h : first.result = some value) :
    first >>= next = ⟨(next value).result, first.diagnostics ++ (next value).diagnostics⟩ := by
  change first.andThen next = _
  rw [andThen, h]

/-! ### Behind a place -/

/-- An attempt in which a gap decides neither about success nor about what is reported. -/
def Uniform (fill : List Operation → ω → α) (runs : List Operation → Attempt α) : Prop :=
  ∃ outline : Attempt ω, ∀ gap,
    runs gap = ⟨outline.result.map (fill gap), outline.diagnostics⟩

variable {fill : List Operation → ω → α} {after : List Operation → φ → β}

theorem uniform_pure {value : List Operation → α} (outline : ω)
    (h : ∀ gap, value gap = fill gap outline) : Uniform fill fun gap => pure (value gap) :=
  ⟨.ok outline, fun gap => congrArg ok (h gap)⟩

theorem uniform_fail {cause : Diagnostic.Cause} {span : Span} :
    Uniform fill fun _ => fail cause span :=
  ⟨.fail cause span, fun _ => rfl⟩

theorem Uniform.bind {runs : List Operation → Attempt α} {next : α → Attempt β}
    (h : Uniform fill runs) (hnext : ∀ outline, Uniform after fun gap => next (fill gap outline)) :
    Uniform after fun gap => runs gap >>= next := by
  obtain ⟨first, hfirst⟩ := h
  cases hresult : first.result with
  | none =>
    refine ⟨⟨none, first.diagnostics⟩, fun gap => ?_⟩
    dsimp only
    rw [hfirst gap, bind_of_none (by rw [hresult, Option.map_none])]
    rfl
  | some outline =>
    obtain ⟨second, hsecond⟩ := hnext outline
    dsimp only at hsecond
    refine ⟨⟨second.result, first.diagnostics ++ second.diagnostics⟩, fun gap => ?_⟩
    dsimp only
    rw [hfirst gap, bind_of_some (by rw [hresult, Option.map_some]), hsecond gap]

theorem uniform_behind {first : Attempt γ} {next : γ → List Operation → Attempt β}
    (hnext : ∀ value, first.result = some value → Uniform after (next value)) :
    Uniform after fun gap => first >>= fun value => next value gap := by
  cases hresult : first.result with
  | none =>
    refine ⟨⟨none, first.diagnostics⟩, fun gap => ?_⟩
    dsimp only
    rw [bind_of_none hresult]
    rfl
  | some value =>
    obtain ⟨second, hsecond⟩ := hnext value hresult
    refine ⟨⟨second.result, first.diagnostics ++ second.diagnostics⟩, fun gap => ?_⟩
    dsimp only
    rw [bind_of_some hresult, hsecond gap]

/-! ### Around a place -/

def Framed (fill : List Operation → ω → α) (runs : Filling → Attempt α) : Prop :=
  ∃ (place : Option Environment) (before : List Diagnostic) (outline : Attempt ω), ∀ filling,
    runs filling = ⟨outline.result.map (fill (filling.operations place)),
      before ++ filling.diagnostics place ++ outline.diagnostics⟩

/-- Resolution that does not depend on the place is framed by what comes of it. -/
theorem framed_of_uniform {runs : List Operation → Attempt α} (h : Uniform fill runs) :
    Framed fill fun _ => runs [] := by
  obtain ⟨outline, houtline⟩ := h
  refine ⟨none, [], outline, fun filling => ?_⟩
  rw [houtline, Filling.operations_none, Filling.diagnostics_none]
  rfl

theorem Framed.bind {runs : Filling → Attempt α} {next : α → Attempt β} (h : Framed fill runs)
    (hnext : ∀ outline, Uniform after fun gap => next (fill gap outline)) :
    Framed after fun filling => runs filling >>= next := by
  obtain ⟨place, before, first, hfirst⟩ := h
  cases hresult : first.result with
  | none =>
    refine ⟨place, before, ⟨none, first.diagnostics⟩, fun filling => ?_⟩
    dsimp only
    rw [hfirst filling, bind_of_none (by rw [hresult, Option.map_none])]
    rfl
  | some outline =>
    obtain ⟨second, hsecond⟩ := hnext outline
    dsimp only at hsecond
    refine ⟨place, before, ⟨second.result, first.diagnostics ++ second.diagnostics⟩,
      fun filling => ?_⟩
    dsimp only
    rw [hfirst filling, bind_of_some (by rw [hresult, Option.map_some]), hsecond]
    simp only [List.append_assoc]

theorem Framed.map {runs : Filling → Attempt α} (h : Framed fill runs) (change : α → β) :
    Framed (fun gap outline => change (fill gap outline)) fun filling => change <$> runs filling :=
  h.bind fun outline => uniform_pure outline fun _ => rfl

theorem framed_behind {first : Attempt γ} {next : γ → Filling → Attempt β}
    (hnext : ∀ value, first.result = some value → Framed after (next value)) :
    Framed after fun filling => first >>= fun value => next value filling := by
  cases hresult : first.result with
  | none =>
    refine ⟨none, [], ⟨none, first.diagnostics⟩, fun filling => ?_⟩
    dsimp only
    rw [bind_of_none hresult, Filling.diagnostics_none]
    rfl
  | some value =>
    obtain ⟨place, before, second, hsecond⟩ := hnext value hresult
    refine ⟨place, first.diagnostics ++ before, second, fun filling => ?_⟩
    dsimp only
    rw [bind_of_some hresult, hsecond filling]
    simp only [List.append_assoc]

theorem Framed.both_left {runs : Filling → Attempt α} (h : Framed fill runs)
    (second : Attempt γ) :
    Framed (fun gap (pair : ω × γ) => (fill gap pair.1, pair.2)) fun filling =>
      (runs filling).both second := by
  obtain ⟨place, before, first, hfirst⟩ := h
  refine ⟨place, before, first.both second, fun filling => ?_⟩
  dsimp only
  rw [hfirst filling]
  simp only [both, List.append_assoc]
  cases first.result <;> cases second.result <;> rfl

theorem Framed.both_right {runs : Filling → Attempt α} (h : Framed fill runs)
    (first : Attempt γ) :
    Framed (fun gap (pair : γ × ω) => (pair.1, fill gap pair.2)) fun filling =>
      first.both (runs filling) := by
  obtain ⟨place, before, second, hsecond⟩ := h
  refine ⟨place, first.diagnostics ++ before,
    ⟨(first.both second).result, second.diagnostics⟩, fun filling => ?_⟩
  dsimp only
  rw [hsecond filling]
  simp only [both, List.append_assoc]
  cases first.result <;> cases second.result <;> rfl

end Attempt

end ConfigScript
