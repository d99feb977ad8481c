import Mathlib.Tactic.Common
import ConfigScript.Resolution.Attempt

/-!
# Results of attempts

What it means that an attempt made of several parts has a result: the parts on which it depends
have one each, and the result is put together from theirs.
-/

namespace ConfigScript.Attempt

variable {α β : Type}

@[simp] theorem result_ok {value : α} : (ok value).result = some value :=
  rfl

@[simp] theorem result_silent : (silent : Attempt α).result = none :=
  rfl

@[simp] theorem result_fail {cause : Diagnostic.Cause} {span : Span} :
    (fail cause span : Attempt α).result = none :=
  rfl

theorem ok_bind {value : α} {next : α → Attempt β} : (ok value >>= next) = next value :=
  rfl

theorem result_bind {first : Attempt α} {next : α → Attempt β} {result : β} :
    (first >>= next).result = some result ↔
      ∃ value, first.result = some value ∧ (next value).result = some result := by
  change (first.andThen next).result = some result ↔ _
  unfold andThen
  cases first.result with
  | none => simp
  | some value => simp

theorem result_pure {value result : α} :
    (pure value : Attempt α).result = some result ↔ value = result := by
  change some value = some result ↔ _
  simp

theorem result_map {first : Attempt α} {change : α → β} {result : β} :
    (change <$> first).result = some result ↔
      ∃ value, first.result = some value ∧ change value = result := by
  change (first >>= fun value => pure (change value)).result = some result ↔ _
  simp only [result_bind, result_pure]

theorem result_both {first : Attempt α} {second : Attempt β} {result : α × β} :
    (first.both second).result = some result ↔
      first.result = some result.1 ∧ second.result = some result.2 := by
  unfold both
  cases first.result with
  | none => simp
  | some left =>
    cases second.result with
    | none => simp
    | some right => simp [Prod.ext_iff]

end ConfigScript.Attempt
