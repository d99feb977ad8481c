import ConfigScript.Digest.Sha256
import ConfigScript.Json.Printer
import Mathlib.Data.Nat.Digits.Defs

/-!
# Hashes in hexadecimal

A hash is written with as many digits for each of its words, so the digits say which words they
are: two messages share the written hash only if they share the hash.
-/

namespace ConfigScript

namespace Json

/-- The last digit stands behind the digits of the quotient. -/
theorem hexDigits_succ {width : Nat} (hwidth : 0 < width) (n : Nat) :
    hexDigits (width + 1) n = hexDigits width (n / 16) ++ [(n % 16).digitChar] := by
  by_cases hsmall : n < 16
  · have hzero : List.replicate width '0' = List.replicate (width - 1) '0' ++ ['0'] := by
      rw [← List.replicate_succ', Nat.sub_add_cancel hwidth]
    simp [hexDigits, Nat.toDigits_of_lt_base hsmall, Nat.div_eq_of_lt hsmall,
      Nat.mod_eq_of_lt hsmall, hzero]
  · simp [hexDigits, Nat.toDigits_of_base_le (by decide : 1 < 16) (Nat.not_lt.mp hsmall)]

theorem length_hexDigits {width n : Nat} (hwidth : 0 < width) (hn : n < 16 ^ width) :
    (hexDigits width n).length = width := by
  have hlength := (Nat.length_toDigits_le_iff (by decide : 1 < 16) hwidth).mpr hn
  simp only [hexDigits, List.length_append, List.length_replicate]
  omega

theorem eq_of_digitChar_eq : ∀ digit < 16, ∀ other < 16,
    Nat.digitChar digit = Nat.digitChar other → digit = other := by
  decide

/-- Numbers that are small enough are told apart by their digits. -/
theorem hexDigits_inj {width n other : Nat} (hn : n < 16 ^ (width + 1))
    (hother : other < 16 ^ (width + 1))
    (h : hexDigits (width + 1) n = hexDigits (width + 1) other) : n = other := by
  induction width generalizing n other with
  | zero =>
    have hdigit : ∀ value < 16, hexDigits 1 value = [value.digitChar] := by
      intro value hvalue
      simp [hexDigits, Nat.toDigits_of_lt_base hvalue]
    rw [hdigit n hn, hdigit other hother] at h
    exact eq_of_digitChar_eq n hn other hother (List.cons.inj h).1
  | succ width ih =>
    rw [hexDigits_succ (Nat.succ_pos width), hexDigits_succ (Nat.succ_pos width) other] at h
    obtain ⟨hquotient, hlast⟩ := List.append_inj' h rfl
    have hremainder : n % 16 = other % 16 :=
      eq_of_digitChar_eq _ (Nat.mod_lt _ (by decide)) _ (Nat.mod_lt _ (by decide))
        (List.cons.inj hlast).1
    have hsmaller : ∀ value < 16 ^ (width + 1 + 1), value / 16 < 16 ^ (width + 1) := by
      intro value hvalue
      rw [Nat.pow_succ] at hvalue
      omega
    have hquotient : n / 16 = other / 16 := ih (hsmaller n hn) (hsmaller other hother) hquotient
    omega

end Json

namespace Sha256

theorem length_hexWord (word : UInt32) : (hexDigest.hexWord word).length = 8 :=
  Json.length_hexDigits (by decide) word.toNat_lt

theorem hexWord_injective : Function.Injective hexDigest.hexWord := by
  intro word other h
  exact UInt32.toNat_inj.mp (Json.hexDigits_inj word.toNat_lt other.toNat_lt h)

/-- Words that are all written with eight digits are told apart by the digits of all of them. -/
theorem flatMap_hexWord_injective :
    Function.Injective fun words : List UInt32 => words.flatMap hexDigest.hexWord := by
  intro words others h
  induction words generalizing others with
  | nil =>
    cases others with
    | nil => rfl
    | cons other others =>
      have hlength := congrArg List.length h
      simp only [List.flatMap_nil, List.flatMap_cons, List.length_append, List.length_nil,
        length_hexWord] at hlength
      omega
  | cons word words ih =>
    cases others with
    | nil =>
      have hlength := congrArg List.length h
      simp only [List.flatMap_nil, List.flatMap_cons, List.length_append, List.length_nil,
        length_hexWord] at hlength
      omega
    | cons other others =>
      simp only [List.flatMap_cons] at h
      obtain ⟨hfirst, hrest⟩ := List.append_inj h
        ((length_hexWord word).trans (length_hexWord other).symm)
      rw [hexWord_injective hfirst, ih hrest]

/-- Two messages share the written hash exactly when they share the hash. -/
theorem hexDigest_eq_iff {message other : List UInt8} :
    hexDigest message = hexDigest other ↔ digest message = digest other := by
  constructor
  · intro h
    exact flatMap_hexWord_injective (String.ofList_injective h)
  · intro h
    rw [hexDigest, hexDigest, h]

end Sha256

end ConfigScript
