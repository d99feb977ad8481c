import ConfigScript.Proofs.Syntax.Rereading

/-!
# Integer literals

A numeral is a sign or none, digits and a suffix or none. Where no word goes on behind it, it is
read as the integer that it denotes, of 32 bits when these hold it and no suffix asks for more, of
64 bits otherwise, and it is out of range when 64 bits do not hold it either. The text of the
literal is a numeral again, for the same integer and of the same width.
-/

namespace ConfigScript

/-- An integer as a script writes it, of any length. -/
structure Numeral where
  negative : Bool
  digits : List Char
  suffixed : Bool
  isDigit : ∀ c ∈ digits, c.isDigit = true
  nonempty : digits ≠ []

namespace Numeral

variable {integer : Int} {suffixed : Bool} {digits rest : List Char}
  {position : Position}

def text (numeral : Numeral) : List Char :=
  Literal.minusText numeral.negative ++ numeral.digits ++ Literal.wideText numeral.suffixed

/-- The number that digits denote, each times the power of ten of its place. -/
def magnitude : List Char → Nat
  | [] => 0
  | digit :: digits => (digit.toNat - '0'.toNat) * Nat.pow 10 digits.length + magnitude digits

def value (numeral : Numeral) : Int :=
  if numeral.negative then -(magnitude numeral.digits : Int) else magnitude numeral.digits

theorem ofDigitChars_eq_magnitude : Nat.ofDigitChars 10 digits 0 = magnitude digits := by
  induction digits with
  | nil => rfl
  | cons digit digits ih =>
    rw [Nat.ofDigitChars_cons, Nat.ofDigitChars_eq_ofDigitChars_zero, ih, magnitude, Nat.mul_zero,
      Nat.zero_add, Nat.mul_comm, Nat.pow_eq]

/-- The shortest numeral of an integer. -/
def ofInt (integer : Int) (suffixed : Bool) : Numeral where
  negative := decide (integer < 0)
  digits := Nat.toDigits 10 integer.natAbs
  suffixed := suffixed
  isDigit := fun _ hc => Nat.isDigit_of_mem_toDigits (by decide) (by decide) hc
  nonempty := Nat.toDigits_ne_nil

theorem text_ofInt :
    (ofInt integer suffixed).text = (toString integer).toList ++ Literal.wideText suffixed := by
  rw [Literal.toList_toString, Literal.signText_eq]
  rfl

theorem value_ofInt : (ofInt integer suffixed).value = integer := by
  rw [value, ofInt, ← ofDigitChars_eq_magnitude, Nat.ofDigitChars_ten_toDigits,
    Literal.signed_natAbs]

theorem readNumber_text (numeral : Numeral) (hrest : Delimited rest) :
    Literal.readNumber ⟨numeral.text ++ rest, position⟩ =
      match Literal.ofInteger? numeral.value numeral.suffixed with
      | some literal => .ok (some (literal, ⟨rest, position.afterAll numeral.text⟩))
      | none => .error (.ofCursor .integerOutOfRange ⟨numeral.text ++ rest, position⟩) := by
  rw [text, value, ← ofDigitChars_eq_magnitude]
  exact Literal.readNumber_numeral numeral.isDigit numeral.nonempty hrest

/-- A numeral does not begin like a string. -/
theorem readString_text (numeral : Numeral) :
    Literal.readString ⟨numeral.text ++ rest, position⟩ = .ok none := by
  obtain ⟨negative, digits, suffixed, hdigits, hnonempty⟩ := numeral
  cases negative with
  | true => exact Literal.readString_cons (by decide)
  | false =>
    cases digits with
    | nil => exact absurd rfl hnonempty
    | cons digit digits =>
      exact Literal.readString_cons (ne_of_class (hdigits digit List.mem_cons_self) (by decide))

end Numeral

/-- Whether a signed word of so many bits holds the value. -/
def FitsIn (bits : Nat) (value : Int) : Prop :=
  -Int.pow 2 (bits - 1) ≤ value ∧ value < Int.pow 2 (bits - 1)

instance (bits : Nat) (value : Int) : Decidable (FitsIn bits value) := by
  unfold FitsIn; infer_instance

namespace Literal

variable {value : Int} {suffixed : Bool} {literal : Literal}

/-- The integer that a literal holds, if it holds one. -/
def integer? : Literal → Option Int
  | .int value => some value.toInt
  | .long value => some value.toInt
  | _ => none

/-- Whether a literal has 64 bits. -/
def isLong : Literal → Bool
  | .long _ => true
  | _ => false

theorem ofInteger?_eq :
    ofInteger? value suffixed =
      if suffixed = false ∧ FitsIn 32 value then some (.int (.ofInt value))
      else if FitsIn 64 value then some (.long (.ofInt value))
      else none := by
  have hnarrow : (Int32.minValue.toInt ≤ value ∧ value ≤ Int32.maxValue.toInt) ↔
      FitsIn 32 value :=
    and_congr_right' Int.lt_add_one_iff.symm
  have hwide : (Int64.minValue.toInt ≤ value ∧ value ≤ Int64.maxValue.toInt) ↔ FitsIn 64 value :=
    and_congr_right' Int.lt_add_one_iff.symm
  simp only [ofInteger?, hnarrow, hwide, Bool.and_eq_true, Bool.not_eq_true', decide_eq_true_eq]

theorem ofInteger?_eq_int_iff :
    (∃ word : Int32, word.toInt = value ∧ ofInteger? value suffixed = some (.int word)) ↔
      suffixed = false ∧ FitsIn 32 value := by
  rw [ofInteger?_eq]
  constructor
  · rintro ⟨word, -, hword⟩
    by_contra hnarrow
    rw [if_neg hnarrow] at hword
    split at hword <;> cases hword
  · intro hnarrow
    exact ⟨.ofInt value, Int32.toInt_ofInt_of_le hnarrow.2.1 hnarrow.2.2, if_pos hnarrow⟩

theorem ofInteger?_eq_long_iff :
    (∃ word : Int64, word.toInt = value ∧ ofInteger? value suffixed = some (.long word)) ↔
      (suffixed = true ∨ ¬FitsIn 32 value) ∧ FitsIn 64 value := by
  have hnot : (suffixed = true ∨ ¬FitsIn 32 value) ↔ ¬(suffixed = false ∧ FitsIn 32 value) := by
    cases suffixed <;> simp
  rw [ofInteger?_eq, hnot]
  constructor
  · rintro ⟨word, -, hword⟩
    split at hword
    · cases hword
    · rename_i hnarrow
      split at hword
      · exact ⟨hnarrow, by assumption⟩
      · cases hword
  · rintro ⟨hnarrow, hwide⟩
    exact ⟨.ofInt value, Int64.toInt_ofInt_of_le hwide.1 hwide.2,
      by rw [if_neg hnarrow, if_pos hwide]⟩

theorem ofInteger?_eq_none_iff : ofInteger? value suffixed = none ↔ ¬FitsIn 64 value := by
  have hwiden : FitsIn 32 value → FitsIn 64 value := by
    have hnarrow : Int.pow 2 (32 - 1) = 2147483648 := rfl
    have hwide : Int.pow 2 (64 - 1) = 9223372036854775808 := rfl
    rw [FitsIn, FitsIn, hnarrow, hwide]
    omega
  rw [ofInteger?_eq]
  grind

/-- What a literal is made of is what it holds. -/
theorem integer?_of_ofInteger? (h : ofInteger? value suffixed = some literal) :
    literal.integer? = some value := by
  rw [ofInteger?_eq] at h
  split at h
  · rename_i hnarrow
    cases h
    exact congrArg some (Int32.toInt_ofInt_of_le hnarrow.2.1 hnarrow.2.2)
  · split at h
    · rename_i hwide
      cases h
      exact congrArg some (Int64.toInt_ofInt_of_le hwide.1 hwide.2)
    · cases h

/-- The text of an integer is its shortest numeral, with the suffix when it has 64 bits. -/
theorem render_eq_text (h : literal.integer? = some value) :
    literal.render.toList = (Numeral.ofInt value literal.isLong).text := by
  rw [Numeral.text_ofInt]
  cases literal with
  | string => cases h
  | int word =>
    cases h
    simp [render, isLong, wideText]
  | long word =>
    cases h
    simp [render, isLong, wideText]
  | boolean => cases h

/-- The integer and the width of a literal make it again. -/
theorem ofInteger?_isLong (h : literal.integer? = some value) :
    ofInteger? value literal.isLong = some literal := by
  cases literal with
  | string => cases h
  | int word =>
    cases h
    exact ofInteger?_int word
  | long word =>
    cases h
    exact ofInteger?_long word
  | boolean => cases h

end Literal

open Literal

variable {literal : Literal} {rest : List Char} {position : Position} {after : Cursor}

/-- A numeral is read as the literal that its value makes, and to its end. -/
theorem Numeral.readNumber_eq_ok_iff (numeral : Numeral) (hrest : Delimited rest) :
    readNumber ⟨numeral.text ++ rest, position⟩ = .ok (some (literal, after)) ↔
      ofInteger? numeral.value numeral.suffixed = some literal ∧
        after = ⟨rest, position.afterAll numeral.text⟩ := by
  rw [numeral.readNumber_text hrest]
  cases ofInteger? numeral.value numeral.suffixed with
  | none => simp
  | some made => simp [eq_comm]

theorem Numeral.readNumber_eq_error_iff (numeral : Numeral) (hrest : Delimited rest)
    {failure : Failure} :
    readNumber ⟨numeral.text ++ rest, position⟩ = .error failure ↔
      ofInteger? numeral.value numeral.suffixed = none ∧
        failure = .ofCursor .integerOutOfRange ⟨numeral.text ++ rest, position⟩ := by
  rw [numeral.readNumber_text hrest]
  cases ofInteger? numeral.value numeral.suffixed with
  | none => simp [eq_comm]
  | some made => simp

/-- An expression that begins with a numeral begins with its literal. -/
theorem Numeral.primary_text (numeral : Numeral) (hrest : Delimited rest) (budget : Nat) :
    let start : Cursor := ⟨numeral.text ++ rest, position⟩
    Parser.primary (budget + 1) start =
      (readNumber start).map (Option.map fun (literal, after) =>
        (.literal literal (start.spanTo after), after)) := by
  intro start
  have hstring : readString start = .ok none := numeral.readString_text
  have hread : readNumber start = _ := numeral.readNumber_text hrest
  rw [Parser.primary, Parser.literalOrWord?, hstring, hread]
  cases ofInteger? numeral.value numeral.suffixed <;> rfl

/-- A numeral is read as its value, in the narrowest width that is asked for and holds it, or it is
out of range; no value is ever another one. The text of the literal denotes the same integer, of
the same width. -/
theorem readNumber_exact (numeral : Numeral) (rest : List Char) (position : Position)
    (hrest : Delimited rest) :
    let start : Cursor := ⟨numeral.text ++ rest, position⟩
    let stop : Cursor := ⟨rest, position.afterAll numeral.text⟩
    ((∃ word : Int32, word.toInt = numeral.value ∧
        readNumber start = .ok (some (.int word, stop))) ↔
      numeral.suffixed = false ∧ FitsIn 32 numeral.value) ∧
    ((∃ word : Int64, word.toInt = numeral.value ∧
        readNumber start = .ok (some (.long word, stop))) ↔
      (numeral.suffixed = true ∨ ¬FitsIn 32 numeral.value) ∧ FitsIn 64 numeral.value) ∧
    ((∃ failure, readNumber start = .error failure ∧ failure.position = position ∧
        failure.cause.message = "integer literal out of range") ↔
      ¬FitsIn 64 numeral.value) ∧
    (∀ literal after, readNumber start = .ok (some (literal, after)) →
      after = stop ∧ literal.integer? = some numeral.value ∧
      (∃ written : Numeral, literal.render.toList = written.text ∧
        written.value = numeral.value ∧ written.suffixed = literal.isLong) ∧
      ∀ others place, Delimited others →
        readNumber ⟨literal.render.toList ++ others, place⟩ =
          .ok (some (literal, ⟨others, place.afterAll literal.render.toList⟩))) ∧
    ∀ budget, Parser.primary (budget + 1) start =
      (readNumber start).map (Option.map fun (literal, after) =>
        (.literal literal (start.spanTo after), after)) := by
  intro start stop
  refine ⟨?int, ?long, ?failure, ?exact, numeral.primary_text hrest⟩
  case int =>
    rw [← ofInteger?_eq_int_iff]
    simp [start, stop, numeral.readNumber_eq_ok_iff hrest]
  case long =>
    rw [← ofInteger?_eq_long_iff]
    simp [start, stop, numeral.readNumber_eq_ok_iff hrest]
  case failure =>
    rw [← @ofInteger?_eq_none_iff _ numeral.suffixed]
    simp [start, numeral.readNumber_eq_error_iff hrest, Failure.ofCursor, Failure.Cause.message]
  case exact =>
    intro literal after hread
    obtain ⟨hmade, hafter⟩ := (numeral.readNumber_eq_ok_iff hrest).mp hread
    have hinteger := integer?_of_ofInteger? hmade
    have htext := render_eq_text hinteger
    refine ⟨hafter, hinteger, ⟨_, htext, Numeral.value_ofInt, rfl⟩, fun others place hothers => ?_⟩
    rw [htext, Numeral.readNumber_eq_ok_iff _ hothers, Numeral.value_ofInt]
    exact ⟨ofInteger?_isLong hinteger, rfl⟩

/-- One below the least integer of 32 bits, with leading zeros, in front of a parenthesis. -/
theorem readNumber_exact_below :
    Delimited [')'] ∧ ∃ word : Int64, word.toInt = -2147483649 ∧
      readNumber ⟨"-002147483649)".toList, .origin⟩ =
        .ok (some (.long word, ⟨[')'], ⟨13, 1, 14⟩⟩)) := by
  have hrest : Delimited [')'] := delimited_cons.mpr (by decide)
  let numeral : Numeral :=
    ⟨true, "002147483649".toList, false, List.all_eq_true.mp (by decide), by decide⟩
  have hvalue : numeral.value = -2147483649 := by decide +kernel
  have hexact := (readNumber_exact numeral [')'] .origin hrest).2.1
  rw [hvalue] at hexact
  exact ⟨hrest, hexact.mpr ⟨.inr (by decide +kernel), by decide +kernel⟩⟩

end ConfigScript
