import ConfigScript.Proofs.Syntax.Tokens
import ConfigScript.Syntax.Printer

/-!
# Reading literals back

The text of a literal is read as that literal: the escapes of a string are undone one by one, and
the digits of an integer denote it, with the suffix exactly when it has 64 bits.
-/

namespace ConfigScript

variable {c : Char} {cs rest : List Char} {position : Position} {opening : Cursor}

namespace Literal

theorem readCharacters_escaped {value : Char} (h : unescape? c = some value) :
    readCharacters opening ('\\' :: c :: cs) position = (do
      let (values, after) ← readCharacters opening cs ((position.after '\\').after c)
      return (value :: values, after)) := by
  simp [readCharacters, h]

theorem readCharacters_plain (hslash : c ≠ '\\') (hquote : c ≠ '"') (hdollar : c ≠ '$')
    (hfeed : c ≠ '\n') (hreturn : c ≠ '\r') :
    readCharacters opening (c :: cs) position = (do
      let (values, after) ← readCharacters opening cs (position.after c)
      return (c :: values, after)) := by
  simp [readCharacters, hslash, hquote, hdollar, hfeed, hreturn]

/-- A character stands for itself, unless it has an escape of two characters. -/
theorem escapeChar_cases (c : Char) :
    (∃ d, escapeChar c = ['\\', d] ∧ unescape? d = some c) ∨
      escapeChar c = [c] ∧ c ≠ '\\' ∧ c ≠ '"' ∧ c ≠ '$' ∧ c ≠ '\n' ∧ c ≠ '\r' := by
  unfold escapeChar
  split
  · rename_i h
    exact .inl ⟨'\\', rfl, by rw [h]; rfl⟩
  · split
    · rename_i h
      exact .inl ⟨'"', rfl, by rw [h]; rfl⟩
    · split
      · rename_i h
        exact .inl ⟨'$', rfl, by rw [h]; rfl⟩
      · split
        · rename_i h
          exact .inl ⟨'n', rfl, by rw [h]; rfl⟩
        · split
          · rename_i h
            exact .inl ⟨'t', rfl, by rw [h]; rfl⟩
          · split
            · rename_i h
              exact .inl ⟨'r', rfl, by rw [h]; rfl⟩
            · exact .inr ⟨rfl, by assumption, by assumption, by assumption, by assumption,
                by assumption⟩

theorem readCharacters_escape (values : List Char) :
    readCharacters opening (values.flatMap escapeChar ++ '"' :: rest) position =
      .ok (values, ⟨rest, position.afterAll (values.flatMap escapeChar ++ ['"'])⟩) := by
  -- A dollar sign is always escaped, so no character of the text can open a template.
  induction values generalizing position with
  | nil => simp [readCharacters, Position.afterAll]
  | cons value values ih =>
    rw [List.flatMap_cons, List.append_assoc]
    cases escapeChar_cases value with
    | inl hescaped =>
      obtain ⟨d, htext, hvalue⟩ := hescaped
      rw [htext, List.cons_append, List.cons_append, List.nil_append, readCharacters_escaped hvalue,
        ih]
      rfl
    | inr hplain =>
      obtain ⟨htext, hslash, hquote, hdollar, hfeed, hreturn⟩ := hplain
      rw [htext, List.singleton_append,
        readCharacters_plain hslash hquote hdollar hfeed hreturn, ih]
      rfl

theorem readString_render (value : String) :
    readString ⟨(Literal.string value).render.toList ++ rest, position⟩ =
      .ok (some (.string value,
        ⟨rest, position.afterAll (Literal.string value).render.toList⟩)) := by
  have htext : (Literal.string value).render.toList =
      '"' :: (value.toList.flatMap escapeChar ++ ['"']) := by
    simp [render]
  rw [htext, List.cons_append, List.append_assoc, readString, Cursor.char?_self]
  simp only [List.singleton_append, readCharacters_escape]
  simp [bind, Except.bind, pure, Except.pure, Position.afterAll]

theorem readString_cons (h : c ≠ '"') : readString ⟨c :: cs, position⟩ = .ok none := by
  simp [readString, Cursor.char?_ne h]

/-- The sign of an integer as it is written. -/
def signText (value : Int) : List Char :=
  if value < 0 then ['-'] else []

theorem toList_toString (value : Int) :
    (toString value).toList = signText value ++ Nat.toDigits 10 value.natAbs := by
  rw [Int.toString_eq_repr, Int.repr_eq_if]
  split
  · have hsign : ¬ value < 0 := by omega
    have hvalue : value.toNat = value.natAbs := by omega
    rw [signText, if_neg hsign, Nat.toList_repr, hvalue]
    rfl
  · have hsign : value < 0 := by omega
    have hvalue : (-value).toNat = value.natAbs := by omega
    rw [signText, if_pos hsign, String.toList_append, Nat.toList_repr, hvalue]
    rfl

/-- The text of an integer begins with its sign or with a digit. -/
theorem toString_cons (value : Int) :
    ∃ c cs, (toString value).toList = c :: cs ∧ (c = '-' ∨ c.isDigit = true) := by
  rw [toList_toString]
  by_cases hnegative : value < 0
  · exact ⟨'-', _, by rw [signText, if_pos hnegative]; rfl, .inl rfl⟩
  · rw [signText, if_neg hnegative]
    cases hdigits : Nat.toDigits 10 value.natAbs with
    | nil => exact absurd hdigits Nat.toDigits_ne_nil
    | cons digit digits =>
      have hdigit : digit.isDigit = true := by
        refine Nat.isDigit_of_mem_toDigits (b := 10) (n := value.natAbs) (by decide) (by decide) ?_
        rw [hdigits]
        exact List.mem_cons_self
      exact ⟨digit, digits, rfl, .inr hdigit⟩

theorem readString_toString (value : Int) :
    readString ⟨(toString value).toList ++ rest, position⟩ = .ok none := by
  obtain ⟨c, cs, heq, hc⟩ := toString_cons value
  rw [heq]
  refine readString_cons fun hquote => ?_
  rw [hquote] at hc
  exact absurd hc (by decide)

/-- The suffix of an integer of 64 bits. -/
def wideText (suffixed : Bool) : List Char :=
  if suffixed then ['L'] else []

/-- Sign, digits and suffix, found one after another, make a literal, or are out of range. -/
theorem readNumber_eq {cursor unsigned afterDigits after : Cursor} {negative suffixed : Bool}
    {digits : List Char} (hsign : cursor.char? '-' = if negative then some unsigned else none)
    (hunsigned : negative = false → unsigned = cursor)
    (hdigits : unsigned.takeWhile Char.isDigit = (digits, afterDigits))
    (hsuffix : afterDigits.char? 'L' = if suffixed then some after else none)
    (hafter : suffixed = false → after = afterDigits) (hnonempty : digits ≠ [])
    (hstop : after.startsWith continuesIdentifier = false) :
    readNumber cursor =
      match ofInteger? (if negative then -(Nat.ofDigitChars 10 digits 0 : Int)
        else Nat.ofDigitChars 10 digits 0) suffixed with
      | some literal => .ok (some (literal, after))
      | none => .error (.ofCursor .integerOutOfRange cursor) := by
  generalize hmade : ofInteger? _ suffixed = made
  cases negative <;> cases suffixed <;> cases made <;> simp_all [readNumber]

theorem char?_wide {suffixed : Bool} (hrest : Delimited rest) :
    (⟨wideText suffixed ++ rest, position⟩ : Cursor).char? 'L' =
      if suffixed then some ⟨rest, position.afterAll (wideText suffixed)⟩ else none := by
  cases suffixed with
  | true => simp [wideText, Cursor.char?_self, Position.afterAll]
  | false =>
    cases rest with
    | nil => simp [wideText, Cursor.char?]
    | cons c rest =>
      have hne : c ≠ 'L' := by
        rintro rfl
        exact absurd (delimited_cons.mp hrest) (by decide)
      simp [wideText, Cursor.char?_ne hne]

/-- The digits of an integer end at its suffix, or at the text that follows it. -/
theorem isDigit_eq_false_of_mem_head?_wideText {suffixed : Bool} (hrest : Delimited rest)
    (h : c ∈ (wideText suffixed ++ rest).head?) : c.isDigit = false := by
  cases suffixed with
  | true =>
    cases h
    rfl
  | false =>
    rw [Bool.eq_false_iff]
    intro hdigit
    have hcontinues := continuesIdentifier_of_isDigit hdigit
    rw [hrest c h] at hcontinues
    cases hcontinues

/-- The sign of an integer, or nothing. -/
def minusText (negative : Bool) : List Char :=
  if negative then ['-'] else []

theorem signText_eq (value : Int) : signText value = minusText (decide (value < 0)) := by
  simp [signText, minusText]

/-- A sign or none, digits, and a suffix or none are read as a number where no word goes on. -/
theorem readNumber_numeral {negative suffixed : Bool} {digits : List Char}
    (hdigits : ∀ c ∈ digits, c.isDigit = true) (hnonempty : digits ≠ []) (hrest : Delimited rest) :
    readNumber ⟨minusText negative ++ digits ++ wideText suffixed ++ rest, position⟩ =
      match ofInteger? (if negative then -(Nat.ofDigitChars 10 digits 0 : Int)
        else Nat.ofDigitChars 10 digits 0) suffixed with
      | some literal => .ok (some (literal,
          ⟨rest, position.afterAll (minusText negative ++ digits ++ wideText suffixed)⟩))
      | none => .error (.ofCursor .integerOutOfRange
          ⟨minusText negative ++ digits ++ wideText suffixed ++ rest, position⟩) := by
  rw [List.append_assoc, List.append_assoc, Position.afterAll_append, Position.afterAll_append]
  refine @readNumber_eq _ _ _ _ negative suffixed _ ?sign ?unsigned
    (Cursor.takeWhile_run hdigits fun d hd => isDigit_eq_false_of_mem_head?_wideText hrest hd)
    (char?_wide hrest) ?wide hnonempty (Cursor.startsWith_of_delimited hrest)
  case sign =>
    cases negative with
    | true => exact Cursor.char?_self
    | false =>
      cases digits with
      | nil => exact absurd rfl hnonempty
      | cons digit digits =>
        exact Cursor.char?_ne (ne_of_class (hdigits digit List.mem_cons_self) (by decide))
  case unsigned =>
    rintro rfl
    rfl
  case wide =>
    rintro rfl
    rfl

theorem signed_natAbs (value : Int) :
    (if decide (value < 0) then -(value.natAbs : Int) else value.natAbs) = value := by
  by_cases hnegative : value < 0
  · rw [if_pos (decide_eq_true hnegative)]
    omega
  · rw [if_neg (by simpa using hnegative)]
    omega

theorem readNumber_digits {value : Int} {suffixed : Bool} {literal : Literal}
    (hliteral : ofInteger? value suffixed = some literal) (hrest : Delimited rest) :
    readNumber ⟨(toString value).toList ++ wideText suffixed ++ rest, position⟩ =
      .ok (some (literal,
        ⟨rest, position.afterAll ((toString value).toList ++ wideText suffixed)⟩)) := by
  have hdigits : ∀ c ∈ Nat.toDigits 10 value.natAbs, c.isDigit = true :=
    fun c hc => Nat.isDigit_of_mem_toDigits (by decide) (by decide) hc
  rw [toList_toString, signText_eq, readNumber_numeral hdigits Nat.toDigits_ne_nil hrest,
    Nat.ofDigitChars_ten_toDigits, signed_natAbs, hliteral]

theorem readNumber_cons (hdigit : c.isDigit = false) (hminus : c ≠ '-') :
    readNumber ⟨c :: cs, position⟩ = .ok none := by
  simp [readNumber, Cursor.char?_ne hminus, Cursor.takeWhile, hdigit]

theorem ofInteger?_int (value : Int32) : ofInteger? value.toInt false = some (.int value) := by
  have hlow := value.minValue_le_toInt
  have hhigh := value.toInt_le
  rw [ofInteger?, if_pos (by simp only [Bool.not_false, Bool.true_and, decide_eq_true_eq]; omega),
    Int32.ofInt_toInt]

theorem ofInteger?_long (value : Int64) : ofInteger? value.toInt true = some (.long value) := by
  have hlow := value.minValue_le_toInt
  have hhigh := value.toInt_le
  rw [ofInteger?, if_neg (by simp), if_pos ⟨hlow, hhigh⟩, Int64.ofInt_toInt]

theorem readBoolean_word {word : List Char} (hword : isIdentifier word = true)
    (hrest : Delimited rest) :
    readBoolean ⟨word ++ rest, position⟩ =
      if word = "true".toList then some (.boolean true, ⟨rest, position.afterAll word⟩)
      else if word = "false".toList then some (.boolean false, ⟨rest, position.afterAll word⟩)
      else none := by
  rw [readBoolean, Cursor.keyword?_word (by decide) hword hrest,
    Cursor.keyword?_word (by decide) hword hrest]
  by_cases htrue : word = "true".toList
  · rw [if_pos htrue, if_pos htrue]
  · rw [if_neg htrue, if_neg htrue]
    by_cases hfalse : word = "false".toList
    · rw [if_pos hfalse, if_pos hfalse]
    · rw [if_neg hfalse, if_neg hfalse]

end Literal

namespace Parser

open Literal

/-- A word is no literal, unless it is one of the four that are. -/
theorem literalOrWord?_word (word : List Char) (hword : isIdentifier word = true)
    (hrest : Delimited rest) :
    literalOrWord? ⟨word ++ rest, position⟩ = .ok (
      let after : Cursor := ⟨rest, position.afterAll word⟩
      let span := Cursor.spanTo ⟨word ++ rest, position⟩ after
      if word = "true".toList then some (.literal (.boolean true) span, after)
      else if word = "false".toList then some (.literal (.boolean false) span, after)
      else if word = "null".toList then some (.null span, after)
      else if word = "this".toList then some (.this span, after)
      else none) := by
  have hstart : ∃ c cs, word ++ rest = c :: cs ∧ startsIdentifier c = true := by
    cases word with
    | nil => cases hword
    | cons c word => exact ⟨c, word ++ rest, rfl, (Bool.and_eq_true _ _ ▸ hword).1⟩
  obtain ⟨c, cs, heq, hc⟩ := hstart
  have hstring : readString ⟨word ++ rest, position⟩ = .ok none :=
    heq ▸ readString_cons (ne_of_class hc (by decide))
  have hnumber : readNumber ⟨word ++ rest, position⟩ = .ok none :=
    heq ▸ readNumber_cons (not_isDigit_of_starts hc) (ne_of_class hc (by decide))
  rw [literalOrWord?, hstring, hnumber, readBoolean_word hword hrest,
    Cursor.keyword?_word (by decide) hword hrest, Cursor.keyword?_word (by decide) hword hrest]
  by_cases htrue : word = "true".toList
  · rw [if_pos htrue, if_pos htrue]
    rfl
  · rw [if_neg htrue, if_neg htrue]
    by_cases hfalse : word = "false".toList
    · rw [if_pos hfalse, if_pos hfalse]
      rfl
    · rw [if_neg hfalse, if_neg hfalse]
      by_cases hnull : word = "null".toList
      · rw [if_pos hnull, if_pos hnull]
        rfl
      · rw [if_neg hnull, if_neg hnull]
        by_cases hthis : word = "this".toList
        · rw [if_pos hthis, if_pos hthis]
          rfl
        · rw [if_neg hthis, if_neg hthis]
          rfl

theorem literalOrWord?_name {name : String} (hname : isName name = true) (hrest : Delimited rest) :
    literalOrWord? ⟨name.toList ++ rest, position⟩ = .ok none := by
  rw [isName, Bool.and_eq_true, Bool.not_eq_true'] at hname
  have hne : ∀ keyword ∈ keywords, name.toList ≠ keyword.toList := by
    intro keyword hkeyword heq
    rw [String.toList_inj.mp heq, List.contains_iff_mem.mpr hkeyword] at hname
    cases hname.2
  rw [literalOrWord?_word _ hname.1 hrest, if_neg (hne _ (by decide)), if_neg (hne _ (by decide)),
    if_neg (hne _ (by decide)), if_neg (hne _ (by decide))]

theorem literalOrWord?_string {literal : Literal} {cursor after : Cursor}
    (h : readString cursor = .ok (some (literal, after))) :
    literalOrWord? cursor = .ok (some (.literal literal (cursor.spanTo after), after)) := by
  rw [literalOrWord?, h]
  rfl

theorem literalOrWord?_number {literal : Literal} {cursor after : Cursor}
    (hstring : readString cursor = .ok none)
    (h : readNumber cursor = .ok (some (literal, after))) :
    literalOrWord? cursor = .ok (some (.literal literal (cursor.spanTo after), after)) := by
  rw [literalOrWord?, hstring, h]
  rfl

theorem literalOrWord?_integer {value : Int} {suffixed : Bool} {literal : Literal}
    (hliteral : ofInteger? value suffixed = some literal) (hrest : Delimited rest) :
    ∃ span stop, literalOrWord? ⟨(toString value).toList ++ wideText suffixed ++ rest, position⟩ =
      .ok (some (.literal literal span, ⟨rest, stop⟩)) := by
  have hstring : readString ⟨(toString value).toList ++ wideText suffixed ++ rest, position⟩ =
      .ok none := by
    rw [List.append_assoc]
    exact readString_toString value
  exact ⟨_, _, literalOrWord?_number hstring (readNumber_digits hliteral hrest)⟩

/-- Every literal is read back from its text. -/
theorem literalOrWord?_render (value : Literal) (hrest : Delimited rest) :
    ∃ span stop, literalOrWord? ⟨value.render.toList ++ rest, position⟩ =
      .ok (some (.literal value span, ⟨rest, stop⟩)) := by
  cases value with
  | string value => exact ⟨_, _, literalOrWord?_string (readString_render value)⟩
  | int value =>
    simpa [render, wideText] using
      @literalOrWord?_integer rest position _ _ _ (ofInteger?_int value) hrest
  | long value =>
    simpa [render, wideText] using
      @literalOrWord?_integer rest position _ _ _ (ofInteger?_long value) hrest
  | boolean value =>
    cases value with
    | true => exact ⟨_, _, literalOrWord?_word "true".toList (by decide) hrest⟩
    | false => exact ⟨_, _, literalOrWord?_word "false".toList (by decide) hrest⟩

end Parser

end ConfigScript
