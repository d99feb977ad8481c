import Mathlib.Tactic.Common
import ConfigScript.Proofs.Fallible
import ConfigScript.Proofs.Syntax.Literals
import ConfigScript.Proofs.Syntax.Shape
import ConfigScript.Proofs.Syntax.TreeLexemes

/-!
# Lexemes that readers take

What the readers of spacing, words and literals take from a text, in lexemes: none for spacing, and
one for a word, a literal or a symbol.
-/

namespace ConfigScript

namespace Spacing

variable {spacing : Spacing}

/-- What a scan of spacing has yet to see, once it is out of the comment that it is in. -/
def Mode.behind : Mode → List Char → List Char
  | .between, cs => cs
  | .lineComment, cs => cs.dropWhile Lexeme.inLine
  | .blockComment _, cs => Lexeme.behindComment cs

theorem separator_of_skips {c : Char} (h : spacing.skips c = true) : c ∈ Lexeme.separators := by
  cases spacing <;> simp only [skips, Bool.or_eq_true, beq_iff_eq] at h <;>
    simp only [Lexeme.separators, List.mem_cons] <;> tauto

theorem lexemes_skipFrom {mode : Mode} {cs : List Char} {position : Position} {after : Cursor}
    (h : skipFrom spacing mode cs position = .ok after) :
    lexemes (mode.behind cs) = lexemes after.rest := by
  fun_induction skipFrom spacing mode cs position with
  | case1 cs position ih => exact Lexeme.lexemes_lineComment.trans (ih h)
  | case2 cs position inside ih => exact Lexeme.lexemes_blockComment.trans (ih h)
  | case3 c cs position _ _ hskips ih =>
    exact (Lexeme.lexemes_separator (separator_of_skips hskips)).trans (ih h)
  | case4 =>
    cases h
    rfl
  | case5 c cs position hfeed hskips ih =>
    have hend : (c :: cs).dropWhile Lexeme.inLine = c :: cs := by
      rcases hfeed with rfl | rfl <;> rfl
    rw [Mode.behind, hend]
    exact (Lexeme.lexemes_separator (separator_of_skips hskips)).trans (ih h)
  | case6 c cs position hfeed hskips =>
    cases h
    rcases hfeed with rfl | rfl <;> rfl
  | case7 c cs position hfeed ih =>
    have hinside : Lexeme.inLine c = true := by
      simpa [Lexeme.inLine] using hfeed
    rw [Mode.behind, List.dropWhile_cons_of_pos hinside]
    exact ih h
  | case8 opening cs position ih => exact ih h
  | case9 opening c cs position hopen ih =>
    have hbehind : Lexeme.behindComment (c :: cs) = Lexeme.behindComment cs := by
      rw [Lexeme.behindComment]
      exact hopen
    rw [Mode.behind, hbehind]
    exact ih h
  | case10 => cases h
  | case11 mode position hopen =>
    cases h
    cases mode with
    | blockComment opening => exact absurd rfl (hopen opening)
    | _ => rfl

/-- Spacing has no lexemes. -/
theorem lexemes_skip {cursor after : Cursor} (h : spacing.skip cursor = .ok after) :
    lexemes cursor.rest = lexemes after.rest :=
  lexemes_skipFrom h

end Spacing

namespace Cursor

variable {cursor after : Cursor} {c : Char}

theorem rest_of_char? (h : cursor.char? c = some after) : cursor.rest = c :: after.rest := by
  unfold char? at h
  split at h
  · cases h
  · rename_i d rest hrest
    split at h
    · rename_i heq
      obtain rfl := Option.some.inj h
      rw [hrest, heq]
    · cases h

theorem lexemes_of_symbol (h : cursor.char? c = some after)
    (hsymbol : c ∈ ['=', '.', '\x7b', '\x7d']) :
    lexemes cursor.rest = .symbol c :: lexemes after.rest := by
  rw [rest_of_char? h, Lexeme.lexemes_symbol hsymbol]

theorem lexemes_of_separator (h : cursor.char? c = some after)
    (hseparator : c ∈ Lexeme.separators) : lexemes cursor.rest = lexemes after.rest := by
  rw [rest_of_char? h, Lexeme.lexemes_separator hseparator]

theorem lexemes_of_assignmentSign? (h : cursor.assignmentSign? = some after) :
    lexemes cursor.rest = .symbol '=' :: lexemes after.rest := by
  unfold assignmentSign? at h
  split at h
  · rename_i behind hsign
    split at h
    · cases h
    · obtain rfl := Option.some.inj h
      exact lexemes_of_symbol hsign (by decide)
  · cases h

theorem delimited_of_startsWith (h : cursor.startsWith continuesIdentifier = false) :
    Delimited cursor.rest := by
  obtain ⟨_ | ⟨c, rest⟩, position⟩ := cursor
  · exact delimited_nil
  · exact delimited_cons.mpr h

/-- A name is a whole word. -/
theorem lexemes_of_name? {name : String} (h : cursor.name? = some (name, after)) :
    lexemes cursor.rest = .word name :: lexemes after.rest := by
  have hidentifier : isIdentifier name.toList = true :=
    (Bool.and_eq_true_iff.mp (isName_of_name? h)).1
  have hparts : name = String.ofList (cursor.rest.takeWhile continuesIdentifier) ∧
      after.rest = cursor.rest.dropWhile continuesIdentifier := by
    unfold name? at h
    split at h
    · dsimp only at h
      split at h
      · cases h
      · obtain ⟨rfl, rfl⟩ := Prod.mk.inj (Option.some.inj h)
        exact ⟨rfl, rfl⟩
    · cases h
  obtain ⟨hname, hafter⟩ := hparts
  have hrest : Delimited after.rest := by
    intro c hc
    rw [hafter] at hc
    exact Bool.eq_false_iff.mpr fun hcontinues => by
      have hstop := List.head?_dropWhile_not continuesIdentifier cursor.rest
      simp [Option.mem_def.mp hc, hcontinues] at hstop
  have hsplit : cursor.rest = name.toList ++ after.rest := by
    rw [hname, hafter, String.toList_ofList, List.takeWhile_append_dropWhile]
  rw [hsplit, Lexeme.lexemes_word hidentifier hrest, String.ofList_toList]

/-- A keyword is a whole word. -/
theorem lexemes_of_keyword? {word : String} (h : cursor.keyword? word = some after)
    (hword : isIdentifier word.toList = true) :
    lexemes cursor.rest = .word word :: lexemes after.rest := by
  unfold keyword? at h
  split at h
  · rename_i behind htext
    split at h
    · cases h
    · rename_i hstop
      obtain rfl := Option.some.inj h
      obtain ⟨rest, hrest, rfl⟩ := Option.map_eq_some_iff.mp htext
      have hdelimited : Delimited rest := delimited_of_startsWith (by simpa using hstop)
      rw [Text.dropStart?_eq_some_iff.mp hrest, Lexeme.lexemes_word hword hdelimited,
        String.ofList_toList]
  · cases h

end Cursor

namespace Literal

variable {cursor after : Cursor} {literal : Literal}

/-- The characters between quotes are decoded alike, where they can be read at all. -/
theorem quoted?_of_readCharacters {opening : Cursor} {cs values : List Char} {position : Position}
    (h : readCharacters opening cs position = .ok (values, after)) :
    Lexeme.quoted? cs = some (values, after.rest) := by
  fun_induction readCharacters opening cs position generalizing values with
  | case1 => cases h
  | case2 => cases h
  | case3 c cs position value hvalue ih =>
    obtain ⟨⟨others, behind⟩, hothers, h⟩ := Fallible.bind_eq_ok.mp h
    obtain ⟨rfl, rfl⟩ := Prod.mk.inj (Fallible.pure_eq_ok.mp h)
    simp [Lexeme.quoted?, hvalue, ih hothers]
  | case4 => cases h
  | case5 cs position =>
    obtain ⟨rfl, rfl⟩ := Prod.mk.inj (Except.ok.inj h)
    rfl
  | case6 => cases h
  | case7 => cases h
  | case8 c cs position hlast hescape hquote hfeed htemplate ih =>
    obtain ⟨⟨others, behind⟩, hothers, h⟩ := Fallible.bind_eq_ok.mp h
    obtain ⟨rfl, rfl⟩ := Prod.mk.inj (Fallible.pure_eq_ok.mp h)
    rw [Lexeme.quoted?, ih hothers]
    · rfl
    · exact hquote
    · exact hescape

theorem lexemes_of_readString (h : readString cursor = .ok (some (literal, after))) :
    lexemes cursor.rest = literal.lexeme :: lexemes after.rest := by
  unfold readString at h
  split at h
  · cases h
  · rename_i inside hquote
    obtain ⟨⟨values, behind⟩, hvalues, h⟩ := Fallible.bind_eq_ok.mp h
    obtain ⟨rfl, rfl⟩ := Prod.mk.inj (Option.some.inj (Fallible.pure_eq_ok.mp h))
    rw [Cursor.rest_of_char? hquote, Lexeme.lexemes_string (quoted?_of_readCharacters hvalues)]
    rfl

/-- A literal has the kind and the value of the integer that it was made of. -/
theorem lexeme_of_ofInteger? {value : Int} {suffixed : Bool}
    (h : ofInteger? value suffixed = some literal) :
    literal.lexeme = Lexeme.ofInteger value suffixed := by
  have hsmall : Int32.minValue.toInt = -2147483648 ∧ Int32.maxValue.toInt = 2147483647 := by
    decide
  have hlarge : Int64.minValue.toInt = -9223372036854775808 ∧
      Int64.maxValue.toInt = 9223372036854775807 := by
    decide
  unfold ofInteger? at h
  rw [hsmall.1, hsmall.2, hlarge.1, hlarge.2] at h
  unfold Lexeme.ofInteger
  split at h
  · rename_i hnarrow
    obtain rfl := Option.some.inj h
    rw [if_pos hnarrow, lexeme, Int32.toInt_ofInt_of_le]
    · simp only [Bool.and_eq_true, decide_eq_true_eq] at hnarrow
      omega
    · simp only [Bool.and_eq_true, decide_eq_true_eq] at hnarrow
      omega
  · rename_i hwide
    split at h
    · rename_i hfits
      obtain rfl := Option.some.inj h
      rw [if_neg hwide, lexeme, Int64.toInt_ofInt_of_le]
      · omega
      · omega
    · cases h

/-- A number that is read has digits and the value of them. -/
theorem value_cases {start behind : Cursor} {digits : List Char} {value : Int} {suffixed : Bool}
    (h : (if (digits.isEmpty || behind.startsWith continuesIdentifier) = true then Except.ok none
      else match ofInteger? value suffixed with
        | some literal => Except.ok (some (literal, behind))
        | none => Except.error (Failure.ofCursor .integerOutOfRange start)) =
      Except.ok (some (literal, after))) :
    digits ≠ [] ∧ literal.lexeme = Lexeme.ofInteger value suffixed ∧ after = behind := by
  split at h
  · cases h
  · rename_i hgoes
    split at h
    · rename_i hvalue
      obtain ⟨rfl, rfl⟩ := Prod.mk.inj (Option.some.inj (Except.ok.inj h))
      exact ⟨fun hnone => hgoes (by rw [hnone]; rfl), lexeme_of_ofInteger? hvalue, rfl⟩
    · cases h

/-- Digits and the suffix behind them are one integer. -/
theorem integer_of_digits {start unsigned : Cursor} {negative : Bool}
    (h : (
      let (digits, afterDigits) := unsigned.takeWhile Char.isDigit
      let (suffixed, behind) :=
        match afterDigits.char? 'L' with
        | some behind => (true, behind)
        | none => (false, afterDigits)
      if digits.isEmpty || behind.startsWith continuesIdentifier then Except.ok none
      else
        let magnitude : Int := Nat.ofDigitChars 10 digits 0
        match ofInteger? (if negative then -magnitude else magnitude) suffixed with
        | some literal => Except.ok (some (literal, behind))
        | none => Except.error (Failure.ofCursor .integerOutOfRange start)) =
      Except.ok (some (literal, after))) :
    unsigned.rest.takeWhile Char.isDigit ≠ [] ∧
      Lexeme.integer negative unsigned.rest = (literal.lexeme, after.rest) := by
  cases hsuffix : (unsigned.takeWhile Char.isDigit).2.char? 'L' with
  | none =>
    dsimp only at h
    rw [hsuffix] at h
    obtain ⟨hdigits, hvalue, rfl⟩ := value_cases h
    refine ⟨hdigits, ?_⟩
    rw [hvalue, Lexeme.integer]
    dsimp only
    split
    · rename_i rest hrest
      simp [Cursor.takeWhile, Cursor.char?, hrest] at hsuffix
    · rfl
  | some behind =>
    dsimp only at h
    rw [hsuffix] at h
    obtain ⟨hdigits, hvalue, rfl⟩ := value_cases h
    refine ⟨hdigits, ?_⟩
    have hdropped : unsigned.rest.dropWhile Char.isDigit = 'L' :: after.rest :=
      Cursor.rest_of_char? hsuffix
    rw [hvalue, Lexeme.integer, hdropped]
    rfl

/-- A number that is read is the integer behind its sign. -/
theorem lexemes_of_readNumber (h : readNumber cursor = .ok (some (literal, after))) :
    lexemes cursor.rest = literal.lexeme :: lexemes after.rest := by
  have hread : ∃ (negative : Bool) (unsigned : List Char),
      cursor.rest = (if negative then ['-'] else []) ++ unsigned ∧
      unsigned.takeWhile Char.isDigit ≠ [] ∧
      Lexeme.integer negative unsigned = (literal.lexeme, after.rest) := by
    unfold readNumber at h
    cases hsign : cursor.char? '-' with
    | none =>
      refine ⟨false, cursor.rest, rfl, ?_⟩
      rw [hsign] at h
      exact integer_of_digits h
    | some unsigned =>
      refine ⟨true, unsigned.rest, Cursor.rest_of_char? hsign, ?_⟩
      rw [hsign] at h
      exact integer_of_digits h
  obtain ⟨negative, unsigned, hrest, hdigits, hinteger⟩ := hread
  rw [hrest, Lexeme.lexemes_integer hdigits, hinteger]

theorem lexemes_of_readBoolean (h : readBoolean cursor = some (literal, after)) :
    lexemes cursor.rest = literal.lexeme :: lexemes after.rest := by
  unfold readBoolean at h
  split at h
  · rename_i htrue
    obtain ⟨rfl, rfl⟩ := Prod.mk.inj (Option.some.inj h)
    exact Cursor.lexemes_of_keyword? htrue (by decide)
  · rename_i hfalse
    obtain ⟨rfl, rfl⟩ := Prod.mk.inj (Option.some.inj h)
    exact Cursor.lexemes_of_keyword? hfalse (by decide)
  · cases h

end Literal

end ConfigScript
