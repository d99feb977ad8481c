import ConfigScript.Syntax.Parser

/-!
# Reading spacing and words

What the readers of spacing, names and keywords do at the front of a text of which the beginning is
known. A word is read whole, so it matters what follows: a character that could stand inside a word
would be taken along.
-/

namespace ConfigScript

variable {c : Char} {cs rest : List Char} {position : Position}

/-- Whether an expression may begin with a character. -/
def opensExpression (c : Char) : Bool :=
  startsIdentifier c || c.isDigit || c == '"' || c == '-'

/-- A text that does not go on with a word. -/
def Delimited (rest : List Char) : Prop :=
  ∀ c ∈ rest.head?, continuesIdentifier c = false

theorem delimited_nil : Delimited [] := by
  simp [Delimited]

theorem delimited_cons : Delimited (c :: rest) ↔ continuesIdentifier c = false := by
  simp [Delimited]

theorem ne_of_class {p : Char → Bool} {c d : Char} (hc : p c = true) (hd : p d = false) :
    c ≠ d := by
  rintro rfl
  simp [hd] at hc

theorem isDigit_iff : c.isDigit = true ↔ 48 ≤ c.toNat ∧ c.toNat ≤ 57 := by
  have hdef : c.isDigit = (decide (c.val ≥ 48) && decide (c.val ≤ 57)) := rfl
  simp only [hdef, Bool.and_eq_true, decide_eq_true_eq, ge_iff_le, UInt32.le_iff_toNat_le]
  rfl

theorem isAlpha_iff :
    c.isAlpha = true ↔ 65 ≤ c.toNat ∧ c.toNat ≤ 90 ∨ 97 ≤ c.toNat ∧ c.toNat ≤ 122 := by
  have hdef : c.isAlpha = (decide (c.val ≥ 65 ∧ c.val ≤ 90) ||
      (decide (c.val ≥ 97) && decide (c.val ≤ 122))) := rfl
  simp only [hdef, Bool.or_eq_true, Bool.and_eq_true, decide_eq_true_eq, ge_iff_le,
    UInt32.le_iff_toNat_le]
  rfl

theorem continuesIdentifier_of_isDigit (h : c.isDigit = true) : continuesIdentifier c = true := by
  have hsmall : c.toNat < 128 := by
    have hvalue := isDigit_iff.mp h
    omega
  simp [continuesIdentifier, Text.isAlphanumeric, Text.isNumeric, hsmall, h]

theorem not_isDigit_of_starts (h : startsIdentifier c = true) : c.isDigit = false := by
  rw [Bool.eq_false_iff]
  intro hdigit
  have hvalue := isDigit_iff.mp hdigit
  have hsmall : c.toNat < 128 := by omega
  rw [startsIdentifier, Text.isAlphabetic, if_pos hsmall, Bool.or_eq_true] at h
  cases h with
  | inl halpha =>
    have hletter := isAlpha_iff.mp halpha
    omega
  | inr hunder =>
    rw [beq_iff_eq.mp hunder] at hvalue
    exact absurd hvalue.2 (by decide)

namespace Position

theorem afterAll_append (position : Position) (first second : List Char) :
    position.afterAll (first ++ second) = (position.afterAll first).afterAll second := by
  simp [afterAll, List.foldl_append]

end Position

namespace Spacing

variable {spacing : Spacing}

theorem skip_nil : spacing.skip ⟨[], position⟩ = .ok ⟨[], position⟩ := by
  simp [skip, skipFrom]

theorem skip_stop (hskips : spacing.skips c = false) (hslash : c ≠ '/') :
    spacing.skip ⟨c :: rest, position⟩ = .ok ⟨c :: rest, position⟩ := by
  cases rest <;> simp [skip, skipFrom, hskips, hslash]

theorem skip_cons (hskips : spacing.skips c = true) :
    spacing.skip ⟨c :: rest, position⟩ = spacing.skip ⟨rest, position.after c⟩ := by
  have hslash : c ≠ '/' := by
    rintro rfl
    cases spacing <;> simp [skips] at hskips
  cases rest <;> simp [skip, skipFrom, hskips, hslash]

theorem skip_blanks (count : Nat) :
    spacing.skip ⟨List.replicate count ' ' ++ rest, position⟩ =
      spacing.skip ⟨rest, position.afterAll (List.replicate count ' ')⟩ := by
  induction count generalizing position with
  | zero => rfl
  | succ count ih =>
    have hblank : spacing.skips ' ' = true := by cases spacing <;> rfl
    rw [List.replicate_succ, List.cons_append, skip_cons hblank, ih]
    rfl

/-- No spacing stands in front of an expression. -/
theorem skip_opener (h : opensExpression c = true) :
    spacing.skip ⟨c :: rest, position⟩ = .ok ⟨c :: rest, position⟩ := by
  have hne : ∀ d, opensExpression d = false → c ≠ d := fun d hd => ne_of_class h hd
  refine skip_stop ?_ (hne '/' (by decide))
  cases spacing <;>
    simp [skips, hne ' ' (by decide), hne '\t' (by decide), hne '\r' (by decide),
      hne '\n' (by decide), hne ';' (by decide)]

end Spacing

namespace Cursor

variable {word : List Char}

theorem startsWith_of_delimited (h : Delimited rest) :
    (⟨rest, position⟩ : Cursor).startsWith continuesIdentifier = false := by
  cases rest with
  | nil => rfl
  | cons c rest => exact delimited_cons.mp h

theorem char?_self : (⟨c :: rest, position⟩ : Cursor).char? c = some ⟨rest, position.after c⟩ := by
  simp [char?]

theorem char?_ne {expected : Char} (h : c ≠ expected) :
    (⟨c :: rest, position⟩ : Cursor).char? expected = none := by
  simp [char?, h]

/-- A run of characters of a class ends where the first other one stands. -/
theorem takeWhile_run {p : Char → Bool} (hword : ∀ c ∈ word, p c = true)
    (hrest : ∀ c ∈ rest.head?, p c = false) :
    (⟨word ++ rest, position⟩ : Cursor).takeWhile p =
      (word, ⟨rest, position.afterAll word⟩) := by
  have htake : rest.takeWhile p = [] := by
    cases rest with
    | nil => rfl
    | cons c rest => simp [hrest c rfl]
  have hdrop : rest.dropWhile p = rest := by
    cases rest with
    | nil => rfl
    | cons c rest => simp [hrest c rfl]
  simp only [takeWhile, List.takeWhile_append_of_pos hword, List.dropWhile_append_of_pos hword,
    htake, hdrop, List.append_nil]

theorem name?_word (hword : isIdentifier word = true) (hrest : Delimited rest) :
    (⟨word ++ rest, position⟩ : Cursor).name? =
      if keywords.contains (String.ofList word) then none
      else some (String.ofList word, ⟨rest, position.afterAll word⟩) := by
  have hstart : (⟨word ++ rest, position⟩ : Cursor).startsWith startsIdentifier = true := by
    cases word with
    | nil => cases hword
    | cons c word =>
      rw [isIdentifier, Bool.and_eq_true] at hword
      exact hword.1
  have hrun : (⟨word ++ rest, position⟩ : Cursor).takeWhile continuesIdentifier =
      (word, ⟨rest, position.afterAll word⟩) :=
    takeWhile_run (fun c hc => continuesIdentifier_of_mem hword hc) hrest
  simp only [name?, hstart, hrun, if_true]

theorem name?_name {name : String} (hname : isName name = true) (hrest : Delimited rest) :
    (⟨name.toList ++ rest, position⟩ : Cursor).name? =
      some (name, ⟨rest, position.afterAll name.toList⟩) := by
  rw [isName, Bool.and_eq_true, Bool.not_eq_true'] at hname
  rw [name?_word hname.1 hrest, String.ofList_toList, hname.2]
  rfl

theorem name?_cons (h : startsIdentifier c = false) :
    (⟨c :: rest, position⟩ : Cursor).name? = none := by
  simp [name?, startsWith, h]

/-- A keyword is found where a word stands only when it is that word. -/
theorem keyword?_word {keyword : String}
    (hkeyword : isIdentifier keyword.toList = true)
    (hword : isIdentifier word = true) (hrest : Delimited rest) :
    (⟨word ++ rest, position⟩ : Cursor).keyword? keyword =
      if word = keyword.toList then some ⟨rest, position.afterAll word⟩ else none := by
  split
  · rename_i heq
    subst heq
    have htext : Text.dropStart? keyword.toList (keyword.toList ++ rest) = some rest :=
      Text.dropStart?_eq_some_iff.mpr rfl
    simp [keyword?, text?, htext, startsWith_of_delimited hrest]
  · rename_i hne
    cases htext : Text.dropStart? keyword.toList (word ++ rest) with
    | none => simp [keyword?, text?, htext]
    | some tail =>
      have heq : word ++ rest = keyword.toList ++ tail := Text.dropStart?_eq_some_iff.mp htext
      cases List.append_eq_append_iff.mp heq with
      | inl hlonger =>
        obtain ⟨extra, hextra, hrest'⟩ := hlonger
        cases extra with
        | nil => exact absurd (by simpa using hextra.symm) hne
        | cons d extra =>
          have hcontinues := continuesIdentifier_of_mem hkeyword (c := d) (by simp [hextra])
          have hstops := hrest d (by simp [hrest'])
          simp [hstops] at hcontinues
      | inr hshorter =>
        obtain ⟨extra, hextra, htail⟩ := hshorter
        cases extra with
        | nil => exact absurd (by simpa using hextra) hne
        | cons d extra =>
          have hcontinues := continuesIdentifier_of_mem hword (c := d) (by simp [hextra])
          simp [keyword?, text?, htext, htail, startsWith, hcontinues]

theorem keyword?_cons {keyword : String} {first : Char} {others : List Char}
    (hkeyword : keyword.toList = first :: others) (hne : c ≠ first) :
    (⟨c :: rest, position⟩ : Cursor).keyword? keyword = none := by
  simp [keyword?, text?, hkeyword, Text.dropStart?, Ne.symm hne]

end Cursor

end ConfigScript
