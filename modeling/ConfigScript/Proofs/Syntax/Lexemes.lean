import ConfigScript.Proofs.Syntax.Tokens
import ConfigScript.Syntax.Token

/-!
# Lexemes

What a source says, piece by piece, apart from how it is grouped: its words, literals and symbols
without comments, blanks, parentheses, commas and semicolons. The pieces are found by looking at the
characters alone, with no regard to what may stand where.
-/

namespace ConfigScript

inductive Lexeme where
  | word (text : String)
  | string (value : String)
  | int (value : Int)
  | long (value : Int)
  | symbol (c : Char)
deriving DecidableEq

namespace Lexeme

/-- The characters that group and separate, and are no lexemes. -/
def separators : List Char :=
  [' ', '\t', '\r', '\n', '(', ')', ',', ';']

/-- An integer has 32 bits if it fits and no suffix asks for 64. -/
def ofInteger (value : Int) (suffixed : Bool) : Lexeme :=
  if !suffixed && decide (-2147483648 ≤ value ∧ value ≤ 2147483647) then .int value
  else .long value

/-- A character inside a comment that ends with the line. -/
def inLine (c : Char) : Bool :=
  c != '\n' && c != '\r'

/-- What follows the end of a block comment. -/
def behindComment : List Char → List Char
  | '*' :: '/' :: cs => cs
  | _ :: cs => behindComment cs
  | [] => []

/-- The characters up to a closing quote with escapes undone, and what follows it. -/
def quoted? : List Char → Option (List Char × List Char)
  | '"' :: cs => some ([], cs)
  | '\\' :: c :: cs => do
    let value ← Literal.unescape? c
    let (values, rest) ← quoted? cs
    return (value :: values, rest)
  | c :: cs => do
    let (values, rest) ← quoted? cs
    return (c :: values, rest)
  | [] => none

/-- The integer that begins with the digits at the front of a text, and what follows it. -/
def integer (negative : Bool) (cs : List Char) : Lexeme × List Char :=
  let magnitude : Int := Nat.ofDigitChars 10 (cs.takeWhile Char.isDigit) 0
  let value := if negative then -magnitude else magnitude
  match cs.dropWhile Char.isDigit with
  | 'L' :: rest => (ofInteger value true, rest)
  | rest => (ofInteger value false, rest)

/-- The lexeme that begins with a character, if one does, and what follows it or what is left
out in its place. -/
def first (c : Char) (cs : List Char) : Option Lexeme × List Char :=
  if c ∈ separators then (none, cs)
  else if c = '/' ∧ cs.head? = some '/' then (none, cs.dropWhile inLine)
  else if c = '/' ∧ cs.head? = some '*' then (none, behindComment cs.tail)
  else if c = '"' then
    match quoted? cs with
    | some (values, rest) => (some (.string (String.ofList values)), rest)
    | none => (some (.symbol c), cs)
  else if startsIdentifier c then
    (some (.word (String.ofList (c :: cs.takeWhile continuesIdentifier))),
      cs.dropWhile continuesIdentifier)
  else if c.isDigit then
    let (value, rest) := integer false (c :: cs)
    (some value, rest)
  else if c = '-' ∧ cs.head?.any Char.isDigit then
    let (value, rest) := integer true cs
    (some value, rest)
  else (some (.symbol c), cs)

/-! ### What is left becomes shorter -/

theorem length_behindComment_le (cs : List Char) : (behindComment cs).length ≤ cs.length := by
  fun_induction behindComment cs with
  | case1 cs => simp only [List.length_cons]; omega
  | case2 c cs _ ih => simp only [List.length_cons]; omega
  | case3 => simp

theorem length_quoted?_le {cs values rest : List Char} (h : quoted? cs = some (values, rest)) :
    rest.length ≤ cs.length := by
  fun_induction quoted? cs generalizing values with
  | case1 cs =>
    obtain ⟨-, rfl⟩ := Prod.mk.inj (Option.some.inj h)
    simp
  | case2 c cs ih =>
    obtain ⟨value, -, h⟩ := Option.bind_eq_some_iff.mp h
    obtain ⟨⟨others, behind⟩, hothers, h⟩ := Option.bind_eq_some_iff.mp h
    obtain ⟨-, rfl⟩ := Prod.mk.inj (Option.some.inj h)
    have hlength := ih hothers
    simp only [List.length_cons]
    omega
  | case3 c cs _ _ ih =>
    obtain ⟨⟨others, behind⟩, hothers, h⟩ := Option.bind_eq_some_iff.mp h
    obtain ⟨-, rfl⟩ := Prod.mk.inj (Option.some.inj h)
    have hlength := ih hothers
    simp only [List.length_cons]
    omega
  | case4 => cases h

theorem length_integer_le (negative : Bool) (cs : List Char) :
    (integer negative cs).2.length ≤ (cs.dropWhile Char.isDigit).length := by
  unfold integer
  dsimp only
  split
  · rename_i rest hrest
    simp [hrest]
  · exact Nat.le_refl _

theorem length_first_le (c : Char) (cs : List Char) : (first c cs).2.length ≤ cs.length := by
  have hdrop : ∀ p : Char → Bool, (cs.dropWhile p).length ≤ cs.length :=
    fun p => (List.dropWhile_sublist p).length_le
  unfold first
  split
  · exact Nat.le_refl _
  · split
    · exact hdrop inLine
    · split
      · have htail := length_behindComment_le cs.tail
        rw [List.length_tail] at htail
        exact Nat.le_trans htail (Nat.sub_le _ _)
      · split
        · split
          · rename_i hquoted
            exact length_quoted?_le hquoted
          · exact Nat.le_refl _
        · split
          · exact hdrop continuesIdentifier
          · split
            · rename_i hdigit
              have hlength := length_integer_le false (c :: cs)
              rw [List.dropWhile_cons_of_pos hdigit] at hlength
              exact Nat.le_trans hlength (hdrop Char.isDigit)
            · split
              · exact Nat.le_trans (length_integer_le true cs) (hdrop Char.isDigit)
              · exact Nat.le_refl _

end Lexeme

/-- The lexemes of a text, in order. -/
def lexemes : List Char → List Lexeme
  | [] => []
  | c :: cs => (Lexeme.first c cs).1.toList ++ lexemes (Lexeme.first c cs).2
termination_by cs => cs.length
decreasing_by exact Nat.lt_succ_of_le (Lexeme.length_first_le c cs)

namespace Lexeme

variable {c : Char} {cs rest : List Char}

theorem lexemes_nil : lexemes [] = [] := by
  rw [lexemes]

theorem lexemes_cons : lexemes (c :: cs) = (first c cs).1.toList ++ lexemes (first c cs).2 := by
  rw [lexemes]

/-! ### Left out -/

theorem lexemes_separator (h : c ∈ separators) : lexemes (c :: cs) = lexemes cs := by
  rw [lexemes_cons, first, if_pos h]
  rfl

theorem lexemes_lineComment : lexemes ('/' :: '/' :: cs) = lexemes (cs.dropWhile inLine) := by
  have hfirst : first '/' ('/' :: cs) = (none, cs.dropWhile inLine) := by
    rw [first, if_neg (by decide), if_pos ⟨rfl, rfl⟩, List.dropWhile_cons_of_pos (by decide)]
  rw [lexemes_cons, hfirst]
  rfl

theorem lexemes_blockComment : lexemes ('/' :: '*' :: cs) = lexemes (behindComment cs) := by
  have hfirst : first '/' ('*' :: cs) = (none, behindComment cs) := by
    rw [first, if_neg (by decide), if_neg (by simp), if_pos ⟨rfl, rfl⟩, List.tail_cons]
  rw [lexemes_cons, hfirst]
  rfl

/-! ### Lexemes at the front -/

theorem not_separator {p : Char → Bool} (hc : p c = true) (hseparators : separators.any p = false) :
    c ∉ separators := by
  intro hmem
  have hnone := List.any_eq_false.mp hseparators c hmem
  exact hnone hc

theorem lexemes_symbol (h : c ∈ ['=', '.', '\x7b', '\x7d']) :
    lexemes (c :: cs) = .symbol c :: lexemes cs := by
  have hfirst : first c cs = (some (.symbol c), cs) := by
    simp only [List.mem_cons, List.not_mem_nil, or_false] at h
    rcases h with rfl | rfl | rfl | rfl
    all_goals rfl
  rw [lexemes_cons, hfirst]
  rfl

theorem lexemes_string {values : List Char} (h : quoted? cs = some (values, rest)) :
    lexemes ('"' :: cs) = .string (String.ofList values) :: lexemes rest := by
  have hfirst : first '"' cs = (some (.string (String.ofList values)), rest) := by
    simp [first, separators, h]
  rw [lexemes_cons, hfirst]
  rfl

theorem lexemes_word {word : List Char} (hword : isIdentifier word = true)
    (hrest : Delimited rest) :
    lexemes (word ++ rest) = .word (String.ofList word) :: lexemes rest := by
  cases word with
  | nil => cases hword
  | cons c word =>
    obtain ⟨hstarts, hcontinues⟩ := Bool.and_eq_true_iff.mp hword
    have hne : ∀ d, startsIdentifier d = false → c ≠ d := fun d hd => ne_of_class hstarts hd
    have hseparator : c ∉ separators := not_separator hstarts (by decide)
    have hrun := @Cursor.takeWhile_run rest .origin word continuesIdentifier
      (List.all_eq_true.mp hcontinues) hrest
    obtain ⟨htake, hdrop⟩ := Prod.mk.inj hrun
    have hfirst : first c (word ++ rest) = (some (.word (String.ofList (c :: word))), rest) := by
      simp only [first, hseparator, hne '/' (by decide), hne '"' (by decide), hstarts, htake,
        (Cursor.mk.inj hdrop).1, false_and, if_false, if_true]
    rw [List.cons_append, lexemes_cons, hfirst]
    rfl

/-- An integer is found by its sign or its first digit. -/
theorem lexemes_integer {negative : Bool} (h : cs.takeWhile Char.isDigit ≠ []) :
    lexemes ((if negative then ['-'] else []) ++ cs) =
      (integer negative cs).1 :: lexemes (integer negative cs).2 := by
  cases cs with
  | nil => exact absurd rfl h
  | cons d cs =>
    have hdigit : d.isDigit = true := by
      by_cases hdigit : d.isDigit = true
      · exact hdigit
      · rw [List.takeWhile_cons_of_neg hdigit] at h
        exact absurd rfl h
    have hfirst : negative = false → first d cs =
        (some (integer negative (d :: cs)).1, (integer negative (d :: cs)).2) := by
      rintro rfl
      have hstarts : startsIdentifier d = false := by
        rw [Bool.eq_false_iff]
        intro hstarts
        rw [not_isDigit_of_starts hstarts] at hdigit
        cases hdigit
      have hne : ∀ e : Char, e.isDigit = false → d ≠ e := fun e he => ne_of_class hdigit he
      have hseparator : d ∉ separators := not_separator hdigit (by decide)
      simp only [first, hseparator, hne '/' (by decide), hne '"' (by decide), hstarts, hdigit,
        false_and, if_false, if_true, Bool.false_eq_true]
    cases negative with
    | false =>
      rw [if_neg (by decide), List.nil_append, lexemes_cons, hfirst rfl]
      rfl
    | true =>
      have hminus : first '-' (d :: cs) =
          (some (integer true (d :: cs)).1, (integer true (d :: cs)).2) := by
        have hstarts : startsIdentifier '-' = false := by decide
        simp [first, separators, hstarts, hdigit]
      rw [if_pos rfl, List.singleton_append, lexemes_cons, hminus]
      rfl

end Lexeme

end ConfigScript
