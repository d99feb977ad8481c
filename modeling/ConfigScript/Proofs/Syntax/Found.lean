import Mathlib.Data.List.DropRight
import ConfigScript.Proofs.Syntax.Halting
import ConfigScript.Proofs.Syntax.Walked

/-!
# What failures quote

A failure quotes the rest of the line at its place, and only that line: where the line holds nothing
more, the failure says that the input ends, whatever the next lines hold, and blanks at the
beginning of the quotation stay. So what it says is what comes next exactly where no blank comes
next, or nothing but blanks.
-/

namespace ConfigScript

namespace Failure

open Text

/-- The part of a text in front of its first line feed. -/
def FirstLine (text line : List Char) : Prop :=
  ∃ rest, text = line ++ rest ∧ '\n' ∉ line ∧ ∀ c ∈ rest.head?, c = '\n'

/-- A line without the blanks at its end, when there is anything else on it. -/
def Shows (line shown : List Char) : Prop :=
  ∃ blanks, line = shown ++ blanks ∧ (∀ c ∈ blanks, isBlank c = true) ∧
    ∃ front last, shown = front ++ [last] ∧ isBlank last = false

/-- At most 24 characters of a text, in quotes; dots stand for those that are left out. -/
def excerpt (shown : List Char) : String :=
  "'" ++ String.ofList (shown.take 24) ++ (if 24 < shown.length then "..." else "") ++ "'"

/-- A text as it is quoted from its first line. -/
inductive Quotes (text : List Char) : String → Prop where
  | nothing {line : List Char} (hline : FirstLine text line)
    (hblank : ∀ c ∈ line, isBlank c = true) : Quotes text "end of input"
  | shown {line shown : List Char} (hline : FirstLine text line) (hshown : Shows line shown) :
    Quotes text (excerpt shown)

/-- A text as it is told by what comes next in it: the line of the first character that is no
blank, from this character on, or the end of the input when there is no such character. -/
inductive Tells (text : List Char) : String → Prop where
  | ended (hblank : ∀ c ∈ text, isBlank c = true) : Tells text "end of input"
  | shown {gap ahead line shown : List Char} (htext : text = gap ++ ahead)
    (hgap : ∀ c ∈ gap, isBlank c = true) (hahead : ∃ c ∈ ahead.head?, isBlank c = false)
    (hline : FirstLine ahead line) (hshown : Shows line shown) : Tells text (excerpt shown)

variable {text line shown : List Char}

theorem firstLine_takeWhile (text : List Char) : FirstLine text (text.takeWhile (· != '\n')) := by
  refine ⟨text.dropWhile (· != '\n'), List.takeWhile_append_dropWhile.symm, fun hmem => ?_,
    fun c hc => ?_⟩
  · simpa using List.mem_takeWhile_imp hmem
  · have hstop := List.head?_dropWhile_not (· != '\n') text
    simpa [Option.mem_def.mp hc] using hstop

theorem shows_trimEnd (h : trimEnd line ≠ []) : Shows line (trimEnd line) := by
  have hlast : isBlank ((line.rdropWhile isBlank).getLast h) = false := by
    simpa using List.rdropWhile_last_not isBlank line h
  exact ⟨line.rtakeWhile isBlank, List.rdropWhile_append_rtakeWhile.symm,
    fun c hc => List.mem_rtakeWhile_imp hc, _, _, (List.dropLast_append_getLast h).symm, hlast⟩

theorem quotes_foundText (text : List Char) : Quotes text (foundText text) := by
  unfold foundText
  dsimp only
  split
  · rename_i hempty
    exact .nothing (firstLine_takeWhile text)
      (List.rdropWhile_eq_nil_iff.mp (List.isEmpty_iff.mp hempty))
  · rename_i hsome
    have hne : trimEnd (text.takeWhile (· != '\n')) ≠ [] := by simpa using hsome
    exact .shown (firstLine_takeWhile text) (shows_trimEnd hne)

/-- A quotation tells the first character that is quoted. -/
theorem toList_excerpt (c : Char) (shown : List Char) :
    ∃ rest, (excerpt (c :: shown)).toList = '\'' :: c :: rest := by
  unfold excerpt
  simp only [String.toList_append, String.toList_ofList, List.take_succ_cons]
  exact ⟨_, rfl⟩

/-- What is shown of a line begins as the text does. -/
theorem Shows.head?_eq (h : Shows line shown) (hline : FirstLine text line) :
    ∃ c, shown.head? = some c ∧ text.head? = some c := by
  obtain ⟨rest, rfl, -⟩ := hline
  obtain ⟨blanks, rfl, -, front, last, rfl, -⟩ := h
  cases front <;> simp

theorem Quotes.ne_excerpt {found : String} (h : Quotes text found) {c d : Char} {shown : List Char}
    (htext : text.head? = some c) (hshown : shown.head? = some d) (hne : c ≠ d) :
    found ≠ excerpt shown := by
  obtain ⟨shown, rfl⟩ := List.head?_eq_some_iff.mp hshown
  obtain ⟨rest, hrest⟩ := toList_excerpt d shown
  intro heq
  cases h with
  | nothing =>
    rw [← heq] at hrest
    cases hrest
  | shown hline hquoted =>
    obtain ⟨first, hfirst, hhead⟩ := hquoted.head?_eq hline
    obtain rfl := Option.some.inj (htext.symm.trans hhead)
    obtain ⟨quoted, rfl⟩ := List.head?_eq_some_iff.mp hfirst
    obtain ⟨others, hothers⟩ := toList_excerpt c quoted
    rw [heq, hrest] at hothers
    exact hne (List.cons.inj (List.cons.inj hothers).2).1.symm

/-- The first line is told as what comes next just where no blank comes next, or only blanks. -/
theorem Quotes.tells_iff {found : String} (h : Quotes text found) :
    Tells text found ↔
      (∀ c ∈ text.head?, isBlank c = false) ∨ ∀ c ∈ text, isBlank c = true := by
  constructor
  · intro htells
    cases htells with
    | ended hblank => exact .inr hblank
    | @shown gap ahead line shown htext hgap hahead hline hshown =>
      obtain ⟨d, hd, hsolid⟩ := hahead
      obtain ⟨first, hfirst, hhead⟩ := hshown.head?_eq hline
      obtain rfl := Option.some.inj (hhead.symm.trans hd)
      cases gap with
      | nil =>
        subst htext
        exact .inl fun c hc => Option.some.inj (hc.symm.trans hhead) ▸ hsolid
      | cons c gap =>
        have hne : c ≠ first := by
          rintro rfl
          rw [hgap c List.mem_cons_self] at hsolid
          cases hsolid
        exact absurd rfl (h.ne_excerpt (by rw [htext]; rfl) hfirst hne)
  · rintro (hsolid | hblank)
    · cases h with
      | @nothing line hline hblank =>
        refine .ended fun c hc => ?_
        obtain ⟨rest, rfl, -, hrest⟩ := hline
        cases line with
        | nil =>
          cases rest with
          | nil => cases hc
          | cons d rest =>
            obtain rfl := hrest d rfl
            cases hsolid '\n' rfl
        | cons d line =>
          have hfirst := hsolid d rfl
          rw [hblank d List.mem_cons_self] at hfirst
          cases hfirst
      | @shown line shown hline hshown =>
        obtain ⟨c, -, hc⟩ := hshown.head?_eq hline
        exact .shown (List.nil_append _).symm nofun ⟨c, hc, hsolid c hc⟩ hline hshown
    · cases h with
      | nothing => exact .ended hblank
      | @shown line shown hline hshown =>
        obtain ⟨rest, rfl, -⟩ := hline
        obtain ⟨blanks, rfl, -, front, last, rfl, hlast⟩ := hshown
        rw [hblank last (by simp)] at hlast
        cases hlast

end Failure

open Text

/-- What a failure of a source quotes. It stands behind the spacing that goes with its cause, and
tells what comes next in the source where no further blank follows that spacing. -/
theorem found_of_parse {label source : String} {failures : ParseFailures}
    (h : Block.parse label source = .error failures ∨ Expr.parse source = .error failures) :
    ∀ failure ∈ failures.failures, ∃ before rest : String, source = before ++ rest ∧
      failure.position = .behind before ∧ Failure.Quotes rest.toList failure.found ∧
      (∀ spacing ∈ failure.cause.passed, ∀ c ∈ rest.toList.head?, spacing.skips c = false) ∧
      (Failure.Tells rest.toList failure.found ↔
        (∀ c ∈ rest.toList.head?, isBlank c = false) ∨ ∀ c ∈ rest.toList, isBlank c = true) := by
  intro failure hfailure
  obtain ⟨place, ⟨before, hreads⟩, hplace, hpassed⟩ := halted_of_parse h failure hfailure
  have hquotes : Failure.Quotes place.rest failure.found := by
    rw [hplace]
    exact Failure.quotes_foundText place.rest
  have hposition : failure.position = .behind (.ofList before) := by
    rw [hplace]
    exact hreads.position.trans Position.afterAll_origin
  refine ⟨.ofList before, .ofList place.rest, ?_, hposition, ?_⟩
  · rw [← String.ofList_append, ← hreads.rest]
    exact String.ofList_toList.symm
  · rw [String.toList_ofList]
    exact ⟨hquotes, fun spacing hspacing => (hpassed spacing hspacing).stopped, hquotes.tells_iff⟩

/-- The word that a line ends with is quoted. -/
theorem found_of_parse_word : ∃ failures, Block.parse "script" "a b" = .error failures ∧
    ∃ failure ∈ failures.failures, failure.found = "'b'" ∧
      ∃ before rest : String, "a b" = before ++ rest ∧ failure.position = .behind before ∧
        Failure.Quotes rest.toList failure.found := by
  have hfailures : Parser.scriptFailures "a b" = [⟨.expectedEndOfStatement, ⟨2, 1, 3⟩, "'b'"⟩] := by
    decide +kernel
  have hparse : Block.parse "script" "a b" = .error _ :=
    Parser.parse_eq_error_iff.mpr ⟨by simp [hfailures], rfl⟩
  have hmem : (⟨.expectedEndOfStatement, ⟨2, 1, 3⟩, "'b'"⟩ : Failure) ∈
      Parser.scriptFailures "a b" := by
    simp [hfailures]
  obtain ⟨before, rest, hsource, hposition, hquotes, -⟩ := found_of_parse (.inl hparse) _ hmem
  exact ⟨_, hparse, _, hmem, rfl, before, rest, hsource, hposition, hquotes⟩

/-- Where the name of a local is missing at the end of its line, the failure says that the input
ends, though the next line holds a statement. -/
theorem found_end_in_front_of_line :
    Block.parse "script" "val\nx = 1" =
        .error ⟨"script", [⟨.expectedLocalName, ⟨3, 1, 4⟩, "end of input"⟩]⟩ ∧
      ¬ Failure.Tells "\nx = 1".toList "end of input" := by
  have hfailures : Parser.scriptFailures "val\nx = 1" =
      [⟨.expectedLocalName, ⟨3, 1, 4⟩, "end of input"⟩] := by
    decide +kernel
  refine ⟨Parser.parse_eq_error_iff.mpr ⟨by simp [hfailures], by rw [hfailures]⟩, fun htells => ?_⟩
  have hquotes : Failure.Quotes "\nx = 1".toList "end of input" :=
    Failure.quotes_foundText "\nx = 1".toList
  rcases hquotes.tells_iff.mp htells with hsolid | hblank
  · exact absurd (hsolid '\n' rfl) (by decide)
  · exact absurd (hblank 'x' (by decide)) (by decide)

end ConfigScript
