import Mathlib.Data.Bool.AllAny
import ConfigScript.Proofs.Syntax.Following
import ConfigScript.Proofs.Syntax.Reading

/-!
# Gaps between tokens

Spacing that has been passed over once is passed over in any other place too. Only a comment to the
end of the line asks for something behind it: there the line has to end, or else the comment goes
on. What stands behind a gap decides how a reader goes on, and less spacing in front of it is passed
over where fewer characters count as spacing.
-/

namespace ConfigScript

/-- A text in front of which a line ends, or the source. -/
def BreaksLine (rest : List Char) : Prop :=
  ∀ c ∈ rest.head?, c = '\n' ∨ c = '\r'

namespace Spacing

variable {spacing wider : Spacing} {text rest cs : List Char} {position : Position} {c : Char}
  {cursor after : Cursor}

/-- A text that a scan of spacing passes over, whatever stands behind it. -/
def Gap (spacing : Spacing) (text : List Char) : Prop :=
  ∀ (rest : List Char) (position : Position),
    spacing.skip ⟨text ++ rest, position⟩ = spacing.skip ⟨rest, position.afterAll text⟩

/-- A text that a scan of spacing passes over where a line ends behind it. -/
def LineGap (spacing : Spacing) (text : List Char) : Prop :=
  ∀ (rest : List Char) (position : Position), BreaksLine rest →
    spacing.skip ⟨text ++ rest, position⟩ = spacing.skip ⟨rest, position.afterAll text⟩

theorem Gap.lineGap (h : spacing.Gap text) : spacing.LineGap text :=
  fun rest position _ => h rest position

/-- The mode of a scan whose open comment, if there is one, began at another place. -/
def Mode.reopened (opening : Cursor) : Mode → Mode
  | .blockComment _ => .blockComment opening
  | mode => mode

/-- A comment to the end of the line is over where the line ends. -/
theorem skipFrom_lineComment (h : BreaksLine rest) :
    skipFrom spacing .lineComment rest position = skipFrom spacing .between rest position := by
  cases rest with
  | nil => simp [skipFrom]
  | cons c rest =>
    have hfeed := h c rfl
    have hslash : c ≠ '/' := by
      rcases hfeed with rfl | rfl <;> decide
    cases rest <;> simp [skipFrom, hfeed, hslash]

theorem skipFrom_blockComment {opening : Cursor} (h : c = '*' → rest.head? ≠ some '/') :
    skipFrom spacing (.blockComment opening) (c :: rest) position =
      skipFrom spacing (.blockComment opening) rest (position.after c) := by
  rw [skipFrom]
  rintro rest rfl rfl
  exact h rfl rfl

/-- A scan that has passed over a text passes over it again, in a comment of whatever place. -/
theorem reads_of_skipFrom {mode : Mode} (h : skipFrom spacing mode cs position = .ok after) :
    ∃ text, Cursor.Reads ⟨cs, position⟩ text after ∧
      (∀ opening, mode = .blockComment opening → text ≠ []) ∧
      ∀ (opening : Cursor) (rest : List Char) (place : Position),
        (BreaksLine after.rest → BreaksLine rest) →
        skipFrom spacing (mode.reopened opening) (text ++ rest) place =
          skipFrom spacing .between rest (place.afterAll text) := by
  fun_induction skipFrom spacing mode cs position with
  | case1 cs position ih =>
    obtain ⟨text, hreads, -, hagain⟩ := ih h
    refine ⟨'/' :: '/' :: text, ⟨congrArg ('/' :: '/' :: ·) hreads.rest, hreads.position⟩,
      by simp, fun opening rest place hbreak => ?_⟩
    exact hagain opening rest _ hbreak
  | case2 cs position inside ih =>
    obtain ⟨text, hreads, -, hagain⟩ := ih h
    refine ⟨'/' :: '*' :: text, ⟨congrArg ('/' :: '*' :: ·) hreads.rest, hreads.position⟩,
      by simp, fun opening rest place hbreak => ?_⟩
    exact hagain ⟨text ++ rest, _⟩ rest _ hbreak
  | case3 c cs position _ _ hskips ih =>
    obtain ⟨text, hreads, -, hagain⟩ := ih h
    refine ⟨c :: text, ⟨congrArg (c :: ·) hreads.rest, hreads.position⟩,
      by simp, fun opening rest place hbreak => ?_⟩
    exact (skip_cons hskips).trans (hagain opening rest _ hbreak)
  | case4 c cs position =>
    cases h
    exact ⟨[], .refl, by simp, fun _ _ _ _ => rfl⟩
  | case5 c cs position hfeed hskips ih =>
    obtain ⟨text, hreads, -, hagain⟩ := ih h
    refine ⟨c :: text, ⟨congrArg (c :: ·) hreads.rest, hreads.position⟩,
      by simp, fun opening rest place hbreak => ?_⟩
    dsimp only [Mode.reopened, List.cons_append]
    rw [skipFrom, if_pos hfeed, if_pos hskips]
    exact hagain opening rest _ hbreak
  | case6 c cs position hfeed =>
    cases h
    refine ⟨[], .refl, by simp, fun opening rest place hbreak => ?_⟩
    refine skipFrom_lineComment (hbreak fun d hd => ?_)
    obtain rfl : c = d := by simpa using hd
    exact hfeed
  | case7 c cs position hfeed ih =>
    obtain ⟨text, hreads, -, hagain⟩ := ih h
    refine ⟨c :: text, ⟨congrArg (c :: ·) hreads.rest, hreads.position⟩,
      by simp, fun opening rest place hbreak => ?_⟩
    dsimp only [Mode.reopened, List.cons_append]
    rw [skipFrom, if_neg hfeed]
    exact hagain opening rest _ hbreak
  | case8 _ cs position ih =>
    obtain ⟨text, hreads, -, hagain⟩ := ih h
    refine ⟨'*' :: '/' :: text, ⟨congrArg ('*' :: '/' :: ·) hreads.rest, hreads.position⟩,
      fun _ _ => by simp, fun opening rest place hbreak => ?_⟩
    exact hagain opening rest _ hbreak
  | case9 _ c cs position hopen ih =>
    obtain ⟨text, hreads, hnonempty, hagain⟩ := ih h
    have hrest : cs = text ++ after.rest := hreads.rest
    refine ⟨c :: text, ⟨congrArg (c :: ·) hrest, hreads.position⟩,
      fun _ _ => by simp, fun opening rest place hbreak => ?_⟩
    -- The character behind is inside the comment as well, so no slash takes its place.
    rw [Mode.reopened, List.cons_append, skipFrom_blockComment]
    · exact hagain opening rest _ hbreak
    · rintro rfl hslash
      cases htext : text with
      | nil => exact hnonempty _ rfl htext
      | cons d tail =>
        rw [htext] at hslash hrest
        obtain rfl : d = '/' := by simpa using hslash
        exact hopen _ rfl hrest
  | case10 => cases h
  | case11 mode position hopen =>
    cases h
    refine ⟨[], .refl, fun opening hmode => (hopen opening hmode).elim,
      fun opening rest place hbreak => ?_⟩
    cases mode with
    | between => rfl
    | lineComment => exact skipFrom_lineComment (hbreak (by simp [BreaksLine]))
    | blockComment opening => exact (hopen opening rfl).elim

/-- What a scan has passed over is a gap where a line ends, and a gap everywhere unless a line ended
there. -/
theorem reads_of_skip (h : spacing.skip cursor = .ok after) :
    ∃ text, cursor.Reads text after ∧ spacing.LineGap text ∧
      (BreaksLine after.rest ∨ spacing.Gap text) := by
  obtain ⟨text, hreads, -, hagain⟩ := reads_of_skipFrom h
  refine ⟨text, hreads, fun rest position hbreak => ?_, ?_⟩
  · exact hagain cursor rest position fun _ => hbreak
  · by_cases hbreak : BreaksLine after.rest
    · exact .inl hbreak
    · exact .inr fun rest position => hagain cursor rest position fun h => absurd h hbreak

/-- Whether what counts as one kind of spacing counts as another one too. -/
def Narrower (spacing wider : Spacing) : Prop :=
  ∀ c, spacing.skips c = true → wider.skips c = true

theorem inline_narrower : Narrower .inline spacing := by
  intro c h
  cases spacing <;> simp only [skips, Bool.or_eq_true] at h ⊢ <;> tauto

theorem narrower_separators : Narrower spacing .separators := by
  intro c h
  cases spacing <;> simp only [skips, Bool.or_eq_true] at h ⊢ <;> tauto

theorem skipFrom_staged (h : spacing.Narrower wider) {mode : Mode} :
    skipFrom wider mode cs position = skipFrom spacing mode cs position >>= wider.skip := by
  fun_induction skipFrom spacing mode cs position with
  | case1 cs position ih => exact ih
  | case2 cs position inside ih => exact ih
  | case3 c cs position _ _ hskips ih => exact (skip_cons (h c hskips)).trans ih
  | case4 c cs position => rfl
  | case5 c cs position hfeed hskips ih =>
    rw [skipFrom, if_pos hfeed, if_pos (h c hskips)]
    exact ih
  | case6 c cs position hfeed =>
    refine skipFrom_lineComment fun d hd => ?_
    obtain rfl : c = d := by simpa using hd
    exact hfeed
  | case7 c cs position hfeed ih =>
    rw [skipFrom, if_neg hfeed]
    exact ih
  | case8 opening cs position ih => exact ih
  | case9 opening c cs position hopen ih =>
    rw [skipFrom]
    · exact ih
    · exact hopen
  | case10 => rfl
  | case11 mode position hopen =>
    cases mode with
    | between => rfl
    | lineComment => simp [skipFrom, bind, Except.bind, skip]
    | blockComment opening => exact (hopen opening rfl).elim

/-- More spacing is passed over in two stages. -/
theorem skip_staged (h : spacing.Narrower wider) :
    wider.skip cursor = spacing.skip cursor >>= wider.skip :=
  skipFrom_staged h

theorem Gap.widen (hgap : spacing.Gap text) (h : spacing.Narrower wider) : wider.Gap text := by
  intro rest position
  rw [skip_staged h, hgap, ← skip_staged h]

theorem LineGap.widen (hgap : spacing.LineGap text) (h : spacing.Narrower wider) :
    wider.LineGap text := by
  intro rest position hbreak
  rw [skip_staged h, hgap rest position hbreak, ← skip_staged h]

theorem LineGap.cons (h : spacing.LineGap (c :: text)) : spacing.skips c = true ∨ c = '/' := by
  by_contra hnone
  rw [not_or, Bool.not_eq_true] at hnone
  have hpassed := h [] .origin (by simp [BreaksLine])
  rw [List.append_nil, skip_stop hnone.1 hnone.2, skip_nil] at hpassed
  cases Except.ok.inj hpassed

theorem delimited_of_skips (h : spacing.skips c = true ∨ c = '/') :
    continuesIdentifier c = false := by
  rcases h with hskips | rfl
  · have hblank : ∀ d ∈ Lexeme.separators, continuesIdentifier d = false :=
      List.all_iff_forall_prop.mp (by decide)
    exact hblank c (separator_of_skips hskips)
  · decide

/-- A gap ends the word in front of it. -/
theorem LineGap.delimited (h : spacing.LineGap text) (hrest : Delimited rest) :
    Delimited (text ++ rest) := by
  cases text with
  | nil => exact hrest
  | cons c text => exact delimited_cons.mpr (delimited_of_skips h.cons)

/-- A character that neither is spacing nor begins a comment. -/
def isSolid (c : Char) : Bool :=
  !separators.skips c && c != '/'

theorem isSolid_iff : isSolid c = true ↔ separators.skips c = false ∧ c ≠ '/' := by
  simp [isSolid]

theorem skips_of_isSolid (h : isSolid c = true) : spacing.skips c = false := by
  rw [Bool.eq_false_iff]
  intro hskips
  have hseparator := narrower_separators c hskips
  rw [(isSolid_iff.mp h).1] at hseparator
  cases hseparator

theorem isSolid_of_opensExpression (h : opensExpression c = true) : isSolid c = true := by
  have hne : ∀ d, opensExpression d = false → c ≠ d := fun d hd => ne_of_class h hd
  refine isSolid_iff.mpr ⟨?_, hne '/' (by decide)⟩
  simp [skips, hne ' ' (by decide), hne '\t' (by decide), hne '\r' (by decide),
    hne '\n' (by decide), hne ';' (by decide)]

/-- A text that does not begin with spacing. -/
def Solid (text : List Char) : Prop :=
  ∃ c ∈ text.head?, isSolid c = true

theorem solid_cons (h : isSolid c = true) : Solid (c :: cs) :=
  ⟨c, rfl, h⟩

theorem Solid.ne_nil (h : Solid text) : text ≠ [] := by
  rintro rfl
  obtain ⟨c, hc, -⟩ := h
  cases hc

theorem Solid.append (h : Solid text) : Solid (text ++ rest) := by
  obtain ⟨c, hc, hsolid⟩ := h
  cases text with
  | nil => cases hc
  | cons d text => exact ⟨c, hc, hsolid⟩

theorem Solid.skip (h : Solid cs) : spacing.skip ⟨cs, position⟩ = .ok ⟨cs, position⟩ := by
  obtain ⟨c, hc, hsolid⟩ := h
  cases cs with
  | nil => cases hc
  | cons d cs =>
    obtain rfl : d = c := by simpa using hc
    exact skip_stop (skips_of_isSolid hsolid) (isSolid_iff.mp hsolid).2

theorem Solid.not_breaksLine (h : Solid cs) : ¬ BreaksLine cs := by
  obtain ⟨c, hc, hsolid⟩ := h
  intro hbreak
  rcases hbreak c hc with rfl | rfl <;> cases hsolid

theorem Gap.skip (hgap : spacing.Gap text) (h : Solid cs) :
    spacing.skip ⟨text ++ cs, position⟩ = .ok ⟨cs, position.afterAll text⟩ :=
  (hgap cs position).trans h.skip

/-- Spacing in front of anything but spacing is a gap. -/
theorem gap_of_skip (h : spacing.skip cursor = .ok after) (hsolid : Solid after.rest) :
    ∃ gap, cursor.Reads gap after ∧ spacing.Gap gap := by
  obtain ⟨gap, hreads, -, hgap⟩ := reads_of_skip h
  exact ⟨gap, hreads, hgap.resolve_left hsolid.not_breaksLine⟩

/-- What stands first behind the spacing at the front of a text. -/
def Meets (spacing : Spacing) (rest : List Char) (p : Option Char → Prop) : Prop :=
  ∀ position, ∃ next, spacing.skip ⟨rest, position⟩ = .ok next ∧ p next.rest.head?

variable {p q : Option Char → Prop}

theorem meets_nil (h : p none) : spacing.Meets [] p :=
  fun _ => ⟨_, skip_nil, h⟩

theorem meets_cons (hskips : spacing.skips c = false) (hslash : c ≠ '/') (h : p (some c)) :
    spacing.Meets (c :: cs) p :=
  fun _ => ⟨_, skip_stop hskips hslash, h⟩

theorem meets_skipped (hskips : spacing.skips c = true) (h : spacing.Meets cs p) :
    spacing.Meets (c :: cs) p := by
  intro position
  rw [skip_cons hskips]
  exact h _

theorem Meets.imp (h : spacing.Meets rest p) (hpq : ∀ d, p d → q d) : spacing.Meets rest q := by
  intro position
  obtain ⟨next, hnext, hp⟩ := h position
  exact ⟨next, hnext, hpq _ hp⟩

theorem Gap.meets (hgap : spacing.Gap text) (h : spacing.Meets rest p) :
    spacing.Meets (text ++ rest) p := by
  intro position
  rw [hgap]
  exact h _

theorem LineGap.meets (hgap : spacing.LineGap text) (hbreak : BreaksLine rest)
    (h : spacing.Meets rest p) : spacing.Meets (text ++ rest) p := by
  intro position
  rw [hgap rest position hbreak]
  exact h _

/-- A scan of other spacing does not go on where a scan has stopped, unless the character there
counts as spacing for it: no comment begins there. -/
theorem skipFrom_stopped {mode : Mode} (h : skipFrom spacing mode cs position = .ok after)
    (hstop : ∀ c ∈ after.rest.head?, wider.skips c = false) (place : Position) :
    wider.skip ⟨after.rest, place⟩ = .ok ⟨after.rest, place⟩ := by
  fun_induction skipFrom spacing mode cs position with
  | case1 cs position ih => exact ih h
  | case2 cs position inside ih => exact ih h
  | case3 c cs position _ _ hskips ih => exact ih h
  | case4 c cs position hline hblock hskips =>
    cases h
    have hwider := hstop c rfl
    rw [skip, skipFrom, hwider]
    · rfl
    · exact hline
    · exact hblock
  | case5 c cs position hfeed hskips ih => exact ih h
  | case6 c cs position hfeed =>
    cases h
    refine skip_stop (hstop c rfl) ?_
    rcases hfeed with rfl | rfl <;> decide
  | case7 c cs position hfeed ih => exact ih h
  | case8 opening cs position ih => exact ih h
  | case9 opening c cs position hopen ih => exact ih h
  | case10 => cases h
  | case11 mode position hopen =>
    cases h
    exact skip_nil

theorem skip_stopped (h : spacing.skip cursor = .ok after)
    (hstop : ∀ c ∈ after.rest.head?, wider.skips c = false) (place : Position) :
    wider.skip ⟨after.rest, place⟩ = .ok ⟨after.rest, place⟩ :=
  skipFrom_stopped h hstop place

/-- Behind less spacing stands what stands behind more of it, or a character of the difference. -/
theorem Meets.narrow (h : wider.Meets rest p) (hnarrow : spacing.Narrower wider)
    (hpq : ∀ d, p d → q d) (hskips : ∀ c, wider.skips c = true → q (some c)) :
    spacing.Meets rest q := by
  intro position
  obtain ⟨last, hlast, hp⟩ := h position
  rw [skip_staged hnarrow] at hlast
  obtain ⟨next, hnext, hlast⟩ := Fallible.bind_eq_ok.mp hlast
  refine ⟨next, hnext, ?_⟩
  cases hhead : next.rest.head? with
  | none =>
    have hstopped : wider.skip next = .ok next :=
      skip_stopped hnext (by simp [hhead]) next.position
    obtain rfl := Except.ok.inj (hstopped.symm.trans hlast)
    exact hpq _ (hhead ▸ hp)
  | some c =>
    cases hc : wider.skips c with
    | true => exact hskips c hc
    | false =>
      have hstopped : wider.skip next = .ok next :=
        skip_stopped hnext (by simpa [hhead] using hc) next.position
      obtain rfl := Except.ok.inj (hstopped.symm.trans hlast)
      exact hpq _ (hhead ▸ hp)

end Spacing

open ConfigScript.Parser Spacing

variable {spacing : Spacing} {rest : List Char} {c : Char}

theorem Cursor.char?_of_head? {cursor : Cursor} (h : cursor.rest.head? ≠ some c) :
    cursor.char? c = none := by
  obtain ⟨_ | ⟨d, rest⟩, position⟩ := cursor
  · rfl
  · exact Cursor.char?_ne (by simpa using h)

theorem endsMember_of_meets (hrest : Delimited rest)
    (h : Meets .inline rest fun d => d ≠ some '(' ∧ d ≠ some '\x7b') : EndsMember rest where
  delimited := hrest
  bare position :=
    have ⟨next, hnext, hparen, hbrace⟩ := h position
    ⟨next, hnext, Cursor.char?_of_head? hparen, Cursor.char?_of_head? hbrace⟩

theorem endsExpression_of_meets (hmember : EndsMember rest)
    (h : Meets .multiline rest fun d => d ≠ some '.') : EndsExpression rest where
  toEndsMember := hmember
  noMember position := by
    obtain ⟨next, hnext, hdot⟩ := h position
    rw [charAfter_eq hnext, Cursor.char?_of_head? hdot]

theorem unassigned_of_meets (h : Meets spacing rest fun d => d ≠ some '=') :
    Unassigned spacing rest := by
  intro position
  obtain ⟨next, hnext, hsign⟩ := h position
  refine ⟨next, hnext, ?_⟩
  rw [Cursor.assignmentSign?, Cursor.char?_of_head? hsign]

section Following

variable {gap cs : List Char}

theorem Spacing.Gap.meets_cons (hgap : spacing.Gap gap) (hsolid : isSolid c = true) :
    Meets spacing (gap ++ c :: cs) (· = some c) :=
  hgap.meets (Spacing.meets_cons (skips_of_isSolid hsolid) (isSolid_iff.mp hsolid).2 rfl)

/-- A character that is no part of an argument list ends the member in front of it, on a later
line too. -/
theorem endsMember_gap (hgap : Gap .multiline gap) (hsolid : isSolid c = true)
    (hword : continuesIdentifier c = false) (hparen : c ≠ '(') (hbrace : c ≠ '\x7b') :
    EndsMember (gap ++ c :: cs) := by
  refine endsMember_of_meets (hgap.lineGap.delimited (delimited_cons.mpr hword)) ?_
  refine (hgap.meets_cons hsolid).narrow inline_narrower ?_ ?_
  · rintro d rfl
    exact ⟨by simpa using hparen, by simpa using hbrace⟩
  · intro d hd
    constructor <;> rintro ⟨⟩ <;> cases hd

/-- A mark that stands behind an expression ends it. -/
theorem endsExpression_gap (hgap : Gap .multiline gap) (hc : c ∈ [')', ',', '=']) :
    EndsExpression (gap ++ c :: cs) := by
  have hclass : ∀ d ∈ [')', ',', '='], isSolid d = true ∧ continuesIdentifier d = false ∧
      d ≠ '(' ∧ d ≠ '\x7b' ∧ d ≠ '.' := List.all_iff_forall_prop.mp (by decide)
  obtain ⟨hsolid, hword, hparen, hbrace, hdot⟩ := hclass c hc
  refine endsExpression_of_meets (endsMember_gap hgap hsolid hword hparen hbrace) ?_
  refine (hgap.meets_cons hsolid).imp ?_
  rintro d rfl
  simpa using hdot

/-- A character behind spacing is found behind the same spacing again. -/
theorem gap_of_charAfter {cursor after : Cursor} (h : charAfter spacing c cursor = .ok (some after))
    (hsolid : isSolid c = true) :
    ∃ gap next, cursor.Reads gap next ∧ next.Reads [c] after ∧ spacing.Gap gap := by
  obtain ⟨next, hnext, hchar⟩ := Fallible.bind_eq_ok.mp h
  have hreads := Cursor.reads_of_char? (Except.ok.inj hchar)
  obtain ⟨gap, hbefore, hgap⟩ := gap_of_skip hnext (hreads.rest ▸ solid_cons hsolid)
  exact ⟨gap, next, hbefore, hreads, hgap⟩

theorem charAfter_gap {target : Position} (hgap : spacing.Gap gap) (hsolid : isSolid c = true) :
    charAfter spacing c ⟨gap ++ c :: cs, target⟩ =
      .ok (some ⟨cs, (target.afterAll gap).after c⟩) := by
  rw [charAfter_eq (hgap.skip (solid_cons hsolid)), Cursor.char?_self]

theorem charAfter_gap_ne {target : Position} {d : Char} (hgap : spacing.Gap gap)
    (hsolid : isSolid c = true) (hne : c ≠ d) :
    charAfter spacing d ⟨gap ++ c :: cs, target⟩ = .ok none := by
  rw [charAfter_eq (hgap.skip (solid_cons hsolid)), Cursor.char?_ne hne]

theorem unassigned_gap (hgap : spacing.Gap gap) (hsolid : isSolid c = true) (hsign : c ≠ '=') :
    Unassigned spacing (gap ++ c :: cs) := by
  refine unassigned_of_meets ((hgap.meets_cons hsolid).imp ?_)
  rintro d rfl
  simpa using hsign

end Following

end ConfigScript
