import ConfigScript.Proofs.Syntax.Assembly
import ConfigScript.Proofs.Syntax.Calls
import ConfigScript.Proofs.Syntax.Gaps
import ConfigScript.Proofs.Syntax.Inversion
import ConfigScript.Proofs.Syntax.Moved
import ConfigScript.Proofs.Syntax.Shape

/-!
# Reading a text again in another place

A text is read again when, wherever it stands and whatever proper text follows it, the reader comes
to the same result, moved along. Literals and words are read again when no word goes on behind
them; the first word of an expression neither names an argument nor begins a statement.
-/

namespace ConfigScript

open ConfigScript.Parser

variable {cursor after stop : Cursor} {text rest tail gap : List Char} {position target : Position}
  {c : Char}

namespace Cursor

theorem Reads.delimited (h : after.Reads text stop)
    (hstop : after.startsWith continuesIdentifier = false) (htext : text ≠ [])
    (rest : List Char) : Delimited (text ++ rest) := by
  obtain ⟨cs, position⟩ := after
  obtain rfl : cs = text ++ stop.rest := h.rest
  cases text with
  | nil => exact absurd rfl htext
  | cons c text => exact delimited_cons.mpr hstop

theorem Reads.solid (h : cursor.Reads text stop) (hsolid : Spacing.Solid text) :
    Spacing.Solid cursor.rest := by
  rw [h.rest]
  exact hsolid.append

theorem keyword?_self {word : String} (hrest : Delimited rest) :
    (⟨word.toList ++ rest, target⟩ : Cursor).keyword? word =
      some ⟨rest, target.afterAll word.toList⟩ := by
  have htext : Text.dropStart? word.toList (word.toList ++ rest) = some rest :=
    Text.dropStart?_eq_some_iff.mpr rfl
  simp [keyword?, text?, htext, startsWith_of_delimited hrest]

/-- An equals sign assigns again when the same text stands behind it. -/
theorem assignmentSign?_again (h : cursor.assignmentSign? = some after)
    (hreads : after.Reads text stop) (htext : text ≠ []) (rest : List Char) (target : Position) :
    (⟨'=' :: (text ++ rest), target⟩ : Cursor).assignmentSign? =
      some ⟨text ++ rest, target.after '='⟩ := by
  have hsecond := (reads_of_assignmentSign? h).2
  obtain ⟨cs, position⟩ := after
  obtain rfl : cs = text ++ stop.rest := hreads.rest
  cases text with
  | nil => exact absurd rfl htext
  | cons c text =>
    have hne : (c == '=') = false := hsecond
    simp [assignmentSign?, char?_self, startsWith, hne]

end Cursor

theorem Carries.reads {move : Span → Span} (hmove : Carries move cursor.position target)
    (hreads : cursor.Reads text after) (front rest : List Char) :
    move (cursor.spanTo after) =
      Cursor.spanTo ⟨front, target⟩ ⟨rest, target.afterAll text⟩ := by
  have hspan := hmove.spanTo text
  rw [← hreads.position] at hspan
  exact hspan

theorem Carries.behind {move : Span → Span} (hmove : Carries move cursor.position target)
    (hreads : cursor.Reads text after) : Carries move after.position (target.afterAll text) := by
  rw [hreads.position]
  exact hmove.later text

/-- A reading that comes to the same result wherever the text stands, moved along with it, if what
follows is proper and the budget is large enough for the length. -/
def Rereads {β : Type} (read : Nat → Cursor → Except Failure β)
    (result : (Span → Span) → Cursor → β) (extra : Nat) (follows : List Char → Prop)
    (place : Position) (text : List Char) : Prop :=
  ∀ (budget : Nat) (rest : List Char) ⦃target move⦄, Carries move place target → follows rest →
    8 * text.length + extra ≤ budget →
    read budget ⟨text ++ rest, target⟩ = .ok (result move ⟨rest, target.afterAll text⟩)

/-- What goes on behind the first word of an expression: nothing, or arguments or a member behind
spacing. -/
def GoesOn (tail : List Char) : Prop :=
  tail = [] ∨ ∃ gap c cs, tail = gap ++ c :: cs ∧ Spacing.multiline.Gap gap ∧
    c ∈ ['(', '\x7b', '.']

/-- A text whose first word, if it begins with one, is the first word of an expression. -/
inductive Leading : List Char → Prop where
  | word {word tail : List Char} (hword : isIdentifier word = true)
    (hstatement : String.ofList word ∉ ["val", "var", "import"]) (htail : GoesOn tail) :
    Leading (word ++ tail)
  | sign {c : Char} {cs : List Char} (hopens : opensExpression c = true ∨ c = '(')
    (hstart : startsIdentifier c = false) : Leading (c :: cs)

/-- A text at whose front a statement may begin. -/
def Fronts (text : List Char) : Prop :=
  ∃ c ∈ text.head?, Spacing.isSolid c = true ∧ c ≠ '.' ∧ c ≠ '\x7d'

theorem Fronts.solid (h : Fronts text) : Spacing.Solid text := by
  obtain ⟨c, hc, hsolid, -⟩ := h
  exact ⟨c, hc, hsolid⟩

theorem Fronts.append (h : Fronts text) : Fronts (text ++ rest) := by
  obtain ⟨c, hc, hfront⟩ := h
  cases text with
  | nil => cases hc
  | cons d text => exact ⟨c, hc, hfront⟩

theorem GoesOn.append {others : List Char} (h : GoesOn tail) (hothers : GoesOn others) :
    GoesOn (tail ++ others) := by
  rcases h with rfl | ⟨gap, c, cs, rfl, hgap, hc⟩
  · exact hothers
  · exact .inr ⟨gap, c, cs ++ others, by simp, hgap, hc⟩

theorem GoesOn.delimited (h : GoesOn tail) (hrest : Delimited rest) : Delimited (tail ++ rest) := by
  rcases h with rfl | ⟨gap, c, cs, rfl, hgap, hc⟩
  · exact hrest
  · have hword : ∀ d ∈ ['(', '\x7b', '.'], continuesIdentifier d = false :=
      List.all_iff_forall_prop.mp (by decide)
    rw [List.append_assoc]
    exact hgap.lineGap.delimited (delimited_cons.mpr (hword c hc))

theorem GoesOn.unassigned (h : GoesOn tail) (hrest : Unassigned .multiline rest) :
    Unassigned .multiline (tail ++ rest) := by
  rcases h with rfl | ⟨gap, c, cs, rfl, hgap, hc⟩
  · exact hrest
  · have hclass : ∀ d ∈ ['(', '\x7b', '.'], Spacing.isSolid d = true ∧ d ≠ '=' :=
      List.all_iff_forall_prop.mp (by decide)
    rw [List.append_assoc]
    exact unassigned_gap hgap (hclass c hc).1 (hclass c hc).2

namespace Leading

theorem append {others : List Char} (h : Leading text) (hothers : GoesOn others) :
    Leading (text ++ others) := by
  cases h with
  | word hword hstatement htail =>
    rw [List.append_assoc]
    exact .word hword hstatement (htail.append hothers)
  | sign hopens hstart => exact .sign hopens hstart

theorem fronts (h : Leading text) : Fronts text := by
  have hopener : ∀ {c : Char} {cs : List Char}, opensExpression c = true ∨ c = '(' →
      Fronts (c :: cs) := by
    intro c cs hc
    refine ⟨c, rfl, ?_⟩
    rcases hc with hopens | rfl
    · exact ⟨Spacing.isSolid_of_opensExpression hopens, ne_of_class hopens (by decide),
        ne_of_class hopens (by decide)⟩
    · decide
  cases h with
  | @word word tail hword =>
    cases word with
    | nil => cases hword
    | cons c word =>
      rw [isIdentifier, Bool.and_eq_true] at hword
      exact hopener (.inl (by simp [opensExpression, hword.1]))
  | sign hopens => exact hopener hopens

theorem solid (h : Leading text) : Spacing.Solid text :=
  h.fronts.solid

theorem ne_nil (h : Leading text) : text ≠ [] :=
  h.solid.ne_nil

/-- No keyword of a statement stands in front of an expression. -/
theorem keyword?_eq_none {word : String} (h : Leading text) (hrest : Delimited rest)
    (hword : word ∈ ["val", "var", "import"]) :
    (⟨text ++ rest, target⟩ : Cursor).keyword? word = none := by
  have hidentifier : isIdentifier word.toList = true :=
    (by decide : ∀ word ∈ ["val", "var", "import"], isIdentifier word.toList = true) word hword
  cases h with
  | @word first tail hfirst hstatement htail =>
    rw [List.append_assoc,
      Cursor.keyword?_word hidentifier hfirst (htail.delimited hrest), if_neg]
    rintro rfl
    rw [String.ofList_toList] at hstatement
    exact hstatement hword
  | sign hopens hstart =>
    obtain ⟨first, others, heq⟩ : ∃ first others, word.toList = first :: others := by
      cases hletters : word.toList with
      | nil =>
        rw [hletters] at hidentifier
        cases hidentifier
      | cons first others => exact ⟨first, others, rfl⟩
    rw [heq, isIdentifier, Bool.and_eq_true] at hidentifier
    exact Cursor.keyword?_cons heq (ne_of_class hidentifier.1 hstart).symm

/-- The first word of an expression names no argument. -/
theorem unnamed (h : Leading text) (hrest : Delimited rest)
    (hsign : Unassigned .multiline rest) : Unnamed ⟨text ++ rest, target⟩ := by
  intro name afterName hname
  cases h with
  | word hword hstatement htail =>
    rw [List.append_assoc, Cursor.name?_word hword (htail.delimited hrest)] at hname
    split at hname
    · cases hname
    · cases hname
      exact htail.unassigned hsign _
  | sign hopens hstart =>
    rw [List.cons_append, Cursor.name?_cons hstart] at hname
    cases hname

end Leading

theorem solid_name {name : String} (hname : isName name = true) : Spacing.Solid name.toList := by
  obtain ⟨c, cs, heq, hopens⟩ := opens_name hname
  rw [heq]
  exact Spacing.solid_cons (Spacing.isSolid_of_opensExpression hopens)

theorem leading_of_name {name : String} (hname : isName name = true) (htail : GoesOn tail) :
    Leading (name.toList ++ tail) := by
  rw [isName, Bool.and_eq_true, Bool.not_eq_true'] at hname
  refine .word hname.1 ?_ htail
  rw [String.ofList_toList]
  intro hstatement
  have hkeyword : name ∈ keywords :=
    (by decide : ∀ word ∈ ["val", "var", "import"], word ∈ keywords) name hstatement
  rw [List.contains_iff_mem.mpr hkeyword] at hname
  cases hname.2

namespace Literal

theorem readString_again {literal : Literal} (h : readString cursor = .ok (some (literal, after))) :
    ∃ text, cursor.Reads ('"' :: text) after ∧ ∀ rest target,
      readString ⟨'"' :: (text ++ rest), target⟩ =
        .ok (some (literal, ⟨rest, target.afterAll ('"' :: text)⟩)) := by
  unfold readString at h
  split at h
  · cases h
  · rename_i inside hquote
    obtain ⟨⟨values, behind⟩, hvalues, h⟩ := Fallible.bind_eq_ok.mp h
    cases h
    obtain ⟨text, -, hreads, hagain⟩ := reads_of_readCharacters hvalues
    refine ⟨text, (Cursor.reads_of_char? hquote).cons hreads, fun rest target => ?_⟩
    rw [readString, Cursor.char?_self]
    simp [bind, Except.bind, hagain, pure, Except.pure, Position.afterAll_cons]

theorem readNumber_again {literal : Literal} (h : readNumber cursor = .ok (some (literal, after))) :
    ∃ c text, cursor.Reads (c :: text) after ∧ (c = '-' ∨ c.isDigit = true) ∧
      ∀ rest target, Delimited rest → readNumber ⟨c :: (text ++ rest), target⟩ =
        .ok (some (literal, ⟨rest, target.afterAll (c :: text)⟩)) := by
  obtain ⟨negative, suffixed, digits, hreads, hnonempty, hdigits, hvalue⟩ := reads_of_readNumber h
  have hfront : ∃ c text, minusText negative ++ digits ++ wideText suffixed = c :: text ∧
      (c = '-' ∨ c.isDigit = true) := by
    cases negative with
    | true => exact ⟨'-', _, rfl, .inl rfl⟩
    | false =>
      cases digits with
      | nil => exact absurd rfl hnonempty
      | cons digit digits => exact ⟨digit, _, rfl, .inr (hdigits digit List.mem_cons_self)⟩
  obtain ⟨c, text, htext, hc⟩ := hfront
  refine ⟨c, text, htext ▸ hreads, hc, fun rest target hrest => ?_⟩
  rw [← List.cons_append, ← htext, readNumber_numeral hdigits hnonempty hrest, hvalue]

theorem readBoolean_cases {literal : Literal} (h : readBoolean cursor = some (literal, after)) :
    ∃ value : Bool, cursor.keyword? (toString value) = some after ∧ literal = .boolean value := by
  unfold readBoolean at h
  split at h
  · rename_i hword
    cases h
    exact ⟨true, hword, rfl⟩
  · rename_i hword
    cases h
    exact ⟨false, hword, rfl⟩
  · cases h

end Literal

namespace Parser

theorem leading_keyword {word : String} (hword : isIdentifier word.toList = true)
    (hstatement : word ∉ ["val", "var", "import"]) : Leading word.toList := by
  rw [← List.append_nil word.toList]
  exact .word hword (by rwa [String.ofList_toList]) (.inl rfl)

/-- A literal is read again in front of anything that does not go on with a word. -/
theorem literalOrWord?_again {value : Expr}
    (h : literalOrWord? cursor = .ok (some (value, after))) :
    ∃ text, cursor.Reads text after ∧ Leading text ∧ ∀ {rest target move},
      Carries move cursor.position target → Delimited rest →
        literalOrWord? ⟨text ++ rest, target⟩ =
          .ok (some (value.mapSpans move, ⟨rest, target.afterAll text⟩)) := by
  rcases literalOrWord?_cases h with ⟨literal, rfl, hstring | hnumber | hboolean⟩ |
    ⟨hnull, rfl⟩ | ⟨hthis, rfl⟩
  · obtain ⟨text, hreads, hagain⟩ := Literal.readString_again hstring
    refine ⟨'"' :: text, hreads, .sign (.inl (by decide)) (by decide), fun hmove hrest => ?_⟩
    rw [Expr.mapSpans, hmove.reads hreads]
    exact literalOrWord?_string (hagain _ _)
  · obtain ⟨c, text, hreads, hc, hagain⟩ := Literal.readNumber_again hnumber
    have hopens : opensExpression c = true := by
      rcases hc with rfl | hdigit
      · decide
      · simp [opensExpression, hdigit]
    have hstart : startsIdentifier c = false := by
      rcases hc with rfl | hdigit
      · decide
      · rw [Bool.eq_false_iff]
        intro hletter
        rw [not_isDigit_of_starts hletter] at hdigit
        cases hdigit
    have hquote : c ≠ '"' := by
      rintro rfl
      exact absurd hc (by decide)
    refine ⟨c :: text, hreads, .sign (.inl hopens) hstart, fun hmove hrest => ?_⟩
    rw [Expr.mapSpans, hmove.reads hreads]
    exact literalOrWord?_number (Literal.readString_cons hquote) (hagain _ _ hrest)
  · obtain ⟨flag, hword, rfl⟩ := Literal.readBoolean_cases hboolean
    have hreads := (Cursor.reads_of_keyword? hword).1
    refine ⟨_, hreads, ?_, fun hmove hrest => ?_⟩
    · cases flag <;> exact leading_keyword (by decide) (by decide)
    · rw [Expr.mapSpans, hmove.reads hreads]
      cases flag
      · exact literalOrWord?_word "false".toList (by decide) hrest
      · exact literalOrWord?_word "true".toList (by decide) hrest
  · have hreads := (Cursor.reads_of_keyword? hnull).1
    refine ⟨_, hreads, leading_keyword (by decide) (by decide), fun hmove hrest => ?_⟩
    rw [Expr.mapSpans, hmove.reads hreads]
    exact literalOrWord?_word "null".toList (by decide) hrest
  · have hreads := (Cursor.reads_of_keyword? hthis).1
    refine ⟨_, hreads, leading_keyword (by decide) (by decide), fun hmove hrest => ?_⟩
    rw [Expr.mapSpans, hmove.reads hreads]
    exact literalOrWord?_word "this".toList (by decide) hrest

end Parser

end ConfigScript
