import ConfigScript.Proofs.Syntax.Balanced
import ConfigScript.Proofs.Syntax.Elsewhere
import ConfigScript.Proofs.Syntax.Joined

/-!
# Reading over a line end

From a line that settles a statement is read up to a place on the line or to its end, or else it
goes on with the first statement of the next line: then that statement, read on its own, ends at the
same place.
-/

namespace ConfigScript

open ConfigScript.Parser

variable {cursor later after inside stop behind : Cursor} {text line rest others : List Char}
  {c : Char}

/-- What is left of a text that was read, behind the front of it. -/
theorem Cursor.Reads.left {front back : List Char} (h : cursor.Reads (front ++ back) stop)
    (hfront : cursor.Reads front after) : after.Reads back stop where
  rest := by
    have hrest := h.rest
    rw [hfront.rest, List.append_assoc] at hrest
    exact List.append_cancel_left hrest
  position := by rw [h.position, hfront.position, Position.afterAll_append]

/-- The cursor stands in a line that settles, and the next line begins at another one. -/
def Cursor.InLine (cursor later : Cursor) : Prop :=
  ∃ line, cursor.Reads (line ++ ['\n']) later ∧ Scan.start.Settles line

/-- A text at the front of a line and what follows it lies within the line, or goes beyond. -/
theorem cut_line (h : line ++ '\n' :: rest = text ++ others) :
    (∃ back, line = text ++ back) ∨ ∃ beyond, text = line ++ '\n' :: beyond := by
  rcases List.append_eq_append_iff.mp h with ⟨front, rfl, hrest⟩ | ⟨back, rfl, rfl⟩
  · cases front with
    | nil => exact .inl ⟨[], by simp⟩
    | cons d front =>
      obtain ⟨rfl, -⟩ := List.cons.inj hrest
      exact .inr ⟨front, rfl⟩
  · exact .inl ⟨back, rfl⟩

namespace Cursor.InLine

/-- Behind a neutral text that does not reach over the end of the line the line goes on. -/
theorem past (h : cursor.InLine later) (hreads : cursor.Reads text after) (hneutral : Neutral text)
    (hwithin : ∀ line beyond, text = line ++ '\n' :: beyond → ¬ Scan.start.Settles line) :
    after.InLine later := by
  obtain ⟨line, hline, hsettles⟩ := h
  have hrest := hline.rest
  rw [hreads.rest, List.append_assoc, List.singleton_append] at hrest
  rcases cut_line hrest.symm with ⟨back, rfl⟩ | ⟨beyond, htext⟩
  · obtain ⟨next, hnext, hsettles⟩ := hsettles.later
    obtain rfl := Option.some.inj ((hneutral []).symm.trans hnext)
    rw [List.append_assoc] at hline
    exact ⟨back, hline.left hreads, hsettles⟩
  · exact absurd hsettles (hwithin line beyond htext)

theorem flat (h : cursor.InLine later) (hreads : cursor.Reads text after) (htext : Flat text) :
    after.InLine later := by
  refine h.past hreads htext.neutral ?_
  rintro line beyond rfl
  exact absurd htext.feedless (by simp)

theorem name {name : String} (h : cursor.InLine later)
    (hname : cursor.name? = some (name, after)) : after.InLine later :=
  h.flat (reads_of_name? hname) (flat_name (isName_of_name? hname))

theorem keyword {word : String} (h : cursor.InLine later)
    (hword : cursor.keyword? word = some after) (hletters : isIdentifier word.toList = true) :
    after.InLine later :=
  h.flat (reads_of_keyword? hword).1 (flat_word hletters)

theorem char (h : cursor.InLine later) (hchar : cursor.char? c = some after)
    (hc : c ∉ ['(', ')', '\x7b', '\x7d', '"', '/', '\n']) : after.InLine later :=
  h.flat (reads_of_char? hchar) (flat_singleton hc)

theorem sign (h : cursor.InLine later) (hsign : cursor.assignmentSign? = some after) :
    after.InLine later :=
  h.flat (reads_of_assignmentSign? hsign).1 (flat_singleton (by decide))

/-- A line does not end between brackets. -/
theorem brackets {opener closer : Char} (hpair : BracketPair opener closer)
    (h : cursor.InLine later) (hopen : cursor.char? opener = some inside)
    (hbody : inside.Balanced stop) (hclose : stop.char? closer = some after) :
    after.InLine later := by
  obtain ⟨body, hreads, hneutral⟩ := hbody
  refine h.past ((reads_of_char? hopen).cons (hreads.trans (reads_of_char? hclose)))
    (hneutral.brackets hpair) ?_
  intro line beyond htext hsettles
  have hcloser : closer ≠ '\n' := by
    rcases hpair with ⟨-, rfl⟩ | ⟨-, rfl⟩ <;> decide
  cases line with
  | nil =>
    obtain ⟨rfl, -⟩ := List.cons.inj htext
    rcases hpair with ⟨hopener, -⟩ | ⟨hopener, -⟩ <;> cases hopener
  | cons d front =>
    obtain ⟨rfl, hinner⟩ := List.cons.inj htext
    obtain ⟨back, rfl⟩ : ∃ back, body = front ++ back := by
      rcases List.append_eq_append_iff.mp hinner with ⟨more, rfl, hmore⟩ | ⟨more, hbody, -⟩
      · cases more with
        | nil => exact ⟨[], by simp⟩
        | cons e more => simp at hmore
      · exact ⟨more, hbody⟩
    -- The scan of the line stands inside the brackets at its end.
    have hbody := hneutral []
    rw [Scan.through_append] at hbody
    obtain ⟨middle, hmiddle, -⟩ := Option.bind_eq_some_iff.mp hbody
    have hlift := @Scan.through_lift _ _ _ [opener] _ hmiddle
    obtain ⟨region, hclosed, -⟩ := hsettles.closed
    have hafter : Scan.start.after opener = some ⟨.code, [opener]⟩ := by
      rcases hpair with ⟨rfl, -⟩ | ⟨rfl, -⟩ <;> rfl
    rw [Scan.through_cons, hafter, Option.bind_some] at hclosed
    have hsame := Scan.mk.inj (Option.some.inj (hlift.symm.trans hclosed))
    simp at hsame

/-- Spacing ends within the line, or it is spacing up to the next line and goes on there. -/
theorem skip (h : cursor.InLine later) (spacing : Spacing) :
    (∃ after, spacing.skip cursor = .ok after ∧ after.InLine later) ∨
      spacing.skips '\n' = true ∧ spacing.skip cursor = spacing.skip later := by
  obtain ⟨line, hline, hsettles⟩ := h
  obtain ⟨cs, position⟩ := cursor
  obtain rfl : cs = line ++ ['\n'] ++ later.rest := hline.rest
  rw [List.append_assoc, List.singleton_append] at hline ⊢
  have hlater : later = ⟨later.rest, position.afterAll (line ++ ['\n'])⟩ := by
    rw [← hline.position]
  have hlands : spacing.Lands line later.rest position (spacing.skip ⟨_, position⟩) :=
    Spacing.lands_skipFrom .between hsettles
  rcases hlands with ⟨front, back, rfl, hskip⟩ | ⟨hskips, hskip⟩
  · obtain ⟨text, stop, hreads, hstop, hthrough⟩ := Spacing.passes_of_skipFrom .between hskip
    have hfront := hreads.rest
    rw [List.append_assoc] at hfront
    obtain rfl := List.append_cancel_right hfront
    obtain ⟨next, hnext, hsettles⟩ := hsettles.later
    obtain rfl := Option.some.inj ((hthrough []).symm.trans hnext)
    rw [List.append_assoc front back ['\n']] at hline
    refine .inl ⟨_, hskip, back, hline.left hreads, ?_⟩
    rcases hstop with rfl | ⟨rfl, hbreak⟩
    · exact hsettles
    · refine hsettles.of_lineComment fun c hc => hbreak c ?_
      cases back <;> exact hc
  · exact .inr ⟨hskips, hlater ▸ hskip⟩

theorem inline (h : cursor.InLine later) (hskip : Spacing.inline.skip cursor = .ok after) :
    after.InLine later := by
  rcases h.skip .inline with ⟨stop, hstop, hline⟩ | ⟨hfeed, -⟩
  · exact Except.ok.inj (hstop.symm.trans hskip) ▸ hline
  · cases hfeed

theorem multiline (h : cursor.InLine later) (hskip : Spacing.multiline.skip cursor = .ok after) :
    after.InLine later ∨ Spacing.multiline.skip later = .ok after := by
  rcases h.skip .multiline with ⟨stop, hstop, hline⟩ | ⟨-, hsame⟩
  · exact .inl (Except.ok.inj (hstop.symm.trans hskip) ▸ hline)
  · exact .inr (hsame.symm.trans hskip)

/-- The line feed at the end of a line is the one in front of the next line. -/
theorem eq_later (h : cursor.InLine later) (htext : '\n' ∉ text)
    (hreads : cursor.Reads (text ++ ['\n']) after) : after = later := by
  obtain ⟨line, hline, hsettles⟩ := h
  have hrest := hline.rest
  rw [hreads.rest, List.append_assoc, List.append_assoc] at hrest
  obtain rfl : line = text := by
    rcases List.append_eq_append_iff.mp hrest with ⟨front, rfl, hback⟩ | ⟨back, rfl, hback⟩
    · cases front with
      | nil => simp
      | cons c front =>
        obtain ⟨rfl, -⟩ := List.cons.inj hback
        exact absurd hsettles.feedless (by simp)
    · cases back with
      | nil => simp
      | cons c back =>
        obtain ⟨rfl, -⟩ := List.cons.inj hback
        exact absurd htext (by simp)
  obtain ⟨cs, position⟩ := after
  obtain ⟨others, target⟩ := later
  have hposition := hreads.position.trans hline.position.symm
  obtain rfl : cs = others := by simpa using hrest
  exact congrArg (Cursor.mk cs) hposition

/-- A statement that ends on the line ends in front of the next line or where that begins. -/
theorem ended (h : cursor.InLine later) (hended : statementEnd cursor = .ok after) :
    after.InLine later ∨ after = later := by
  obtain ⟨stop, hstop, hended⟩ := Fallible.bind_eq_ok.mp hended
  have hline := h.inline hstop
  have hdrop := stop.reads_drop
  split at hended
  · rename_i hrest
    obtain ⟨line, hreads, -⟩ := hline
    rw [hreads.rest] at hrest
    simp at hrest
  · rename_i hrest
    cases hended
    have hmark := hdrop 1
    rw [hrest] at hmark
    exact .inl (hline.flat hmark (flat_singleton (by decide)))
  · rename_i hrest
    cases hended
    have hmark : stop.Reads ([] ++ ['\n']) (stop.drop 1) := by
      have hmark := hdrop 1
      rwa [hrest] at hmark
    exact .inr (hline.eq_later (by simp) hmark)
  · rename_i hrest
    cases hended
    have hmark : stop.Reads (['\r'] ++ ['\n']) (stop.drop 2) := by
      have hmark := hdrop 2
      rwa [hrest] at hmark
    exact .inr (hline.eq_later (by decide) hmark)
  · cases hended
    exact .inl hline
  · cases hended

end Cursor.InLine

namespace Parser

variable {budget larger : Nat} {start : Cursor} {name : String} {value result : Expr}
  {arguments : Option (List Argument)}

/-! ### Readers that stay on their line -/

theorem inLine_lambda (h : cursor.InLine later) {block : Cursor} {last : Argument}
    (hblock : Spacing.inline.skip cursor = .ok block)
    (hlambda : lambda budget block = .ok (some (last, after))) : after.InLine later := by
  obtain ⟨inside, hopening, stop, hbody, hclosing⟩ := (balances budget).lambda hlambda
  exact (h.inline hblock).brackets (.inr ⟨rfl, rfl⟩) hopening hbody hclosing

theorem inLine_suffix (h : cursor.InLine later)
    (hsuffix : suffix budget cursor = .ok (arguments, after)) : after.InLine later := by
  cases budget with
  | zero => simp [suffix] at hsuffix
  | succ budget =>
    obtain ⟨opening, hopening, hcases⟩ := suffix_cases hsuffix
    rcases hcases with ⟨inside, values, behind, block, hparen, hvalues, hblock, hlast⟩ | ⟨-, hlast⟩
    · obtain ⟨stop, hbody, hclosing⟩ := (balances budget).valueArguments hvalues
      have hlist := (h.inline hopening).brackets (.inl ⟨rfl, rfl⟩) hparen hbody hclosing
      rcases hlast with ⟨-, -, rfl⟩ | ⟨last, hlambda, -⟩
      · exact hlist
      · exact inLine_lambda hlist hblock hlambda
    · rcases hlast with ⟨-, -, rfl⟩ | ⟨last, hlambda, -⟩
      · exact h
      · exact inLine_lambda h hopening hlambda

theorem inLine_primary (h : cursor.InLine later)
    (hprimary : primary budget cursor = .ok (some (value, after))) : after.InLine later := by
  cases budget with
  | zero => simp [primary] at hprimary
  | succ budget =>
    rcases primary_cases hprimary with hword |
      ⟨inside, first, behind, last, hopening, hfirst, hvalue, hlast, hclosing⟩ |
      ⟨name, afterName, arguments, hname, hsuffix, rfl⟩
    · obtain ⟨text, hreads, htext⟩ := flat_of_literalOrWord hword
      exact h.flat hreads htext
    · have hbody := (Cursor.Balanced.of_skip hfirst (solid_of_expression hvalue)).trans
        (((balances budget).expression hvalue).trans
          (.of_skip hlast (solid_of_char hclosing (by decide))))
      exact h.brackets (.inl ⟨rfl, rfl⟩) hopening hbody hclosing
    · exact inLine_suffix (h.name hname) hsuffix

theorem inLine_dottedNames {names : List String} (h : cursor.InLine later)
    (hnames : dottedNames budget cursor = some (names, after)) : after.InLine later := by
  induction budget generalizing cursor names with
  | zero => cases hnames
  | succ budget ih =>
    rw [dottedNames] at hnames
    split at hnames
    · cases hnames
    rename_i first behind hname
    have hbehind := h.name hname
    split at hnames
    · cases hnames
      exact hbehind
    rename_i afterDot hdot
    split at hnames
    · cases hnames
      exact hbehind
    rename_i others stop hothers
    cases hnames
    exact ih (hbehind.char hdot (by decide)) hothers

theorem inLine_importStatement {statement : Statement} (h : cursor.InLine later)
    (himport : importStatement cursor = .ok (some (statement, after))) : after.InLine later := by
  obtain ⟨afterWord, first, parts, hword, hfirst, hparts, -⟩ := importStatement_cases himport
  exact inLine_dottedNames ((h.keyword hword (by decide)).inline hfirst) hparts

/-! ### The same readings with more to spend -/

theorem suffix_again (h : suffix budget cursor = .ok (arguments, after))
    (hends : EndsMember after.rest) (hlarger : 8 * cursor.rest.length + 2 ≤ larger) :
    suffix larger cursor = .ok (arguments, after) := by
  obtain ⟨text, hreads, -, hagain⟩ := (relocates budget).suffix h
  obtain ⟨cs, position⟩ := cursor
  obtain rfl : cs = text ++ after.rest := hreads.rest
  have hread := hagain larger after.rest .refl hends (by
    simp only [List.length_append] at hlarger
    omega)
  have hid : arguments.map (argumentsMapSpans id) = arguments := by
    cases arguments <;> simp [argumentsMapSpans_id]
  have hposition : after.position = position.afterAll text := hreads.position
  dsimp only at hread
  rwa [hid, ← hposition] at hread

theorem expression_again (h : expression budget cursor = .ok (some (value, after)))
    (hends : EndsExpression after.rest) (hlarger : 8 * cursor.rest.length + 1 ≤ larger) :
    expression larger cursor = .ok (some (value, after)) := by
  obtain ⟨text, hreads, -, hagain⟩ := (relocates budget).expression h
  obtain ⟨cs, position⟩ := cursor
  obtain rfl : cs = text ++ after.rest := hreads.rest
  have hread := hagain larger after.rest .refl hends (by
    simp only [List.length_append] at hlarger
    omega)
  have hposition : after.position = position.afterAll text := hreads.position
  dsimp only at hread
  rwa [value.mapSpans_id, ← hposition] at hread

/-- What a chain asks of one value it can ask of another one. -/
theorem chain_again (h : chain budget start value cursor = .ok (result, after))
    (hends : EndsExpression after.rest) :
    EndsMember cursor.rest ∧ ∀ (larger : Nat) (front : Cursor) (twin : Expr),
      8 * cursor.rest.length + 1 ≤ larger → twin.isProperty = value.isProperty →
        ∃ other, chain larger front twin cursor = .ok (other, after) ∧
          other.isProperty = result.isProperty := by
  induction budget generalizing cursor value with
  | zero => simp [chain] at h
  | succ budget ih =>
    rcases chain_cases h with ⟨hdot, rfl, rfl⟩ |
      ⟨afterDot, word, name, afterName, arguments, behind, hdot, hword, hname, hsuffix, hrest⟩
    · refine ⟨hends.toEndsMember, fun larger front twin hlarger htwin => ?_⟩
      obtain ⟨larger, rfl⟩ := Nat.exists_eq_add_of_le' (show 1 ≤ larger by omega)
      exact ⟨twin, chain_of_none hdot, htwin⟩
    · obtain ⟨gap, next, hbefore, hchar, hgap⟩ := gap_of_charAfter hdot (by decide)
      obtain ⟨inner, hinner, -⟩ := Spacing.reads_of_skip hword
      have hletters := Cursor.reads_of_name? hname
      obtain ⟨tail, htail, -⟩ := (relocates budget).suffix hsuffix
      have hlength := congrArg List.length (hbefore.trans (hchar.cons (hinner.trans hletters))).rest
      have hshorter := congrArg List.length htail.rest
      simp only [List.length_append, List.length_cons] at hlength hshorter
      obtain ⟨hmember, hagain⟩ := ih hrest
      refine ⟨?_, fun larger front twin hlarger htwin => ?_⟩
      · rw [(hbefore.trans hchar).rest, List.append_assoc]
        exact endsMember_gap hgap (by decide) (by decide) (by decide) (by decide)
      · obtain ⟨larger, rfl⟩ := Nat.exists_eq_add_of_le' (show 1 ≤ larger by omega)
        have hread := suffix_again hsuffix hmember (show _ ≤ larger by omega)
        rw [chain_of_member hdot hword hname hread]
        exact hagain _ _ _ (by omega) (isProperty_member rfl)

/-! ### What ends an expression -/

theorem meets_of_skip {spacing : Spacing} {p : Option Char → Prop}
    (h : spacing.skip cursor = .ok stop) (hp : p stop.rest.head?) :
    spacing.Meets cursor.rest p := by
  intro position
  have hagree : Agree cursor ⟨cursor.rest, position⟩ _ (spacing.skip cursor)
      (spacing.skip ⟨cursor.rest, position⟩) := Spacing.agree_skip (Cursor.abreast_start rfl)
  rw [h] at hagree
  generalize spacing.skip ⟨cursor.rest, position⟩ = found at hagree ⊢
  cases hagree with
  | ok hstop => exact ⟨_, rfl, hstop.rest ▸ hp⟩

theorem head?_ne_of_char? (h : cursor.char? c = none) : cursor.rest.head? ≠ some c := by
  obtain ⟨_ | ⟨d, rest⟩, position⟩ := cursor
  · simp
  · rintro ⟨⟩
    rw [Cursor.char?_self] at h
    cases h

theorem charAfter_of_chain (h : chain budget start value cursor = .ok (result, after)) :
    charAfter .multiline '.' after = .ok none := by
  induction budget generalizing cursor value with
  | zero => simp [chain] at h
  | succ budget ih =>
    rcases chain_cases h with ⟨hdot, -, rfl⟩ | ⟨_, _, _, _, _, _, -, -, -, -, hrest⟩
    · exact hdot
    · exact ih hrest

/-- No member is asked of an expression that has been read, whatever stands in front of it. -/
theorem meets_of_expression (h : expression budget cursor = .ok (some (value, after))) :
    Spacing.multiline.Meets after.rest (· ≠ some '.') := by
  cases budget with
  | zero => simp [expression] at h
  | succ budget =>
    obtain ⟨first, behind, -, hchain⟩ := expression_cases h
    obtain ⟨next, hnext, hdot⟩ := Fallible.bind_eq_ok.mp (charAfter_of_chain hchain)
    exact meets_of_skip hnext (head?_ne_of_char? (Except.ok.inj hdot))

/-- An expression has ended where a sign or the end of a statement stands behind it. -/
theorem endsExpression_of_skip (h : expression budget cursor = .ok (some (value, after)))
    (hskip : Spacing.inline.skip after = .ok stop)
    (hstop : ∀ c ∈ stop.rest.head?, c ∈ [';', '\n', '\r', '\x7d', '=']) :
    EndsExpression after.rest := by
  have hclass : ∀ c ∈ [';', '\n', '\r', '\x7d', '='],
      continuesIdentifier c = false ∧ c ≠ '(' ∧ c ≠ '\x7b' :=
    List.all_iff_forall_prop.mp (by decide)
  obtain ⟨gap, hreads, hgap, -⟩ := Spacing.reads_of_skip hskip
  have hdelimited : Delimited after.rest := by
    rw [hreads.rest]
    exact hgap.delimited fun c hc => (hclass c (hstop c hc)).1
  refine endsExpression_of_meets (endsMember_of_meets hdelimited (meets_of_skip hskip ?_))
    (meets_of_expression h)
  constructor
  · exact fun hparen => (hclass _ (hstop _ hparen)).2.1 rfl
  · exact fun hbrace => (hclass _ (hstop _ hbrace)).2.2 rfl

theorem mark_of_statementEnd (h : statementEnd cursor = .ok after)
    (hskip : Spacing.inline.skip cursor = .ok stop) :
    ∀ c ∈ stop.rest.head?, c ∈ [';', '\n', '\r', '\x7d'] := by
  obtain ⟨next, hnext, h⟩ := Fallible.bind_eq_ok.mp h
  obtain rfl := Except.ok.inj (hnext.symm.trans hskip)
  split at h
  case h_6 => cases h
  all_goals simp_all

theorem endsExpression_of_end (h : expression budget cursor = .ok (some (value, after)))
    (hended : statementEnd after = .ok stop) : EndsExpression after.rest := by
  obtain ⟨next, hnext, -⟩ := Fallible.bind_eq_ok.mp hended
  refine endsExpression_of_skip h hnext fun c hc => ?_
  exact List.mem_append_left ['='] (mark_of_statementEnd hended hnext c hc)

theorem endsExpression_of_sign {sign afterSign : Cursor}
    (h : expression budget cursor = .ok (some (value, after)))
    (hsign : Spacing.inline.skip after = .ok sign)
    (hassigned : sign.assignmentSign? = some afterSign) : EndsExpression after.rest := by
  refine endsExpression_of_skip h hsign ?_
  rw [(Cursor.reads_of_assignmentSign? hassigned).1.rest]
  simp

/-- Nothing is assigned at the end of a statement. -/
theorem assignmentSign?_of_end (hended : statementEnd cursor = .ok after)
    (hskip : Spacing.inline.skip cursor = .ok stop) : stop.assignmentSign? = none := by
  cases hsign : stop.assignmentSign? with
  | none => rfl
  | some afterSign =>
    have hmark := mark_of_statementEnd hended hskip '='
    rw [(Cursor.reads_of_assignmentSign? hsign).1.rest] at hmark
    exact absurd (hmark rfl) (by decide)

/-! ### Readings that go on in the next line -/

/-- The next line begins with an expression that is read up to a place, however much there is to
spend. -/
def Continued (later after : Cursor) (assignable : Bool) : Prop :=
  ∃ word, Spacing.multiline.skip later = .ok word ∧
    ∀ budget, 8 * word.rest.length + 1 ≤ budget →
      ∃ value, expression budget word = .ok (some (value, after)) ∧
        value.isProperty = assignable

/-- What stands first on the next line asks for no member. -/
def Dotless (later : Cursor) : Prop :=
  ∀ next, Spacing.multiline.skip later = .ok next → next.rest.head? ≠ some '.'

instance : Decidable (Dotless later) :=
  decidable_of_iff ((match Spacing.multiline.skip later with
    | .ok next => decide (next.rest.head? ≠ some '.')
    | .error _ => true) = true) (by
    unfold Dotless
    cases Spacing.multiline.skip later <;> simp)

/-- A member whose name stands on the next line: the name begins an expression there. -/
theorem continued_of_member {word afterName : Cursor}
    (hword : Spacing.multiline.skip later = .ok word) (hname : word.name? = some (name, afterName))
    (hsuffix : suffix budget afterName = .ok (arguments, behind))
    (hchain : chain budget start (member (some value) name (start.spanTo behind) arguments) behind =
      .ok (result, after)) (hends : EndsExpression after.rest) :
    Continued later after result.isProperty := by
  obtain ⟨hmember, hagain⟩ := chain_again hchain hends
  obtain ⟨tail, htail, hgoes, -⟩ := (relocates _).suffix hsuffix
  have hletters := Cursor.reads_of_name? hname
  have hnamed := Cursor.isName_of_name? hname
  have hpos := List.length_pos_of_ne_nil (solid_name hnamed).ne_nil
  have hlength := congrArg List.length hletters.rest
  have hshorter := congrArg List.length htail.rest
  simp only [List.length_append] at hlength hshorter
  refine ⟨word, hword, fun larger hlarger => ?_⟩
  obtain ⟨larger, rfl⟩ := Nat.exists_eq_add_of_le' (show 2 ≤ larger by omega)
  have hread := suffix_again hsuffix hmember (show _ ≤ larger by omega)
  have hdelimited : Delimited afterName.rest := by
    rw [htail.rest]
    exact hgoes.delimited hmember.delimited
  have hprimary : primary (larger + 1) word =
      .ok (some (member none name (word.spanTo behind) arguments, behind)) := by
    obtain ⟨cs, position⟩ := word
    obtain rfl : cs = name.toList ++ afterName.rest := hletters.rest
    refine primary_name hnamed hdelimited ?_
    have hposition : afterName.position = position.afterAll name.toList := hletters.position
    rwa [← hposition]
  obtain ⟨other, hother, hkind⟩ := hagain (larger + 1) word
    (member none name (word.spanTo behind) arguments) (by omega) (isProperty_member rfl)
  exact ⟨other, expression_of_chain hprimary hother, hkind⟩

section Crosses

variable (hdotless : Dotless later)

include hdotless

theorem chain_crosses (h : cursor.InLine later)
    (hchain : chain budget start value cursor = .ok (result, after))
    (hends : EndsExpression after.rest) :
    after.InLine later ∨ Continued later after result.isProperty := by
  induction budget generalizing cursor value with
  | zero => simp [chain] at hchain
  | succ budget ih =>
    rcases chain_cases hchain with ⟨-, -, rfl⟩ |
      ⟨afterDot, word, name, afterName, arguments, behind, hdot, hword, hname, hsuffix, hrest⟩
    · exact .inl h
    obtain ⟨next, hnext, hchar⟩ := Fallible.bind_eq_ok.mp hdot
    have hchar := Except.ok.inj hchar
    rcases h.multiline hnext with hline | hlater
    · rcases (hline.char hchar (by decide)).multiline hword with hline | hlater
      · exact ih (inLine_suffix (hline.name hname) hsuffix) hrest
      · exact .inr (continued_of_member hlater hname hsuffix hrest hends)
    · have hhead := hdotless next hlater
      rw [(Cursor.reads_of_char? hchar).rest] at hhead
      exact absurd rfl hhead

theorem expression_crosses (h : cursor.InLine later)
    (hvalue : expression budget cursor = .ok (some (value, after)))
    (hends : EndsExpression after.rest) :
    after.InLine later ∨ Continued later after value.isProperty := by
  cases budget with
  | zero => simp [expression] at hvalue
  | succ budget =>
    obtain ⟨first, behind, hprimary, hchain⟩ := expression_cases hvalue
    exact chain_crosses hdotless (inLine_primary h hprimary) hchain hends

/-- The right side of an assignment may stand on the next line as a whole. -/
theorem assigned_crosses (h : cursor.InLine later)
    (hinside : Spacing.multiline.skip cursor = .ok inside)
    (hvalue : expression budget inside = .ok (some (value, after)))
    (hends : EndsExpression after.rest) :
    after.InLine later ∨ Continued later after value.isProperty := by
  rcases h.multiline hinside with hline | hlater
  · exact expression_crosses hdotless hline hvalue hends
  · exact .inr ⟨inside, hlater, fun larger hlarger =>
      ⟨value, expression_again hvalue hends hlarger, rfl⟩⟩

end Crosses

/-! ### Statements that go on in the next line -/

theorem keyword?_of_expression {word : String}
    (h : expression budget cursor = .ok (some (value, after))) (hends : EndsExpression after.rest)
    (hword : word ∈ ["val", "var", "import"]) : cursor.keyword? word = none := by
  obtain ⟨text, hreads, hleading, -⟩ := (relocates budget).expression h
  obtain ⟨cs, position⟩ := cursor
  obtain rfl : cs = text ++ after.rest := hreads.rest
  exact hleading.keyword?_eq_none hends.delimited hword

/-- The next line begins with a statement that is no import and ends at a place. -/
def Joins (later ended : Cursor) : Prop :=
  ∃ word result, Spacing.multiline.skip later = .ok word ∧ Spacing.Solid word.rest ∧
    topLevelStatement word = .ok (result, ended) ∧ result.isImport = false

variable {assignable : Bool} {ended sign : Cursor}

theorem joins_of_expression (h : Continued later after assignable)
    (hended : statementEnd after = .ok ended) : Joins later ended := by
  obtain ⟨word, hword, hagain⟩ := h
  obtain ⟨value, hvalue, -⟩ := hagain (8 * word.rest.length + 7) (by omega)
  obtain ⟨sign, hsign, -⟩ := Fallible.bind_eq_ok.mp hended
  have hkeyword : ∀ keyword ∈ ["val", "var", "import"], word.keyword? keyword = none :=
    fun _ hmem => keyword?_of_expression hvalue (endsExpression_of_end hvalue hended) hmem
  have hread : statement (Parser.budget word) word = .ok (.expr value, after) :=
    statement_of_expr (hkeyword _ (by decide)) (hkeyword _ (by decide)) hvalue hsign
      (assignmentSign?_of_end hended hsign)
  exact ⟨word, .expr value, hword, solid_of_expression hvalue,
    topLevelStatement_of_statement (hkeyword _ (by decide)) hread hended, rfl⟩

theorem joins_of_assignment (h : Continued later behind true) {afterSign : Cursor}
    (hsign : Spacing.inline.skip behind = .ok sign)
    (hassigned : sign.assignmentSign? = some afterSign)
    (hinside : Spacing.multiline.skip afterSign = .ok inside)
    (hvalue : expression budget inside = .ok (some (value, after)))
    (hended : statementEnd after = .ok ended) : Joins later ended := by
  obtain ⟨word, hword, hagain⟩ := h
  obtain ⟨target, htarget, hproperty⟩ := hagain (8 * word.rest.length + 7) (by omega)
  have hkeyword : ∀ keyword ∈ ["val", "var", "import"], word.keyword? keyword = none :=
    fun _ hmem => keyword?_of_expression htarget (endsExpression_of_sign htarget hsign hassigned)
      hmem
  have hlater : word.Precedes inside := by
    obtain ⟨text, hreads, -⟩ := (relocates _).expression htarget
    obtain ⟨gap, hgap, -⟩ := Spacing.reads_of_skip hsign
    obtain ⟨inner, hinner, -⟩ := Spacing.reads_of_skip hinside
    exact ⟨_, hreads.trans (hgap.trans
      ((Cursor.reads_of_assignmentSign? hassigned).1.trans hinner))⟩
  have hlength : inside.rest.length ≤ word.rest.length := by
    obtain ⟨text, hreads⟩ := hlater
    rw [hreads.rest, List.length_append]
    omega
  have hvalue := @expression_again _ _ _ (8 * word.rest.length + 7) _ hvalue
    (endsExpression_of_end hvalue hended) (by omega)
  cases target with
  | property receiver name span =>
    have hread : statement (Parser.budget word) word =
        .ok (.assignment receiver name span value (word.spanTo after), after) :=
      statement_of_assignment (hkeyword _ (by decide)) (hkeyword _ (by decide)) htarget hsign
        hassigned hinside hvalue
    exact ⟨word, _, hword, solid_of_expression htarget,
      topLevelStatement_of_statement (hkeyword _ (by decide)) hread hended, rfl⟩
  | _ => cases hproperty

theorem isImport_of_statement {result : Statement}
    (h : statement budget cursor = .ok (result, after)) : result.isImport = false := by
  cases budget with
  | zero => simp [statement] at h
  | succ budget =>
    rcases statement_cases h with ⟨_, _, _, _, _, _, _, _, -, -, -, -, -, -, -, rfl⟩ |
      ⟨_, _, _, -, -, -, -, ⟨-, rfl, -⟩ | ⟨_, _, _, _, _, _, -, -, -, -, rfl⟩⟩
    · rfl
    · rfl
    · rfl

theorem statement_crosses (hdotless : Dotless later) (h : cursor.InLine later) {result : Statement}
    (hread : statement budget cursor = .ok (result, after))
    (hended : statementEnd after = .ok ended) : after.InLine later ∨ Joins later ended := by
  cases budget with
  | zero => simp [statement] at hread
  | succ budget =>
    rcases statement_cases hread with
      ⟨afterWord, first, name, afterName, sign, afterSign, inside, value, hword, hfirst, hname,
        hsign, hequals, hinside, hvalue, -⟩ |
      ⟨target, behind, sign, -, -, htarget, hsign, hresult⟩
    · have hline := ((h.keyword hword (by decide)).inline hfirst).name hname
      have hline := (hline.inline hsign).char hequals (by decide)
      exact (assigned_crosses hdotless hline hinside hvalue
        (endsExpression_of_end hvalue hended)).imp_right fun h => joins_of_expression h hended
    · rcases hresult with ⟨-, -, rfl⟩ |
        ⟨receiver, name, span, afterSign, inside, value, rfl, hassigned, hinside, hvalue, -⟩
      · exact (expression_crosses hdotless h htarget
          (endsExpression_of_end htarget hended)).imp_right fun h => joins_of_expression h hended
      · rcases expression_crosses hdotless h htarget
          (endsExpression_of_sign htarget hsign hassigned) with hline | hjoined
        · exact (assigned_crosses hdotless ((hline.inline hsign).sign hassigned) hinside hvalue
            (endsExpression_of_end hvalue hended)).imp_right fun h => joins_of_expression h hended
        · exact .inr (joins_of_assignment hjoined hsign hassigned hinside hvalue hended)

/-- A statement that begins on a line that settles ends there or at its end, or it goes on with the
first statement of the next line; imports do not. -/
theorem topLevelStatement_crosses (hdotless : Dotless later) (h : cursor.InLine later)
    {result : Statement} (hread : topLevelStatement cursor = .ok (result, ended)) :
    ended.InLine later ∨ ended = later ∨ Joins later ended ∧ result.isImport = false := by
  obtain ⟨behind, himport | ⟨-, hread⟩, hended⟩ := topLevelStatement_cases hread
  · rcases (inLine_importStatement h himport).ended hended with hline | hlater
    · exact .inl hline
    · exact .inr (.inl hlater)
  · rcases statement_crosses hdotless h hread hended with hline | hjoins
    · rcases hline.ended hended with hline | hlater
      · exact .inl hline
      · exact .inr (.inl hlater)
    · exact .inr (.inr ⟨hjoins, isImport_of_statement hread⟩)

end Parser

end ConfigScript
