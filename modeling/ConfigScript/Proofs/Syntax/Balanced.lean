import ConfigScript.Proofs.Syntax.Regions
import ConfigScript.Proofs.Syntax.Relocated

/-!
# Readers balance brackets

What a reader of the descent has read closes each bracket that it opens, and ends in code: a scan
is behind it where it was in front. One level of the descent keeps this when the level below does.
-/

namespace ConfigScript

open ConfigScript.Parser

variable {cursor after inside stop behind : Cursor} {text others : List Char} {c : Char}

/-- A text that begins and ends in code and closes just the brackets that it opens. -/
def Neutral (text : List Char) : Prop :=
  ∀ opened, (⟨.code, opened⟩ : Scan).through text = some ⟨.code, opened⟩

namespace Neutral

theorem nil : Neutral [] :=
  fun _ => rfl

theorem append (h : Neutral text) (hothers : Neutral others) : Neutral (text ++ others) := by
  intro opened
  rw [Scan.through_append, h]
  exact hothers opened

theorem gap {spacing : Spacing} {gap : List Char} (hgap : spacing.Gap gap) : Neutral gap :=
  fun _ => hgap.through

theorem brackets {opener closer : Char} (h : Neutral text) (hpair : BracketPair opener closer) :
    Neutral (opener :: (text ++ [closer])) := by
  intro opened
  rcases hpair with ⟨rfl, rfl⟩ | ⟨rfl, rfl⟩
  · have hopen : (⟨.code, opened⟩ : Scan).after '(' = some ⟨.code, '(' :: opened⟩ := rfl
    rw [Scan.through_cons, hopen, Option.bind_some, Scan.through_append, h]
    rfl
  · have hopen : (⟨.code, opened⟩ : Scan).after '\x7b' = some ⟨.code, '\x7b' :: opened⟩ := rfl
    rw [Scan.through_cons, hopen, Option.bind_some, Scan.through_append, h]
    rfl

end Neutral

/-- A neutral text on one line. -/
structure Flat (text : List Char) : Prop where
  neutral : Neutral text
  feedless : '\n' ∉ text

theorem flat_plain (h : ∀ c ∈ text, c ∉ ['(', ')', '\x7b', '\x7d', '"', '/', '\n']) :
    Flat text where
  neutral _ := Scan.through_plain fun c hc hmem => h c hc (by
    simp only [List.mem_cons] at hmem ⊢
    tauto)
  feedless hmem := h '\n' hmem (by decide)

theorem flat_singleton (h : c ∉ ['(', ')', '\x7b', '\x7d', '"', '/', '\n']) : Flat [c] :=
  flat_plain (by simpa using h)

theorem flat_word {word : List Char} (h : isIdentifier word = true) : Flat word := by
  have hclass : ∀ d ∈ ['(', ')', '\x7b', '\x7d', '"', '/', '\n'], continuesIdentifier d = false :=
    List.all_iff_forall_prop.mp (by decide)
  refine flat_plain fun c hc hmem => ?_
  have hword := continuesIdentifier_of_mem h hc
  rw [hclass c hmem] at hword
  cases hword

theorem flat_name {name : String} (hname : isName name = true) : Flat name.toList :=
  flat_word (Bool.and_eq_true_iff.mp hname).1

namespace Literal

variable {literal : Literal}

/-- Up to the closing quote all characters stand on one line and inside the string. -/
theorem through_of_readCharacters {opening : Cursor} {cs values : List Char} {position : Position}
    (h : readCharacters opening cs position = .ok (values, after)) :
    ∃ text, Cursor.Reads ⟨cs, position⟩ text after ∧ '\n' ∉ text ∧
      ∀ opened, (⟨.string, opened⟩ : Scan).through text = some ⟨.code, opened⟩ := by
  fun_induction readCharacters opening cs position generalizing values with
  | case1 => cases h
  | case2 => cases h
  | case3 c cs position value hvalue ih =>
    obtain ⟨⟨others, behind⟩, hothers, h⟩ := Fallible.bind_eq_ok.mp h
    obtain ⟨rfl, rfl⟩ := Prod.mk.inj (Fallible.pure_eq_ok.mp h)
    obtain ⟨text, hreads, hfeed, hthrough⟩ := ih hothers
    have hc : c ≠ '\n' := by
      rintro rfl
      cases hvalue
    refine ⟨'\\' :: c :: text, ⟨congrArg ('\\' :: c :: ·) hreads.rest, hreads.position⟩,
      by simp [hc.symm, hfeed], fun opened => hthrough opened⟩
  | case4 => cases h
  | case5 cs position =>
    obtain ⟨rfl, rfl⟩ := Prod.mk.inj (Except.ok.inj h)
    exact ⟨['"'], ⟨rfl, rfl⟩, by decide, fun opened => rfl⟩
  | case6 => cases h
  | case7 => cases h
  | case8 c cs position hlast hescape hquote hfeed htemplate ih =>
    obtain ⟨⟨others, behind⟩, hothers, h⟩ := Fallible.bind_eq_ok.mp h
    obtain ⟨rfl, rfl⟩ := Prod.mk.inj (Fallible.pure_eq_ok.mp h)
    obtain ⟨text, hreads, hline, hthrough⟩ := ih hothers
    have hslash : c ≠ '\\' := by
      rintro rfl
      cases cs with
      | nil => exact hlast rfl rfl
      | cons d cs => exact hescape d cs rfl rfl
    have hc : c ≠ '\n' := fun hc => hfeed (.inl hc)
    refine ⟨c :: text, ⟨congrArg (c :: ·) hreads.rest, hreads.position⟩,
      by simp [hc.symm, hline], fun opened => ?_⟩
    have hafter : (⟨.string, opened⟩ : Scan).after c = some ⟨.string, opened⟩ := by
      simp [Scan.after, Region.isCode, Region.after, hslash, hquote, hc]
    rw [Scan.through_cons, hafter]
    exact hthrough opened

theorem flat_of_readString (h : readString cursor = .ok (some (literal, after))) :
    ∃ text, cursor.Reads text after ∧ Flat text := by
  unfold readString at h
  split at h
  · cases h
  · rename_i inside hquote
    obtain ⟨⟨values, behind⟩, hvalues, h⟩ := Fallible.bind_eq_ok.mp h
    cases h
    obtain ⟨text, hreads, hfeed, hthrough⟩ := through_of_readCharacters hvalues
    exact ⟨'"' :: text, (Cursor.reads_of_char? hquote).cons hreads,
      fun opened => hthrough opened, by simp [hfeed]⟩

theorem flat_of_readNumber (h : readNumber cursor = .ok (some (literal, after))) :
    ∃ text, cursor.Reads text after ∧ Flat text := by
  obtain ⟨negative, suffixed, digits, hreads, -, hdigits, -⟩ := reads_of_readNumber h
  have hclass : ∀ d ∈ ['(', ')', '\x7b', '\x7d', '"', '/', '\n'], d.isDigit = false :=
    List.all_iff_forall_prop.mp (by decide)
  refine ⟨_, hreads, flat_plain fun c hc hmem => ?_⟩
  rcases List.mem_append.mp hc with hc | hc
  · rcases List.mem_append.mp hc with hc | hc
    · cases negative with
      | true =>
        obtain rfl := List.mem_singleton.mp hc
        exact absurd hmem (by decide)
      | false => cases hc
    · have hdigit := hdigits c hc
      rw [hclass c hmem] at hdigit
      cases hdigit
  · cases suffixed with
    | true =>
      obtain rfl := List.mem_singleton.mp hc
      exact absurd hmem (by decide)
    | false => cases hc

end Literal

/-- The text between two cursors is neutral. -/
def Cursor.Balanced (cursor after : Cursor) : Prop :=
  ∃ text, cursor.Reads text after ∧ Neutral text

namespace Cursor.Balanced

theorem refl : cursor.Balanced cursor :=
  ⟨[], .refl, .nil⟩

theorem trans (h : cursor.Balanced behind) (hafter : behind.Balanced after) :
    cursor.Balanced after := by
  obtain ⟨text, hreads, hneutral⟩ := h
  obtain ⟨others, hothers, hrest⟩ := hafter
  exact ⟨text ++ others, hreads.trans hothers, hneutral.append hrest⟩

theorem of_flat (hreads : cursor.Reads text after) (htext : Flat text) : cursor.Balanced after :=
  ⟨text, hreads, htext.neutral⟩

theorem of_name {name : String} (h : cursor.name? = some (name, after)) : cursor.Balanced after :=
  of_flat (reads_of_name? h) (flat_name (isName_of_name? h))

theorem of_char (h : cursor.char? c = some after)
    (hc : c ∉ ['(', ')', '\x7b', '\x7d', '"', '/', '\n']) : cursor.Balanced after :=
  of_flat (reads_of_char? h) (flat_singleton hc)

theorem of_sign (h : cursor.assignmentSign? = some after) : cursor.Balanced after :=
  of_flat (reads_of_assignmentSign? h).1 (flat_singleton (by decide))

theorem of_skip {spacing : Spacing} (h : spacing.skip cursor = .ok after)
    (hsolid : Spacing.Solid after.rest) : cursor.Balanced after := by
  obtain ⟨gap, hreads, hgap⟩ := Spacing.gap_of_skip h hsolid
  exact ⟨gap, hreads, .gap hgap⟩

theorem of_charAfter {spacing : Spacing} (h : charAfter spacing c cursor = .ok (some after))
    (hc : c = '.' ∨ c = ',') : cursor.Balanced after := by
  have hsolid : Spacing.isSolid c = true := by
    rcases hc with rfl | rfl <;> decide
  obtain ⟨gap, next, hreads, hchar, hgap⟩ := gap_of_charAfter h hsolid
  refine trans ⟨gap, hreads, .gap hgap⟩ (of_flat hchar (flat_singleton ?_))
  rcases hc with rfl | rfl <;> decide

theorem brackets {opener closer : Char} (hpair : BracketPair opener closer)
    (hopen : cursor.char? opener = some inside) (h : inside.Balanced stop)
    (hclose : stop.char? closer = some after) : cursor.Balanced after := by
  obtain ⟨text, hreads, hneutral⟩ := h
  exact ⟨_, (reads_of_char? hopen).cons (hreads.trans (reads_of_char? hclose)),
    hneutral.brackets hpair⟩

theorem of_statementEnd (h : statementEnd cursor = .ok after) (hmore : after.rest ≠ []) :
    cursor.Balanced after := by
  obtain ⟨text, hreads, hending⟩ := ending_of_statementEnd h
  refine ⟨text, hreads, ?_⟩
  generalize after.rest = rest at hending hmore
  cases hending with
  | source => exact absurd rfl hmore
  | brace hgap => exact .gap hgap
  | semicolon hgap => exact (Neutral.gap hgap).append (flat_singleton (by decide)).neutral
  | feed hgap =>
    obtain ⟨stop, hstop, hthrough⟩ := hgap.through
    intro opened
    rw [Scan.through_append, hthrough]
    rcases hstop with rfl | rfl <;> rfl
  | returnFeed hgap =>
    obtain ⟨stop, hstop, hthrough⟩ := hgap.through
    intro opened
    rw [Scan.through_append, hthrough]
    rcases hstop with rfl | rfl <;> rfl

end Cursor.Balanced

namespace Parser

variable {budget : Nat}

theorem flat_of_literalOrWord {value : Expr}
    (h : literalOrWord? cursor = .ok (some (value, after))) :
    ∃ text, cursor.Reads text after ∧ Flat text := by
  rcases literalOrWord?_cases h with ⟨literal, rfl, hstring | hnumber | hboolean⟩ |
    ⟨hnull, rfl⟩ | ⟨hthis, rfl⟩
  · exact Literal.flat_of_readString hstring
  · exact Literal.flat_of_readNumber hnumber
  · obtain ⟨flag, hword, rfl⟩ := Literal.readBoolean_cases hboolean
    refine ⟨_, (Cursor.reads_of_keyword? hword).1, flat_word ?_⟩
    cases flag <;> decide
  · exact ⟨_, (Cursor.reads_of_keyword? hnull).1, flat_word (by decide)⟩
  · exact ⟨_, (Cursor.reads_of_keyword? hthis).1, flat_word (by decide)⟩

/-- The text up to a closing character is neutral. -/
def ClosedBy (closer : Char) (cursor after : Cursor) : Prop :=
  ∃ stop, cursor.Balanced stop ∧ stop.char? closer = some after

/-- What the readers have read within a budget is neutral. Inside of brackets it is so up to the
closing one. -/
structure Balances (budget : Nat) : Prop where
  expression : ∀ {cursor value after}, expression budget cursor = .ok (some (value, after)) →
    cursor.Balanced after
  chain : ∀ {start cursor value result after},
    chain budget start value cursor = .ok (result, after) → cursor.Balanced after
  primary : ∀ {cursor value after}, primary budget cursor = .ok (some (value, after)) →
    cursor.Balanced after
  suffix : ∀ {cursor arguments after}, suffix budget cursor = .ok (arguments, after) →
    cursor.Balanced after
  valueArguments : ∀ {cursor values after}, valueArguments budget cursor = .ok (values, after) →
    ClosedBy ')' cursor after
  moreArguments : ∀ {cursor values after}, moreArguments budget cursor = .ok (values, after) →
    cursor.Balanced after
  argument : ∀ {cursor value after}, argument budget cursor = .ok (some (value, after)) →
    cursor.Balanced after
  lambda : ∀ {cursor value after}, lambda budget cursor = .ok (some (value, after)) →
    ∃ inside, cursor.char? '\x7b' = some inside ∧ ClosedBy '\x7d' inside after
  blockBody : ∀ {cursor statements after}, blockBody budget cursor = .ok (statements, after) →
    ClosedBy '\x7d' cursor after
  statement : ∀ {cursor result after}, statement budget cursor = .ok (result, after) →
    cursor.Balanced after

theorem zero_balances : Balances 0 where
  expression h := by simp [Parser.expression] at h
  chain h := by simp [Parser.chain] at h
  primary h := by simp [Parser.primary] at h
  suffix h := by simp [Parser.suffix] at h
  valueArguments h := by simp [Parser.valueArguments] at h
  moreArguments h := by simp [Parser.moreArguments] at h
  argument h := by simp [Parser.argument] at h
  lambda h := by simp [Parser.lambda] at h
  blockBody h := by simp [Parser.blockBody] at h
  statement h := by simp [Parser.statement] at h

/-! Where the readers pass over spacing there is always something solid behind it. -/

theorem solid_of_expression {value : Expr}
    (h : expression budget cursor = .ok (some (value, after))) : Spacing.Solid cursor.rest := by
  obtain ⟨text, hreads, hleading, -⟩ := (relocates budget).expression h
  exact hreads.solid hleading.solid

theorem solid_of_argument {value : Argument}
    (h : argument budget cursor = .ok (some (value, after))) : Spacing.Solid cursor.rest := by
  obtain ⟨text, hreads, hsolid, -⟩ := (relocates budget).argument h
  exact hreads.solid hsolid

theorem solid_of_blockBody {statements : List Statement}
    (h : blockBody budget cursor = .ok (statements, after)) : Spacing.Solid cursor.rest := by
  obtain ⟨c, text, hreads, hsolid, -⟩ := (relocates budget).blockBody h
  exact hreads.solid (Spacing.solid_cons hsolid)

theorem solid_of_name {name : String} (h : cursor.name? = some (name, after)) :
    Spacing.Solid cursor.rest :=
  (Cursor.reads_of_name? h).solid (solid_name (Cursor.isName_of_name? h))

theorem solid_of_char (h : cursor.char? c = some after) (hc : Spacing.isSolid c = true) :
    Spacing.Solid cursor.rest :=
  (Cursor.reads_of_char? h).solid (Spacing.solid_cons hc)

theorem solid_of_sign (h : cursor.assignmentSign? = some after) : Spacing.Solid cursor.rest :=
  (Cursor.reads_of_assignmentSign? h).1.solid (Spacing.solid_cons (by decide))

open Cursor Balanced

theorem chain_balances (h : Balances budget) {start : Cursor} {value result : Expr}
    (hchain : chain (budget + 1) start value cursor = .ok (result, after)) :
    cursor.Balanced after := by
  rcases chain_cases hchain with ⟨-, -, rfl⟩ |
    ⟨afterDot, word, name, afterName, arguments, behind, hdot, hword, hname, hsuffix, hrest⟩
  · exact refl
  · have hmember := (of_skip hword (solid_of_name hname)).trans (of_name hname)
    exact (of_charAfter hdot (.inl rfl)).trans (hmember.trans ((h.suffix hsuffix).trans
      (h.chain hrest)))

theorem primary_balances (h : Balances budget) {value : Expr}
    (hprimary : primary (budget + 1) cursor = .ok (some (value, after))) :
    cursor.Balanced after := by
  rcases primary_cases hprimary with hword |
    ⟨inside, first, behind, last, hopening, hfirst, hvalue, hlast, hclosing⟩ |
    ⟨name, afterName, arguments, hname, hsuffix, rfl⟩
  · obtain ⟨text, hreads, htext⟩ := flat_of_literalOrWord hword
    exact of_flat hreads htext
  · have hbody := (of_skip hfirst (solid_of_expression hvalue)).trans ((h.expression hvalue).trans
      (of_skip hlast (solid_of_char hclosing (by decide))))
    exact brackets (.inl ⟨rfl, rfl⟩) hopening hbody hclosing
  · exact (of_name hname).trans (h.suffix hsuffix)

/-- A block behind spacing. -/
theorem balanced_lambda (h : Balances budget) {block : Cursor} {value : Argument}
    (hblock : Spacing.inline.skip cursor = .ok block)
    (hlambda : lambda budget block = .ok (some (value, after))) : cursor.Balanced after := by
  obtain ⟨inside, hopening, stop, hbody, hclosing⟩ := h.lambda hlambda
  exact (of_skip hblock (solid_of_char hopening (by decide))).trans
    (brackets (.inr ⟨rfl, rfl⟩) hopening hbody hclosing)

theorem suffix_balances (h : Balances budget) {arguments : Option (List Argument)}
    (hsuffix : suffix (budget + 1) cursor = .ok (arguments, after)) : cursor.Balanced after := by
  obtain ⟨opening, hopening, hcases⟩ := suffix_cases hsuffix
  rcases hcases with ⟨inside, values, behind, block, hparen, hvalues, hblock, hlast⟩ | ⟨-, hlast⟩
  · obtain ⟨stop, hbody, hclosing⟩ := h.valueArguments hvalues
    have hlist := (of_skip hopening (solid_of_char hparen (by decide))).trans
      (brackets (.inl ⟨rfl, rfl⟩) hparen hbody hclosing)
    rcases hlast with ⟨-, -, rfl⟩ | ⟨last, hlambda, -⟩
    · exact hlist
    · exact hlist.trans (balanced_lambda h hblock hlambda)
  · rcases hlast with ⟨-, -, rfl⟩ | ⟨last, hlambda, -⟩
    · exact refl
    · exact balanced_lambda h hopening hlambda

theorem valueArguments_balances (h : Balances budget) {values : List Argument}
    (hvalues : valueArguments (budget + 1) cursor = .ok (values, after)) :
    ClosedBy ')' cursor after := by
  obtain ⟨start, behind, separator, stop, hstart, hlist, hseparator, hstop, hclosing⟩ :=
    valueArguments_cases hvalues
  have hfront : cursor.Balanced behind := by
    rcases hlist with ⟨-, -, rfl⟩ | ⟨first, others, next, hfirst, hothers, -⟩
    · exact refl
    · exact (of_skip hstart (solid_of_argument hfirst)).trans
        ((h.argument hfirst).trans (h.moreArguments hothers))
  have hcomma : behind.Balanced (separator.getD behind) := by
    cases separator with
    | none => exact refl
    | some afterComma => exact of_charAfter hseparator (.inr rfl)
  exact ⟨stop, hfront.trans (hcomma.trans (of_skip hstop (solid_of_char hclosing (by decide)))),
    hclosing⟩

theorem moreArguments_balances (h : Balances budget) {values : List Argument}
    (hvalues : moreArguments (budget + 1) cursor = .ok (values, after)) :
    cursor.Balanced after := by
  rcases moreArguments_cases hvalues with ⟨-, rfl⟩ |
    ⟨afterComma, start, first, others, behind, hcomma, hstart, hfirst, hothers, -⟩
  · exact refl
  · exact (of_charAfter hcomma (.inr rfl)).trans ((of_skip hstart (solid_of_argument hfirst)).trans
      ((h.argument hfirst).trans (h.moreArguments hothers)))

theorem argument_balances (h : Balances budget) {value : Argument}
    (hargument : argument (budget + 1) cursor = .ok (some (value, after))) :
    cursor.Balanced after := by
  rcases argument_cases hargument with
    ⟨name, afterName, sign, afterSign, inside, value, hname, hsign, hassigned, hinside, hvalue, -⟩ |
    ⟨value, hvalue, -⟩
  · exact (of_name hname).trans ((of_skip hsign (solid_of_sign hassigned)).trans
      ((of_sign hassigned).trans ((of_skip hinside (solid_of_expression hvalue)).trans
        (h.expression hvalue))))
  · exact h.expression hvalue

theorem blockBody_balances (h : Balances budget) {statements : List Statement}
    (hbody : blockBody (budget + 1) cursor = .ok (statements, after)) :
    ClosedBy '\x7d' cursor after := by
  rcases blockBody_cases hbody with ⟨hclosing, -⟩ |
    ⟨first, others, behind, ended, next, -, hfirst, hended, hnext, hothers, -⟩
  · exact ⟨cursor, refl, hclosing⟩
  · obtain ⟨stop, hrest, hclosing⟩ := h.blockBody hothers
    have hsolid := solid_of_blockBody hothers
    have hmore : ended.rest ≠ [] := by
      obtain ⟨gap, hgap, -⟩ := Spacing.gap_of_skip hnext hsolid
      rw [hgap.rest]
      exact List.append_ne_nil_of_right_ne_nil _ hsolid.ne_nil
    exact ⟨stop, (h.statement hfirst).trans ((of_statementEnd hended hmore).trans
      ((of_skip hnext hsolid).trans hrest)), hclosing⟩

theorem statement_balances (h : Balances budget) {result : Statement}
    (hstatement : statement (budget + 1) cursor = .ok (result, after)) :
    cursor.Balanced after := by
  rcases statement_cases hstatement with
    ⟨afterWord, first, name, afterName, sign, afterSign, inside, value, hword, hfirst, hname, hsign,
      hequals, hinside, hvalue, -⟩ |
    ⟨value, behind, sign, -, -, hvalue, hsign, hresult⟩
  · have hval := of_flat (reads_of_keyword? hword).1 (flat_word (by decide))
    have hlocal := (of_skip hfirst (solid_of_name hname)).trans (of_name hname)
    have hassign := (of_skip hsign (solid_of_char hequals (by decide))).trans
      (of_char hequals (by decide))
    exact hval.trans (hlocal.trans (hassign.trans
      ((of_skip hinside (solid_of_expression hvalue)).trans (h.expression hvalue))))
  · rcases hresult with ⟨-, -, rfl⟩ |
      ⟨receiver, name, span, afterSign, inside, assigned, -, hassigned, hinside, hassignedValue, -⟩
    · exact h.expression hvalue
    · have hassign := (of_skip hsign (solid_of_sign hassigned)).trans (of_sign hassigned)
      exact (h.expression hvalue).trans (hassign.trans
        ((of_skip hinside (solid_of_expression hassignedValue)).trans
          (h.expression hassignedValue)))

theorem succ_balances (h : Balances budget) : Balances (budget + 1) where
  expression hexpression := by
    obtain ⟨first, behind, hfirst, hchain⟩ := expression_cases hexpression
    exact (h.primary hfirst).trans (h.chain hchain)
  chain := chain_balances h
  primary := primary_balances h
  suffix := suffix_balances h
  valueArguments := valueArguments_balances h
  moreArguments := moreArguments_balances h
  argument := argument_balances h
  lambda hlambda := by
    obtain ⟨inside, start, statements, hopening, hstart, hbody, -⟩ := lambda_cases hlambda
    obtain ⟨stop, hrest, hclosing⟩ := h.blockBody hbody
    exact ⟨inside, hopening, stop, (of_skip hstart (solid_of_blockBody hbody)).trans hrest,
      hclosing⟩
  blockBody := blockBody_balances h
  statement := statement_balances h

/-- The readers have read neutral texts. -/
theorem balances (budget : Nat) : Balances budget := by
  induction budget with
  | zero => exact zero_balances
  | succ budget ih => exact succ_balances ih

end Parser

end ConfigScript
