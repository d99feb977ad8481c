import ConfigScript.Proofs.Syntax.Walked

/-!
# Readers move on

Every reader ends at the place where it begins or behind it, and those that have read a name, a
literal, an expression, an argument, a block or a statement end behind it. The recovery from a
broken statement moves on as well, to the boundary of a character.
-/

namespace ConfigScript

namespace Cursor

variable {start stop : Cursor}

/-- The places of a source are boundaries of its characters. -/
theorem In.isValid {source : String} (h : start.In source) :
    String.Pos.Raw.IsValid source ⟨start.position.offset⟩ := by
  obtain ⟨text, hreads⟩ := h
  refine String.Pos.Raw.isValid_iff_exists_append.mpr ⟨.ofList text, .ofList start.rest, ?_, ?_⟩
  · rw [← String.ofList_append, ← hreads.rest]
    exact String.ofList_toList.symm
  · have hposition : start.position = .behind (.ofList text) :=
      hreads.position.trans Position.afterAll_origin
    rw [hposition]
    rfl

theorem advances_of_char? {c : Char} (h : start.char? c = some stop) : start.Advances stop :=
  (reads_of_char? h).advances (by simp)

theorem advances_of_name? {name : String} (h : start.name? = some (name, stop)) :
    start.Advances stop :=
  (reads_of_name? h).advances (solid_name (isName_of_name? h)).ne_nil

theorem advances_of_keyword? {word : String} (hword : word ≠ "")
    (h : start.keyword? word = some stop) : start.Advances stop :=
  (reads_of_keyword? h).1.advances (by simpa using hword)

theorem advances_of_assignmentSign? (h : start.assignmentSign? = some stop) :
    start.Advances stop :=
  (reads_of_assignmentSign? h).1.advances (by simp)

end Cursor

open ConfigScript.Cursor ConfigScript.Parser

variable {budget : Nat} {cursor after : Cursor}

theorem Spacing.precedes_of_skip {spacing : Spacing} (h : spacing.skip cursor = .ok after) :
    cursor.Precedes after := by
  obtain ⟨text, hreads, -⟩ := reads_of_skip h
  exact hreads.precedes

namespace Literal

variable {literal : Literal}

theorem advances_of_readString (h : readString cursor = .ok (some (literal, after))) :
    cursor.Advances after := by
  obtain ⟨text, hreads, -⟩ := readString_again h
  exact hreads.advances (by simp)

theorem advances_of_readNumber (h : readNumber cursor = .ok (some (literal, after))) :
    cursor.Advances after := by
  obtain ⟨c, text, hreads, -⟩ := readNumber_again h
  exact hreads.advances (by simp)

theorem advances_of_readBoolean (h : readBoolean cursor = some (literal, after)) :
    cursor.Advances after := by
  obtain ⟨value, hword, -⟩ := readBoolean_cases h
  exact advances_of_keyword? (by cases value <;> decide) hword

end Literal

namespace Parser

theorem advances_of_charAfter {spacing : Spacing} {c : Char}
    (h : charAfter spacing c cursor = .ok (some after)) : cursor.Advances after := by
  obtain ⟨next, hnext, hchar⟩ := Fallible.bind_eq_ok.mp h
  exact (Spacing.precedes_of_skip hnext).advances (advances_of_char? (Except.ok.inj hchar))

theorem precedes_of_statementEnd (h : statementEnd cursor = .ok after) :
    cursor.Precedes after := by
  obtain ⟨text, hreads, -⟩ := ending_of_statementEnd h
  exact hreads.precedes

/-- The readers of spacing end at their place or behind it, the readers of names, signs and literals
behind it. -/
structure WordsAdvance (cursor : Cursor) : Prop where
  spacing : ∀ {spacing : Spacing} {after}, spacing.skip cursor = .ok after → cursor.Precedes after
  ending : ∀ {after}, statementEnd cursor = .ok after → cursor.Precedes after
  mark : ∀ {spacing c after}, charAfter spacing c cursor = .ok (some after) →
    cursor.Advances after
  name : ∀ {name after}, cursor.name? = some (name, after) → cursor.Advances after
  keyword : ∀ {word after}, word ∈ keywords → cursor.keyword? word = some after →
    cursor.Advances after
  sign : ∀ {after}, cursor.assignmentSign? = some after → cursor.Advances after
  characters : ∀ {opening values after},
    Literal.readCharacters opening cursor.rest cursor.position = .ok (values, after) →
      cursor.Advances after
  string : ∀ {literal after}, Literal.readString cursor = .ok (some (literal, after)) →
    cursor.Advances after
  number : ∀ {literal after}, Literal.readNumber cursor = .ok (some (literal, after)) →
    cursor.Advances after
  boolean : ∀ {literal after}, Literal.readBoolean cursor = some (literal, after) →
    cursor.Advances after
  literal : ∀ {value after}, literalOrWord? cursor = .ok (some (value, after)) →
    cursor.Advances after

theorem words_advance (cursor : Cursor) : WordsAdvance cursor where
  spacing := Spacing.precedes_of_skip
  ending := precedes_of_statementEnd
  mark := advances_of_charAfter
  name := advances_of_name?
  keyword hword := by
    refine advances_of_keyword? ?_
    rintro rfl
    exact absurd hword (by decide)
  sign := advances_of_assignmentSign?
  characters h := by
    obtain ⟨text, htext, hreads, -⟩ := Literal.reads_of_readCharacters h
    exact hreads.advances htext
  string := Literal.advances_of_readString
  number := Literal.advances_of_readNumber
  boolean := Literal.advances_of_readBoolean
  literal h := by
    obtain ⟨text, hreads, hleading, -⟩ := literalOrWord?_again h
    exact hreads.advances hleading.ne_nil

/-- The readers of the descent end at their place or behind it. Those of an expression, an argument,
a block and a statement end behind it, and so do those of arguments where there are any. -/
structure DescentAdvances (budget : Nat) (cursor : Cursor) : Prop where
  expression : ∀ {value after}, expression budget cursor = .ok (some (value, after)) →
    cursor.Advances after
  chain : ∀ {start value result after}, chain budget start value cursor = .ok (result, after) →
    cursor.Precedes after
  primary : ∀ {value after}, primary budget cursor = .ok (some (value, after)) →
    cursor.Advances after
  suffix : ∀ {arguments after}, suffix budget cursor = .ok (arguments, after) →
    cursor.Precedes after ∧ (arguments ≠ none → cursor.Advances after)
  valueArguments : ∀ {values after}, valueArguments budget cursor = .ok (values, after) →
    cursor.Advances after
  moreArguments : ∀ {values after}, moreArguments budget cursor = .ok (values, after) →
    cursor.Precedes after ∧ (values ≠ [] → cursor.Advances after)
  argument : ∀ {value after}, argument budget cursor = .ok (some (value, after)) →
    cursor.Advances after
  lambda : ∀ {value after}, lambda budget cursor = .ok (some (value, after)) →
    cursor.Advances after
  blockBody : ∀ {statements after}, blockBody budget cursor = .ok (statements, after) →
    cursor.Advances after
  statement : ∀ {result after}, statement budget cursor = .ok (result, after) →
    cursor.Advances after

theorem advances_of_argument {value : Argument}
    (h : argument budget cursor = .ok (some (value, after))) : cursor.Advances after := by
  obtain ⟨text, hreads, hsolid, -⟩ := (relocates budget).argument h
  exact hreads.advances hsolid.ne_nil

theorem advances_of_lambda {value : Argument}
    (h : lambda budget cursor = .ok (some (value, after))) : cursor.Advances after := by
  obtain ⟨text, hreads, -⟩ := (relocates budget).lambda h
  exact hreads.advances (by simp)

theorem Closing.ne_nil {text : List Char} (h : Closing text) : text ≠ [] := by
  cases h <;> simp

/-- The closing parenthesis stands behind the arguments of a list. -/
theorem advances_of_valueArguments {values : List Argument}
    (h : valueArguments (budget + 1) cursor = .ok (values, after)) : cursor.Advances after := by
  obtain ⟨first, behind, separator, last, hfirst, hlisted, hseparator, hlast, hclosing⟩ :=
    valueArguments_cases h
  obtain ⟨text, hreads, hcloses⟩ := closing_of_char? hseparator hlast hclosing
  have hclosed := hreads.advances hcloses.ne_nil
  rcases hlisted with ⟨-, -, rfl⟩ | ⟨value, others, next, hvalue, hothers, -⟩
  · exact hclosed
  · obtain ⟨more, hmore, -⟩ := (relocates budget).moreArguments hothers
    exact (Spacing.precedes_of_skip hfirst).advances
      ((advances_of_argument hvalue).trans (hmore.precedes.trans hclosed.precedes))

theorem advances_of_suffix {values : List Argument}
    (h : suffix (budget + 1) cursor = .ok (some values, after)) : cursor.Advances after := by
  obtain ⟨opening, hopening, hcases⟩ := suffix_cases h
  have hopened := Spacing.precedes_of_skip hopening
  rcases hcases with ⟨inside, listed, behind, block, hparen, hvalues, hblock, hlast⟩ | ⟨-, hlast⟩
  · obtain ⟨list, hlist, -⟩ := (relocates budget).valueArguments hvalues
    have hbehind := (hopened.advances (advances_of_char? hparen)).trans hlist.precedes
    rcases hlast with ⟨-, -, rfl⟩ | ⟨last, hlambda, -⟩
    · exact hbehind
    · exact hbehind.trans
        ((Spacing.precedes_of_skip hblock).trans (advances_of_lambda hlambda).precedes)
  · rcases hlast with ⟨-, hnone, -⟩ | ⟨last, hlambda, -⟩
    · cases hnone
    · exact hopened.advances (advances_of_lambda hlambda)

theorem precedes_of_chain {value result : Expr}
    (h : chain budget start value cursor = .ok (result, after)) : cursor.Precedes after := by
  induction budget generalizing cursor value with
  | zero => simp [chain] at h
  | succ budget ih =>
    rcases chain_cases h with ⟨-, -, rfl⟩ |
      ⟨afterDot, word, name, afterName, arguments, behind, hdot, hword, hname, hsuffix, hrest⟩
    · exact .refl
    · obtain ⟨text, hreads, -⟩ := (relocates budget).suffix hsuffix
      have hnamed := (Spacing.precedes_of_skip hword).trans (advances_of_name? hname).precedes
      exact (advances_of_charAfter hdot).precedes.trans
        (hnamed.trans (hreads.precedes.trans (ih hrest)))

theorem descent_advances (budget : Nat) (cursor : Cursor) : DescentAdvances budget cursor where
  expression h := by
    obtain ⟨text, hreads, hleading, -⟩ := (relocates budget).expression h
    exact hreads.advances hleading.ne_nil
  chain := precedes_of_chain
  primary h := by
    obtain ⟨text, hreads, hleading, -⟩ := (relocates budget).primary h
    exact hreads.advances hleading.ne_nil
  suffix {arguments after} h := by
    obtain ⟨text, hreads, -⟩ := (relocates budget).suffix h
    refine ⟨hreads.precedes, fun hsome => ?_⟩
    obtain ⟨values, rfl⟩ := Option.ne_none_iff_exists'.mp hsome
    cases budget with
    | zero => simp [suffix] at h
    | succ budget => exact advances_of_suffix h
  valueArguments h := by
    cases budget with
    | zero => simp [valueArguments] at h
    | succ budget => exact advances_of_valueArguments h
  moreArguments h := by
    obtain ⟨text, hreads, -⟩ := (relocates budget).moreArguments h
    refine ⟨hreads.precedes, fun hsome => ?_⟩
    cases budget with
    | zero => simp [moreArguments] at h
    | succ budget =>
      rcases moreArguments_cases h with ⟨rfl, -⟩ |
        ⟨afterComma, first, value, others, behind, hcomma, hfirst, hvalue, hothers, -⟩
      · exact absurd rfl hsome
      · obtain ⟨more, hmore, -⟩ := (relocates budget).moreArguments hothers
        exact (advances_of_charAfter hcomma).trans ((Spacing.precedes_of_skip hfirst).trans
          ((advances_of_argument hvalue).precedes.trans hmore.precedes))
  argument := advances_of_argument
  lambda := advances_of_lambda
  blockBody h := by
    obtain ⟨c, text, hreads, -⟩ := (relocates budget).blockBody h
    exact hreads.advances (by simp)
  statement h := by
    obtain ⟨text, hreads, hfronts, -⟩ := (relocates budget).statement h
    exact hreads.advances hfronts.solid.ne_nil

/-- The readers of the statements of a script end behind their place, and the recovery from a broken
one leads behind it, to the boundary of a character. -/
structure ScriptAdvances (cursor : Cursor) : Prop where
  dottedNames : ∀ {budget names after}, dottedNames budget cursor = some (names, after) →
    cursor.Advances after
  importStatement : ∀ {result after}, importStatement cursor = .ok (some (result, after)) →
    cursor.Advances after
  topLevelStatement : ∀ {result after}, topLevelStatement cursor = .ok (result, after) →
    cursor.Advances after
  recover : cursor.rest ≠ [] → cursor.Advances (recover cursor)
  boundary : ∀ {source}, cursor.In source →
    String.Pos.Raw.IsValid source ⟨(Parser.recover cursor).position.offset⟩

theorem script_advances (cursor : Cursor) : ScriptAdvances cursor where
  dottedNames h := by
    obtain ⟨text, hreads, hsolid, -⟩ := dottedNames_again h
    exact hreads.advances hsolid.ne_nil
  importStatement h := by
    obtain ⟨text, hreads, hfronts, -⟩ := importStatement_again h
    exact hreads.advances hfronts.solid.ne_nil
  topLevelStatement := advances_of_topLevelStatement
  recover := advances_recover
  boundary hin := (hin.later (cursor.reads_drop _).precedes).isValid

end Parser

end ConfigScript
