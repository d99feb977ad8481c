import ConfigScript.Proofs.Syntax.Inversion
import ConfigScript.Proofs.Syntax.WellFormed
import ConfigScript.Syntax.Script

/-!
# The shape of parsed trees

Whatever the readers yield is well formed. One level of the descent keeps this, given that the
level below does; so it holds for every budget.
-/

namespace ConfigScript

theorem Cursor.isName_of_name? {cursor after : Cursor} {name : String}
    (h : cursor.name? = some (name, after)) : isName name = true := by
  unfold name? at h
  split at h
  · rename_i hstart
    dsimp only at h
    split at h
    · cases h
    · rename_i hkeyword
      obtain ⟨rfl, -⟩ := Prod.mk.inj (Option.some.inj h)
      have hword : isIdentifier (cursor.takeWhile continuesIdentifier).1 = true := by
        obtain ⟨rest, position⟩ := cursor
        cases rest with
        | nil => cases hstart
        | cons c cs =>
          have hcontinues := continuesIdentifier_of_starts hstart
          simp only [takeWhile, List.takeWhile_cons, hcontinues, if_true, isIdentifier,
            Bool.and_eq_true]
          exact ⟨hstart, List.all_takeWhile⟩
      simpa [isName, hword] using hkeyword
  · cases h

theorem argumentsWellFormed_append {values others : List Argument}
    (hvalues : argumentsWellFormed values)
    (hplain : ∀ argument ∈ values, argument.isLambda = false)
    (hothers : argumentsWellFormed others) : argumentsWellFormed (values ++ others) := by
  induction values with
  | nil => exact hothers
  | cons argument values ih =>
    have hrest := fun hwell => ih hwell fun other hother =>
      hplain other (List.mem_cons_of_mem _ hother)
    cases argument with
    | positional value span => exact ⟨hvalues.1, hrest hvalues.2⟩
    | named name value span => exact ⟨hvalues.1, hvalues.2.1, hrest hvalues.2.2⟩
    | lambda body span => cases hplain _ List.mem_cons_self

namespace Parser

theorem member_wellFormed {receiver : Option Expr} {name : String} {span : Span}
    {arguments : Option (List Argument)} (hreceiver : receiverWellFormed receiver)
    (hname : isName name = true) (harguments : ∀ list ∈ arguments, argumentsWellFormed list) :
    (member receiver name span arguments).WellFormed := by
  cases arguments with
  | none => exact ⟨hreceiver, hname⟩
  | some list => exact ⟨hreceiver, hname, harguments list rfl⟩

/-- All that the readers yield within a budget is well formed. -/
structure Shaped (budget : Nat) : Prop where
  expression : ∀ {cursor after value}, expression budget cursor = .ok (some (value, after)) →
    value.WellFormed
  chain : ∀ {start cursor after value result}, chain budget start value cursor =
    .ok (result, after) → value.WellFormed → result.WellFormed
  primary : ∀ {cursor after value}, primary budget cursor = .ok (some (value, after)) →
    value.WellFormed
  suffix : ∀ {cursor after arguments}, suffix budget cursor = .ok (arguments, after) →
    ∀ list ∈ arguments, argumentsWellFormed list
  valueArguments : ∀ {cursor after values}, valueArguments budget cursor = .ok (values, after) →
    argumentsWellFormed values ∧ ∀ argument ∈ values, argument.isLambda = false
  moreArguments : ∀ {cursor after values}, moreArguments budget cursor = .ok (values, after) →
    argumentsWellFormed values ∧ ∀ argument ∈ values, argument.isLambda = false
  argument : ∀ {cursor after value}, argument budget cursor = .ok (some (value, after)) →
    argumentsWellFormed [value] ∧ value.isLambda = false
  lambda : ∀ {cursor after last}, lambda budget cursor = .ok (some (last, after)) →
    argumentsWellFormed [last]
  blockBody : ∀ {cursor after statements}, blockBody budget cursor = .ok (statements, after) →
    statementsWellFormed statements
  statement : ∀ {cursor after result}, statement budget cursor = .ok (result, after) →
    result.WellFormed

theorem zero_shaped : Shaped 0 where
  expression h := by simp [Parser.expression] at h
  chain h := by simp [Parser.chain] at h
  primary h := by simp [Parser.primary] at h
  suffix h := by simp [Parser.suffix] at h
  valueArguments h := by simp [Parser.valueArguments] at h
  moreArguments h := by simp [Parser.moreArguments] at h
  argument h := by simp [Parser.argument] at h
  lambda h := by simp [Parser.lambda] at h
  blockBody h := by simp [Parser.blockBody] at h
  statement h := by simp [Parser.statement] at h

variable {budget : Nat}

theorem wellFormed_of_literalOrWord? {cursor after : Cursor} {value : Expr}
    (h : literalOrWord? cursor = .ok (some (value, after))) : value.WellFormed := by
  rcases literalOrWord?_cases h with ⟨literal, rfl, -⟩ | ⟨-, rfl⟩ | ⟨-, rfl⟩
  all_goals exact trivial

theorem chain_shaped (h : Shaped budget) {start cursor after : Cursor} {value result : Expr}
    (hchain : chain (budget + 1) start value cursor = .ok (result, after))
    (hvalue : value.WellFormed) : result.WellFormed := by
  rcases chain_cases hchain with ⟨-, rfl, -⟩ |
    ⟨afterDot, word, name, afterName, arguments, behind, -, -, hname, hsuffix, hrest⟩
  · exact hvalue
  · exact h.chain hrest (member_wellFormed hvalue (Cursor.isName_of_name? hname)
      (h.suffix hsuffix))

theorem primary_shaped (h : Shaped budget) {cursor after : Cursor} {value : Expr}
    (hprimary : primary (budget + 1) cursor = .ok (some (value, after))) : value.WellFormed := by
  rcases primary_cases hprimary with hword | ⟨inside, start, behind, stop, -, -, hvalue, -⟩ |
    ⟨name, afterName, arguments, hname, hsuffix, rfl⟩
  · exact wellFormed_of_literalOrWord? hword
  · exact h.expression hvalue
  · exact member_wellFormed trivial (Cursor.isName_of_name? hname) (h.suffix hsuffix)

theorem suffix_shaped (h : Shaped budget) {cursor after : Cursor}
    {result : Option (List Argument)} (hsuffix : suffix (budget + 1) cursor = .ok (result, after)) :
    ∀ list ∈ result, argumentsWellFormed list := by
  obtain ⟨opening, -, hcases⟩ := suffix_cases hsuffix
  rcases hcases with ⟨inside, values, behind, block, -, hvalues, -, hlast⟩ | ⟨-, hlast⟩
  · obtain ⟨hwell, hplain⟩ := h.valueArguments hvalues
    rcases hlast with ⟨-, rfl, -⟩ | ⟨last, hlambda, rfl⟩
    · rintro _ ⟨⟩
      exact hwell
    · rintro _ ⟨⟩
      exact argumentsWellFormed_append hwell hplain (h.lambda hlambda)
  · rcases hlast with ⟨-, rfl, -⟩ | ⟨last, hlambda, rfl⟩
    · simp
    · rintro _ ⟨⟩
      exact h.lambda hlambda

theorem cons_shaped (h : Shaped budget) {cursor next : Cursor} {first : Argument}
    {others : List Argument} (hfirst : argument budget cursor = .ok (some (first, next)))
    (hothers : argumentsWellFormed others ∧ ∀ argument ∈ others, argument.isLambda = false) :
    argumentsWellFormed (first :: others) ∧
      ∀ argument ∈ first :: others, argument.isLambda = false := by
  obtain ⟨hwell, hplain⟩ := h.argument hfirst
  exact ⟨argumentsWellFormed_append hwell (by simpa using hplain) hothers.1,
    List.forall_mem_cons.mpr ⟨hplain, hothers.2⟩⟩

theorem valueArguments_shaped (h : Shaped budget) {cursor after : Cursor}
    {values : List Argument} (hvalues : valueArguments (budget + 1) cursor = .ok (values, after)) :
    argumentsWellFormed values ∧ ∀ argument ∈ values, argument.isLambda = false := by
  obtain ⟨start, behind, separator, stop, -, hlisted, -⟩ := valueArguments_cases hvalues
  rcases hlisted with ⟨-, rfl, -⟩ | ⟨first, others, next, hfirst, hothers, rfl⟩
  · exact ⟨trivial, by simp⟩
  · exact cons_shaped h hfirst (h.moreArguments hothers)

theorem moreArguments_shaped (h : Shaped budget) {cursor after : Cursor}
    {values : List Argument} (hvalues : moreArguments (budget + 1) cursor = .ok (values, after)) :
    argumentsWellFormed values ∧ ∀ argument ∈ values, argument.isLambda = false := by
  rcases moreArguments_cases hvalues with ⟨rfl, -⟩ |
    ⟨afterComma, start, first, others, behind, -, -, hfirst, hothers, rfl⟩
  · exact ⟨trivial, by simp⟩
  · exact cons_shaped h hfirst (h.moreArguments hothers)

theorem argument_shaped (h : Shaped budget) {cursor after : Cursor} {value : Argument}
    (hargument : argument (budget + 1) cursor = .ok (some (value, after))) :
    argumentsWellFormed [value] ∧ value.isLambda = false := by
  rcases argument_cases hargument with
    ⟨name, afterName, sign, afterSign, inside, value, hname, -, -, -, hvalue, rfl⟩ |
    ⟨value, hvalue, rfl⟩
  · exact ⟨⟨Cursor.isName_of_name? hname, h.expression hvalue, trivial⟩, rfl⟩
  · exact ⟨⟨h.expression hvalue, trivial⟩, rfl⟩

theorem blockBody_shaped (h : Shaped budget) {cursor after : Cursor}
    {statements : List Statement}
    (hbody : blockBody (budget + 1) cursor = .ok (statements, after)) :
    statementsWellFormed statements := by
  rcases blockBody_cases hbody with ⟨-, rfl⟩ |
    ⟨first, others, behind, ended, next, -, hfirst, -, -, hothers, rfl⟩
  · exact trivial
  · exact ⟨h.statement hfirst, h.blockBody hothers⟩

theorem statement_shaped (h : Shaped budget) {cursor after : Cursor} {result : Statement}
    (hstatement : statement (budget + 1) cursor = .ok (result, after)) : result.WellFormed := by
  rcases statement_cases hstatement with
    ⟨afterWord, start, name, afterName, sign, afterSign, inside, value, -, -, hname, -, -, -,
      hvalue, rfl⟩ | ⟨target, behind, sign, -, -, htarget, -, hresult⟩
  · exact ⟨Cursor.isName_of_name? hname, h.expression hvalue⟩
  · rcases hresult with ⟨-, rfl, -⟩ |
      ⟨receiver, name, span, afterSign, inside, value, rfl, -, -, hvalue, rfl⟩
    · exact h.expression htarget
    · obtain ⟨hreceiver, hname⟩ := h.expression htarget
      exact ⟨hreceiver, hname, h.expression hvalue⟩

theorem succ_shaped (h : Shaped budget) : Shaped (budget + 1) where
  expression hexpression :=
    have ⟨_, _, hfirst, hchain⟩ := expression_cases hexpression
    h.chain hchain (h.primary hfirst)
  chain := chain_shaped h
  primary := primary_shaped h
  suffix := suffix_shaped h
  valueArguments := valueArguments_shaped h
  moreArguments := moreArguments_shaped h
  argument := argument_shaped h
  lambda hlambda := by
    obtain ⟨inside, start, statements, -, -, hbody, rfl⟩ := lambda_cases hlambda
    exact ⟨h.blockBody hbody, rfl⟩
  blockBody := blockBody_shaped h
  statement := statement_shaped h

theorem shaped (budget : Nat) : Shaped budget := by
  induction budget with
  | zero => exact zero_shaped
  | succ budget ih => exact succ_shaped ih

theorem isName_of_dottedNames {budget : Nat} {cursor after : Cursor} {names : List String}
    (h : dottedNames budget cursor = some (names, after)) :
    names ≠ [] ∧ ∀ name ∈ names, isName name = true := by
  induction budget generalizing cursor names after with
  | zero => cases h
  | succ budget ih =>
    rw [dottedNames] at h
    split at h
    · cases h
    · rename_i hname
      have hfirst := Cursor.isName_of_name? hname
      split at h
      · cases h
        exact ⟨by simp, by simpa using hfirst⟩
      · split at h
        · cases h
          exact ⟨by simp, by simpa using hfirst⟩
        · rename_i hrest
          cases h
          exact ⟨by simp, List.forall_mem_cons.mpr ⟨hfirst, (ih hrest).2⟩⟩

theorem topLevelStatement_shaped {cursor after : Cursor} {result : Statement}
    (h : topLevelStatement cursor = .ok (result, after)) :
    (∃ parts span, result = .importName parts span ∧ parts ≠ [] ∧
        ∀ part ∈ parts, isName part = true) ∨ result.WellFormed := by
  obtain ⟨behind, hread | ⟨-, hread⟩, -⟩ := topLevelStatement_cases h
  · obtain ⟨afterWord, start, parts, -, -, hparts, rfl⟩ := importStatement_cases hread
    exact .inl ⟨parts, _, rfl, isName_of_dottedNames hparts⟩
  · exact .inr ((shaped _).statement hread)

/-- Without failures, no import stands behind another statement. -/
theorem statementsFrom_shaped {budget : Nat} {started : Bool} {cursor : Cursor}
    (h : (statementsFrom budget started cursor).failures = []) :
    (started = true → statementsWellFormed (statementsFrom budget started cursor).statements) ∧
      scriptWellFormed (statementsFrom budget started cursor).statements := by
  induction budget generalizing started cursor with
  | zero => cases h
  | succ budget ih =>
    obtain ⟨start, -, hread⟩ := statementsFrom_cases h
    rcases hread with ⟨-, hnil⟩ | ⟨first, after, -, hfirst, hplaced, hlater, hcons⟩
    · rw [hnil]
      exact ⟨fun _ => trivial, trivial⟩
    · rw [hcons]
      obtain ⟨hrest, hscript⟩ := ih hlater
      rcases topLevelStatement_shaped hfirst with ⟨parts, span, rfl, hparts⟩ | hwell
      · refine ⟨fun hstarted => ?_, hparts.1, hparts.2, hscript⟩
        cases hplaced hstarted
      · have hnot := not_import_of_wellFormed hwell
        have hall : statementsWellFormed (first ::
            (statementsFrom budget (started || !first.isImport) after).statements) :=
          ⟨hwell, hrest (by simp [hnot])⟩
        exact ⟨fun _ => hall, scriptWellFormed_of_statements hall⟩

end Parser

/-- Every parsed script is well formed. -/
theorem Block.wellFormed_of_parse {label source : String} {block : Block}
    (h : Block.parse label source = .ok block) : block.WellFormed := by
  unfold Block.parse at h
  dsimp only at h
  split at h
  · rename_i hfailures
    obtain rfl := Except.ok.inj h
    exact (Parser.statementsFrom_shaped (List.isEmpty_iff.mp hfailures)).2
  · cases h

end ConfigScript
