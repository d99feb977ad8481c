import ConfigScript.Proofs.Fallible
import ConfigScript.Syntax.Script

/-!
# Successful readings

For every reader of the descent, the ways in which it can succeed: which readers before it have
succeeded, where each of them began and ended, and how the result is put together.
-/

namespace ConfigScript.Parser

variable {budget : Nat} {cursor after : Cursor}

theorem require_eq_ok {α : Type} {cause : Failure.Cause} {result : Option (Reading α)}
    {reading : Reading α} : require cause cursor result = .ok reading ↔ result = some reading := by
  cases result <;> simp [require]

/-- A reading that had to be there was there. -/
theorem required_eq_ok {α β : Type} {step : Except Failure (Option (Reading α))}
    {cause : Failure.Cause} {next : Reading α → Except Failure β} {result : β}
    (h : (do let found ← step; let reading ← require cause cursor found; next reading) =
      .ok result) :
    ∃ value behind, step = .ok (some (value, behind)) ∧ next (value, behind) = .ok result := by
  obtain ⟨found, hfound, h⟩ := Fallible.bind_eq_ok.mp h
  obtain ⟨⟨value, behind⟩, hrequired, hnext⟩ := Fallible.bind_eq_ok.mp h
  exact ⟨value, behind, require_eq_ok.mp hrequired ▸ hfound, hnext⟩

theorem literalOrWord?_cases {value : Expr}
    (h : literalOrWord? cursor = .ok (some (value, after))) :
    (∃ literal, value = .literal literal (cursor.spanTo after) ∧
        (Literal.readString cursor = .ok (some (literal, after)) ∨
          Literal.readNumber cursor = .ok (some (literal, after)) ∨
            Literal.readBoolean cursor = some (literal, after))) ∨
      (cursor.keyword? "null" = some after ∧ value = .null (cursor.spanTo after)) ∨
        cursor.keyword? "this" = some after ∧ value = .this (cursor.spanTo after) := by
  obtain ⟨text, htext, h⟩ := Fallible.bind_eq_ok.mp h
  split at h
  · cases h
    exact .inl ⟨_, rfl, .inl htext⟩
  · obtain ⟨number, hnumber, h⟩ := Fallible.bind_eq_ok.mp h
    split at h
    · cases h
      exact .inl ⟨_, rfl, .inr (.inl hnumber)⟩
    · split at h
      · rename_i hboolean
        cases h
        exact .inl ⟨_, rfl, .inr (.inr hboolean)⟩
      · split at h
        · rename_i hnull
          cases h
          exact .inr (.inl ⟨hnull, rfl⟩)
        · split at h
          · rename_i hthis
            cases h
            exact .inr (.inr ⟨hthis, rfl⟩)
          · cases h

theorem expression_cases {value : Expr}
    (h : expression (budget + 1) cursor = .ok (some (value, after))) :
    ∃ first behind, primary budget cursor = .ok (some (first, behind)) ∧
      chain budget cursor first behind = .ok (value, after) := by
  rw [expression] at h
  obtain ⟨result, hresult, h⟩ := Fallible.bind_eq_ok.mp h
  split at h
  · cases h
  · obtain ⟨⟨value, after⟩, hchain, h⟩ := Fallible.bind_eq_ok.mp h
    cases h
    exact ⟨_, _, hresult, hchain⟩

theorem chain_cases {start : Cursor} {value result : Expr}
    (h : chain (budget + 1) start value cursor = .ok (result, after)) :
    (charAfter .multiline '.' cursor = .ok none ∧ result = value ∧ after = cursor) ∨
      ∃ afterDot word name afterName arguments behind,
        charAfter .multiline '.' cursor = .ok (some afterDot) ∧
        Spacing.multiline.skip afterDot = .ok word ∧ word.name? = some (name, afterName) ∧
        suffix budget afterName = .ok (arguments, behind) ∧
        chain budget start (member (some value) name (start.spanTo behind) arguments) behind =
          .ok (result, after) := by
  rw [chain] at h
  obtain ⟨dot, hdot, h⟩ := Fallible.bind_eq_ok.mp h
  split at h
  · cases h
    exact .inl ⟨hdot, rfl, rfl⟩
  · obtain ⟨word, hword, h⟩ := Fallible.bind_eq_ok.mp h
    split at h
    · cases h
    · rename_i hname
      obtain ⟨⟨arguments, behind⟩, hsuffix, h⟩ := Fallible.bind_eq_ok.mp h
      exact .inr ⟨_, word, _, _, arguments, behind, hdot, hword, hname, hsuffix, h⟩

theorem primary_cases {value : Expr}
    (h : primary (budget + 1) cursor = .ok (some (value, after))) :
    literalOrWord? cursor = .ok (some (value, after)) ∨
      (∃ inside start behind stop, cursor.char? '(' = some inside ∧
        Spacing.multiline.skip inside = .ok start ∧
        expression budget start = .ok (some (value, behind)) ∧
        Spacing.multiline.skip behind = .ok stop ∧ stop.char? ')' = some after) ∨
      ∃ name afterName arguments, cursor.name? = some (name, afterName) ∧
        suffix budget afterName = .ok (arguments, after) ∧
        value = member none name (cursor.spanTo after) arguments := by
  rw [primary] at h
  obtain ⟨word, hword, h⟩ := Fallible.bind_eq_ok.mp h
  split at h
  · cases h
    exact .inl hword
  · dsimp only at h
    split at h
    · rename_i hopening
      obtain ⟨start, hstart, h⟩ := Fallible.bind_eq_ok.mp h
      obtain ⟨value, behind, hfound, h⟩ := required_eq_ok h
      obtain ⟨stop, hstop, h⟩ := Fallible.bind_eq_ok.mp h
      split at h
      · rename_i hclosing
        cases h
        exact .inr (.inl ⟨_, start, behind, stop, hopening, hstart, hfound, hstop, hclosing⟩)
      · cases h
    · split at h
      · cases h
      · rename_i hname
        obtain ⟨⟨arguments, after⟩, hsuffix, h⟩ := Fallible.bind_eq_ok.mp h
        cases h
        exact .inr (.inr ⟨_, _, arguments, hname, hsuffix, rfl⟩)

theorem suffix_cases {result : Option (List Argument)}
    (h : suffix (budget + 1) cursor = .ok (result, after)) :
    ∃ opening, Spacing.inline.skip cursor = .ok opening ∧
      ((∃ inside values behind block, opening.char? '(' = some inside ∧
          valueArguments budget inside = .ok (values, behind) ∧
          Spacing.inline.skip behind = .ok block ∧
          (lambda budget block = .ok none ∧ result = some values ∧ after = behind ∨
            ∃ last, lambda budget block = .ok (some (last, after)) ∧
              result = some (values ++ [last]))) ∨
        opening.char? '(' = none ∧
          (lambda budget opening = .ok none ∧ result = none ∧ after = cursor ∨
            ∃ last, lambda budget opening = .ok (some (last, after)) ∧ result = some [last])) := by
  rw [suffix] at h
  obtain ⟨opening, hopening, h⟩ := Fallible.bind_eq_ok.mp h
  refine ⟨opening, hopening, ?_⟩
  split at h
  · rename_i hinside
    obtain ⟨⟨values, behind⟩, hvalues, h⟩ := Fallible.bind_eq_ok.mp h
    obtain ⟨block, hblock, h⟩ := Fallible.bind_eq_ok.mp h
    obtain ⟨found, hfound, h⟩ := Fallible.bind_eq_ok.mp h
    refine .inl ⟨_, values, behind, block, hinside, hvalues, hblock, ?_⟩
    split at h
    · cases h
      exact .inr ⟨_, hfound, rfl⟩
    · cases h
      exact .inl ⟨hfound, rfl, rfl⟩
  · rename_i hinside
    obtain ⟨found, hfound, h⟩ := Fallible.bind_eq_ok.mp h
    refine .inr ⟨hinside, ?_⟩
    split at h
    · cases h
      exact .inr ⟨_, hfound, rfl⟩
    · cases h
      exact .inl ⟨hfound, rfl, rfl⟩

/-- The end of an argument list, behind an optional comma. -/
theorem closeArguments_cases {values listed : List Argument}
    (h : (do
      let after := (← charAfter .multiline ',' cursor).getD cursor
      let after ← Spacing.multiline.skip after
      match after.char? ')' with
      | some after => return (listed, after)
      | none => throw (Failure.ofCursor .unclosedArguments after)) = .ok (values, after)) :
    values = listed ∧ ∃ separator stop, charAfter .multiline ',' cursor = .ok separator ∧
      Spacing.multiline.skip (separator.getD cursor) = .ok stop ∧ stop.char? ')' = some after := by
  obtain ⟨separator, hseparator, h⟩ := Fallible.bind_eq_ok.mp h
  obtain ⟨stop, hstop, h⟩ := Fallible.bind_eq_ok.mp h
  split at h
  · rename_i hclosing
    cases h
    exact ⟨rfl, separator, stop, hseparator, hstop, hclosing⟩
  · cases h

theorem valueArguments_cases {values : List Argument}
    (h : valueArguments (budget + 1) cursor = .ok (values, after)) :
    ∃ start behind separator stop, Spacing.multiline.skip cursor = .ok start ∧
      (argument budget start = .ok none ∧ values = [] ∧ behind = cursor ∨
        ∃ first others next, argument budget start = .ok (some (first, next)) ∧
          moreArguments budget next = .ok (others, behind) ∧ values = first :: others) ∧
      charAfter .multiline ',' behind = .ok separator ∧
      Spacing.multiline.skip (separator.getD behind) = .ok stop ∧ stop.char? ')' = some after := by
  rw [valueArguments] at h
  obtain ⟨start, hstart, h⟩ := Fallible.bind_eq_ok.mp h
  obtain ⟨found, hfound, h⟩ := Fallible.bind_eq_ok.mp h
  split at h
  · obtain ⟨rfl, separator, stop, hclosing⟩ := closeArguments_cases h
    exact ⟨start, cursor, separator, stop, hstart, .inl ⟨hfound, rfl, rfl⟩, hclosing⟩
  · obtain ⟨⟨others, behind⟩, hothers, h⟩ := Fallible.bind_eq_ok.mp h
    obtain ⟨rfl, separator, stop, hclosing⟩ := closeArguments_cases h
    exact ⟨start, behind, separator, stop, hstart,
      .inr ⟨_, others, _, hfound, hothers, rfl⟩, hclosing⟩

theorem moreArguments_cases {values : List Argument}
    (h : moreArguments (budget + 1) cursor = .ok (values, after)) :
    (values = [] ∧ after = cursor) ∨
      ∃ afterComma start first others behind,
        charAfter .multiline ',' cursor = .ok (some afterComma) ∧
        Spacing.multiline.skip afterComma = .ok start ∧
        argument budget start = .ok (some (first, behind)) ∧
        moreArguments budget behind = .ok (others, after) ∧ values = first :: others := by
  rw [moreArguments] at h
  obtain ⟨comma, hcomma, h⟩ := Fallible.bind_eq_ok.mp h
  split at h
  · cases h
    exact .inl ⟨rfl, rfl⟩
  · obtain ⟨start, hstart, h⟩ := Fallible.bind_eq_ok.mp h
    obtain ⟨found, hfound, h⟩ := Fallible.bind_eq_ok.mp h
    split at h
    · cases h
      exact .inl ⟨rfl, rfl⟩
    · obtain ⟨⟨others, after⟩, hothers, h⟩ := Fallible.bind_eq_ok.mp h
      cases h
      exact .inr ⟨_, start, _, others, _, hcomma, hstart, hfound, hothers, rfl⟩

theorem argument_cases {result : Argument}
    (h : argument (budget + 1) cursor = .ok (some (result, after))) :
    (∃ name afterName sign afterSign inside value, cursor.name? = some (name, afterName) ∧
        Spacing.multiline.skip afterName = .ok sign ∧ sign.assignmentSign? = some afterSign ∧
        Spacing.multiline.skip afterSign = .ok inside ∧
        expression budget inside = .ok (some (value, after)) ∧
        result = .named name value (cursor.spanTo after)) ∨
      ∃ value, expression budget cursor = .ok (some (value, after)) ∧
        result = .positional value (cursor.spanTo after) := by
  rw [argument] at h
  split at h
  · rename_i hname
    obtain ⟨sign, hsign, h⟩ := Fallible.bind_eq_ok.mp h
    split at h
    · rename_i hafterSign
      obtain ⟨inside, hinside, h⟩ := Fallible.bind_eq_ok.mp h
      obtain ⟨value, behind, hvalue, h⟩ := required_eq_ok h
      cases h
      exact .inl ⟨_, _, sign, _, inside, value, hname, hsign, hafterSign, hinside, hvalue, rfl⟩
    · obtain ⟨found, hfound, h⟩ := Fallible.bind_eq_ok.mp h
      split at h
      · cases h
      · cases h
        exact .inr ⟨_, hfound, rfl⟩
  · obtain ⟨found, hfound, h⟩ := Fallible.bind_eq_ok.mp h
    split at h
    · cases h
    · cases h
      exact .inr ⟨_, hfound, rfl⟩

theorem lambda_cases {result : Argument}
    (h : lambda (budget + 1) cursor = .ok (some (result, after))) :
    ∃ inside start statements, cursor.char? '\x7b' = some inside ∧
      Spacing.separators.skip inside = .ok start ∧
      blockBody budget start = .ok (statements, after) ∧
      result = .lambda (.mk statements (cursor.spanTo after)) (cursor.spanTo after) := by
  rw [lambda] at h
  split at h
  · cases h
  · rename_i hinside
    obtain ⟨start, hstart, h⟩ := Fallible.bind_eq_ok.mp h
    obtain ⟨⟨statements, after⟩, hbody, h⟩ := Fallible.bind_eq_ok.mp h
    cases h
    exact ⟨_, start, statements, hinside, hstart, hbody, rfl⟩

theorem blockBody_cases {statements : List Statement}
    (h : blockBody (budget + 1) cursor = .ok (statements, after)) :
    (cursor.char? '\x7d' = some after ∧ statements = []) ∨
      ∃ first others behind ended next, cursor.char? '\x7d' = none ∧
        statement budget cursor = .ok (first, behind) ∧ statementEnd behind = .ok ended ∧
        Spacing.separators.skip ended = .ok next ∧
        blockBody budget next = .ok (others, after) ∧ statements = first :: others := by
  rw [blockBody] at h
  split at h
  · rename_i hclosing
    cases h
    exact .inl ⟨hclosing, rfl⟩
  · rename_i hopen
    dsimp only at h
    split at h
    · cases h
    · obtain ⟨⟨first, behind⟩, hfirst, h⟩ := Fallible.bind_eq_ok.mp h
      obtain ⟨ended, hended, h⟩ := Fallible.bind_eq_ok.mp h
      obtain ⟨next, hnext, h⟩ := Fallible.bind_eq_ok.mp h
      obtain ⟨⟨others, after⟩, hothers, h⟩ := Fallible.bind_eq_ok.mp h
      cases h
      exact .inr ⟨first, others, behind, ended, next,
        Option.eq_none_iff_forall_ne_some.mpr hopen, hfirst, hended, hnext, hothers, rfl⟩

theorem statement_cases {result : Statement}
    (h : statement (budget + 1) cursor = .ok (result, after)) :
    (∃ afterWord start name afterName sign afterSign inside value,
        cursor.keyword? "val" = some afterWord ∧ Spacing.inline.skip afterWord = .ok start ∧
        start.name? = some (name, afterName) ∧ Spacing.inline.skip afterName = .ok sign ∧
        sign.char? '=' = some afterSign ∧ Spacing.multiline.skip afterSign = .ok inside ∧
        expression budget inside = .ok (some (value, after)) ∧
        result = .localValue name value (cursor.spanTo after)) ∨
      ∃ target behind sign, cursor.keyword? "val" = none ∧ cursor.keyword? "var" = none ∧
        expression budget cursor = .ok (some (target, behind)) ∧
        Spacing.inline.skip behind = .ok sign ∧
        (sign.assignmentSign? = none ∧ result = .expr target ∧ after = behind ∨
          ∃ receiver name span afterSign inside value,
            target = .property receiver name span ∧ sign.assignmentSign? = some afterSign ∧
            Spacing.multiline.skip afterSign = .ok inside ∧
            expression budget inside = .ok (some (value, after)) ∧
            result = .assignment receiver name span value (cursor.spanTo after)) := by
  rw [statement] at h
  split at h
  · rename_i hword
    obtain ⟨start, hstart, h⟩ := Fallible.bind_eq_ok.mp h
    split at h
    · cases h
    · rename_i hname
      obtain ⟨sign, hsign, h⟩ := Fallible.bind_eq_ok.mp h
      split at h
      · cases h
      · rename_i hafterSign
        obtain ⟨inside, hinside, h⟩ := Fallible.bind_eq_ok.mp h
        obtain ⟨value, behind, hvalue, h⟩ := required_eq_ok h
        cases h
        exact .inl ⟨_, start, _, _, sign, _, inside, value, hword, hstart, hname, hsign,
          hafterSign, hinside, hvalue, rfl⟩
  · rename_i hword
    dsimp only at h
    split at h
    · cases h
    · rename_i hvariable
      obtain ⟨target, behind, htarget, h⟩ := required_eq_ok h
      obtain ⟨sign, hsign, h⟩ := Fallible.bind_eq_ok.mp h
      refine .inr ⟨target, behind, sign, Option.eq_none_iff_forall_ne_some.mpr hword,
        by simpa using hvariable, htarget, hsign, ?_⟩
      split at h
      · rename_i hnone
        cases h
        exact .inl ⟨hnone, rfl, rfl⟩
      · rename_i hafterSign
        cases target with
        | property receiver name span =>
          obtain ⟨inside, hinside, h⟩ := Fallible.bind_eq_ok.mp h
          obtain ⟨value, behind, hvalue, h⟩ := required_eq_ok h
          cases h
          exact .inr ⟨_, _, _, _, inside, value, rfl, hafterSign, hinside, hvalue, rfl⟩
        | _ => cases h

theorem importStatement_cases {result : Statement}
    (h : importStatement cursor = .ok (some (result, after))) :
    ∃ afterWord start parts, cursor.keyword? "import" = some afterWord ∧
      Spacing.inline.skip afterWord = .ok start ∧
      dottedNames (Parser.budget start) start = some (parts, after) ∧
      result = .importName parts (cursor.spanTo after) := by
  unfold importStatement at h
  split at h
  · cases h
  · rename_i hword
    obtain ⟨start, hstart, h⟩ := Fallible.bind_eq_ok.mp h
    obtain ⟨⟨parts, behind⟩, hparts, h⟩ := Fallible.bind_eq_ok.mp h
    cases h
    exact ⟨_, start, parts, hword, hstart, require_eq_ok.mp hparts, rfl⟩

theorem topLevelStatement_cases {result : Statement}
    (h : topLevelStatement cursor = .ok (result, after)) :
    ∃ behind, (importStatement cursor = .ok (some (result, behind)) ∨
        importStatement cursor = .ok none ∧
          statement (Parser.budget cursor) cursor = .ok (result, behind)) ∧
      statementEnd behind = .ok after := by
  obtain ⟨found, hfound, h⟩ := Fallible.bind_eq_ok.mp h
  split at h
  · obtain ⟨⟨read, behind⟩, hread, h⟩ := Fallible.bind_eq_ok.mp h
    obtain ⟨ended, hended, hresult⟩ := Fallible.bind_eq_ok.mp h
    cases hread
    cases hresult
    exact ⟨behind, .inl hfound, hended⟩
  · obtain ⟨⟨result, behind⟩, hread, h⟩ := Fallible.bind_eq_ok.mp h
    obtain ⟨ended, hended, h⟩ := Fallible.bind_eq_ok.mp h
    cases h
    exact ⟨behind, .inr ⟨hfound, hread⟩, hended⟩

/-- A script without failures is at its end, or begins with a statement that is no misplaced
import. -/
theorem statementsFrom_cases {started : Bool}
    (h : (statementsFrom (budget + 1) started cursor).failures = []) :
    ∃ start, Spacing.separators.skip cursor = .ok start ∧
      (start.rest = [] ∧ statementsFrom (budget + 1) started cursor = ⟨[], [], start⟩ ∨
        ∃ first after, start.rest ≠ [] ∧ topLevelStatement start = .ok (first, after) ∧
          (started = true → first.isImport = false) ∧
          (statementsFrom budget (started || !first.isImport) after).failures = [] ∧
          statementsFrom (budget + 1) started cursor =
            ⟨first :: (statementsFrom budget (started || !first.isImport) after).statements, [],
              (statementsFrom budget (started || !first.isImport) after).stop⟩) := by
  rw [statementsFrom] at h ⊢
  split at h
  · cases h
  · rename_i start hstart
    refine ⟨start, hstart, ?_⟩
    split at h
    · rename_i hend
      exact .inl ⟨List.isEmpty_iff.mp hend, by simp [hend]⟩
    · rename_i hmore
      split at h
      · cases h
      · rename_i first after hfirst
        obtain ⟨hmisplaced, hlater⟩ := List.append_eq_nil_iff.mp h
        have hplaced : (started && first.isImport) = false := by
          simpa using hmisplaced
        refine .inr ⟨first, after, fun hnil => hmore (by simp [hnil]), hfirst, ?_, hlater, ?_⟩
        · rintro rfl
          simpa using hplaced
        · simp [hmore, hplaced, hlater]

end ConfigScript.Parser
