import ConfigScript.Proofs.Syntax.Trees
import ConfigScript.Syntax.Script

/-!
# Parsing undoes rendering

A script is read statement by statement, each up to the end of its line. Every well-formed script
is read back from its source text without a failure, up to spans.
-/

namespace ConfigScript

open ConfigScript.Parser

variable {rest text : List Char} {position : Position}

theorem statementEnd_lineEnd (h : LineEnd rest) :
    ∃ stop, statementEnd ⟨rest, position⟩ = .ok ⟨rest.drop 1, stop⟩ := by
  cases h with
  | source => exact ⟨position, statementEnd_nil⟩
  | line h => exact ⟨_, statementEnd_feed⟩

/-- The text is read as the statement and its end, up to spans. -/
structure TopLevelReads (statement : Statement) (text : List Char) : Prop where
  opens : Opens text
  reads : ∀ (rest : List Char) (position : Position), LineEnd rest → ∃ found stop,
    topLevelStatement ⟨text ++ rest, position⟩ = .ok (found, ⟨rest.drop 1, stop⟩) ∧
    found.eraseSpans = statement.eraseSpans

/-- The budget of a reading exceeds what any text at its front needs. -/
theorem lt_budget (text rest : List Char) (position : Position) :
    8 * text.length + 1 < budget ⟨text ++ rest, position⟩ := by
  simp only [budget, List.length_append]
  omega

section Imports

variable {parts : List String}

/-- The names of an import are read up to the last one. -/
theorem dottedNames_intercalate {budget : Nat} (hnonempty : parts ≠ [])
    (hparts : ∀ part ∈ parts, isName part = true) (hrest : LineEnd rest)
    (hbudget : (['.'].intercalate (parts.map String.toList)).length < budget) :
    ∃ stop, dottedNames budget ⟨['.'].intercalate (parts.map String.toList) ++ rest, position⟩ =
      some (parts, ⟨rest, stop⟩) := by
  induction parts generalizing budget position with
  | nil => exact absurd rfl hnonempty
  | cons part parts ih =>
    have hpart := hparts part List.mem_cons_self
    obtain ⟨budget, rfl⟩ := Nat.exists_eq_add_of_le' (show 1 ≤ budget by omega)
    cases parts with
    | nil =>
      have hdot : ∀ position, (⟨rest, position⟩ : Cursor).char? '.' = none := by
        intro position
        cases hrest with
        | source => rfl
        | line h => exact Cursor.char?_ne (by decide)
      refine ⟨position.afterAll part.toList, ?_⟩
      simp [dottedNames, Cursor.name?_name hpart hrest.endsExpression.delimited, hdot]
    | cons second parts =>
      have htext : ['.'].intercalate ((part :: second :: parts).map String.toList) =
          part.toList ++ '.' :: ['.'].intercalate ((second :: parts).map String.toList) := by
        simp [List.intercalate_cons_cons]
      rw [htext, List.length_append, List.length_cons] at hbudget
      have hless : (['.'].intercalate ((second :: parts).map String.toList)).length < budget := by
        omega
      obtain ⟨stop, hread⟩ := @ih ((position.afterAll part.toList).after '.') budget (by simp)
        (fun other hmem => hparts other (List.mem_cons_of_mem _ hmem)) hless
      have hdot : Delimited
          ('.' :: (['.'].intercalate ((second :: parts).map String.toList) ++ rest)) :=
        delimited_cons.mpr (by decide)
      refine ⟨stop, ?_⟩
      rw [htext, List.append_assoc, List.cons_append, dottedNames, Cursor.name?_name hpart hdot]
      simp only [Cursor.char?_self, hread]

/-- The names of an import begin like an expression. -/
theorem opens_intercalate (hnonempty : parts ≠ [])
    (hparts : ∀ part ∈ parts, isName part = true) :
    Opens (['.'].intercalate (parts.map String.toList)) := by
  cases parts with
  | nil => exact absurd rfl hnonempty
  | cons part parts =>
    rw [List.map_cons, intercalate_cons]
    exact opens_append (opens_name (hparts part List.mem_cons_self))

theorem importStatement_intercalate (hnonempty : parts ≠ [])
    (hparts : ∀ part ∈ parts, isName part = true) (hrest : LineEnd rest) :
    ∃ span stop, importStatement
        ⟨"import".toList ++ ' ' :: (['.'].intercalate (parts.map String.toList) ++ rest),
          position⟩ = .ok (some (.importName parts span, ⟨rest, stop⟩)) := by
  have hopens := opens_intercalate hnonempty hparts
  generalize hnames : ['.'].intercalate (parts.map String.toList) = names at hopens
  have hword : Delimited (' ' :: (names ++ rest)) := delimited_cons.mpr (by decide)
  have hless : names.length < budget
      ⟨names ++ rest, (position.afterAll "import".toList).after ' '⟩ := by
    have henough := lt_budget names rest ((position.afterAll "import".toList).after ' ')
    omega
  obtain ⟨stop, hread⟩ := @dottedNames_intercalate rest
    ((position.afterAll "import".toList).after ' ') parts _ hnonempty hparts hrest
    (hnames ▸ hless)
  rw [hnames] at hread
  rw [importStatement, Cursor.keyword?_word (by decide) (by decide) hword, if_pos rfl]
  simp only [bind, Except.bind, skip_blank_opens hopens, hread, require]
  exact ⟨_, stop, rfl⟩

theorem topLevelReads_import {span : Span} (hnonempty : parts ≠ [])
    (hparts : ∀ part ∈ parts, isName part = true) :
    TopLevelReads (.importName parts span)
      ((Statement.importName parts span).renderAt 0).toList := by
  have htext : ((Statement.importName parts span).renderAt 0).toList =
      "import".toList ++ ' ' :: ['.'].intercalate (parts.map String.toList) := by
    simp [Statement.renderAt]
  rw [htext]
  refine ⟨⟨'i', _, rfl, by decide⟩, fun rest position hrest => ?_⟩
  obtain ⟨place, stop, hread⟩ :=
    @importStatement_intercalate rest position parts hnonempty hparts hrest
  obtain ⟨ended, hended⟩ := @statementEnd_lineEnd rest stop hrest
  refine ⟨.importName parts place, ended, ?_, rfl⟩
  rw [List.append_assoc, List.cons_append, topLevelStatement, hread]
  simp only [bind, Except.bind, pure, Except.pure, hended]

end Imports

theorem keyword?_statement {statement : Statement} (h : statement.WellFormed)
    (hrest : Delimited rest) :
    (⟨(statement.renderAt 0).toList ++ rest, position⟩ : Cursor).keyword? "import" = none := by
  cases statement with
  | importName => exact h.elim
  | assignment receiver name target value span =>
    have htarget : (Expr.property receiver name target).WellFormed := ⟨h.1, h.2.1⟩
    rw [toList_assignment, List.append_assoc]
    exact keyword?_expression htarget (delimited_cons.mpr (by decide)) (by decide)
  | localValue name value span =>
    have hword : Delimited (' ' :: (name.toList ++ ' ' :: '=' :: ' ' ::
        (value.renderAt 0).toList ++ rest)) := delimited_cons.mpr (by decide)
    rw [toList_localValue, List.append_assoc]
    exact (Cursor.keyword?_word (by decide) (by decide) hword).trans (if_neg (by decide))
  | expr value => exact keyword?_expression h hrest (by decide)

theorem topLevelReads_of_statementReads {statement : Statement}
    (h : StatementReads statement text)
    (hkeyword : ∀ rest position, Delimited rest →
      (⟨text ++ rest, position⟩ : Cursor).keyword? "import" = none) :
    TopLevelReads statement text := by
  refine ⟨h.opens, fun rest position hrest => ?_⟩
  obtain ⟨found, stop, hread, hfound⟩ := h.reads _ rest position hrest
    (lt_budget _ rest position)
  obtain ⟨ended, hended⟩ := @statementEnd_lineEnd rest stop hrest
  refine ⟨found, ended, ?_, hfound⟩
  rw [topLevelStatement, importStatement, hkeyword _ _ hrest.endsExpression.delimited]
  simp only [bind, Except.bind, hread, pure, Except.pure, hended]

theorem topLevelReads_statement {statement : Statement} (h : statement.WellFormed) :
    TopLevelReads statement (statement.renderAt 0).toList :=
  topLevelReads_of_statementReads (statementReads statement h 0)
    fun _ _ hrest => keyword?_statement h hrest

/-- The text of a script, a statement a line. -/
def scriptText (statements : List Statement) : List Char :=
  ['\n'].intercalate (statements.map fun statement => (statement.renderAt 0).toList)

theorem toList_render (block : Block) : block.render.toList = scriptText block.statements := by
  obtain ⟨statements, span⟩ := block
  have hlines : (statementLines 0 statements).map String.toList =
      statements.map fun statement => (statement.renderAt 0).toList := by
    induction statements with
    | nil => rfl
    | cons statement statements ih => simp [statementLines, ih, indentation]
  simp [Block.render, Block.linesAt, scriptText, Block.statements, hlines]

/-- The lines behind a statement, each with the line feed in front of it. -/
def laterLines (statements : List Statement) : List Char :=
  statements.flatMap fun statement => '\n' :: (statement.renderAt 0).toList

theorem scriptText_cons (statement : Statement) (statements : List Statement) :
    scriptText (statement :: statements) =
      (statement.renderAt 0).toList ++ laterLines statements := by
  simp [scriptText, laterLines, intercalate_cons, List.flatMap_map]

theorem drop_laterLines (statements : List Statement) :
    (laterLines statements).drop 1 = scriptText statements := by
  cases statements with
  | nil => rfl
  | cons statement statements => simp [scriptText_cons, laterLines]

theorem isImport_eraseSpans (statement : Statement) :
    statement.eraseSpans.isImport = statement.isImport := by
  cases statement with
  | importName => rfl
  | assignment receiver => cases receiver <;> rfl
  | localValue => rfl
  | expr => rfl

/-- The first statement of a well-formed script is read, and the others are a well-formed script;
behind a statement that is no import there are no imports. -/
theorem scriptWellFormed_cons {statement : Statement} {statements : List Statement}
    (h : scriptWellFormed (statement :: statements)) :
    TopLevelReads statement (statement.renderAt 0).toList ∧ scriptWellFormed statements ∧
      (statement.isImport = false → statementsWellFormed statements) := by
  by_cases himport : statement.isImport = true
  · cases statement with
    | importName parts span =>
      exact ⟨topLevelReads_import h.1 h.2.1, h.2.2, fun hnot => by simp [himport] at hnot⟩
    | assignment => cases himport
    | localValue => cases himport
    | expr => cases himport
  · have hstatements : statementsWellFormed (statement :: statements) := by
      cases statement with
      | importName => exact absurd rfl himport
      | assignment => exact h
      | localValue => exact h
      | expr => exact h
    exact ⟨topLevelReads_statement hstatements.1, scriptWellFormed_of_statements hstatements.2,
      fun _ => hstatements.2⟩

theorem lineEnd_laterLines {statements : List Statement} (h : scriptWellFormed statements) :
    LineEnd (laterLines statements) := by
  cases statements with
  | nil => exact .source
  | cons statement statements =>
    obtain ⟨c, cs, heq, hopens⟩ := (scriptWellFormed_cons h).1.opens
    have hline : laterLines (statement :: statements) =
        '\n' :: (List.replicate 0 ' ' ++ c :: (cs ++ laterLines statements)) := by
      simp [laterLines, heq]
    rw [hline]
    exact .line (.inl hopens)

/-- A statement without a failure is put in front of those behind it. -/
theorem statementsFrom_statement {budget : Nat} {started : Bool} {first : Statement}
    {others : List Statement} {after stop : Cursor} (hopens : Opens text)
    (hread : topLevelStatement ⟨text ++ rest, position⟩ = .ok (first, after))
    (hplace : (started && first.isImport) = false)
    (hothers : statementsFrom budget (started || !first.isImport) after = ⟨others, [], stop⟩) :
    statementsFrom (budget + 1) started ⟨text ++ rest, position⟩ =
      ⟨first :: others, [], stop⟩ := by
  rw [statementsFrom, skip_opens hopens]
  simp [isEmpty_opens hopens, hread, hothers, hplace]

/-- The statements of a well-formed script are read one after another, none of them a failure. -/
theorem statementsFrom_scriptText {statements : List Statement} {started : Bool} {budget : Nat}
    (h : scriptWellFormed statements)
    (hstarted : started = true → statementsWellFormed statements)
    (hbudget : (scriptText statements).length < budget) :
    ∃ found stop, statementsFrom budget started ⟨scriptText statements, position⟩ =
        ⟨found, [], stop⟩ ∧
      statementsEraseSpans found = statementsEraseSpans statements := by
  -- `started` is carried along: once it is set, the statements that remain are no imports.
  induction statements generalizing started budget position with
  | nil =>
    obtain ⟨budget, rfl⟩ := Nat.exists_eq_add_of_le' (show 1 ≤ budget by omega)
    refine ⟨[], ⟨[], position⟩, ?_, rfl⟩
    have htext : scriptText [] = [] := rfl
    rw [htext, statementsFrom, Spacing.skip_nil]
    rfl
  | cons statement statements ih =>
    obtain ⟨hfirst, hothers, hlater⟩ := scriptWellFormed_cons h
    have hlength := length_pos_of_opens hfirst.opens
    have hdropped := congrArg List.length (drop_laterLines statements)
    rw [List.length_drop] at hdropped
    rw [scriptText_cons, List.length_append] at hbudget
    obtain ⟨budget, rfl⟩ := Nat.exists_eq_add_of_le' (show 1 ≤ budget by omega)
    obtain ⟨first, middle, hread, hsame⟩ :=
      hfirst.reads (laterLines statements) position (lineEnd_laterLines hothers)
    rw [drop_laterLines] at hread
    have hkind : first.isImport = statement.isImport := by
      rw [← isImport_eraseSpans first, hsame, isImport_eraseSpans]
    have hplace : (started && first.isImport) = false := by
      cases hcase : started with
      | false => rfl
      | true => rw [hkind, not_import_of_wellFormed (hstarted hcase).1, Bool.and_false]
    have hnext : (started || !first.isImport) = true → statementsWellFormed statements := by
      intro hnext
      cases hcase : started with
      | false => exact hlater (by simpa [hcase, hkind] using hnext)
      | true => exact (hstarted hcase).2
    have hless : (scriptText statements).length < budget := by omega
    obtain ⟨others, stop, hlast, hrest⟩ := @ih middle (started || !first.isImport) budget hothers
      hnext hless
    rw [scriptText_cons]
    exact ⟨first :: others, stop, statementsFrom_statement hfirst.opens hread hplace hlast,
      by simp [statementsEraseSpans, hsame, hrest]⟩

/-- Parsing undoes rendering, up to spans. -/
theorem parse_render {block : Block} (h : block.WellFormed) (label : String) :
    ∃ parsed, Block.parse label block.render = .ok parsed ∧
      parsed.eraseSpans = block.eraseSpans := by
  have hbudget : (scriptText block.statements).length <
      (scriptText block.statements).length + 1 := by omega
  obtain ⟨found, stop, hread, hfound⟩ :=
    @statementsFrom_scriptText .origin block.statements false _ h (by simp) hbudget
  refine ⟨.mk found ((Cursor.ofSource block.render).spanTo stop), ?_, ?_⟩
  · simp [Block.parse, Cursor.ofSource, toList_render, hread]
  · cases block
    exact congrArg (Block.mk · .blank) hfound

/-- A script with an import, escapes, negative numbers of both widths, and lambdas inside each
other, in a receiver and in an argument. -/
def nestedScript : Block :=
  let here := Span.blank
  let block := fun statements => Argument.lambda (.mk statements here) here
  .mk [
    .importName ["build", "plugins"] here,
    .localValue "price" (.literal (.string "a\"\\ $b\n") here) here,
    .assignment (some (.call none "tasks" [block []] here)) "limit" here
      (.literal (.long (-5)) here) here,
    .expr (.call (some (.this here)) "configure" [
      .positional (.literal (.int (-7)) here) here,
      .named "action" (.call none "run" [block [.expr (.property none "price" here)]] here) here,
      block [.expr (.call none "nested" [block [.expr (.null here)]] here)]] here)] here

theorem parse_render_nested :
    nestedScript.WellFormed ∧ ∃ parsed, Block.parse "script" nestedScript.render = .ok parsed ∧
      parsed.eraseSpans = nestedScript.eraseSpans := by
  have hnames : ∀ name ∈ ["build", "plugins", "price", "tasks", "limit", "configure", "action",
      "run", "nested"], isName name = true := by decide
  have hwell : nestedScript.WellFormed := by
    simp only [List.forall_mem_cons] at hnames
    simp [Block.WellFormed, nestedScript, Block.statements, scriptWellFormed,
      statementsWellFormed, Statement.WellFormed, Expr.WellFormed, receiverWellFormed,
      argumentsWellFormed, hnames]
  exact ⟨hwell, parse_render hwell "script"⟩

end ConfigScript
