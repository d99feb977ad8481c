import ConfigScript.Proofs.Syntax.RoundTrip

/-!
# Lines wrapped in a block

The lines of a script make the body of a block when they stand between a line that opens it and a
line that closes it, with whatever margin. The script is then read as one call, whose lambda has the
statements of the lines.
-/

namespace ConfigScript

open ConfigScript.Parser

variable {rest : List Char} {margin : Nat} {statements : List Statement}

/-- Lines each behind a margin, as far as the brace that closes their block. -/
def closedLines (margin : Nat) : List Statement → List Char
  | [] => ['\x7d']
  | statement :: statements =>
    List.replicate margin ' ' ++ (statement.render.toList ++ '\n' :: closedLines margin statements)

/-- The lines of a block that is called by a name. -/
def wrappedLines (name : String) (margin : Nat) (lines : List String) : List String :=
  (name ++ " \x7b") :: lines.map (String.ofList (List.replicate margin ' ') ++ ·) ++ ["\x7d"]

theorem toList_wrappedLines (name : String) (margin : Nat) (statements : List Statement) :
    ("\n".intercalate (wrappedLines name margin (statements.map Statement.render))).toList =
      name.toList ++ ' ' :: '\x7b' :: '\n' :: closedLines margin statements := by
  have hlines : (statements.map Statement.render).flatMap (fun line =>
      '\n' :: (List.replicate margin ' ' ++ line.toList)) ++ ['\n', '\x7d'] =
      '\n' :: closedLines margin statements := by
    induction statements with
    | nil => rfl
    | cons statement statements ih => simp [closedLines, ih]
  have hopening : (name ++ " \x7b").toList = name.toList ++ [' ', '\x7b'] := by simp
  rw [wrappedLines, String.toList_intercalate, List.cons_append, List.map_cons, intercalate_cons,
    hopening]
  simp [List.flatMap_map, ← hlines]

theorem lineEnd_closedLines (h : ∀ statement ∈ statements, Opens statement.render.toList) :
    LineEnd ('\n' :: (closedLines margin statements ++ rest)) := by
  cases statements with
  | nil => exact @LineEnd.line 0 '\x7d' rest (.inr rfl)
  | cons statement statements =>
    obtain ⟨c, cs, heq, hopens⟩ := h statement List.mem_cons_self
    rw [closedLines, heq, List.append_assoc]
    exact .line (.inl hopens)

theorem bodyReads_closedLines
    (h : ∀ statement ∈ statements, StatementReads statement statement.render.toList) :
    BodyReads statements (closedLines margin statements) := by
  intro budget rest position hbudget
  induction statements generalizing budget position with
  | nil =>
    simp only [closedLines, List.length_singleton] at hbudget
    obtain ⟨budget, rfl⟩ := Nat.exists_eq_add_of_le' (show 1 ≤ budget by omega)
    exact ⟨_, [], _, Spacing.skip_stop rfl (by decide), blockBody_brace, rfl⟩
  | cons first statements ih =>
    obtain ⟨hfirst, hothers⟩ := List.forall_mem_cons.mp h
    have hend : LineEnd ('\n' :: (closedLines margin statements ++ rest)) :=
      lineEnd_closedLines fun statement hmem => (hothers statement hmem).opens
    have hlength := length_pos_of_opens hfirst.opens
    simp only [closedLines, List.length_append, List.length_cons] at hbudget
    obtain ⟨budget, rfl⟩ := Nat.exists_eq_add_of_le' (show 1 ≤ budget by omega)
    obtain ⟨found, stop, hread, hfound⟩ := hfirst.reads budget _
      (position.afterAll (List.replicate margin ' ')) hend (by omega)
    obtain ⟨start, others, ended, hskip, hblock, hsame⟩ :=
      ih hothers budget (stop.after '\n') (by omega)
    refine ⟨_, found :: others, ended, ?_, blockBody_line hfirst.opens hread hskip hblock,
      by simp [statementsEraseSpans, hfound, hsame]⟩
    obtain ⟨c, cs, heq, hopens⟩ := hfirst.opens
    rw [closedLines, heq, List.append_assoc, List.append_assoc]
    exact skip_line (.inl hopens)

/-- A call of a name with a block behind it and nothing else. -/
def Statement.blockCall (name : String) (statements : List Statement) : Statement :=
  .expr (.call none name [.lambda (.mk statements .blank) .blank] .blank)

theorem argumentsEraseSpans_eq_singleton {arguments : List Argument} {argument : Argument}
    (h : argumentsEraseSpans arguments = [argument]) :
    ∃ only, arguments = [only] ∧ only.eraseSpans = argument := by
  cases arguments with
  | nil => cases h
  | cons only arguments =>
    cases arguments with
    | nil => exact ⟨only, rfl, (List.cons.inj h).1⟩
    | cons second arguments => cases (List.cons.inj h).2

/-- A statement that is a call of a block, its spans apart, is one with spans. -/
theorem Statement.exists_of_blockCall {statement : Statement} {name : String}
    {statements : List Statement}
    (h : statement.eraseSpans = (blockCall name statements).eraseSpans) :
    ∃ body inner place span,
      statement = .expr (.call none name [.lambda (.mk body inner) place] span) ∧
      statementsEraseSpans body = statementsEraseSpans statements := by
  have hcall : (blockCall name statements).eraseSpans =
      .expr (.call none name
        [.lambda (.mk (statementsEraseSpans statements) .blank) .blank] .blank) := by
    simp [blockCall, eraseSpans, Expr.eraseSpans, argumentsEraseSpans, Argument.eraseSpans,
      Block.eraseSpans]
  rw [hcall] at h
  cases statement with
  | importName parts span => cases h
  | assignment receiver name target value span => cases receiver <;> cases h
  | localValue name value span => cases h
  | expr value =>
    cases value with
    | property receiver name span => cases receiver <;> cases h
    | literal value span => cases h
    | null span => cases h
    | this span => cases h
    | call receiver called arguments span =>
      cases receiver with
      | some receiver => cases h
      | none =>
        simp only [eraseSpans, Expr.eraseSpans, Statement.expr.injEq, Expr.call.injEq, and_true,
          true_and] at h
        obtain ⟨rfl, harguments⟩ := h
        obtain ⟨only, rfl, honly⟩ := argumentsEraseSpans_eq_singleton harguments
        cases only with
        | positional value place => cases honly
        | named name value place => cases honly
        | lambda body place =>
          obtain ⟨body, inner⟩ := body
          simp only [Argument.eraseSpans, Block.eraseSpans, Argument.lambda.injEq, Block.mk.injEq,
            and_true] at honly
          exact ⟨body, inner, place, span, rfl, honly⟩

theorem topLevelReads_wrapped {name : String} (hname : isName name = true)
    (h : ∀ statement ∈ statements, statement.WellFormed) :
    TopLevelReads (.blockCall name statements)
      (name.toList ++ ' ' :: '\x7b' :: '\n' :: closedLines margin statements) := by
  have hword := leadingWord_name hname
  have htail : ContinuesExpression (' ' :: '\x7b' :: '\n' :: closedLines margin statements) :=
    .inr ⟨_, .inr (.inr rfl)⟩
  have hbody : BodyReads statements (closedLines margin statements) :=
    bodyReads_closedLines fun statement hmem => statementReads statement (h statement hmem) 0
  have hsuffix : SuffixReads (some [.lambda (.mk statements .blank) .blank])
      (' ' :: '\x7b' :: '\n' :: closedLines margin statements) :=
    suffixReads_lambda (lambdaReads_feed hbody) fun _ => delimited_cons.mpr (by decide)
  have hspine : Spine (member none name .blank (some [.lambda (.mk statements .blank) .blank]))
      (name.toList ++ ' ' :: '\x7b' :: '\n' :: closedLines margin statements) :=
    spine_root hname hsuffix
  have hreads := readsBack_of_spine hspine (opens_append (exists_opener hword))
  refine topLevelReads_of_statementReads (statementReads_of_readsBack hword htail hreads) ?_
  intro rest position hrest
  rw [List.append_assoc]
  exact keyword?_leadingWord hword (delimited_append htail hrest) (by decide)

/-- A text that is read as a statement makes a script of it alone. -/
theorem parse_of_topLevelReads {statement : Statement} {source : String}
    (h : TopLevelReads statement source.toList) (label : String) :
    ∃ parsed, Block.parse label source = .ok parsed ∧
      statementsEraseSpans parsed.statements = [statement.eraseSpans] := by
  obtain ⟨found, stop, hread, hfound⟩ := h.reads [] .origin .source
  obtain ⟨length, hlength⟩ := Nat.exists_eq_add_of_le' (length_pos_of_opens h.opens)
  have hnone : statementsFrom (length + 1) (false || !found.isImport) ⟨[], stop⟩ =
      ⟨[], [], ⟨[], stop⟩⟩ := by
    rw [statementsFrom, Spacing.skip_nil]
    rfl
  have hwhole := statementsFrom_statement h.opens hread rfl hnone
  rw [List.append_nil] at hwhole
  refine ⟨.mk [found] ((Cursor.ofSource source).spanTo ⟨[], stop⟩), ?_,
    by simp [Block.statements, statementsEraseSpans, hfound]⟩
  simp [Block.parse, Cursor.ofSource, hlength, hwhole]

/-- Lines that are wrapped in a block are read as the call of the block. -/
theorem parse_wrappedLines {name : String} (hname : isName name = true)
    (h : ∀ statement ∈ statements, statement.WellFormed) (margin : Nat) (label : String) :
    ∃ parsed, Block.parse label
        ("\n".intercalate (wrappedLines name margin (statements.map Statement.render))) =
          .ok parsed ∧
      statementsEraseSpans parsed.statements =
        [(Statement.blockCall name statements).eraseSpans] := by
  apply parse_of_topLevelReads
  rw [toList_wrappedLines]
  exact topLevelReads_wrapped hname h

end ConfigScript
