import ConfigScript.Proofs.Syntax.Blocks

/-!
# Reading arguments back

The arguments of a call are read one by one up to the closing parenthesis, and then the lambda. A
positional argument is not taken for a named one, because no text of an expression has an equals
sign behind its first word.
-/

namespace ConfigScript.Parser

variable {depth budget : Nat} {rest text : List Char} {position : Position} {cursor : Cursor}

/-- The text is read as the argument, up to spans, in front of a comma or a parenthesis. -/
structure ArgumentReads (argument : Argument) (text : List Char) : Prop where
  opens : Opens text
  reads : ∀ (budget : Nat) (rest : List Char) (position : Position), EndsExpression rest →
    Unassigned .multiline rest → 8 * text.length + 1 < budget → ∃ found stop,
      Parser.argument budget ⟨text ++ rest, position⟩ = .ok (some (found, ⟨rest, stop⟩)) ∧
      found.eraseSpans = argument.eraseSpans

/-- A cursor at which no named argument begins. -/
def Unnamed (cursor : Cursor) : Prop :=
  ∀ name afterName, cursor.name? = some (name, afterName) → ∃ sign,
    Spacing.multiline.skip afterName = .ok sign ∧ sign.assignmentSign? = none

theorem argument_unnamed {result : Option (Reading Expr)} (hunnamed : Unnamed cursor)
    (hread : expression budget cursor = .ok result) :
    argument (budget + 1) cursor = .ok (result.map fun (value, after) =>
      (.positional value (cursor.spanTo after), after)) := by
  rw [argument]
  cases hname : cursor.name? with
  | none => cases result <;> simp [bind, Except.bind, hread, pure, Except.pure]
  | some reading =>
    obtain ⟨name, afterName⟩ := reading
    obtain ⟨sign, hskip, hsign⟩ := hunnamed name afterName hname
    cases result <;> simp [bind, Except.bind, hskip, hsign, hread, pure, Except.pure]

theorem argument_named {name : String} {value : Expr}
    {afterName sign afterSign inside after : Cursor}
    (hname : cursor.name? = some (name, afterName))
    (hskip : Spacing.multiline.skip afterName = .ok sign)
    (hsign : sign.assignmentSign? = some afterSign)
    (hinside : Spacing.multiline.skip afterSign = .ok inside)
    (hread : expression budget inside = .ok (some (value, after))) :
    argument (budget + 1) cursor = .ok (some (.named name value (cursor.spanTo after), after)) := by
  rw [argument, hname]
  simp [bind, Except.bind, hskip, hsign, hinside, hread, require, pure, Except.pure]

theorem unassigned_continues {tail : List Char} (htail : ContinuesExpression tail)
    (hrest : Unassigned .multiline rest) : Unassigned .multiline (tail ++ rest) := by
  cases htail with
  | inl hnil => rwa [hnil, List.nil_append]
  | inr hcons =>
    obtain ⟨cs, rfl | rfl | rfl⟩ := hcons
    · exact unassigned_cons rfl (by decide) (by decide)
    · exact unassigned_cons rfl (by decide) (by decide)
    · exact unassigned_brace

/-- Behind the first word of an expression no equals sign follows, so its text begins no named
argument. -/
theorem unnamed_expression {value : Expr} (hvalue : value.WellFormed) (hrest : Delimited rest)
    (hsign : Unassigned .multiline rest) :
    Unnamed ⟨(value.renderAt depth).toList ++ rest, position⟩ := by
  obtain ⟨word, tail, heq, hword, htail⟩ := exists_leadingWord depth value hvalue
  rw [heq, List.append_assoc]
  intro name afterName hname
  cases hword with
  | inl hidentifier =>
    rw [Cursor.name?_word hidentifier.1 (delimited_append htail hrest)] at hname
    split at hname
    · cases hname
    · cases hname
      exact unassigned_continues htail hsign _
  | inr hcons =>
    obtain ⟨c, cs, rfl, -, hnot⟩ := hcons
    rw [List.cons_append, Cursor.name?_cons hnot] at hname
    cases hname

variable {value : Expr} {span : Span} {name : String}

theorem argumentReads_positional (hvalue : value.WellFormed)
    (hreads : ReadsBack value (value.renderAt depth).toList) :
    ArgumentReads (.positional value span) (value.renderAt depth).toList where
  opens := opens_expression depth hvalue
  reads := by
    intro budget rest position hrest hsign hbudget
    obtain ⟨budget, rfl⟩ := Nat.exists_eq_add_of_le' (show 1 ≤ budget by omega)
    have hless : 8 * (value.renderAt depth).toList.length < budget := by omega
    obtain ⟨found, stop, hread, hfound⟩ := hreads budget rest position hrest hless
    exact ⟨_, stop, argument_unnamed (unnamed_expression hvalue hrest.delimited hsign) hread,
      by simp [Argument.eraseSpans, hfound]⟩

theorem argumentReads_named (hname : isName name = true) (hvalue : value.WellFormed)
    (hreads : ReadsBack value (value.renderAt depth).toList) :
    ArgumentReads (.named name value span)
      (name.toList ++ ' ' :: '=' :: ' ' :: (value.renderAt depth).toList) where
  opens := opens_append (opens_name hname)
  reads := by
    intro budget rest position hrest hsign hbudget
    simp only [List.length_append, List.length_cons] at hbudget
    obtain ⟨budget, rfl⟩ := Nat.exists_eq_add_of_le' (show 1 ≤ budget by omega)
    have hless : 8 * (value.renderAt depth).toList.length < budget := by omega
    obtain ⟨found, stop, hread, hfound⟩ := hreads budget rest
      ((((position.afterAll name.toList).after ' ').after '=').after ' ') hrest hless
    have hdelimited : Delimited (' ' :: '=' :: ' ' :: ((value.renderAt depth).toList ++ rest)) :=
      endsExpression_sign.delimited
    simp only [List.append_assoc, List.cons_append]
    exact ⟨_, stop, argument_named (Cursor.name?_name hname hdelimited) skip_sign
      assignmentSign?_blank (skip_blank_opens (opens_expression depth hvalue)) hread,
      by simp [Argument.eraseSpans, hfound]⟩

section Lists

variable {values : List Argument}

/-- Arguments behind the first one, each behind a comma. -/
def othersText (depth : Nat) (values : List Argument) : List Char :=
  values.flatMap fun value => ',' :: ' ' :: value.valueText depth

theorem endsExpression_others : EndsExpression (othersText depth values ++ ')' :: rest) := by
  cases values with
  | nil => exact endsExpression_paren
  | cons value values => exact endsExpression_comma

theorem unassigned_others :
    Unassigned .multiline (othersText depth values ++ ')' :: rest) := by
  cases values with
  | nil => exact unassigned_cons rfl (by decide) (by decide)
  | cons value values => exact unassigned_cons rfl (by decide) (by decide)

theorem charAfter_comma :
    charAfter .multiline ',' ⟨',' :: rest, position⟩ = .ok (some ⟨rest, position.after ','⟩) := by
  rw [charAfter_eq (Spacing.skip_stop rfl (by decide)), Cursor.char?_self]

theorem charAfter_paren : charAfter .multiline ',' ⟨')' :: rest, position⟩ = .ok none := by
  rw [charAfter_eq (Spacing.skip_stop rfl (by decide)), Cursor.char?_ne (by decide)]

theorem skip_paren :
    Spacing.multiline.skip ⟨')' :: rest, position⟩ = .ok ⟨')' :: rest, position⟩ :=
  Spacing.skip_stop rfl (by decide)

theorem moreArguments_othersText
    (h : ∀ value ∈ values, ArgumentReads value (value.valueText depth))
    (hbudget : 8 * (othersText depth values).length < budget) :
    ∃ found stop, moreArguments budget ⟨othersText depth values ++ ')' :: rest, position⟩ =
        .ok (found, ⟨')' :: rest, stop⟩) ∧
      argumentsEraseSpans found = argumentsEraseSpans values := by
  induction values generalizing budget position with
  | nil =>
    obtain ⟨budget, rfl⟩ := Nat.exists_eq_add_of_le' (show 1 ≤ budget by omega)
    refine ⟨[], position, ?_, rfl⟩
    simp [othersText, moreArguments, bind, Except.bind, charAfter_paren, pure, Except.pure]
  | cons value values ih =>
    have hrest := fun other hmem => h other (List.mem_cons_of_mem _ hmem)
    have hvalue := h value List.mem_cons_self
    have htext : othersText depth (value :: values) =
        ',' :: ' ' :: (value.valueText depth ++ othersText depth values) := rfl
    simp only [htext, List.length_cons, List.length_append] at hbudget
    obtain ⟨budget, rfl⟩ := Nat.exists_eq_add_of_le' (show 1 ≤ budget by omega)
    have hless : 8 * (value.valueText depth).length + 1 < budget := by omega
    obtain ⟨first, middle, hread, hfirst⟩ := hvalue.reads budget
      (othersText depth values ++ ')' :: rest) ((position.after ',').after ' ')
      endsExpression_others unassigned_others hless
    have hothersLess : 8 * (othersText depth values).length < budget := by omega
    obtain ⟨others, stop, hothers, hsame⟩ := @ih budget middle hrest hothersLess
    refine ⟨first :: others, stop, ?_, by simp [argumentsEraseSpans, hfirst, hsame]⟩
    rw [htext, List.cons_append, List.cons_append, List.append_assoc, moreArguments,
      charAfter_comma]
    simp [bind, Except.bind, skip_blank_opens hvalue.opens, hread, hothers, pure, Except.pure]

/-- The arguments between the parentheses of a call. -/
def innerText (depth : Nat) (values : List Argument) : List Char :=
  [',', ' '].intercalate (values.map (Argument.valueText depth))

theorem innerText_cons (value : Argument) (values : List Argument) :
    innerText depth (value :: values) = value.valueText depth ++ othersText depth values := by
  simp [innerText, othersText, intercalate_cons, List.flatMap_map]

theorem listText_eq :
    listText (values.map (Argument.valueText depth)) = '(' :: (innerText depth values ++ [')']) :=
  rfl

theorem argument_closer {c : Char} (h : c ∈ [')', ',', '\x7d']) :
    argument (budget + 3) ⟨c :: rest, position⟩ = .ok none := by
  have hunnamed : Unnamed ⟨c :: rest, position⟩ := by
    intro name afterName hname
    have hstart : ∀ d ∈ [')', ',', '\x7d'], startsIdentifier d = false :=
      List.all_iff_forall_prop.mp (by decide)
    rw [Cursor.name?_cons (hstart c h)] at hname
    cases hname
  rw [argument_unnamed hunnamed (expression_closer h)]
  rfl

theorem valueArguments_innerText
    (h : ∀ value ∈ values, ArgumentReads value (value.valueText depth))
    (hbudget : 8 * (innerText depth values).length + 4 ≤ budget) :
    ∃ found stop, valueArguments budget ⟨innerText depth values ++ ')' :: rest, position⟩ =
        .ok (found, ⟨rest, stop⟩) ∧
      argumentsEraseSpans found = argumentsEraseSpans values := by
  obtain ⟨budget, rfl⟩ := Nat.exists_eq_add_of_le' (show 4 ≤ budget by omega)
  cases values with
  | nil =>
    refine ⟨[], position.after ')', ?_, rfl⟩
    have htext : innerText depth [] = [] := rfl
    rw [htext, List.nil_append, valueArguments, skip_paren]
    have hnone : argument (budget + 3) ⟨')' :: rest, position⟩ = .ok none :=
      argument_closer (by decide)
    simp [bind, Except.bind, hnone, charAfter_paren, skip_paren, Cursor.char?_self, pure,
      Except.pure]
  | cons value values =>
    have hvalue := h value List.mem_cons_self
    rw [innerText_cons, List.length_append] at hbudget
    have hless : 8 * (value.valueText depth).length + 1 < budget + 3 := by omega
    obtain ⟨first, middle, hread, hfirst⟩ := hvalue.reads (budget + 3)
      (othersText depth values ++ ')' :: rest) position endsExpression_others unassigned_others
      hless
    have hothersLess : 8 * (othersText depth values).length < budget + 3 := by omega
    obtain ⟨others, stop, hothers, hsame⟩ :=
      @moreArguments_othersText depth (budget + 3) rest middle values
        (fun other hmem => h other (List.mem_cons_of_mem _ hmem)) hothersLess
    refine ⟨first :: others, stop.after ')', ?_, by simp [argumentsEraseSpans, hfirst, hsame]⟩
    rw [innerText_cons, List.append_assoc, valueArguments, skip_opens hvalue.opens]
    simp [bind, Except.bind, hread, hothers, charAfter_paren, skip_paren, Cursor.char?_self, pure,
      Except.pure]

theorem lambda_none (hbrace : cursor.char? '\x7b' = none) :
    lambda (budget + 1) cursor = .ok none := by
  rw [lambda, hbrace]
  rfl

/-- Arguments in parentheses, and no lambda behind them. -/
theorem suffixReads_list (h : ∀ value ∈ values, ArgumentReads value (value.valueText depth)) :
    SuffixReads (some values) (listText (values.map (Argument.valueText depth))) := by
  intro budget rest position hrest hbudget
  simp only [listText_eq, List.length_cons, List.length_append] at hbudget
  obtain ⟨budget, rfl⟩ := Nat.exists_eq_add_of_le' (show 2 ≤ budget by omega)
  have hless : 8 * (innerText depth values).length + 4 ≤ budget + 1 := by omega
  obtain ⟨found, stop, hread, hsame⟩ :=
    @valueArguments_innerText depth (budget + 1) rest (position.after '(') values h hless
  obtain ⟨opening, hopening, -, hbrace⟩ := hrest.bare stop
  refine ⟨some found, stop, delimited_cons.mpr (by decide), ?_, by simp [hsame]⟩
  rw [listText_eq, List.cons_append, List.append_assoc, List.singleton_append, suffix,
    Spacing.skip_stop rfl (by decide)]
  simp [bind, Except.bind, Cursor.char?_self, hread, hopening, lambda_none hbrace, pure,
    Except.pure]

variable {statements : List Statement} {inner span : Span}

theorem delimited_lambdaText : Delimited (lambdaText depth statements ++ rest) := by
  cases statements <;> exact delimited_cons.mpr (by decide)

/-- A lambda right behind the name. -/
theorem suffixReads_lambda (h : LambdaReads statements text)
    (hdelimited : ∀ rest, Delimited (text ++ rest)) :
    SuffixReads (some [.lambda (.mk statements inner) span]) text := by
  intro budget rest position hrest hbudget
  obtain ⟨budget, rfl⟩ := Nat.exists_eq_add_of_le' (show 1 ≤ budget by omega)
  have hless : 8 * text.length ≤ budget := by omega
  obtain ⟨start, body, place, stop, hskip, hparen, hread, hsame⟩ := h budget rest position hless
  refine ⟨some [.lambda (.mk body place) place], stop, hdelimited rest, ?_, ?_⟩
  · rw [suffix, hskip]
    simp [bind, Except.bind, hparen, hread, pure, Except.pure]
  · simp [argumentsEraseSpans, Argument.eraseSpans, Block.eraseSpans, hsame]

/-- Arguments in parentheses, and a lambda behind them. -/
theorem suffixReads_both (h : ∀ value ∈ values, ArgumentReads value (value.valueText depth))
    (hlambda : LambdaReads statements (lambdaText depth statements)) :
    SuffixReads (some (values ++ [.lambda (.mk statements inner) span]))
      (listText (values.map (Argument.valueText depth)) ++ lambdaText depth statements) := by
  intro budget rest position hrest hbudget
  simp only [listText_eq, List.length_cons, List.length_append] at hbudget
  obtain ⟨budget, rfl⟩ := Nat.exists_eq_add_of_le' (show 1 ≤ budget by omega)
  have hless : 8 * (innerText depth values).length + 4 ≤ budget := by omega
  obtain ⟨found, middle, hread, hsame⟩ := @valueArguments_innerText depth budget
    (lambdaText depth statements ++ rest) (position.after '(') values h hless
  have hlambdaLess : 8 * (lambdaText depth statements).length ≤ budget := by omega
  obtain ⟨start, body, place, stop, hskip, -, hbody, hstatements⟩ :=
    hlambda budget rest middle hlambdaLess
  refine ⟨some (found ++ [.lambda (.mk body place) place]), stop,
    delimited_cons.mpr (by decide), ?_, ?_⟩
  · rw [listText_eq, List.append_assoc, List.cons_append, List.append_assoc,
      List.singleton_append, suffix, Spacing.skip_stop rfl (by decide)]
    simp [bind, Except.bind, Cursor.char?_self, hread, hskip, hbody, pure, Except.pure]
  · simp [argumentsEraseSpans_append, argumentsEraseSpans, Argument.eraseSpans, Block.eraseSpans,
      hsame, hstatements]

/-- Whatever arguments a call has, what stands behind its name is read as them. -/
theorem suffixReads_call {arguments : List Argument} (harguments : argumentsWellFormed arguments)
    (hvalues : ∀ value ∈ arguments, value.isLambda = false →
      ArgumentReads value (value.valueText depth))
    (hlambda : ∀ statements inner span, Argument.lambda (.mk statements inner) span ∈ arguments →
      LambdaReads statements (lambdaText depth statements)) :
    SuffixReads (some arguments)
      (suffixText depth (renderValues depth arguments) (renderLambda? depth arguments)) := by
  obtain ⟨values, hkind, hcases⟩ := argumentsWellFormed_cases harguments
  cases hcases with
  | inl heq =>
    subst heq
    rw [suffixText_values hkind]
    exact suffixReads_list fun value hmem => hvalues value hmem (hkind value hmem)
  | inr hlast =>
    obtain ⟨statements, inner, span, rfl⟩ := hlast
    have hread := hlambda statements inner span (by simp)
    rw [suffixText_lambda hkind]
    cases values with
    | nil => exact suffixReads_lambda hread fun _ => delimited_lambdaText
    | cons value values =>
      exact suffixReads_both
        (fun other hmem => hvalues other (List.mem_append_left _ hmem) (hkind other hmem)) hread

end Lists

end ConfigScript.Parser
