import ConfigScript.Proofs.Syntax.Rendered
import ConfigScript.Proofs.Syntax.Spine

/-!
# Reading statements and lambdas back

A statement is read back up to the end of its line. The body of a lambda is read statement by
statement: the line feed behind one of them ends it, and the blanks in front of the next are
skipped with the separators.
-/

namespace ConfigScript.Parser

variable {depth budget : Nat} {rest text : List Char} {position : Position}

/-- The text is read as the statement, up to spans, when its line ends behind it. -/
structure StatementReads (statement : Statement) (text : List Char) : Prop where
  opens : Opens text
  reads : ∀ (budget : Nat) (rest : List Char) (position : Position), LineEnd rest →
    8 * text.length + 1 < budget → ∃ found stop,
      Parser.statement budget ⟨text ++ rest, position⟩ = .ok (found, ⟨rest, stop⟩) ∧
      found.eraseSpans = statement.eraseSpans

theorem keyword?_leadingWord {word tail : List Char} {keyword : String}
    (hword : LeadingWord word) (htail : Delimited tail)
    (hkeyword : keyword ∈ ["val", "var", "import"]) :
    (⟨word ++ tail, position⟩ : Cursor).keyword? keyword = none := by
  have hkeywords : ∀ keyword ∈ ["val", "var", "import"], isIdentifier keyword.toList = true := by
    decide
  have hletters := hkeywords keyword hkeyword
  cases hword with
  | inl hidentifier =>
    rw [Cursor.keyword?_word hletters hidentifier.1 htail,
      if_neg (hidentifier.2 keyword hkeyword)]
  | inr hcons =>
    obtain ⟨c, cs, rfl, -, hnot⟩ := hcons
    cases heq : keyword.toList with
    | nil =>
      rw [heq] at hletters
      cases hletters
    | cons first others =>
      rw [heq, isIdentifier, Bool.and_eq_true] at hletters
      exact Cursor.keyword?_cons heq (ne_of_class hletters.1 hnot).symm

theorem delimited_append {first second : List Char} (hfirst : ContinuesExpression first)
    (hsecond : Delimited second) : Delimited (first ++ second) := by
  cases hfirst with
  | inl hnil => rwa [hnil, List.nil_append]
  | inr hcons =>
    obtain ⟨cs, rfl | rfl | rfl⟩ := hcons <;> exact delimited_cons.mpr (by decide)

/-- No keyword of a statement stands where an expression begins. -/
theorem keyword?_expression {value : Expr} {keyword : String} (hvalue : value.WellFormed)
    (hrest : Delimited rest) (hkeyword : keyword ∈ ["val", "var", "import"]) :
    (⟨(value.renderAt depth).toList ++ rest, position⟩ : Cursor).keyword? keyword = none := by
  obtain ⟨word, tail, heq, hword, htail⟩ := exists_leadingWord depth value hvalue
  rw [heq, List.append_assoc]
  exact keyword?_leadingWord hword (delimited_append htail hrest) hkeyword

theorem opens_expression (depth : Nat) {value : Expr} (hvalue : value.WellFormed) :
    Opens (value.renderAt depth).toList := by
  obtain ⟨word, tail, heq, hword, -⟩ := exists_leadingWord depth value hvalue
  rw [heq]
  exact opens_append (exists_opener hword)

/-- A spaced equals sign and the value behind it. -/
theorem skip_sign {spacing : Spacing} :
    spacing.skip ⟨' ' :: '=' :: ' ' :: rest, position⟩ =
      .ok ⟨'=' :: ' ' :: rest, position.after ' '⟩ := by
  rw [Spacing.skip_cons (by cases spacing <;> rfl),
    Spacing.skip_stop (by cases spacing <;> rfl) (by decide)]

theorem assignmentSign?_blank :
    (⟨'=' :: ' ' :: rest, position⟩ : Cursor).assignmentSign? =
      some ⟨' ' :: rest, position.after '='⟩ := by
  rw [Cursor.assignmentSign?, Cursor.char?_self]
  rfl

variable {value : Expr} {span : Span} {name : String}

/-- An expression that begins with a word makes a statement, when it is read back as a value. -/
theorem statementReads_of_readsBack {word tail : List Char} (hword : LeadingWord word)
    (htail : ContinuesExpression tail) (hreads : ReadsBack value (word ++ tail)) :
    StatementReads (.expr value) (word ++ tail) where
  opens := opens_append (exists_opener hword)
  reads := by
    intro budget rest position hrest hbudget
    obtain ⟨budget, rfl⟩ := Nat.exists_eq_add_of_le' (show 1 ≤ budget by omega)
    have hless : 8 * (word ++ tail).length < budget := by omega
    obtain ⟨found, stop, hread, hfound⟩ := hreads budget rest position hrest.endsExpression hless
    obtain ⟨sign, hsign, hnone⟩ := hrest.unassigned stop
    have hdelimited := delimited_append htail hrest.endsExpression.delimited
    rw [List.append_assoc] at hread ⊢
    refine ⟨.expr found, stop, ?_, by simp [Statement.eraseSpans, hfound]⟩
    rw [statement, keyword?_leadingWord hword hdelimited (by decide),
      keyword?_leadingWord hword hdelimited (by decide), hread]
    simp [bind, Except.bind, require, hsign, hnone, pure, Except.pure]

theorem statementReads_expr (hvalue : value.WellFormed)
    (hreads : ReadsBack value (value.renderAt depth).toList) :
    StatementReads (.expr value) (value.renderAt depth).toList := by
  obtain ⟨word, tail, heq, hword, htail⟩ := exists_leadingWord depth value hvalue
  rw [heq] at hreads ⊢
  exact statementReads_of_readsBack hword htail hreads

theorem toList_localValue :
    ((Statement.localValue name value span).renderAt depth).toList =
      "val".toList ++ ' ' :: (name.toList ++ ' ' :: '=' :: ' ' ::
        (value.renderAt depth).toList) := by
  simp [Statement.renderAt]

theorem toList_assignment {receiver : Option Expr} {place : Span} :
    ((Statement.assignment receiver name place value span).renderAt depth).toList =
      ((Expr.property receiver name place).renderAt depth).toList ++
        ' ' :: '=' :: ' ' :: (value.renderAt depth).toList := by
  cases receiver <;> simp [Statement.renderAt, Expr.renderAt]

theorem statementReads_local (hname : isName name = true) (hvalue : value.WellFormed)
    (hreads : ReadsBack value (value.renderAt depth).toList) :
    StatementReads (.localValue name value span)
      ((Statement.localValue name value span).renderAt depth).toList := by
  rw [toList_localValue]
  refine ⟨⟨'v', _, rfl, by decide⟩, ?_⟩
  intro budget rest position hrest hbudget
  simp only [List.length_append, List.length_cons] at hbudget
  obtain ⟨budget, rfl⟩ := Nat.exists_eq_add_of_le' (show 1 ≤ budget by omega)
  have hless : 8 * (value.renderAt depth).toList.length < budget := by omega
  obtain ⟨found, stop, hread, hfound⟩ := hreads budget rest
    ((((((position.afterAll "val".toList).after ' ').afterAll name.toList).after ' ').after
      '=').after ' ') hrest.endsExpression hless
  have hword : Delimited (' ' :: (name.toList ++ ' ' :: '=' :: ' ' ::
      ((value.renderAt depth).toList ++ rest))) := delimited_cons.mpr (by decide)
  have hsign : Delimited (' ' :: '=' :: ' ' :: ((value.renderAt depth).toList ++ rest)) :=
    delimited_cons.mpr (by decide)
  simp only [List.append_assoc, List.cons_append]
  rw [statement, Cursor.keyword?_word (by decide) (by decide) hword, if_pos rfl]
  simp only [skip_blank_opens (opens_name hname), bind, Except.bind,
    Cursor.name?_name hname hsign, skip_sign, Cursor.char?_self,
    skip_blank_opens (opens_expression depth hvalue), hread, require]
  exact ⟨_, stop, rfl, by simp [Statement.eraseSpans, hfound]⟩

/-- A tree that erases to a property is a property of that name. -/
theorem eq_property_of_eraseSpans {receiver : Option Expr} {place : Span} {found : Expr}
    (h : found.eraseSpans = (Expr.property receiver name place).eraseSpans) :
    ∃ other span, found = .property other name span ∧
      other.map Expr.eraseSpans = receiver.map Expr.eraseSpans := by
  cases found with
  | property other found span =>
    refine ⟨other, span, ?_⟩
    cases other <;> cases receiver <;> simp_all [Expr.eraseSpans]
  | call other found arguments span =>
    cases other <;> cases receiver <;> simp [Expr.eraseSpans] at h
  | literal => cases receiver <;> simp [Expr.eraseSpans] at h
  | null => cases receiver <;> simp [Expr.eraseSpans] at h
  | this => cases receiver <;> simp [Expr.eraseSpans] at h

theorem statementReads_assignment {receiver : Option Expr} {place : Span}
    (htarget : (Expr.property receiver name place).WellFormed) (hvalue : value.WellFormed)
    (htargetReads : ReadsBack (.property receiver name place)
      ((Expr.property receiver name place).renderAt depth).toList)
    (hreads : ReadsBack value (value.renderAt depth).toList) :
    StatementReads (.assignment receiver name place value span)
      ((Statement.assignment receiver name place value span).renderAt depth).toList := by
  rw [toList_assignment]
  generalize htargetText : ((Expr.property receiver name place).renderAt depth).toList = target
    at htargetReads ⊢
  refine ⟨?_, ?_⟩
  · rw [← htargetText]
    exact opens_append (opens_expression depth htarget)
  intro budget rest position hrest hbudget
  simp only [List.length_append, List.length_cons] at hbudget
  obtain ⟨budget, rfl⟩ := Nat.exists_eq_add_of_le' (show 1 ≤ budget by omega)
  have hsign : EndsExpression (' ' :: '=' :: ' ' :: ((value.renderAt depth).toList ++ rest)) :=
    endsExpression_sign
  have htargetLess : 8 * target.length < budget := by omega
  obtain ⟨found, middle, htargetRead, hfound⟩ := htargetReads budget _ position hsign htargetLess
  -- What is read up to the sign is a property again, so that it can be assigned.
  obtain ⟨other, inner, rfl, hother⟩ := eq_property_of_eraseSpans hfound
  have hless : 8 * (value.renderAt depth).toList.length < budget := by omega
  obtain ⟨assigned, stop, hread, hassigned⟩ := hreads budget rest
    (((middle.after ' ').after '=').after ' ') hrest.endsExpression hless
  have hkeyword : ∀ keyword ∈ ["val", "var", "import"],
      (⟨target ++ ' ' :: '=' :: ' ' :: ((value.renderAt depth).toList ++ rest), position⟩ :
        Cursor).keyword? keyword = none := by
    intro keyword hmem
    rw [← htargetText]
    exact keyword?_expression htarget hsign.delimited hmem
  simp only [List.append_assoc, List.cons_append]
  rw [statement, hkeyword _ (by decide), hkeyword _ (by decide), htargetRead]
  simp only [bind, Except.bind, require, skip_sign, assignmentSign?_blank,
    skip_blank_opens (opens_expression depth hvalue), hread]
  refine ⟨_, stop, rfl, ?_⟩
  cases other <;> cases receiver <;> simp_all [Statement.eraseSpans]

section Lambdas

variable {statements : List Statement}

/-- Every line of a body begins with a statement or with the closing brace. -/
theorem lineEnd_bodyLines
    (h : ∀ statement ∈ statements, StatementReads statement
      (statement.renderAt (depth + 1)).toList) :
    LineEnd ('\n' :: (bodyLines depth statements ++ rest)) := by
  cases statements with
  | nil =>
    rw [bodyLines, toList_indentation, List.append_assoc]
    exact .line (.inr rfl)
  | cons first statements =>
    obtain ⟨c, cs, heq, hopens⟩ := (h first List.mem_cons_self).opens
    rw [bodyLines, toList_indentation, heq, List.append_assoc, List.append_assoc]
    exact .line (.inl hopens)

theorem blockBody_brace :
    blockBody (budget + 1) ⟨'\x7d' :: rest, position⟩ =
      .ok ([], ⟨rest, position.after '\x7d'⟩) := by
  rw [blockBody, Cursor.char?_self]
  rfl

/-- A statement of a body, the line feed that ends it and the lines behind it. -/
theorem blockBody_line {start after : Cursor} {first : Statement} {others : List Statement}
    {behind : List Char} {stop : Position} (hopens : Opens text)
    (hread : statement budget ⟨text ++ rest, position⟩ = .ok (first, ⟨'\n' :: behind, stop⟩))
    (hskip : Spacing.separators.skip ⟨behind, stop.after '\n'⟩ = .ok start)
    (hothers : blockBody budget start = .ok (others, after)) :
    blockBody (budget + 1) ⟨text ++ rest, position⟩ = .ok (first :: others, after) := by
  rw [blockBody, char?_opens hopens (by decide)]
  simp [bind, Except.bind, isEmpty_opens hopens, hread, statementEnd_feed, hskip, hothers, pure,
    Except.pure]

theorem skip_indentation {spacing : Spacing} (hopens : Opens text) :
    spacing.skip ⟨(indentation depth).toList ++ (text ++ rest), position⟩ =
      .ok ⟨text ++ rest, position.afterAll (indentation depth).toList⟩ := by
  obtain ⟨c, cs, rfl, hopens⟩ := hopens
  rw [toList_indentation]
  exact skip_line (.inl hopens)

/-- The body is read from its first line on, and the closing brace with it. -/
theorem blockBody_bodyLines
    (h : ∀ statement ∈ statements, StatementReads statement
      (statement.renderAt (depth + 1)).toList)
    (hbudget : 8 * (bodyLines depth statements).length ≤ budget) :
    ∃ start found stop,
      Spacing.separators.skip ⟨bodyLines depth statements ++ rest, position⟩ = .ok start ∧
      blockBody budget start = .ok (found, ⟨rest, stop⟩) ∧
      statementsEraseSpans found = statementsEraseSpans statements := by
  induction statements generalizing budget position with
  | nil =>
    simp only [bodyLines, List.length_append, List.length_singleton] at hbudget
    obtain ⟨budget, rfl⟩ := Nat.exists_eq_add_of_le' (show 1 ≤ budget by omega)
    have hskip : Spacing.separators.skip ⟨bodyLines depth [] ++ rest, position⟩ =
        .ok ⟨'\x7d' :: rest, position.afterAll (List.replicate (4 * depth) ' ')⟩ := by
      rw [bodyLines, toList_indentation, List.append_assoc]
      exact skip_line (.inr rfl)
    exact ⟨_, [], _, hskip, blockBody_brace, rfl⟩
  | cons first statements ih =>
    have hrest := fun statement hmem => h statement (List.mem_cons_of_mem _ hmem)
    have hfirst := h first List.mem_cons_self
    have hlength := length_pos_of_opens hfirst.opens
    have hend : LineEnd ('\n' :: (bodyLines depth statements ++ rest)) := lineEnd_bodyLines hrest
    simp only [bodyLines, List.length_append, List.length_cons] at hbudget
    obtain ⟨budget, rfl⟩ := Nat.exists_eq_add_of_le' (show 1 ≤ budget by omega)
    have hfirstLess : 8 * (first.renderAt (depth + 1)).toList.length + 1 < budget := by omega
    obtain ⟨found, stop, hread, hfound⟩ := hfirst.reads budget _
      (position.afterAll (indentation (depth + 1)).toList) hend hfirstLess
    have hothersLess : 8 * (bodyLines depth statements).length ≤ budget := by omega
    obtain ⟨start, others, ended, hskip, hblock, hothers⟩ :=
      @ih budget (stop.after '\n') hrest hothersLess
    refine ⟨_, found :: others, ended, ?_, blockBody_line hfirst.opens hread hskip hblock,
      by simp [statementsEraseSpans, hfound, hothers]⟩
    rw [bodyLines, List.append_assoc, List.append_assoc]
    exact skip_indentation hfirst.opens

/-- The text of a lambda is read as the lambda, up to spans, once the blank in front of it is
skipped. -/
def LambdaReads (statements : List Statement) (text : List Char) : Prop :=
  ∀ (budget : Nat) (rest : List Char) (position : Position), 8 * text.length ≤ budget →
    ∃ start body span stop, Spacing.inline.skip ⟨text ++ rest, position⟩ = .ok start ∧
      start.char? '(' = none ∧
      lambda budget start = .ok (some (.lambda (.mk body span) span, ⟨rest, stop⟩)) ∧
      statementsEraseSpans body = statementsEraseSpans statements

theorem skip_brace :
    Spacing.inline.skip ⟨' ' :: '\x7b' :: rest, position⟩ =
      .ok ⟨'\x7b' :: rest, position.after ' '⟩ := by
  rw [Spacing.skip_cons rfl, Spacing.skip_stop rfl (by decide)]

/-- A lambda is read when its body is. -/
theorem lambda_brace {start after : Cursor} {body : List Statement}
    (hskip : Spacing.separators.skip ⟨rest, position.after '\x7b'⟩ = .ok start)
    (hbody : blockBody budget start = .ok (body, after)) :
    lambda (budget + 1) ⟨'\x7b' :: rest, position⟩ =
      .ok (some (.lambda (.mk body (Cursor.spanTo ⟨'\x7b' :: rest, position⟩ after))
        (Cursor.spanTo ⟨'\x7b' :: rest, position⟩ after), after)) := by
  rw [lambda, Cursor.char?_self]
  simp [bind, Except.bind, hskip, hbody, pure, Except.pure]

/-- The text behind the brace of a lambda is read as its body, up to spans, and up to the brace that
closes it. -/
def BodyReads (statements : List Statement) (text : List Char) : Prop :=
  ∀ (budget : Nat) (rest : List Char) (position : Position), 8 * text.length ≤ budget →
    ∃ start found stop,
      Spacing.separators.skip ⟨text ++ rest, position⟩ = .ok start ∧
      blockBody budget start = .ok (found, ⟨rest, stop⟩) ∧
      statementsEraseSpans found = statementsEraseSpans statements

/-- A lambda is read when its body is, on the lines behind the brace. -/
theorem lambdaReads_feed {body : List Char} (h : BodyReads statements body) :
    LambdaReads statements (' ' :: '\x7b' :: '\n' :: body) := by
  intro budget rest position hbudget
  simp only [List.length_cons] at hbudget
  obtain ⟨budget, rfl⟩ := Nat.exists_eq_add_of_le' (show 1 ≤ budget by omega)
  have hless : 8 * body.length ≤ budget := by omega
  obtain ⟨start, found, stop, hskip, hbody, hsame⟩ := h budget rest
    (((position.after ' ').after '\x7b').after '\n') hless
  have hfeed : Spacing.separators.skip ⟨'\n' :: (body ++ rest),
      (position.after ' ').after '\x7b'⟩ = .ok start := by
    rw [Spacing.skip_cons rfl, hskip]
  exact ⟨_, found, _, stop, skip_brace, Cursor.char?_ne (by decide), lambda_brace hfeed hbody,
    hsame⟩

theorem lambdaReads_lambdaText
    (h : ∀ statement ∈ statements, StatementReads statement
      (statement.renderAt (depth + 1)).toList) :
    LambdaReads statements (lambdaText depth statements) := by
  cases statements with
  | nil =>
    intro budget rest position hbudget
    simp only [lambdaText, List.length_cons, List.length_nil] at hbudget
    obtain ⟨budget, rfl⟩ := Nat.exists_eq_add_of_le' (show 2 ≤ budget by omega)
    have hskip : ∀ position, Spacing.separators.skip ⟨' ' :: '\x7d' :: rest, position⟩ =
        .ok ⟨'\x7d' :: rest, position.after ' '⟩ := by
      intro position
      rw [Spacing.skip_cons rfl, Spacing.skip_stop rfl (by decide)]
    exact ⟨_, [], _, _, skip_brace, Cursor.char?_ne (by decide),
      lambda_brace (hskip _) blockBody_brace, rfl⟩
  | cons first statements =>
    exact lambdaReads_feed fun budget rest position => blockBody_bodyLines h

end Lambdas

end ConfigScript.Parser
