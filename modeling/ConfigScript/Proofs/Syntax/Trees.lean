import ConfigScript.Proofs.Syntax.Calls

/-!
# Reading trees back

Every well-formed expression and statement is read back from its text, up to spans. The induction
is on the tree; what it says of a node holds at every depth of indentation and whatever fitting
text follows.
-/

namespace ConfigScript

open ConfigScript.Parser

theorem spine_literal {value : Expr} {text : List Char}
    (h : ∀ rest position, Delimited rest → ∃ found stop,
      literalOrWord? ⟨text ++ rest, position⟩ = .ok (some (found, ⟨rest, stop⟩)) ∧
      found.eraseSpans = value.eraseSpans) (hopens : Opens text) : Spine value text := by
  intro budget rest position start hrest hbudget
  have hlength := length_pos_of_opens hopens
  obtain ⟨budget, rfl⟩ := Nat.exists_eq_add_of_le' (show 1 ≤ budget by omega)
  obtain ⟨found, stop, hread, hfound⟩ := h rest position hrest.delimited
  refine ⟨found, ⟨rest, stop⟩, budget + 1, found, stop, ?_, rfl, by omega, hfound⟩
  rw [primary, hread]
  rfl

variable {depth : Nat}

theorem readsBack_expr {value : Expr} (hvalue : value.WellFormed)
    (h : Spine value (value.renderAt depth).toList) :
    ReadsBack value (value.renderAt depth).toList :=
  readsBack_of_spine h (opens_expression depth hvalue)

theorem spine_property {name : String} {span : Span} (hname : isName name = true) :
    Spine (.property none name span) ((Expr.property none name span).renderAt depth).toList := by
  have hroot : Spine (member none name span none) (name.toList ++ []) :=
    spine_root hname suffixReads_none
  rwa [List.append_nil] at hroot

theorem spine_property_member {receiver : Expr} {name : String} {span : Span}
    (hreceiver : Spine receiver (receiver.renderAt depth).toList) (hname : isName name = true) :
    Spine (.property (some receiver) name span)
      ((Expr.property (some receiver) name span).renderAt depth).toList := by
  have hmember : Spine (member (some receiver) name span none)
      ((receiver.renderAt depth).toList ++ '.' :: (name.toList ++ [])) :=
    spine_member hreceiver hname suffixReads_none
  simpa [Expr.renderAt, member] using hmember

/-- What reading back says of the arguments of a call: the values and the lambda are read. -/
structure ArgumentsRead (depth : Nat) (arguments : List Argument) : Prop where
  values : ∀ value ∈ arguments, value.isLambda = false →
    ArgumentReads value (value.valueText depth)
  lambda : ∀ statements inner span, .lambda (.mk statements inner) span ∈ arguments →
    LambdaReads statements (lambdaText depth statements)

theorem argumentsRead_cons {value : Argument} {arguments : List Argument}
    (hvalue : ArgumentReads value (value.valueText depth)) (hkind : value.isLambda = false)
    (harguments : ArgumentsRead depth arguments) : ArgumentsRead depth (value :: arguments) where
  values := List.forall_mem_cons.mpr ⟨fun _ => hvalue, harguments.values⟩
  lambda statements inner span hmem := by
    cases hmem with
    | head => cases hkind
    | tail _ hmem => exact harguments.lambda statements inner span hmem

theorem argumentsRead_lambda {statements : List Statement} {inner span : Span}
    (h : LambdaReads statements (lambdaText depth statements)) :
    ArgumentsRead depth [.lambda (.mk statements inner) span] where
  values value hmem hkind := by
    rw [List.mem_singleton.mp hmem] at hkind
    cases hkind
  lambda others place stop hmem := by
    cases List.mem_singleton.mp hmem
    exact h

mutual

theorem spine_expr : (value : Expr) → value.WellFormed → (depth : Nat) →
    Spine value (value.renderAt depth).toList
  | .property none _ _, h, _ => spine_property h.2
  | .property (some receiver) _ _, h, depth =>
    spine_property_member (spine_expr receiver h.1 depth) h.2
  | .call none name arguments span, h, depth => by
    have hread := argumentsRead arguments h.2.2 depth
    have hroot : Spine (member none name span (some arguments)) _ :=
      spine_root h.2.1 (suffixReads_call h.2.2 hread.values hread.lambda)
    rw [Expr.renderAt, toList_callText]
    exact hroot
  | .call (some receiver) name arguments span, h, depth => by
    have hread := argumentsRead arguments h.2.2 depth
    have hmember : Spine (member (some receiver) name span (some arguments)) _ :=
      spine_member (spine_expr receiver h.1 depth) h.2.1
        (suffixReads_call h.2.2 hread.values hread.lambda)
    rw [Expr.renderAt, toList_callText]
    simpa [member] using hmember
  | .literal value _, h, depth => by
    refine spine_literal (fun rest position hrest => ?_) (opens_expression depth h)
    obtain ⟨place, stop, hread⟩ := @literalOrWord?_render rest position value hrest
    exact ⟨_, stop, hread, rfl⟩
  | .null _, h, depth => by
    refine spine_literal (fun rest position hrest => ?_) (opens_expression depth h)
    exact ⟨_, _, literalOrWord?_word "null".toList (by decide) hrest, rfl⟩
  | .this _, h, depth => by
    refine spine_literal (fun rest position hrest => ?_) (opens_expression depth h)
    exact ⟨_, _, literalOrWord?_word "this".toList (by decide) hrest, rfl⟩

theorem argumentsRead : (arguments : List Argument) → argumentsWellFormed arguments →
    (depth : Nat) → ArgumentsRead depth arguments
  | [], _, _ => ⟨by simp, by simp⟩
  | .positional value _ :: arguments, h, depth =>
    argumentsRead_cons
      (argumentReads_positional h.1 (readsBack_expr h.1 (spine_expr value h.1 depth)))
      rfl (argumentsRead arguments h.2 depth)
  | .named _ value _ :: arguments, h, depth =>
    argumentsRead_cons
      (argumentReads_named h.1 h.2.1 (readsBack_expr h.2.1 (spine_expr value h.2.1 depth)))
      rfl (argumentsRead arguments h.2.2 depth)
  | .lambda (.mk statements _) _ :: arguments, h, depth => by
    obtain rfl := h.2
    exact argumentsRead_lambda (lambdaReads_lambdaText (statementsRead statements h.1 (depth + 1)))

theorem statementsRead : (statements : List Statement) → statementsWellFormed statements →
    (depth : Nat) → ∀ statement ∈ statements,
      StatementReads statement (statement.renderAt depth).toList
  | [], _, _ => by simp
  | statement :: statements, h, depth =>
    List.forall_mem_cons.mpr
      ⟨statementReads statement h.1 depth, statementsRead statements h.2 depth⟩

theorem statementReads : (statement : Statement) → statement.WellFormed → (depth : Nat) →
    StatementReads statement (statement.renderAt depth).toList
  | .importName _ _, h, _ => h.elim
  | .assignment none _ _ value _, h, depth =>
    statementReads_assignment ⟨h.1, h.2.1⟩ h.2.2
      (readsBack_expr ⟨h.1, h.2.1⟩ (spine_property h.2.1))
      (readsBack_expr h.2.2 (spine_expr value h.2.2 depth))
  | .assignment (some receiver) _ _ value _, h, depth =>
    statementReads_assignment ⟨h.1, h.2.1⟩ h.2.2
      (readsBack_expr ⟨h.1, h.2.1⟩
        (spine_property_member (spine_expr receiver h.1 depth) h.2.1))
      (readsBack_expr h.2.2 (spine_expr value h.2.2 depth))
  | .localValue _ value _, h, depth =>
    statementReads_local h.1 h.2 (readsBack_expr h.2 (spine_expr value h.2 depth))
  | .expr value, h, depth => statementReads_expr h (readsBack_expr h (spine_expr value h depth))

end

end ConfigScript
