import ConfigScript.Proofs.Syntax.Gaps
import ConfigScript.Syntax.Parser

/-!
# Ends of statements

What ends a statement ends it again in front of other text, so long as a statement that ran to the
end of its source, or up to a brace, is not taken further. What stands on later lines matters too:
a dot there would ask for a member of the value in front of it.
-/

namespace ConfigScript

open ConfigScript.Parser Spacing

variable {text gap rest others cs : List Char} {c : Char} {target : Position}
  {behind ended : Cursor}

/-- A text that neither continues the expression in front of it nor assigns to it. -/
structure EndsStatement (rest : List Char) : Prop extends EndsExpression rest where
  unassigned : Unassigned .inline rest

/-- Nothing that ends an expression begins with a dot. -/
theorem EndsExpression.head?_ne_dot (h : EndsExpression rest) : rest.head? ≠ some '.' := by
  cases rest with
  | nil => simp
  | cons c rest =>
    rw [List.head?_cons, ne_eq, Option.some.injEq]
    rintro rfl
    have hdot : charAfter .multiline '.' ⟨'.' :: rest, .origin⟩ =
        .ok (some ⟨rest, Position.origin.after '.'⟩) := by
      rw [charAfter_eq (Spacing.skip_stop rfl (by decide)), Cursor.char?_self]
    rw [h.noMember] at hdot
    cases hdot

/-- A text that ends a statement in front of a rest: a mark or a line end, or nothing but spacing
where the source ends or a brace closes the block. -/
inductive Ending : List Char → List Char → Prop where
  | source {gap : List Char} (hgap : Spacing.inline.LineGap gap) : Ending gap []
  | brace {gap cs : List Char} (hgap : Spacing.inline.Gap gap) : Ending gap ('\x7d' :: cs)
  | semicolon {gap rest : List Char} (hgap : Spacing.inline.Gap gap) : Ending (gap ++ [';']) rest
  | feed {gap rest : List Char} (hgap : Spacing.inline.LineGap gap) : Ending (gap ++ ['\n']) rest
  | returnFeed {gap rest : List Char} (hgap : Spacing.inline.LineGap gap) :
    Ending (gap ++ ['\r', '\n']) rest

theorem ending_of_statementEnd (h : statementEnd behind = .ok ended) :
    ∃ text, behind.Reads text ended ∧ Ending text ended.rest := by
  obtain ⟨stop, hstop, h⟩ := Fallible.bind_eq_ok.mp h
  obtain ⟨gap, hreads, hline, hgap⟩ := reads_of_skip hstop
  have hdrop := fun count => hreads.trans (stop.reads_drop count)
  have hmark : ∀ {c cs}, stop.rest = c :: cs → c ≠ '\n' → c ≠ '\r' → Spacing.inline.Gap gap := by
    intro c cs hrest hfeed hreturn
    refine hgap.resolve_left fun hbreak => ?_
    rcases hbreak c (by simp [hrest]) with heq | heq
    · exact hfeed heq
    · exact hreturn heq
  split at h
  · rename_i hrest
    cases h
    exact ⟨gap, hreads, hrest ▸ .source hline⟩
  · rename_i hrest
    cases h
    exact ⟨_, hdrop 1, by
      rw [hrest]
      exact .semicolon (hmark hrest (by decide) (by decide))⟩
  · rename_i hrest
    cases h
    exact ⟨_, hdrop 1, by
      rw [hrest]
      exact .feed hline⟩
  · rename_i hrest
    cases h
    exact ⟨_, hdrop 2, by
      rw [hrest]
      exact .returnFeed hline⟩
  · rename_i hrest
    cases h
    exact ⟨gap, hreads, hrest ▸ .brace (hmark hrest (by decide) (by decide))⟩
  · cases h

/-- What may take the place of a rest behind the end of a statement. -/
structure Resumes (rest others : List Char) : Prop where
  source : rest = [] → others = [] ∨ ∃ cs, others = '\n' :: cs
  brace : ∀ cs, rest = '\x7d' :: cs → ∃ cs, others = '\x7d' :: cs
  next : Spacing.separators.Meets others (· ≠ some '.')

/-- The same front may stand there again, whatever follows it. -/
theorem resumes_append (front tail : List Char) (hfront : front ≠ [])
    (hnext : Spacing.separators.Meets (front ++ others) (· ≠ some '.')) :
    Resumes (front ++ tail) (front ++ others) := by
  cases front with
  | nil => exact absurd rfl hfront
  | cons c front =>
    refine ⟨nofun, fun cs hbrace => ?_, hnext⟩
    obtain ⟨rfl, -⟩ := List.cons.inj hbrace
    exact ⟨front ++ others, rfl⟩

theorem Spacing.Meets.multiline (h : Spacing.separators.Meets others (· ≠ some '.')) :
    Spacing.multiline.Meets others (· ≠ some '.') := by
  refine h.narrow narrower_separators (fun _ hd => hd) ?_
  rintro c hskips ⟨⟩
  cases hskips

theorem endsStatement_of_meets (hrest : Delimited rest)
    (hinline : Spacing.inline.Meets rest
      fun d => d ≠ some '(' ∧ d ≠ some '\x7b' ∧ d ≠ some '=')
    (hnext : Spacing.multiline.Meets rest (· ≠ some '.')) : EndsStatement rest where
  toEndsExpression := by
    refine endsExpression_of_meets (endsMember_of_meets hrest ?_) hnext
    exact hinline.imp fun d hd => ⟨hd.1, hd.2.1⟩
  unassigned := unassigned_of_meets (hinline.imp fun d hd => hd.2.2)

/-- A statement ends in front of a line end. -/
theorem endsStatement_line (hgap : Spacing.inline.LineGap gap) (hbreak : BreaksLine cs)
    (hnext : Spacing.multiline.Meets cs (· ≠ some '.')) : EndsStatement (gap ++ cs) := by
  have hinline : Spacing.inline.Meets cs
      fun d => d ≠ some '(' ∧ d ≠ some '\x7b' ∧ d ≠ some '=' := by
    cases cs with
    | nil => exact meets_nil (by simp)
    | cons c cs =>
      rcases hbreak c rfl with rfl | rfl
      · exact meets_cons rfl (by decide) (by simp)
      · exact meets_cons rfl (by decide) (by simp)
  have hdelimited : Delimited cs := by
    intro c hc
    rcases hbreak c hc with rfl | rfl <;> decide
  exact endsStatement_of_meets (hgap.delimited hdelimited) (hgap.meets hbreak hinline)
    ((hgap.widen inline_narrower).meets hbreak hnext)

/-- A statement ends in front of a semicolon or a brace. -/
theorem endsStatement_mark (hgap : Spacing.inline.Gap gap) (hc : c = ';' ∨ c = '\x7d') :
    EndsStatement (gap ++ c :: cs) := by
  have hstop : continuesIdentifier c = false ∧ Spacing.inline.skips c = false ∧
      Spacing.multiline.skips c = false ∧ c ≠ '/' := by
    rcases hc with rfl | rfl <;> decide
  obtain ⟨hword, hinline, hmultiline, hslash⟩ := hstop
  refine endsStatement_of_meets (hgap.lineGap.delimited (delimited_cons.mpr hword)) ?_ ?_
  · refine hgap.meets (meets_cons hinline hslash ?_)
    rcases hc with rfl | rfl <;> simp
  · refine (hgap.widen inline_narrower).meets (meets_cons hmultiline hslash ?_)
    rcases hc with rfl | rfl <;> simp

namespace Ending

theorem endsStatement (h : Ending text rest) (hothers : Resumes rest others) :
    EndsStatement (text ++ others) := by
  have hfeed : ∀ {cs}, Spacing.multiline.Meets cs (· ≠ some '.') →
      Spacing.multiline.Meets ('\n' :: cs) (· ≠ some '.') := fun hcs => meets_skipped rfl hcs
  cases h with
  | source hgap =>
    refine endsStatement_line hgap ?_ hothers.next.multiline
    rcases hothers.source rfl with rfl | ⟨cs, rfl⟩ <;> simp [BreaksLine]
  | brace hgap =>
    obtain ⟨cs, rfl⟩ := hothers.brace _ rfl
    exact endsStatement_mark hgap (.inr rfl)
  | semicolon hgap =>
    rw [List.append_assoc]
    exact endsStatement_mark hgap (.inl rfl)
  | feed hgap =>
    rw [List.append_assoc]
    exact endsStatement_line hgap (by simp [BreaksLine]) (hfeed hothers.next.multiline)
  | returnFeed hgap =>
    rw [List.append_assoc]
    exact endsStatement_line hgap (by simp [BreaksLine])
      (meets_skipped rfl (hfeed hothers.next.multiline))

/-- The statement ends again, up to what the next one would skip. -/
theorem again (h : Ending text rest) (hothers : Resumes rest others) (target : Position) :
    ∃ ended, statementEnd ⟨text ++ others, target⟩ = .ok ended ∧
      Spacing.separators.skip ended =
        Spacing.separators.skip ⟨others, target.afterAll text⟩ := by
  have hend : ∀ {gap cs}, Spacing.inline.LineGap gap → BreaksLine cs →
      (∀ position, Spacing.inline.skip ⟨cs, position⟩ = .ok ⟨cs, position⟩) →
      Spacing.inline.skip ⟨gap ++ cs, target⟩ = .ok ⟨cs, target.afterAll gap⟩ :=
    fun hgap hbreak hstop => (hgap _ _ hbreak).trans (hstop _)
  cases h with
  | source hgap =>
    rcases hothers.source rfl with rfl | ⟨cs, rfl⟩
    · refine ⟨_, ?_, rfl⟩
      rw [statementEnd, hend hgap (by simp [BreaksLine]) fun _ => skip_nil]
      rfl
    · refine ⟨⟨cs, (target.afterAll text).after '\n'⟩, ?_, (skip_cons rfl).symm⟩
      rw [statementEnd, hend hgap (by simp [BreaksLine]) fun _ => skip_stop rfl (by decide)]
      rfl
  | brace hgap =>
    obtain ⟨cs, rfl⟩ := hothers.brace _ rfl
    refine ⟨_, ?_, rfl⟩
    rw [statementEnd, hgap, skip_stop rfl (by decide)]
    rfl
  | semicolon hgap =>
    refine ⟨_, ?_, rfl⟩
    rw [statementEnd, List.append_assoc, hgap, Position.afterAll_append, List.singleton_append,
      skip_stop rfl (by decide)]
    rfl
  | feed hgap =>
    refine ⟨_, ?_, rfl⟩
    rw [statementEnd, List.append_assoc, Position.afterAll_append, List.singleton_append,
      hend hgap (by simp [BreaksLine]) fun _ => skip_stop rfl (by decide)]
    rfl
  | returnFeed hgap =>
    refine ⟨_, ?_, rfl⟩
    rw [statementEnd, List.append_assoc, Position.afterAll_append, List.cons_append,
      List.singleton_append,
      hend hgap (by simp [BreaksLine]) fun _ => skip_stop rfl (by decide)]
    rfl

end Ending

end ConfigScript
