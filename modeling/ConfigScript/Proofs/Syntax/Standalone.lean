import ConfigScript.Proofs.Syntax.Crossing
import ConfigScript.Proofs.Syntax.Halting
import ConfigScript.Proofs.Syntax.Walked

/-!
# Expressions that stand alone

An expression that fills a source is read alike as an expression and as the only statement of a
script. The two readings pass over different spacing around it: the script also over semicolons, and
behind the expression it asks for a line end, which a carriage return is only in front of a line
feed.
-/

namespace ConfigScript

open ConfigScript.Parser

/-- A semicolon of a source outside of its strings, comments and lambdas. -/
def OuterSemicolon (source : String) : Prop :=
  ∃ front back region opened, source.toList = front ++ ';' :: back ∧
    Scan.start.through front = some ⟨region, opened⟩ ∧ region.isCode = true ∧ '\x7b' ∉ opened

variable {source : String} {cursor start after behind next stop : Cursor} {value : Expr}

theorem outerSemicolon_iff : OuterSemicolon source ↔
    ∃ count < source.toList.length, source.toList[count]? = some ';' ∧
      (Scan.start.through (source.toList.take count)).any
        (fun scan => scan.region.isCode && !scan.opened.contains '\x7b') = true := by
  constructor
  · rintro ⟨front, back, region, opened, hsource, hthrough, hcode, hopened⟩
    refine ⟨front.length, ?_, ?_, ?_⟩
    · rw [hsource, List.length_append, List.length_cons]
      omega
    · rw [hsource, List.getElem?_append_right (Nat.le_refl _), Nat.sub_self]
      rfl
    · rw [hsource, List.take_left, hthrough]
      simp [hcode, hopened]
  · rintro ⟨count, hcount, hsemicolon, hscan⟩
    obtain ⟨⟨region, opened⟩, hthrough, houter⟩ := (Option.any_eq_true _ _).mp hscan
    obtain ⟨hcode, hopened⟩ := Bool.and_eq_true_iff.mp houter
    refine ⟨source.toList.take count, source.toList.drop (count + 1), region, opened, ?_, hthrough,
      hcode, by simpa using hopened⟩
    rw [← Option.some.inj ((List.getElem?_eq_getElem hcount).symm.trans hsemicolon),
      List.getElem_cons_drop, List.take_append_drop]

instance : Decidable (OuterSemicolon source) :=
  decidable_of_iff _ outerSemicolon_iff.symm

namespace Spacing

/-- Spacing inside an expression is spacing between statements, and all of it when no semicolon
comes next. -/
theorem skip_separators_of_multiline (h : multiline.skip cursor = .ok stop)
    (hsemicolon : stop.rest.head? ≠ some ';') : separators.skip cursor = .ok stop := by
  have hstopped : separators.skip stop = .ok stop := by
    refine skip_stopped h (fun c hc => ?_) stop.position
    have hmultiline := stopped_of_skipFrom h c hc
    have hne : c ≠ ';' := by
      rintro rfl
      exact hsemicolon hc
    simp only [skips] at hmultiline ⊢
    simp [hmultiline, hne]
  rw [skip_staged narrower_separators, h]
  exact hstopped

/-- Spacing between statements is spacing inside an expression, unless there is a semicolon in
it. -/
theorem skip_multiline_of_separators (h : separators.skip cursor = .ok stop) :
    multiline.skip cursor = .ok stop ∨ ∃ gap back next, cursor.Reads gap next ∧
      next.rest = ';' :: back ∧
        ∀ opened, (⟨.code, opened⟩ : Scan).through gap = some ⟨.code, opened⟩ := by
  have hnarrower : multiline.Narrower .separators := narrower_separators
  have hstaged := h
  rw [skip_staged hnarrower] at hstaged
  obtain ⟨next, hnext, -⟩ := Fallible.bind_eq_ok.mp hstaged
  by_cases hsemicolon : next.rest.head? = some ';'
  · obtain ⟨back, hback⟩ := List.head?_eq_some_iff.mp hsemicolon
    obtain ⟨gap, hreads, -, hgap⟩ := reads_of_skip hnext
    have hopen : ¬ BreaksLine next.rest := fun hbreak => by
      rcases hbreak ';' hsemicolon with heq | heq <;> cases heq
    exact .inr ⟨gap, back, next, hreads, hback, fun _ => (hgap.resolve_left hopen).through⟩
  · have hall := skip_separators_of_multiline hnext hsemicolon
    exact .inl (Except.ok.inj (hall.symm.trans h) ▸ hnext)

end Spacing

namespace Parser

/-- A text of nothing but spacing inside an expression ends a statement. -/
theorem endsStatement_of_skip (h : Spacing.multiline.skip cursor = .ok stop)
    (hend : stop.rest = []) : EndsStatement cursor.rest := by
  obtain ⟨gap, hreads, hgap, -⟩ := Spacing.reads_of_skip h
  have hmeets : Spacing.multiline.Meets (gap ++ []) (· = none) :=
    hgap.meets (by simp [BreaksLine]) (Spacing.meets_nil rfl)
  rw [hreads.rest, hend]
  refine endsStatement_of_meets (hgap.delimited delimited_nil) ?_ ?_
  · refine hmeets.narrow Spacing.inline_narrower ?_ ?_
    · rintro d rfl
      simp
    · intro c hc
      refine ⟨?_, ?_, ?_⟩ <;> rintro ⟨⟩ <;> cases hc
  · refine hmeets.imp ?_
    rintro d rfl
    simp

/-- The end of a statement is spacing between statements. -/
theorem skip_of_statementEnd (h : statementEnd behind = .ok after)
    (hskip : Spacing.separators.skip after = .ok stop) :
    Spacing.separators.skip behind = .ok stop := by
  obtain ⟨next, hnext, h⟩ := Fallible.bind_eq_ok.mp h
  rw [Spacing.skip_staged Spacing.inline_narrower, hnext]
  obtain ⟨rest, position⟩ := next
  dsimp only at h
  change Spacing.separators.skip ⟨rest, position⟩ = .ok stop
  split at h
  · cases h
    exact hskip
  · cases h
    exact (Spacing.skip_cons rfl).trans hskip
  · cases h
    exact (Spacing.skip_cons rfl).trans hskip
  · cases h
    exact (Spacing.skip_cons rfl).trans ((Spacing.skip_cons rfl).trans hskip)
  · cases h
    exact hskip
  · cases h

/-- In front of nothing but spacing a statement ends, or a carriage return keeps it from that. -/
theorem statementEnd_of_skip (h : Spacing.multiline.skip cursor = .ok stop)
    (hend : stop.rest = []) :
    (∃ ended, statementEnd cursor = .ok ended ∧ Spacing.separators.skip ended = .ok stop) ∨
      ∃ place rest, cursor.Precedes place ∧ place.rest = '\r' :: rest ∧ rest.head? ≠ some '\n' ∧
        statementEnd cursor = .error (.ofCursor .expectedEndOfStatement place) := by
  have hall : Spacing.separators.skip cursor = .ok stop :=
    Spacing.skip_separators_of_multiline h (by simp [hend])
  rw [Spacing.skip_staged Spacing.inline_narrower] at h hall
  obtain ⟨place, hplace, hmultiline⟩ := Fallible.bind_eq_ok.mp h
  have hseparators : Spacing.separators.skip place = .ok stop := by
    rw [hplace] at hall
    exact hall
  obtain ⟨gap, hreads, -⟩ := Spacing.reads_of_skip hplace
  obtain ⟨_ | ⟨c, rest⟩, position⟩ := place
  · refine .inl ⟨_, ?_, hseparators⟩
    rw [statementEnd, hplace]
    rfl
  have hfeed : c = '\n' ∨ c = '\r' := by
    have hinline := Spacing.stopped_of_skipFrom hplace c rfl
    by_contra hother
    have hskips : ∀ d ∈ (c :: rest).head?, Spacing.multiline.skips d = false := by
      rintro _ ⟨⟩
      simp only [Spacing.skips] at hinline ⊢
      simp [hinline, not_or.mp hother]
    have hstopped := Spacing.skip_stopped hplace hskips position
    obtain rfl := Except.ok.inj (hstopped.symm.trans hmultiline)
    cases hend
  rcases hfeed with rfl | rfl
  · refine .inl ⟨⟨rest, position.after '\n'⟩, ?_, (Spacing.skip_cons rfl).symm.trans hseparators⟩
    rw [statementEnd, hplace]
    rfl
  cases rest with
  | nil =>
    refine .inr ⟨_, [], hreads.precedes, rfl, by simp, ?_⟩
    rw [statementEnd, hplace]
    rfl
  | cons d rest =>
    by_cases hd : d = '\n'
    · subst hd
      refine .inl ⟨⟨rest, (position.after '\r').after '\n'⟩, ?_,
        ((Spacing.skip_cons rfl).trans (Spacing.skip_cons rfl)).symm.trans hseparators⟩
      rw [statementEnd, hplace]
      rfl
    · refine .inr ⟨_, d :: rest, hreads.precedes, rfl, by simpa using hd, ?_⟩
      rw [statementEnd, hplace]
      simp [bind, Except.bind, hd, throw, throwThe, MonadExceptOf.throw]

/-- An expression that is followed by the end of a statement is the statement, as far as that end can
be read. -/
theorem topLevelStatement_of_expression
    (h : expression (Parser.budget start) start = .ok (some (value, after)))
    (hfollow : EndsStatement after.rest) :
    topLevelStatement start = (do return (.expr value, ← statementEnd after)) := by
  obtain ⟨text, hreads, hleading, hreread⟩ := (relocates _).expression h
  have hbudget : 8 * text.length + 2 ≤ Parser.budget start := by
    rw [Parser.budget, hreads.rest, List.length_append]
    omega
  have himport : start.keyword? "import" = none :=
    keyword?_of_expression h hfollow.toEndsExpression (by decide)
  have hread : statement (Parser.budget start) start = .ok (.expr value, after) := by
    have hagain := rereadsStatement_of_expr hleading hreread (Parser.budget start) after.rest
      Carries.refl hfollow hbudget
    rw [← hreads.rest, ← hreads.position] at hagain
    simpa only [Statement.mapSpans_id] using hagain
  rw [topLevelStatement, importStatement, himport]
  simp [bind, Except.bind, hread, pure, Except.pure]

theorem statementsFrom_of_end {budget : Nat} {started : Bool}
    (hskip : Spacing.separators.skip cursor = .ok stop) (hend : stop.rest = []) :
    statementsFrom (budget + 1) started cursor = ⟨[], [], stop⟩ := by
  rw [statementsFrom, hskip]
  simp [hend]

theorem skip_of_statementsFrom {budget : Nat} {started : Bool}
    (h : (statementsFrom budget started cursor).failures = [])
    (hnone : (statementsFrom budget started cursor).statements = []) :
    ∃ stop, Spacing.separators.skip cursor = .ok stop ∧ stop.rest = [] := by
  cases budget with
  | zero => cases h
  | succ budget =>
    obtain ⟨stop, hstop, ⟨hend, -⟩ | ⟨first, after, -, -, -, -, hcons⟩⟩ := statementsFrom_cases h
    · exact ⟨stop, hstop, hend⟩
    · rw [hcons] at hnone
      cases hnone

theorem expression_of_topLevelStatement (h : topLevelStatement start = .ok (.expr value, after)) :
    ∃ budget behind, expression budget start = .ok (some (value, behind)) ∧
      statementEnd behind = .ok after := by
  obtain ⟨behind, himport | ⟨-, hread⟩, hended⟩ := topLevelStatement_cases h
  · obtain ⟨_, _, _, _, _, _, hresult⟩ := importStatement_cases himport
    cases hresult
  obtain ⟨budget, hbudget⟩ : ∃ budget, Parser.budget start = budget + 1 :=
    Nat.exists_eq_add_of_le' (by rw [Parser.budget]; omega)
  rw [hbudget] at hread
  rcases statement_cases hread with ⟨_, _, _, _, _, _, _, _, _, _, _, _, _, _, _, hresult⟩ |
    ⟨target, found, sign, -, -, hvalue, -, ⟨-, hresult, rfl⟩ |
      ⟨_, _, _, _, _, _, _, _, _, _, hresult⟩⟩
  · cases hresult
  · cases hresult
    exact ⟨budget, _, hvalue, hended⟩
  · cases hresult

end Parser

/-- The steps in which an expression fills a source. -/
theorem Expr.parse_eq_ok : Expr.parse source = .ok value ↔ ∃ start after stop,
    Spacing.multiline.skip (.ofSource source) = .ok start ∧
      expression (Parser.budget start) start = .ok (some (value, after)) ∧
      Spacing.multiline.skip after = .ok stop ∧ stop.rest = [] := by
  unfold Expr.parse Expr.parse.read
  rw [Fallible.mapError_eq_ok]
  constructor
  · intro h
    obtain ⟨start, hstart, h⟩ := Fallible.bind_eq_ok.mp h
    obtain ⟨found, after, hvalue, h⟩ := required_eq_ok h
    obtain ⟨stop, hstop, h⟩ := Fallible.bind_eq_ok.mp h
    split at h
    · rename_i hend
      cases h
      exact ⟨start, after, stop, hstart, hvalue, hstop, List.isEmpty_iff.mp hend⟩
    · cases h
  · rintro ⟨start, after, stop, hstart, hvalue, hstop, hend⟩
    simp [bind, Except.bind, hstart, hvalue, require, hstop, hend, pure, Except.pure]

/-- An expression that fills a source is the only statement of the script, or its script breaks off
at a carriage return. -/
theorem Block.parse_of_expression {label : String} (h : Expr.parse source = .ok value) :
    (∃ span, Block.parse label source = .ok (.mk [.expr value] span)) ∨
      ∃ (before rest : List Char) (failures : ParseFailures),
        source.toList = before ++ '\r' :: rest ∧ rest.head? ≠ some '\n' ∧
          Block.parse label source = .error failures ∧
          .ofCursor .expectedEndOfStatement ⟨'\r' :: rest, Position.origin.afterAll before⟩ ∈
            failures.failures := by
  obtain ⟨start, after, stop, hstart, hvalue, hstop, hend⟩ := Expr.parse_eq_ok.mp h
  obtain ⟨text, hreads, hleading, hreread⟩ := (relocates _).expression hvalue
  have hsolid : Spacing.Solid start.rest := hreads.solid hleading.solid
  have hfollow := endsStatement_of_skip hstop hend
  have hskip : Spacing.separators.skip (.ofSource source) = .ok start := by
    refine Spacing.skip_separators_of_multiline hstart fun hsemicolon => ?_
    obtain ⟨c, hc, hsolid⟩ := hsolid
    obtain rfl := Option.some.inj (hc.symm.trans hsemicolon)
    cases hsolid
  have hfirst := topLevelStatement_of_expression hvalue hfollow
  obtain ⟨gap, hgap, -⟩ := Spacing.reads_of_skip hstart
  have hsource : source.toList = gap ++ start.rest := hgap.rest
  rcases statementEnd_of_skip hstop hend with ⟨ended, hended, hlast⟩ |
    ⟨place, rest, ⟨tail, htail⟩, hreturn, hfeed, hended⟩
  · rw [hended] at hfirst
    obtain ⟨length, hlength⟩ : ∃ length, source.toList.length = length + 1 := by
      refine Nat.exists_eq_add_of_le' (List.length_pos_of_ne_nil ?_)
      rw [hsource]
      exact List.append_ne_nil_of_right_ne_nil _ hsolid.ne_nil
    have hread : statementsFrom (source.toList.length + 1) false (.ofSource source) =
        ⟨[.expr value], [], stop⟩ := by
      rw [statementsFrom_of_cons hskip hsolid.ne_nil hfirst (by simp), hlength,
        statementsFrom_of_end hlast hend]
      rfl
    exact .inl ⟨_, Block.parse_eq_ok.mpr ⟨by rw [hread], by rw [hread]⟩⟩
  · rw [hended] at hfirst
    have hfailure : .ofCursor .expectedEndOfStatement place ∈ scriptFailures source := by
      rw [scriptFailures, statementsFrom, hskip]
      simp [hsolid.ne_nil, hfirst, bind, Except.bind]
    have hwhole := hgap.trans (hreads.trans htail)
    refine .inr ⟨gap ++ (text ++ tail), rest, ⟨label, scriptFailures source⟩, ?_, hfeed,
      parse_eq_error_iff.mpr ⟨List.ne_nil_of_mem hfailure, rfl⟩, ?_⟩
    · rw [← hreturn]
      exact hwhole.rest
    · rw [← hreturn]
      have hposition : place.position = Position.origin.afterAll (gap ++ (text ++ tail)) :=
        hwhole.position
      rw [← hposition]
      exact hfailure

/-- The only statement of a script fills it, when all semicolons stand inside of it. -/
theorem Expr.parse_of_block {label : String} {span : Span}
    (h : Block.parse label source = .ok (.mk [.expr value] span))
    (houter : ¬ OuterSemicolon source) : Expr.parse source = .ok value := by
  obtain ⟨hnone, hblock⟩ := Block.parse_eq_ok.mp h
  obtain ⟨hstatements, -⟩ := Block.mk.inj hblock
  obtain ⟨start, hskip, ⟨-, hnil⟩ | ⟨first, ended, -, hfirst, -, hlater, hcons⟩⟩ :=
    statementsFrom_cases hnone
  · rw [hnil] at hstatements
    cases hstatements
  rw [hcons] at hstatements
  obtain ⟨rfl, hrest⟩ := List.cons.inj hstatements
  obtain ⟨stop, hlast, hend⟩ := skip_of_statementsFrom hlater hrest.symm
  obtain ⟨budget, behind, hvalue, hended⟩ := expression_of_topLevelStatement hfirst
  obtain ⟨text, hreads, hleading, hreread⟩ := (relocates _).expression hvalue
  -- A semicolon in front of the expression or behind it would stand in code.
  have hstart : Spacing.multiline.skip (.ofSource source) = .ok start := by
    refine (Spacing.skip_multiline_of_separators hskip).resolve_right ?_
    rintro ⟨gap, back, next, hgap, hback, hthrough⟩
    exact houter ⟨gap, back, .code, [], hback ▸ hgap.rest, hthrough [], rfl, by simp⟩
  have hstop : Spacing.multiline.skip behind = .ok stop := by
    refine (Spacing.skip_multiline_of_separators (skip_of_statementEnd hended hlast)).resolve_right
      ?_
    rintro ⟨tail, back, next, htail, hback, hthrough⟩
    obtain ⟨gap, hgap, hgapThrough⟩ := Spacing.gap_of_skip hstart (hreads.solid hleading.solid)
    obtain ⟨front, hfront, hneutral⟩ := (balances _).expression hvalue
    refine houter ⟨gap ++ (front ++ tail), back, .code, [],
      hback ▸ (hgap.trans (hfront.trans htail)).rest, ?_, rfl, by simp⟩
    have hall := (Neutral.gap hgapThrough).append (hneutral.append hthrough)
    exact hall []
  refine Expr.parse_eq_ok.mpr ⟨start, behind, stop, hstart, ?_, hstop, hend⟩
  have hbudget : 8 * text.length + 1 ≤ Parser.budget start := by
    rw [Parser.budget, hreads.rest, List.length_append]
    omega
  have hagain := hreread (Parser.budget start) behind.rest Carries.refl
    (endsStatement_of_skip hstop hend).toEndsExpression hbudget
  rw [← hreads.rest, ← hreads.position] at hagain
  simpa only [Expr.mapSpans_id] using hagain

/-- A source is read alike as an expression and as a script, in either direction. An expression is
the only statement of its script, with the same spans, unless the script breaks off at a carriage
return behind it; and the only statement of a script is the expression, with the same spans, unless
a semicolon stands outside of it. -/
theorem parse_standalone (label source : String) (value : Expr) :
    (Expr.parse source = .ok value →
      (∃ span, Block.parse label source = .ok (.mk [.expr value] span)) ∨
        ∃ (before rest : List Char) (failures : ParseFailures),
          source.toList = before ++ '\r' :: rest ∧ rest.head? ≠ some '\n' ∧
            Block.parse label source = .error failures ∧
            .ofCursor .expectedEndOfStatement ⟨'\r' :: rest, Position.origin.afterAll before⟩ ∈
              failures.failures) ∧
      ∀ span, Block.parse label source = .ok (.mk [.expr value] span) → ¬ OuterSemicolon source →
        Expr.parse source = .ok value :=
  ⟨Block.parse_of_expression, fun _ => Expr.parse_of_block⟩

/-- A call between comments, with semicolons in its lambda. -/
def lambdaSource : String :=
  "// one\nrun(1) \x7b a; b = 2; \x7d // two;\r\n"

theorem parse_standalone_lambda : ∃ value span,
    Expr.parse lambdaSource = .ok value ∧
      Block.parse "script" lambdaSource = .ok (.mk [.expr value] span) ∧
      ¬ OuterSemicolon lambdaSource := by
  have hread : (Expr.parse lambdaSource).toOption.isSome ∧
      (Block.parse "script" lambdaSource).toOption.isSome := by
    decide +kernel
  have houter : ¬ OuterSemicolon lambdaSource := by
    decide +kernel
  obtain ⟨value, hvalue⟩ := Option.isSome_iff_exists.mp hread.1
  obtain ⟨hscript, hexpression⟩ := parse_standalone "script" lambdaSource value
  rcases hscript (Fallible.toOption_eq_some.mp hvalue) with ⟨span, hblock⟩ |
    ⟨before, rest, failures, -, -, hfailed, -⟩
  · exact ⟨value, span, hexpression span hblock houter, hblock, houter⟩
  · rw [hfailed] at hread
    cases hread.2

/-- An expression in front of a carriage return at the end of the source, and the script that it is
refused as. -/
theorem parse_standalone_return :
    Expr.parse "x\r" = .ok (.property none "x" ⟨0, 1, 1, 1⟩) ∧
      Block.parse "script" "x\r" =
        .error ⟨"script", [⟨.expectedEndOfStatement, ⟨1, 1, 2⟩, "end of input"⟩]⟩ := by
  have hfailures : scriptFailures "x\r" =
      [⟨.expectedEndOfStatement, ⟨1, 1, 2⟩, "end of input"⟩] := by
    decide +kernel
  exact ⟨rfl, parse_eq_error_iff.mpr ⟨by simp [hfailures], by rw [hfailures]⟩⟩

end ConfigScript
