import ConfigScript.Proofs.Syntax.Elsewhere
import ConfigScript.Proofs.Syntax.Joined

/-!
# The way through a script

A script is read from place to place: at each one a statement begins, and behind it, or behind what
is passed over when it is broken, comes the next. Which failures a script has is told from these
places alone, and from whether an import has to stand in front of the statement at each of them.
-/

namespace ConfigScript

namespace Parser

variable {budget : Nat} {started : Bool} {cursor start : Cursor} {starts : List Cursor}
  {closing : List Failure} {failure : Failure}

/-- Where reading goes on behind what begins at a place. -/
def resume (start : Cursor) : Cursor :=
  match topLevelStatement start with
  | .ok (_, after) => after
  | .error _ => recover start

/-- Whether a statement is read at a place that is an import. -/
def ReadsImport (start : Cursor) : Prop :=
  ∃ result after, topLevelStatement start = .ok (result, after) ∧ result.isImport = true

/-- Whether imports may no longer stand behind what begins at a place. -/
def endsImports (start : Cursor) : Bool :=
  match topLevelStatement start with
  | .ok (result, _) => !result.isImport
  | .error _ => true

/-- What is reported at a place. -/
def reported (started : Bool) (start : Cursor) : List Failure :=
  match topLevelStatement start with
  | .ok (result, _) =>
    if started && result.isImport then [.ofCursor .misplacedImport start] else []
  | .error failure => [failure]

/-- What is reported at places one behind another. -/
def reports : Bool → List Cursor → List Failure
  | _, [] => []
  | started, start :: starts =>
    reported started start ++ reports (started || endsImports start) starts

/-- The way from a cursor to the end of the source: the places at which statements begin, and the
failure of a comment that is not closed, if one cuts it short. -/
inductive Walk : Cursor → List Cursor → List Failure → Prop where
  | finished {cursor start : Cursor} (hskip : Spacing.separators.skip cursor = .ok start)
    (hend : start.rest = []) : Walk cursor [] []
  | unterminated {cursor : Cursor} {failure : Failure}
    (hskip : Spacing.separators.skip cursor = .error failure) : Walk cursor [] [failure]
  | step {cursor start : Cursor} {starts : List Cursor} {closing : List Failure}
    (hskip : Spacing.separators.skip cursor = .ok start) (hmore : start.rest ≠ [])
    (hlater : Walk (resume start) starts closing) : Walk cursor (start :: starts) closing

theorem brokenLength_pos {quoting : Quoting} {brackets cs : List Char} (h : cs ≠ []) :
    0 < brokenLength quoting brackets cs := by
  cases cs with
  | nil => exact absurd rfl h
  | cons c cs =>
    cases quoting <;> rw [brokenLength] <;> (try simp) <;> split_ifs <;> omega

theorem advances_of_topLevelStatement {result : Statement} {after : Cursor}
    (h : topLevelStatement start = .ok (result, after)) : start.Advances after := by
  obtain ⟨text, behind, hreads, hfronts, -, hended⟩ := topLevelStatement_again h
  obtain ⟨ending, hending, -⟩ := ending_of_statementEnd hended
  exact (hreads.advances hfronts.solid.ne_nil).trans hending.precedes

theorem advances_recover (h : start.rest ≠ []) : start.Advances (recover start) := by
  refine (start.reads_drop _).advances ?_
  rw [ne_eq, List.take_eq_nil_iff, not_or]
  exact ⟨(brokenLength_pos h).ne', h⟩

/-- Reading goes on behind the place where a statement begins. -/
theorem advances_resume (h : start.rest ≠ []) : start.Advances (resume start) := by
  unfold resume
  split
  · rename_i hread
    exact advances_of_topLevelStatement hread
  · exact advances_recover h

theorem length_resume_lt (hskip : Spacing.separators.skip cursor = .ok start)
    (hmore : start.rest ≠ []) : (resume start).rest.length < cursor.rest.length := by
  obtain ⟨gap, hgap, -⟩ := Spacing.reads_of_skip hskip
  exact (hgap.precedes.advances (advances_resume hmore)).length_lt

/-- There is a way from everywhere to the end. -/
theorem exists_walk (cursor : Cursor) : ∃ starts closing, Walk cursor starts closing := by
  induction hlength : cursor.rest.length using Nat.strong_induction_on generalizing cursor with
  | _ length ih =>
    cases hskip : Spacing.separators.skip cursor with
    | error failure => exact ⟨[], [failure], .unterminated hskip⟩
    | ok start =>
      by_cases hmore : start.rest = []
      · exact ⟨[], [], .finished hskip hmore⟩
      · have hless := length_resume_lt hskip hmore
        obtain ⟨starts, closing, hwalk⟩ := ih _ (by omega) (resume start) rfl
        exact ⟨_, _, .step hskip hmore hwalk⟩

/-- The failures of a script are those of the way through it. -/
theorem Walk.failures (h : Walk cursor starts closing) (hbudget : cursor.rest.length < budget) :
    (statementsFrom budget started cursor).failures = reports started starts ++ closing := by
  induction h generalizing budget started with
  | finished hskip hend =>
    obtain ⟨budget, rfl⟩ := Nat.exists_eq_add_of_le' (show 1 ≤ budget by omega)
    rw [statementsFrom, hskip]
    simp [hend, reports]
  | unterminated hskip =>
    obtain ⟨budget, rfl⟩ := Nat.exists_eq_add_of_le' (show 1 ≤ budget by omega)
    rw [statementsFrom, hskip]
    rfl
  | @step cursor start starts closing hskip hmore hlater ih =>
    obtain ⟨budget, rfl⟩ := Nat.exists_eq_add_of_le' (show 1 ≤ budget by omega)
    have hless := length_resume_lt hskip hmore
    have hnext := @ih budget (started || endsImports start) (by omega)
    rw [statementsFrom, hskip, reports, List.append_assoc, ← hnext]
    unfold resume endsImports reported
    cases hread : topLevelStatement start with
    | error failure => simp [hmore, hread]
    | ok reading => simp [hmore, hread]

/-- What a script fails with. -/
def scriptFailures (source : String) : List Failure :=
  (statementsFrom (source.toList.length + 1) false (.ofSource source)).failures

theorem parse_eq_error_iff {label source : String} {failures : ParseFailures} :
    Block.parse label source = .error failures ↔
      scriptFailures source ≠ [] ∧ failures = ⟨label, scriptFailures source⟩ := by
  change (if (scriptFailures source).isEmpty then Except.ok _ else
    .error ⟨label, scriptFailures source⟩) = Except.error failures ↔ _
  split
  · rename_i hnone
    simp [List.isEmpty_iff.mp hnone]
  · rename_i hsome
    have hne : scriptFailures source ≠ [] := by simpa using hsome
    simp [hne, eq_comm]

/-- The way through a script tells its failures. -/
theorem Walk.scriptFailures {source : String} (h : Walk (.ofSource source) starts closing) :
    Parser.scriptFailures source = reports false starts ++ closing :=
  h.failures (Nat.lt_succ_self _)

theorem exists_walk_of_parse {label source : String} {failures : ParseFailures}
    (h : Block.parse label source = .error failures) :
    ∃ starts closing, Walk (.ofSource source) starts closing ∧
      failures.failures = reports false starts ++ closing := by
  obtain ⟨-, rfl⟩ := parse_eq_error_iff.mp h
  obtain ⟨starts, closing, hwalk⟩ := exists_walk (.ofSource source)
  exact ⟨starts, closing, hwalk, hwalk.scriptFailures⟩

/-- There is only one way. -/
theorem Walk.unique {others : List Cursor} {ending : List Failure} (h : Walk cursor starts closing)
    (hother : Walk cursor others ending) : starts = others ∧ closing = ending := by
  induction h generalizing others ending with
  | finished hskip hend =>
    cases hother with
    | finished => exact ⟨rfl, rfl⟩
    | unterminated hfail => cases hskip.symm.trans hfail
    | step hagain hmore =>
      obtain rfl := Except.ok.inj (hskip.symm.trans hagain)
      exact absurd hend hmore
  | unterminated hfail =>
    cases hother with
    | finished hskip => cases hfail.symm.trans hskip
    | unterminated hagain =>
      obtain rfl := Except.error.inj (hfail.symm.trans hagain)
      exact ⟨rfl, rfl⟩
    | step hskip => cases hfail.symm.trans hskip
  | step hskip hmore _ ih =>
    cases hother with
    | finished hagain hend =>
      obtain rfl := Except.ok.inj (hskip.symm.trans hagain)
      exact absurd hend hmore
    | unterminated hfail => cases hskip.symm.trans hfail
    | step hagain _ hlater =>
      obtain rfl := Except.ok.inj (hskip.symm.trans hagain)
      obtain ⟨rfl, rfl⟩ := ih hlater
      exact ⟨rfl, rfl⟩

/-- The places at which statements begin, as far as a budget goes. -/
def placesFrom : Nat → Cursor → List Cursor
  | 0, _ => []
  | budget + 1, cursor =>
    match Spacing.separators.skip cursor with
    | .error _ => []
    | .ok start => if start.rest.isEmpty then [] else start :: placesFrom budget (resume start)

theorem Walk.starts_eq (h : Walk cursor starts closing) (hbudget : cursor.rest.length < budget) :
    starts = placesFrom budget cursor := by
  induction h generalizing budget with
  | finished hskip hend =>
    obtain ⟨budget, rfl⟩ := Nat.exists_eq_add_of_le' (show 1 ≤ budget by omega)
    simp [placesFrom, hskip, hend]
  | unterminated hskip =>
    obtain ⟨budget, rfl⟩ := Nat.exists_eq_add_of_le' (show 1 ≤ budget by omega)
    simp [placesFrom, hskip]
  | step hskip hmore _ ih =>
    obtain ⟨budget, rfl⟩ := Nat.exists_eq_add_of_le' (show 1 ≤ budget by omega)
    have hless := length_resume_lt hskip hmore
    simp only [placesFrom, hskip, List.isEmpty_iff, hmore, if_false]
    rw [← ih (by omega)]

/-! ### Imports in their places -/

theorem endsImports_iff : endsImports start = true ↔ ¬ ReadsImport start := by
  unfold endsImports ReadsImport
  cases topLevelStatement start with
  | error failure => simp
  | ok reading =>
    obtain ⟨result, after⟩ := reading
    simp

instance : Decidable (ReadsImport start) :=
  decidable_of_iff (endsImports start = false) (by rw [← Bool.not_eq_true, endsImports_iff, not_not])

theorem mem_reported_misplaced : failure ∈ reported started start ∧
    failure.cause = .misplacedImport ↔
      started = true ∧ ReadsImport start ∧ failure = .ofCursor .misplacedImport start := by
  unfold reported ReadsImport
  cases hread : topLevelStatement start with
  | error fault =>
    obtain ⟨cause, place, -, hcause, rfl⟩ := failure_of_topLevelStatement hread
    constructor
    · rintro ⟨hmem, hmisplaced⟩
      obtain rfl := List.mem_singleton.mp hmem
      exact absurd hmisplaced hcause
    · rintro ⟨-, ⟨result, after, hok, -⟩, -⟩
      cases hok
  | ok reading =>
    constructor
    · rintro ⟨hmem, -⟩
      dsimp only at hmem
      split at hmem
      · rename_i hset
        obtain ⟨hstarted, himport⟩ := Bool.and_eq_true_iff.mp hset
        exact ⟨hstarted, ⟨_, _, rfl, himport⟩, List.mem_singleton.mp hmem⟩
      · cases hmem
    · rintro ⟨rfl, ⟨result, after, hok, himport⟩, rfl⟩
      obtain rfl := Except.ok.inj hok
      simp [himport, Failure.ofCursor]

theorem mem_reports : failure ∈ reports started starts ↔
    ∃ before start after, starts = before ++ start :: after ∧
      failure ∈ reported (started || before.any endsImports) start := by
  induction starts generalizing started with
  | nil => simp [reports]
  | cons first starts ih =>
    rw [reports, List.mem_append, ih]
    constructor
    · rintro (hfirst | ⟨before, start, after, rfl, hmem⟩)
      · exact ⟨[], first, starts, rfl, by simpa using hfirst⟩
      · exact ⟨first :: before, start, after, rfl, by simpa [Bool.or_assoc] using hmem⟩
    · rintro ⟨_ | ⟨other, before⟩, start, after, heq, hmem⟩
      · obtain ⟨rfl, rfl⟩ := List.cons.inj heq
        exact .inl (by simpa using hmem)
      · obtain ⟨rfl, rfl⟩ := List.cons.inj heq
        exact .inr ⟨before, start, after, rfl, by simpa [Bool.or_assoc] using hmem⟩

theorem failure_of_skip {spacing : Spacing} (h : spacing.skip cursor = .error failure) :
    ∃ cause place, cursor.Precedes place ∧ cause ≠ .misplacedImport ∧
      failure = .ofCursor cause place := by
  have hagree : Agree cursor cursor _ (spacing.skip cursor) (spacing.skip cursor) :=
    Spacing.agree_skip cursor.abreast_self
  rw [h] at hagree
  obtain _ | ⟨cause, place, _, hplace, hcause, hfailure, -⟩ := hagree
  exact ⟨cause, place, hplace.precedes, hcause, hfailure⟩

/-- A comment that is not closed begins behind the places at which statements do. -/
theorem Walk.closing_behind (h : Walk cursor starts closing) :
    ∀ failure ∈ closing, failure.cause ≠ .misplacedImport ∧
      cursor.position.offset ≤ failure.position.offset := by
  induction h with
  | finished => simp
  | unterminated hskip =>
    obtain ⟨cause, place, hplace, hcause, rfl⟩ := failure_of_skip hskip
    exact List.forall_mem_singleton.mpr ⟨hcause, hplace.offset_le⟩
  | step hskip hmore _ ih =>
    obtain ⟨gap, hgap, -⟩ := Spacing.reads_of_skip hskip
    have hlt := (advances_resume hmore).offset_lt
    intro failure hfailure
    obtain ⟨hcause, hle⟩ := ih failure hfailure
    exact ⟨hcause, hgap.offset_le.trans (hlt.le.trans hle)⟩

/-- The places at which statements begin stand one behind another. -/
theorem Walk.ordered (h : Walk cursor starts closing) :
    (∀ start ∈ starts, cursor.position.offset ≤ start.position.offset ∧
      start.position.offset < (resume start).position.offset) ∧
      starts.Pairwise fun first second =>
        (resume first).position.offset ≤ second.position.offset := by
  induction h with
  | finished => simp
  | unterminated => simp
  | step hskip hmore _ ih =>
    obtain ⟨gap, hgap, -⟩ := Spacing.reads_of_skip hskip
    have hlt := (advances_resume hmore).offset_lt
    obtain ⟨hall, hpairs⟩ := ih
    refine ⟨List.forall_mem_cons.mpr ⟨⟨hgap.offset_le, hlt⟩, fun start hmem => ?_⟩,
      List.pairwise_cons.mpr ⟨fun start hmem => (hall start hmem).1, hpairs⟩⟩
    have hbehind := (hall start hmem).1
    exact ⟨hgap.offset_le.trans (hlt.le.trans hbehind), (hall start hmem).2⟩

/-! ### Failures in their order -/

/-- What is reported at a place stands there or behind. -/
theorem offset_le_of_mem_reported (h : failure ∈ reported started start) :
    start.position.offset ≤ failure.position.offset := by
  unfold reported at h
  split at h
  · split at h
    · obtain rfl := List.mem_singleton.mp h
      exact Nat.le_refl _
    · cases h
  · rename_i fault hread
    obtain rfl := List.mem_singleton.mp h
    obtain ⟨cause, place, hplace, -, rfl⟩ := failure_of_topLevelStatement hread
    exact hplace.offset_le

/-- Whether reading goes on behind the failure of a statement that begins at a place, if it is
broken and anything but spacing is left. -/
def Clears (start : Cursor) : Prop :=
  ∀ failure, topLevelStatement start = .error failure →
    failure.position.offset < (resume start).position.offset ∨
      ∃ stop, Spacing.separators.skip (resume start) = .ok stop ∧ stop.rest = []

/-- Whether only spacing is left. -/
def endsAt (cursor : Cursor) : Bool :=
  (Spacing.separators.skip cursor).toOption.any (·.rest.isEmpty)

theorem endsAt_iff : endsAt cursor = true ↔
    ∃ stop, Spacing.separators.skip cursor = .ok stop ∧ stop.rest = [] := by
  unfold endsAt
  cases Spacing.separators.skip cursor <;> simp [Except.toOption]

instance : Decidable (Clears start) :=
  decidable_of_iff ((match topLevelStatement start with
    | .ok _ => true
    | .error failure => decide (failure.position.offset < (resume start).position.offset) ||
        endsAt (resume start)) = true) (by
    unfold Clears
    cases topLevelStatement start <;> simp [endsAt_iff])

/-- Where only spacing is left, nothing more is reported. -/
theorem Walk.nil_of_end (h : Walk cursor starts closing)
    (hskip : Spacing.separators.skip cursor = .ok start) (hend : start.rest = []) :
    starts = [] ∧ closing = [] :=
  h.unique (.finished hskip hend)

/-- Nothing is reported in front of a place on the way, and where no statement is broken beyond the
place at which reading goes on, each failure stands in front of those that are reported later. -/
theorem Walk.increasing (h : Walk cursor starts closing) :
    (∀ failure ∈ reports started starts ++ closing,
      cursor.position.offset ≤ failure.position.offset) ∧
      ((∀ start ∈ starts, Clears start) → (reports started starts ++ closing).Pairwise
        fun first second => first.position.offset < second.position.offset) := by
  induction h generalizing started with
  | finished => simp [reports]
  | unterminated hskip =>
    exact ⟨fun failure hmem => ((Walk.unterminated hskip).closing_behind failure hmem).2,
      fun _ => List.pairwise_singleton _ _⟩
  | @step cursor start starts closing hskip hmore hlater ih =>
    obtain ⟨gap, hgap, -⟩ := Spacing.reads_of_skip hskip
    have hlt := (advances_resume hmore).offset_lt
    obtain ⟨hbehind, hpairs⟩ := @ih (started || endsImports start)
    rw [reports, List.append_assoc]
    constructor
    · intro failure hmem
      rcases List.mem_append.mp hmem with hmem | hmem
      · exact hgap.offset_le.trans (offset_le_of_mem_reported hmem)
      · exact hgap.offset_le.trans (hlt.le.trans (hbehind failure hmem))
    · intro hclears
      obtain ⟨hclear, hothers⟩ := List.forall_mem_cons.mp hclears
      refine List.pairwise_append.mpr ⟨?single, hpairs hothers, ?cross⟩
      case single =>
        unfold reported
        split <;> [split; skip] <;> simp
      case cross =>
        intro failure hfailure later hmem
        have hle := hbehind later hmem
        unfold reported at hfailure
        split at hfailure
        · split at hfailure
          · obtain rfl := List.mem_singleton.mp hfailure
            exact Nat.lt_of_lt_of_le hlt hle
          · cases hfailure
        · rename_i fault hread
          obtain rfl := List.mem_singleton.mp hfailure
          rcases hclear _ hread with hfront | ⟨stop, hstop, hend⟩
          · exact Nat.lt_of_lt_of_le hfront hle
          · obtain ⟨rfl, rfl⟩ := hlater.nil_of_end hstop hend
            cases hmem

end Parser

open ConfigScript.Parser

/-- An import is reported as misplaced just when something else has begun in front of it: a
statement that is no import, or one that cannot be read. When no import of the script is broken,
there is hence a statement in front of it that is no import. -/
theorem misplacedImport_iff {label source : String} {failures : ParseFailures}
    (h : Block.parse label source = .error failures) :
    ∃ starts closing, Walk (.ofSource source) starts closing ∧
      (∀ failure, failure ∈ failures.failures ∧ failure.cause = .misplacedImport ↔
        ∃ before start after, starts = before ++ start :: after ∧ ReadsImport start ∧
          failure = .ofCursor .misplacedImport start ∧
          ∃ earlier ∈ before, earlier.position.offset < start.position.offset ∧
            ¬ ReadsImport earlier) ∧
      ((∀ start ∈ starts, start.keyword? "import" ≠ none → ReadsImport start) →
        ∀ failure ∈ failures.failures, failure.cause = .misplacedImport →
          ∃ before start after, starts = before ++ start :: after ∧ ReadsImport start ∧
            failure = .ofCursor .misplacedImport start ∧
            ∃ earlier ∈ before, earlier.position.offset < start.position.offset ∧
              earlier.keyword? "import" = none) := by
  obtain ⟨starts, closing, hwalk, hfailures⟩ := exists_walk_of_parse h
  have hall : ∀ failure, failure ∈ failures.failures ∧ failure.cause = .misplacedImport ↔
      ∃ before start after, starts = before ++ start :: after ∧ ReadsImport start ∧
        failure = .ofCursor .misplacedImport start ∧
        ∃ earlier ∈ before, earlier.position.offset < start.position.offset ∧
          ¬ ReadsImport earlier := by
    intro failure
    rw [hfailures, List.mem_append]
    constructor
    · rintro ⟨hmem | hmem, hcause⟩
      · obtain ⟨before, start, after, rfl, hreported⟩ := mem_reports.mp hmem
        obtain ⟨hset, himport, rfl⟩ := mem_reported_misplaced.mp ⟨hreported, hcause⟩
        obtain ⟨earlier, hearlier, hends⟩ := List.any_eq_true.mp (by simpa using hset)
        have hle := (List.pairwise_append.mp hwalk.ordered.2).2.2 earlier hearlier start
          List.mem_cons_self
        have hlt := (hwalk.ordered.1 earlier (List.mem_append_left _ hearlier)).2
        exact ⟨before, start, after, rfl, himport, rfl, earlier, hearlier,
          Nat.lt_of_lt_of_le hlt hle, endsImports_iff.mp hends⟩
      · exact absurd hcause (hwalk.closing_behind failure hmem).1
    · rintro ⟨before, start, after, rfl, himport, rfl, earlier, hearlier, -, hends⟩
      refine ⟨.inl (mem_reports.mpr ⟨before, start, after, rfl, ?_⟩), rfl⟩
      refine (mem_reported_misplaced.mpr ⟨?_, himport, rfl⟩).1
      simpa using ⟨earlier, hearlier, endsImports_iff.mpr hends⟩
  refine ⟨starts, closing, hwalk, hall, fun hsound failure hmem hcause => ?_⟩
  obtain ⟨before, start, after, rfl, himport, hfailure, earlier, hearlier, hlt, hends⟩ :=
    (hall failure).mp ⟨hmem, hcause⟩
  refine ⟨before, start, after, rfl, himport, hfailure, earlier, hearlier, hlt, ?_⟩
  by_contra hkeyword
  exact hends (hsound earlier (List.mem_append_left _ hearlier) hkeyword)

/-- An import behind another statement, which is no import. -/
theorem misplacedImport_iff_late : ∃ failures,
    Block.parse "script" "size = 1\nimport a.b" = .error failures ∧
      ∃ start earlier : Cursor, Failure.ofCursor .misplacedImport start ∈ failures.failures ∧
        ReadsImport start ∧ earlier.position.offset < start.position.offset ∧
        earlier.keyword? "import" = none := by
  have hfailures : scriptFailures "size = 1\nimport a.b" =
      [⟨.misplacedImport, ⟨9, 2, 1⟩, "'import a.b'"⟩] := by
    decide +kernel
  have hparse : Block.parse "script" "size = 1\nimport a.b" = .error _ :=
    parse_eq_error_iff.mpr ⟨by simp [hfailures], rfl⟩
  obtain ⟨starts, closing, hwalk, -, hsound⟩ := misplacedImport_iff hparse
  have himports : ∀ start ∈ starts, start.keyword? "import" ≠ none → ReadsImport start := by
    rw [hwalk.starts_eq (Nat.lt_succ_self _)]
    decide +kernel
  obtain ⟨before, start, after, -, himport, hfailure, earlier, -, hlt, hnone⟩ :=
    hsound himports ⟨.misplacedImport, ⟨9, 2, 1⟩, "'import a.b'"⟩ (by simp [hfailures]) rfl
  exact ⟨_, hparse, start, earlier, by simp [hfailures, ← hfailure], himport, hlt, hnone⟩

/-- Behind a broken import a correct one is reported as misplaced, though the script has no other
statement. -/
theorem misplaced_behind_broken_import :
    Block.parse "script" "import 1\nimport a.b" = .error ⟨"script",
        [⟨.expectedImportedName, ⟨7, 1, 8⟩, "'1'"⟩,
          ⟨.misplacedImport, ⟨9, 2, 1⟩, "'import a.b'"⟩]⟩ ∧
      ∀ starts closing, Walk (.ofSource "import 1\nimport a.b") starts closing →
        ∀ start ∈ starts, start.keyword? "import" ≠ none := by
  have hfailures : scriptFailures "import 1\nimport a.b" =
      [⟨.expectedImportedName, ⟨7, 1, 8⟩, "'1'"⟩,
        ⟨.misplacedImport, ⟨9, 2, 1⟩, "'import a.b'"⟩] := by
    decide +kernel
  refine ⟨parse_eq_error_iff.mpr ⟨by simp [hfailures], by rw [hfailures]⟩, ?_⟩
  intro starts closing hwalk
  rw [hwalk.starts_eq (Nat.lt_succ_self _)]
  decide +kernel

/-- Statements are met one behind another, and what is reported of each stands at its beginning or
behind. The failures of a script are in strictly increasing order when reading always goes on behind
the failure of a broken statement. -/
theorem failures_increasing {label source : String} {failures : ParseFailures}
    (h : Block.parse label source = .error failures) :
    ∃ starts closing, Walk (.ofSource source) starts closing ∧
      failures.failures = reports false starts ++ closing ∧
      (∀ start ∈ starts, start.position.offset < (resume start).position.offset ∧
        ∀ started, ∀ failure ∈ reported started start,
          start.position.offset ≤ failure.position.offset) ∧
      (starts.Pairwise fun first second =>
        (resume first).position.offset ≤ second.position.offset) ∧
      ((∀ start ∈ starts, Clears start) → failures.failures.Pairwise
        fun first second => first.position.offset < second.position.offset) := by
  obtain ⟨starts, closing, hwalk, hfailures⟩ := exists_walk_of_parse h
  obtain ⟨hall, hpairs⟩ := hwalk.ordered
  rw [hfailures]
  refine ⟨starts, closing, hwalk, rfl, fun start hmem => ⟨(hall start hmem).2, ?_⟩, hpairs,
    hwalk.increasing.2⟩
  exact fun _ _ => offset_le_of_mem_reported

/-- Two broken statements, each on a line of its own. -/
theorem failures_increasing_lines : ∃ failures,
    Block.parse "script" "a b\nval = 1" = .error failures ∧ failures.failures.length = 2 ∧
      failures.failures.Pairwise fun first second =>
        first.position.offset < second.position.offset := by
  have hfailures : scriptFailures "a b\nval = 1" =
      [⟨.expectedEndOfStatement, ⟨2, 1, 3⟩, "'b'"⟩,
        ⟨.expectedLocalName, ⟨8, 2, 5⟩, "'= 1'"⟩] := by
    decide +kernel
  have hparse : Block.parse "script" "a b\nval = 1" = .error _ :=
    parse_eq_error_iff.mpr ⟨by simp [hfailures], rfl⟩
  obtain ⟨starts, closing, hwalk, -, -, -, hpairs⟩ := failures_increasing hparse
  have hclears : ∀ start ∈ starts, Clears start := by
    rw [hwalk.starts_eq (Nat.lt_succ_self _)]
    decide +kernel
  exact ⟨_, hparse, by simp [hfailures], hpairs hclears⟩

/-- Behind a statement that is broken on the next line, that line is read again, and its failure
reported twice. -/
theorem failure_repeated_behind_line : ∃ failures,
    Block.parse "script" "x =\n)" = .error failures ∧
      failures.failures = [⟨.expectedExpression, ⟨4, 2, 1⟩, "')'"⟩,
        ⟨.expectedExpression, ⟨4, 2, 1⟩, "')'"⟩] ∧
      ¬ failures.failures.Pairwise fun first second =>
        first.position.offset < second.position.offset := by
  have hfailures : scriptFailures "x =\n)" =
      [⟨.expectedExpression, ⟨4, 2, 1⟩, "')'"⟩, ⟨.expectedExpression, ⟨4, 2, 1⟩, "')'"⟩] := by
    decide +kernel
  exact ⟨_, parse_eq_error_iff.mpr ⟨by simp [hfailures], rfl⟩, hfailures, by simp [hfailures]⟩

end ConfigScript
