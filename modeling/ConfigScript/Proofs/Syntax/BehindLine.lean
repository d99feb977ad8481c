import ConfigScript.Proofs.Syntax.Crossing
import ConfigScript.Proofs.Syntax.Walked

/-!
# Failures behind a line

The failures of a script are reported too when a line stands in front of it, broken or not. The way
through the whole comes to the first place of the script, or to the end of a statement that the
script begins with and the line has taken over; such a statement is not broken. From there on it is
the way through the script.

The line has to close its brackets and block comments. The search for the end of a broken statement
knows no comments: one that holds a bracket, a quote or a semicolon can make it lose its way.
-/

namespace ConfigScript

namespace Parser

variable {cursor later start other first second : Cursor} {starts others : List Cursor}
  {closing ending : List Failure} {started flag : Bool} {failure : Failure}

/-- Behind a broken statement of a line reading goes on in the line or where the next one begins. -/
theorem inLine_recover (h : cursor.InLine later) :
    (recover cursor).InLine later ∨ recover cursor = later := by
  have hin := h
  obtain ⟨line, hline, hsettles⟩ := h
  have hrest : cursor.rest = line ++ '\n' :: later.rest := by
    rw [hline.rest, List.append_assoc]
    rfl
  have hdrop := cursor.reads_drop (brokenLength .outside [] cursor.rest)
  have hlength := @brokenLength_line .start line later.rest hsettles
  rw [← hrest] at hlength
  rcases hlength with hend | ⟨front, back, rfl, hback, hstop⟩
  · refine .inr (hin.eq_later hsettles.feedless ?_)
    have htake : cursor.rest.take (line.length + 1) = line ++ ['\n'] := by
      rw [hline.rest]
      exact List.take_left' (by simp)
    exact htake ▸ hend ▸ hdrop
  · have hread : cursor.Reads front (recover cursor) := by
      have htake : cursor.rest.take front.length = front := by
        rw [hrest, List.append_assoc]
        exact List.take_left' rfl
      have hfront := cursor.reads_drop front.length
      rw [htake, ← hstop] at hfront
      exact hfront
    rw [List.append_assoc] at hline
    exact .inl ⟨back, hline.left hread, hback⟩

/-- Where reading goes on behind what begins in a line. -/
theorem resume_crosses (hdotless : Dotless later) (h : start.InLine later) :
    (resume start).InLine later ∨ resume start = later ∨
      Joins later (resume start) ∧ endsImports start = true := by
  unfold resume endsImports
  cases hread : topLevelStatement start with
  | error failure => exact (inLine_recover h).imp_right .inl
  | ok reading =>
    obtain ⟨result, ended⟩ := reading
    refine (topLevelStatement_crosses hdotless h hread).imp_right (.imp_right ?_)
    rintro ⟨hjoins, hresult⟩
    exact ⟨hjoins, by simp [hresult]⟩

theorem mem_reported_mono (h : failure ∈ reported started start)
    (hflag : started = true → flag = true) : failure ∈ reported flag start := by
  unfold reported at h ⊢
  split at h
  · split at h
    · rename_i hset
      obtain ⟨hstarted, himport⟩ := Bool.and_eq_true_iff.mp hset
      simpa [hflag hstarted, himport] using h
    · cases h
  · exact h

/-- What is reported at places is reported there too when something has begun in front of them. -/
theorem mem_reports_mono (h : failure ∈ reports started starts)
    (hflag : started = true → flag = true) : failure ∈ reports flag starts := by
  obtain ⟨before, start, after, hstarts, hmem⟩ := mem_reports.mp h
  refine mem_reports.mpr ⟨before, start, after, hstarts, mem_reported_mono hmem ?_⟩
  simp only [Bool.or_eq_true]
  exact Or.imp_left hflag

/-- The way from the next line begins with the statement that another one continues. -/
theorem Joins.walk (h : Joins later start) (hwalk : Walk start starts closing) :
    ∃ word, Walk later (word :: starts) closing ∧ reported false word = [] := by
  obtain ⟨word, result, hword, hsolid, hread, himport⟩ := h
  have hskip : Spacing.separators.skip later = .ok word := by
    rw [Spacing.skip_staged Spacing.narrower_separators, hword]
    exact hsolid.skip
  have hresume : resume word = start := by
    rw [resume, hread]
  exact ⟨word, .step hskip hsolid.ne_nil (hresume ▸ hwalk), by simp [reported, hread]⟩

/-- All that the way from the next line reports is reported on the way from the line. -/
theorem Walk.reports_later (h : Walk cursor starts closing) (hdotless : Dotless later)
    (hline : cursor.InLine later) (hlater : Walk later others ending)
    (hmem : failure ∈ reports false others ++ ending) :
    failure ∈ reports started starts ++ closing := by
  induction h generalizing started with
  | finished hskip hend =>
    rcases hline.skip .separators with ⟨after, hafter, hin⟩ | ⟨-, hsame⟩
    · obtain rfl := Except.ok.inj (hskip.symm.trans hafter)
      obtain ⟨line, hreads, -⟩ := hin
      rw [hreads.rest] at hend
      simp at hend
    · obtain ⟨rfl, rfl⟩ := hlater.unique (.finished (hsame.symm.trans hskip) hend)
      cases hmem
  | unterminated hskip =>
    rcases hline.skip .separators with ⟨after, hafter, -⟩ | ⟨-, hsame⟩
    · cases hskip.symm.trans hafter
    · obtain ⟨rfl, rfl⟩ := hlater.unique (.unterminated (hsame.symm.trans hskip))
      exact hmem
  | @step cursor start starts closing hskip hmore hwalk ih =>
    have hmono : ∀ {flag : Bool} {starts : List Cursor},
        failure ∈ reports false starts ++ closing → failure ∈ reports flag starts ++ closing := by
      intro flag starts hmem
      rw [List.mem_append] at hmem ⊢
      exact hmem.imp_left fun hmem => mem_reports_mono hmem (by simp)
    rcases hline.skip .separators with ⟨after, hafter, hin⟩ | ⟨-, hsame⟩
    · obtain rfl := Except.ok.inj (hskip.symm.trans hafter)
      rw [reports, List.append_assoc]
      refine List.mem_append_right _ ?_
      rcases resume_crosses hdotless hin with hin | hlast | ⟨hjoins, hends⟩
      · exact ih hin
      · obtain ⟨rfl, rfl⟩ := hlater.unique (hlast ▸ hwalk)
        exact hmono hmem
      · obtain ⟨word, hjoined, hreported⟩ := hjoins.walk hwalk
        obtain ⟨rfl, rfl⟩ := hlater.unique hjoined
        rw [reports, hreported, List.nil_append] at hmem
        rw [List.mem_append] at hmem ⊢
        exact hmem.imp_left fun hmem => mem_reports_mono hmem fun _ => by simp [hends]
    · obtain ⟨rfl, rfl⟩ := hlater.unique (.step (hsame.symm.trans hskip) hmore hwalk)
      exact hmono hmem

/-! ### The same way elsewhere -/

/-- Failures with the same cause behind the same text, read from either of two places. -/
def Beside (first second : Cursor) (failure twin : Failure) : Prop :=
  ∃ cause cursor other, first.Abreast second cursor other ∧
    failure = .ofCursor cause cursor ∧ twin = .ofCursor cause other

theorem beside_of_twins {twin : Failure} (h : failure.Twins first second twin) :
    Beside first second failure twin := by
  obtain ⟨cause, cursor, other, habreast, -, hfailure, htwin⟩ := h
  exact ⟨cause, cursor, other, habreast, hfailure, htwin⟩

theorem resume_abreast (h : first.Abreast second cursor other) :
    first.Abreast second (resume cursor) (resume other) ∧
      endsImports cursor = endsImports other ∧
      ∀ started, ∀ failure ∈ reported started cursor,
        ∃ twin ∈ reported started other, Beside first second failure twin := by
  have hagree := agree_topLevelStatement h
  unfold resume endsImports reported
  revert hagree
  generalize topLevelStatement cursor = reading
  generalize topLevelStatement other = twin
  rintro (⟨hresult, hafter⟩ | hfailure)
  · rename_i reading twin
    obtain ⟨result, after⟩ := reading
    obtain ⟨other, behind⟩ := twin
    dsimp only at hresult hafter ⊢
    refine ⟨hafter, by rw [hresult], fun started failure hmem => ?_⟩
    split at hmem
    · rename_i hset
      obtain rfl := List.mem_singleton.mp hmem
      rw [hresult] at hset
      rw [if_pos hset]
      exact ⟨_, List.mem_singleton_self _, _, _, _, h, rfl, rfl⟩
    · cases hmem
  · rename_i failure twin
    have hrecover : first.Abreast second (recover cursor) (recover other) := by
      rw [recover, recover, h.rest]
      have hcursor := cursor.reads_drop (brokenLength .outside [] other.rest)
      rw [h.rest] at hcursor
      exact h.later hcursor (other.reads_drop _)
    refine ⟨hrecover, rfl, fun started failure hmem => ?_⟩
    obtain rfl := List.mem_singleton.mp hmem
    exact ⟨twin, List.mem_singleton_self _, beside_of_twins hfailure⟩

/-- The way through a text that stands at two places is the same at both. -/
theorem Walk.beside (h : Walk cursor starts closing)
    (habreast : first.Abreast second cursor other) :
    ∃ others ending, Walk other others ending ∧ ∀ started,
      ∀ failure ∈ reports started starts ++ closing,
        ∃ twin ∈ reports started others ++ ending, Beside first second failure twin := by
  have hagree : ∀ {cursor other : Cursor}, first.Abreast second cursor other →
      Agree first second (first.Abreast second) (Spacing.separators.skip cursor)
        (Spacing.separators.skip other) := Spacing.agree_skip
  induction h generalizing other with
  | finished hskip hend =>
    have hstart := hagree habreast
    rw [hskip] at hstart
    generalize hother : Spacing.separators.skip other = found at hstart
    cases hstart with
    | ok hstart =>
      exact ⟨[], [], .finished hother (hstart.rest ▸ hend), fun _ _ hmem => by cases hmem⟩
  | @unterminated cursor fault hskip =>
    have hstart := hagree habreast
    rw [hskip] at hstart
    generalize hother : Spacing.separators.skip other = found at hstart
    cases hstart with
    | @error _ twin hfailure =>
      refine ⟨[], [twin], .unterminated hother, fun _ failure hmem => ⟨twin, by simp [reports], ?_⟩⟩
      obtain rfl : failure = fault := by simpa [reports] using hmem
      exact beside_of_twins hfailure
  | @step cursor start starts closing hskip hmore hlater ih =>
    have hstart := hagree habreast
    rw [hskip] at hstart
    generalize hother : Spacing.separators.skip other = found at hstart
    cases hstart with
    | @ok _ place hstart =>
      obtain ⟨hresume, hends, hreported⟩ := resume_abreast hstart
      obtain ⟨others, ending, hwalk, hall⟩ := ih hresume
      refine ⟨place :: others, ending, .step hother (hstart.rest ▸ hmore) hwalk,
        fun started failure hmem => ?_⟩
      rw [reports, List.append_assoc] at hmem ⊢
      rcases List.mem_append.mp hmem with hmem | hmem
      · obtain ⟨twin, htwin, hbeside⟩ := hreported started failure hmem
        exact ⟨twin, List.mem_append_left _ htwin, hbeside⟩
      · obtain ⟨twin, htwin, hbeside⟩ := hall _ failure hmem
        exact ⟨twin, List.mem_append_right _ (hends ▸ htwin), hbeside⟩

end Parser

/-- A failure as many bytes and lines further on. -/
def Failure.shift (bytes lines : Nat) (failure : Failure) : Failure :=
  ⟨failure.cause, ⟨failure.position.offset + bytes, failure.position.line + lines,
    failure.position.column⟩, failure.found⟩

open ConfigScript.Parser

/-- A text behind a line is read as many bytes further on as the line has, and on the next line. -/
theorem Position.afterAll_line {line : List Char} (hline : '\n' ∉ line) :
    Position.origin.afterAll (line ++ ['\n']) =
      ⟨(String.ofList (line ++ ['\n'])).utf8ByteSize, 2, 1⟩ := by
  rw [Position.afterAll_origin, Position.behind]
  have hcount : line.count '\n' = 0 := List.count_eq_zero.mpr hline
  simp [hcount]

theorem shift_of_beside {bytes lines : Nat} {first second : Cursor} {failure twin : Failure}
    (hsecond : second.position = ⟨first.position.offset + bytes, first.position.line + lines,
      first.position.column⟩) (h : Beside first second failure twin) :
    twin = failure.shift bytes lines := by
  obtain ⟨cause, cursor, other, habreast, rfl, rfl⟩ := h
  obtain ⟨text, hfirst, hother⟩ := habreast.read
  have hposition := hother.position
  rw [hsecond, Position.afterAll_shift, ← hfirst.position] at hposition
  rw [Failure.shift, Failure.ofCursor, Failure.ofCursor, hposition, habreast.rest]

theorem dotless_of_rest {first second : Cursor} (h : Dotless first)
    (hrest : first.rest = second.rest) : Dotless second := by
  intro next hnext
  have hmeets := meets_of_skip (p := (· = next.rest.head?)) hnext rfl
  obtain ⟨other, hother, hhead⟩ := hmeets first.position
  rw [← hrest] at hother
  exact hhead ▸ h other hother

/-- Each failure of a script is reported too when a line stands in front of it, a line further
on, if the script does not begin by asking for a member and the line has closed brackets, leaves no
block comment open, and has no quotes, brackets and semicolons in its comments. -/
theorem failures_behind_line {label line source : String} {failures : ParseFailures}
    (hline : Scan.start.Settles line.toList) (hdotless : Dotless (.ofSource source))
    (h : Block.parse label source = .error failures) :
    ∃ all, Block.parse label (line ++ "\n" ++ source) = .error all ∧
      ∀ failure ∈ failures.failures,
        failure.shift (line ++ "\n").utf8ByteSize 1 ∈ all.failures := by
  obtain ⟨starts, closing, hwalk, hfailures⟩ := exists_walk_of_parse h
  obtain ⟨whole, rest, hwhole⟩ := exists_walk (.ofSource (line ++ "\n" ++ source))
  let later : Cursor := ⟨source.toList, Position.origin.afterAll (line.toList ++ ['\n'])⟩
  have hin : (Cursor.ofSource (line ++ "\n" ++ source)).InLine later :=
    ⟨line.toList, ⟨by simp [Cursor.ofSource, later], rfl⟩, hline⟩
  have habreast : (Cursor.ofSource source).Abreast later (.ofSource source) later :=
    Cursor.abreast_start rfl
  obtain ⟨others, ending, hlater, htwins⟩ := hwalk.beside habreast
  have hnext : Dotless later := dotless_of_rest hdotless rfl
  have hplace : later.position = ⟨0 + (line ++ "\n").utf8ByteSize, 1 + 1, 1⟩ := by
    have hbytes : String.ofList (line.toList ++ ['\n']) = line ++ "\n" := by
      simp
    rw [Nat.zero_add, ← hbytes]
    exact Position.afterAll_line hline.feedless
  have hall : ∀ failure ∈ failures.failures,
      failure.shift (line ++ "\n").utf8ByteSize 1 ∈ scriptFailures (line ++ "\n" ++ source) := by
    intro failure hmem
    rw [hfailures] at hmem
    obtain ⟨twin, htwin, hbeside⟩ := htwins false failure hmem
    rw [← shift_of_beside hplace hbeside, hwhole.scriptFailures]
    exact hwhole.reports_later hnext hin hlater htwin
  refine ⟨_, parse_eq_error_iff.mpr ⟨?_, rfl⟩, hall⟩
  obtain ⟨hsome, rfl⟩ := parse_eq_error_iff.mp h
  obtain ⟨failure, hmem⟩ := List.exists_mem_of_ne_nil _ hsome
  exact List.ne_nil_of_mem (hall failure hmem)

/-- A line with two broken statements, a bracket in a string and a comment, in front of a script
that is broken on its second line. -/
theorem failures_behind_line_broken : ∃ all,
    Block.parse "script" ("= 1; run(\")\") 2 // on" ++ "\n" ++ "a\n  val = 1") = .error all ∧
      ⟨.expectedLocalName, ⟨30, 3, 7⟩, "'= 1'"⟩ ∈ all.failures := by
  have hline : Scan.start.Settles "= 1; run(\")\") 2 // on".toList :=
    ⟨by decide +kernel, ⟨.lineComment, by decide +kernel, rfl⟩,
      List.all_iff_forall_prop.mp (by decide +kernel)⟩
  have hdotless : Dotless (.ofSource "a\n  val = 1") := by
    decide +kernel
  have hfailures : scriptFailures "a\n  val = 1" =
      [⟨.expectedLocalName, ⟨8, 2, 7⟩, "'= 1'"⟩] := by
    decide +kernel
  have hparse : Block.parse "script" "a\n  val = 1" = .error _ :=
    parse_eq_error_iff.mpr ⟨by simp [hfailures], rfl⟩
  obtain ⟨all, hall, hmem⟩ := failures_behind_line hline hdotless hparse
  have hbytes : ("= 1; run(\")\") 2 // on" ++ "\n").utf8ByteSize = 22 := by
    decide +kernel
  refine ⟨all, hall, ?_⟩
  have hmoved := hmem ⟨.expectedLocalName, ⟨8, 2, 7⟩, "'= 1'"⟩ (by simp [hfailures])
  rwa [hbytes] at hmoved

/-- Behind a broken line whose only bracket stands in a comment the next broken statement is not
reported: the search for the end of the first one takes the bracket for code. -/
theorem failure_lost_behind_comment :
    '\n' ∉ "= // (".toList ∧
      (∃ region : Region, Scan.start.through "= // (".toList = some ⟨region, []⟩ ∧
        region.isBlock = false) ∧
      Dotless (.ofSource "= 2") ∧
      ∃ broken failures all, Block.parse "script" "= // (" = .error broken ∧
        Block.parse "script" "= 2" = .error failures ∧
        Block.parse "script" ("= // (" ++ "\n" ++ "= 2") = .error all ∧
        ∃ failure ∈ failures.failures, ∀ other ∈ all.failures,
          other.position ≠ (failure.shift ("= // (" ++ "\n").utf8ByteSize 1).position := by
  have hbroken : scriptFailures "= // (" = [⟨.expectedExpression, ⟨0, 1, 1⟩, "'= // ('"⟩] := by
    decide +kernel
  have hfailures : scriptFailures "= 2" = [⟨.expectedExpression, ⟨0, 1, 1⟩, "'= 2'"⟩] := by
    decide +kernel
  have hall : scriptFailures ("= // (" ++ "\n" ++ "= 2") =
      [⟨.expectedExpression, ⟨0, 1, 1⟩, "'= // ('"⟩] := by
    decide +kernel
  refine ⟨by decide +kernel, ⟨.lineComment, by decide +kernel, rfl⟩, by decide +kernel, _, _, _,
    parse_eq_error_iff.mpr ⟨by simp [hbroken], rfl⟩,
    parse_eq_error_iff.mpr ⟨by simp [hfailures], rfl⟩,
    parse_eq_error_iff.mpr ⟨hall ▸ List.cons_ne_nil _ _, rfl⟩,
    ⟨.expectedExpression, ⟨0, 1, 1⟩, "'= 2'"⟩, by simp [hfailures], ?_⟩
  rw [hall]
  simp [Failure.shift]

end ConfigScript
