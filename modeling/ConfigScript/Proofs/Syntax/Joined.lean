import ConfigScript.Proofs.Syntax.Relocated

/-!
# Scripts joined line by line

A script that is read without failures is read again in front of further lines, and behind whole
lines: its statements depend on nothing outside of its text. So the statements of two scripts are
those of the two read one behind the other, when this puts no import behind another statement.
-/

namespace ConfigScript

namespace Parser

variable {budget : Nat} {started : Bool} {cursor start after behind : Cursor}
  {text rest tail : List Char} {place target : Position}

theorem dottedNames_again {names : List String}
    (h : dottedNames budget cursor = some (names, after)) :
    ∃ text, cursor.Reads text after ∧ Spacing.Solid text ∧
      ∀ budget rest target, text.length ≤ budget → Delimited rest → rest.head? ≠ some '.' →
        dottedNames budget ⟨text ++ rest, target⟩ =
          some (names, ⟨rest, target.afterAll text⟩) := by
  induction budget generalizing cursor names after with
  | zero => cases h
  | succ budget ih =>
    rw [dottedNames] at h
    split at h
    · cases h
    rename_i name behind hname
    have hletters := Cursor.reads_of_name? hname
    have hnamed := Cursor.isName_of_name? hname
    have hlength := List.length_pos_of_ne_nil (solid_name hnamed).ne_nil
    have hlast : ∀ budget rest target, name.toList.length ≤ budget → Delimited rest →
        rest.head? ≠ some '.' → dottedNames budget ⟨name.toList ++ rest, target⟩ =
          some ([name], ⟨rest, target.afterAll name.toList⟩) := by
      intro budget rest target hbudget hrest hdot
      obtain ⟨budget, rfl⟩ := Nat.exists_eq_add_of_le' (show 1 ≤ budget by omega)
      have hnone : (⟨rest, target.afterAll name.toList⟩ : Cursor).char? '.' = none :=
        Cursor.char?_of_head? hdot
      rw [dottedNames, Cursor.name?_name hnamed hrest]
      simp only [hnone]
    split at h
    · cases h
      exact ⟨_, hletters, solid_name hnamed, hlast⟩
    rename_i afterDot hdot
    split at h
    · cases h
      exact ⟨_, hletters, solid_name hnamed, hlast⟩
    rename_i others stop hothers
    cases h
    obtain ⟨more, hmore, -, hagain⟩ := ih hothers
    refine ⟨_, hletters.trans ((Cursor.reads_of_char? hdot).cons hmore),
      (solid_name hnamed).append, fun budget rest target hbudget hrest hhead => ?_⟩
    simp only [List.length_append, List.length_cons] at hbudget
    obtain ⟨budget, rfl⟩ := Nat.exists_eq_add_of_le' (show 1 ≤ budget by omega)
    have hdelimited : Delimited ('.' :: (more ++ rest)) := delimited_cons.mpr (by decide)
    have hread := hagain budget rest ((target.afterAll name.toList).after '.') (by omega) hrest
      hhead
    rw [List.append_assoc, List.cons_append, Position.afterAll_append, Position.afterAll_cons,
      dottedNames, Cursor.name?_name hnamed hdelimited]
    simp only [Cursor.char?_self, hread]

/-- A text read as a statement of a script, with whatever ends it there. -/
def RereadsTop (result : Statement) (place : Position) (text : List Char) : Prop :=
  ∀ (rest : List Char) ⦃target move ended⦄, Carries move place target → EndsStatement rest →
    statementEnd ⟨rest, target.afterAll text⟩ = .ok ended →
    topLevelStatement ⟨text ++ rest, target⟩ = .ok (result.mapSpans move, ended)

theorem topLevelStatement_of_import {result : Statement}
    (hread : importStatement cursor = .ok (some (result, behind)))
    (hended : statementEnd behind = .ok after) :
    topLevelStatement cursor = .ok (result, after) := by
  rw [topLevelStatement, hread]
  simp [bind, Except.bind, hended, pure, Except.pure]

theorem topLevelStatement_of_statement {result : Statement}
    (himport : cursor.keyword? "import" = none)
    (hread : statement (Parser.budget cursor) cursor = .ok (result, behind))
    (hended : statementEnd behind = .ok after) :
    topLevelStatement cursor = .ok (result, after) := by
  have hnone : importStatement cursor = .ok none := by
    rw [importStatement, himport]
    rfl
  rw [topLevelStatement, hnone]
  simp [bind, Except.bind, hread, hended, pure, Except.pure]

theorem importStatement_again {result : Statement}
    (h : importStatement cursor = .ok (some (result, after))) :
    ∃ text, cursor.Reads text after ∧ Fronts text ∧ RereadsTop result cursor.position text := by
  obtain ⟨afterWord, first, parts, hword, hfirst, hparts, rfl⟩ := importStatement_cases h
  obtain ⟨himport, hstop⟩ := Cursor.reads_of_keyword? hword
  obtain ⟨text, hreads, hsolid, hagain⟩ := dottedNames_again hparts
  obtain ⟨gap, hgapReads, hgap⟩ := Spacing.gap_of_skip hfirst (hreads.solid hsolid)
  have hbehind := hgapReads.trans hreads
  have hwhole := himport.trans hbehind
  refine ⟨_, hwhole, ⟨'i', rfl, by decide⟩, fun rest target move ended hmove hrest hended => ?_⟩
  have hdelimited := hbehind.delimited hstop (by simp [hsolid.ne_nil]) rest
  have hspan := hmove.reads hwhole ("import".toList ++ (gap ++ (text ++ rest))) rest
  have hnames := hagain
    (Parser.budget ⟨text ++ rest, (target.afterAll "import".toList).afterAll gap⟩) rest
    ((target.afterAll "import".toList).afterAll gap)
    (by simp only [Parser.budget, List.length_append]; omega) hrest.delimited
    hrest.toEndsExpression.head?_ne_dot
  simp only [List.append_assoc, Position.afterAll_append, Statement.mapSpans] at *
  refine topLevelStatement_of_import ?_ hended
  rw [importStatement, Cursor.keyword?_self hdelimited]
  simp only [hgap.skip hsolid.append, bind, Except.bind, hnames, require, pure, Except.pure, hspan]

theorem rereadsTop_of_statement {result : Statement}
    (himport : ∀ rest position, Delimited rest →
      (⟨text ++ rest, position⟩ : Cursor).keyword? "import" = none)
    (hreread : RereadsStatement result place text) : RereadsTop result place text := by
  intro rest target move ended hmove hrest hended
  refine topLevelStatement_of_statement (himport _ _ hrest.delimited)
    (hreread _ rest hmove hrest ?_) hended
  simp only [Parser.budget, List.length_append]
  omega

/-- A statement of a script is read again in another place, in front of what ends it there. -/
theorem topLevelStatement_again {result : Statement}
    (h : topLevelStatement cursor = .ok (result, after)) :
    ∃ text behind, cursor.Reads text behind ∧ Fronts text ∧
      RereadsTop result cursor.position text ∧ statementEnd behind = .ok after := by
  obtain ⟨behind, hread | ⟨-, hread⟩, hended⟩ := topLevelStatement_cases h
  · obtain ⟨text, hreads, hfronts, hagain⟩ := importStatement_again hread
    exact ⟨text, behind, hreads, hfronts, hagain, hended⟩
  · obtain ⟨text, hreads, hfronts, himport, hreread⟩ := (relocates _).statement hread
    exact ⟨text, behind, hreads, hfronts, rereadsTop_of_statement himport hreread, hended⟩

/-- A script goes on as it does behind the spacing at its front. -/
theorem statementsFrom_of_skip {other : Cursor} (h : Spacing.separators.skip cursor = .ok start)
    (hother : Spacing.separators.skip other = .ok start) :
    statementsFrom (budget + 1) started cursor = statementsFrom (budget + 1) started other := by
  rw [statementsFrom, statementsFrom, h, hother]

/-- Further lines behind a script, at whose front no member is asked for. -/
structure Lines (tail : List Char) : Prop where
  feed : tail = [] ∨ ∃ cs, tail = '\n' :: cs
  next : Spacing.separators.Meets tail (· ≠ some '.')

theorem Lines.breaksLine (h : Lines tail) : BreaksLine tail := by
  rcases h.feed with rfl | ⟨cs, rfl⟩ <;> simp [BreaksLine]

/-- A script without failures does not begin by asking for a member. -/
theorem meets_of_statementsFrom (h : (statementsFrom budget started cursor).failures = [])
    (htail : Lines tail) :
    Spacing.separators.Meets (cursor.rest ++ tail) (· ≠ some '.') := by
  cases budget with
  | zero => cases h
  | succ budget =>
    obtain ⟨first, hfirst, ⟨hend, -⟩ | ⟨result, behind, -, hresult, -⟩⟩ := statementsFrom_cases h
    · obtain ⟨gap, hreads, hgap, -⟩ := Spacing.reads_of_skip hfirst
      rw [hreads.rest, hend, List.append_nil]
      exact hgap.meets htail.breaksLine htail.next
    · obtain ⟨text, _, hreads, hfronts, -⟩ := topLevelStatement_again hresult
      obtain ⟨gap, hgapReads, hgap⟩ := Spacing.gap_of_skip hfirst (hreads.solid hfronts.solid)
      obtain ⟨c, hc, hsolid, hdot, -⟩ := hfronts
      cases text with
      | nil => cases hc
      | cons d text =>
        obtain rfl : d = c := by simpa using hc
        rw [hgapReads.rest, hreads.rest, List.append_assoc]
        refine (hgap.meets_cons hsolid).imp ?_
        rintro e rfl
        simpa using hdot

/-- Without failures, a script that has started holds no import. -/
theorem isImport_of_started (h : (statementsFrom budget started cursor).failures = [])
    (hstarted : started = true) {statement : Statement}
    (hmem : statement ∈ (statementsFrom budget started cursor).statements) :
    statement.isImport = false :=
  not_import_of_wellFormed
    (statementsWellFormed_iff.mp ((statementsFrom_shaped h).1 hstarted) statement hmem)

/-- An outcome with further statements in front of its own. -/
def Outcome.prepend (statements : List Statement) (outcome : Outcome) : Outcome :=
  ⟨statements ++ outcome.statements, outcome.failures, outcome.stop⟩

/-- A statement that is read in front of its end, and what then remains of the script. -/
theorem statementsFrom_of_cons {result : Statement}
    (hskip : Spacing.separators.skip cursor = .ok start) (hrest : start.rest ≠ [])
    (hfirst : topLevelStatement start = .ok (result, after))
    (hplaced : started = true → result.isImport = false) :
    statementsFrom (budget + 1) started cursor =
      (statementsFrom budget (started || !result.isImport) after).prepend [result] := by
  have hkept : (started && result.isImport) = false := by
    cases started with
    | false => rfl
    | true => rw [hplaced rfl, Bool.and_false]
  rw [statementsFrom, hskip]
  simp [Outcome.prepend, hrest, hfirst, hkept]

/-- The first statement of a script is read again in another place and in front of further lines,
and the script goes on behind it. -/
theorem statementsFrom_step {result : Statement} {move : Span → Span} {flag : Bool}
    (hfirst : Spacing.separators.skip cursor = .ok start)
    (hresult : topLevelStatement start = .ok (result, after))
    (hmove : Carries move cursor.position target) (htail : Lines tail)
    (hmeets : Spacing.separators.Meets (after.rest ++ tail) (· ≠ some '.'))
    (hplaced : flag = true → result.isImport = false) :
    ∃ text, cursor.Reads text after ∧ text ≠ [] ∧ ∀ budget,
      statementsFrom (budget + 2) flag ⟨cursor.rest ++ tail, target⟩ =
        (statementsFrom (budget + 1) (flag || !result.isImport)
          ⟨after.rest ++ tail, target.afterAll text⟩).prepend [result.mapSpans move] := by
  obtain ⟨text, behind, hreads, hfronts, hagain, hended⟩ := topLevelStatement_again hresult
  obtain ⟨ending, hendingReads, hending⟩ := ending_of_statementEnd hended
  obtain ⟨gap, hgapReads, hgap⟩ := Spacing.gap_of_skip hfirst (hreads.solid hfronts.solid)
  have hwhole := hgapReads.trans (hreads.trans hendingReads)
  -- Behind the statement stands what stood there, and then the further lines.
  have hresumes : Resumes after.rest (after.rest ++ tail) := by
    refine ⟨fun hnone => ?_, fun cs hbrace => ⟨cs ++ tail, by rw [hbrace]; rfl⟩, hmeets⟩
    rw [hnone, List.nil_append]
    exact htail.feed
  obtain ⟨stop, hstop, hskip⟩ := hending.again hresumes ((target.afterAll gap).afterAll text)
  obtain ⟨next, hnext, -⟩ := hmeets (((target.afterAll gap).afterAll text).afterAll ending)
  have hread := hagain (ending ++ (after.rest ++ tail)) (hmove.behind hgapReads)
    (hending.endsStatement hresumes) hstop
  refine ⟨_, hwhole, by simp [hfronts.solid.ne_nil], fun budget => ?_⟩
  rw [← result.isImport_mapSpans] at hplaced
  rw [hwhole.rest]
  simp only [List.append_assoc]
  rw [statementsFrom_of_cons (hgap.skip hfronts.solid.append) (by simp [hfronts.solid.ne_nil])
    hread hplaced, statementsFrom_of_skip (hskip.trans hnext) hnext, Statement.isImport_mapSpans]
  simp only [Position.afterAll_append]

/-- A script without failures is read again in another place and in front of further lines: its
statements come first, and then whatever the lines hold. -/
theorem statementsFrom_again (h : (statementsFrom budget started cursor).failures = [])
    {move : Span → Span} {flag : Bool} {remaining : Nat}
    (hmove : Carries move cursor.position target) (htail : Lines tail)
    (hflag : flag = true → ∀ statement ∈ (statementsFrom budget started cursor).statements,
      statement.isImport = false)
    (hremaining : cursor.rest.length < remaining) :
    ∃ later, remaining ≤ later + cursor.rest.length ∧
      statementsFrom remaining flag ⟨cursor.rest ++ tail, target⟩ =
        (statementsFrom later
          (flag || (statementsFrom budget started cursor).statements.any (!·.isImport))
          ⟨tail, target.afterAll cursor.rest⟩).prepend
            (statementsMapSpans move (statementsFrom budget started cursor).statements) := by
  induction budget generalizing started cursor target flag remaining with
  | zero => cases h
  | succ budget ih =>
    obtain ⟨first, hfirst, ⟨hend, hnil⟩ |
      ⟨result, after, -, hresult, -, hlater, hcons⟩⟩ := statementsFrom_cases h
    · obtain ⟨remaining, rfl⟩ := Nat.exists_eq_add_of_le' (show 1 ≤ remaining by omega)
      obtain ⟨gap, hreads, hgap, -⟩ := Spacing.reads_of_skip hfirst
      have hwhole : cursor.rest = gap := by
        rw [hreads.rest, hend, List.append_nil]
      obtain ⟨next, hnext, -⟩ := htail.next (target.afterAll gap)
      have hskip := (hgap tail target htail.breaksLine).trans hnext
      refine ⟨remaining + 1, Nat.le_add_right _ _, ?_⟩
      rw [hnil, hwhole, statementsFrom_of_skip hskip hnext, List.any_nil, Bool.or_false]
      rfl
    · simp only [hcons, List.forall_mem_cons, List.any_cons, ← Bool.or_assoc] at hflag ⊢
      -- A statement that is no import has started the script that is read, too.
      have hflagLater : (flag || !result.isImport) = true → ∀ statement ∈
          (statementsFrom budget (started || !result.isImport) after).statements,
            statement.isImport = false := by
        intro hset
        rcases Bool.or_eq_true_iff.mp hset with hset | hset
        · exact (hflag hset).2
        · exact fun statement => isImport_of_started hlater (by rw [hset, Bool.or_true])
      obtain ⟨text, hreads, htext, hstep⟩ := statementsFrom_step hfirst hresult hmove htail
        (meets_of_statementsFrom hlater htail) fun hset => (hflag hset).1
      have hlength := List.length_pos_of_ne_nil htext
      have hsum : cursor.rest.length = text.length + after.rest.length := by
        rw [hreads.rest, List.length_append]
      obtain ⟨remaining, rfl⟩ := Nat.exists_eq_add_of_le' (show 2 ≤ remaining by omega)
      obtain ⟨later, hlater, houtcome⟩ := ih hlater (hmove.behind hreads) hflagLater
        (show after.rest.length < remaining + 1 by omega)
      refine ⟨later, by omega, ?_⟩
      rw [hstep, houtcome, hreads.rest, Position.afterAll_append]
      rfl

theorem statementsFrom_nil {position : Position} :
    statementsFrom (budget + 1) started ⟨[], position⟩ = ⟨[], [], ⟨[], position⟩⟩ := by
  rw [statementsFrom, Spacing.skip_nil]
  rfl

theorem statementsFrom_feed {cs : List Char} {position : Position}
    (h : Spacing.separators.Meets cs (· ≠ some '.')) :
    statementsFrom (budget + 1) started ⟨'\n' :: cs, position⟩ =
      statementsFrom (budget + 1) started ⟨cs, position.after '\n'⟩ := by
  obtain ⟨next, hnext, -⟩ := h (position.after '\n')
  exact statementsFrom_of_skip ((Spacing.skip_cons rfl).trans hnext) hnext

theorem lines_nil : Lines [] :=
  ⟨.inl rfl, Spacing.meets_nil (by simp)⟩

/-- The statements of two texts, one behind the other with a line feed between them. -/
theorem statementsFrom_lines {first second : List Char} {a b : Outcome}
    (ha : statementsFrom (first.length + 1) false ⟨first, .origin⟩ = a)
    (hb : statementsFrom (second.length + 1) false ⟨second, .origin⟩ = b)
    (hfirst : a.failures = []) (hsecond : b.failures = [])
    (himports : (∀ statement ∈ b.statements, statement.isImport = false) ∨
      ∀ statement ∈ a.statements, statement.isImport = true) :
    statementsFrom ((first ++ '\n' :: second).length + 1) false
        ⟨first ++ '\n' :: second, .origin⟩ =
      ⟨a.statements ++ b.statements.map (Statement.mapSpans
          (Span.shift (String.ofList (first ++ ['\n'])).utf8ByteSize
            ((first ++ ['\n']).count '\n'))), [],
        ⟨[], Position.origin.afterAll (first ++ '\n' :: second)⟩⟩ := by
  subst ha hb
  have hmeets : Spacing.separators.Meets second (· ≠ some '.') := by
    simpa using meets_of_statementsFrom hsecond lines_nil
  have hlines : Lines ('\n' :: second) :=
    ⟨.inr ⟨_, rfl⟩, Spacing.meets_skipped rfl hmeets⟩
  have hlength : (first ++ '\n' :: second).length = first.length + second.length + 1 := by
    rw [List.length_append, List.length_cons, Nat.add_assoc]
  obtain ⟨later, hlater, hfront⟩ := statementsFrom_again hfirst Carries.refl hlines
    (nofun : false = true → _)
    (show first.length < (first ++ '\n' :: second).length + 1 by omega)
  dsimp only at hlater hfront
  rw [Bool.false_or] at hfront
  -- An import of the second text stands behind imports only.
  have hflag : ((statementsFrom (first.length + 1) false ⟨first, .origin⟩).statements.any
      (!·.isImport)) = true → ∀ statement ∈
        (statementsFrom (second.length + 1) false ⟨second, .origin⟩).statements,
          statement.isImport = false := by
    intro hset
    obtain ⟨statement, hmem, hother⟩ := List.any_eq_true.mp hset
    refine himports.resolve_right fun hall => ?_
    rw [hall statement hmem] at hother
    cases hother
  obtain ⟨later, rfl⟩ := Nat.exists_eq_add_of_le' (show 1 ≤ later by omega)
  obtain ⟨rest, hrest, hback⟩ := statementsFrom_again hsecond (@carries_shift first) lines_nil
    hflag (show second.length < later + 1 by omega)
  dsimp only at hrest hback
  obtain ⟨rest, rfl⟩ := Nat.exists_eq_add_of_le' (show 1 ≤ rest by omega)
  rw [List.append_nil, statementsFrom_nil, statementsMapSpans_eq_map] at hback
  rw [hfront, statementsFrom_feed hmeets, ← Position.afterAll_singleton,
    ← Position.afterAll_append, hback, statementsMapSpans_id]
  simp only [Outcome.prepend, List.append_nil, Position.afterAll_append]
  rfl

end Parser

open ConfigScript.Parser

theorem Block.parse_eq_ok {label source : String} {block : Block} :
    Block.parse label source = .ok block ↔
      (statementsFrom (source.toList.length + 1) false (.ofSource source)).failures = [] ∧
        block = .mk (statementsFrom (source.toList.length + 1) false (.ofSource source)).statements
          ((Cursor.ofSource source).spanTo
            (statementsFrom (source.toList.length + 1) false (.ofSource source)).stop) := by
  have hlength : (Cursor.ofSource source).rest.length = source.toList.length := rfl
  unfold Block.parse
  dsimp only
  rw [hlength]
  split
  · rename_i hnone
    simp [List.isEmpty_iff.mp hnone, eq_comm]
  · rename_i hsome
    simp [List.isEmpty_iff] at hsome
    simp [hsome]

/-- The statements of two scripts, joined by a line feed, are those of the first one and behind
them those of the second one, as many bytes and lines further on. -/
theorem Block.parse_lines {label before behind first second : String} {a b : Block}
    (ha : Block.parse before first = .ok a) (hb : Block.parse behind second = .ok b)
    (himports : (∀ statement ∈ b.statements, statement.isImport = false) ∨
      ∀ statement ∈ a.statements, statement.isImport = true) :
    Block.parse label (first ++ "\n" ++ second) = .ok (.mk
      (a.statements ++ b.statements.map (Statement.mapSpans
        (Span.shift (first ++ "\n").utf8ByteSize ((first ++ "\n").toList.count '\n'))))
      ⟨0, (first ++ "\n" ++ second).utf8ByteSize, 1, 1⟩) := by
  obtain ⟨hfirst, rfl⟩ := Block.parse_eq_ok.mp ha
  obtain ⟨hsecond, rfl⟩ := Block.parse_eq_ok.mp hb
  have hfeed : (first ++ "\n").toList = first.toList ++ ['\n'] := by
    simp
  have hsource : (first ++ "\n" ++ second).toList = first.toList ++ '\n' :: second.toList := by
    simp
  have hend : (Position.origin.afterAll (first ++ "\n" ++ second).toList).offset =
      (first ++ "\n" ++ second).utf8ByteSize := by
    rw [Position.offset_afterAll, String.ofList_toList]
    exact Nat.zero_add _
  have hlines := statementsFrom_lines rfl rfl hfirst hsecond himports
  rw [← hfeed, String.ofList_toList, ← hsource] at hlines
  have hjoined : statementsFrom ((first ++ "\n" ++ second).toList.length + 1) false
      (.ofSource (first ++ "\n" ++ second)) = _ := hlines
  refine Block.parse_eq_ok.mpr ⟨by rw [hjoined], ?_⟩
  rw [hjoined]
  simp only [Cursor.spanTo, hend]
  rfl

/-- A script that ends in a comment. -/
def commentedScript : String :=
  "import a.größe; total(1) // \x7d"

/-- A script that begins with a comment, and has a chain and a block over several lines. -/
def chainedScript : String :=
  "/* on */ names\n  // all\n  .each \x7b run(2)\n limit = 3 \x7d\n(last)"

theorem parse_lines_commented :
    ∃ a b, Block.parse "script" commentedScript = .ok a ∧
      Block.parse "script" chainedScript = .ok b ∧
      b.statements.map Statement.isImport = [false, false] ∧
      Block.parse "script" (commentedScript ++ "\n" ++ chainedScript) = .ok (.mk
        (a.statements ++ b.statements.map (Statement.mapSpans (Span.shift 32 1)))
        ⟨0, 92, 1, 1⟩) := by
  have hread : (Block.parse "script" commentedScript).toOption.isSome ∧
      (Block.parse "script" chainedScript).toOption.map
        (fun block => block.statements.map Statement.isImport) = some [false, false] := by
    decide +kernel
  obtain ⟨a, ha⟩ := Option.isSome_iff_exists.mp hread.1
  obtain ⟨b, hb, hkinds⟩ := Option.map_eq_some_iff.mp hread.2
  have ha := Fallible.toOption_eq_some.mp ha
  have hb := Fallible.toOption_eq_some.mp hb
  have himports : ∀ statement ∈ b.statements, statement.isImport = false := by
    intro statement hmem
    have hkind := List.mem_map_of_mem (f := Statement.isImport) hmem
    simpa [hkinds] using hkind
  have hmeasure : (commentedScript ++ "\n").utf8ByteSize = 32 ∧
      (commentedScript ++ "\n").toList.count '\n' = 1 ∧
      (commentedScript ++ "\n" ++ chainedScript).utf8ByteSize = 92 := by
    decide +kernel
  have hjoined : Block.parse "script" _ = _ := Block.parse_lines ha hb (.inl himports)
  rw [hmeasure.1, hmeasure.2.1, hmeasure.2.2] at hjoined
  exact ⟨a, b, ha, hb, hkinds, hjoined⟩

end ConfigScript
