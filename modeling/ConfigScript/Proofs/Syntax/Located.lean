import ConfigScript.Proofs.Syntax.Positions

/-!
# Trees and failures are located

A script is read statement by statement, and each failure is recovered from behind the broken
statement. All spans of a parsed tree and all failures of a source that is not parsed tell their
places exactly; nodes stand inside their parents, one behind another.
-/

namespace ConfigScript

namespace Parser

variable {source : String} {budget : Nat} {cursor after : Cursor}

theorem precedes_of_dottedNames {names : List String}
    (h : dottedNames budget cursor = some (names, after)) : cursor.Precedes after := by
  induction budget generalizing cursor names after with
  | zero => cases h
  | succ budget ih =>
    rw [dottedNames] at h
    split at h
    · cases h
    · rename_i hname
      have hfirst := (Cursor.reads_of_name? hname).precedes
      split at h
      · cases h
        exact hfirst
      · rename_i hdot
        split at h
        · cases h
          exact hfirst
        · rename_i hrest
          cases h
          exact hfirst.trans ((Cursor.reads_of_char? hdot).precedes.trans (ih hrest))

theorem keeps_importStatement (hin : cursor.In source) :
    Keeps source (Found source .statement cursor) (importStatement cursor) := by
  unfold importStatement
  split
  · trivial
  rename_i afterWord hword
  have hafterWord := (Cursor.reads_of_keyword? hword).1.precedes
  refine (Spacing.keeps_skip (hin.later hafterWord)).bind fun first hfirst => ?_
  cases hparts : dottedNames (Parser.budget first) first with
  | none => exact keeps_throw ((hin.later hafterWord).later hfirst)
  | some reading =>
    obtain ⟨parts, after⟩ := reading
    have hafter := hafterWord.trans (hfirst.trans (precedes_of_dottedNames hparts))
    exact filled_leaf (.statement (.importName _ _)) hin hafter rfl rfl

/-- A statement that has been read with its end stands in front of what follows. -/
def Ended (source : String) (start after : Cursor) (result : Statement) : Prop :=
  ∃ behind, Filled source start behind [.statement result] ∧ behind.Precedes after ∧
    (Begins after → behind.position.offset < after.position.offset)

theorem keeps_topLevelStatement (hin : cursor.In source) :
    Keeps source (fun (result, after) => Ended source cursor after result)
      (topLevelStatement cursor) := by
  unfold topLevelStatement
  refine (keeps_importStatement hin).bind fun found hfound => ?_
  have hend : ∀ {result behind}, Filled source cursor behind [.statement result] →
      Keeps source (fun (result, after) => Ended source cursor after result)
        (do return (result, ← statementEnd behind)) := by
    intro result behind hresult
    refine (keeps_statementEnd (hin.later hresult.precedes)).bind fun after hafter => ?_
    exact ⟨behind, hresult, hafter⟩
  split
  · exact hend hfound
  · refine ((tracked source _).statement hin).bind ?_
    rintro ⟨result, behind⟩ hresult
    exact hend hresult

/-- No statement begins with the brace that closes a block. -/
theorem begins_of_topLevelStatement {result : Statement} (hrest : cursor.rest ≠ [])
    (h : topLevelStatement cursor = .ok (result, after)) : Begins cursor := by
  refine ⟨hrest, fun hbrace => ?_⟩
  obtain ⟨_ | ⟨c, rest⟩, position⟩ := cursor
  · cases hbrace
  obtain rfl : c = '\x7d' := by simpa using hbrace
  have hword : ∀ {word : String} {first : Char} {others : List Char},
      word.toList = first :: others → '\x7d' ≠ first →
        (⟨'\x7d' :: rest, position⟩ : Cursor).keyword? word = none := Cursor.keyword?_cons
  have hbudget : Parser.budget ⟨'\x7d' :: rest, position⟩ = 8 * rest.length + 13 + 2 + 1 := by
    simp only [Parser.budget, List.length_cons]
    omega
  obtain ⟨behind, hread | ⟨-, hread⟩, -⟩ := topLevelStatement_cases h
  · obtain ⟨afterWord, start, parts, himport, -⟩ := importStatement_cases hread
    cases (hword rfl (by decide)).symm.trans himport
  · rw [hbudget] at hread
    rcases statement_cases hread with ⟨afterWord, _, _, _, _, _, _, _, hval, -⟩ |
      ⟨target, behind, sign, -, -, htarget, -⟩
    · cases (hword rfl (by decide)).symm.trans hval
    · cases (expression_closer (by decide)).symm.trans htarget

/-- Every failure of a script is where it says, those behind a recovery too. -/
theorem exact_of_mem_failures {started : Bool} (hin : cursor.In source) :
    ∀ failure ∈ (statementsFrom budget started cursor).failures, failure.Exact source := by
  induction budget generalizing started cursor with
  | zero => simpa [statementsFrom] using Cursor.exact_ofCursor hin
  | succ budget ih =>
    have hskip : Keeps source cursor.Precedes (Spacing.separators.skip cursor) :=
      Spacing.keeps_skip hin
    rw [statementsFrom]
    split
    · rename_i failure hfailure
      rw [hfailure] at hskip
      exact List.forall_mem_singleton.mpr hskip
    rename_i start hstart
    have hstart := hin.later (hskip.of_ok hstart)
    have hfirst := keeps_topLevelStatement hstart
    split
    · simp
    split
    · rename_i failure hfailure
      rw [hfailure] at hfirst
      have hrecovered := (start.reads_drop (brokenLength .outside [] start.rest)).precedes
      exact List.forall_mem_cons.mpr ⟨hfirst, ih (hstart.later hrecovered)⟩
    · rename_i first after hread
      obtain ⟨behind, hplaced, hafter, -⟩ := hfirst.of_ok hread
      intro failure hfailure
      rcases List.mem_append.mp hfailure with hmisplaced | hlater
      · split at hmisplaced
        · obtain rfl := List.mem_singleton.mp hmisplaced
          exact Cursor.exact_ofCursor hstart
        · cases hmisplaced
      · exact ih ((hstart.later hplaced.precedes).later hafter) failure hlater

/-- The statements of a script without failures fill what has been read of it. -/
theorem filled_statementsFrom {started : Bool} (hin : cursor.In source)
    (h : (statementsFrom budget started cursor).failures = []) :
    ∃ start, Spacing.separators.skip cursor = .ok start ∧
      Filled source start (statementsFrom budget started cursor).stop
        ((statementsFrom budget started cursor).statements.map .statement) ∧
      ((statementsFrom budget started cursor).statements ≠ [] → Begins start) := by
  induction budget generalizing started cursor with
  | zero => cases h
  | succ budget ih =>
    obtain ⟨start, hstart, hread⟩ := statementsFrom_cases h
    have hstartIn := hin.later ((Spacing.keeps_skip hin).of_ok hstart)
    refine ⟨start, hstart, ?_⟩
    rcases hread with ⟨-, hnil⟩ | ⟨first, after, hrest, hfirst, -, hlater, hcons⟩
    · rw [hnil]
      exact ⟨.empty .refl, nofun⟩
    · obtain ⟨behind, hplaced, hafter, hless⟩ :=
        (keeps_topLevelStatement hstartIn).of_ok hfirst
      have hafterIn := (hstartIn.later hplaced.precedes).later hafter
      obtain ⟨next, hnext, hothers, hbegins⟩ := ih hafterIn hlater
      obtain ⟨hskipped, hgap⟩ := (keeps_skip_begins hafterIn).of_ok hnext
      rw [hcons]
      have hapart := apart_of_ended hafter hless hskipped hgap hothers (by simpa using hbegins)
      exact ⟨hplaced.append hapart, fun _ => begins_of_topLevelStatement hrest hfirst⟩

end Parser

/-- What a reading of a whole source comes to is placed in it: the nodes of the tree, or else the
failures. -/
def Located {α : Type} (source : String) (node : α → Node) : Except ParseFailures α → Prop
  | .ok value => (node value).Everywhere (Node.Placed source)
  | .error failures => ∀ failure ∈ failures.failures, failure.Exact source

/-- In a source that is not too long all spans of a tree, or else the places of all failures, keep
to the bounds of the written form. -/
theorem Located.fits {α : Type} {source : String} {node : α → Node}
    {result : Except ParseFailures α} (h : Located source node result)
    (hlength : source.length + 1 < UInt32.size) :
    (∀ value, result = .ok value → (node value).Everywhere fun node => node.span.Fits) ∧
      ∀ failures, result = .error failures →
        ∀ failure ∈ failures.failures, failure.position.Fits := by
  constructor
  · rintro value rfl below hbelow
    exact (h below hbelow).exact.fits hlength
  · rintro failures rfl failure hfailure
    exact (h failure hfailure).fits hlength

theorem located_block (label source : String) :
    Located source .block (Block.parse label source) := by
  unfold Block.parse
  dsimp only
  split
  · rename_i hfailures
    have hnone := List.isEmpty_iff.mp hfailures
    obtain ⟨start, hstart, hfilled, -⟩ := Parser.filled_statementsFrom Cursor.in_ofSource hnone
    have hskip := (Spacing.keeps_skip Cursor.in_ofSource).of_ok hstart
    have hblock := Filled.single (.block (.mk _ _)) (hfilled.widen hskip .refl)
      Cursor.in_ofSource rfl
    exact hblock.placed _ List.mem_cons_self
  · exact Parser.exact_of_mem_failures Cursor.in_ofSource

theorem keeps_read (source : String) :
    Keeps source (fun value => (Node.expr value).Everywhere (Node.Placed source))
      (Expr.parse.read (.ofSource source)) := by
  have hin : (Cursor.ofSource source).In source := Cursor.in_ofSource
  unfold Expr.parse.read
  refine (Spacing.keeps_skip hin).bind fun start hstart => ?_
  have hstartIn := hin.later hstart
  refine Parser.keeps_required hstartIn ((Parser.tracked source _).expression hstartIn) ?_
  intro value after hvalue
  have hafter := hstartIn.later hvalue.precedes
  refine (Spacing.keeps_skip hafter).bind fun stop hstop => ?_
  split
  · exact hvalue.placed _ List.mem_cons_self
  · exact Parser.keeps_throw (hafter.later hstop)

theorem located_expr (source : String) : Located source .expr (Expr.parse source) := by
  have hread := keeps_read source
  unfold Expr.parse
  cases hvalue : Expr.parse.read (.ofSource source) with
  | error failure =>
    rw [hvalue] at hread
    rintro other hother
    obtain rfl := List.mem_singleton.mp hother
    exact hread
  | ok value =>
    rw [hvalue] at hread
    exact hread

theorem Block.placed_of_parse {label source : String} {block : Block}
    (hparse : Block.parse label source = .ok block) :
    (Node.block block).Everywhere (Node.Placed source) := by
  have hlocated := located_block label source
  rwa [hparse] at hlocated

/-- Positions are exact: in the tree of every script and of every expression, and in every list of
failures. -/
theorem located_of_parse (label source : String) :
    Located source .block (Block.parse label source) ∧
      Located source .expr (Expr.parse source) :=
  ⟨located_block label source, located_expr source⟩

end ConfigScript
