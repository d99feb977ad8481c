import ConfigScript.Proofs.Syntax.Located

/-!
# Where readings fail

A reader passes over the spacing in front of what it looks for, and fails only behind it. Which
spacing this is depends on the cause alone: between the parts of a statement that are on one line it
is that of the line, and elsewhere all that may stand inside an expression. One level of the descent
keeps this when the level below does.
-/

namespace ConfigScript

/-- The spacing behind which a cause is met, where there is any. -/
def Failure.Cause.passed : Failure.Cause → Option Spacing
  | .unterminatedComment => none
  | .exhausted => none
  | .expectedEndOfStatement => some .inline
  | .expectedImportedName => some .inline
  | .expectedLocalName => some .inline
  | .expectedLocalValue => some .inline
  | _ => some .multiline

/-- A cursor of the source that no character of a spacing follows. -/
structure Cursor.Rests (source : String) (spacing : Spacing) (cursor : Cursor) : Prop where
  inside : cursor.In source
  stopped : ∀ c ∈ cursor.rest.head?, spacing.skips c = false

/-- A failure at a place of the source, behind the spacing that its cause goes with. -/
def Failure.Halted (source : String) (failure : Failure) : Prop :=
  ∃ place : Cursor, place.In source ∧ failure = .ofCursor failure.cause place ∧
    ∀ spacing ∈ failure.cause.passed, place.Rests source spacing

theorem Failure.Exact.exists_place {source : String} {failure : Failure}
    (h : failure.Exact source) :
    ∃ place : Cursor, place.In source ∧ failure = .ofCursor failure.cause place := by
  obtain ⟨before, rest, rfl, hfailure⟩ := h
  have hposition : Position.behind before = Position.origin.afterAll before.toList := by
    rw [Position.afterAll_origin, String.ofList_toList]
  exact ⟨⟨rest.toList, .behind before⟩, ⟨before.toList, String.toList_append, hposition⟩, hfailure⟩

/-- What a step yields satisfies a condition, and it fails behind spacing only. -/
def Halts {α : Type} (source : String) (post : α → Prop) : Except Failure α → Prop
  | .ok value => post value
  | .error failure => failure.Halted source

variable {source : String} {cursor after start place : Cursor} {spacing : Spacing}

theorem Cursor.rests_cons {c : Char} {cs : List Char} {position : Position}
    (hin : In source ⟨c :: cs, position⟩) (hc : spacing.skips c = false) :
    Rests source spacing ⟨c :: cs, position⟩ :=
  ⟨hin, by simpa using hc⟩

theorem Cursor.Rests.halted {cause : Failure.Cause} (h : place.Rests source spacing)
    (hcause : cause.passed = some spacing) : (Failure.ofCursor cause place).Halted source := by
  refine ⟨place, h.inside, rfl, fun other hother => ?_⟩
  obtain rfl := Option.some.inj (hcause.symm.trans hother)
  exact h

/-- A bound of steps goes with no spacing. -/
theorem Cursor.In.halted_exhausted (h : place.In source) :
    (Failure.ofCursor .exhausted place).Halted source :=
  ⟨place, h, rfl, nofun⟩

namespace Halts

variable {α β : Type} {post : α → Prop} {goal : β → Prop} {step : Except Failure α}
  {cause : Failure.Cause}

theorem bind {next : α → Except Failure β} (h : Halts source post step)
    (hnext : ∀ value, post value → Halts source goal (next value)) :
    Halts source goal (step >>= next) := by
  cases step with
  | error failure => exact h
  | ok value => exact hnext value h

theorem fail (h : place.Rests source spacing) (hcause : cause.passed = some spacing) :
    Halts source post (throw (.ofCursor cause place)) :=
  h.halted hcause

theorem exhausted (hin : place.In source) :
    Halts source post (.error (.ofCursor .exhausted place)) :=
  hin.halted_exhausted

end Halts

/-- What may be a reading is one that ends in the source. -/
def Remains {α : Type} (source : String) (found : Option (Reading α)) : Prop :=
  ∀ value after, found = some (value, after) → after.In source

theorem remains_none {α : Type} : Remains source (none : Option (Reading α)) :=
  nofun

theorem remains_some {α : Type} {value : α} (h : after.In source) :
    Remains source (some (value, after)) := by
  rintro _ _ ⟨⟩
  exact h

namespace Spacing

theorem stopped_of_skipFrom {mode : Mode} {cs : List Char} {position : Position}
    (h : skipFrom spacing mode cs position = .ok after) :
    ∀ c ∈ after.rest.head?, spacing.skips c = false := by
  fun_induction skipFrom spacing mode cs position with
  | case1 cs position ih => exact ih h
  | case2 cs position inside ih => exact ih h
  | case3 c cs position _ _ hskips ih => exact ih h
  | case4 c cs position _ _ hskips =>
    cases h
    simpa using hskips
  | case5 c cs position hfeed hskips ih => exact ih h
  | case6 c cs position hfeed hskips =>
    cases h
    simpa using hskips
  | case7 c cs position hfeed ih => exact ih h
  | case8 opening cs position ih => exact ih h
  | case9 opening c cs position hopen ih => exact ih h
  | case10 => cases h
  | case11 =>
    cases h
    simp

/-- Spacing cannot be read only where a comment is not closed. -/
theorem cause_of_skipFrom {mode : Mode} {cs : List Char} {position : Position} {failure : Failure}
    (h : skipFrom spacing mode cs position = .error failure) :
    failure.cause = .unterminatedComment := by
  fun_induction skipFrom spacing mode cs position with
  | case1 cs position ih => exact ih h
  | case2 cs position inside ih => exact ih h
  | case3 c cs position _ _ hskips ih => exact ih h
  | case4 => cases h
  | case5 c cs position hfeed hskips ih => exact ih h
  | case6 => cases h
  | case7 c cs position hfeed ih => exact ih h
  | case8 opening cs position ih => exact ih h
  | case9 opening c cs position hopen ih => exact ih h
  | case10 =>
    cases h
    rfl
  | case11 => cases h

theorem halts_skip (hin : cursor.In source) :
    Halts source (Cursor.Rests source spacing) (spacing.skip cursor) := by
  have hkeeps : Keeps source cursor.Precedes (spacing.skip cursor) := keeps_skip hin
  cases hskip : spacing.skip cursor with
  | error failure =>
    rw [hskip] at hkeeps
    obtain ⟨place, hplace, hfailure⟩ := hkeeps.exists_place
    refine ⟨place, hplace, hfailure, ?_⟩
    rw [cause_of_skipFrom hskip]
    nofun
  | ok after => exact ⟨hin.later (hkeeps.of_ok hskip), stopped_of_skipFrom hskip⟩

theorem rests_of_separators (h : cursor.Rests source .separators) :
    cursor.Rests source .multiline := by
  refine ⟨h.inside, fun c hc => ?_⟩
  have hstopped := h.stopped c hc
  simp only [skips, Bool.or_eq_false_iff] at hstopped ⊢
  exact hstopped.1

end Spacing

namespace Literal

/-- Inside a string the backslash or the dollar sign stands where a character is wrong. -/
theorem halted_of_readCharacters {opening : Cursor} {cs : List Char} {position : Position}
    {failure : Failure} (hopening : opening.Rests source .multiline)
    (hin : Cursor.In source ⟨cs, position⟩)
    (h : readCharacters opening cs position = .error failure) : failure.Halted source := by
  fun_induction readCharacters opening cs position with
  | case1 position =>
    obtain rfl := Except.error.inj h
    exact hopening.halted rfl
  | case2 position =>
    obtain rfl := Except.error.inj h
    exact (Cursor.rests_cons hin (by decide)).halted rfl
  | case3 c cs position value hvalue ih =>
    cases hothers : readCharacters opening cs ((position.after '\\').after c) with
    | error fault =>
      rw [hothers] at h
      obtain rfl := Except.error.inj h
      exact ih hin.step.step hothers
    | ok reading =>
      rw [hothers] at h
      cases h
  | case4 c cs position hvalue =>
    obtain rfl := Except.error.inj h
    exact (Cursor.rests_cons hin (by decide)).halted rfl
  | case5 => cases h
  | case6 c cs position =>
    obtain rfl := Except.error.inj h
    exact hopening.halted rfl
  | case7 c cs position hlast hescape hquote hfeed htemplate =>
    obtain rfl := Except.error.inj h
    obtain rfl := htemplate.1
    exact (Cursor.rests_cons hin (by decide)).halted rfl
  | case8 c cs position hlast hescape hquote hfeed htemplate ih =>
    cases hothers : readCharacters opening cs (position.after c) with
    | error fault =>
      rw [hothers] at h
      obtain rfl := Except.error.inj h
      exact ih hin.step hothers
    | ok reading =>
      rw [hothers] at h
      cases h

theorem remains_of_reached (hin : cursor.In source) {found : Option (Literal × Cursor)}
    (h : Reached cursor found) : Remains source found :=
  fun literal after hfound => hin.later (h literal after hfound)

theorem halts_readString (h : cursor.Rests source .multiline) :
    Halts source (Remains source) (readString cursor) := by
  have hkeeps : Keeps source (Reached cursor) (readString cursor) := keeps_readString h.inside
  cases hread : readString cursor with
  | ok found => exact remains_of_reached h.inside (hkeeps.of_ok hread)
  | error failure =>
    unfold readString at hread
    split at hread
    · cases hread
    rename_i behind hquote
    have hbehind := h.inside.later (Cursor.reads_of_char? hquote).precedes
    cases hcharacters : readCharacters cursor behind.rest behind.position with
    | ok reading =>
      rw [hcharacters] at hread
      cases hread
    | error fault =>
      rw [hcharacters] at hread
      obtain rfl := Except.error.inj hread
      exact halted_of_readCharacters h hbehind hcharacters

theorem halts_readNumber (h : cursor.Rests source .multiline) :
    Halts source (Remains source) (readNumber cursor) := by
  have hkeeps : Keeps source (Reached cursor) (readNumber cursor) := keeps_readNumber h.inside
  cases hread : readNumber cursor with
  | ok found => exact remains_of_reached h.inside (hkeeps.of_ok hread)
  | error failure =>
    unfold readNumber at hread
    -- The sign, the digits and the suffix cannot fail, only their value can.
    split at hread
    split at hread
    split at hread
    split at hread
    · cases hread
    · dsimp only at hread
      split at hread
      · cases hread
      · obtain rfl := Except.error.inj hread
        exact h.halted rfl

end Literal

namespace Parser

variable {budget : Nat}

theorem halts_literalOrWord? (h : cursor.Rests source .multiline) :
    Halts source (Remains source) (literalOrWord? cursor) := by
  unfold literalOrWord?
  refine (Literal.halts_readString h).bind fun text htext => ?_
  split
  · exact remains_some (htext _ _ rfl)
  refine (Literal.halts_readNumber h).bind fun number hnumber => ?_
  split
  · exact remains_some (hnumber _ _ rfl)
  split
  · rename_i hboolean
    exact remains_some (h.inside.later (Literal.precedes_of_readBoolean hboolean))
  split
  · rename_i hword
    exact remains_some (h.inside.later (Cursor.reads_of_keyword? hword).1.precedes)
  split
  · rename_i hword
    exact remains_some (h.inside.later (Cursor.reads_of_keyword? hword).1.precedes)
  · exact remains_none

theorem halts_charAfter {c : Char} (hin : cursor.In source) :
    Halts source (fun found => ∀ after ∈ found, after.In source) (charAfter spacing c cursor) := by
  unfold charAfter
  refine (Spacing.halts_skip hin).bind fun next hnext after hafter => ?_
  exact hnext.inside.later (Cursor.reads_of_char? hafter).precedes

theorem halts_statementEnd (hin : cursor.In source) :
    Halts source (Cursor.In source) (statementEnd cursor) := by
  unfold statementEnd
  refine (Spacing.halts_skip hin).bind fun stop hstop => ?_
  have hdrop : ∀ count, (stop.drop count).In source :=
    fun count => hstop.inside.later (stop.reads_drop count).precedes
  split
  · exact hstop.inside
  · exact hdrop 1
  · exact hdrop 1
  · exact hdrop 2
  · exact hstop.inside
  · exact .fail hstop rfl

/-- What must be there is there, or is missed behind the spacing in front of it. -/
theorem halts_required {α β : Type} {goal : β → Prop} {cause : Failure.Cause}
    {step : Except Failure (Option (Reading α))} {next : Reading α → Except Failure β}
    (hcursor : cursor.Rests source spacing) (hcause : cause.passed = some spacing)
    (h : Halts source (Remains source) step)
    (hnext : ∀ value after, after.In source → Halts source goal (next (value, after))) :
    Halts source goal
      (do let found ← step; let reading ← require cause cursor found; next reading) := by
  refine h.bind fun found hfound => ?_
  cases found with
  | none => exact .fail hcursor hcause
  | some reading => exact hnext _ _ (hfound _ _ rfl)

/-- The readers fail behind spacing only. Those that report what is missing where they begin are
begun behind spacing. -/
structure Stops (source : String) (budget : Nat) : Prop where
  expression : ∀ {cursor}, cursor.Rests source .multiline →
    Halts source (Remains source) (expression budget cursor)
  chain : ∀ {start cursor value}, cursor.In source →
    Halts source (fun (_, after) => after.In source) (chain budget start value cursor)
  primary : ∀ {cursor}, cursor.Rests source .multiline →
    Halts source (Remains source) (primary budget cursor)
  suffix : ∀ {cursor}, cursor.In source →
    Halts source (fun (_, after) => after.In source) (suffix budget cursor)
  valueArguments : ∀ {cursor}, cursor.In source →
    Halts source (fun (_, after) => after.In source) (valueArguments budget cursor)
  moreArguments : ∀ {cursor}, cursor.In source →
    Halts source (fun (_, after) => after.In source) (moreArguments budget cursor)
  argument : ∀ {cursor}, cursor.Rests source .multiline →
    Halts source (Remains source) (argument budget cursor)
  lambda : ∀ {cursor}, cursor.In source → Halts source (Remains source) (lambda budget cursor)
  blockBody : ∀ {cursor}, cursor.Rests source .multiline →
    Halts source (fun (_, after) => after.In source) (blockBody budget cursor)
  statement : ∀ {cursor}, cursor.Rests source .multiline →
    Halts source (fun (_, after) => after.In source) (statement budget cursor)

theorem zero_stops : Stops source 0 where
  expression h := .exhausted h.inside
  chain h := .exhausted h
  primary h := .exhausted h.inside
  suffix h := .exhausted h
  valueArguments h := .exhausted h
  moreArguments h := .exhausted h
  argument h := .exhausted h.inside
  lambda h := .exhausted h
  blockBody h := .exhausted h.inside
  statement h := .exhausted h.inside

theorem chain_stops (h : Stops source budget) {value : Expr} (hin : cursor.In source) :
    Halts source (fun (_, after) => after.In source) (chain (budget + 1) start value cursor) := by
  rw [chain]
  refine (halts_charAfter hin).bind fun dot hdot => ?_
  split
  · exact hin
  refine (Spacing.halts_skip (hdot _ rfl)).bind fun word hword => ?_
  split
  · exact .fail hword rfl
  rename_i hname
  have hafterName := hword.inside.later (Cursor.reads_of_name? hname).precedes
  refine (h.suffix hafterName).bind ?_
  rintro ⟨arguments, behind⟩ hbehind
  exact h.chain hbehind

theorem primary_stops (h : Stops source budget) (hcursor : cursor.Rests source .multiline) :
    Halts source (Remains source) (primary (budget + 1) cursor) := by
  rw [primary]
  refine (halts_literalOrWord? hcursor).bind fun word hword => ?_
  split
  · exact hword
  dsimp only
  split
  · rename_i inside hopening
    have hinside := hcursor.inside.later (Cursor.reads_of_char? hopening).precedes
    refine (Spacing.halts_skip hinside).bind fun first hfirst => ?_
    refine halts_required hfirst rfl (h.expression hfirst) fun value behind hbehind => ?_
    refine (Spacing.halts_skip hbehind).bind fun last hlast => ?_
    split
    · rename_i hclosing
      exact remains_some (hlast.inside.later (Cursor.reads_of_char? hclosing).precedes)
    · exact .fail hlast rfl
  split
  · exact remains_none
  rename_i hname
  refine (h.suffix (hcursor.inside.later (Cursor.reads_of_name? hname).precedes)).bind ?_
  rintro ⟨arguments, after⟩ hafter
  exact remains_some hafter

theorem suffix_stops (h : Stops source budget) (hin : cursor.In source) :
    Halts source (fun (_, after) => after.In source) (suffix (budget + 1) cursor) := by
  rw [suffix]
  refine (Spacing.halts_skip hin).bind fun opening hopening => ?_
  split
  · rename_i inside hparen
    have hinside := hopening.inside.later (Cursor.reads_of_char? hparen).precedes
    refine (h.valueArguments hinside).bind ?_
    rintro ⟨values, behind⟩ hbehind
    refine (Spacing.halts_skip hbehind).bind fun block hblock => ?_
    refine (h.lambda hblock.inside).bind fun found hfound => ?_
    split
    · exact hfound _ _ rfl
    · exact hbehind
  · refine (h.lambda hopening.inside).bind fun found hfound => ?_
    split
    · exact hfound _ _ rfl
    · exact hin

theorem halts_closeArguments {values : List Argument} (hin : cursor.In source) :
    Halts source (fun (_, after) => after.In source) (do
      let after := (← charAfter .multiline ',' cursor).getD cursor
      let after ← Spacing.multiline.skip after
      match after.char? ')' with
      | some after => return (values, after)
      | none => throw (Failure.ofCursor .unclosedArguments after)) := by
  refine (halts_charAfter hin).bind fun separator hseparator => ?_
  have hcomma : (separator.getD cursor).In source := by
    cases separator with
    | none => exact hin
    | some after => exact hseparator after rfl
  refine (Spacing.halts_skip hcomma).bind fun stop hstop => ?_
  split
  · rename_i hclosing
    exact hstop.inside.later (Cursor.reads_of_char? hclosing).precedes
  · exact .fail hstop rfl

theorem valueArguments_stops (h : Stops source budget) (hin : cursor.In source) :
    Halts source (fun (_, after) => after.In source) (valueArguments (budget + 1) cursor) := by
  rw [valueArguments]
  refine (Spacing.halts_skip hin).bind fun first hfirst => ?_
  refine (h.argument hfirst).bind fun found hfound => ?_
  split
  · exact halts_closeArguments hin
  · refine (h.moreArguments (hfound _ _ rfl)).bind ?_
    rintro ⟨others, behind⟩ hbehind
    exact halts_closeArguments hbehind

theorem moreArguments_stops (h : Stops source budget) (hin : cursor.In source) :
    Halts source (fun (_, after) => after.In source) (moreArguments (budget + 1) cursor) := by
  rw [moreArguments]
  refine (halts_charAfter hin).bind fun comma hcomma => ?_
  split
  · exact hin
  refine (Spacing.halts_skip (hcomma _ rfl)).bind fun first hfirst => ?_
  refine (h.argument hfirst).bind fun found hfound => ?_
  split
  · exact hin
  · refine (h.moreArguments (hfound _ _ rfl)).bind ?_
    rintro ⟨others, behind⟩ hbehind
    exact hbehind

theorem positional_stops (h : Stops source budget) (hcursor : cursor.Rests source .multiline) :
    Halts source (Remains source) (do
      match ← expression budget cursor with
      | none => return none
      | some (value, after) =>
        return some (Argument.positional value (cursor.spanTo after), after)) := by
  refine (h.expression hcursor).bind fun found hfound => ?_
  split
  · exact remains_none
  · exact remains_some (hfound _ _ rfl)

theorem argument_stops (h : Stops source budget) (hcursor : cursor.Rests source .multiline) :
    Halts source (Remains source) (argument (budget + 1) cursor) := by
  rw [argument]
  split
  · rename_i name afterName hname
    have hafterName := hcursor.inside.later (Cursor.reads_of_name? hname).precedes
    refine (Spacing.halts_skip hafterName).bind fun sign hsign => ?_
    split
    · rename_i afterSign hassigned
      have hafterSign := hsign.inside.later (Cursor.reads_of_assignmentSign? hassigned).1.precedes
      refine (Spacing.halts_skip hafterSign).bind fun inside hinside => ?_
      exact halts_required hinside rfl (h.expression hinside) fun value after => remains_some
    · exact positional_stops h hcursor
  · exact positional_stops h hcursor

theorem lambda_stops (h : Stops source budget) (hin : cursor.In source) :
    Halts source (Remains source) (lambda (budget + 1) cursor) := by
  rw [lambda]
  split
  · exact remains_none
  rename_i inside hopening
  have hinside := hin.later (Cursor.reads_of_char? hopening).precedes
  refine (Spacing.halts_skip hinside).bind fun first hfirst => ?_
  refine (h.blockBody (Spacing.rests_of_separators hfirst)).bind ?_
  rintro ⟨statements, after⟩ hafter
  exact remains_some hafter

theorem blockBody_stops (h : Stops source budget) (hcursor : cursor.Rests source .multiline) :
    Halts source (fun (_, after) => after.In source) (blockBody (budget + 1) cursor) := by
  rw [blockBody]
  split
  · rename_i hclosing
    exact hcursor.inside.later (Cursor.reads_of_char? hclosing).precedes
  dsimp only
  split
  · exact .fail hcursor rfl
  refine (h.statement hcursor).bind ?_
  rintro ⟨first, behind⟩ hbehind
  refine (halts_statementEnd hbehind).bind fun ended hended => ?_
  refine (Spacing.halts_skip hended).bind fun next hnext => ?_
  refine (h.blockBody (Spacing.rests_of_separators hnext)).bind ?_
  rintro ⟨others, after⟩ hafter
  exact hafter

theorem statement_stops (h : Stops source budget) (hcursor : cursor.Rests source .multiline) :
    Halts source (fun (_, after) => after.In source) (statement (budget + 1) cursor) := by
  rw [statement]
  split
  · rename_i afterWord hword
    have hafterWord := hcursor.inside.later (Cursor.reads_of_keyword? hword).1.precedes
    refine (Spacing.halts_skip hafterWord).bind fun word hstart => ?_
    split
    · exact .fail hstart rfl
    rename_i hname
    have hafterName := hstart.inside.later (Cursor.reads_of_name? hname).precedes
    refine (Spacing.halts_skip hafterName).bind fun sign hsign => ?_
    split
    · exact .fail hsign rfl
    rename_i hequals
    have hafterSign := hsign.inside.later (Cursor.reads_of_char? hequals).precedes
    refine (Spacing.halts_skip hafterSign).bind fun inside hinside => ?_
    exact halts_required hinside rfl (h.expression hinside) fun value after hafter => hafter
  dsimp only
  split
  · exact .fail hcursor rfl
  refine halts_required hcursor rfl (h.expression hcursor) fun target behind hbehind => ?_
  refine (Spacing.halts_skip hbehind).bind fun sign hsign => ?_
  split
  · exact hbehind
  rename_i afterSign hassigned
  have hafterSign := hsign.inside.later (Cursor.reads_of_assignmentSign? hassigned).1.precedes
  cases target with
  | property receiver name span =>
    refine (Spacing.halts_skip hafterSign).bind fun inside hinside => ?_
    exact halts_required hinside rfl (h.expression hinside) fun value after hafter => hafter
  | _ => exact .fail hcursor rfl

theorem succ_stops (h : Stops source budget) : Stops source (budget + 1) where
  expression hcursor := by
    rw [Parser.expression]
    refine (h.primary hcursor).bind fun found hfound => ?_
    split
    · exact remains_none
    · exact (h.chain (hfound _ _ rfl)).bind fun _ hresult => remains_some hresult
  chain := chain_stops h
  primary := primary_stops h
  suffix := suffix_stops h
  valueArguments := valueArguments_stops h
  moreArguments := moreArguments_stops h
  argument := argument_stops h
  lambda := lambda_stops h
  blockBody := blockBody_stops h
  statement := statement_stops h

theorem stops (source : String) (budget : Nat) : Stops source budget := by
  induction budget with
  | zero => exact zero_stops
  | succ budget ih => exact succ_stops ih

theorem halts_importStatement (hin : cursor.In source) :
    Halts source (Remains source) (importStatement cursor) := by
  unfold importStatement
  split
  · exact remains_none
  rename_i afterWord hword
  have hafterWord := hin.later (Cursor.reads_of_keyword? hword).1.precedes
  refine (Spacing.halts_skip hafterWord).bind fun first hfirst => ?_
  cases hparts : dottedNames (Parser.budget first) first with
  | none => exact .fail hfirst rfl
  | some reading => exact remains_some (hfirst.inside.later (precedes_of_dottedNames hparts))

theorem halts_topLevelStatement (h : cursor.Rests source .multiline) :
    Halts source (fun (_, after) => after.In source) (topLevelStatement cursor) := by
  unfold topLevelStatement
  refine (halts_importStatement h.inside).bind fun found hfound => ?_
  split
  · exact (halts_statementEnd (hfound _ _ rfl)).bind fun ended hended => hended
  · refine ((stops source _).statement h).bind ?_
    rintro ⟨result, behind⟩ hbehind
    exact (halts_statementEnd hbehind).bind fun ended hended => hended

/-- Every failure of a script stands behind spacing, those behind a recovery too. -/
theorem halted_of_mem_failures {started : Bool} (hin : cursor.In source) :
    ∀ failure ∈ (statementsFrom budget started cursor).failures, failure.Halted source := by
  induction budget generalizing started cursor with
  | zero => simpa [statementsFrom] using hin.halted_exhausted
  | succ budget ih =>
    have hskip : Halts source (Cursor.Rests source .separators) (Spacing.separators.skip cursor) :=
      Spacing.halts_skip hin
    rw [statementsFrom]
    cases hstart : Spacing.separators.skip cursor with
    | error failure =>
      rw [hstart] at hskip
      exact List.forall_mem_singleton.mpr hskip
    | ok start =>
      rw [hstart] at hskip
      have hrests := Spacing.rests_of_separators hskip
      have hfirst := halts_topLevelStatement hrests
      dsimp only
      split
      · simp
      split
      · rename_i failure hfailure
        rw [hfailure] at hfirst
        have hrecovered := (start.reads_drop (brokenLength .outside [] start.rest)).precedes
        exact List.forall_mem_cons.mpr ⟨hfirst, ih (hrests.inside.later hrecovered)⟩
      · rename_i first after hread
        rw [hread] at hfirst
        intro failure hfailure
        rcases List.mem_append.mp hfailure with hmisplaced | hlater
        · split at hmisplaced
          · obtain rfl := List.mem_singleton.mp hmisplaced
            exact hrests.halted rfl
          · cases hmisplaced
        · exact ih hfirst failure hlater

theorem halts_read (source : String) :
    Halts source (fun _ => True) (Expr.parse.read (.ofSource source)) := by
  unfold Expr.parse.read
  refine (Spacing.halts_skip Cursor.in_ofSource).bind fun start hstart => ?_
  refine halts_required hstart rfl ((stops source _).expression hstart) fun value after hafter => ?_
  refine (Spacing.halts_skip hafter).bind fun stop hstop => ?_
  split
  · trivial
  · exact .fail hstop rfl

end Parser

/-- Whatever a source is read as, its failures stand in it behind spacing. -/
theorem halted_of_parse {label source : String} {failures : ParseFailures}
    (h : Block.parse label source = .error failures ∨ Expr.parse source = .error failures) :
    ∀ failure ∈ failures.failures, failure.Halted source := by
  rcases h with h | h
  · unfold Block.parse at h
    dsimp only at h
    split at h
    · cases h
    · obtain rfl := Except.error.inj h
      exact Parser.halted_of_mem_failures Cursor.in_ofSource
  · have hread := Parser.halts_read source
    unfold Expr.parse at h
    cases hvalue : Expr.parse.read (.ofSource source) with
    | ok value =>
      rw [hvalue] at h
      cases h
    | error failure =>
      rw [hvalue] at h hread
      obtain rfl := Except.error.inj h
      exact List.forall_mem_singleton.mpr hread

end ConfigScript
