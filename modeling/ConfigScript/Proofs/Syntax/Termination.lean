import ConfigScript.Proofs.Faults
import ConfigScript.Proofs.Syntax.Halting
import ConfigScript.Proofs.Syntax.Progress

/-!
# Readings come to an end

Every level of the descent costs one unit of budget, and few levels in a row read nothing. A budget
in proportion to the characters that are left hence lasts for whatever stands there, broken or not:
no reading fails for want of it, and none comes to anything else with more of it. Reading a script
ends where its source ends.
-/

namespace ConfigScript.Parser

open Fallible

variable {α β : Type} {budget : Nat} {cursor start after : Cursor} {cause : Failure.Cause}

/-- Whether the budget has lasted for a step: if it fails, then for another reason. -/
abbrev Lasts (step : Except Failure α) : Prop :=
  FaultsIn (fun failure => failure.cause ≠ .exhausted) step

theorem lasts_error (h : cause ≠ .exhausted) :
    Lasts (.error (.ofCursor cause cursor) : Except Failure α) :=
  faultsIn_error h

theorem lasts_skip {spacing : Spacing} : Lasts (spacing.skip cursor) := by
  intro failure hfailure
  rw [Spacing.cause_of_skipFrom hfailure]
  decide

theorem lasts_charAfter {spacing : Spacing} {c : Char} : Lasts (charAfter spacing c cursor) :=
  lasts_skip.bind fun _ _ => faultsIn_pure _

theorem lasts_readCharacters {opening : Cursor} {cs : List Char} {position : Position} :
    Lasts (Literal.readCharacters opening cs position) := by
  fun_induction Literal.readCharacters opening cs position with
  | case1 => exact lasts_error (by decide)
  | case2 => exact lasts_error (by decide)
  | case3 c cs position value hvalue ih => exact ih.bind fun _ _ => faultsIn_pure _
  | case4 => exact lasts_error (by decide)
  | case5 => exact faultsIn_ok _
  | case6 => exact lasts_error (by decide)
  | case7 => exact lasts_error (by decide)
  | case8 c cs position _ _ _ _ _ ih => exact ih.bind fun _ _ => faultsIn_pure _

theorem lasts_readString : Lasts (Literal.readString cursor) := by
  unfold Literal.readString
  split
  · exact faultsIn_ok _
  · exact lasts_readCharacters.bind fun _ _ => faultsIn_pure _

theorem lasts_readNumber : Lasts (Literal.readNumber cursor) := by
  unfold Literal.readNumber
  split
  split
  split
  split
  · exact faultsIn_ok _
  · dsimp only
    split
    · exact faultsIn_ok _
    · exact lasts_error (by decide)

theorem lasts_literalOrWord? : Lasts (literalOrWord? cursor) := by
  unfold literalOrWord?
  refine lasts_readString.bind fun text _ => ?_
  split
  · exact faultsIn_pure _
  refine lasts_readNumber.bind fun number _ => ?_
  split
  · exact faultsIn_pure _
  split
  · exact faultsIn_pure _
  split
  · exact faultsIn_pure _
  split
  · exact faultsIn_pure _
  · exact faultsIn_pure _

theorem lasts_statementEnd : Lasts (statementEnd cursor) := by
  unfold statementEnd
  refine lasts_skip.bind fun stop _ => ?_
  split
  · exact faultsIn_pure _
  · exact faultsIn_pure _
  · exact faultsIn_pure _
  · exact faultsIn_pure _
  · exact faultsIn_pure _
  · exact lasts_error (by decide)

/-- A step that comes to the same with a larger budget, and for which its own one has lasted. -/
structure Settles (step larger : Except Failure α) : Prop where
  same : larger = step
  lasts : Lasts step

namespace Settles

variable {step larger : Except Failure α}

theorem of_lasts (h : Lasts step) : Settles step step :=
  ⟨rfl, h⟩

theorem pure (value : α) : Settles (Pure.pure value : Except Failure α) (Pure.pure value) :=
  of_lasts (faultsIn_pure value)

theorem fail (h : cause ≠ .exhausted) :
    Settles (throw (.ofCursor cause cursor) : Except Failure α) (throw (.ofCursor cause cursor)) :=
  of_lasts (lasts_error h)

theorem bind {next later : α → Except Failure β} (h : Settles step larger)
    (hnext : ∀ value, step = .ok value → Settles (next value) (later value)) :
    Settles (step >>= next) (larger >>= later) where
  same := by
    obtain rfl := h.same
    exact bind_congr fun value hvalue => (hnext value hvalue).same
  lasts := h.lasts.bind fun value hvalue => (hnext value hvalue).lasts

/-- What must be there is there, or is missed for its own reason. -/
theorem require {step larger : Except Failure (Option (Reading α))}
    {next later : Reading α → Except Failure β} (h : Settles step larger)
    (hcause : cause ≠ .exhausted)
    (hnext : ∀ value after, step = .ok (some (value, after)) →
      Settles (next (value, after)) (later (value, after))) :
    Settles (do let found ← step; let reading ← Parser.require cause cursor found; next reading)
      (do let found ← larger; let reading ← Parser.require cause cursor found; later reading) := by
  refine h.bind fun found hfound => ?_
  cases found with
  | none => exact fail hcause
  | some reading => exact hnext _ _ hfound

end Settles

/-- The readers of the descent come to an end within a budget of eight units for each character that
is left, and a few more where they may ask for another reader without reading anything. -/
structure Settled (budget : Nat) : Prop where
  expression : ∀ {cursor}, 8 * cursor.rest.length + 2 ≤ budget →
    Settles (expression budget cursor) (expression (budget + 1) cursor)
  chain : ∀ {start value cursor}, 8 * cursor.rest.length + 1 ≤ budget →
    Settles (chain budget start value cursor) (chain (budget + 1) start value cursor)
  primary : ∀ {cursor}, 8 * cursor.rest.length + 1 ≤ budget →
    Settles (primary budget cursor) (primary (budget + 1) cursor)
  suffix : ∀ {cursor}, 8 * cursor.rest.length + 2 ≤ budget →
    Settles (suffix budget cursor) (suffix (budget + 1) cursor)
  valueArguments : ∀ {cursor}, 8 * cursor.rest.length + 4 ≤ budget →
    Settles (valueArguments budget cursor) (valueArguments (budget + 1) cursor)
  moreArguments : ∀ {cursor}, 8 * cursor.rest.length + 1 ≤ budget →
    Settles (moreArguments budget cursor) (moreArguments (budget + 1) cursor)
  argument : ∀ {cursor}, 8 * cursor.rest.length + 3 ≤ budget →
    Settles (argument budget cursor) (argument (budget + 1) cursor)
  lambda : ∀ {cursor}, 8 * cursor.rest.length + 1 ≤ budget →
    Settles (lambda budget cursor) (lambda (budget + 1) cursor)
  blockBody : ∀ {cursor}, 8 * cursor.rest.length + 4 ≤ budget →
    Settles (blockBody budget cursor) (blockBody (budget + 1) cursor)
  statement : ∀ {cursor}, 8 * cursor.rest.length + 3 ≤ budget →
    Settles (statement budget cursor) (statement (budget + 1) cursor)

theorem expression_settles (h : Settled budget)
    (hbudget : 8 * cursor.rest.length + 2 ≤ budget + 1) :
    Settles (expression (budget + 1) cursor) (expression (budget + 2) cursor) := by
  rw [expression, expression]
  refine (h.primary (by omega)).bind fun found hfound => ?_
  cases found with
  | none => exact .pure none
  | some reading =>
    obtain ⟨value, after⟩ := reading
    have hless := ((descent_advances _ _).primary hfound).length_lt
    exact (h.chain (by omega)).bind fun _ _ => .pure _

theorem chain_settles (h : Settled budget) {value : Expr}
    (hbudget : 8 * cursor.rest.length + 1 ≤ budget + 1) :
    Settles (chain (budget + 1) start value cursor) (chain (budget + 2) start value cursor) := by
  rw [chain, chain]
  refine (Settles.of_lasts lasts_charAfter).bind fun found hfound => ?_
  cases found with
  | none => exact .pure _
  | some afterDot =>
    have hdot := (advances_of_charAfter hfound).length_lt
    refine (Settles.of_lasts lasts_skip).bind fun word hword => ?_
    have hskipped := (Spacing.precedes_of_skip hword).length_le
    dsimp only
    cases hname : word.name? with
    | none => exact .fail (by decide)
    | some reading =>
      obtain ⟨name, afterName⟩ := reading
      have hnamed := (Cursor.advances_of_name? hname).length_lt
      refine (h.suffix (by omega)).bind fun reading hsuffix => ?_
      obtain ⟨arguments, behind⟩ := reading
      have hbehind := ((descent_advances _ _).suffix hsuffix).1.length_le
      exact h.chain (by dsimp only; omega)

theorem primary_settles (h : Settled budget)
    (hbudget : 8 * cursor.rest.length + 1 ≤ budget + 1) :
    Settles (primary (budget + 1) cursor) (primary (budget + 2) cursor) := by
  rw [primary, primary]
  refine (Settles.of_lasts lasts_literalOrWord?).bind fun found _ => ?_
  cases found with
  | some reading => exact .pure _
  | none =>
    dsimp only
    cases hparen : cursor.char? '(' with
    | some inside =>
      have hopened := (Cursor.advances_of_char? hparen).length_lt
      refine (Settles.of_lasts lasts_skip).bind fun first hfirst => ?_
      have hskipped := (Spacing.precedes_of_skip hfirst).length_le
      refine (h.expression (by omega)).require (by decide) fun value behind _ => ?_
      refine (Settles.of_lasts lasts_skip).bind fun last _ => ?_
      dsimp only
      cases last.char? ')' with
      | some after => exact .pure _
      | none => exact .fail (by decide)
    | none =>
      dsimp only
      cases hname : cursor.name? with
      | none => exact .pure _
      | some reading =>
        obtain ⟨name, afterName⟩ := reading
        have hnamed := (Cursor.advances_of_name? hname).length_lt
        exact (h.suffix (by omega)).bind fun _ _ => .pure _

theorem suffix_settles (h : Settled budget)
    (hbudget : 8 * cursor.rest.length + 2 ≤ budget + 1) :
    Settles (suffix (budget + 1) cursor) (suffix (budget + 2) cursor) := by
  rw [suffix, suffix]
  refine (Settles.of_lasts lasts_skip).bind fun opening hopening => ?_
  have hskipped := (Spacing.precedes_of_skip hopening).length_le
  dsimp only
  cases hparen : opening.char? '(' with
  | some inside =>
    have hopened := (Cursor.advances_of_char? hparen).length_lt
    refine (h.valueArguments (by omega)).bind ?_
    rintro ⟨values, behind⟩ hvalues
    have hlisted := ((descent_advances _ _).valueArguments hvalues).length_lt
    refine (Settles.of_lasts lasts_skip).bind fun block hblock => ?_
    have hbehind := (Spacing.precedes_of_skip hblock).length_le
    refine (h.lambda (by dsimp only at hbehind; omega)).bind fun found _ => ?_
    cases found with
    | some reading => exact .pure _
    | none => exact .pure _
  | none =>
    refine (h.lambda (by omega)).bind fun found _ => ?_
    cases found with
    | some reading => exact .pure _
    | none => exact .pure _

/-- The end of an argument list asks for nothing that costs budget. -/
theorem lasts_closeArguments {listed : List Argument} :
    Lasts (do
      let after := (← charAfter .multiline ',' cursor).getD cursor
      let after ← Spacing.multiline.skip after
      match after.char? ')' with
      | some after => return (listed, after)
      | none => throw (Failure.ofCursor .unclosedArguments after)) := by
  refine lasts_charAfter.bind fun separator _ => lasts_skip.bind fun last _ => ?_
  split
  · exact faultsIn_pure _
  · exact lasts_error (by decide)

theorem valueArguments_settles (h : Settled budget)
    (hbudget : 8 * cursor.rest.length + 4 ≤ budget + 1) :
    Settles (valueArguments (budget + 1) cursor) (valueArguments (budget + 2) cursor) := by
  rw [valueArguments, valueArguments]
  refine (Settles.of_lasts lasts_skip).bind fun first hfirst => ?_
  have hskipped := (Spacing.precedes_of_skip hfirst).length_le
  refine (h.argument (by omega)).bind fun found hfound => ?_
  cases found with
  | none => exact .of_lasts lasts_closeArguments
  | some reading =>
    obtain ⟨value, next⟩ := reading
    have hless := (advances_of_argument hfound).length_lt
    refine (h.moreArguments (by omega)).bind fun reading _ => ?_
    exact .of_lasts lasts_closeArguments

theorem moreArguments_settles (h : Settled budget)
    (hbudget : 8 * cursor.rest.length + 1 ≤ budget + 1) :
    Settles (moreArguments (budget + 1) cursor) (moreArguments (budget + 2) cursor) := by
  rw [moreArguments, moreArguments]
  refine (Settles.of_lasts lasts_charAfter).bind fun comma hcomma => ?_
  cases comma with
  | none => exact .pure _
  | some afterComma =>
    have hbehind := (advances_of_charAfter hcomma).length_lt
    refine (Settles.of_lasts lasts_skip).bind fun first hfirst => ?_
    have hskipped := (Spacing.precedes_of_skip hfirst).length_le
    refine (h.argument (by omega)).bind fun found hfound => ?_
    cases found with
    | none => exact .pure _
    | some reading =>
      obtain ⟨value, next⟩ := reading
      have hless := (advances_of_argument hfound).length_lt
      exact (h.moreArguments (by omega)).bind fun _ _ => .pure _

theorem positional_settles (h : Settled budget) (hbudget : 8 * cursor.rest.length + 2 ≤ budget) :
    Settles
      (do match ← expression budget cursor with
          | none => return none
          | some (value, after) =>
            return some (Argument.positional value (cursor.spanTo after), after))
      (do match ← expression (budget + 1) cursor with
          | none => return none
          | some (value, after) =>
            return some (Argument.positional value (cursor.spanTo after), after)) := by
  refine (h.expression hbudget).bind fun found _ => ?_
  cases found with
  | none => exact .pure _
  | some reading => exact .pure _

theorem argument_settles (h : Settled budget)
    (hbudget : 8 * cursor.rest.length + 3 ≤ budget + 1) :
    Settles (argument (budget + 1) cursor) (argument (budget + 2) cursor) := by
  rw [argument, argument]
  cases hname : cursor.name? with
  | none => exact positional_settles h (by omega)
  | some reading =>
    obtain ⟨name, afterName⟩ := reading
    have hnamed := (Cursor.advances_of_name? hname).length_lt
    refine (Settles.of_lasts lasts_skip).bind fun sign hsign => ?_
    have hskipped := (Spacing.precedes_of_skip hsign).length_le
    dsimp only
    cases hassigned : sign.assignmentSign? with
    | none => exact positional_settles h (by omega)
    | some afterSign =>
      have hless := (Cursor.advances_of_assignmentSign? hassigned).length_lt
      refine (Settles.of_lasts lasts_skip).bind fun inside hinside => ?_
      have hinner := (Spacing.precedes_of_skip hinside).length_le
      exact (h.expression (by omega)).require (by decide) fun value behind _ => .pure _

theorem lambda_settles (h : Settled budget)
    (hbudget : 8 * cursor.rest.length + 1 ≤ budget + 1) :
    Settles (lambda (budget + 1) cursor) (lambda (budget + 2) cursor) := by
  rw [lambda, lambda]
  cases hopening : cursor.char? '\x7b' with
  | none => exact .pure _
  | some inside =>
    have hopened := (Cursor.advances_of_char? hopening).length_lt
    refine (Settles.of_lasts lasts_skip).bind fun first hfirst => ?_
    have hskipped := (Spacing.precedes_of_skip hfirst).length_le
    exact (h.blockBody (by omega)).bind fun _ _ => .pure _

theorem blockBody_settles (h : Settled budget)
    (hbudget : 8 * cursor.rest.length + 4 ≤ budget + 1) :
    Settles (blockBody (budget + 1) cursor) (blockBody (budget + 2) cursor) := by
  rw [blockBody, blockBody]
  cases cursor.char? '\x7d' with
  | some after => exact .pure _
  | none =>
    dsimp only
    split
    · exact .fail (by decide)
    · refine (h.statement (by omega)).bind ?_
      rintro ⟨first, behind⟩ hfirst
      have hless := ((descent_advances _ _).statement hfirst).length_lt
      refine (Settles.of_lasts lasts_statementEnd).bind fun ended hended => ?_
      have hbehind := (precedes_of_statementEnd hended).length_le
      refine (Settles.of_lasts lasts_skip).bind fun next hnext => ?_
      have hskipped := (Spacing.precedes_of_skip hnext).length_le
      dsimp only at hbehind
      exact (h.blockBody (by omega)).bind fun _ _ => .pure _

theorem statement_settles (h : Settled budget)
    (hbudget : 8 * cursor.rest.length + 3 ≤ budget + 1) :
    Settles (statement (budget + 1) cursor) (statement (budget + 2) cursor) := by
  rw [statement, statement]
  cases hword : cursor.keyword? "val" with
  | some afterWord =>
    have hval := (Cursor.advances_of_keyword? (by decide) hword).length_lt
    refine (Settles.of_lasts lasts_skip).bind fun first hfirst => ?_
    have hskipped := (Spacing.precedes_of_skip hfirst).length_le
    dsimp only
    cases hname : first.name? with
    | none => exact .fail (by decide)
    | some reading =>
      obtain ⟨name, afterName⟩ := reading
      have hnamed := (Cursor.advances_of_name? hname).length_lt
      refine (Settles.of_lasts lasts_skip).bind fun sign hsign => ?_
      have hbehind := (Spacing.precedes_of_skip hsign).length_le
      cases hequals : sign.char? '=' with
      | none => exact .fail (by decide)
      | some afterSign =>
        have hassigned := (Cursor.advances_of_char? hequals).length_lt
        refine (Settles.of_lasts lasts_skip).bind fun inside hinside => ?_
        have hinner := (Spacing.precedes_of_skip hinside).length_le
        exact (h.expression (by omega)).require (by decide) fun value behind _ => .pure _
  | none =>
    dsimp only
    split
    · exact .fail (by decide)
    · refine (h.expression (by omega)).require (by decide) fun target behind htarget => ?_
      have hless := ((descent_advances _ _).expression htarget).length_lt
      refine (Settles.of_lasts lasts_skip).bind fun sign hsign => ?_
      have hskipped : sign.rest.length ≤ behind.rest.length :=
        (Spacing.precedes_of_skip hsign).length_le
      dsimp only
      cases hassigned : sign.assignmentSign? with
      | none => exact .pure _
      | some afterSign =>
        have hequals := (Cursor.advances_of_assignmentSign? hassigned).length_lt
        cases target with
        | property receiver name span =>
          refine (Settles.of_lasts lasts_skip).bind fun inside hinside => ?_
          have hinner := (Spacing.precedes_of_skip hinside).length_le
          exact (h.expression (by omega)).require (by decide) fun value last _ => .pure _
        | _ => exact .fail (by decide)

theorem succ_settled (h : Settled budget) : Settled (budget + 1) where
  expression := expression_settles h
  chain := chain_settles h
  primary := primary_settles h
  suffix := suffix_settles h
  valueArguments := valueArguments_settles h
  moreArguments := moreArguments_settles h
  argument := argument_settles h
  lambda := lambda_settles h
  blockBody := blockBody_settles h
  statement := statement_settles h

theorem zero_settled : Settled 0 where
  expression h := by omega
  chain h := by omega
  primary h := by omega
  suffix h := by omega
  valueArguments h := by omega
  moreArguments h := by omega
  argument h := by omega
  lambda h := by omega
  blockBody h := by omega
  statement h := by omega

/-- A budget that lasts for what is left brings every reader to its end. -/
theorem settled (budget : Nat) : Settled budget := by
  induction budget with
  | zero => exact zero_settled
  | succ budget ih => exact succ_settled ih

/-- A reader that has come to its end within a budget: more of it changes nothing, and if it fails,
then not for want of budget. -/
structure Ends (read : Nat → Except Failure α) (budget : Nat) : Prop where
  same : ∀ more, read (budget + more) = read budget
  lasts : Lasts (read budget)

theorem ends_of_settles {read : Nat → Except Failure α}
    (h : ∀ more, Settles (read (budget + more)) (read (budget + more + 1))) :
    Ends read budget where
  same more := by
    induction more with
    | zero => rfl
    | succ more ih => exact (h more).same.trans ih
  lasts := (h 0).lasts

/-- The readers of the descent come to their end within the budget that is granted at a place. -/
structure DescentEnds (cursor : Cursor) : Prop where
  expression : Ends (expression · cursor) (Parser.budget cursor)
  chain : ∀ start value, Ends (chain · start value cursor) (Parser.budget cursor)
  primary : Ends (primary · cursor) (Parser.budget cursor)
  suffix : Ends (suffix · cursor) (Parser.budget cursor)
  valueArguments : Ends (valueArguments · cursor) (Parser.budget cursor)
  moreArguments : Ends (moreArguments · cursor) (Parser.budget cursor)
  argument : Ends (argument · cursor) (Parser.budget cursor)
  lambda : Ends (lambda · cursor) (Parser.budget cursor)
  blockBody : Ends (blockBody · cursor) (Parser.budget cursor)
  statement : Ends (statement · cursor) (Parser.budget cursor)

theorem descent_ends (cursor : Cursor) : DescentEnds cursor := by
  have hbudget : Parser.budget cursor = 8 * cursor.rest.length + 8 := by
    rw [Parser.budget]
    omega
  constructor
  case expression => exact ends_of_settles fun more => (settled _).expression (by omega)
  case chain => exact fun _ _ => ends_of_settles fun more => (settled _).chain (by omega)
  case primary => exact ends_of_settles fun more => (settled _).primary (by omega)
  case suffix => exact ends_of_settles fun more => (settled _).suffix (by omega)
  case valueArguments => exact ends_of_settles fun more => (settled _).valueArguments (by omega)
  case moreArguments => exact ends_of_settles fun more => (settled _).moreArguments (by omega)
  case argument => exact ends_of_settles fun more => (settled _).argument (by omega)
  case lambda => exact ends_of_settles fun more => (settled _).lambda (by omega)
  case blockBody => exact ends_of_settles fun more => (settled _).blockBody (by omega)
  case statement => exact ends_of_settles fun more => (settled _).statement (by omega)

/-! ### Scripts -/

/-- Each name of a dotted one costs one unit. -/
theorem dottedNames_succ (h : cursor.rest.length < budget) :
    dottedNames (budget + 1) cursor = dottedNames budget cursor := by
  induction budget generalizing cursor with
  | zero => omega
  | succ budget ih =>
    rw [dottedNames, dottedNames]
    cases hname : cursor.name? with
    | none => rfl
    | some reading =>
      obtain ⟨name, behind⟩ := reading
      have hnamed := (Cursor.advances_of_name? hname).length_lt
      dsimp only
      cases hdot : behind.char? '.' with
      | none => rfl
      | some afterDot =>
        have hless := (Cursor.advances_of_char? hdot).length_lt
        dsimp only
        rw [ih (by omega)]

theorem lasts_importStatement : Lasts (importStatement cursor) := by
  unfold importStatement
  split
  · exact faultsIn_pure _
  · refine lasts_skip.bind fun first _ => ?_
    cases dottedNames (Parser.budget first) first with
    | none => exact lasts_error (by decide)
    | some reading => exact faultsIn_pure _

theorem lasts_topLevelStatement : Lasts (topLevelStatement cursor) := by
  unfold topLevelStatement
  refine lasts_importStatement.bind fun found _ => ?_
  cases found with
  | some reading => exact lasts_statementEnd.bind fun _ _ => faultsIn_pure _
  | none =>
    refine (descent_ends cursor).statement.lasts.bind fun reading _ => ?_
    exact lasts_statementEnd.bind fun _ _ => faultsIn_pure _

/-- What a script comes to: the same with a larger budget, at the end of the source, and with a
budget that has lasted. -/
structure Completed (cursor : Cursor) (outcome larger : Outcome) : Prop where
  same : larger = outcome
  stop : outcome.stop = cursor.atEnd
  lasts : ∀ failure ∈ outcome.failures, failure.cause ≠ .exhausted

theorem atEnd_self (h : cursor.rest = []) : cursor.atEnd = cursor := by
  obtain ⟨_ | _, position⟩ := cursor
  · rfl
  · cases h

theorem atEnd_of_precedes (h : cursor.Precedes after) : after.atEnd = cursor.atEnd := by
  obtain ⟨text, hreads⟩ := h
  rw [Cursor.atEnd, Cursor.atEnd, hreads.rest, hreads.position, Position.afterAll_append]

/-- What begins at a place is read to its end, or passed over, and what follows is less. -/
theorem completed_statementsFrom {started : Bool} (h : cursor.rest.length < budget) :
    Completed cursor (statementsFrom budget started cursor)
      (statementsFrom (budget + 1) started cursor) := by
  induction budget generalizing started cursor with
  | zero => omega
  | succ budget ih =>
    rw [statementsFrom, statementsFrom]
    cases hskip : Spacing.separators.skip cursor with
    | error failure =>
      refine ⟨rfl, rfl, fun other hother => ?_⟩
      obtain rfl := List.mem_singleton.mp hother
      exact lasts_skip _ hskip
    | ok start =>
      have hskipped := Spacing.precedes_of_skip hskip
      have hlength := hskipped.length_le
      dsimp only
      split
      · rename_i hend
        have hstop := atEnd_self (List.isEmpty_iff.mp hend)
        exact ⟨rfl, hstop.symm.trans (atEnd_of_precedes hskipped), by simp⟩
      · rename_i hmore
        have hmore : start.rest ≠ [] := by simpa using hmore
        cases hread : topLevelStatement start with
        | error failure =>
          have hrecovered := advances_recover hmore
          have hless := hrecovered.length_lt
          have hlater := @ih (recover start) true (by omega)
          refine ⟨?_, ?_, List.forall_mem_cons.mpr ⟨lasts_topLevelStatement _ hread, hlater.lasts⟩⟩
          · simp only [hlater.same]
          · exact hlater.stop.trans (atEnd_of_precedes (hskipped.trans hrecovered.precedes))
        | ok reading =>
          obtain ⟨statement, behind⟩ := reading
          have hbehind := advances_of_topLevelStatement hread
          have hless := hbehind.length_lt
          have hlater := @ih behind (started || !statement.isImport) (by omega)
          refine ⟨?_, ?_, fun failure hfailure => ?_⟩
          · simp only [hlater.same]
          · exact hlater.stop.trans (atEnd_of_precedes (hskipped.trans hbehind.precedes))
          · rcases List.mem_append.mp hfailure with hmisplaced | hfailure
            · split at hmisplaced
              · obtain rfl := List.mem_singleton.mp hmisplaced
                intro hcause
                cases hcause
              · cases hmisplaced
            · exact hlater.lasts _ hfailure

/-- The readers of scripts come to their end within the budgets that are granted at a place, and a
script is read to the end of its source. -/
structure ScriptEnds (cursor : Cursor) : Prop where
  dottedNames : ∀ more,
    dottedNames (Parser.budget cursor + more) cursor = dottedNames (Parser.budget cursor) cursor
  importStatement : Lasts (importStatement cursor)
  topLevelStatement : Lasts (topLevelStatement cursor)
  statements : ∀ started more,
    statementsFrom (cursor.rest.length + 1 + more) started cursor =
      statementsFrom (cursor.rest.length + 1) started cursor
  stop : ∀ started, (statementsFrom (cursor.rest.length + 1) started cursor).stop = cursor.atEnd
  failures : ∀ started, ∀ failure ∈ (statementsFrom (cursor.rest.length + 1) started cursor).failures,
    failure.cause ≠ .exhausted

theorem script_ends (cursor : Cursor) : ScriptEnds cursor where
  dottedNames more := by
    induction more with
    | zero => rfl
    | succ more ih =>
      rw [← ih]
      exact dottedNames_succ (by simp only [Parser.budget, Nat.add_eq]; omega)
  importStatement := lasts_importStatement
  topLevelStatement := lasts_topLevelStatement
  statements started more := by
    induction more with
    | zero => rfl
    | succ more ih =>
      rw [← ih]
      exact (completed_statementsFrom (by simp only [Nat.add_eq]; omega)).same
  stop _ := (completed_statementsFrom (Nat.lt_succ_self _)).stop
  failures _ := (completed_statementsFrom (Nat.lt_succ_self _)).lasts

theorem lasts_read : Lasts (Expr.parse.read cursor) := by
  unfold Expr.parse.read
  refine lasts_skip.bind fun start _ => (descent_ends start).expression.lasts.bind fun found _ => ?_
  cases found with
  | none => exact lasts_error (by decide)
  | some reading =>
    refine lasts_skip.bind fun stop _ => ?_
    split
    · exact faultsIn_pure _
    · exact lasts_error (by decide)

/-- Readers move on and come to their end, whatever stands in the source. -/
theorem readers_progress :
    (∀ cursor, WordsAdvance cursor ∧ ScriptAdvances cursor ∧
      ∀ budget, DescentAdvances budget cursor) ∧
    (∀ cursor, DescentEnds cursor ∧ ScriptEnds cursor) ∧
    ∀ label source,
      (∀ block, Block.parse label source = .ok block →
        block.span = (Cursor.ofSource source).spanTo (Cursor.ofSource source).atEnd) ∧
      (∀ failures, Block.parse label source = .error failures ∨
          Expr.parse source = .error failures →
        ∀ failure ∈ failures.failures, failure.cause ≠ .exhausted) := by
  refine ⟨fun cursor => ⟨words_advance cursor, script_advances cursor,
      fun budget => descent_advances budget cursor⟩,
    fun cursor => ⟨descent_ends cursor, script_ends cursor⟩, fun label source => ?_⟩
  have hends := script_ends (.ofSource source)
  refine ⟨fun block hblock => ?_, fun failures hfailures failure hfailure => ?_⟩
  · obtain ⟨-, rfl⟩ := Block.parse_eq_ok.mp hblock
    exact congrArg (Cursor.ofSource source).spanTo (hends.stop false)
  · rcases hfailures with hscript | hexpression
    · obtain ⟨-, rfl⟩ := parse_eq_error_iff.mp hscript
      exact hends.failures false failure hfailure
    · unfold Expr.parse at hexpression
      cases hread : Expr.parse.read (.ofSource source) with
      | ok value =>
        rw [hread] at hexpression
        cases hexpression
      | error fault =>
        rw [hread] at hexpression
        obtain rfl := Except.error.inj hexpression
        obtain rfl := List.mem_singleton.mp hfailure
        exact lasts_read _ hread

end ConfigScript.Parser
