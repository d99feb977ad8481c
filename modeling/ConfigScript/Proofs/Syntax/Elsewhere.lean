import ConfigScript.Proofs.Syntax.Gaps
import ConfigScript.Proofs.Syntax.Inversion
import ConfigScript.Proofs.Syntax.Placed

/-!
# The same text elsewhere

A text that stands at two places is read alike at both. Where one reading fails the other one does,
with the same cause and behind the same text, and what they yield differs in places only. One level
of the descent keeps this when the level below does.
-/

namespace ConfigScript

/-- Two readings come to nothing, or both to something. -/
theorem neither_or_both {α : Type} {same : α → α → Prop} {found twin : Option α}
    (h : Option.Rel same found twin) : found = none ∧ twin = none ∨
      ∃ value other, found = some value ∧ twin = some other ∧ same value other := by
  cases h with
  | some h => exact .inr ⟨_, _, rfl, rfl, h⟩
  | none => exact .inl ⟨rfl, rfl⟩

namespace Cursor

/-- Two cursors behind the same text, read from either of two places, with the same text ahead. -/
structure Abreast (first second cursor other : Cursor) : Prop where
  read : ∃ text, first.Reads text cursor ∧ second.Reads text other
  rest : cursor.rest = other.rest

variable {first second cursor other : Cursor}

theorem abreast_start (h : first.rest = second.rest) : first.Abreast second first second :=
  ⟨⟨[], .refl, .refl⟩, h⟩

theorem abreast_self (cursor : Cursor) : cursor.Abreast cursor cursor cursor :=
  abreast_start rfl

namespace Abreast

variable (h : first.Abreast second cursor other)

include h

theorem precedes : first.Precedes cursor :=
  h.read.imp fun _ hread => hread.1

/-- What is read at one of the places can be read at the other one. -/
theorem later {text : List Char} {after behind : Cursor} (hafter : cursor.Reads text after)
    (hbehind : other.Reads text behind) : first.Abreast second after behind := by
  obtain ⟨before, hfirst, hsecond⟩ := h.read
  refine ⟨⟨before ++ text, hfirst.trans hafter, hsecond.trans hbehind⟩, ?_⟩
  have hrest := h.rest
  rw [hafter.rest, hbehind.rest] at hrest
  exact List.append_cancel_left hrest

theorem step {c : Char} {after behind : Cursor} (hafter : cursor.Reads [c] after)
    (hbehind : other.Reads [c] behind) : first.Abreast second after behind :=
  h.later hafter hbehind

theorem char? (c : Char) : Option.Rel (first.Abreast second) (cursor.char? c) (other.char? c) := by
  obtain ⟨rest, position⟩ := cursor
  obtain ⟨otherRest, target⟩ := other
  obtain rfl : rest = otherRest := h.rest
  cases rest with
  | nil => exact .none
  | cons d rest =>
    unfold Cursor.char?
    by_cases heq : d = c
    · subst heq
      simp only [if_true]
      exact .some (h.step ⟨rfl, rfl⟩ ⟨rfl, rfl⟩)
    · simp only [heq, if_false]
      exact .none

theorem startsWith (p : Char → Bool) : cursor.startsWith p = other.startsWith p := by
  unfold Cursor.startsWith
  rw [h.rest]

theorem takeWhile (p : Char → Bool) : (cursor.takeWhile p).1 = (other.takeWhile p).1 ∧
    first.Abreast second (cursor.takeWhile p).2 (other.takeWhile p).2 := by
  have hrun : (cursor.takeWhile p).1 = (other.takeWhile p).1 := congrArg (List.takeWhile p) h.rest
  exact ⟨hrun, h.later (hrun ▸ cursor.reads_takeWhile p) (other.reads_takeWhile p)⟩

theorem text? (text : List Char) :
    Option.Rel (first.Abreast second) (cursor.text? text) (other.text? text) := by
  unfold Cursor.text?
  rw [h.rest]
  cases hrest : Text.dropStart? text other.rest with
  | none => exact .none
  | some rest =>
    have hother := Text.dropStart?_eq_some_iff.mp hrest
    exact .some (h.later ⟨h.rest.trans hother, rfl⟩ ⟨hother, rfl⟩)

theorem keyword? (word : String) :
    Option.Rel (first.Abreast second) (cursor.keyword? word) (other.keyword? word) := by
  have htext := h.text? word.toList
  unfold Cursor.keyword?
  revert htext
  generalize cursor.text? word.toList = found
  generalize other.text? word.toList = twin
  rintro (hafter | _)
  · simp only [hafter.startsWith]
    split
    · exact .none
    · exact .some hafter
  · exact .none

theorem assignmentSign? :
    Option.Rel (first.Abreast second) cursor.assignmentSign? other.assignmentSign? := by
  have hsign := h.char? '='
  unfold Cursor.assignmentSign?
  revert hsign
  generalize cursor.char? '=' = found
  generalize other.char? '=' = twin
  rintro (hafter | _)
  · simp only [hafter.startsWith]
    split
    · exact .none
    · exact .some hafter
  · exact .none

end Abreast

end Cursor

/-- Two readings of the same text, of which what was read is related. -/
structure Reading.Alike {α : Type} (same : α → α → Prop) (first second : Cursor)
    (reading twin : Reading α) : Prop where
  value : same reading.1 twin.1
  cursor : first.Abreast second reading.2 twin.2

theorem Cursor.Abreast.name? {first second cursor other : Cursor}
    (h : first.Abreast second cursor other) :
    Option.Rel (Reading.Alike Eq first second) cursor.name? other.name? := by
  obtain ⟨hword, hafter⟩ := h.takeWhile continuesIdentifier
  unfold Cursor.name?
  simp only [h.startsWith, hword]
  split
  · split
    · exact .none
    · exact .some ⟨rfl, hafter⟩
  · exact .none

/-- The same failure at both places: the cause is one, and the text up to it. It is none that only
the place of a statement in its script decides. -/
def Failure.Twins (first second : Cursor) (failure twin : Failure) : Prop :=
  ∃ cause cursor other, first.Abreast second cursor other ∧ cause ≠ .misplacedImport ∧
    failure = .ofCursor cause cursor ∧ twin = .ofCursor cause other

/-- Two steps that both fail alike, or else come to related results. -/
inductive Agree {α : Type} (first second : Cursor) (post : α → α → Prop) :
    Except Failure α → Except Failure α → Prop where
  | ok {value twin : α} (h : post value twin) : Agree first second post (.ok value) (.ok twin)
  | error {failure twin : Failure} (h : failure.Twins first second twin) :
    Agree first second post (.error failure) (.error twin)

variable {first second cursor other start place : Cursor}

namespace Agree

variable {α β : Type} {post : α → α → Prop} {goal : β → β → Prop} {step twin : Except Failure α}

theorem bind {next later : α → Except Failure β} (h : Agree first second post step twin)
    (hnext : ∀ value other, post value other → Agree first second goal (next value) (later other)) :
    Agree first second goal (step >>= next) (twin >>= later) := by
  cases h with
  | ok h => exact hnext _ _ h
  | error h => exact .error h

theorem fail {cause : Failure.Cause} (h : first.Abreast second cursor other)
    (hcause : cause ≠ .misplacedImport) :
    Agree first second post (throw (.ofCursor cause cursor)) (throw (.ofCursor cause other)) :=
  .error ⟨cause, cursor, other, h, hcause, rfl, rfl⟩

end Agree

namespace Spacing

/-- The same stage of two scans. -/
inductive Mode.Abreast (first second : Cursor) : Mode → Mode → Prop where
  | between : Abreast first second .between .between
  | lineComment : Abreast first second .lineComment .lineComment
  | blockComment {opening place : Cursor} (h : first.Abreast second opening place) :
    Abreast first second (.blockComment opening) (.blockComment place)

theorem agree_skipFrom {spacing : Spacing} {mode twin : Mode} {cs : List Char}
    {position target : Position} (hmode : mode.Abreast first second twin)
    (h : first.Abreast second ⟨cs, position⟩ ⟨cs, target⟩) :
    Agree first second (first.Abreast second) (skipFrom spacing mode cs position)
      (skipFrom spacing twin cs target) := by
  have hstep : ∀ {c : Char} {cs : List Char} {position target : Position},
      first.Abreast second ⟨c :: cs, position⟩ ⟨c :: cs, target⟩ →
        first.Abreast second ⟨cs, position.after c⟩ ⟨cs, target.after c⟩ :=
    fun h => h.step ⟨rfl, rfl⟩ ⟨rfl, rfl⟩
  fun_induction skipFrom spacing mode cs position generalizing twin target with
  | case1 cs position ih =>
    cases hmode
    exact ih .lineComment (hstep (hstep h))
  | case2 cs position inside =>
    rename_i ih
    cases hmode
    exact ih (.blockComment (hstep (hstep h))) (hstep (hstep h))
  | case3 c cs position hline hblock hskips ih =>
    cases hmode
    rw [skipFrom, if_pos hskips]
    · exact ih .between (hstep h)
    · exact hline
    · exact hblock
  | case4 c cs position hline hblock hskips =>
    cases hmode
    rw [skipFrom, if_neg hskips]
    · exact .ok h
    · exact hline
    · exact hblock
  | case5 c cs position hfeed hskips ih =>
    cases hmode
    rw [skipFrom, if_pos hfeed, if_pos hskips]
    exact ih .between (hstep h)
  | case6 c cs position hfeed hskips =>
    cases hmode
    rw [skipFrom, if_pos hfeed, if_neg hskips]
    exact .ok h
  | case7 c cs position hfeed ih =>
    cases hmode
    rw [skipFrom, if_neg hfeed]
    exact ih .lineComment (hstep h)
  | case8 _ cs position ih =>
    cases hmode
    exact ih .between (hstep (hstep h))
  | case9 _ c cs position hopen ih =>
    cases hmode with
    | blockComment hopening =>
      rw [skipFrom]
      · exact ih (.blockComment hopening) (hstep h)
      · exact hopen
  | case10 =>
    cases hmode with
    | blockComment hopening => exact .error ⟨_, _, _, hopening, by decide, rfl, rfl⟩
  | case11 mode position hopen =>
    cases hmode with
    | between => exact .ok h
    | lineComment => exact .ok h
    | blockComment => exact (hopen _ rfl).elim

theorem agree_skip {spacing : Spacing} (h : first.Abreast second cursor other) :
    Agree first second (first.Abreast second) (spacing.skip cursor) (spacing.skip other) := by
  obtain ⟨rest, position⟩ := cursor
  obtain ⟨otherRest, target⟩ := other
  obtain rfl : rest = otherRest := h.rest
  exact agree_skipFrom .between h

end Spacing

namespace Literal

theorem agree_readCharacters {opening place : Cursor} {cs : List Char} {position target : Position}
    (hopening : first.Abreast second opening place)
    (h : first.Abreast second ⟨cs, position⟩ ⟨cs, target⟩) :
    Agree first second (Reading.Alike Eq first second) (readCharacters opening cs position)
      (readCharacters place cs target) := by
  have hstep : ∀ {c : Char} {cs : List Char} {position target : Position},
      first.Abreast second ⟨c :: cs, position⟩ ⟨c :: cs, target⟩ →
        first.Abreast second ⟨cs, position.after c⟩ ⟨cs, target.after c⟩ :=
    fun h => h.step ⟨rfl, rfl⟩ ⟨rfl, rfl⟩
  fun_induction readCharacters opening cs position generalizing target with
  | case1 position => exact .error ⟨_, _, _, hopening, by decide, rfl, rfl⟩
  | case2 position => exact .error ⟨_, _, _, h, by decide, rfl, rfl⟩
  | case3 c cs position value hvalue ih =>
    rw [readCharacters_escaped hvalue]
    refine (ih (hstep (hstep h))).bind ?_
    rintro ⟨values, after⟩ ⟨others, behind⟩ ⟨rfl, hafter⟩
    exact .ok ⟨rfl, hafter⟩
  | case4 c cs position hvalue =>
    rw [readCharacters, hvalue]
    exact .error ⟨_, _, _, h, by decide, rfl, rfl⟩
  | case5 cs position =>
    rw [readCharacters, if_pos rfl]
    · exact .ok ⟨rfl, hstep h⟩
    · simp
    · simp
  | case6 c cs position hlast hescape hquote hfeed =>
    rw [readCharacters, if_neg hquote, if_pos hfeed]
    · exact .error ⟨_, _, _, hopening, by decide, rfl, rfl⟩
    · exact hlast
    · exact hescape
  | case7 c cs position hlast hescape hquote hfeed htemplate =>
    rw [readCharacters, if_neg hquote, if_neg hfeed, if_pos htemplate]
    · exact .error ⟨_, _, _, h, by decide, rfl, rfl⟩
    · exact hlast
    · exact hescape
  | case8 c cs position hlast hescape hquote hfeed htemplate ih =>
    rw [readCharacters, if_neg hquote, if_neg hfeed, if_neg htemplate]
    · refine (ih (hstep h)).bind ?_
      rintro ⟨values, after⟩ ⟨others, behind⟩ ⟨rfl, hafter⟩
      exact .ok ⟨rfl, hafter⟩
    · exact hlast
    · exact hescape

theorem agree_readString (h : first.Abreast second cursor other) :
    Agree first second (Option.Rel (Reading.Alike Eq first second)) (readString cursor)
      (readString other) := by
  have hquote := h.char? '"'
  unfold readString
  revert hquote
  generalize cursor.char? '"' = found
  generalize other.char? '"' = twin
  rintro (hafter | _)
  · rename_i after behind
    obtain ⟨rest, position⟩ := after
    obtain ⟨otherRest, target⟩ := behind
    obtain rfl : rest = otherRest := hafter.rest
    refine (agree_readCharacters h hafter).bind ?_
    rintro ⟨values, after⟩ ⟨others, behind⟩ ⟨rfl, hafter⟩
    exact .ok (.some ⟨rfl, hafter⟩)
  · exact .ok .none

theorem agree_readNumber (h : first.Abreast second cursor other) :
    Agree first second (Option.Rel (Reading.Alike Eq first second)) (readNumber cursor)
      (readNumber other) := by
  have hsign := h.char? '-'
  unfold readNumber
  revert hsign
  generalize cursor.char? '-' = found
  generalize other.char? '-' = twin
  rintro (hunsigned | _) <;> dsimp only
  case' none => have hunsigned := h
  all_goals
    obtain ⟨hdigits, hbehind⟩ := hunsigned.takeWhile Char.isDigit
    have hsuffix := hbehind.char? 'L'
    rw [hdigits]
    revert hsuffix
    generalize Cursor.char? _ 'L' = found
    generalize Cursor.char? _ 'L' = twin
    rintro (hafter | _) <;> dsimp only
  case' none.none => have hafter := hbehind
  case' some.none => have hafter := hbehind
  all_goals
    rw [hafter.startsWith]
    split
    · exact .ok .none
    · split
      · exact .ok (.some ⟨rfl, hafter⟩)
      · exact .error ⟨_, _, _, h, by decide, rfl, rfl⟩

theorem agree_readBoolean (h : first.Abreast second cursor other) :
    Option.Rel (Reading.Alike Eq first second) (readBoolean cursor) (readBoolean other) := by
  have htrue := h.keyword? "true"
  have hfalse := h.keyword? "false"
  unfold readBoolean
  revert htrue hfalse
  generalize cursor.keyword? "true" = found
  generalize other.keyword? "true" = twin
  generalize cursor.keyword? "false" = refuted
  generalize other.keyword? "false" = denied
  rintro (hafter | _) (hbehind | _)
  · exact .some ⟨rfl, hafter⟩
  · exact .some ⟨rfl, hafter⟩
  · exact .some ⟨rfl, hbehind⟩
  · exact .none

end Literal

/-- Whether an expression may stand in front of an equals sign. -/
def Expr.isProperty : Expr → Bool
  | .property .. => true
  | _ => false

namespace Parser

variable {budget : Nat}

/-- Readings of an expression at two places; both or neither may be assigned to. -/
abbrev SameExpr (first second : Cursor) : Reading Expr → Reading Expr → Prop :=
  Reading.Alike (fun value twin => value.isProperty = twin.isProperty) first second

/-- Both statements are imports, or neither is. -/
abbrev SameStatement (first second : Cursor) : Reading Statement → Reading Statement → Prop :=
  Reading.Alike (fun result twin => result.isImport = twin.isImport) first second

/-- Readings at two places of which only the text matters. -/
abbrev SameText {α : Type} (first second : Cursor) : Reading α → Reading α → Prop :=
  Reading.Alike (fun _ _ => True) first second

theorem agree_require {α : Type} {same : α → α → Prop} {cause : Failure.Cause}
    {found twin : Option (Reading α)} (h : first.Abreast second cursor other)
    (hfound : Option.Rel (Reading.Alike same first second) found twin)
    (hcause : cause ≠ .misplacedImport) :
    Agree first second (Reading.Alike same first second) (require cause cursor found)
      (require cause other twin) := by
  cases hfound with
  | some h => exact .ok h
  | none => exact .fail h hcause

/-- A reading that must be there is there at both places, or at neither. -/
theorem agree_required {α β : Type} {same : α → α → Prop} {cause : Failure.Cause}
    {goal : β → β → Prop} {step twin : Except Failure (Option (Reading α))}
    {next later : Reading α → Except Failure β} (h : first.Abreast second cursor other)
    (hcause : cause ≠ .misplacedImport)
    (hstep : Agree first second (Option.Rel (Reading.Alike same first second)) step twin)
    (hnext : ∀ value other after behind, same value other → first.Abreast second after behind →
      Agree first second goal (next (value, after)) (later (other, behind))) :
    Agree first second goal
      (do let found ← step; let reading ← require cause cursor found; next reading)
      (do let found ← twin; let reading ← require cause other found; later reading) := by
  refine hstep.bind fun found twin hfound => (agree_require h hfound hcause).bind ?_
  rintro ⟨value, after⟩ ⟨other, behind⟩ ⟨hvalue, hafter⟩
  exact hnext _ _ _ _ hvalue hafter

theorem agree_literalOrWord? (h : first.Abreast second cursor other) :
    Agree first second (Option.Rel (SameExpr first second)) (literalOrWord? cursor)
      (literalOrWord? other) := by
  unfold literalOrWord?
  refine (Literal.agree_readString h).bind ?_
  rintro _ _ (⟨-, hafter⟩ | _)
  · exact .ok (.some ⟨rfl, hafter⟩)
  refine (Literal.agree_readNumber h).bind ?_
  rintro _ _ (⟨-, hafter⟩ | _)
  · exact .ok (.some ⟨rfl, hafter⟩)
  have hboolean := Literal.agree_readBoolean h
  have hnull := h.keyword? "null"
  have hthis := h.keyword? "this"
  revert hboolean hnull hthis
  generalize Literal.readBoolean cursor = boolean
  generalize Literal.readBoolean other = twin
  generalize cursor.keyword? "null" = null
  generalize other.keyword? "null" = nullTwin
  generalize cursor.keyword? "this" = this
  generalize other.keyword? "this" = thisTwin
  rintro (⟨-, hafter⟩ | _) hnull hthis
  · exact .ok (.some ⟨rfl, hafter⟩)
  rcases hnull with hafter | _
  · exact .ok (.some ⟨rfl, hafter⟩)
  rcases hthis with hafter | _
  · exact .ok (.some ⟨rfl, hafter⟩)
  · exact .ok .none

theorem agree_charAfter {spacing : Spacing} {c : Char} (h : first.Abreast second cursor other) :
    Agree first second (Option.Rel (first.Abreast second)) (charAfter spacing c cursor)
      (charAfter spacing c other) :=
  (Spacing.agree_skip h).bind fun _ _ hnext => .ok (hnext.char? c)

theorem agree_statementEnd (h : first.Abreast second cursor other) :
    Agree first second (first.Abreast second) (statementEnd cursor) (statementEnd other) := by
  unfold statementEnd
  refine (Spacing.agree_skip h).bind fun stop twin hstop => ?_
  have hdrop : ∀ count, first.Abreast second (stop.drop count) (twin.drop count) := by
    intro count
    refine hstop.later (stop.reads_drop count) ?_
    rw [hstop.rest]
    exact twin.reads_drop count
  have hrest := hstop.rest
  rw [← hrest]
  split
  · exact .ok hstop
  · exact .ok (hdrop 1)
  · exact .ok (hdrop 1)
  · exact .ok (hdrop 2)
  · exact .ok hstop
  · exact .fail hstop (by decide)

/-- All that the readers do within a budget, they do alike at both places. -/
structure Repeats (first second : Cursor) (budget : Nat) : Prop where
  expression : ∀ {cursor other}, first.Abreast second cursor other →
    Agree first second (Option.Rel (SameExpr first second)) (expression budget cursor)
      (expression budget other)
  chain : ∀ {start place cursor other value twin}, first.Abreast second cursor other →
    value.isProperty = twin.isProperty →
      Agree first second (SameExpr first second) (chain budget start value cursor)
        (chain budget place twin other)
  primary : ∀ {cursor other}, first.Abreast second cursor other →
    Agree first second (Option.Rel (SameExpr first second)) (primary budget cursor)
      (primary budget other)
  suffix : ∀ {cursor other}, first.Abreast second cursor other →
    Agree first second
      (Reading.Alike (fun found twin => found.isSome = twin.isSome) first second)
      (suffix budget cursor) (suffix budget other)
  valueArguments : ∀ {cursor other}, first.Abreast second cursor other →
    Agree first second (SameText first second) (valueArguments budget cursor)
      (valueArguments budget other)
  moreArguments : ∀ {cursor other}, first.Abreast second cursor other →
    Agree first second (SameText first second) (moreArguments budget cursor)
      (moreArguments budget other)
  argument : ∀ {cursor other}, first.Abreast second cursor other →
    Agree first second (Option.Rel (SameText first second)) (argument budget cursor)
      (argument budget other)
  lambda : ∀ {cursor other}, first.Abreast second cursor other →
    Agree first second (Option.Rel (SameText first second)) (lambda budget cursor)
      (lambda budget other)
  blockBody : ∀ {cursor other}, first.Abreast second cursor other →
    Agree first second (SameText first second) (blockBody budget cursor) (blockBody budget other)
  statement : ∀ {cursor other}, first.Abreast second cursor other →
    Agree first second (SameStatement first second) (statement budget cursor)
      (statement budget other)

theorem zero_repeats : Repeats first second 0 where
  expression h := .fail h (by decide)
  chain h _ := .fail h (by decide)
  primary h := .fail h (by decide)
  suffix h := .fail h (by decide)
  valueArguments h := .fail h (by decide)
  moreArguments h := .fail h (by decide)
  argument h := .fail h (by decide)
  lambda h := .fail h (by decide)
  blockBody h := .fail h (by decide)
  statement h := .fail h (by decide)

theorem isProperty_member {receiver other : Option Expr} {name : String} {span target : Span}
    {arguments twin : Option (List Argument)} (h : arguments.isSome = twin.isSome) :
    (member receiver name span arguments).isProperty =
      (member other name target twin).isProperty := by
  cases arguments <;> cases twin <;> first | rfl | cases h

theorem chain_repeats (h : Repeats first second budget) {value twin : Expr}
    (hcursor : first.Abreast second cursor other) (hvalue : value.isProperty = twin.isProperty) :
    Agree first second (SameExpr first second) (chain (budget + 1) start value cursor)
      (chain (budget + 1) place twin other) := by
  rw [chain, chain]
  refine (agree_charAfter hcursor).bind ?_
  rintro _ _ (hdot | _)
  · refine (Spacing.agree_skip hdot).bind fun word behind hword => ?_
    obtain ⟨hname, hother⟩ | ⟨⟨name, afterName⟩, ⟨_, behindName⟩, hname, hother, rfl, hafter⟩ :=
      neither_or_both hword.name? <;> rw [hname, hother]
    · exact .fail hword (by decide)
    · refine (h.suffix hafter).bind ?_
      rintro ⟨arguments, after⟩ ⟨others, behind⟩ ⟨harguments, hafter⟩
      exact h.chain hafter (isProperty_member harguments)
  · exact .ok ⟨hvalue, hcursor⟩

theorem primary_repeats (h : Repeats first second budget)
    (hcursor : first.Abreast second cursor other) :
    Agree first second (Option.Rel (SameExpr first second)) (primary (budget + 1) cursor)
      (primary (budget + 1) other) := by
  rw [primary, primary]
  refine (agree_literalOrWord? hcursor).bind ?_
  rintro _ _ (hword | _)
  · exact .ok (.some hword)
  dsimp only
  obtain ⟨hopening, hplace⟩ | ⟨inside, place, hopening, hplace, hinside⟩ :=
    neither_or_both (hcursor.char? '(') <;> rw [hopening, hplace]
  · obtain ⟨hname, hother⟩ | ⟨⟨name, afterName⟩, ⟨_, behindName⟩, hname, hother, rfl, hafter⟩ :=
      neither_or_both hcursor.name? <;> dsimp only <;> rw [hname, hother]
    · exact .ok .none
    · refine (h.suffix hafter).bind ?_
      rintro ⟨arguments, after⟩ ⟨others, behind⟩ ⟨harguments, hafter⟩
      exact .ok (.some ⟨isProperty_member harguments, hafter⟩)
  · refine (Spacing.agree_skip hinside).bind fun _ _ hfirst => ?_
    refine agree_required hfirst (by decide) (h.expression hfirst) ?_
    intro value twin after behind hvalue hafter
    refine (Spacing.agree_skip hafter).bind fun stop target hstop => ?_
    obtain ⟨hclosing, htarget⟩ | ⟨_, _, hclosing, htarget, hafter⟩ :=
      neither_or_both (hstop.char? ')') <;> rw [hclosing, htarget]
    · exact .fail hstop (by decide)
    · exact .ok (.some ⟨hvalue, hafter⟩)

theorem suffix_repeats (h : Repeats first second budget)
    (hcursor : first.Abreast second cursor other) :
    Agree first second
      (Reading.Alike (fun found twin => found.isSome = twin.isSome) first second)
      (suffix (budget + 1) cursor) (suffix (budget + 1) other) := by
  rw [suffix, suffix]
  refine (Spacing.agree_skip hcursor).bind fun opening place hopening => ?_
  obtain ⟨hparen, hplace⟩ | ⟨inside, target, hparen, hplace, hinside⟩ :=
    neither_or_both (hopening.char? '(') <;> rw [hparen, hplace]
  · refine (h.lambda hopening).bind ?_
    rintro _ _ (hlambda | _)
    · exact .ok ⟨rfl, hlambda.cursor⟩
    · exact .ok ⟨rfl, hcursor⟩
  · refine (h.valueArguments hinside).bind ?_
    rintro ⟨values, after⟩ ⟨others, behind⟩ ⟨-, hafter⟩
    refine (Spacing.agree_skip hafter).bind fun _ _ hblock => (h.lambda hblock).bind ?_
    rintro _ _ (hlambda | _)
    · exact .ok ⟨rfl, hlambda.cursor⟩
    · exact .ok ⟨rfl, hafter⟩

theorem agree_closeArguments {values others : List Argument}
    (hcursor : first.Abreast second cursor other) :
    Agree first second (SameText first second)
      (do
        let after := (← charAfter .multiline ',' cursor).getD cursor
        let after ← Spacing.multiline.skip after
        match after.char? ')' with
        | some after => return (values, after)
        | none => throw (Failure.ofCursor .unclosedArguments after))
      (do
        let after := (← charAfter .multiline ',' other).getD other
        let after ← Spacing.multiline.skip after
        match after.char? ')' with
        | some after => return (others, after)
        | none => throw (Failure.ofCursor .unclosedArguments after)) := by
  refine (agree_charAfter hcursor).bind fun separator twin hseparator => ?_
  have hbehind : first.Abreast second (separator.getD cursor) (twin.getD other) := by
    cases hseparator with
    | some h => exact h
    | none => exact hcursor
  refine (Spacing.agree_skip hbehind).bind fun stop target hstop => ?_
  obtain ⟨hclosing, htarget⟩ | ⟨_, _, hclosing, htarget, hafter⟩ :=
    neither_or_both (hstop.char? ')') <;> rw [hclosing, htarget]
  · exact .fail hstop (by decide)
  · exact .ok ⟨trivial, hafter⟩

theorem valueArguments_repeats (h : Repeats first second budget)
    (hcursor : first.Abreast second cursor other) :
    Agree first second (SameText first second) (valueArguments (budget + 1) cursor)
      (valueArguments (budget + 1) other) := by
  rw [valueArguments, valueArguments]
  refine (Spacing.agree_skip hcursor).bind fun _ _ hfirst => (h.argument hfirst).bind ?_
  rintro _ _ (⟨-, hnext⟩ | _)
  · refine (h.moreArguments hnext).bind ?_
    rintro ⟨values, after⟩ ⟨others, behind⟩ ⟨-, hafter⟩
    exact agree_closeArguments hafter
  · exact agree_closeArguments hcursor

theorem moreArguments_repeats (h : Repeats first second budget)
    (hcursor : first.Abreast second cursor other) :
    Agree first second (SameText first second) (moreArguments (budget + 1) cursor)
      (moreArguments (budget + 1) other) := by
  rw [moreArguments, moreArguments]
  refine (agree_charAfter hcursor).bind ?_
  rintro _ _ (hcomma | _)
  · refine (Spacing.agree_skip hcomma).bind fun _ _ hfirst => (h.argument hfirst).bind ?_
    rintro _ _ (⟨-, hnext⟩ | _)
    · refine (h.moreArguments hnext).bind ?_
      rintro ⟨values, after⟩ ⟨others, behind⟩ ⟨-, hafter⟩
      exact .ok ⟨trivial, hafter⟩
    · exact .ok ⟨trivial, hcursor⟩
  · exact .ok ⟨trivial, hcursor⟩

theorem positional_repeats (h : Repeats first second budget)
    (hcursor : first.Abreast second cursor other) :
    Agree first second (Option.Rel (SameText first second))
      (do
        match ← expression budget cursor with
        | none => return none
        | some (value, after) =>
          return some (Argument.positional value (cursor.spanTo after), after))
      (do
        match ← expression budget other with
        | none => return none
        | some (value, after) =>
          return some (Argument.positional value (other.spanTo after), after)) := by
  refine (h.expression hcursor).bind ?_
  rintro _ _ (⟨-, hafter⟩ | _)
  · exact .ok (.some ⟨trivial, hafter⟩)
  · exact .ok .none

theorem argument_repeats (h : Repeats first second budget)
    (hcursor : first.Abreast second cursor other) :
    Agree first second (Option.Rel (SameText first second)) (argument (budget + 1) cursor)
      (argument (budget + 1) other) := by
  rw [argument, argument]
  obtain ⟨hname, hother⟩ | ⟨⟨name, afterName⟩, ⟨_, behindName⟩, hname, hother, rfl, hafter⟩ :=
    neither_or_both hcursor.name? <;> rw [hname, hother]
  · exact positional_repeats h hcursor
  · refine (Spacing.agree_skip hafter).bind fun sign target hsign => ?_
    obtain ⟨hequals, htarget⟩ | ⟨_, _, hequals, htarget, hbehind⟩ :=
      neither_or_both hsign.assignmentSign? <;> rw [hequals, htarget]
    · exact positional_repeats h hcursor
    · refine (Spacing.agree_skip hbehind).bind fun _ _ hinside => ?_
      refine agree_required hinside (by decide) (h.expression hinside) ?_
      exact fun _ _ _ _ _ hafter => .ok (.some ⟨trivial, hafter⟩)

theorem lambda_repeats (h : Repeats first second budget)
    (hcursor : first.Abreast second cursor other) :
    Agree first second (Option.Rel (SameText first second)) (lambda (budget + 1) cursor)
      (lambda (budget + 1) other) := by
  rw [lambda, lambda]
  obtain ⟨hopening, hother⟩ | ⟨_, _, hopening, hother, hinside⟩ :=
    neither_or_both (hcursor.char? '\x7b') <;> rw [hopening, hother]
  · exact .ok .none
  · refine (Spacing.agree_skip hinside).bind fun _ _ hfirst => (h.blockBody hfirst).bind ?_
    rintro ⟨statements, after⟩ ⟨others, behind⟩ ⟨-, hafter⟩
    exact .ok (.some ⟨trivial, hafter⟩)

theorem blockBody_repeats (h : Repeats first second budget)
    (hcursor : first.Abreast second cursor other) :
    Agree first second (SameText first second) (blockBody (budget + 1) cursor)
      (blockBody (budget + 1) other) := by
  rw [blockBody, blockBody]
  obtain ⟨hclosing, hother⟩ | ⟨_, _, hclosing, hother, hafter⟩ :=
    neither_or_both (hcursor.char? '\x7d') <;> rw [hclosing, hother]
  · dsimp only
    rw [hcursor.rest]
    split
    · exact .fail hcursor (by decide)
    refine (h.statement hcursor).bind ?_
    rintro ⟨result, after⟩ ⟨twin, behind⟩ ⟨-, hafter⟩
    refine (agree_statementEnd hafter).bind fun _ _ hended => ?_
    refine (Spacing.agree_skip hended).bind fun _ _ hnext => (h.blockBody hnext).bind ?_
    rintro ⟨statements, after⟩ ⟨others, behind⟩ ⟨-, hafter⟩
    exact .ok ⟨trivial, hafter⟩
  · exact .ok ⟨trivial, hafter⟩

/-- The right side of an assignment, or the complaint about its left side. -/
theorem assignment_repeats (h : Repeats first second budget) {afterSign behindSign : Cursor}
    {value twin : Expr} (hcursor : first.Abreast second cursor other)
    (hafter : first.Abreast second afterSign behindSign) :
    value.isProperty = twin.isProperty → Agree first second (SameStatement first second)
      (match value with
      | .property receiver name span => do
        let inside ← Spacing.multiline.skip afterSign
        let (value, after) ← require .expectedExpression inside (← expression budget inside)
        return (Statement.assignment receiver name span value (cursor.spanTo after), after)
      | _ => throw (.ofCursor .notAssignable cursor))
      (match twin with
      | .property receiver name span => do
        let inside ← Spacing.multiline.skip behindSign
        let (value, after) ← require .expectedExpression inside (← expression budget inside)
        return (Statement.assignment receiver name span value (other.spanTo after), after)
      | _ => throw (.ofCursor .notAssignable other)) := by
  intro hvalue
  cases hkind : value.isProperty with
  | true =>
    rw [hkind] at hvalue
    cases value with
    | property receiver name span =>
      cases twin with
      | property owner word place =>
        refine (Spacing.agree_skip hafter).bind fun _ _ hinside => ?_
        refine agree_required hinside (by decide) (h.expression hinside) ?_
        exact fun _ _ _ _ _ hafter => .ok ⟨rfl, hafter⟩
      | _ => cases hvalue
    | _ => cases hkind
  | false =>
    rw [hkind] at hvalue
    cases value with
    | property => cases hkind
    | _ =>
      cases twin with
      | property => cases hvalue
      | _ => exact .fail hcursor (by decide)

theorem statement_repeats (h : Repeats first second budget)
    (hcursor : first.Abreast second cursor other) :
    Agree first second (SameStatement first second) (statement (budget + 1) cursor)
      (statement (budget + 1) other) := by
  rw [statement, statement]
  obtain ⟨hword, hother⟩ | ⟨_, _, hword, hother, hafter⟩ :=
    neither_or_both (hcursor.keyword? "val") <;> rw [hword, hother]
  · dsimp only
    obtain ⟨hword, hother⟩ | ⟨_, _, hword, hother, -⟩ :=
      neither_or_both (hcursor.keyword? "var") <;> rw [hword, hother]
    · refine agree_required hcursor (by decide) (h.expression hcursor) ?_
      intro value twin after behind hvalue hafter
      refine (Spacing.agree_skip hafter).bind fun sign target hsign => ?_
      obtain ⟨hequals, htarget⟩ | ⟨_, _, hequals, htarget, hbehind⟩ :=
        neither_or_both hsign.assignmentSign? <;> rw [hequals, htarget]
      · exact .ok ⟨rfl, hafter⟩
      · exact assignment_repeats h hcursor hbehind hvalue
    · exact .fail hcursor (by decide)
  · refine (Spacing.agree_skip hafter).bind fun start target hstart => ?_
    obtain ⟨hname, hother⟩ | ⟨⟨name, afterName⟩, ⟨_, behindName⟩, hname, hother, rfl, hafter⟩ :=
      neither_or_both hstart.name? <;> rw [hname, hother]
    · exact .fail hstart (by decide)
    · refine (Spacing.agree_skip hafter).bind fun sign target hsign => ?_
      obtain ⟨hequals, htarget⟩ | ⟨_, _, hequals, htarget, hbehind⟩ :=
        neither_or_both (hsign.char? '=') <;> dsimp only <;> rw [hequals, htarget]
      · exact .fail hsign (by decide)
      · refine (Spacing.agree_skip hbehind).bind fun _ _ hinside => ?_
        refine agree_required hinside (by decide) (h.expression hinside) ?_
        exact fun _ _ _ _ _ hafter => .ok ⟨rfl, hafter⟩

theorem succ_repeats (h : Repeats first second budget) : Repeats first second (budget + 1) where
  expression hcursor := by
    rw [Parser.expression, Parser.expression]
    refine (h.primary hcursor).bind ?_
    rintro _ _ (⟨hvalue, hafter⟩ | _)
    · exact (h.chain hafter hvalue).bind fun _ _ hresult => .ok (.some hresult)
    · exact .ok .none
  chain := chain_repeats h
  primary := primary_repeats h
  suffix := suffix_repeats h
  valueArguments := valueArguments_repeats h
  moreArguments := moreArguments_repeats h
  argument := argument_repeats h
  lambda := lambda_repeats h
  blockBody := blockBody_repeats h
  statement := statement_repeats h

theorem repeats (first second : Cursor) (budget : Nat) : Repeats first second budget := by
  induction budget with
  | zero => exact zero_repeats
  | succ budget ih => exact succ_repeats ih

theorem agree_dottedNames (h : first.Abreast second cursor other) :
    Option.Rel (SameText first second) (dottedNames budget cursor) (dottedNames budget other) := by
  induction budget generalizing cursor other with
  | zero => exact .none
  | succ budget ih =>
    rw [dottedNames, dottedNames]
    obtain ⟨hname, hother⟩ | ⟨⟨name, afterName⟩, ⟨_, behindName⟩, hname, hother, rfl, hafter⟩ :=
      neither_or_both h.name? <;> rw [hname, hother]
    · exact .none
    · dsimp only at hafter ⊢
      obtain ⟨hdot, hother⟩ | ⟨afterDot, behindDot, hdot, hother, hbehind⟩ :=
        neither_or_both (hafter.char? '.') <;> rw [hdot, hother]
      · exact .some ⟨trivial, hafter⟩
      · dsimp only at hbehind ⊢
        obtain ⟨hnone, hother⟩ | ⟨⟨names, after⟩, ⟨others, behind⟩, hsome, hother, -, hlast⟩ :=
          neither_or_both (ih hbehind)
        · rw [hnone, hother]
          exact .some ⟨trivial, hafter⟩
        · rw [hsome, hother]
          exact .some ⟨trivial, hlast⟩

theorem agree_importStatement (h : first.Abreast second cursor other) :
    Agree first second (Option.Rel (SameStatement first second)) (importStatement cursor)
      (importStatement other) := by
  unfold importStatement
  obtain ⟨hword, hother⟩ | ⟨_, _, hword, hother, hafter⟩ :=
    neither_or_both (h.keyword? "import") <;> rw [hword, hother]
  · exact .ok .none
  · refine (Spacing.agree_skip hafter).bind fun start place hstart => ?_
    have hbudget : Parser.budget start = Parser.budget place := by
      rw [Parser.budget, Parser.budget, hstart.rest]
    rw [hbudget]
    refine (agree_require hstart (agree_dottedNames hstart) (by decide)).bind ?_
    rintro ⟨parts, after⟩ ⟨others, behind⟩ ⟨-, hafter⟩
    exact .ok (.some ⟨rfl, hafter⟩)

/-- A statement of a script is read alike wherever its text stands. -/
theorem agree_topLevelStatement (h : first.Abreast second cursor other) :
    Agree first second (SameStatement first second) (topLevelStatement cursor)
      (topLevelStatement other) := by
  have hend : ∀ {result twin : Statement} {after behind : Cursor},
      result.isImport = twin.isImport → first.Abreast second after behind →
        Agree first second (SameStatement first second)
          (do return (result, ← statementEnd after)) (do return (twin, ← statementEnd behind)) :=
    fun hresult hafter => (agree_statementEnd hafter).bind fun _ _ hended => .ok ⟨hresult, hended⟩
  unfold topLevelStatement
  refine (agree_importStatement h).bind ?_
  rintro _ _ (⟨hresult, hafter⟩ | _)
  · exact hend hresult hafter
  · have hbudget : Parser.budget cursor = Parser.budget other := by
      rw [Parser.budget, Parser.budget, h.rest]
    rw [hbudget]
    refine ((repeats first second _).statement h).bind ?_
    rintro ⟨result, after⟩ ⟨twin, behind⟩ ⟨hresult, hafter⟩
    exact hend hresult hafter

/-- A statement that cannot be read fails at or behind the place where it begins, and not because
of what stands in front of it. -/
theorem failure_of_topLevelStatement {failure : Failure}
    (h : topLevelStatement cursor = .error failure) :
    ∃ cause place, cursor.Precedes place ∧ cause ≠ .misplacedImport ∧
      failure = .ofCursor cause place := by
  have hagree := agree_topLevelStatement cursor.abreast_self
  rw [h] at hagree
  obtain _ | ⟨cause, place, _, hplace, hcause, hfailure, -⟩ := hagree
  exact ⟨cause, place, hplace.precedes, hcause, hfailure⟩

end Parser

end ConfigScript
