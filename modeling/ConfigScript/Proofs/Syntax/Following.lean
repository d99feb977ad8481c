import ConfigScript.Proofs.Syntax.Tokens

/-!
# What may follow an expression

Whether an expression ends where its text does depends on what follows: a text may lengthen the
last word, give arguments to it, or ask for a member of the value. The texts that rendering puts
behind an expression do none of this.
-/

namespace ConfigScript

open ConfigScript.Parser

variable {c : Char} {cs rest : List Char}

/-- A text that neither lengthens the word in front of it nor gives it arguments. -/
structure EndsMember (rest : List Char) : Prop where
  delimited : Delimited rest
  bare : ∀ position, ∃ opening, Spacing.inline.skip ⟨rest, position⟩ = .ok opening ∧
    opening.char? '(' = none ∧ opening.char? '\x7b' = none

/-- A text that does not continue the expression in front of it. -/
structure EndsExpression (rest : List Char) : Prop extends EndsMember rest where
  noMember : ∀ position, charAfter .multiline '.' ⟨rest, position⟩ = .ok none

/-- A text that does not make an assignment of what stands in front of it. -/
def Unassigned (spacing : Spacing) (rest : List Char) : Prop :=
  ∀ position, ∃ sign, spacing.skip ⟨rest, position⟩ = .ok sign ∧ sign.assignmentSign? = none

/-- The end of a statement: the end of the source, or a line feed with the next statement or a
closing brace somewhere on the next line. -/
inductive LineEnd : List Char → Prop where
  | source : LineEnd []
  | line {count : Nat} {c : Char} {cs : List Char} (h : opensExpression c = true ∨ c = '\x7d') :
    LineEnd ('\n' :: (List.replicate count ' ' ++ c :: cs))

theorem charAfter_eq {spacing : Spacing} {expected : Char} {cursor next : Cursor}
    (h : spacing.skip cursor = .ok next) :
    charAfter spacing expected cursor = .ok (next.char? expected) := by
  rw [charAfter, h]
  rfl

theorem assignmentSign?_ne {position : Position} (h : c ≠ '=') :
    (⟨c :: cs, position⟩ : Cursor).assignmentSign? = none := by
  simp [Cursor.assignmentSign?, Cursor.char?_ne h]

theorem endsMember_cons (hword : continuesIdentifier c = false)
    (hskips : Spacing.inline.skips c = false) (hslash : c ≠ '/') (hparen : c ≠ '(')
    (hbrace : c ≠ '\x7b') : EndsMember (c :: cs) where
  delimited := delimited_cons.mpr hword
  bare _ := ⟨_, Spacing.skip_stop hskips hslash, Cursor.char?_ne hparen, Cursor.char?_ne hbrace⟩

theorem endsMember_dot : EndsMember ('.' :: cs) :=
  endsMember_cons (by decide) rfl (by decide) (by decide) (by decide)

theorem endsExpression_cons (hmember : EndsMember (c :: cs))
    (hskips : Spacing.multiline.skips c = false) (hslash : c ≠ '/') (hdot : c ≠ '.') :
    EndsExpression (c :: cs) where
  toEndsMember := hmember
  noMember _ := by rw [charAfter_eq (Spacing.skip_stop hskips hslash), Cursor.char?_ne hdot]

theorem endsExpression_comma : EndsExpression (',' :: cs) :=
  endsExpression_cons (endsMember_cons (by decide) rfl (by decide) (by decide) (by decide)) rfl
    (by decide) (by decide)

theorem endsExpression_paren : EndsExpression (')' :: cs) :=
  endsExpression_cons (endsMember_cons (by decide) rfl (by decide) (by decide) (by decide)) rfl
    (by decide) (by decide)

/-- The sign of an assignment ends the expression to which it assigns. -/
theorem endsExpression_sign : EndsExpression (' ' :: '=' :: cs) where
  delimited := delimited_cons.mpr (by decide)
  bare position :=
    ⟨_, by rw [Spacing.skip_cons rfl, Spacing.skip_stop rfl (by decide)],
      Cursor.char?_ne (by decide), Cursor.char?_ne (by decide)⟩
  noMember position := by
    rw [charAfter_eq (by rw [Spacing.skip_cons rfl, Spacing.skip_stop rfl (by decide)]),
      Cursor.char?_ne (by decide)]

theorem unassigned_cons {spacing : Spacing} (hskips : spacing.skips c = false) (hslash : c ≠ '/')
    (hsign : c ≠ '=') : Unassigned spacing (c :: cs) :=
  fun _ => ⟨_, Spacing.skip_stop hskips hslash, assignmentSign?_ne hsign⟩

theorem unassigned_brace : Unassigned .multiline (' ' :: '\x7b' :: cs) :=
  fun _ => ⟨_, by rw [Spacing.skip_cons rfl, Spacing.skip_stop rfl (by decide)],
    assignmentSign?_ne (by decide)⟩

/-- A text at whose front an expression may begin. -/
def Opens (text : List Char) : Prop :=
  ∃ c cs, text = c :: cs ∧ opensExpression c = true

theorem length_pos_of_opens {text : List Char} (h : Opens text) : 0 < text.length := by
  obtain ⟨c, cs, rfl, -⟩ := h
  simp

theorem isEmpty_opens {text : List Char} (h : Opens text) : (text ++ rest).isEmpty = false := by
  obtain ⟨c, cs, rfl, -⟩ := h
  rfl

theorem opens_append {text : List Char} (h : Opens text) : Opens (text ++ rest) := by
  obtain ⟨c, cs, rfl, hopens⟩ := h
  exact ⟨c, cs ++ rest, rfl, hopens⟩

theorem skip_opens {spacing : Spacing} {text : List Char} {position : Position} (h : Opens text) :
    spacing.skip ⟨text ++ rest, position⟩ = .ok ⟨text ++ rest, position⟩ := by
  obtain ⟨c, cs, rfl, hopens⟩ := h
  exact Spacing.skip_opener hopens

theorem skip_blank_opens {spacing : Spacing} {text : List Char} {position : Position}
    (h : Opens text) :
    spacing.skip ⟨' ' :: (text ++ rest), position⟩ = .ok ⟨text ++ rest, position.after ' '⟩ := by
  rw [Spacing.skip_cons (by cases spacing <;> rfl), skip_opens h]

theorem char?_opens {text : List Char} {expected : Char} {position : Position} (h : Opens text)
    (hexpected : opensExpression expected = false) :
    (⟨text ++ rest, position⟩ : Cursor).char? expected = none := by
  obtain ⟨c, cs, rfl, hopens⟩ := h
  exact Cursor.char?_ne (ne_of_class hopens hexpected)

section Lines

variable {count : Nat}

/-- The blanks of a line end where a statement or a brace begins. -/
theorem skip_line {spacing : Spacing} {position : Position}
    (h : opensExpression c = true ∨ c = '\x7d') :
    spacing.skip ⟨List.replicate count ' ' ++ c :: cs, position⟩ =
      .ok ⟨c :: cs, position.afterAll (List.replicate count ' ')⟩ := by
  rw [Spacing.skip_blanks]
  cases h with
  | inl hopens => exact Spacing.skip_opener hopens
  | inr hbrace =>
    rw [hbrace]
    exact Spacing.skip_stop (by cases spacing <;> rfl) (by decide)

namespace LineEnd

theorem endsExpression (h : LineEnd rest) : EndsExpression rest := by
  cases h with
  | source =>
    exact ⟨⟨delimited_nil, fun _ => ⟨_, Spacing.skip_nil, rfl, rfl⟩⟩,
      fun _ => charAfter_eq Spacing.skip_nil⟩
  | line h =>
    have hdot : ∀ d, d = '.' → ¬ (opensExpression d = true ∨ d = '\x7d') := by
      rintro d rfl
      decide
    refine ⟨endsMember_cons (by decide) rfl (by decide) (by decide) (by decide), fun position => ?_⟩
    rw [charAfter_eq ((Spacing.skip_cons rfl).trans (skip_line h)),
      Cursor.char?_ne fun heq => hdot _ heq h]

theorem unassigned (h : LineEnd rest) : Unassigned .inline rest := by
  cases h with
  | source => exact fun _ => ⟨_, Spacing.skip_nil, rfl⟩
  | line h => exact unassigned_cons rfl (by decide) (by decide)

end LineEnd

theorem statementEnd_nil {position : Position} :
    statementEnd ⟨[], position⟩ = .ok ⟨[], position⟩ := by
  rw [statementEnd, Spacing.skip_nil]
  rfl

theorem statementEnd_feed {position : Position} :
    statementEnd ⟨'\n' :: rest, position⟩ = .ok ⟨rest, position.after '\n'⟩ := by
  rw [statementEnd, Spacing.skip_stop rfl (by decide)]
  rfl

end Lines

end ConfigScript
