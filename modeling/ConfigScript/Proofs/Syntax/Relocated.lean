import ConfigScript.Proofs.Syntax.Endings
import ConfigScript.Proofs.Syntax.Rereading

/-!
# Expressions and statements read again

Whatever a reader of the descent has read, it reads again in another place. What follows the text
matters only at its end: the first word must not go on, and nothing may continue the expression or
the statement. One level of the descent keeps this when the level below does; so it holds for
every budget.
-/

namespace ConfigScript.Parser

variable {budget : Nat} {cursor start after behind : Cursor} {text rest gap : List Char}
  {place target : Position}

/-- A text read as an expression, in front of anything that ends it. -/
abbrev RereadsExpr (value : Expr) : Position → List Char → Prop :=
  Rereads expression (fun move after => some (value.mapSpans move, after)) 1 EndsExpression

/-- A text that leads from its front to its end, and there the value has been put together. -/
def Spined (value : Expr) (place : Position) (text : List Char) : Prop :=
  ∀ (budget : Nat) (front : List Char) ⦃rest target move⦄, Carries move place target →
    EndsMember rest → 8 * text.length ≤ budget → ∃ first behind remaining,
      primary budget ⟨text ++ rest, target⟩ = .ok (some (first, behind)) ∧
      chain budget ⟨front, target⟩ first behind =
        chain remaining ⟨front, target⟩ (value.mapSpans move) ⟨rest, target.afterAll text⟩ ∧
      budget ≤ remaining + text.length

/-- A text read as the arguments behind a name, or as none. -/
abbrev RereadsSuffix (arguments : Option (List Argument)) : Position → List Char → Prop :=
  Rereads suffix (fun move after => (arguments.map (argumentsMapSpans move), after)) 2 EndsMember

/-- A text read as a statement, in front of anything that ends it. -/
abbrev RereadsStatement (result : Statement) : Position → List Char → Prop :=
  Rereads statement (fun move after => (result.mapSpans move, after)) 2 EndsStatement

/-- A text that ends an argument of a list. -/
structure EndsArgument (rest : List Char) : Prop extends EndsExpression rest where
  unassigned : Unassigned .multiline rest

theorem endsArgument_gap {c : Char} {cs : List Char} (hgap : Spacing.multiline.Gap gap)
    (hc : c = ',' ∨ c = ')') : EndsArgument (gap ++ c :: cs) where
  toEndsExpression := endsExpression_gap hgap (by rcases hc with rfl | rfl <;> decide)
  unassigned := by
    rcases hc with rfl | rfl
    · exact unassigned_gap hgap (by decide) (by decide)
    · exact unassigned_gap hgap (by decide) (by decide)

/-- What closes an argument list: a parenthesis, perhaps behind a comma. -/
inductive Closing : List Char → Prop where
  | paren {gap : List Char} (hgap : Spacing.multiline.Gap gap) : Closing (gap ++ [')'])
  | comma {gap inner : List Char} (hgap : Spacing.multiline.Gap gap)
    (hinner : Spacing.multiline.Gap inner) : Closing (gap ++ ',' :: (inner ++ [')']))

/-- A text at whose front an argument list is closed. -/
def Closes (rest : List Char) : Prop :=
  ∃ text cs, rest = text ++ cs ∧ Closing text

/-- All that the readers have read within a budget is read again in other places. -/
structure Relocates (budget : Nat) : Prop where
  expression : ∀ {cursor value after}, expression budget cursor = .ok (some (value, after)) →
    ∃ text, cursor.Reads text after ∧ Leading text ∧ RereadsExpr value cursor.position text
  chain : ∀ {start cursor value result after first},
    chain budget start value cursor = .ok (result, after) → start.Reads first cursor →
      Leading first → Spined value start.position first →
        ∃ text, start.Reads text after ∧ Leading text ∧ Spined result start.position text
  primary : ∀ {cursor value after}, primary budget cursor = .ok (some (value, after)) →
    ∃ text, cursor.Reads text after ∧ Leading text ∧ Spined value cursor.position text
  suffix : ∀ {cursor arguments after}, suffix budget cursor = .ok (arguments, after) →
    ∃ text, cursor.Reads text after ∧ GoesOn text ∧
      RereadsSuffix arguments cursor.position text
  valueArguments : ∀ {cursor values after}, valueArguments budget cursor = .ok (values, after) →
    ∃ text, cursor.Reads text after ∧
      Rereads valueArguments (fun move after => (argumentsMapSpans move values, after)) 4
        (fun _ => True) cursor.position text
  moreArguments : ∀ {cursor values after}, moreArguments budget cursor = .ok (values, after) →
    ∃ text, cursor.Reads text after ∧ (∀ rest, Closes rest → EndsArgument (text ++ rest)) ∧
      Rereads moreArguments (fun move after => (argumentsMapSpans move values, after)) 4
        Closes cursor.position text
  argument : ∀ {cursor value after}, argument budget cursor = .ok (some (value, after)) →
    ∃ text, cursor.Reads text after ∧ Spacing.Solid text ∧
      Rereads argument (fun move after => some (value.mapSpans move, after)) 2
        EndsArgument cursor.position text
  lambda : ∀ {cursor value after}, lambda budget cursor = .ok (some (value, after)) →
    ∃ text, cursor.Reads ('\x7b' :: text) after ∧
      Rereads lambda (fun move after => some (value.mapSpans move, after)) 0
        (fun _ => True) cursor.position ('\x7b' :: text)
  blockBody : ∀ {cursor statements after}, blockBody budget cursor = .ok (statements, after) →
    ∃ c text, cursor.Reads (c :: text) after ∧ Spacing.isSolid c = true ∧ c ≠ '.' ∧
      Rereads blockBody (fun move after => (statementsMapSpans move statements, after)) 0
        (fun _ => True) cursor.position (c :: text)
  statement : ∀ {cursor result after}, statement budget cursor = .ok (result, after) →
    ∃ text, cursor.Reads text after ∧ Fronts text ∧
      (∀ rest position, Delimited rest →
        (⟨text ++ rest, position⟩ : Cursor).keyword? "import" = none) ∧
      RereadsStatement result cursor.position text

theorem zero_relocates : Relocates 0 where
  expression h := by simp [Parser.expression] at h
  chain h := by simp [Parser.chain] at h
  primary h := by simp [Parser.primary] at h
  suffix h := by simp [Parser.suffix] at h
  valueArguments h := by simp [Parser.valueArguments] at h
  moreArguments h := by simp [Parser.moreArguments] at h
  argument h := by simp [Parser.argument] at h
  lambda h := by simp [Parser.lambda] at h
  blockBody h := by simp [Parser.blockBody] at h
  statement h := by simp [Parser.statement] at h

/-- The value at the end of a spine is read when nothing continues the expression. -/
theorem Spined.rereads {value : Expr} (h : Spined value place text) (htext : text ≠ []) :
    RereadsExpr value place text := by
  intro budget rest target move hmove hrest hbudget
  have hlength := List.length_pos_of_ne_nil htext
  obtain ⟨budget, rfl⟩ := Nat.exists_eq_add_of_le' (show 1 ≤ budget by omega)
  obtain ⟨first, behind, remaining, hprimary, hchain, hremaining⟩ :=
    h budget (text ++ rest) hmove hrest.toEndsMember (by omega)
  obtain ⟨remaining, rfl⟩ := Nat.exists_eq_add_of_le' (show 1 ≤ remaining by omega)
  rw [chain_of_none (hrest.noMember _)] at hchain
  exact expression_of_chain hprimary hchain

theorem spined_of_primary {value : Expr}
    (h : Rereads primary (fun move after => some (value.mapSpans move, after)) 0 EndsMember
      place text) : Spined value place text := by
  intro budget front rest target move hmove hrest hbudget
  exact ⟨_, _, budget, h _ _ hmove hrest hbudget, rfl, Nat.le_add_right _ _⟩

/-- A member asked of the value at the end of a spine lengthens the spine. -/
theorem Spined.member {value : Expr} {inner tail : List Char} {name : String}
    {arguments : Option (List Argument)} (h : Spined value place text)
    (hgap : Spacing.multiline.Gap gap) (hinner : Spacing.multiline.Gap inner)
    (hname : isName name = true) (htail : GoesOn tail)
    (hsuffix : RereadsSuffix arguments
      (place.afterAll (text ++ (gap ++ '.' :: (inner ++ name.toList)))) tail) :
    Spined (member (some value) name (place.spanTo (place.afterAll
        (text ++ (gap ++ '.' :: (inner ++ (name.toList ++ tail)))))) arguments) place
      (text ++ (gap ++ '.' :: (inner ++ (name.toList ++ tail)))) := by
  intro budget front rest target move hmove hrest hbudget
  simp only [List.length_append, List.length_cons] at hbudget ⊢
  have hdot : EndsMember (gap ++ '.' :: (inner ++ (name.toList ++ (tail ++ rest)))) :=
    endsMember_gap hgap (by decide) (by decide) (by decide) (by decide)
  obtain ⟨first, behind, remaining, hprimary, hchain, hremaining⟩ :=
    h budget front hmove hdot (by omega)
  -- Each link of the chain has cost one unit, and no receiver has more links than characters.
  obtain ⟨remaining, rfl⟩ := Nat.exists_eq_add_of_le' (show 1 ≤ remaining by omega)
  have hread := hsuffix remaining rest (hmove.later _) hrest (by omega)
  have hspan := hmove.spanTo (text ++ (gap ++ '.' :: (inner ++ (name.toList ++ tail))))
  have hword : Spacing.multiline.skip
      ⟨inner ++ (name.toList ++ (tail ++ rest)), ((target.afterAll text).afterAll gap).after '.'⟩ =
        .ok ⟨name.toList ++ (tail ++ rest),
          (((target.afterAll text).afterAll gap).after '.').afterAll inner⟩ :=
    hinner.skip (solid_name hname).append
  simp only [Position.afterAll_append, Position.afterAll_cons] at hread hspan ⊢
  rw [chain_of_member (charAfter_gap hgap (by decide)) hword
    (Cursor.name?_name hname (htail.delimited hrest.delimited)) hread] at hchain
  refine ⟨first, behind, remaining, ?_, ?_, by omega⟩
  · simpa using hprimary
  · rw [hchain, mapSpans_member, hspan]
    rfl

/-- A member that has been read lengthens the spine of the value in front of it. -/
theorem spined_of_member (h : Relocates budget) {value : Expr} {first : List Char}
    {afterDot word afterName : Cursor} {name : String} {arguments : Option (List Argument)}
    (hfirst : start.Reads first cursor) (hleading : Leading first)
    (hspined : Spined value start.position first)
    (hdot : charAfter .multiline '.' cursor = .ok (some afterDot))
    (hword : Spacing.multiline.skip afterDot = .ok word)
    (hname : word.name? = some (name, afterName))
    (hsuffix : suffix budget afterName = .ok (arguments, behind)) :
    ∃ text, start.Reads text behind ∧ Leading text ∧
      Spined (member (some value) name (start.spanTo behind) arguments) start.position text := by
  have hnamed := Cursor.isName_of_name? hname
  have hletters := Cursor.reads_of_name? hname
  obtain ⟨gap, next, hbefore, hchar, hgap⟩ := gap_of_charAfter hdot (by decide)
  obtain ⟨inner, hinside, hinner⟩ := Spacing.gap_of_skip hword (hletters.solid (solid_name hnamed))
  obtain ⟨tail, htail, hgoes, hreread⟩ := h.suffix hsuffix
  have hmember := hfirst.trans (hbefore.trans (hchar.cons (hinside.trans hletters)))
  have hreads := hfirst.trans (hbefore.trans (hchar.cons (hinside.trans (hletters.trans htail))))
  rw [hmember.position] at hreread
  have hspan : start.spanTo behind = start.position.spanTo (start.position.afterAll _) :=
    congrArg start.position.spanTo hreads.position
  rw [hspan]
  exact ⟨_, hreads, hleading.append (.inr ⟨gap, '.', _, rfl, hgap, by decide⟩),
    hspined.member hgap hinner hnamed hgoes hreread⟩

theorem chain_relocates (h : Relocates budget) {value result : Expr} {first : List Char}
    (hchain : chain (budget + 1) start value cursor = .ok (result, after))
    (hfirst : start.Reads first cursor) (hleading : Leading first)
    (hspined : Spined value start.position first) :
    ∃ text, start.Reads text after ∧ Leading text ∧ Spined result start.position text := by
  rcases chain_cases hchain with ⟨-, rfl, rfl⟩ |
    ⟨afterDot, word, name, afterName, arguments, behind, hdot, hword, hname, hsuffix, hrest⟩
  · exact ⟨first, hfirst, hleading, hspined⟩
  · obtain ⟨text, hreads, hfront, hmember⟩ :=
      spined_of_member h hfirst hleading hspined hdot hword hname hsuffix
    exact h.chain hrest hreads hfront hmember

theorem primary_relocates (h : Relocates budget) {value : Expr}
    (hprimary : primary (budget + 1) cursor = .ok (some (value, after))) :
    ∃ text, cursor.Reads text after ∧ Leading text ∧ Spined value cursor.position text := by
  rcases primary_cases hprimary with hword |
    ⟨inside, first, behind, last, hopening, hfirst, hvalue, hlast, hclosing⟩ |
    ⟨name, afterName, arguments, hname, hsuffix, rfl⟩
  · obtain ⟨text, hreads, hleading, hagain⟩ := literalOrWord?_again hword
    refine ⟨text, hreads, hleading, spined_of_primary ?_⟩
    intro budget rest target move hmove hrest hbudget
    have hlength := List.length_pos_of_ne_nil hleading.ne_nil
    obtain ⟨budget, rfl⟩ := Nat.exists_eq_add_of_le' (show 1 ≤ budget by omega)
    exact primary_of_literal (hagain hmove hrest.delimited)
  · obtain ⟨text, hreads, hleading, hreread⟩ := h.expression hvalue
    have hopen := Cursor.reads_of_char? hopening
    have hclose := Cursor.reads_of_char? hclosing
    obtain ⟨gap, hgapReads, hgap⟩ := Spacing.gap_of_skip hfirst (hreads.solid hleading.solid)
    obtain ⟨inner, hinnerReads, hinner⟩ :=
      Spacing.gap_of_skip hlast (hclose.solid (Spacing.solid_cons (by decide)))
    refine ⟨_, hopen.cons (hgapReads.trans (hreads.trans (hinnerReads.trans hclose))),
      .sign (.inr rfl) (by decide), spined_of_primary ?_⟩
    intro budget rest target move hmove hrest hbudget
    simp only [List.length_append, List.length_cons] at hbudget
    obtain ⟨budget, rfl⟩ := Nat.exists_eq_add_of_le' (show 1 ≤ budget by omega)
    have hends : EndsExpression (inner ++ ')' :: rest) :=
      endsExpression_gap hinner (by decide)
    have hread := hreread budget _ ((hmove.behind hopen).behind hgapReads) hends (by omega)
    simp only [List.append_assoc, List.cons_append, List.nil_append, Position.afterAll_append,
      Position.afterAll_cons]
    exact primary_of_paren (literalOrWord?_symbol (by decide)) Cursor.char?_self
      (hgap.skip hleading.solid.append) hread (hinner.skip (Spacing.solid_cons (by decide)))
      Cursor.char?_self
  · have hnamed := Cursor.isName_of_name? hname
    have hletters := Cursor.reads_of_name? hname
    obtain ⟨tail, htail, hgoes, hreread⟩ := h.suffix hsuffix
    have hreads := hletters.trans htail
    refine ⟨_, hreads, leading_of_name hnamed hgoes, spined_of_primary ?_⟩
    intro budget rest target move hmove hrest hbudget
    have hlength := length_pos_of_opens (opens_name hnamed)
    rw [List.length_append] at hbudget
    obtain ⟨budget, rfl⟩ := Nat.exists_eq_add_of_le' (show 1 ≤ budget by omega)
    have hread := hreread budget rest (hmove.behind hletters) hrest (by omega)
    dsimp only
    rw [mapSpans_member, hmove.reads hreads, List.append_assoc, Position.afterAll_append]
    exact primary_name hnamed (hgoes.delimited hrest.delimited) hread

/-- Arguments in parentheses, perhaps with a lambda behind them. -/
theorem listed_relocates (h : Relocates budget) {arguments : Option (List Argument)}
    {values : List Argument} {opening inside block : Cursor}
    (hopening : Spacing.inline.skip cursor = .ok opening)
    (hparen : opening.char? '(' = some inside)
    (hvalues : valueArguments budget inside = .ok (values, behind))
    (hblock : Spacing.inline.skip behind = .ok block)
    (hlast : lambda budget block = .ok none ∧ arguments = some values ∧ after = behind ∨
      ∃ last, lambda budget block = .ok (some (last, after)) ∧
        arguments = some (values ++ [last])) :
    ∃ text, cursor.Reads text after ∧ GoesOn text ∧
      RereadsSuffix arguments cursor.position text := by
  have hopen := Cursor.reads_of_char? hparen
  obtain ⟨gap, hgapReads, hgap⟩ :=
    Spacing.gap_of_skip hopening (hopen.solid (Spacing.solid_cons (by decide)))
  obtain ⟨list, hlist, hreread⟩ := h.valueArguments hvalues
  have hgoes : ∀ cs, GoesOn (gap ++ '(' :: cs) := fun cs =>
    .inr ⟨gap, '(', cs, rfl, hgap.widen Spacing.inline_narrower, by decide⟩
  have hfront : ∀ {rest target}, Spacing.inline.skip ⟨gap ++ '(' :: rest, target⟩ =
      .ok ⟨'(' :: rest, target.afterAll gap⟩ :=
    hgap.skip (Spacing.solid_cons (by decide))
  rcases hlast with ⟨-, rfl, rfl⟩ | ⟨last, hlambda, rfl⟩
  · refine ⟨_, hgapReads.trans (hopen.cons hlist), hgoes _,
      fun budget rest target move hmove hrest hbudget => ?_⟩
    simp only [List.length_append, List.length_cons] at hbudget
    obtain ⟨budget, rfl⟩ := Nat.exists_eq_add_of_le' (show 2 ≤ budget by omega)
    have hread := hreread (budget + 1) rest ((hmove.behind hgapReads).behind hopen) trivial
      (by omega)
    obtain ⟨next, hnext, -, hbrace⟩ := hrest.bare (target.afterAll (gap ++ '(' :: list))
    simp only [List.append_assoc, List.cons_append, Position.afterAll_append,
      Position.afterAll_cons] at hnext ⊢
    exact suffix_of_list hfront Cursor.char?_self hread hnext (lambda_none hbrace)
  · obtain ⟨body, hbody, hrereadBody⟩ := h.lambda hlambda
    obtain ⟨inner, hinnerReads, hinner⟩ :=
      Spacing.gap_of_skip hblock (hbody.solid (Spacing.solid_cons (by decide)))
    refine ⟨_, hgapReads.trans (hopen.cons (hlist.trans (hinnerReads.trans hbody))), hgoes _,
      fun budget rest target move hmove hrest hbudget => ?_⟩
    simp only [List.length_append, List.length_cons] at hbudget
    obtain ⟨budget, rfl⟩ := Nat.exists_eq_add_of_le' (show 1 ≤ budget by omega)
    have hmoved := (hmove.behind hgapReads).behind hopen
    have hread := hreread budget (inner ++ '\x7b' :: (body ++ rest)) hmoved trivial (by omega)
    have hreadBody := hrereadBody budget rest ((hmoved.behind hlist).behind hinnerReads) trivial
      (by simp only [List.length_cons]; omega)
    simp only [List.append_assoc, List.cons_append, Position.afterAll_append,
      Position.afterAll_cons, Option.map_some, argumentsMapSpans_append]
    exact suffix_of_both hfront Cursor.char?_self hread
      (hinner.skip (Spacing.solid_cons (by decide))) hreadBody

theorem suffix_relocates (h : Relocates budget) {arguments : Option (List Argument)}
    (hsuffix : suffix (budget + 1) cursor = .ok (arguments, after)) :
    ∃ text, cursor.Reads text after ∧ GoesOn text ∧
      RereadsSuffix arguments cursor.position text := by
  obtain ⟨opening, hopening, hcases⟩ := suffix_cases hsuffix
  rcases hcases with ⟨inside, values, behind, block, hparen, hvalues, hblock, hlast⟩ | ⟨-, hlast⟩
  · exact listed_relocates h hopening hparen hvalues hblock hlast
  · rcases hlast with ⟨-, rfl, rfl⟩ | ⟨last, hlambda, rfl⟩
    · refine ⟨[], .refl, .inl rfl, fun budget rest target move hmove hrest hbudget => ?_⟩
      obtain ⟨budget, rfl⟩ := Nat.exists_eq_add_of_le' (show 2 ≤ budget by simpa using hbudget)
      obtain ⟨next, hnext, hbare, hbrace⟩ := hrest.bare target
      exact suffix_of_none hnext hbare (lambda_none hbrace)
    · obtain ⟨body, hbody, hrereadBody⟩ := h.lambda hlambda
      obtain ⟨gap, hgapReads, hgap⟩ :=
        Spacing.gap_of_skip hopening (hbody.solid (Spacing.solid_cons (by decide)))
      refine ⟨_, hgapReads.trans hbody,
        .inr ⟨gap, '\x7b', body, rfl, hgap.widen Spacing.inline_narrower, by decide⟩,
        fun budget rest target move hmove hrest hbudget => ?_⟩
      simp only [List.length_append, List.length_cons] at hbudget
      obtain ⟨budget, rfl⟩ := Nat.exists_eq_add_of_le' (show 1 ≤ budget by omega)
      have hreadBody := hrereadBody budget rest (hmove.behind hgapReads) trivial
        (by simp only [List.length_cons]; omega)
      simp only [List.append_assoc, List.cons_append, Position.afterAll_append]
      exact suffix_of_lambda (hgap.skip (Spacing.solid_cons (by decide)))
        (Cursor.char?_ne (by decide)) hreadBody

namespace Closing

theorem endsArgument (h : Closing text) : EndsArgument (text ++ rest) := by
  cases h with
  | paren hgap =>
    rw [List.append_assoc]
    exact endsArgument_gap hgap (.inr rfl)
  | comma hgap hinner =>
    rw [List.append_assoc]
    exact endsArgument_gap hgap (.inl rfl)

/-- No argument stands where an argument list is closed. -/
theorem skip (h : Closing text) (rest : List Char) (target : Position) : ∃ c cs position,
    Spacing.multiline.skip ⟨text ++ rest, target⟩ = .ok ⟨c :: cs, position⟩ ∧
      c ∈ [')', ',', '\x7d'] := by
  cases h with
  | paren hgap =>
    rw [List.append_assoc]
    exact ⟨')', _, _, hgap.skip (Spacing.solid_cons (by decide)), by decide⟩
  | comma hgap hinner =>
    rw [List.append_assoc]
    exact ⟨',', _, _, hgap.skip (Spacing.solid_cons (by decide)), by decide⟩

theorem again (h : Closing text) (rest : List Char) (target : Position) : ∃ separator stop,
    charAfter .multiline ',' ⟨text ++ rest, target⟩ = .ok separator ∧
      Spacing.multiline.skip (separator.getD ⟨text ++ rest, target⟩) = .ok stop ∧
      stop.char? ')' = some ⟨rest, target.afterAll text⟩ := by
  cases h with
  | paren hgap =>
    rw [List.append_assoc, Position.afterAll_append]
    exact ⟨none, _, charAfter_gap_ne hgap (by decide) (by decide),
      hgap.skip (Spacing.solid_cons (by decide)), Cursor.char?_self⟩
  | comma hgap hinner =>
    rw [List.append_assoc, Position.afterAll_append, List.cons_append, List.append_assoc,
      Position.afterAll_cons, Position.afterAll_append]
    exact ⟨_, _, charAfter_gap hgap (by decide), hinner.skip (Spacing.solid_cons (by decide)),
      Cursor.char?_self⟩

theorem moreArguments (h : Closing text) :
    Parser.moreArguments (budget + 4) ⟨text ++ rest, target⟩ =
      .ok ([], ⟨text ++ rest, target⟩) := by
  cases h with
  | paren hgap =>
    rw [List.append_assoc]
    exact moreArguments_of_none (charAfter_gap_ne hgap (by decide) (by decide))
  | comma hgap hinner =>
    rw [List.append_assoc, List.cons_append, List.append_assoc]
    exact moreArguments_of_comma (charAfter_gap hgap (by decide))
      (hinner.skip (Spacing.solid_cons (by decide))) (argument_closer (by decide))

end Closing

theorem closing_of_char? {separator : Option Cursor} {last : Cursor}
    (hseparator : charAfter .multiline ',' behind = .ok separator)
    (hlast : Spacing.multiline.skip (separator.getD behind) = .ok last)
    (hclosing : last.char? ')' = some after) :
    ∃ text, behind.Reads text after ∧ Closing text := by
  have hclose := Cursor.reads_of_char? hclosing
  obtain ⟨inner, hinnerReads, hinner⟩ :=
    Spacing.gap_of_skip hlast (hclose.solid (Spacing.solid_cons (by decide)))
  cases separator with
  | none => exact ⟨_, hinnerReads.trans hclose, .paren hinner⟩
  | some afterComma =>
    obtain ⟨gap, next, hgapReads, hcomma, hgap⟩ := gap_of_charAfter hseparator (by decide)
    exact ⟨_, hgapReads.trans (hcomma.cons (hinnerReads.trans hclose)), .comma hgap hinner⟩

theorem valueArguments_relocates (h : Relocates budget) {values : List Argument}
    (hvalues : valueArguments (budget + 1) cursor = .ok (values, after)) :
    ∃ text, cursor.Reads text after ∧
      Rereads valueArguments (fun move after => (argumentsMapSpans move values, after)) 4
        (fun _ => True) cursor.position text := by
  obtain ⟨first, behind, separator, last, hfirst, hlisted, hseparator, hlast, hclosing⟩ :=
    valueArguments_cases hvalues
  obtain ⟨closing, hclose, hcloses⟩ := closing_of_char? hseparator hlast hclosing
  rcases hlisted with ⟨-, rfl, rfl⟩ | ⟨value, others, next, hvalue, hothers, rfl⟩
  · refine ⟨closing, hclose, fun budget rest target move hmove _ hbudget => ?_⟩
    obtain ⟨budget, rfl⟩ := Nat.exists_eq_add_of_le' (show 4 ≤ budget by omega)
    obtain ⟨c, cs, position, hskip, hc⟩ := hcloses.skip rest target
    obtain ⟨separator, last, hseparator, hlast, hparen⟩ := hcloses.again rest target
    exact valueArguments_of_none hskip (argument_closer hc) hseparator hlast hparen
  · obtain ⟨text, hreads, hsolid, hreread⟩ := h.argument hvalue
    obtain ⟨more, hmore, hends, hrereadMore⟩ := h.moreArguments hothers
    obtain ⟨gap, hgapReads, hgap⟩ := Spacing.gap_of_skip hfirst (hreads.solid hsolid)
    refine ⟨_, hgapReads.trans (hreads.trans (hmore.trans hclose)),
      fun budget rest target move hmove _ hbudget => ?_⟩
    have hlength := List.length_pos_of_ne_nil hsolid.ne_nil
    simp only [List.length_append] at hbudget
    obtain ⟨budget, rfl⟩ := Nat.exists_eq_add_of_le' (show 1 ≤ budget by omega)
    have hmoved := hmove.behind hgapReads
    have hrest : Closes (closing ++ rest) := ⟨closing, rest, rfl, hcloses⟩
    have hread := hreread budget _ hmoved (hends _ hrest) (by omega)
    have hreadMore := hrereadMore budget _ (hmoved.behind hreads) hrest (by omega)
    obtain ⟨separator, last, hseparator, hlast, hparen⟩ :=
      hcloses.again rest (((target.afterAll gap).afterAll text).afterAll more)
    simp only [List.append_assoc, Position.afterAll_append]
    exact valueArguments_of_cons (hgap.skip hsolid.append) hread hreadMore hseparator hlast hparen

theorem moreArguments_relocates (h : Relocates budget) {values : List Argument}
    (hvalues : moreArguments (budget + 1) cursor = .ok (values, after)) :
    ∃ text, cursor.Reads text after ∧ (∀ rest, Closes rest → EndsArgument (text ++ rest)) ∧
      Rereads moreArguments (fun move after => (argumentsMapSpans move values, after)) 4
        Closes cursor.position text := by
  rcases moreArguments_cases hvalues with ⟨rfl, rfl⟩ |
    ⟨afterComma, first, value, others, next, hcomma, hfirst, hvalue, hothers, rfl⟩
  · refine ⟨[], .refl, ?_, fun budget rest target move hmove hrest hbudget => ?_⟩
    · rintro _ ⟨closing, cs, rfl, hcloses⟩
      exact hcloses.endsArgument
    · obtain ⟨closing, cs, rfl, hcloses⟩ := hrest
      obtain ⟨budget, rfl⟩ := Nat.exists_eq_add_of_le' (show 4 ≤ budget by simpa using hbudget)
      exact hcloses.moreArguments
  · obtain ⟨gap, before, hgapReads, hchar, hgap⟩ := gap_of_charAfter hcomma (by decide)
    obtain ⟨text, hreads, hsolid, hreread⟩ := h.argument hvalue
    obtain ⟨more, hmore, hends, hrereadMore⟩ := h.moreArguments hothers
    obtain ⟨inner, hinnerReads, hinner⟩ := Spacing.gap_of_skip hfirst (hreads.solid hsolid)
    refine ⟨_, hgapReads.trans (hchar.cons (hinnerReads.trans (hreads.trans hmore))),
      fun rest hrest => ?_, fun budget rest target move hmove hrest hbudget => ?_⟩
    · rw [List.append_assoc]
      exact endsArgument_gap hgap (.inl rfl)
    · simp only [List.length_append, List.length_cons] at hbudget
      obtain ⟨budget, rfl⟩ := Nat.exists_eq_add_of_le' (show 1 ≤ budget by omega)
      have hmoved := ((hmove.behind hgapReads).behind hchar).behind hinnerReads
      have hread := hreread budget _ hmoved (hends _ hrest) (by omega)
      have hreadMore := hrereadMore budget _ (hmoved.behind hreads) hrest (by omega)
      simp only [List.append_assoc, List.cons_append, Position.afterAll_append,
        Position.afterAll_cons]
      exact moreArguments_of_cons (charAfter_gap hgap (by decide)) (hinner.skip hsolid.append)
        hread hreadMore

theorem argument_relocates (h : Relocates budget) {value : Argument}
    (hargument : argument (budget + 1) cursor = .ok (some (value, after))) :
    ∃ text, cursor.Reads text after ∧ Spacing.Solid text ∧
      Rereads argument (fun move after => some (value.mapSpans move, after)) 2
        EndsArgument cursor.position text := by
  rcases argument_cases hargument with
    ⟨name, afterName, sign, afterSign, inside, value, hname, hsign, hassigned, hinside, hvalue,
      rfl⟩ | ⟨value, hvalue, rfl⟩
  · have hnamed := Cursor.isName_of_name? hname
    have hletters := Cursor.reads_of_name? hname
    have hequals := (Cursor.reads_of_assignmentSign? hassigned).1
    obtain ⟨text, hreads, hleading, hreread⟩ := h.expression hvalue
    obtain ⟨gap, hgapReads, hgap⟩ :=
      Spacing.gap_of_skip hsign (hequals.solid (Spacing.solid_cons (by decide)))
    obtain ⟨inner, hinnerReads, hinner⟩ := Spacing.gap_of_skip hinside (hreads.solid hleading.solid)
    have hwhole := hletters.trans (hgapReads.trans (hequals.cons (hinnerReads.trans hreads)))
    refine ⟨_, hwhole, (solid_name hnamed).append,
      fun budget rest target move hmove hrest hbudget => ?_⟩
    simp only [List.length_append, List.length_cons] at hbudget
    obtain ⟨budget, rfl⟩ := Nat.exists_eq_add_of_le' (show 1 ≤ budget by omega)
    have hmoved := (((hmove.behind hletters).behind hgapReads).behind hequals).behind hinnerReads
    have hread := hreread budget _ hmoved hrest.toEndsExpression (by omega)
    have hdelimited : Delimited (gap ++ '=' :: (inner ++ (text ++ rest))) :=
      hgap.lineGap.delimited (delimited_cons.mpr (by decide))
    have hagain := Cursor.assignmentSign?_again hassigned (hinnerReads.trans hreads)
      (by simp [hleading.ne_nil]) rest ((target.afterAll name.toList).afterAll gap)
    have hspan := hmove.reads hwhole (name.toList ++ (gap ++ '=' :: (inner ++ (text ++ rest)))) rest
    rw [List.append_assoc] at hagain
    simp only [List.append_assoc, List.cons_append, Position.afterAll_append,
      Position.afterAll_cons, Argument.mapSpans] at hspan ⊢
    rw [hspan]
    exact argument_named (Cursor.name?_name hnamed hdelimited)
      (hgap.skip (Spacing.solid_cons (by decide))) hagain
      (hinner.skip hleading.solid.append) hread
  · obtain ⟨text, hreads, hleading, hreread⟩ := h.expression hvalue
    refine ⟨text, hreads, hleading.solid, fun budget rest target move hmove hrest hbudget => ?_⟩
    obtain ⟨budget, rfl⟩ := Nat.exists_eq_add_of_le' (show 1 ≤ budget by omega)
    have hread := hreread budget _ hmove hrest.toEndsExpression (by omega)
    dsimp only [Argument.mapSpans]
    rw [hmove.reads hreads]
    exact argument_unnamed (hleading.unnamed hrest.delimited hrest.unassigned) hread

theorem lambda_relocates (h : Relocates budget) {value : Argument}
    (hlambda : lambda (budget + 1) cursor = .ok (some (value, after))) :
    ∃ text, cursor.Reads ('\x7b' :: text) after ∧
      Rereads lambda (fun move after => some (value.mapSpans move, after)) 0
        (fun _ => True) cursor.position ('\x7b' :: text) := by
  obtain ⟨inside, first, statements, hopening, hfirst, hbody, rfl⟩ := lambda_cases hlambda
  have hopen := Cursor.reads_of_char? hopening
  obtain ⟨c, text, hreads, hsolid, -, hreread⟩ := h.blockBody hbody
  obtain ⟨gap, hgapReads, hgap⟩ :=
    Spacing.gap_of_skip hfirst (hreads.solid (Spacing.solid_cons hsolid))
  have hwhole := hopen.cons (hgapReads.trans hreads)
  refine ⟨_, hwhole, fun budget rest target move hmove _ hbudget => ?_⟩
  simp only [List.length_append, List.length_cons] at hbudget
  obtain ⟨budget, rfl⟩ := Nat.exists_eq_add_of_le' (show 1 ≤ budget by omega)
  have hread := hreread budget rest ((hmove.behind hopen).behind hgapReads) trivial
    (by simp only [List.length_cons]; omega)
  have hspan := hmove.reads hwhole ('\x7b' :: (gap ++ c :: (text ++ rest))) rest
  simp only [List.append_assoc, List.cons_append, Position.afterAll_append,
    Position.afterAll_cons, Argument.mapSpans, Block.mapSpans] at hspan ⊢
  rw [hspan]
  exact lambda_of_body Cursor.char?_self (hgap.skip (Spacing.solid_cons hsolid)) hread

theorem blockBody_relocates (h : Relocates budget) {statements : List Statement}
    (hbody : blockBody (budget + 1) cursor = .ok (statements, after)) :
    ∃ c text, cursor.Reads (c :: text) after ∧ Spacing.isSolid c = true ∧ c ≠ '.' ∧
      Rereads blockBody (fun move after => (statementsMapSpans move statements, after)) 0
        (fun _ => True) cursor.position (c :: text) := by
  rcases blockBody_cases hbody with ⟨hclosing, rfl⟩ |
    ⟨first, others, behind, ended, next, hopen, hfirst, hended, hnext, hothers, rfl⟩
  · refine ⟨'\x7d', [], Cursor.reads_of_char? hclosing, by decide, by decide,
      fun budget rest target move hmove _ hbudget => ?_⟩
    obtain ⟨budget, rfl⟩ := Nat.exists_eq_add_of_le' (show 1 ≤ budget by
      simp only [List.length_singleton] at hbudget
      omega)
    exact blockBody_of_closing Cursor.char?_self
  · obtain ⟨text, hreads, hfronts, -, hreread⟩ := h.statement hfirst
    obtain ⟨ending, hendingReads, hending⟩ := ending_of_statementEnd hended
    obtain ⟨d, more, hmore, hsolid, hdot, hrereadMore⟩ := h.blockBody hothers
    obtain ⟨gap, hgapReads, hgap⟩ :=
      Spacing.gap_of_skip hnext (hmore.solid (Spacing.solid_cons hsolid))
    have hwhole := hreads.trans (hendingReads.trans (hgapReads.trans hmore))
    obtain ⟨c, hc, hcSolid, hcDot, hcBrace⟩ := hfronts
    cases text with
    | nil => cases hc
    | cons b text =>
    obtain rfl : b = c := by simpa using hc
    refine ⟨b, text ++ (ending ++ (gap ++ d :: more)), hwhole, hcSolid, hcDot,
      fun budget rest target move hmove _ hbudget => ?_⟩
    simp only [List.length_append, List.length_cons] at hbudget
    obtain ⟨budget, rfl⟩ := Nat.exists_eq_add_of_le' (show 1 ≤ budget by omega)
    have hnextMeets : Spacing.separators.Meets (gap ++ d :: (more ++ rest)) (· ≠ some '.') := by
      refine (hgap.meets_cons hsolid).imp ?_
      rintro e rfl
      simpa using hdot
    -- What stands behind the end of the statement begins as it did before.
    have hresumes : Resumes ended.rest (gap ++ d :: (more ++ rest)) := by
      rw [(hgapReads.trans hmore).rest]
      simpa using resumes_append (gap ++ d :: more) after.rest (by simp) (by simpa using hnextMeets)
    have hmoved := (hmove.behind hreads).behind hendingReads
    have hread := hreread budget _ hmove (hending.endsStatement hresumes)
      (by simp only [List.length_cons]; omega)
    obtain ⟨stop, hstop, hskip⟩ := hending.again hresumes (target.afterAll (b :: text))
    rw [hgap.skip (Spacing.solid_cons hsolid)] at hskip
    have hreadMore := hrereadMore budget rest (hmoved.behind hgapReads) trivial
      (by simp only [List.length_cons]; omega)
    simp only [List.append_assoc, List.cons_append, Position.afterAll_append,
      Position.afterAll_cons] at hread hstop hskip hreadMore ⊢
    exact blockBody_of_cons (Cursor.char?_ne hcBrace) (by simp) hread hstop hskip hreadMore

theorem local_relocates (h : Relocates budget) {value : Expr} {name : String}
    {afterWord first afterName sign afterSign inside : Cursor}
    (hword : cursor.keyword? "val" = some afterWord)
    (hfirst : Spacing.inline.skip afterWord = .ok first)
    (hname : first.name? = some (name, afterName))
    (hsign : Spacing.inline.skip afterName = .ok sign) (hequals : sign.char? '=' = some afterSign)
    (hinside : Spacing.multiline.skip afterSign = .ok inside)
    (hvalue : expression budget inside = .ok (some (value, after))) :
    ∃ text, cursor.Reads ("val".toList ++ text) after ∧
      RereadsStatement (.localValue name value (cursor.spanTo after)) cursor.position
        ("val".toList ++ text) := by
  have hnamed := Cursor.isName_of_name? hname
  have hletters := Cursor.reads_of_name? hname
  have hassign := Cursor.reads_of_char? hequals
  obtain ⟨hval, hstop⟩ := Cursor.reads_of_keyword? hword
  obtain ⟨text, hreads, hleading, hreread⟩ := h.expression hvalue
  obtain ⟨gap, hgapReads, hgap⟩ := Spacing.gap_of_skip hfirst (hletters.solid (solid_name hnamed))
  obtain ⟨inner, hinnerReads, hinner⟩ :=
    Spacing.gap_of_skip hsign (hassign.solid (Spacing.solid_cons (by decide)))
  obtain ⟨last, hlastReads, hlast⟩ := Spacing.gap_of_skip hinside (hreads.solid hleading.solid)
  have hbehind := hgapReads.trans
    (hletters.trans (hinnerReads.trans (hassign.cons (hlastReads.trans hreads))))
  have hwhole := hval.trans hbehind
  refine ⟨_, hwhole, fun budget rest target move hmove hrest hbudget => ?_⟩
  simp only [List.length_append, List.length_cons] at hbudget
  obtain ⟨budget, rfl⟩ := Nat.exists_eq_add_of_le' (show 1 ≤ budget by omega)
  have hmoved := ((((hmove.behind hval).behind hgapReads).behind hletters).behind
    hinnerReads).behind hassign
  have hread := hreread budget rest (hmoved.behind hlastReads) hrest.toEndsExpression (by omega)
  have hdelimited := hbehind.delimited hstop (by simp) rest
  have hsignDelimited : Delimited (inner ++ '=' :: (last ++ (text ++ rest))) :=
    hinner.lineGap.delimited (delimited_cons.mpr (by decide))
  have hspan := hmove.reads hwhole ("val".toList ++ (gap ++ (name.toList ++
    (inner ++ '=' :: (last ++ (text ++ rest)))))) rest
  simp only [List.append_assoc, List.cons_append, Position.afterAll_append,
    Position.afterAll_cons, Statement.mapSpans] at hdelimited hspan ⊢
  rw [hspan]
  exact statement_of_local (Cursor.keyword?_self hdelimited)
    (hgap.skip (solid_name hnamed).append) (Cursor.name?_name hnamed hsignDelimited)
    (hinner.skip (Spacing.solid_cons (by decide))) Cursor.char?_self
    (hlast.skip hleading.solid.append) hread

/-- An expression is a statement when no sign assigns to it. -/
theorem rereadsStatement_of_expr {value : Expr} (hleading : Leading text)
    (h : RereadsExpr value place text) : RereadsStatement (.expr value) place text := by
  intro budget rest target move hmove hrest hbudget
  obtain ⟨budget, rfl⟩ := Nat.exists_eq_add_of_le' (show 1 ≤ budget by omega)
  have hread := h budget rest hmove hrest.toEndsExpression (by omega)
  obtain ⟨next, hnext, hnone⟩ := hrest.unassigned (target.afterAll text)
  exact statement_of_expr (hleading.keyword?_eq_none hrest.delimited (by decide))
    (hleading.keyword?_eq_none hrest.delimited (by decide)) hread hnext hnone

/-- A sign behind a property assigns to it. -/
theorem assignment_relocates (h : Relocates budget) {receiver : Option Expr} {name : String}
    {span : Span} {value : Expr} {sign afterSign inside : Cursor}
    (hreads : cursor.Reads text behind) (hleading : Leading text)
    (hreread : RereadsExpr (.property receiver name span) cursor.position text)
    (hsign : Spacing.inline.skip behind = .ok sign)
    (hassigned : sign.assignmentSign? = some afterSign)
    (hinside : Spacing.multiline.skip afterSign = .ok inside)
    (hvalue : expression budget inside = .ok (some (value, after))) :
    ∃ tail, cursor.Reads (text ++ tail) after ∧ (∀ rest, EndsExpression (tail ++ rest)) ∧
      RereadsStatement (.assignment receiver name span value (cursor.spanTo after)) cursor.position
        (text ++ tail) := by
  have hequals := (Cursor.reads_of_assignmentSign? hassigned).1
  obtain ⟨more, hmore, hmoreLeading, hrereadMore⟩ := h.expression hvalue
  obtain ⟨gap, hgapReads, hgap⟩ :=
    Spacing.gap_of_skip hsign (hequals.solid (Spacing.solid_cons (by decide)))
  obtain ⟨inner, hinnerReads, hinner⟩ :=
    Spacing.gap_of_skip hinside (hmore.solid hmoreLeading.solid)
  have hwhole := hreads.trans (hgapReads.trans (hequals.cons (hinnerReads.trans hmore)))
  have hends : ∀ cs, EndsExpression (gap ++ '=' :: cs) := fun cs =>
    endsExpression_gap (hgap.widen Spacing.inline_narrower) (by decide)
  refine ⟨_, hwhole, fun rest => ?_, fun budget rest target move hmove hrest hbudget => ?_⟩
  · rw [List.append_assoc]
    exact hends _
  · simp only [List.length_append, List.length_cons] at hbudget
    obtain ⟨budget, rfl⟩ := Nat.exists_eq_add_of_le' (show 1 ≤ budget by omega)
    have hmoved := ((hmove.behind hreads).behind hgapReads).behind hequals
    have hread := hreread budget (gap ++ '=' :: (inner ++ (more ++ rest))) hmove (hends _)
      (by omega)
    have hreadMore := hrereadMore budget rest (hmoved.behind hinnerReads)
      hrest.toEndsExpression (by omega)
    have hagain := Cursor.assignmentSign?_again hassigned (hinnerReads.trans hmore)
      (by simp [hmoreLeading.ne_nil]) rest ((target.afterAll text).afterAll gap)
    have hspan := hmove.reads hwhole (text ++ (gap ++ '=' :: (inner ++ (more ++ rest)))) rest
    rw [List.append_assoc] at hagain
    simp only [mapSpans_property] at hread
    simp only [List.append_assoc, List.cons_append, Position.afterAll_append,
      Position.afterAll_cons, mapSpans_assignment] at hspan ⊢
    rw [hspan]
    exact statement_of_assignment
      (hleading.keyword?_eq_none (hends _).delimited (by decide))
      (hleading.keyword?_eq_none (hends _).delimited (by decide)) hread
      (hgap.skip (Spacing.solid_cons (by decide))) hagain
      (hinner.skip hmoreLeading.solid.append) hreadMore

theorem statement_relocates (h : Relocates budget) {result : Statement}
    (hstatement : statement (budget + 1) cursor = .ok (result, after)) :
    ∃ text, cursor.Reads text after ∧ Fronts text ∧
      (∀ rest position, Delimited rest →
        (⟨text ++ rest, position⟩ : Cursor).keyword? "import" = none) ∧
      RereadsStatement result cursor.position text := by
  rcases statement_cases hstatement with
    ⟨afterWord, first, name, afterName, sign, afterSign, inside, value, hword, hfirst, hname, hsign,
      hequals, hinside, hvalue, rfl⟩ |
    ⟨value, behind, sign, -, -, hvalue, hsign, hresult⟩
  · obtain ⟨text, hwhole, hagain⟩ :=
      local_relocates h hword hfirst hname hsign hequals hinside hvalue
    exact ⟨_, hwhole, ⟨'v', rfl, by decide⟩,
      fun rest position _ => Cursor.keyword?_cons rfl (by decide), hagain⟩
  · obtain ⟨text, hreads, hleading, hreread⟩ := h.expression hvalue
    rcases hresult with ⟨-, rfl, rfl⟩ |
      ⟨receiver, name, span, afterSign, inside, assigned, rfl, hassigned, hinside, hassignedValue,
        rfl⟩
    · exact ⟨text, hreads, hleading.fronts,
        fun rest position hrest => hleading.keyword?_eq_none hrest (by decide),
        rereadsStatement_of_expr hleading hreread⟩
    · obtain ⟨tail, hwhole, hends, hagain⟩ :=
        assignment_relocates h hreads hleading hreread hsign hassigned hinside hassignedValue
      refine ⟨_, hwhole, hleading.fronts.append, fun rest position _ => ?_, hagain⟩
      rw [List.append_assoc]
      exact hleading.keyword?_eq_none (hends rest).delimited (by decide)

theorem succ_relocates (h : Relocates budget) : Relocates (budget + 1) where
  expression hexpression := by
    obtain ⟨first, behind, hfirst, hchain⟩ := expression_cases hexpression
    obtain ⟨text, hreads, hleading, hspined⟩ := h.primary hfirst
    obtain ⟨whole, hwhole, hfront, hvalue⟩ := h.chain hchain hreads hleading hspined
    exact ⟨whole, hwhole, hfront, hvalue.rereads hfront.ne_nil⟩
  chain := chain_relocates h
  primary := primary_relocates h
  suffix := suffix_relocates h
  valueArguments := valueArguments_relocates h
  moreArguments := moreArguments_relocates h
  argument := argument_relocates h
  lambda := lambda_relocates h
  blockBody := blockBody_relocates h
  statement := statement_relocates h

/-- The readers read again whatever they have read. -/
theorem relocates (budget : Nat) : Relocates budget := by
  induction budget with
  | zero => exact zero_relocates
  | succ budget ih => exact succ_relocates ih

end ConfigScript.Parser
