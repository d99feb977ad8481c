import Mathlib.Data.Bool.AllAny
import ConfigScript.Proofs.Syntax.Erase
import ConfigScript.Proofs.Syntax.Following
import ConfigScript.Proofs.Syntax.Literals

/-!
# Reading a value and its members back

An expression is read as a first value and then member by member, each with the value before it as
its receiver. The text of a tree leads the reader along the receivers of the tree, from the inside
out, and leaves it behind the text with enough of its budget.
-/

namespace ConfigScript.Parser

variable {budget : Nat} {rest text : List Char} {position : Position} {name : String}

theorem eraseSpans_member {receiver found : Option Expr} {name : String} {span place : Span}
    {arguments read : Option (List Argument)}
    (hreceiver : found.map Expr.eraseSpans = receiver.map Expr.eraseSpans)
    (harguments : read.map argumentsEraseSpans = arguments.map argumentsEraseSpans) :
    (member found name place read).eraseSpans =
      (member receiver name span arguments).eraseSpans := by
  cases receiver <;> cases found <;> cases arguments <;> cases read <;>
    simp_all [member, Expr.eraseSpans]

/-- The text behind a name gives the name its arguments, or none at all. -/
def SuffixReads (arguments : Option (List Argument)) (text : List Char) : Prop :=
  ∀ (budget : Nat) (rest : List Char) (position : Position), EndsMember rest →
    8 * text.length + 2 ≤ budget → ∃ found stop, Delimited (text ++ rest) ∧
      suffix budget ⟨text ++ rest, position⟩ = .ok (found, ⟨rest, stop⟩) ∧
      found.map argumentsEraseSpans = arguments.map argumentsEraseSpans

/-- The text leads from its front to its end, and there the value has been put together. -/
def Spine (value : Expr) (text : List Char) : Prop :=
  ∀ (budget : Nat) (rest : List Char) (position : Position) (start : Cursor), EndsMember rest →
    8 * text.length ≤ budget → ∃ first behind remaining found stop,
      primary budget ⟨text ++ rest, position⟩ = .ok (some (first, behind)) ∧
      chain budget start first behind = chain remaining start found ⟨rest, stop⟩ ∧
      budget ≤ remaining + text.length ∧ found.eraseSpans = value.eraseSpans

/-- The text is read as the value, up to spans, whatever ends the expression behind it. -/
def ReadsBack (value : Expr) (text : List Char) : Prop :=
  ∀ (budget : Nat) (rest : List Char) (position : Position), EndsExpression rest →
    8 * text.length < budget → ∃ found stop,
      expression budget ⟨text ++ rest, position⟩ = .ok (some (found, ⟨rest, stop⟩)) ∧
      found.eraseSpans = value.eraseSpans

theorem readsBack_of_spine {value : Expr} (h : Spine value text) (hopens : Opens text) :
    ReadsBack value text := by
  intro budget rest position hrest hbudget
  have hlength := length_pos_of_opens hopens
  obtain ⟨budget, rfl⟩ := Nat.exists_eq_add_of_le' (show 1 ≤ budget by omega)
  have hless : 8 * text.length ≤ budget := by omega
  obtain ⟨first, behind, remaining, found, stop, hprimary, hchain, hremaining, hfound⟩ :=
    h _ _ position ⟨text ++ rest, position⟩ hrest.toEndsMember hless
  obtain ⟨remaining, rfl⟩ := Nat.exists_eq_add_of_le' (show 1 ≤ remaining by omega)
  have hstop : chain (remaining + 1) ⟨text ++ rest, position⟩ found ⟨rest, stop⟩ =
      .ok (found, ⟨rest, stop⟩) := by
    rw [chain, hrest.noMember]
    rfl
  refine ⟨found, stop, ?_, hfound⟩
  rw [expression, hprimary]
  simp only [bind, Except.bind, hchain, hstop]
  rfl

/-- No literal and no word begins with a parenthesis, a closing brace or a comma. -/
theorem literalOrWord?_symbol {c : Char} (h : c ∈ ['(', ')', ',', '\x7d']) :
    literalOrWord? ⟨c :: rest, position⟩ = .ok none := by
  have hclass : ∀ d ∈ ['(', ')', ',', '\x7d'],
      d ≠ '"' ∧ d.isDigit = false ∧ d ≠ '-' ∧ d ≠ 't' ∧ d ≠ 'f' ∧ d ≠ 'n' :=
    List.all_iff_forall_prop.mp (by decide)
  obtain ⟨hquote, hdigit, hminus, htrue, hfalse, hnull⟩ := hclass c h
  rw [literalOrWord?, Literal.readString_cons hquote, Literal.readNumber_cons hdigit hminus,
    Literal.readBoolean, Cursor.keyword?_cons rfl htrue, Cursor.keyword?_cons rfl hfalse,
    Cursor.keyword?_cons rfl hnull, Cursor.keyword?_cons rfl htrue]
  rfl

/-- No expression begins with what closes arguments or a block, nor with a comma. -/
theorem expression_closer {c : Char} (h : c ∈ [')', ',', '\x7d']) :
    expression (budget + 2) ⟨c :: rest, position⟩ = .ok none := by
  have hclass : ∀ d ∈ [')', ',', '\x7d'], startsIdentifier d = false ∧ d ≠ '(' :=
    List.all_iff_forall_prop.mp (by decide)
  rw [expression, primary, literalOrWord?_symbol (List.mem_cons_of_mem _ h),
    Cursor.char?_ne (hclass c h).2, Cursor.name?_cons (hclass c h).1]
  rfl

theorem suffixReads_none : SuffixReads none [] := by
  intro budget rest position hrest hbudget
  obtain ⟨budget, rfl⟩ := Nat.exists_eq_add_of_le' (show 2 ≤ budget by simp at hbudget; omega)
  obtain ⟨opening, hopening, hparen, hbrace⟩ := hrest.bare position
  refine ⟨none, position, hrest.delimited, ?_, rfl⟩
  rw [List.nil_append, suffix, hopening]
  simp [bind, Except.bind, hparen, lambda, hbrace, pure, Except.pure]

theorem opens_name (hname : isName name = true) : Opens name.toList := by
  rw [isName, Bool.and_eq_true] at hname
  cases htext : name.toList with
  | nil =>
    rw [htext] at hname
    cases hname.1
  | cons c cs =>
    rw [htext, isIdentifier, Bool.and_eq_true] at hname
    exact ⟨c, cs, rfl, by simp [opensExpression, hname.1.1]⟩

theorem primary_name {arguments : Option (List Argument)} {after : Cursor}
    (hname : isName name = true) (hrest : Delimited rest)
    (hsuffix : suffix budget ⟨rest, position.afterAll name.toList⟩ = .ok (arguments, after)) :
    primary (budget + 1) ⟨name.toList ++ rest, position⟩ =
      .ok (some (member none name (Cursor.spanTo ⟨name.toList ++ rest, position⟩ after) arguments,
        after)) := by
  rw [primary, literalOrWord?_name hname hrest, char?_opens (opens_name hname) (by decide),
    Cursor.name?_name hname hrest]
  simp [bind, Except.bind, hsuffix, pure, Except.pure]

theorem chain_name {arguments : Option (List Argument)} {start after : Cursor} {value : Expr}
    (hname : isName name = true) (hrest : Delimited rest)
    (hsuffix : suffix budget ⟨rest, (position.after '.').afterAll name.toList⟩ =
      .ok (arguments, after)) :
    chain (budget + 1) start value ⟨'.' :: (name.toList ++ rest), position⟩ =
      chain budget start (member (some value) name (start.spanTo after) arguments) after := by
  have hdot : charAfter .multiline '.' ⟨'.' :: (name.toList ++ rest), position⟩ =
      .ok (some ⟨name.toList ++ rest, position.after '.'⟩) := by
    rw [charAfter_eq (Spacing.skip_stop rfl (by decide)), Cursor.char?_self]
  rw [chain, hdot]
  simp [bind, Except.bind, skip_opens (opens_name hname), Cursor.name?_name hname hrest, hsuffix]

variable {arguments : Option (List Argument)} {span : Span}

theorem spine_root (hname : isName name = true) (hsuffix : SuffixReads arguments text) :
    Spine (member none name span arguments) (name.toList ++ text) := by
  intro budget rest position start hrest hbudget
  have hlength := length_pos_of_opens (opens_name hname)
  rw [List.length_append] at hbudget
  obtain ⟨budget, rfl⟩ := Nat.exists_eq_add_of_le' (show 1 ≤ budget by omega)
  have hless : 8 * text.length + 2 ≤ budget := by omega
  obtain ⟨found, stop, hdelimited, hread, hfound⟩ := hsuffix _ _ _ hrest hless
  rw [List.append_assoc]
  exact ⟨_, _, budget + 1, _, stop, primary_name hname hdelimited hread, rfl, by omega,
    eraseSpans_member rfl hfound⟩

theorem spine_member {receiver : Expr} {before : List Char} (hreceiver : Spine receiver before)
    (hname : isName name = true) (hsuffix : SuffixReads arguments text) :
    Spine (member (some receiver) name span arguments)
      (before ++ '.' :: (name.toList ++ text)) := by
  intro budget rest position start hrest hbudget
  simp only [List.length_append, List.length_cons] at hbudget ⊢
  have hless : 8 * before.length ≤ budget := by omega
  have hdot : EndsMember ('.' :: (name.toList ++ (text ++ rest))) := endsMember_dot
  obtain ⟨first, behind, remaining, found, stop, hprimary, hchain, hremaining, hfound⟩ :=
    hreceiver _ _ position start hdot hless
  -- Each link of the chain has cost one unit, and no receiver has more links than characters.
  obtain ⟨remaining, rfl⟩ := Nat.exists_eq_add_of_le' (show 1 ≤ remaining by omega)
  have henough : 8 * text.length + 2 ≤ remaining := by omega
  obtain ⟨read, stop', hdelimited, hread, hread'⟩ := hsuffix _ _ _ hrest henough
  rw [chain_name hname hdelimited hread] at hchain
  refine ⟨first, behind, remaining, _, stop', ?_, hchain, by omega,
    eraseSpans_member (by simp [hfound]) hread'⟩
  simpa using hprimary

end ConfigScript.Parser
