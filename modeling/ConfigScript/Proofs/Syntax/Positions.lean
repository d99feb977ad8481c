import ConfigScript.Proofs.Syntax.Gaps
import ConfigScript.Proofs.Syntax.Inversion
import ConfigScript.Proofs.Syntax.Placed
import ConfigScript.Proofs.Syntax.Spine

/-!
# Readers keep their places

One specification for every reader: begun at a cursor of the source, it fails only with exact
failures, and what it yields fills the text that it has read. One level of the descent keeps this
when the level below does; so it holds for every budget.
-/

namespace ConfigScript

variable {source : String} {cursor after start stop : Cursor}

/-- What a step yields satisfies a condition, and what it fails with is placed in the source. -/
def Keeps {α : Type} (source : String) (post : α → Prop) : Except Failure α → Prop
  | .ok value => post value
  | .error failure => failure.Exact source

namespace Keeps

variable {α β : Type} {post : α → Prop} {goal : β → Prop} {step : Except Failure α}

theorem bind {next : α → Except Failure β} (h : Keeps source post step)
    (hnext : ∀ value, post value → Keeps source goal (next value)) :
    Keeps source goal (step >>= next) := by
  cases step with
  | error failure => exact h
  | ok value => exact hnext value h

theorem of_ok (h : Keeps source post step) {value : α} (hvalue : step = .ok value) :
    post value := by
  rw [hvalue] at h
  exact h

end Keeps

namespace Spacing

/-- A scan that fails does so behind the opening of a comment. -/
theorem exact_of_skipFrom {spacing : Spacing} {mode : Mode} {cs : List Char} {position : Position}
    {failure : Failure} (hin : Cursor.In source ⟨cs, position⟩)
    (hopening : ∀ opening, mode = .blockComment opening → opening.In source)
    (h : skipFrom spacing mode cs position = .error failure) : failure.Exact source := by
  fun_induction skipFrom spacing mode cs position with
  | case1 cs position ih => exact ih hin.step.step (by simp) h
  | case2 cs position inside ih =>
    refine ih hin.step.step ?_ h
    rintro _ ⟨⟩
    exact hin.step.step
  | case3 c cs position _ _ hskips ih => exact ih hin.step (by simp) h
  | case4 => cases h
  | case5 c cs position hfeed hskips ih => exact ih hin.step (by simp) h
  | case6 => cases h
  | case7 c cs position hfeed ih => exact ih hin.step (by simp) h
  | case8 opening cs position ih => exact ih hin.step.step (by simp) h
  | case9 opening c cs position hopen ih => exact ih hin.step hopening h
  | case10 opening position =>
    obtain rfl := Except.error.inj h
    exact Cursor.exact_ofCursor (hopening opening rfl)
  | case11 => cases h

theorem keeps_skip {spacing : Spacing} (hin : cursor.In source) :
    Keeps source cursor.Precedes (spacing.skip cursor) := by
  cases hskip : spacing.skip cursor with
  | error failure => exact exact_of_skipFrom hin (by simp) hskip
  | ok after =>
    obtain ⟨text, hreads, -⟩ := reads_of_skip hskip
    exact hreads.precedes

end Spacing

namespace Literal

/-- A string that cannot be read fails at its opening quote or where a character of it is wrong. -/
theorem exact_of_readCharacters {opening : Cursor} {cs : List Char} {position : Position}
    {failure : Failure} (hopening : opening.In source) (hin : Cursor.In source ⟨cs, position⟩)
    (h : readCharacters opening cs position = .error failure) : failure.Exact source := by
  fun_induction readCharacters opening cs position with
  | case1 position =>
    obtain rfl := Except.error.inj h
    exact Cursor.exact_ofCursor hopening
  | case2 position =>
    obtain rfl := Except.error.inj h
    exact Cursor.exact_ofCursor hin
  | case3 c cs position value hvalue ih =>
    cases hothers : readCharacters opening cs ((position.after '\\').after c) with
    | error fault =>
      rw [hothers] at h
      obtain rfl := Except.error.inj h
      exact ih hin.step.step hothers
    | ok reading =>
      rw [hothers] at h
      cases h
  | case4 c cs position hvalue =>
    obtain rfl := Except.error.inj h
    exact Cursor.exact_ofCursor hin
  | case5 => cases h
  | case6 c cs position =>
    obtain rfl := Except.error.inj h
    exact Cursor.exact_ofCursor hopening
  | case7 c cs position =>
    obtain rfl := Except.error.inj h
    exact Cursor.exact_ofCursor hin
  | case8 c cs position hlast hescape hquote hfeed htemplate ih =>
    cases hothers : readCharacters opening cs (position.after c) with
    | error fault =>
      rw [hothers] at h
      obtain rfl := Except.error.inj h
      exact ih hin.step hothers
    | ok reading =>
      rw [hothers] at h
      cases h

/-- Whether a literal that may be missing was read up to a cursor behind its beginning. -/
def Reached (cursor : Cursor) (found : Option (Literal × Cursor)) : Prop :=
  ∀ literal after, found = some (literal, after) → cursor.Precedes after

theorem keeps_readString (hin : cursor.In source) :
    Keeps source (Reached cursor) (readString cursor) := by
  unfold readString
  split
  · rintro literal after ⟨⟩
  · rename_i behind hquote
    have hopening := Cursor.reads_of_char? hquote
    cases hread : readCharacters cursor behind.rest behind.position with
    | error failure =>
      exact exact_of_readCharacters hin (hin.later hopening.precedes) hread
    | ok reading =>
      obtain ⟨values, after⟩ := reading
      obtain ⟨text, -, hreads, -⟩ := reads_of_readCharacters hread
      rintro literal after ⟨⟩
      exact hopening.precedes.trans hreads.precedes

theorem keeps_readNumber (hin : cursor.In source) :
    Keeps source (Reached cursor) (readNumber cursor) := by
  cases hread : readNumber cursor with
  | error failure =>
    unfold readNumber at hread
    -- The sign, the digits and the suffix cannot fail, only their value can.
    split at hread
    split at hread
    split at hread
    split at hread
    · cases hread
    · dsimp only at hread
      split at hread
      · cases hread
      · obtain rfl := Except.error.inj hread
        exact Cursor.exact_ofCursor hin
  | ok found =>
    rintro literal after rfl
    obtain ⟨negative, suffixed, digits, hreads, -⟩ := reads_of_readNumber hread
    exact hreads.precedes

theorem precedes_of_readBoolean {literal : Literal}
    (h : readBoolean cursor = some (literal, after)) : cursor.Precedes after := by
  unfold readBoolean at h
  split at h
  · rename_i hword
    obtain ⟨rfl, rfl⟩ := Prod.mk.inj (Option.some.inj h)
    exact (Cursor.reads_of_keyword? hword).1.precedes
  · rename_i hword
    obtain ⟨rfl, rfl⟩ := Prod.mk.inj (Option.some.inj h)
    exact (Cursor.reads_of_keyword? hword).1.precedes
  · cases h

end Literal

namespace Parser

variable {budget : Nat}

theorem keeps_throw {α : Type} {post : α → Prop} {cause : Failure.Cause} (hin : cursor.In source) :
    Keeps source post (throw (Failure.ofCursor cause cursor)) :=
  Cursor.exact_ofCursor hin

/-- What a reader found, if anything, is a node that fills the text it has read. -/
def Found {α : Type} (source : String) (node : α → Node) (cursor : Cursor) :
    Option (Reading α) → Prop
  | none => True
  | some (value, after) => Filled source cursor after [node value]

theorem keeps_require {α : Type} {node : α → Node} {cause : Failure.Cause}
    {found : Option (Reading α)} (hin : cursor.In source) (h : Found source node cursor found) :
    Keeps source (fun (value, after) => Filled source cursor after [node value])
      (require cause cursor found) := by
  cases found with
  | none => exact keeps_throw hin
  | some reading => exact h

/-- A node without children that reaches from a cursor to a later one. -/
theorem filled_leaf (node : Node) (hin : cursor.In source) (hafter : cursor.Precedes after)
    (hspan : node.span = cursor.spanTo after) (hnone : node.children = []) :
    Filled source cursor after [node] :=
  .single node (hnone ▸ .empty hafter) hin hspan

theorem keeps_literalOrWord? (hin : cursor.In source) :
    Keeps source (Found source .expr cursor) (literalOrWord? cursor) := by
  unfold literalOrWord?
  refine (Literal.keeps_readString hin).bind fun text htext => ?_
  split
  · exact filled_leaf (.expr _) hin (htext _ _ rfl) rfl rfl
  refine (Literal.keeps_readNumber hin).bind fun number hnumber => ?_
  split
  · exact filled_leaf (.expr _) hin (hnumber _ _ rfl) rfl rfl
  split
  · rename_i hboolean
    exact filled_leaf (.expr _) hin (Literal.precedes_of_readBoolean hboolean) rfl rfl
  split
  · rename_i hword
    exact filled_leaf (.expr _) hin (Cursor.reads_of_keyword? hword).1.precedes rfl rfl
  split
  · rename_i hword
    exact filled_leaf (.expr _) hin (Cursor.reads_of_keyword? hword).1.precedes rfl rfl
  · trivial

theorem keeps_charAfter {spacing : Spacing} {c : Char} (hin : cursor.In source) :
    Keeps source (fun found => ∀ after ∈ found, cursor.Precedes after ∧
      cursor.position.offset < after.position.offset) (charAfter spacing c cursor) := by
  unfold charAfter
  refine (Spacing.keeps_skip hin).bind fun next hnext after hafter => ?_
  have hreads := Cursor.reads_of_char? hafter
  exact ⟨hnext.trans hreads.precedes,
    Nat.lt_of_le_of_lt hnext.offset_le (hreads.offset_lt (by simp))⟩

/-- Whether a cursor stands where a statement may begin. -/
def Begins (cursor : Cursor) : Prop :=
  cursor.rest ≠ [] ∧ cursor.rest.head? ≠ some '\x7d'

theorem keeps_statementEnd (hin : cursor.In source) :
    Keeps source (fun ended => cursor.Precedes ended ∧
      (Begins ended → cursor.position.offset < ended.position.offset)) (statementEnd cursor) := by
  unfold statementEnd
  refine (Spacing.keeps_skip hin).bind fun stop hstop => ?_
  have hdrop : ∀ count, 0 < count → stop.rest ≠ [] → cursor.Precedes (stop.drop count) ∧
      (Begins (stop.drop count) →
        cursor.position.offset < (stop.drop count).position.offset) := by
    intro count hcount hrest
    have hreads := stop.reads_drop count
    refine ⟨hstop.trans hreads.precedes, fun _ => ?_⟩
    refine Nat.lt_of_le_of_lt hstop.offset_le (hreads.offset_lt ?_)
    rw [ne_eq, List.take_eq_nil_iff, not_or]
    exact ⟨hcount.ne', hrest⟩
  split
  · rename_i hrest
    exact ⟨hstop, fun hbegins => absurd hrest hbegins.1⟩
  · rename_i hrest
    exact hdrop 1 (by decide) (by simp [hrest])
  · rename_i hrest
    exact hdrop 1 (by decide) (by simp [hrest])
  · rename_i hrest
    exact hdrop 2 (by decide) (by simp [hrest])
  · rename_i hrest
    exact ⟨hstop, fun hbegins => absurd (by simp [hrest]) hbegins.2⟩
  · exact keeps_throw (hin.later hstop)

/-- Spacing leads to where a statement may begin only when something stands in front of it. -/
theorem keeps_skip_begins {spacing : Spacing} (hin : cursor.In source) :
    Keeps source (fun next => cursor.Precedes next ∧
      (Begins next → Begins cursor ∨ cursor.position.offset < next.position.offset))
      (spacing.skip cursor) := by
  have hkeeps : Keeps source cursor.Precedes (spacing.skip cursor) := Spacing.keeps_skip hin
  cases hskip : spacing.skip cursor with
  | error failure =>
    rw [hskip] at hkeeps
    exact hkeeps
  | ok next =>
    obtain ⟨text, hreads, -⟩ := Spacing.reads_of_skip hskip
    refine ⟨hreads.precedes, fun hbegins => ?_⟩
    cases text with
    | nil =>
      have hrest : cursor.rest = next.rest := hreads.rest
      left
      rwa [Begins, hrest]
    | cons c text => exact .inr (hreads.offset_lt (by simp))

/-- Nodes that begin where a statement may stand apart from a statement that has ended. -/
theorem apart_of_ended {behind ended next : Cursor} {nodes : List Node}
    (hended : behind.Precedes ended)
    (hless : Begins ended → behind.position.offset < ended.position.offset)
    (hnext : ended.Precedes next)
    (hlater : Begins next → Begins ended ∨ ended.position.offset < next.position.offset)
    (hnodes : Filled source next after nodes) (hbegins : nodes ≠ [] → Begins next) :
    Apart source behind after nodes := by
  refine ⟨next, hended.trans hnext, fun hnonempty => ?_, hnodes⟩
  have hle := hended.offset_le
  have hge := hnext.offset_le
  cases hlater (hbegins hnonempty) with
  | inl hbegins => exact Nat.lt_of_lt_of_le (hless hbegins) hge
  | inr hskipped => exact Nat.lt_of_le_of_lt hle hskipped

/-- All that the readers do within a budget is placed in the source. -/
structure Tracked (source : String) (budget : Nat) : Prop where
  expression : ∀ {cursor}, cursor.In source →
    Keeps source (Found source .expr cursor) (expression budget cursor)
  chain : ∀ {start cursor value}, start.In source → Filled source start cursor [.expr value] →
    Keeps source (fun (result, after) => Filled source start after [.expr result])
      (chain budget start value cursor)
  primary : ∀ {cursor}, cursor.In source →
    Keeps source (Found source .expr cursor) (primary budget cursor)
  suffix : ∀ {cursor}, cursor.In source →
    Keeps source (fun (arguments, after) =>
      Filled source cursor after ((arguments.getD []).map .argument)) (suffix budget cursor)
  valueArguments : ∀ {cursor}, cursor.In source →
    Keeps source (fun (values, after) => ∃ stop, stop.Reads [')'] after ∧
      Filled source cursor stop (values.map .argument)) (valueArguments budget cursor)
  moreArguments : ∀ {cursor}, cursor.In source →
    Keeps source (fun (values, after) => Apart source cursor after (values.map .argument))
      (moreArguments budget cursor)
  argument : ∀ {cursor}, cursor.In source →
    Keeps source (Found source .argument cursor) (argument budget cursor)
  lambda : ∀ {cursor}, cursor.In source →
    Keeps source (Found source .argument cursor) (lambda budget cursor)
  blockBody : ∀ {cursor}, cursor.In source →
    Keeps source (fun (statements, after) =>
      Filled source cursor after (statements.map .statement) ∧
        (statements ≠ [] → Begins cursor)) (blockBody budget cursor)
  statement : ∀ {cursor}, cursor.In source →
    Keeps source (fun (result, after) => Filled source cursor after [.statement result])
      (statement budget cursor)

theorem zero_tracked : Tracked source 0 where
  expression := keeps_throw
  chain hstart hvalue := keeps_throw (hstart.later hvalue.precedes)
  primary := keeps_throw
  suffix := keeps_throw
  valueArguments := keeps_throw
  moreArguments := keeps_throw
  argument := keeps_throw
  lambda := keeps_throw
  blockBody := keeps_throw
  statement := keeps_throw

/-- A name with its arguments stands where its receiver, if any, and the arguments do. -/
theorem filled_member {receiver : Option Expr} {name : String}
    {arguments : Option (List Argument)} (hstart : start.In source)
    (h : Filled source start stop
      (receiver.toList.map .expr ++ (arguments.getD []).map .argument)) :
    Filled source start stop [.expr (member receiver name (start.spanTo stop) arguments)] := by
  cases arguments with
  | none => exact .single _ (by simpa [member, Node.children] using h) hstart rfl
  | some list => exact .single _ h hstart rfl

/-- A reading that must be there is placed, or its absence is reported where it should begin. -/
theorem keeps_required {α β : Type} {node : α → Node} {cause : Failure.Cause} {goal : β → Prop}
    {step : Except Failure (Option (Reading α))} {next : Reading α → Except Failure β}
    (hin : cursor.In source) (h : Keeps source (Found source node cursor) step)
    (hnext : ∀ value after, Filled source cursor after [node value] →
      Keeps source goal (next (value, after))) :
    Keeps source goal
      (do let found ← step; let reading ← require cause cursor found; next reading) :=
  h.bind fun _ hfound => (keeps_require hin hfound).bind fun _ => hnext _ _

theorem chain_tracked (h : Tracked source budget) {value : Expr} (hstart : start.In source)
    (hvalue : Filled source start cursor [.expr value]) :
    Keeps source (fun (result, after) => Filled source start after [.expr result])
      (chain (budget + 1) start value cursor) := by
  have hin : cursor.In source := hstart.later hvalue.precedes
  rw [chain]
  refine (keeps_charAfter hin).bind fun dot hdot => ?_
  split
  · exact hvalue
  rename_i afterDot
  obtain ⟨hdot, hless⟩ := hdot _ rfl
  refine (Spacing.keeps_skip (hin.later hdot)).bind fun word hword => ?_
  split
  · exact keeps_throw ((hin.later hdot).later hword)
  rename_i name afterName hname
  have hafterName := (Cursor.reads_of_name? hname).precedes
  have hbehind : cursor.Precedes afterName := hdot.trans (hword.trans hafterName)
  refine (h.suffix (hin.later hbehind)).bind ?_
  rintro ⟨arguments, behind⟩ harguments
  -- The dot stands between the receiver and the arguments.
  have hlater : cursor.position.offset < afterName.position.offset :=
    Nat.lt_of_lt_of_le hless (hword.trans hafterName).offset_le
  have hboth := hvalue.append ⟨afterName, hbehind, fun _ => hlater, harguments⟩
  exact h.chain hstart (filled_member hstart hboth)

theorem primary_tracked (h : Tracked source budget) (hin : cursor.In source) :
    Keeps source (Found source .expr cursor) (primary (budget + 1) cursor) := by
  rw [primary]
  refine (keeps_literalOrWord? hin).bind fun word hword => ?_
  split
  · exact hword
  dsimp only
  split
  · rename_i inside hopening
    have hinside := (Cursor.reads_of_char? hopening).precedes
    refine (Spacing.keeps_skip (hin.later hinside)).bind fun first hfirst => ?_
    have hbefore := hinside.trans hfirst
    refine keeps_required (hin.later hbefore) (h.expression (hin.later hbefore)) ?_
    intro value behind hvalue
    have hbehind := (hin.later hbefore).later hvalue.precedes
    refine (Spacing.keeps_skip hbehind).bind fun last hlast => ?_
    split
    · rename_i after hclosing
      exact hvalue.widen hbefore (hlast.trans (Cursor.reads_of_char? hclosing).precedes)
    · exact keeps_throw (hbehind.later hlast)
  · split
    · trivial
    rename_i name afterName hname
    have hafterName := (Cursor.reads_of_name? hname).precedes
    refine (h.suffix (hin.later hafterName)).bind ?_
    rintro ⟨arguments, after⟩ harguments
    exact filled_member hin (harguments.widen hafterName .refl)

theorem suffix_tracked (h : Tracked source budget) (hin : cursor.In source) :
    Keeps source (fun (arguments, after) =>
      Filled source cursor after ((arguments.getD []).map .argument))
      (suffix (budget + 1) cursor) := by
  rw [suffix]
  refine (Spacing.keeps_skip hin).bind fun opening hopening => ?_
  split
  · rename_i inside hparen
    have hinside := hopening.trans (Cursor.reads_of_char? hparen).precedes
    refine (h.valueArguments (hin.later hinside)).bind ?_
    rintro ⟨values, behind⟩ ⟨stop, hclosing, hvalues⟩
    have hlisted := hvalues.widen hinside .refl
    have hbehind := (hin.later hlisted.precedes).later hclosing.precedes
    refine (Spacing.keeps_skip hbehind).bind fun block hblock => ?_
    refine (h.lambda (hbehind.later hblock)).bind fun found hfound => ?_
    split
    · rename_i last after
      have hless : stop.position.offset < block.position.offset :=
        Nat.lt_of_lt_of_le (hclosing.offset_lt (by simp)) hblock.offset_le
      have hboth := hlisted.append
        ⟨block, hclosing.precedes.trans hblock, fun _ => hless, hfound⟩
      change Filled source cursor after ((values ++ [last]).map .argument)
      rw [List.map_append]
      exact hboth
    · exact hlisted.widen .refl hclosing.precedes
  · refine (h.lambda (hin.later hopening)).bind fun found hfound => ?_
    split
    · exact Filled.widen hfound hopening .refl
    · exact .empty .refl

theorem keeps_closeArguments {values : List Argument} (hin : start.In source)
    (hvalues : Filled source start cursor (values.map .argument)) :
    Keeps source (fun (listed, after) => ∃ stop, stop.Reads [')'] after ∧
      Filled source start stop (listed.map .argument)) (do
        let after := (← charAfter .multiline ',' cursor).getD cursor
        let after ← Spacing.multiline.skip after
        match after.char? ')' with
        | some after => return (values, after)
        | none => throw (Failure.ofCursor .unclosedArguments after)) := by
  have hcursor := hin.later hvalues.precedes
  refine (keeps_charAfter hcursor).bind fun separator hseparator => ?_
  have hcomma : cursor.Precedes (separator.getD cursor) := by
    cases separator with
    | none => exact .refl
    | some after => exact (hseparator after rfl).1
  refine (Spacing.keeps_skip (hcursor.later hcomma)).bind fun stop hstop => ?_
  split
  · rename_i after hclosing
    exact ⟨stop, Cursor.reads_of_char? hclosing, hvalues.widen .refl (hcomma.trans hstop)⟩
  · exact keeps_throw ((hcursor.later hcomma).later hstop)

theorem valueArguments_tracked (h : Tracked source budget) (hin : cursor.In source) :
    Keeps source (fun (values, after) => ∃ stop, stop.Reads [')'] after ∧
      Filled source cursor stop (values.map .argument))
      (valueArguments (budget + 1) cursor) := by
  rw [valueArguments]
  refine (Spacing.keeps_skip hin).bind fun first hfirst => ?_
  refine (h.argument (hin.later hfirst)).bind fun found hfound => ?_
  split
  · exact keeps_closeArguments hin (.empty .refl)
  · rename_i value next
    have hvalue : Filled source cursor next [.argument value] := Filled.widen hfound hfirst .refl
    refine (h.moreArguments (hin.later hvalue.precedes)).bind ?_
    rintro ⟨others, behind⟩ hothers
    have hvalues : Filled source cursor behind ((value :: others).map .argument) :=
      hvalue.append hothers
    exact keeps_closeArguments hin hvalues

theorem moreArguments_tracked (h : Tracked source budget) (hin : cursor.In source) :
    Keeps source (fun (values, after) => Apart source cursor after (values.map .argument))
      (moreArguments (budget + 1) cursor) := by
  have hnone : Apart source cursor cursor [] := ⟨cursor, .refl, nofun, .empty .refl⟩
  rw [moreArguments]
  refine (keeps_charAfter hin).bind fun comma hcomma => ?_
  split
  · exact hnone
  rename_i afterComma
  obtain ⟨hcomma, hless⟩ := hcomma _ rfl
  refine (Spacing.keeps_skip (hin.later hcomma)).bind fun first hfirst => ?_
  have hbefore := hcomma.trans hfirst
  refine (h.argument (hin.later hbefore)).bind fun found hfound => ?_
  split
  · exact hnone
  rename_i value next
  have hvalue : Filled source first next [.argument value] := hfound
  refine (h.moreArguments ((hin.later hbefore).later hvalue.precedes)).bind ?_
  rintro ⟨others, behind⟩ hothers
  have hlater : cursor.position.offset < first.position.offset :=
    Nat.lt_of_lt_of_le hless hfirst.offset_le
  exact ⟨first, hbefore, fun _ => hlater, hvalue.append hothers⟩

theorem positional_tracked (h : Tracked source budget) (hin : cursor.In source) :
    Keeps source (Found source .argument cursor) (do
      match ← expression budget cursor with
      | none => return none
      | some (value, after) =>
        return some (.positional value (cursor.spanTo after), after)) := by
  refine (h.expression hin).bind fun found hfound => ?_
  split
  · trivial
  · exact Filled.single (.argument (.positional _ _)) hfound hin rfl

theorem argument_tracked (h : Tracked source budget) (hin : cursor.In source) :
    Keeps source (Found source .argument cursor) (argument (budget + 1) cursor) := by
  rw [argument]
  split
  · rename_i name afterName hname
    have hafterName := (Cursor.reads_of_name? hname).precedes
    refine (Spacing.keeps_skip (hin.later hafterName)).bind fun sign hsign => ?_
    split
    · rename_i afterSign hassigned
      have hafterSign := (Cursor.reads_of_assignmentSign? hassigned).1.precedes
      have hbehind := hafterName.trans (hsign.trans hafterSign)
      refine (Spacing.keeps_skip (hin.later hbehind)).bind fun inside hinside => ?_
      have hbefore := hbehind.trans hinside
      refine keeps_required (hin.later hbefore) (h.expression (hin.later hbefore)) ?_
      intro value after hvalue
      exact Filled.single (.argument (.named _ _ _)) (hvalue.widen hbefore .refl) hin rfl
    · exact positional_tracked h hin
  · exact positional_tracked h hin

theorem lambda_tracked (h : Tracked source budget) (hin : cursor.In source) :
    Keeps source (Found source .argument cursor) (lambda (budget + 1) cursor) := by
  rw [lambda]
  split
  · trivial
  rename_i inside hopening
  have hinside := (Cursor.reads_of_char? hopening).precedes
  refine (Spacing.keeps_skip (hin.later hinside)).bind fun first hfirst => ?_
  have hbefore := hinside.trans hfirst
  refine (h.blockBody (hin.later hbefore)).bind ?_
  rintro ⟨statements, after⟩ ⟨hstatements, -⟩
  have hblock : Filled source cursor after [.block (.mk statements (cursor.spanTo after))] :=
    .single _ (hstatements.widen hbefore .refl) hin rfl
  exact Filled.single (.argument (.lambda _ _)) hblock hin rfl

theorem blockBody_tracked (h : Tracked source budget) (hin : cursor.In source) :
    Keeps source (fun (statements, after) =>
      Filled source cursor after (statements.map .statement) ∧
        (statements ≠ [] → Begins cursor)) (blockBody (budget + 1) cursor) := by
  rw [blockBody]
  split
  · rename_i after hclosing
    exact ⟨.empty (Cursor.reads_of_char? hclosing).precedes, by simp⟩
  rename_i hopen
  dsimp only
  split
  · exact keeps_throw hin
  rename_i hmore
  refine (h.statement hin).bind ?_
  rintro ⟨first, behind⟩ hfirst
  have hbehind := hin.later hfirst.precedes
  refine (keeps_statementEnd hbehind).bind ?_
  rintro ended ⟨hended, hless⟩
  refine (keeps_skip_begins (hbehind.later hended)).bind ?_
  rintro next ⟨hnext, hlater⟩
  refine (h.blockBody ((hbehind.later hended).later hnext)).bind ?_
  rintro ⟨others, after⟩ ⟨hothers, hbegins⟩
  have hapart := apart_of_ended hended hless hnext hlater hothers (by simpa using hbegins)
  refine ⟨hfirst.append hapart, fun _ => ⟨by simpa using hmore, fun hbrace => ?_⟩⟩
  obtain ⟨_ | ⟨c, rest⟩, position⟩ := cursor
  · cases hbrace
  · obtain rfl : c = '\x7d' := by simpa using hbrace
    exact hopen _ Cursor.char?_self

theorem statement_tracked (h : Tracked source budget) (hin : cursor.In source) :
    Keeps source (fun (result, after) => Filled source cursor after [.statement result])
      (statement (budget + 1) cursor) := by
  rw [statement]
  split
  · rename_i afterWord hword
    have hafterWord := (Cursor.reads_of_keyword? hword).1.precedes
    refine (Spacing.keeps_skip (hin.later hafterWord)).bind fun word hstart => ?_
    have hbefore := hafterWord.trans hstart
    split
    · exact keeps_throw (hin.later hbefore)
    rename_i name afterName hname
    have hafterName := hbefore.trans (Cursor.reads_of_name? hname).precedes
    refine (Spacing.keeps_skip (hin.later hafterName)).bind fun sign hsign => ?_
    split
    · exact keeps_throw ((hin.later hafterName).later hsign)
    rename_i afterSign hequals
    have hafterSign := hafterName.trans (hsign.trans (Cursor.reads_of_char? hequals).precedes)
    refine (Spacing.keeps_skip (hin.later hafterSign)).bind fun inside hinside => ?_
    have hvalueIn := hin.later (hafterSign.trans hinside)
    refine keeps_required hvalueIn (h.expression hvalueIn) ?_
    intro value after hvalue
    exact Filled.single (.statement (.localValue _ _ _))
      (hvalue.widen (hafterSign.trans hinside) .refl) hin rfl
  dsimp only
  split
  · exact keeps_throw hin
  refine keeps_required hin (h.expression hin) ?_
  intro target behind htarget
  have hbehind := hin.later htarget.precedes
  refine (Spacing.keeps_skip hbehind).bind fun sign hsign => ?_
  split
  · exact htarget.exprStatement
  rename_i afterSign hassigned
  have hequals := (Cursor.reads_of_assignmentSign? hassigned).1
  cases target with
  | property receiver name span =>
    have hafterSign := hsign.trans hequals.precedes
    refine (Spacing.keeps_skip (hbehind.later hafterSign)).bind fun inside hinside => ?_
    have hbetween := hafterSign.trans hinside
    refine keeps_required (hbehind.later hbetween) (h.expression (hbehind.later hbetween)) ?_
    intro value after hvalue
    have hless : behind.position.offset < inside.position.offset :=
      Nat.lt_of_le_of_lt hsign.offset_le
        (Nat.lt_of_lt_of_le (hequals.offset_lt (by simp)) hinside.offset_le)
    have hboth := htarget.append ⟨inside, hbetween, fun _ => hless, hvalue⟩
    exact Filled.single (.statement (.assignment _ _ _ _ _)) hboth hin rfl
  | _ => exact keeps_throw hin

theorem succ_tracked (h : Tracked source budget) : Tracked source (budget + 1) where
  expression hin := by
    rw [Parser.expression]
    refine (h.primary hin).bind fun found hfound => ?_
    split
    · trivial
    · exact (h.chain hin hfound).bind fun _ hresult => hresult
  chain := chain_tracked h
  primary := primary_tracked h
  suffix := suffix_tracked h
  valueArguments := valueArguments_tracked h
  moreArguments := moreArguments_tracked h
  argument := argument_tracked h
  lambda := lambda_tracked h
  blockBody := blockBody_tracked h
  statement := statement_tracked h

theorem tracked (source : String) (budget : Nat) : Tracked source budget := by
  induction budget with
  | zero => exact zero_tracked
  | succ budget ih => exact succ_tracked ih

end Parser

end ConfigScript
