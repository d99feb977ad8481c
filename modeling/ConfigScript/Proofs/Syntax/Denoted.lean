import ConfigScript.Proofs.Syntax.Joined
import ConfigScript.Proofs.Syntax.Placed

/-!
# Spans denote their nodes

The text that the span of a node covers is read on its own as that node, up to spans: an expression
as an expression, and a statement, however deep it stands, as a script of one statement. The span of
an expression in parentheses is that of what stands inside them.
-/

namespace ConfigScript

open ConfigScript.Parser

/-- The text of a source that a span covers. -/
def Span.textIn (source : String) (span : Span) : String :=
  String.Pos.Raw.extract source ⟨span.start⟩ ⟨span.stop⟩

/-- What the text of a node is read as on its own. -/
def Node.Denoted (source : String) : Node → Prop
  | .expr value => ∃ found, Expr.parse (value.span.textIn source) = .ok found ∧
      found.eraseSpans = value.eraseSpans
  | .statement result => ∀ label, ∃ found span,
      Block.parse label (result.span.textIn source) = .ok (.mk [found] span) ∧
        found.eraseSpans = result.eraseSpans
  | .argument _ => True
  | .block _ => True

/-- A node that was read from the text at its span, and is read from it again elsewhere. -/
def Node.Readable (source : String) : Node → Prop
  | .expr value => ∃ (start : Cursor) (text : List Char) (stop : Cursor),
      start.In source ∧ start.Reads text stop ∧ value.span = start.spanTo stop ∧
        Leading text ∧ RereadsExpr value start.position text
  | .statement result => ∃ (start : Cursor) (text : List Char) (stop : Cursor),
      start.In source ∧ start.Reads text stop ∧ result.span = start.spanTo stop ∧
        Fronts text ∧ RereadsTop result start.position text
  | .argument _ => True
  | .block _ => True

section Texts

variable {source : String} {start stop : Cursor} {text : List Char}

theorem textIn_spanTo (hin : start.In source) (hreads : start.Reads text stop) :
    (start.spanTo stop).textIn source = .ofList text := by
  obtain ⟨before, hbefore⟩ := hin
  have hsource : source = .ofList (before ++ text ++ stop.rest) := by
    rw [← String.ofList_toList (s := source)]
    exact congrArg String.ofList (hbefore.trans hreads).rest
  have hstart : start.position.offset = String.utf8Len before := by
    rw [hbefore.position, Position.offset_afterAll, String.utf8ByteSize_ofList]
    exact Nat.zero_add _
  have hstop : stop.position.offset = String.utf8Len before + String.utf8Len text := by
    rw [hreads.position, Position.offset_afterAll, String.utf8ByteSize_ofList, hstart]
  rw [Span.textIn, hsource]
  simp only [Cursor.spanTo, hstart, hstop]
  exact String.extract_of_valid before text stop.rest

theorem endsExpression_nil : EndsExpression [] :=
  LineEnd.source.endsExpression

theorem endsStatement_nil : EndsStatement [] where
  toEndsExpression := endsExpression_nil
  unassigned := LineEnd.source.unassigned

theorem parse_of_rereads {value : Expr} {place : Position} (hleading : Leading text)
    (h : RereadsExpr value place text) :
    Expr.parse (.ofList text) = .ok (value.mapSpans (Span.rebase place)) := by
  have hsource : Cursor.ofSource (.ofList text) = ⟨text, .origin⟩ := by
    rw [Cursor.ofSource, String.toList_ofList]
  have hread := h (Parser.budget ⟨text, .origin⟩) [] (carries_rebase place) endsExpression_nil
    (by simp only [Parser.budget]; omega)
  rw [List.append_nil] at hread
  rw [Expr.parse, Expr.parse.read, hsource, hleading.solid.skip]
  simp [bind, Except.bind, hread, require, Spacing.skip_nil, pure, Except.pure, Except.mapError]

theorem parse_of_rereadsTop {label : String} {result : Statement} {place : Position}
    (hfronts : Fronts text) (h : RereadsTop result place text) :
    ∃ span, Block.parse label (.ofList text) =
      .ok (.mk [result.mapSpans (Span.rebase place)] span) := by
  have hread := h [] (carries_rebase place) endsStatement_nil statementEnd_nil
  have hskip : Spacing.separators.skip ⟨text, .origin⟩ = .ok ⟨text, .origin⟩ := hfronts.solid.skip
  obtain ⟨budget, hbudget⟩ :=
    Nat.exists_eq_add_of_le' (List.length_pos_of_ne_nil hfronts.solid.ne_nil)
  rw [List.append_nil] at hread
  have hwhole : statementsFrom ((String.ofList text).toList.length + 1) false
      (.ofSource (.ofList text)) = ⟨[result.mapSpans (Span.rebase place)], [],
        ⟨[], Position.origin.afterAll text⟩⟩ := by
    rw [Cursor.ofSource, String.toList_ofList, hbudget,
      statementsFrom_of_cons hskip hfronts.solid.ne_nil hread (by simp), statementsFrom_nil]
    rfl
  refine ⟨(Cursor.ofSource (.ofList text)).spanTo ⟨[], Position.origin.afterAll text⟩,
    Block.parse_eq_ok.mpr ⟨?_, ?_⟩⟩
  · rw [hwhole]
  · rw [hwhole]

theorem denoted_of_readable {node : Node} (h : node.Readable source) : node.Denoted source := by
  cases node with
  | expr value =>
    obtain ⟨start, text, stop, hin, hreads, hspan, hleading, hreread⟩ := h
    refine ⟨value.mapSpans (Span.rebase start.position), ?_, value.eraseSpans_mapSpans⟩
    rw [hspan, textIn_spanTo hin hreads]
    exact parse_of_rereads hleading hreread
  | statement result =>
    obtain ⟨start, text, stop, hin, hreads, hspan, hfronts, hreread⟩ := h
    intro label
    rw [hspan, textIn_spanTo hin hreads]
    obtain ⟨span, hparse⟩ := parse_of_rereadsTop hfronts hreread
    exact ⟨_, span, hparse, result.eraseSpans_mapSpans⟩
  | argument => trivial
  | block => trivial

end Texts

namespace Parser

variable {source : String} {budget : Nat} {cursor start after behind : Cursor} {text : List Char}

theorem in_of_skip {spacing : Spacing} (hin : cursor.In source)
    (h : spacing.skip cursor = .ok after) : after.In source := by
  obtain ⟨gap, hreads, -⟩ := Spacing.reads_of_skip h
  exact hin.later hreads.precedes

theorem in_of_char? {c : Char} (hin : cursor.In source) (h : cursor.char? c = some after) :
    after.In source :=
  hin.later (Cursor.reads_of_char? h).precedes

theorem in_of_name? {name : String} (hin : cursor.In source)
    (h : cursor.name? = some (name, after)) : after.In source :=
  hin.later (Cursor.reads_of_name? h).precedes

theorem in_of_charAfter {spacing : Spacing} {c : Char} (hin : cursor.In source)
    (h : charAfter spacing c cursor = .ok (some after)) : after.In source := by
  obtain ⟨next, hnext, hchar⟩ := Fallible.bind_eq_ok.mp h
  exact in_of_char? (in_of_skip hin hnext) (Except.ok.inj hchar)

/-- All that the readers yield within a budget is readable, down to the last node. -/
structure Denotes (source : String) (budget : Nat) : Prop where
  expression : ∀ {cursor value after}, cursor.In source →
    expression budget cursor = .ok (some (value, after)) →
      (Node.expr value).Everywhere (Node.Readable source)
  chain : ∀ {start cursor value result after first}, start.In source →
    chain budget start value cursor = .ok (result, after) → start.Reads first cursor →
      Leading first → Spined value start.position first →
        (Node.expr value).Everywhere (Node.Readable source) →
          (Node.expr result).Everywhere (Node.Readable source)
  primary : ∀ {cursor value after}, cursor.In source →
    primary budget cursor = .ok (some (value, after)) →
      (Node.expr value).Everywhere (Node.Readable source)
  suffix : ∀ {cursor arguments after}, cursor.In source →
    suffix budget cursor = .ok (arguments, after) → ∀ argument ∈ arguments.getD [],
      (Node.argument argument).Everywhere (Node.Readable source)
  valueArguments : ∀ {cursor values after}, cursor.In source →
    valueArguments budget cursor = .ok (values, after) → ∀ argument ∈ values,
      (Node.argument argument).Everywhere (Node.Readable source)
  moreArguments : ∀ {cursor values after}, cursor.In source →
    moreArguments budget cursor = .ok (values, after) → ∀ argument ∈ values,
      (Node.argument argument).Everywhere (Node.Readable source)
  argument : ∀ {cursor value after}, cursor.In source →
    argument budget cursor = .ok (some (value, after)) →
      (Node.argument value).Everywhere (Node.Readable source)
  lambda : ∀ {cursor value after}, cursor.In source →
    lambda budget cursor = .ok (some (value, after)) →
      (Node.argument value).Everywhere (Node.Readable source)
  blockBody : ∀ {cursor statements after}, cursor.In source →
    blockBody budget cursor = .ok (statements, after) → ∀ statement ∈ statements,
      (Node.statement statement).Everywhere (Node.Readable source)
  statement : ∀ {cursor result after}, cursor.In source →
    statement budget cursor = .ok (result, after) →
      (Node.statement result).Everywhere (Node.Readable source)

theorem zero_denotes : Denotes source 0 where
  expression _ h := by simp [Parser.expression] at h
  chain _ h := by simp [Parser.chain] at h
  primary _ h := by simp [Parser.primary] at h
  suffix _ h := by simp [Parser.suffix] at h
  valueArguments _ h := by simp [Parser.valueArguments] at h
  moreArguments _ h := by simp [Parser.moreArguments] at h
  argument _ h := by simp [Parser.argument] at h
  lambda _ h := by simp [Parser.lambda] at h
  blockBody _ h := by simp [Parser.blockBody] at h
  statement _ h := by simp [Parser.statement] at h

/-- A name with its arguments is readable when the receiver and the arguments are. -/
theorem everywhere_member {receiver : Option Expr} {name : String} {span : Span}
    {arguments : Option (List Argument)}
    (hhere : (Node.expr (member receiver name span arguments)).Readable source)
    (hreceiver : ∀ value ∈ receiver, (Node.expr value).Everywhere (Node.Readable source))
    (harguments : ∀ argument ∈ arguments.getD [],
      (Node.argument argument).Everywhere (Node.Readable source)) :
    (Node.expr (member receiver name span arguments)).Everywhere (Node.Readable source) := by
  refine Node.everywhere_iff.mpr ⟨hhere, fun child hchild => ?_⟩
  cases arguments with
  | none =>
    obtain ⟨value, hvalue, rfl⟩ := List.mem_map.mp hchild
    exact hreceiver value (Option.mem_toList.mp hvalue)
  | some list =>
    rcases List.mem_append.mp hchild with hchild | hchild
    · obtain ⟨value, hvalue, rfl⟩ := List.mem_map.mp hchild
      exact hreceiver value (Option.mem_toList.mp hvalue)
    · obtain ⟨argument, hargument, rfl⟩ := List.mem_map.mp hchild
      exact harguments argument hargument

theorem span_member {receiver : Option Expr} {name : String} {span : Span}
    {arguments : Option (List Argument)} : (member receiver name span arguments).span = span := by
  cases arguments <;> rfl

theorem chain_denotes (h : Denotes source budget) {value result : Expr} {first : List Char}
    (hin : start.In source) (hchain : chain (budget + 1) start value cursor = .ok (result, after))
    (hfirst : start.Reads first cursor) (hleading : Leading first)
    (hspined : Spined value start.position first)
    (hvalue : (Node.expr value).Everywhere (Node.Readable source)) :
    (Node.expr result).Everywhere (Node.Readable source) := by
  rcases chain_cases hchain with ⟨-, rfl, -⟩ |
    ⟨afterDot, word, name, afterName, arguments, behind, hdot, hword, hname, hsuffix, hrest⟩
  · exact hvalue
  · obtain ⟨text, hreads, hfront, hmember⟩ :=
      spined_of_member (relocates budget) hfirst hleading hspined hdot hword hname hsuffix
    have hafterName : afterName.In source :=
      in_of_name? (in_of_skip (in_of_charAfter (hin.later hfirst.precedes) hdot) hword) hname
    have hhere : (Node.expr (member (some value) name (start.spanTo behind) arguments)).Readable
        source :=
      ⟨start, text, behind, hin, hreads, span_member, hfront, hmember.rereads hfront.ne_nil⟩
    refine h.chain hin hrest hreads hfront hmember (everywhere_member hhere ?_ ?_)
    · rintro _ ⟨⟩
      exact hvalue
    · exact h.suffix hafterName hsuffix

/-- A primary expression that reaches from its cursor to where reading ended is readable there. -/
theorem readable_of_primary {value : Expr} (hin : cursor.In source)
    (h : primary budget cursor = .ok (some (value, after)))
    (hspan : value.span = cursor.spanTo after) : (Node.expr value).Readable source := by
  obtain ⟨text, hreads, hleading, hspined⟩ := (relocates budget).primary h
  exact ⟨cursor, text, after, hin, hreads, hspan, hleading, hspined.rereads hleading.ne_nil⟩

theorem primary_denotes (h : Denotes source budget) {value : Expr} (hin : cursor.In source)
    (hprimary : primary (budget + 1) cursor = .ok (some (value, after))) :
    (Node.expr value).Everywhere (Node.Readable source) := by
  rcases primary_cases hprimary with hword |
    ⟨inside, first, behind, last, hopening, hfirst, hvalue, -, -⟩ |
    ⟨name, afterName, arguments, hname, hsuffix, rfl⟩
  · have hleaf : value.span = cursor.spanTo after ∧ (Node.expr value).children = [] := by
      rcases literalOrWord?_cases hword with ⟨literal, rfl, -⟩ | ⟨-, rfl⟩ | ⟨-, rfl⟩
      all_goals exact ⟨rfl, rfl⟩
    refine Node.everywhere_iff.mpr ⟨readable_of_primary hin hprimary hleaf.1, ?_⟩
    rw [hleaf.2]
    exact nofun
  · exact h.expression (in_of_skip (in_of_char? hin hopening) hfirst) hvalue
  · exact everywhere_member (readable_of_primary hin hprimary span_member) nofun
      (h.suffix (in_of_name? hin hname) hsuffix)

theorem suffix_denotes (h : Denotes source budget) {arguments : Option (List Argument)}
    (hin : cursor.In source) (hsuffix : suffix (budget + 1) cursor = .ok (arguments, after)) :
    ∀ argument ∈ arguments.getD [],
      (Node.argument argument).Everywhere (Node.Readable source) := by
  obtain ⟨opening, hopening, hcases⟩ := suffix_cases hsuffix
  have hopeningIn := in_of_skip hin hopening
  rcases hcases with ⟨inside, values, behind, block, hparen, hvalues, hblock, hlast⟩ | ⟨-, hlast⟩
  · have hinside := in_of_char? hopeningIn hparen
    have hlisted := h.valueArguments hinside hvalues
    obtain ⟨list, hlist, -⟩ := (relocates budget).valueArguments hvalues
    rcases hlast with ⟨-, rfl, -⟩ | ⟨last, hlambda, rfl⟩
    · exact hlisted
    · have hlastIn := in_of_skip (hinside.later hlist.precedes) hblock
      intro argument hargument
      rcases List.mem_append.mp hargument with hargument | hargument
      · exact hlisted argument hargument
      · obtain rfl := List.mem_singleton.mp hargument
        exact h.lambda hlastIn hlambda
  · rcases hlast with ⟨-, rfl, -⟩ | ⟨last, hlambda, rfl⟩
    · exact nofun
    · intro argument hargument
      obtain rfl := List.mem_singleton.mp hargument
      exact h.lambda hopeningIn hlambda

theorem valueArguments_denotes (h : Denotes source budget) {values : List Argument}
    (hin : cursor.In source)
    (hvalues : valueArguments (budget + 1) cursor = .ok (values, after)) :
    ∀ argument ∈ values, (Node.argument argument).Everywhere (Node.Readable source) := by
  obtain ⟨first, behind, separator, last, hfirst, hlisted, -⟩ := valueArguments_cases hvalues
  have hfirstIn := in_of_skip hin hfirst
  rcases hlisted with ⟨-, rfl, -⟩ | ⟨value, others, next, hvalue, hothers, rfl⟩
  · exact nofun
  · obtain ⟨text, hreads, -⟩ := (relocates budget).argument hvalue
    exact List.forall_mem_cons.mpr ⟨h.argument hfirstIn hvalue,
      h.moreArguments (hfirstIn.later hreads.precedes) hothers⟩

theorem moreArguments_denotes (h : Denotes source budget) {values : List Argument}
    (hin : cursor.In source)
    (hvalues : moreArguments (budget + 1) cursor = .ok (values, after)) :
    ∀ argument ∈ values, (Node.argument argument).Everywhere (Node.Readable source) := by
  rcases moreArguments_cases hvalues with ⟨rfl, -⟩ |
    ⟨afterComma, first, value, others, next, hcomma, hfirst, hvalue, hothers, rfl⟩
  · exact nofun
  · have hfirstIn := in_of_skip (in_of_charAfter hin hcomma) hfirst
    obtain ⟨text, hreads, -⟩ := (relocates budget).argument hvalue
    exact List.forall_mem_cons.mpr ⟨h.argument hfirstIn hvalue,
      h.moreArguments (hfirstIn.later hreads.precedes) hothers⟩

/-- A tree with one branch below its root is readable when the root and the branch are. -/
theorem everywhere_single {node child : Node} (hhere : node.Readable source)
    (hchildren : node.children = [child]) (h : child.Everywhere (Node.Readable source)) :
    node.Everywhere (Node.Readable source) := by
  refine Node.everywhere_iff.mpr ⟨hhere, ?_⟩
  rw [hchildren]
  exact List.forall_mem_singleton.mpr h

theorem argument_denotes (h : Denotes source budget) {value : Argument} (hin : cursor.In source)
    (hargument : argument (budget + 1) cursor = .ok (some (value, after))) :
    (Node.argument value).Everywhere (Node.Readable source) := by
  rcases argument_cases hargument with
    ⟨name, afterName, sign, afterSign, inside, value, hname, hsign, hassigned, hinside, hvalue,
      rfl⟩ | ⟨value, hvalue, rfl⟩
  · have hsignIn := in_of_skip (in_of_name? hin hname) hsign
    have hequals := (Cursor.reads_of_assignmentSign? hassigned).1
    have hinsideIn := in_of_skip (hsignIn.later hequals.precedes) hinside
    exact everywhere_single trivial rfl (h.expression hinsideIn hvalue)
  · exact everywhere_single trivial rfl (h.expression hin hvalue)

theorem lambda_denotes (h : Denotes source budget) {value : Argument} (hin : cursor.In source)
    (hlambda : lambda (budget + 1) cursor = .ok (some (value, after))) :
    (Node.argument value).Everywhere (Node.Readable source) := by
  obtain ⟨inside, first, statements, hopening, hfirst, hbody, rfl⟩ := lambda_cases hlambda
  have hbodyIn := in_of_skip (in_of_char? hin hopening) hfirst
  refine everywhere_single trivial rfl (Node.everywhere_iff.mpr ⟨trivial, fun child hchild => ?_⟩)
  obtain ⟨statement, hmem, rfl⟩ := List.mem_map.mp hchild
  exact h.blockBody hbodyIn hbody statement hmem

theorem blockBody_denotes (h : Denotes source budget) {statements : List Statement}
    (hin : cursor.In source) (hbody : blockBody (budget + 1) cursor = .ok (statements, after)) :
    ∀ statement ∈ statements, (Node.statement statement).Everywhere (Node.Readable source) := by
  rcases blockBody_cases hbody with ⟨-, rfl⟩ |
    ⟨first, others, behind, ended, next, -, hfirst, hended, hnext, hothers, rfl⟩
  · exact nofun
  · obtain ⟨text, hreads, -⟩ := (relocates budget).statement hfirst
    obtain ⟨ending, hending, -⟩ := ending_of_statementEnd hended
    have hnextIn := in_of_skip (hin.later (hreads.trans hending).precedes) hnext
    exact List.forall_mem_cons.mpr ⟨h.statement hin hfirst, h.blockBody hnextIn hothers⟩

theorem statement_denotes (h : Denotes source budget) {result : Statement} (hin : cursor.In source)
    (hstatement : statement (budget + 1) cursor = .ok (result, after)) :
    (Node.statement result).Everywhere (Node.Readable source) := by
  obtain ⟨whole, hwhole, hfronts, himport, hreread⟩ := (relocates _).statement hstatement
  have htop := rereadsTop_of_statement himport hreread
  rcases statement_cases hstatement with
    ⟨afterWord, first, name, afterName, sign, afterSign, inside, value, hword, hfirst, hname, hsign,
      hequals, hinside, hvalue, rfl⟩ |
    ⟨value, behind, sign, -, -, hvalue, hsign, hresult⟩
  · have hafterWord := hin.later (Cursor.reads_of_keyword? hword).1.precedes
    have hsignIn := in_of_skip (in_of_name? (in_of_skip hafterWord hfirst) hname) hsign
    have hinsideIn := in_of_skip (in_of_char? hsignIn hequals) hinside
    exact everywhere_single ⟨cursor, whole, after, hin, hwhole, rfl, hfronts, htop⟩ rfl
      (h.expression hinsideIn hvalue)
  · have heverywhere := h.expression hin hvalue
    rcases hresult with ⟨-, rfl, rfl⟩ |
      ⟨receiver, name, span, afterSign, inside, assigned, rfl, hassigned, hinside, hassignedValue,
        rfl⟩
    · -- The statement stands where the expression does, inside any parentheses around it.
      obtain ⟨start, text, stop, hstart, hreads, hspan, hleading, hagain⟩ := heverywhere.here
      have htop := rereadsTop_of_statement
        (fun rest position hrest => hleading.keyword?_eq_none hrest (by decide))
        (rereadsStatement_of_expr hleading hagain)
      exact everywhere_single ⟨start, text, stop, hstart, hreads, hspan, hleading.fronts, htop⟩ rfl
        heverywhere
    · obtain ⟨text, hreads, -⟩ := (relocates budget).expression hvalue
      have hequals := (Cursor.reads_of_assignmentSign? hassigned).1
      have hsignIn := in_of_skip (hin.later hreads.precedes) hsign
      have hinsideIn := in_of_skip (hsignIn.later hequals.precedes) hinside
      refine Node.everywhere_iff.mpr
        ⟨⟨cursor, whole, after, hin, hwhole, rfl, hfronts, htop⟩, ?_⟩
      exact List.forall_mem_cons.mpr ⟨heverywhere,
        List.forall_mem_singleton.mpr (h.expression hinsideIn hassignedValue)⟩

theorem succ_denotes (h : Denotes source budget) : Denotes source (budget + 1) where
  expression hin hexpression := by
    obtain ⟨first, behind, hfirst, hchain⟩ := expression_cases hexpression
    obtain ⟨text, hreads, hleading, hspined⟩ := (relocates budget).primary hfirst
    exact h.chain hin hchain hreads hleading hspined (h.primary hin hfirst)
  chain := chain_denotes h
  primary := primary_denotes h
  suffix := suffix_denotes h
  valueArguments := valueArguments_denotes h
  moreArguments := moreArguments_denotes h
  argument := argument_denotes h
  lambda := lambda_denotes h
  blockBody := blockBody_denotes h
  statement := statement_denotes h

theorem denotes (source : String) (budget : Nat) : Denotes source budget := by
  induction budget with
  | zero => exact zero_denotes
  | succ budget ih => exact succ_denotes ih

theorem topLevelStatement_denotes {result : Statement} (hin : cursor.In source)
    (h : topLevelStatement cursor = .ok (result, after)) :
    (Node.statement result).Everywhere (Node.Readable source) := by
  obtain ⟨behind, hread | ⟨-, hread⟩, -⟩ := topLevelStatement_cases h
  · obtain ⟨text, hreads, hfronts, hagain⟩ := importStatement_again hread
    obtain ⟨afterWord, first, parts, -, -, -, rfl⟩ := importStatement_cases hread
    exact Node.everywhere_iff.mpr
      ⟨⟨cursor, text, behind, hin, hreads, rfl, hfronts, hagain⟩, nofun⟩
  · exact (denotes source _).statement hin hread

theorem statementsFrom_denotes {started : Bool} (hin : cursor.In source)
    (h : (statementsFrom budget started cursor).failures = []) :
    ∀ statement ∈ (statementsFrom budget started cursor).statements,
      (Node.statement statement).Everywhere (Node.Readable source) := by
  induction budget generalizing started cursor with
  | zero => cases h
  | succ budget ih =>
    obtain ⟨first, hfirst, ⟨-, hnil⟩ |
      ⟨result, after, -, hresult, -, hlater, hcons⟩⟩ := statementsFrom_cases h
    · rw [hnil]
      exact nofun
    · have hfirstIn := in_of_skip hin hfirst
      obtain ⟨text, behind, hreads, -, -, hended⟩ := topLevelStatement_again hresult
      obtain ⟨ending, hending, -⟩ := ending_of_statementEnd hended
      rw [hcons]
      exact List.forall_mem_cons.mpr ⟨topLevelStatement_denotes hfirstIn hresult,
        ih (hfirstIn.later (hreads.trans hending).precedes) hlater⟩

end Parser

theorem readable_of_parse {label source : String} {block : Block}
    (h : Block.parse label source = .ok block) :
    (Node.block block).Everywhere (Node.Readable source) := by
  obtain ⟨hnone, rfl⟩ := Block.parse_eq_ok.mp h
  refine Node.everywhere_iff.mpr ⟨trivial, fun child hchild => ?_⟩
  obtain ⟨statement, hmem, rfl⟩ := List.mem_map.mp hchild
  exact statementsFrom_denotes Cursor.in_ofSource hnone statement hmem

/-- The text at the span of every node of a script is read on its own as that node: an expression
as an expression, a statement as a script of its own. -/
theorem denoted_of_parse {label source : String} {block : Block}
    (h : Block.parse label source = .ok block) :
    (Node.block block).Everywhere (Node.Denoted source) :=
  fun node hnode => denoted_of_readable (readable_of_parse h node hnode)

/-- A script with parentheses around an expression and around the receiver of a chain. -/
def parenthesizedScript : String :=
  "((größe)); (disks /* all */)\n  .each(-1,) \x7b val a = (b)\n run \x7b (c) \x7d \x7d // on"

theorem denoted_of_parse_parenthesized :
    ∃ block, Block.parse "script" parenthesizedScript = .ok block ∧
      block.statements.map (fun statement => statement.span.textIn parenthesizedScript) =
        ["größe", "(disks /* all */)\n  .each(-1,) \x7b val a = (b)\n run \x7b (c) \x7d \x7d"] ∧
      (Node.block block).Everywhere (Node.Denoted parenthesizedScript) := by
  have hread : (Block.parse "script" parenthesizedScript).toOption.map (fun block =>
      block.statements.map fun statement => statement.span.textIn parenthesizedScript) =
        some ["größe",
          "(disks /* all */)\n  .each(-1,) \x7b val a = (b)\n run \x7b (c) \x7d \x7d"] := by
    decide +kernel
  obtain ⟨block, hblock, htexts⟩ := Option.map_eq_some_iff.mp hread
  have hparse := Fallible.toOption_eq_some.mp hblock
  exact ⟨block, hparse, htexts, denoted_of_parse hparse⟩

end ConfigScript
