import ConfigScript.Proofs.Syntax.Denoted
import ConfigScript.Proofs.Syntax.Positions
import ConfigScript.Proofs.Syntax.Progress

/-!
# Argument lists

What stands between the parentheses of a call, told from its text alone: nothing but spacing, or the
texts of its value arguments in their order, each but the first behind a comma, and perhaps one more
comma behind the last. The reader takes a comma without any argument too.
-/

namespace ConfigScript

open ConfigScript.Parser

/-- Whether a text is read on its own as an expression, up to spans. -/
def Expr.Written (value : Expr) (text : List Char) : Prop :=
  ∃ found, Expr.parse (.ofList text) = .ok found ∧ found.eraseSpans = value.eraseSpans

/-- The text of an argument in parentheses. -/
inductive Argument.Written : Argument → List Char → Prop where
  | positional {value : Expr} {span : Span} {text : List Char} (hvalue : value.Written text) :
    Written (.positional value span) text
  | named {name : String} {value : Expr} {span : Span} {gap inner text : List Char}
    (hgap : Spacing.multiline.Gap gap) (hinner : Spacing.multiline.Gap inner)
    (hvalue : value.Written text) :
    Written (.named name value span) (name.toList ++ (gap ++ '=' :: (inner ++ text)))

/-- Further arguments, each with a comma in front of it and nothing else. -/
inductive Further : List Argument → List Char → Prop where
  | nil : Further [] []
  | cons {value : Argument} {values : List Argument} {gap inner text rest : List Char}
    (hgap : Spacing.multiline.Gap gap) (hinner : Spacing.multiline.Gap inner)
    (hvalue : value.Written text) (hrest : Further values rest) :
    Further (value :: values) (gap ++ ',' :: (inner ++ (text ++ rest)))

/-- Arguments and the text that lists them, up to and including the closing parenthesis. -/
inductive ArgumentList : List Argument → List Char → Prop where
  | empty {gap : List Char} (hgap : Spacing.multiline.Gap gap) : ArgumentList [] (gap ++ [')'])
  | listed {value : Argument} {values : List Argument} {gap text rest closing : List Char}
    (hgap : Spacing.multiline.Gap gap) (hvalue : value.Written text) (hrest : Further values rest)
    (hclosing : Closing closing) :
    ArgumentList (value :: values) (gap ++ (text ++ (rest ++ closing)))

/-- A comma without any argument, up to and including the closing parenthesis. -/
inductive LoneComma : List Argument → List Char → Prop where
  | intro {gap inner : List Char} (hgap : Spacing.multiline.Gap gap)
    (hinner : Spacing.multiline.Gap inner) : LoneComma [] (gap ++ ',' :: (inner ++ [')']))

/-- What the reader takes between parentheses. -/
def TakenList (values : List Argument) (text : List Char) : Prop :=
  ArgumentList values text ∨ LoneComma values text

/-- The text in front of the arguments of a call: a name, or a member asked of a value. -/
inductive CalleeText : Option Expr → String → List Char → Prop where
  | name {name : String} : CalleeText none name name.toList
  | member {value : Expr} {name : String} {text gap inner : List Char} (hvalue : value.Written text)
    (hgap : Spacing.multiline.Gap gap) (hinner : Spacing.multiline.Gap inner) :
    CalleeText (some value) name (text ++ (gap ++ '.' :: (inner ++ name.toList)))

/-- The text of a call, whose arguments in parentheses are listed as `list` tells. -/
inductive CallText (list : List Argument → List Char → Prop) :
    Option Expr → String → List Argument → List Char → Prop where
  | values {receiver : Option Expr} {name : String} {values : List Argument}
    {callee gap text : List Char} (hcallee : CalleeText receiver name callee)
    (hgap : Spacing.inline.Gap gap) (hvalues : list values text) :
    CallText list receiver name values (callee ++ (gap ++ '(' :: text))
  | both {receiver : Option Expr} {name : String} {values : List Argument} {last : Argument}
    {callee gap text inner body : List Char} (hcallee : CalleeText receiver name callee)
    (hgap : Spacing.inline.Gap gap) (hvalues : list values text)
    (hinner : Spacing.inline.Gap inner) (hlast : last.isLambda = true) :
    CallText list receiver name (values ++ [last])
      (callee ++ (gap ++ '(' :: (text ++ (inner ++ '\x7b' :: body))))
  | lambda {receiver : Option Expr} {name : String} {last : Argument} {callee gap body : List Char}
    (hcallee : CalleeText receiver name callee) (hgap : Spacing.inline.Gap gap)
    (hlast : last.isLambda = true) :
    CallText list receiver name [last] (callee ++ (gap ++ '\x7b' :: body))

/-- A call whose text, at its span in the source, lists the arguments as `list` tells. -/
def Node.Lists (list : List Argument → List Char → Prop) (source : String) : Node → Prop
  | .expr (.call receiver name arguments span) =>
    CallText list receiver name arguments (span.textIn source).toList
  | _ => True

namespace Parser

variable {source : String} {budget : Nat} {cursor start after behind : Cursor} {text : List Char}

theorem written_of_rereads {value : Expr} {place : Position} (hleading : Leading text)
    (h : RereadsExpr value place text) : value.Written text :=
  ⟨_, parse_of_rereads hleading h, value.eraseSpans_mapSpans⟩

theorem written_of_expression {value : Expr}
    (h : expression budget cursor = .ok (some (value, after))) :
    ∃ text, cursor.Reads text after ∧ Spacing.Solid text ∧ value.Written text := by
  obtain ⟨text, hreads, hleading, hreread⟩ := (relocates budget).expression h
  exact ⟨text, hreads, hleading.solid, written_of_rereads hleading hreread⟩

theorem written_of_argument {value : Argument}
    (h : argument budget cursor = .ok (some (value, after))) :
    ∃ text, cursor.Reads text after ∧ Spacing.Solid text ∧ value.Written text := by
  cases budget with
  | zero => simp [argument] at h
  | succ budget =>
    rcases argument_cases h with
      ⟨name, afterName, sign, afterSign, inside, value, hname, hsign, hassigned, hinside, hvalue,
        rfl⟩ | ⟨value, hvalue, rfl⟩
    · have hletters := Cursor.reads_of_name? hname
      have hequals := (Cursor.reads_of_assignmentSign? hassigned).1
      obtain ⟨text, hreads, hsolid, hwritten⟩ := written_of_expression hvalue
      obtain ⟨gap, hgapReads, hgap⟩ :=
        Spacing.gap_of_skip hsign (hequals.solid (Spacing.solid_cons (by decide)))
      obtain ⟨inner, hinnerReads, hinner⟩ := Spacing.gap_of_skip hinside (hreads.solid hsolid)
      exact ⟨_, hletters.trans (hgapReads.trans (hequals.cons (hinnerReads.trans hreads))),
        (solid_name (Cursor.isName_of_name? hname)).append, .named hgap hinner hwritten⟩
    · obtain ⟨text, hreads, hsolid, hwritten⟩ := written_of_expression hvalue
      exact ⟨text, hreads, hsolid, .positional hwritten⟩

theorem further_of_moreArguments {values : List Argument}
    (h : moreArguments budget cursor = .ok (values, after)) :
    ∃ text, cursor.Reads text after ∧ Further values text := by
  induction budget generalizing cursor values with
  | zero => simp [moreArguments] at h
  | succ budget ih =>
    rcases moreArguments_cases h with ⟨rfl, rfl⟩ |
      ⟨afterComma, first, value, others, next, hcomma, hfirst, hvalue, hothers, rfl⟩
    · exact ⟨[], .refl, .nil⟩
    · obtain ⟨gap, before, hgapReads, hchar, hgap⟩ := gap_of_charAfter hcomma (by decide)
      obtain ⟨text, hreads, hsolid, hwritten⟩ := written_of_argument hvalue
      obtain ⟨inner, hinnerReads, hinner⟩ := Spacing.gap_of_skip hfirst (hreads.solid hsolid)
      obtain ⟨more, hmore, hfurther⟩ := ih hothers
      exact ⟨_, hgapReads.trans (hchar.cons (hinnerReads.trans (hreads.trans hmore))),
        .cons hgap hinner hwritten hfurther⟩

/-- Where no argument stands, the list is empty or holds a comma on its own. -/
theorem taken_of_closing (h : Closing text) : TakenList [] text := by
  cases h with
  | paren hgap => exact .inl (.empty hgap)
  | comma hgap hinner => exact .inr (.intro hgap hinner)

theorem taken_of_valueArguments {values : List Argument}
    (h : valueArguments budget cursor = .ok (values, after)) :
    ∃ text, cursor.Reads text after ∧ TakenList values text := by
  cases budget with
  | zero => simp [valueArguments] at h
  | succ budget =>
    obtain ⟨first, behind, separator, last, hfirst, hlisted, hseparator, hlast, hclosing⟩ :=
      valueArguments_cases h
    obtain ⟨closing, hclose, hcloses⟩ := closing_of_char? hseparator hlast hclosing
    rcases hlisted with ⟨-, rfl, rfl⟩ | ⟨value, others, next, hvalue, hothers, rfl⟩
    · exact ⟨closing, hclose, taken_of_closing hcloses⟩
    · obtain ⟨text, hreads, hsolid, hwritten⟩ := written_of_argument hvalue
      obtain ⟨gap, hgapReads, hgap⟩ := Spacing.gap_of_skip hfirst (hreads.solid hsolid)
      obtain ⟨more, hmore, hfurther⟩ := further_of_moreArguments hothers
      exact ⟨_, hgapReads.trans (hreads.trans (hmore.trans hclose)),
        .inl (.listed hgap hwritten hfurther hcloses)⟩

theorem isLambda_of_lambda {value : Argument}
    (h : lambda budget cursor = .ok (some (value, after))) :
    value.isLambda = true ∧ ∃ text, cursor.Reads ('\x7b' :: text) after := by
  obtain ⟨text, hreads, -⟩ := (relocates budget).lambda h
  refine ⟨?_, text, hreads⟩
  cases budget with
  | zero => simp [lambda] at h
  | succ budget =>
    obtain ⟨inside, first, statements, -, -, -, rfl⟩ := lambda_cases h
    rfl

theorem callText_of_suffix {receiver : Option Expr} {name : String} {arguments : List Argument}
    {callee : List Char} (hcallee : CalleeText receiver name callee)
    (hreads : start.Reads callee cursor)
    (h : suffix budget cursor = .ok (some arguments, after)) :
    ∃ text, start.Reads text after ∧ CallText TakenList receiver name arguments text := by
  cases budget with
  | zero => simp [suffix] at h
  | succ budget =>
  obtain ⟨opening, hopening, hcases⟩ := suffix_cases h
  rcases hcases with ⟨inside, values, behind, block, hparen, hvalues, hblock, hlast⟩ | ⟨-, hlast⟩
  · have hopen := Cursor.reads_of_char? hparen
    obtain ⟨gap, hgapReads, hgap⟩ :=
      Spacing.gap_of_skip hopening (hopen.solid (Spacing.solid_cons (by decide)))
    obtain ⟨list, hlist, htaken⟩ := taken_of_valueArguments hvalues
    rcases hlast with ⟨-, hsame, rfl⟩ | ⟨last, hlambda, hsame⟩
    · obtain rfl := Option.some.inj hsame
      exact ⟨_, hreads.trans (hgapReads.trans (hopen.cons hlist)), .values hcallee hgap htaken⟩
    · obtain rfl := Option.some.inj hsame
      obtain ⟨hisLambda, body, hbody⟩ := isLambda_of_lambda hlambda
      obtain ⟨inner, hinnerReads, hinner⟩ :=
        Spacing.gap_of_skip hblock (hbody.solid (Spacing.solid_cons (by decide)))
      exact ⟨_, hreads.trans (hgapReads.trans (hopen.cons (hlist.trans (hinnerReads.trans hbody)))),
        .both hcallee hgap htaken hinner hisLambda⟩
  · rcases hlast with ⟨-, hnone, -⟩ | ⟨last, hlambda, hsame⟩
    · cases hnone
    · obtain rfl := Option.some.inj hsame
      obtain ⟨hisLambda, body, hbody⟩ := isLambda_of_lambda hlambda
      obtain ⟨gap, hgapReads, hgap⟩ :=
        Spacing.gap_of_skip hopening (hbody.solid (Spacing.solid_cons (by decide)))
      exact ⟨_, hreads.trans (hgapReads.trans hbody), .lambda hcallee hgap hisLambda⟩

/-- A call at the end of a chain is the value at its beginning, or the last member asked for. -/
theorem callText_of_chain {value : Expr} {receiver : Option Expr} {name : String}
    {arguments : List Argument} {span : Span} {first : List Char}
    (h : chain budget start value cursor = .ok (.call receiver name arguments span, after))
    (hfirst : start.Reads first cursor) (hleading : Leading first)
    (hspined : Spined value start.position first) :
    value = .call receiver name arguments span ∧ after = cursor ∨
      ∃ text, start.Reads text after ∧ CallText TakenList receiver name arguments text := by
  induction budget generalizing cursor value first with
  | zero => simp [chain] at h
  | succ budget ih =>
    rcases chain_cases h with ⟨-, hsame, rfl⟩ |
      ⟨afterDot, word, other, afterName, listed, behind, hdot, hword, hname, hsuffix, hrest⟩
    · exact .inl ⟨hsame.symm, rfl⟩
    · obtain ⟨text, hreads, hfront, hmember⟩ :=
        spined_of_member (relocates budget) hfirst hleading hspined hdot hword hname hsuffix
      rcases ih hrest hreads hfront hmember with ⟨hsame, rfl⟩ | hlater
      · cases listed with
        | none => cases hsame
        | some listed =>
          cases hsame
          have hletters := Cursor.reads_of_name? hname
          obtain ⟨gap, next, hbefore, hchar, hgap⟩ := gap_of_charAfter hdot (by decide)
          obtain ⟨inner, hinside, hinner⟩ := Spacing.gap_of_skip hword
            (hletters.solid (solid_name (Cursor.isName_of_name? hname)))
          have hcallee : CalleeText (some value) name _ :=
            .member (written_of_rereads hleading (hspined.rereads hleading.ne_nil)) hgap hinner
          exact .inr (callText_of_suffix hcallee
            (hfirst.trans (hbefore.trans (hchar.cons (hinside.trans hletters)))) hsuffix)
      · exact .inr hlater

/-- A value in parentheses begins behind the opening one. -/
theorem start_lt_of_parenthesized {value : Expr} {inside : Cursor} (hin : cursor.In source)
    (hopening : cursor.char? '(' = some inside) (hskip : Spacing.multiline.skip inside = .ok start)
    (hvalue : expression budget start = .ok (some (value, after))) :
    cursor.position.offset < value.span.start := by
  have hopened := (Cursor.reads_of_char? hopening).offset_lt (by simp)
  have hskipped := (Spacing.precedes_of_skip hskip).offset_le
  have hstart : start.In source := in_of_skip (in_of_char? hin hopening) hskip
  have hfilled : Filled source start after [.expr value] :=
    ((tracked source budget).expression hstart).of_ok hvalue
  have hinside := (hfilled.inside _ List.mem_cons_self).1
  exact (hopened.trans_le hskipped).trans_le hinside

theorem callText_of_primary {receiver : Option Expr} {name : String} {arguments : List Argument}
    {span : Span} (hin : cursor.In source) (hspan : span.start = cursor.position.offset)
    (h : primary budget cursor = .ok (some (.call receiver name arguments span, after))) :
    ∃ text, cursor.Reads text after ∧ CallText TakenList receiver name arguments text := by
  cases budget with
  | zero => simp [primary] at h
  | succ budget =>
  rcases primary_cases h with hword |
    ⟨inside, first, behind, last, hopening, hfirst, hvalue, -, -⟩ |
    ⟨other, afterName, listed, hname, hsuffix, hsame⟩
  · rcases literalOrWord?_cases hword with ⟨literal, hsame, -⟩ | ⟨-, hsame⟩ | ⟨-, hsame⟩
    all_goals cases hsame
  · have hless := start_lt_of_parenthesized hin hopening hfirst hvalue
    exact absurd hspan hless.ne'
  · cases listed with
    | none => cases hsame
    | some listed =>
      cases hsame
      exact callText_of_suffix .name (Cursor.reads_of_name? hname) hsuffix

theorem callText_of_expression {receiver : Option Expr} {name : String}
    {arguments : List Argument} {span : Span} (hin : cursor.In source)
    (hspan : span.start = cursor.position.offset)
    (h : expression budget cursor = .ok (some (.call receiver name arguments span, after))) :
    ∃ text, cursor.Reads text after ∧ CallText TakenList receiver name arguments text := by
  cases budget with
  | zero => simp [expression] at h
  | succ budget =>
  obtain ⟨value, behind, hprimary, hchain⟩ := expression_cases h
  obtain ⟨text, hreads, hleading, hspined⟩ := (relocates budget).primary hprimary
  rcases callText_of_chain hchain hreads hleading hspined with ⟨rfl, rfl⟩ | hlast
  · exact callText_of_primary hin hspan hprimary
  · exact hlast

end Parser

theorem lists_of_readable {source : String} {node : Node} (h : node.Readable source) :
    node.Lists TakenList source := by
  cases node with
  | argument => trivial
  | block => trivial
  | statement => trivial
  | expr value =>
    cases value with
    | property => trivial
    | literal => trivial
    | null => trivial
    | this => trivial
    | call receiver name arguments span =>
      obtain ⟨start, text, stop, hin, hreads, rfl, -, hreread⟩ := h
      change CallText _ _ _ _ (Span.textIn source (start.spanTo stop)).toList
      rw [textIn_spanTo hin hreads, String.toList_ofList]
      obtain ⟨before, hbefore⟩ := hin
      -- The call is read again where its source ends behind it.
      have hcut : Cursor.In (.ofList (before ++ text)) ⟨text, start.position⟩ :=
        ⟨before, String.toList_ofList, hbefore.position⟩
      have hread := hreread (8 * text.length + 1) [] Carries.refl endsExpression_nil le_rfl
      rw [List.append_nil] at hread
      dsimp only at hread
      rw [Expr.mapSpans_id] at hread
      obtain ⟨found, hfound, hcall⟩ := callText_of_expression hcut rfl hread
      have hwhole : text = found ++ [] := hfound.rest
      rwa [hwhole, List.append_nil]

/-- Every call of a script that has parentheses lists its value arguments between them, in their
order: each comma stands behind an argument, and one may stand behind the last. Only a list of no
argument may hold a comma that stands behind none. -/
theorem lists_of_parse {label source : String} {block : Block}
    (h : Block.parse label source = .ok block) :
    (Node.block block).Everywhere (Node.Lists TakenList source) :=
  fun node hnode => lists_of_readable (readable_of_parse h node hnode)

/-- Lists on several lines, with a comma behind the last argument, with nothing but a comma, and
with nothing but spacing. -/
def listsScript : String :=
  "f(\n  1, // one\n  size = (2),\n) \x7b g(,) \x7d\n(x).each( /* none */ ).run(h(a), \",\")"

theorem lists_of_parse_script :
    ∃ block, Block.parse "script" listsScript = .ok block ∧
      block.statements.map (fun statement => statement.span.textIn listsScript) =
        ["f(\n  1, // one\n  size = (2),\n) \x7b g(,) \x7d",
          "(x).each( /* none */ ).run(h(a), \",\")"] ∧
      (Node.block block).Everywhere (Node.Lists TakenList listsScript) := by
  have hread : (Block.parse "script" listsScript).toOption.map (fun block =>
      block.statements.map fun statement => statement.span.textIn listsScript) =
        some ["f(\n  1, // one\n  size = (2),\n) \x7b g(,) \x7d",
          "(x).each( /* none */ ).run(h(a), \",\")"] := by
    decide +kernel
  obtain ⟨block, hblock, htexts⟩ := Option.map_eq_some_iff.mp hread
  have hparse := Fallible.toOption_eq_some.mp hblock
  exact ⟨block, hparse, htexts, lists_of_parse hparse⟩

/-- A comma is no spacing, so it makes no empty list. -/
theorem not_argumentList_comma : ¬ ArgumentList [] [',', ')'] := by
  intro h
  generalize htext : [',', ')'] = text at h
  cases h with
  | @empty gap hgap =>
    obtain rfl : gap = [','] := (List.append_left_inj [')']).mp htext.symm
    have hskip := hgap [] .origin
    cases hskip

theorem not_callText_comma {text : List Char} (htext : text = ['f', '(', ',', ')']) :
    ¬ CallText ArgumentList none "f" [] text := by
  intro h
  generalize hnone : ([] : List Argument) = arguments at h
  cases h with
  | both => simp at hnone
  | lambda => cases hnone
  | @values _ callee gap list hcallee hgap hvalues =>
    cases hcallee with
    | name =>
      obtain rfl := hnone
      have hrest : gap ++ '(' :: list = ['(', ',', ')'] := by simpa using htext
      cases gap with
      | nil =>
        obtain rfl : list = [',', ')'] := by simpa using hrest
        exact not_argumentList_comma hvalues
      | cons c gap =>
        -- There is only one opening parenthesis.
        have hmem : '(' ∈ [',', ')'] := by
          rw [← (List.cons.inj hrest).2]
          simp
        exact absurd hmem (by decide)

/-- A call whose list holds nothing but a comma is read as a call without arguments. -/
theorem loneComma_accepted :
    ∃ block, Block.parse "script" "f(,)" = .ok block ∧
      ¬ (Node.block block).Everywhere (Node.Lists ArgumentList "f(,)") := by
  refine ⟨.mk [.expr (.call none "f" [] ⟨0, 4, 1, 1⟩)] ⟨0, 4, 1, 1⟩, rfl, fun hlists => ?_⟩
  have hstatement := (Node.everywhere_iff.mp hlists).2 _ List.mem_cons_self
  have hcall : CallText ArgumentList none "f" [] (Span.textIn "f(,)" ⟨0, 4, 1, 1⟩).toList :=
    ((Node.everywhere_iff.mp hstatement).2 _ List.mem_cons_self).here
  exact not_callText_comma (by decide +kernel) hcall

end ConfigScript
