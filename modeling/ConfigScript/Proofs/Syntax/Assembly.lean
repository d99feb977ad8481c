import ConfigScript.Syntax.Parser

/-!
# Readings put together

The converse of taking a reading apart: when the readings that it consists of succeed one behind
another, the whole reading succeeds with what they come to.
-/

namespace ConfigScript.Parser

variable {budget : Nat} {cursor start behind after : Cursor}

theorem expression_of_chain {first value : Expr}
    (hfirst : primary budget cursor = .ok (some (first, behind)))
    (hchain : chain budget cursor first behind = .ok (value, after)) :
    expression (budget + 1) cursor = .ok (some (value, after)) := by
  rw [expression, hfirst]
  simp [bind, Except.bind, hchain, pure, Except.pure]

theorem chain_of_none {value : Expr} (hdot : charAfter .multiline '.' cursor = .ok none) :
    chain (budget + 1) start value cursor = .ok (value, cursor) := by
  rw [chain, hdot]
  rfl

theorem chain_of_member {value : Expr} {name : String} {arguments : Option (List Argument)}
    {afterDot word afterName : Cursor}
    (hdot : charAfter .multiline '.' cursor = .ok (some afterDot))
    (hword : Spacing.multiline.skip afterDot = .ok word)
    (hname : word.name? = some (name, afterName))
    (hsuffix : suffix budget afterName = .ok (arguments, behind)) :
    chain (budget + 1) start value cursor =
      chain budget start (member (some value) name (start.spanTo behind) arguments) behind := by
  rw [chain, hdot]
  simp [bind, Except.bind, hword, hname, hsuffix]

theorem primary_of_literal {value : Expr}
    (hword : literalOrWord? cursor = .ok (some (value, after))) :
    primary (budget + 1) cursor = .ok (some (value, after)) := by
  rw [primary, hword]
  rfl

theorem primary_of_paren {value : Expr} {inside stop : Cursor}
    (hword : literalOrWord? cursor = .ok none) (hopening : cursor.char? '(' = some inside)
    (hstart : Spacing.multiline.skip inside = .ok start)
    (hvalue : expression budget start = .ok (some (value, behind)))
    (hstop : Spacing.multiline.skip behind = .ok stop) (hclosing : stop.char? ')' = some after) :
    primary (budget + 1) cursor = .ok (some (value, after)) := by
  rw [primary, hword, hopening]
  simp [bind, Except.bind, hstart, hvalue, require, hstop, hclosing, pure, Except.pure]

section Suffixes

variable {opening inside block : Cursor} {values : List Argument} {last : Argument}

theorem suffix_of_none (hopening : Spacing.inline.skip cursor = .ok opening)
    (hparen : opening.char? '(' = none) (hlambda : lambda budget opening = .ok none) :
    suffix (budget + 1) cursor = .ok (none, cursor) := by
  rw [suffix, hopening]
  simp [bind, Except.bind, hparen, hlambda, pure, Except.pure]

theorem suffix_of_lambda (hopening : Spacing.inline.skip cursor = .ok opening)
    (hparen : opening.char? '(' = none)
    (hlambda : lambda budget opening = .ok (some (last, after))) :
    suffix (budget + 1) cursor = .ok (some [last], after) := by
  rw [suffix, hopening]
  simp [bind, Except.bind, hparen, hlambda, pure, Except.pure]

theorem suffix_of_list (hopening : Spacing.inline.skip cursor = .ok opening)
    (hparen : opening.char? '(' = some inside)
    (hvalues : valueArguments budget inside = .ok (values, after))
    (hblock : Spacing.inline.skip after = .ok block) (hlambda : lambda budget block = .ok none) :
    suffix (budget + 1) cursor = .ok (some values, after) := by
  rw [suffix, hopening]
  simp [bind, Except.bind, hparen, hvalues, hblock, hlambda, pure, Except.pure]

theorem suffix_of_both (hopening : Spacing.inline.skip cursor = .ok opening)
    (hparen : opening.char? '(' = some inside)
    (hvalues : valueArguments budget inside = .ok (values, behind))
    (hblock : Spacing.inline.skip behind = .ok block)
    (hlambda : lambda budget block = .ok (some (last, after))) :
    suffix (budget + 1) cursor = .ok (some (values ++ [last]), after) := by
  rw [suffix, hopening]
  simp [bind, Except.bind, hparen, hvalues, hblock, hlambda, pure, Except.pure]

end Suffixes

section Arguments

variable {stop next : Cursor} {separator : Option Cursor} {first : Argument}
  {others : List Argument}

theorem valueArguments_of_none (hstart : Spacing.multiline.skip cursor = .ok start)
    (hnone : argument budget start = .ok none)
    (hseparator : charAfter .multiline ',' cursor = .ok separator)
    (hstop : Spacing.multiline.skip (separator.getD cursor) = .ok stop)
    (hclosing : stop.char? ')' = some after) :
    valueArguments (budget + 1) cursor = .ok ([], after) := by
  rw [valueArguments, hstart]
  simp [bind, Except.bind, hnone, hseparator, hstop, hclosing, pure, Except.pure]

theorem valueArguments_of_cons (hstart : Spacing.multiline.skip cursor = .ok start)
    (hfirst : argument budget start = .ok (some (first, next)))
    (hothers : moreArguments budget next = .ok (others, behind))
    (hseparator : charAfter .multiline ',' behind = .ok separator)
    (hstop : Spacing.multiline.skip (separator.getD behind) = .ok stop)
    (hclosing : stop.char? ')' = some after) :
    valueArguments (budget + 1) cursor = .ok (first :: others, after) := by
  rw [valueArguments, hstart]
  simp [bind, Except.bind, hfirst, hothers, hseparator, hstop, hclosing, pure, Except.pure]

theorem moreArguments_of_none (hcomma : charAfter .multiline ',' cursor = .ok none) :
    moreArguments (budget + 1) cursor = .ok ([], cursor) := by
  rw [moreArguments, hcomma]
  rfl

theorem moreArguments_of_comma (hcomma : charAfter .multiline ',' cursor = .ok (some after))
    (hstart : Spacing.multiline.skip after = .ok start)
    (hnone : argument budget start = .ok none) :
    moreArguments (budget + 1) cursor = .ok ([], cursor) := by
  rw [moreArguments, hcomma]
  simp [bind, Except.bind, hstart, hnone, pure, Except.pure]

theorem moreArguments_of_cons (hcomma : charAfter .multiline ',' cursor = .ok (some behind))
    (hstart : Spacing.multiline.skip behind = .ok start)
    (hfirst : argument budget start = .ok (some (first, next)))
    (hothers : moreArguments budget next = .ok (others, after)) :
    moreArguments (budget + 1) cursor = .ok (first :: others, after) := by
  rw [moreArguments, hcomma]
  simp [bind, Except.bind, hstart, hfirst, hothers, pure, Except.pure]

end Arguments

theorem lambda_of_body {inside : Cursor} {statements : List Statement}
    (hopening : cursor.char? '\x7b' = some inside)
    (hstart : Spacing.separators.skip inside = .ok start)
    (hbody : blockBody budget start = .ok (statements, after)) :
    lambda (budget + 1) cursor = .ok (some
      (.lambda (.mk statements (cursor.spanTo after)) (cursor.spanTo after), after)) := by
  rw [lambda, hopening]
  simp [bind, Except.bind, hstart, hbody, pure, Except.pure]

theorem blockBody_of_closing (hclosing : cursor.char? '\x7d' = some after) :
    blockBody (budget + 1) cursor = .ok ([], after) := by
  rw [blockBody, hclosing]
  rfl

theorem blockBody_of_cons {first : Statement} {others : List Statement} {ended next : Cursor}
    (hclosing : cursor.char? '\x7d' = none) (hrest : cursor.rest ≠ [])
    (hfirst : statement budget cursor = .ok (first, behind))
    (hended : statementEnd behind = .ok ended)
    (hnext : Spacing.separators.skip ended = .ok next)
    (hothers : blockBody budget next = .ok (others, after)) :
    blockBody (budget + 1) cursor = .ok (first :: others, after) := by
  rw [blockBody, hclosing]
  simp [bind, Except.bind, hrest, hfirst, hended, hnext, hothers, pure, Except.pure]

section Statements

variable {sign afterSign inside : Cursor} {name : String} {value : Expr}

theorem statement_of_local {afterWord afterName : Cursor}
    (hword : cursor.keyword? "val" = some afterWord)
    (hstart : Spacing.inline.skip afterWord = .ok start)
    (hname : start.name? = some (name, afterName))
    (hsign : Spacing.inline.skip afterName = .ok sign) (hequals : sign.char? '=' = some afterSign)
    (hinside : Spacing.multiline.skip afterSign = .ok inside)
    (hvalue : expression budget inside = .ok (some (value, after))) :
    statement (budget + 1) cursor = .ok (.localValue name value (cursor.spanTo after), after) := by
  rw [statement, hword]
  simp [bind, Except.bind, hstart, hname, hsign, hequals, hinside, hvalue, require, pure,
    Except.pure]

theorem statement_of_expr (hword : cursor.keyword? "val" = none)
    (hvariable : cursor.keyword? "var" = none)
    (hvalue : expression budget cursor = .ok (some (value, after)))
    (hsign : Spacing.inline.skip after = .ok sign) (hnone : sign.assignmentSign? = none) :
    statement (budget + 1) cursor = .ok (.expr value, after) := by
  rw [statement, hword, hvariable]
  simp [bind, Except.bind, hvalue, require, hsign, hnone, pure, Except.pure]

theorem statement_of_assignment {receiver : Option Expr} {span : Span}
    (hword : cursor.keyword? "val" = none) (hvariable : cursor.keyword? "var" = none)
    (htarget : expression budget cursor = .ok (some (.property receiver name span, behind)))
    (hsign : Spacing.inline.skip behind = .ok sign)
    (hequals : sign.assignmentSign? = some afterSign)
    (hinside : Spacing.multiline.skip afterSign = .ok inside)
    (hvalue : expression budget inside = .ok (some (value, after))) :
    statement (budget + 1) cursor =
      .ok (.assignment receiver name span value (cursor.spanTo after), after) := by
  rw [statement, hword, hvariable]
  simp [bind, Except.bind, htarget, require, hsign, hequals, hinside, hvalue, pure, Except.pure]

end Statements

end ConfigScript.Parser
