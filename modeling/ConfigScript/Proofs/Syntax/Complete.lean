import ConfigScript.Proofs.Syntax.Consumed
import ConfigScript.Proofs.Syntax.RoundTrip

/-!
# Scripts are read completely

A reader takes from a source the lexemes of the tree that it answers with, in their order, and
leaves the others to the readers behind it. So a parsed script has the lexemes of its source, and
its rendering has them too.
-/

namespace ConfigScript

namespace Parser

variable {cursor after : Cursor}

theorem lexemes_of_literalOrWord? {value : Expr}
    (h : literalOrWord? cursor = .ok (some (value, after))) :
    lexemes cursor.rest = value.lexemes ++ lexemes after.rest := by
  rcases literalOrWord?_cases h with ⟨literal, rfl, hliteral⟩ | ⟨hnull, rfl⟩ | ⟨hthis, rfl⟩
  · rw [Expr.lexemes, List.singleton_append]
    rcases hliteral with hstring | hnumber | hboolean
    · exact Literal.lexemes_of_readString hstring
    · exact Literal.lexemes_of_readNumber hnumber
    · exact Literal.lexemes_of_readBoolean hboolean
  · rw [Expr.lexemes, List.singleton_append]
    exact Cursor.lexemes_of_keyword? hnull (by decide)
  · rw [Expr.lexemes, List.singleton_append]
    exact Cursor.lexemes_of_keyword? hthis (by decide)

theorem lexemes_of_dotAfter {spacing : Spacing}
    (h : charAfter spacing '.' cursor = .ok (some after)) :
    lexemes cursor.rest = .symbol '.' :: lexemes after.rest := by
  obtain ⟨dot, hdot, h⟩ := Fallible.bind_eq_ok.mp h
  rw [Spacing.lexemes_skip hdot]
  exact Cursor.lexemes_of_symbol (Fallible.pure_eq_ok.mp h) (by decide)

/-- A comma has no lexeme, whether it is there or not. -/
theorem lexemes_of_commaAfter {spacing : Spacing} {separator : Option Cursor}
    (h : charAfter spacing ',' cursor = .ok separator) :
    lexemes cursor.rest = lexemes (separator.getD cursor).rest := by
  obtain ⟨comma, hcomma, h⟩ := Fallible.bind_eq_ok.mp h
  cases separator with
  | none => rfl
  | some after =>
    rw [Spacing.lexemes_skip hcomma]
    exact Cursor.lexemes_of_separator (Fallible.pure_eq_ok.mp h) (by decide)

theorem lexemes_of_statementEnd (h : statementEnd cursor = .ok after) :
    lexemes cursor.rest = lexemes after.rest := by
  obtain ⟨stop, hstop, h⟩ := Fallible.bind_eq_ok.mp h
  rw [Spacing.lexemes_skip hstop]
  split at h
  · cases h
    rfl
  · rename_i cs hrest
    cases h
    rw [Cursor.drop, hrest, Lexeme.lexemes_separator (by decide)]
    rfl
  · rename_i cs hrest
    cases h
    rw [Cursor.drop, hrest, Lexeme.lexemes_separator (by decide)]
    rfl
  · rename_i cs hrest
    cases h
    rw [Cursor.drop, hrest, Lexeme.lexemes_separator (by decide),
      Lexeme.lexemes_separator (by decide)]
    rfl
  · cases h
    rfl
  · cases h

theorem lexemes_member (name : String) (span : Span) (arguments : Option (List Argument)) :
    (member none name span arguments).lexemes =
      .word name :: argumentsLexemes (arguments.getD []) := by
  cases arguments with
  | none => rw [member, Expr.lexemes, Option.getD_none, argumentsLexemes]
  | some list => rw [member, Expr.lexemes, Option.getD_some]

theorem lexemes_member_of_receiver (receiver : Expr) (name : String) (span : Span)
    (arguments : Option (List Argument)) :
    (member (some receiver) name span arguments).lexemes =
      receiver.lexemes ++ .symbol '.' :: .word name :: argumentsLexemes (arguments.getD []) := by
  cases arguments with
  | none => rw [member, Expr.lexemes, Option.getD_none, argumentsLexemes]
  | some list => rw [member, Expr.lexemes, Option.getD_some]

/-- All that the readers take within a budget is in what they yield. -/
structure Retains (budget : Nat) : Prop where
  expression : ∀ {cursor after value}, expression budget cursor = .ok (some (value, after)) →
    lexemes cursor.rest = value.lexemes ++ lexemes after.rest
  chain : ∀ {start cursor after value result}, chain budget start value cursor =
    .ok (result, after) →
    value.lexemes ++ lexemes cursor.rest = result.lexemes ++ lexemes after.rest
  primary : ∀ {cursor after value}, primary budget cursor = .ok (some (value, after)) →
    lexemes cursor.rest = value.lexemes ++ lexemes after.rest
  suffix : ∀ {cursor after arguments}, suffix budget cursor = .ok (arguments, after) →
    lexemes cursor.rest = argumentsLexemes (arguments.getD []) ++ lexemes after.rest
  valueArguments : ∀ {cursor after values}, valueArguments budget cursor = .ok (values, after) →
    lexemes cursor.rest = argumentsLexemes values ++ lexemes after.rest
  moreArguments : ∀ {cursor after values}, moreArguments budget cursor = .ok (values, after) →
    lexemes cursor.rest = argumentsLexemes values ++ lexemes after.rest
  argument : ∀ {cursor after value}, argument budget cursor = .ok (some (value, after)) →
    lexemes cursor.rest = value.lexemes ++ lexemes after.rest
  lambda : ∀ {cursor after last}, lambda budget cursor = .ok (some (last, after)) →
    lexemes cursor.rest = last.lexemes ++ lexemes after.rest
  blockBody : ∀ {cursor after statements}, blockBody budget cursor = .ok (statements, after) →
    lexemes cursor.rest = statementsLexemes statements ++ .symbol '\x7d' :: lexemes after.rest
  statement : ∀ {cursor after result}, statement budget cursor = .ok (result, after) →
    lexemes cursor.rest = result.lexemes ++ lexemes after.rest

theorem zero_retains : Retains 0 where
  expression h := by simp [Parser.expression] at h
  chain h := by simp [Parser.chain] at h
  primary h := by simp [Parser.primary] at h
  suffix h := by simp [Parser.suffix] at h
  valueArguments h := by simp [Parser.valueArguments] at h
  moreArguments h := by simp [Parser.moreArguments] at h
  argument h := by simp [Parser.argument] at h
  lambda h := by simp [Parser.lambda] at h
  blockBody h := by simp [Parser.blockBody] at h
  statement h := by simp [Parser.statement] at h

section Step

variable {budget : Nat}

theorem chain_retains (h : Retains budget) {start : Cursor} {value result : Expr}
    (hchain : chain (budget + 1) start value cursor = .ok (result, after)) :
    value.lexemes ++ lexemes cursor.rest = result.lexemes ++ lexemes after.rest := by
  rcases chain_cases hchain with ⟨-, rfl, rfl⟩ |
    ⟨afterDot, word, name, afterName, arguments, behind, hdot, hword, hname, hsuffix, hrest⟩
  · rfl
  · rw [← h.chain hrest, lexemes_member_of_receiver, lexemes_of_dotAfter hdot,
      Spacing.lexemes_skip hword, Cursor.lexemes_of_name? hname, h.suffix hsuffix]
    simp

theorem primary_retains (h : Retains budget) {value : Expr}
    (hprimary : primary (budget + 1) cursor = .ok (some (value, after))) :
    lexemes cursor.rest = value.lexemes ++ lexemes after.rest := by
  rcases primary_cases hprimary with hword |
    ⟨inside, start, behind, stop, hopening, hstart, hvalue, hstop, hclosing⟩ |
    ⟨name, afterName, arguments, hname, hsuffix, rfl⟩
  · exact lexemes_of_literalOrWord? hword
  · rw [Cursor.lexemes_of_separator hopening (by decide), Spacing.lexemes_skip hstart,
      h.expression hvalue, Spacing.lexemes_skip hstop,
      Cursor.lexemes_of_separator hclosing (by decide)]
  · rw [Cursor.lexemes_of_name? hname, h.suffix hsuffix, lexemes_member]
    rfl

theorem suffix_retains (h : Retains budget) {result : Option (List Argument)}
    (hsuffix : suffix (budget + 1) cursor = .ok (result, after)) :
    lexemes cursor.rest = argumentsLexemes (result.getD []) ++ lexemes after.rest := by
  obtain ⟨opening, hopening, hcases⟩ := suffix_cases hsuffix
  rcases hcases with ⟨inside, values, behind, block, hinside, hvalues, hblock, hlast⟩ | ⟨-, hlast⟩
  · rw [Spacing.lexemes_skip hopening, Cursor.lexemes_of_separator hinside (by decide),
      h.valueArguments hvalues]
    rcases hlast with ⟨-, rfl, rfl⟩ | ⟨last, hlambda, rfl⟩
    · rfl
    · rw [Spacing.lexemes_skip hblock, h.lambda hlambda, Option.getD_some,
        argumentsLexemes_append]
      simp [argumentsLexemes]
  · rcases hlast with ⟨-, rfl, rfl⟩ | ⟨last, hlambda, rfl⟩
    · simp [argumentsLexemes]
    · rw [Spacing.lexemes_skip hopening, h.lambda hlambda]
      simp [argumentsLexemes]

theorem valueArguments_retains (h : Retains budget) {values : List Argument}
    (hvalues : valueArguments (budget + 1) cursor = .ok (values, after)) :
    lexemes cursor.rest = argumentsLexemes values ++ lexemes after.rest := by
  obtain ⟨start, behind, separator, stop, hstart, hlisted, hseparator, hstop, hclosing⟩ :=
    valueArguments_cases hvalues
  have hend : lexemes behind.rest = lexemes after.rest := by
    rw [lexemes_of_commaAfter hseparator, Spacing.lexemes_skip hstop,
      Cursor.lexemes_of_separator hclosing (by decide)]
  rcases hlisted with ⟨-, rfl, rfl⟩ | ⟨first, others, next, hfirst, hothers, rfl⟩
  · rw [hend, argumentsLexemes, List.nil_append]
  · rw [Spacing.lexemes_skip hstart, h.argument hfirst, h.moreArguments hothers, hend,
      argumentsLexemes, List.append_assoc]

theorem moreArguments_retains (h : Retains budget) {values : List Argument}
    (hvalues : moreArguments (budget + 1) cursor = .ok (values, after)) :
    lexemes cursor.rest = argumentsLexemes values ++ lexemes after.rest := by
  rcases moreArguments_cases hvalues with ⟨rfl, rfl⟩ |
    ⟨afterComma, start, first, others, behind, hcomma, hstart, hfirst, hothers, rfl⟩
  · rw [argumentsLexemes, List.nil_append]
  · rw [lexemes_of_commaAfter hcomma, Option.getD_some, Spacing.lexemes_skip hstart,
      h.argument hfirst, h.moreArguments hothers, argumentsLexemes, List.append_assoc]

theorem argument_retains (h : Retains budget) {value : Argument}
    (hargument : argument (budget + 1) cursor = .ok (some (value, after))) :
    lexemes cursor.rest = value.lexemes ++ lexemes after.rest := by
  rcases argument_cases hargument with
    ⟨name, afterName, sign, afterSign, inside, value, hname, hsign, hafterSign, hinside, hvalue,
      rfl⟩ | ⟨value, hvalue, rfl⟩
  · rw [Cursor.lexemes_of_name? hname, Spacing.lexemes_skip hsign,
      Cursor.lexemes_of_assignmentSign? hafterSign, Spacing.lexemes_skip hinside,
      h.expression hvalue, Argument.lexemes]
    rfl
  · rw [h.expression hvalue, Argument.lexemes]

theorem lambda_retains (h : Retains budget) {last : Argument}
    (hlambda : lambda (budget + 1) cursor = .ok (some (last, after))) :
    lexemes cursor.rest = last.lexemes ++ lexemes after.rest := by
  obtain ⟨inside, start, statements, hinside, hstart, hbody, rfl⟩ := lambda_cases hlambda
  rw [Cursor.lexemes_of_symbol hinside (by decide), Spacing.lexemes_skip hstart,
    h.blockBody hbody, Argument.lexemes, Block.lexemes]
  simp

theorem blockBody_retains (h : Retains budget) {statements : List Statement}
    (hbody : blockBody (budget + 1) cursor = .ok (statements, after)) :
    lexemes cursor.rest =
      statementsLexemes statements ++ .symbol '\x7d' :: lexemes after.rest := by
  rcases blockBody_cases hbody with ⟨hclosing, rfl⟩ |
    ⟨first, others, behind, ended, next, -, hfirst, hended, hnext, hothers, rfl⟩
  · rw [Cursor.lexemes_of_symbol hclosing (by decide), statementsLexemes, List.nil_append]
  · rw [h.statement hfirst, lexemes_of_statementEnd hended, Spacing.lexemes_skip hnext,
      h.blockBody hothers, statementsLexemes, List.append_assoc]

theorem statement_retains (h : Retains budget) {result : Statement}
    (hstatement : statement (budget + 1) cursor = .ok (result, after)) :
    lexemes cursor.rest = result.lexemes ++ lexemes after.rest := by
  rcases statement_cases hstatement with
    ⟨afterWord, start, name, afterName, sign, afterSign, inside, value, hword, hstart, hname,
      hsign, hafterSign, hinside, hvalue, rfl⟩ | ⟨target, behind, sign, -, -, htarget, hsign,
      hresult⟩
  · rw [Cursor.lexemes_of_keyword? hword (by decide), Spacing.lexemes_skip hstart,
      Cursor.lexemes_of_name? hname, Spacing.lexemes_skip hsign,
      Cursor.lexemes_of_symbol hafterSign (by decide), Spacing.lexemes_skip hinside,
      h.expression hvalue, Statement.lexemes]
    rfl
  · rw [h.expression htarget]
    rcases hresult with ⟨-, rfl, rfl⟩ |
      ⟨receiver, name, span, afterSign, inside, value, rfl, hafterSign, hinside, hvalue, rfl⟩
    · rw [Statement.lexemes]
    · rw [Spacing.lexemes_skip hsign, Cursor.lexemes_of_assignmentSign? hafterSign,
        Spacing.lexemes_skip hinside, h.expression hvalue]
      cases receiver with
      | none => simp [Statement.lexemes, Expr.lexemes]
      | some receiver => simp [Statement.lexemes, Expr.lexemes]

theorem succ_retains (h : Retains budget) : Retains (budget + 1) where
  expression hexpression := by
    obtain ⟨first, behind, hfirst, hchain⟩ := expression_cases hexpression
    rw [h.primary hfirst, h.chain hchain]
  chain := chain_retains h
  primary := primary_retains h
  suffix := suffix_retains h
  valueArguments := valueArguments_retains h
  moreArguments := moreArguments_retains h
  argument := argument_retains h
  lambda := lambda_retains h
  blockBody := blockBody_retains h
  statement := statement_retains h

end Step

theorem retains (budget : Nat) : Retains budget := by
  induction budget with
  | zero => exact zero_retains
  | succ budget ih => exact succ_retains ih

/-- The names of an import are read with the dots between them; a dot that is left is the next
lexeme. -/
theorem lexemes_of_dottedNames {budget : Nat} {names : List String}
    (h : dottedNames budget cursor = some (names, after)) :
    lexemes cursor.rest =
      [Lexeme.symbol '.'].intercalate (names.map fun name => [.word name]) ++
        lexemes after.rest := by
  induction budget generalizing cursor names after with
  | zero => cases h
  | succ budget ih =>
    rw [dottedNames] at h
    split at h
    · cases h
    · rename_i hname
      rw [Cursor.lexemes_of_name? hname]
      split at h
      · cases h
        rfl
      · rename_i hdot
        split at h
        · cases h
          rfl
        · rename_i others behind hothers
          cases h
          have hnonempty := (isName_of_dottedNames hothers).1
          rw [Cursor.lexemes_of_symbol hdot (by decide), ih hothers]
          cases others with
          | nil => exact absurd rfl hnonempty
          | cons second others => simp [List.intercalate_cons_cons]

theorem lexemes_of_topLevelStatement {result : Statement}
    (h : topLevelStatement cursor = .ok (result, after)) :
    lexemes cursor.rest = result.lexemes ++ lexemes after.rest := by
  obtain ⟨behind, hread, hend⟩ := topLevelStatement_cases h
  rw [← lexemes_of_statementEnd hend]
  rcases hread with himport | ⟨-, hstatement⟩
  · obtain ⟨afterWord, start, parts, hword, hstart, hparts, rfl⟩ := importStatement_cases himport
    rw [Cursor.lexemes_of_keyword? hword (by decide), Spacing.lexemes_skip hstart,
      lexemes_of_dottedNames hparts, Statement.lexemes]
    rfl
  · exact (retains _).statement hstatement

/-- Without failures, the statements have every lexeme that there was. -/
theorem lexemes_of_statementsFrom {budget : Nat} {started : Bool}
    (h : (statementsFrom budget started cursor).failures = []) :
    lexemes cursor.rest = statementsLexemes (statementsFrom budget started cursor).statements := by
  induction budget generalizing started cursor with
  | zero => cases h
  | succ budget ih =>
    obtain ⟨start, hstart, hread⟩ := statementsFrom_cases h
    rw [Spacing.lexemes_skip hstart]
    rcases hread with ⟨hend, hnil⟩ | ⟨first, after, -, hfirst, -, hlater, hcons⟩
    · rw [hnil, hend, Lexeme.lexemes_nil, statementsLexemes]
    · rw [hcons, lexemes_of_topLevelStatement hfirst, ih hlater, statementsLexemes]

end Parser

namespace Block

/-- The tree of a source has the lexemes of the source. -/
theorem lexemes_eq_of_parse {label source : String} {block : Block}
    (h : Block.parse label source = .ok block) :
    ConfigScript.lexemes source.toList = block.lexemes := by
  unfold Block.parse at h
  dsimp only at h
  split at h
  · rename_i hfailures
    obtain rfl := Except.ok.inj h
    rw [Block.lexemes]
    exact Parser.lexemes_of_statementsFrom (List.isEmpty_iff.mp hfailures)
  · cases h

/-- The rendering of a tree has the lexemes of the tree. -/
theorem lexemes_render {block : Block} (h : block.WellFormed) :
    ConfigScript.lexemes block.render.toList = block.lexemes := by
  -- The rendering is a script too, and reading it gives the tree back up to spans.
  obtain ⟨statements, span⟩ := block
  obtain ⟨found, stop, hread, hsame⟩ :=
    @statementsFrom_scriptText .origin statements false _ h (by simp) (Nat.lt_succ_self _)
  have hfailures := congrArg Parser.Outcome.failures hread
  have hlexemes := Parser.lexemes_of_statementsFrom hfailures
  rw [hread] at hlexemes
  rw [toList_render, Block.lexemes, ← statementsLexemes_eraseSpans statements, ← hsame,
    statementsLexemes_eraseSpans found]
  exact hlexemes

end Block

/-- Reading loses nothing: a parsed script has the lexemes of its source, and so has its
rendering. -/
theorem retained_of_parse {label source : String} {block : Block}
    (h : Block.parse label source = .ok block) :
    lexemes source.toList = lexemes block.render.toList ∧
      lexemes source.toList = block.lexemes := by
  have hsource := Block.lexemes_eq_of_parse h
  have hrender := Block.lexemes_render (Block.wellFormed_of_parse h)
  exact ⟨hsource.trans hrender.symm, hsource⟩

/-- A script with comments, with parentheses and commas that its tree does not keep, and with a
chain that goes on behind a lambda in the next line. -/
def groupedScript : String :=
  "import build.plugins // names\r\nval size = (-5L); disks(limit = (size),) \x7b\n" ++
    "  label = \"a\\tb\" /* \x7d */\n\x7d\n  .mount(7, path)"

def groupedLexemes : List Lexeme :=
  [.word "import", .word "build", .symbol '.', .word "plugins", .word "val", .word "size",
    .symbol '=', .long (-5), .word "disks", .word "limit", .symbol '=', .word "size",
    .symbol '\x7b', .word "label", .symbol '=', .string "a\tb", .symbol '\x7d', .symbol '.',
    .word "mount", .int 7, .word "path"]

theorem retained_of_parse_grouped :
    ∃ block, Block.parse "script" groupedScript = .ok block ∧
      (lexemes groupedScript.toList = lexemes block.render.toList ∧
        lexemes groupedScript.toList = block.lexemes) ∧
      block.lexemes = groupedLexemes := by
  have hread : (Block.parse "script" groupedScript).toOption.map Block.lexemes =
      some groupedLexemes := by
    decide +kernel
  cases hparse : Block.parse "script" groupedScript with
  | error failures =>
    rw [hparse] at hread
    cases hread
  | ok block =>
    rw [hparse] at hread
    exact ⟨block, rfl, retained_of_parse hparse, Option.some.inj hread⟩

end ConfigScript
