import ConfigScript.Proofs.Syntax.Literals
import ConfigScript.Proofs.Syntax.WellFormed

/-!
# The shape of rendered text

The text of a tree as the characters that its parts contribute, one after another, and how the text
of an expression begins: with a word or a literal, and behind it nothing, a dot, a parenthesis or a
brace.
-/

namespace ConfigScript

variable {depth : Nat}

theorem toList_indentation : (indentation depth).toList = List.replicate (4 * depth) ' ' := by
  simp [indentation]

/-- Texts behind the first one, each after its separator. -/
theorem intercalate_cons (separator first : List Char) (others : List (List Char)) :
    separator.intercalate (first :: others) =
      first ++ others.flatMap fun other => separator ++ other := by
  induction others generalizing first with
  | nil => simp
  | cons second others ih => simp [List.intercalate_cons_cons, ih]

/-- The text of a value argument; a lambda has its place elsewhere. -/
def Argument.valueText (depth : Nat) : Argument → List Char
  | .positional value _ => (value.renderAt depth).toList
  | .named name value _ => name.toList ++ ' ' :: '=' :: ' ' :: (value.renderAt depth).toList
  | .lambda _ _ => []

/-- The value arguments of a call between their parentheses. -/
def listText (values : List (List Char)) : List Char :=
  '(' :: [',', ' '].intercalate values ++ [')']

/-- What stands behind the line feed that opens the body of a lambda or ends one of its
statements. -/
def bodyLines (depth : Nat) : List Statement → List Char
  | [] => (indentation depth).toList ++ ['\x7d']
  | statement :: statements =>
    (indentation (depth + 1)).toList ++ (statement.renderAt (depth + 1)).toList ++
      '\n' :: bodyLines depth statements

/-- A lambda behind a name or an argument list. -/
def lambdaText (depth : Nat) : List Statement → List Char
  | [] => [' ', '\x7b', ' ', '\x7d']
  | statements => ' ' :: '\x7b' :: '\n' :: bodyLines depth statements

theorem toList_lines (statement : Statement) (statements : List Statement) :
    ['\n'].intercalate ((statementLines (depth + 1) (statement :: statements)).map String.toList) ++
        '\n' :: (indentation depth).toList ++ ['\x7d'] =
      bodyLines depth (statement :: statements) := by
  induction statements generalizing statement with
  | nil => simp [statementLines, bodyLines]
  | cons second statements ih =>
    have hrest := ih second
    simp only [statementLines, List.map_cons, intercalate_cons, bodyLines] at hrest ⊢
    simp [← hrest]

theorem toList_body (statements : List Statement) :
    (callText.body depth (statementLines (depth + 1) statements)).toList =
      lambdaText depth statements := by
  cases statements with
  | nil => simp [statementLines, callText.body, lambdaText]
  | cons statement statements =>
    have hbody : callText.body depth (statementLines (depth + 1) (statement :: statements)) =
        " \x7b\n" ++ "\n".intercalate (statementLines (depth + 1) (statement :: statements)) ++
          "\n" ++ indentation depth ++ "\x7d" := rfl
    rw [hbody, lambdaText, ← toList_lines]
    · simp only [String.toList_append, String.toList_intercalate, List.append_assoc]
      rfl
    · simp

/-- What a call has behind its name. -/
def suffixText (depth : Nat) (values : List String) : Option (List String) → List Char
  | none => listText (values.map String.toList)
  | some lines =>
    (if values.isEmpty then [] else listText (values.map String.toList)) ++
      (callText.body depth lines).toList

theorem toList_callText {callee : String} {values : List String} {lambda : Option (List String)} :
    (callText depth callee values lambda).toList =
      callee.toList ++ suffixText depth values lambda := by
  cases lambda with
  | none => cases values <;> simp [callText, suffixText, listText]
  | some lines => cases values <;> simp [callText, suffixText, listText]

section Arguments

variable {values : List Argument}

theorem renderValues_values (hvalues : ∀ value ∈ values, value.isLambda = false) :
    (renderValues depth values).map String.toList = values.map (Argument.valueText depth) := by
  induction values with
  | nil => rfl
  | cons value values ih =>
    have hrest := ih (fun other hother => hvalues other (List.mem_cons_of_mem _ hother))
    cases value with
    | positional value span => simp [renderValues, Argument.valueText, hrest]
    | named name value span => simp [renderValues, Argument.valueText, hrest]
    | lambda body span => simpa [Argument.isLambda] using hvalues _ List.mem_cons_self

theorem renderValues_append (first second : List Argument) :
    renderValues depth (first ++ second) =
      renderValues depth first ++ renderValues depth second := by
  induction first with
  | nil => rfl
  | cons argument arguments ih => cases argument <;> simp [renderValues, ih]

/-- Value arguments are passed over in the search for the lambda. -/
theorem renderLambda?_append (hvalues : ∀ value ∈ values, value.isLambda = false)
    (others : List Argument) :
    renderLambda? depth (values ++ others) = renderLambda? depth others := by
  induction values with
  | nil => rfl
  | cons value values ih =>
    have hrest := ih (fun other hother => hvalues other (List.mem_cons_of_mem _ hother))
    cases value with
    | positional value span => exact hrest
    | named name value span => exact hrest
    | lambda body span => simpa [Argument.isLambda] using hvalues _ List.mem_cons_self

end Arguments

/-- Well-formed arguments are values, and behind them a lambda or nothing. -/
theorem argumentsWellFormed_cases {arguments : List Argument}
    (h : argumentsWellFormed arguments) :
    ∃ values, (∀ value ∈ values, value.isLambda = false) ∧
      (arguments = values ∨
        ∃ statements inner span, arguments = values ++ [.lambda (.mk statements inner) span]) := by
  induction arguments with
  | nil => exact ⟨[], by simp, .inl rfl⟩
  | cons argument arguments ih =>
    cases argument with
    | positional value span =>
      obtain ⟨values, hvalues, hcases⟩ := ih h.2
      refine ⟨.positional value span :: values, List.forall_mem_cons.mpr ⟨rfl, hvalues⟩, ?_⟩
      grind
    | named name value span =>
      obtain ⟨values, hvalues, hcases⟩ := ih h.2.2
      refine ⟨.named name value span :: values, List.forall_mem_cons.mpr ⟨rfl, hvalues⟩, ?_⟩
      grind
    | lambda body span =>
      obtain ⟨statements, inner⟩ := body
      obtain rfl := h.2
      exact ⟨[], by simp, .inr ⟨statements, inner, span, rfl⟩⟩

/-- The text of a call's arguments when there is no lambda among them. -/
theorem suffixText_values {values : List Argument}
    (hvalues : ∀ value ∈ values, value.isLambda = false) :
    suffixText depth (renderValues depth values) (renderLambda? depth values) =
      listText (values.map (Argument.valueText depth)) := by
  have hlambda : renderLambda? depth values = none := by
    rw [← List.append_nil values, renderLambda?_append hvalues, renderLambda?]
  rw [hlambda, suffixText, renderValues_values hvalues]

theorem suffixText_lambda {values : List Argument}
    (hvalues : ∀ value ∈ values, value.isLambda = false) (statements : List Statement)
    (inner span : Span) :
    let arguments := values ++ [.lambda (.mk statements inner) span]
    suffixText depth (renderValues depth arguments) (renderLambda? depth arguments) =
      (if values.isEmpty then [] else listText (values.map (Argument.valueText depth))) ++
        lambdaText depth statements := by
  intro arguments
  have htexts : renderValues depth arguments = renderValues depth values := by
    simp [arguments, renderValues_append, renderValues]
  have hlambda : renderLambda? depth arguments =
      some (statementLines (depth + 1) statements) := by
    simp [arguments, renderLambda?_append hvalues, renderLambda?, Block.linesAt]
  have hempty : (renderValues depth values).isEmpty = values.isEmpty := by
    rw [← List.isEmpty_map (f := String.toList), renderValues_values hvalues, List.isEmpty_map]
  rw [htexts, hlambda, suffixText, hempty, renderValues_values hvalues, toList_body]

/-- How the text of an expression begins: with a word that begins no statement of another kind, or
with a character that begins no word at all. -/
def LeadingWord (word : List Char) : Prop :=
  (isIdentifier word = true ∧ ∀ keyword ∈ ["val", "var", "import"], word ≠ keyword.toList) ∨
    ∃ c cs, word = c :: cs ∧ opensExpression c = true ∧ startsIdentifier c = false

/-- How a text may go on behind a leading word. -/
def ContinuesExpression (tail : List Char) : Prop :=
  tail = [] ∨ ∃ cs, tail = '.' :: cs ∨ tail = '(' :: cs ∨ tail = ' ' :: '\x7b' :: cs

theorem exists_opener {word : List Char} (h : LeadingWord word) :
    ∃ c cs, word = c :: cs ∧ opensExpression c = true := by
  cases h with
  | inl hword =>
    cases word with
    | nil => cases hword.1
    | cons c cs =>
      have hstarts : startsIdentifier c = true := (Bool.and_eq_true _ _ ▸ hword.1).1
      exact ⟨c, cs, rfl, by simp [opensExpression, hstarts]⟩
  | inr hcons =>
    obtain ⟨c, cs, heq, hopens, -⟩ := hcons
    exact ⟨c, cs, heq, hopens⟩

theorem leadingWord_name {name : String} (h : isName name = true) : LeadingWord name.toList := by
  rw [isName, Bool.and_eq_true, Bool.not_eq_true'] at h
  have hkeywords : ∀ keyword ∈ ["val", "var", "import"], keyword ∈ keywords := by decide
  refine .inl ⟨h.1, fun keyword hkeyword heq => ?_⟩
  have hmem := hkeywords keyword hkeyword
  rw [String.toList_inj.mp heq, List.contains_iff_mem.mpr hmem] at h
  cases h.2

theorem leadingWord_integer (value : Int) (suffix : List Char) :
    LeadingWord ((toString value).toList ++ suffix) := by
  obtain ⟨c, cs, heq, hc⟩ := Literal.toString_cons value
  rw [heq]
  cases hc with
  | inl hminus =>
    rw [hminus]
    exact .inr ⟨'-', _, rfl, by decide, by decide⟩
  | inr hdigit =>
    refine .inr ⟨c, _, rfl, by simp [opensExpression, hdigit], ?_⟩
    rw [Bool.eq_false_iff]
    intro hstarts
    rw [not_isDigit_of_starts hstarts] at hdigit
    cases hdigit

theorem leadingWord_literal (value : Literal) : LeadingWord value.render.toList := by
  cases value with
  | string value =>
    refine .inr ⟨'"', value.toList.flatMap Literal.escapeChar ++ ['"'], ?_, by decide, by decide⟩
    simp [Literal.render]
  | int value => simpa [Literal.render] using leadingWord_integer value.toInt []
  | long value => simpa [Literal.render] using leadingWord_integer value.toInt ['L']
  | boolean value =>
    cases value with
    | true => exact .inl (by decide)
    | false => exact .inl (by decide)

theorem continues_suffixText {arguments : List Argument} (h : argumentsWellFormed arguments) :
    ContinuesExpression (suffixText depth (renderValues depth arguments)
      (renderLambda? depth arguments)) := by
  obtain ⟨values, hvalues, hcases⟩ := argumentsWellFormed_cases h
  cases hcases with
  | inl heq =>
    rw [heq, suffixText_values hvalues]
    exact .inr ⟨_, .inr (.inl rfl)⟩
  | inr hlambda =>
    obtain ⟨statements, inner, span, heq⟩ := hlambda
    rw [heq, suffixText_lambda hvalues]
    cases values with
    | nil => cases statements <;> exact .inr ⟨_, .inr (.inr rfl)⟩
    | cons value values => exact .inr ⟨_, .inr (.inl rfl)⟩

theorem continues_append {first second : List Char} (hfirst : ContinuesExpression first)
    (hsecond : ContinuesExpression second) : ContinuesExpression (first ++ second) := by
  cases hfirst with
  | inl hnil => rwa [hnil, List.nil_append]
  | inr hcons =>
    obtain ⟨cs, rfl | rfl | rfl⟩ := hcons
    · exact .inr ⟨_, .inl rfl⟩
    · exact .inr ⟨_, .inr (.inl rfl)⟩
    · exact .inr ⟨_, .inr (.inr rfl)⟩

/-- A member goes on behind the text of its receiver. -/
theorem exists_leadingWord_member {receiver : List Char} (tail : List Char)
    (h : ∃ word others, receiver = word ++ others ∧ LeadingWord word ∧ ContinuesExpression others) :
    ∃ word others, receiver ++ '.' :: tail = word ++ others ∧ LeadingWord word ∧
      ContinuesExpression others := by
  obtain ⟨word, others, rfl, hword, hothers⟩ := h
  exact ⟨word, others ++ '.' :: tail, by simp, hword, continues_append hothers (.inr ⟨_, .inl rfl⟩)⟩

variable (depth) in
theorem exists_leadingWord : (value : Expr) → value.WellFormed →
    ∃ word tail, (value.renderAt depth).toList = word ++ tail ∧ LeadingWord word ∧
      ContinuesExpression tail
  | .property none name _, h =>
    ⟨name.toList, [], by simp [Expr.renderAt], leadingWord_name h.2, .inl rfl⟩
  | .property (some receiver) name _, h => by
    have hmember := exists_leadingWord_member name.toList (exists_leadingWord receiver h.1)
    simpa [Expr.renderAt] using hmember
  | .call none name arguments _, h =>
    ⟨name.toList, _, toList_callText, leadingWord_name h.2.1, continues_suffixText h.2.2⟩
  | .call (some receiver) name arguments _, h => by
    have hmember := exists_leadingWord_member
      (name.toList ++
        suffixText depth (renderValues depth arguments) (renderLambda? depth arguments))
      (exists_leadingWord receiver h.1)
    simpa [Expr.renderAt, toList_callText] using hmember
  | .literal value _, _ =>
    ⟨_, [], by simp [Expr.renderAt], leadingWord_literal value, .inl rfl⟩
  | .null _, _ => ⟨"null".toList, [], by simp [Expr.renderAt], .inl (by decide), .inl rfl⟩
  | .this _, _ => ⟨"this".toList, [], by simp [Expr.renderAt], .inl (by decide), .inl rfl⟩

end ConfigScript
