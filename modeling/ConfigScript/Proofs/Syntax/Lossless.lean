import ConfigScript.Proofs.Syntax.Located
import ConfigScript.Syntax.Codec

/-!
# The written form of a tree is lossless

A tree whose spans fit the written form is read back from it as it was, whatever stands in it. What
is read from any value is such a tree, so writing it and reading it again changes nothing; and so is
what is parsed from a source that is not too long.
-/

namespace ConfigScript

namespace Json

theorem required?_cons {α : Type} {name wanted : String} {value : Json}
    {fields : List (String × Json)} {read : Json → Option α} :
    required? ((name, value) :: fields) wanted read =
      if wanted = name then read value else required? fields wanted read := by
  unfold required?
  rw [List.lookup_cons]
  by_cases heq : wanted = name
  · simp [heq]
  · simp [heq, beq_eq_false_iff_ne.mpr heq]

theorem natBelow?_int {bound natural : Nat} (h : natural < bound) :
    natBelow? bound (.int natural) = some natural :=
  if_pos h

theorem lt_of_natBelow? {bound natural : Nat} {value : Json}
    (h : natBelow? bound value = some natural) : natural < bound := by
  unfold natBelow? at h
  split at h
  · split at h
    · rename_i hlt
      exact Option.some.inj h ▸ hlt
    · cases h
  · cases h

theorem int32?_toInt (value : Int32) : int32? (.int value.toInt) = some value := by
  have hbounds : Int32.minValue.toInt ≤ value.toInt ∧ value.toInt ≤ Int32.maxValue.toInt :=
    ⟨value.minValue_le_toInt, value.toInt_le⟩
  rw [int32?, if_pos hbounds, Int32.ofInt_toInt]

theorem int64?_toInt (value : Int64) : int64? (.int value.toInt) = some value := by
  have hbounds : Int64.minValue.toInt ≤ value.toInt ∧ value.toInt ≤ Int64.maxValue.toInt :=
    ⟨value.minValue_le_toInt, value.toInt_le⟩
  rw [int64?, if_pos hbounds, Int64.ofInt_toInt]

theorem mapM_text? (texts : List String) :
    texts.mapM (text? ∘ Json.string) = some texts := by
  induction texts with
  | nil => rfl
  | cons text texts ih => simp [text?, ih]

end Json

open Json (required?_cons)

/-! ### Reading what was written -/

/-- Whether every span of a tree fits the written form. -/
def Node.Fits (root : Node) : Prop :=
  root.Everywhere fun node => node.span.Fits

theorem Node.fits_iff {root : Node} :
    root.Fits ↔ root.span.Fits ∧ ∀ child ∈ root.children, child.Fits :=
  Node.everywhere_iff

theorem Node.Fits.span_fits {root : Node} (h : root.Fits) : root.span.Fits :=
  (Node.fits_iff.mp h).1

theorem Node.Fits.below {root child : Node} (h : root.Fits) (hchild : child ∈ root.children) :
    child.Fits :=
  (Node.fits_iff.mp h).2 child hchild

theorem Span.ofJson?_toJson {span : Span} (h : span.Fits) :
    Span.ofJson? span.toJson = some span := by
  obtain ⟨hstart, hstop, hline, hcolumn⟩ := h
  simp [Span.ofJson?, Span.toJson, Json.record?, required?_cons, Json.natBelow?_int hstart,
    Json.natBelow?_int hstop, Json.natBelow?_int hline, Json.natBelow?_int hcolumn]

theorem Literal.ofJson?_toJson (literal : Literal) {span : Span} (h : span.Fits) :
    Literal.ofJson? (literal.toJson span) = some (literal, span) := by
  cases literal <;>
    simp [Literal.ofJson?, Literal.toJson, Json.tagged, Literal.constantType, ConstantType.name,
      Literal.content, required?_cons, Span.ofJson?_toJson h, Json.text?, Json.flag?,
      Json.int32?_toInt, Json.int64?_toInt]

theorem receiverField?_null {fields : List (String × Json)} :
    receiverField? (("receiver", .null) :: fields) = some none := by
  simp [receiverField?]

theorem receiverField?_toJson {receiver : Expr} {fields : List (String × Json)}
    (h : Expr.ofJson? receiver.toJson = some receiver) :
    receiverField? (("receiver", receiver.toJson) :: fields) = some (some receiver) := by
  unfold receiverField?
  rw [if_pos rfl]
  split
  · rename_i hnull
    rw [hnull] at h
    simp [Expr.ofJson?] at h
  · rw [h]
    rfl

section Records

variable {receiver : Option Expr} {written : Json} {name : String} {span : Span}
  (hreceiver : ∀ fields, receiverField? (("receiver", written) :: fields) = some receiver)
  (hspan : span.Fits)

include hreceiver hspan

theorem accessOfJson?_accessJson :
    accessOfJson? (accessJson written name span) = some (receiver, name, span) := by
  simp [accessJson, accessOfJson?, hreceiver, required?_cons, Json.text?,
    Span.ofJson?_toJson hspan]

theorem callOfJson?_callJson {items : List Json} {arguments : List Argument}
    (harguments : argumentsOfJson? items = some arguments) :
    callOfJson? (callJson written name items span) =
      some (.call receiver name arguments span) := by
  simp [callJson, callOfJson?, hreceiver, required?_cons, Json.text?, argumentsField?, harguments,
    Span.ofJson?_toJson hspan]

theorem assignmentOfJson?_object {value : Expr} {whole : Span} (hwhole : whole.Fits)
    (hvalue : Expr.ofJson? value.toJson = some value) :
    assignmentOfJson? (.object [("lhs", accessJson written name span), ("rhs", value.toJson),
      ("span", whole.toJson)]) = some (.assignment receiver name span value whole) := by
  simp [assignmentOfJson?, targetField?, accessOfJson?_accessJson hreceiver hspan, exprField?,
    hvalue, required?_cons, Span.ofJson?_toJson hwhole]

end Records

mutual

theorem Expr.ofJson?_toJson (value : Expr) (h : (Node.expr value).Fits) :
    Expr.ofJson? value.toJson = some value := by
  match value with
  | .property none name span =>
    have hspan : span.Fits := h.span_fits
    simp [Expr.toJson, Json.tagged, Expr.ofJson?,
      accessOfJson?_accessJson (fun _ => receiverField?_null) hspan]
  | .property (some receiver) name span =>
    have hspan : span.Fits := h.span_fits
    have hreceiver := receiver.ofJson?_toJson (h.below (by simp [Node.children]))
    simp [Expr.toJson, Json.tagged, Expr.ofJson?,
      accessOfJson?_accessJson (fun _ => receiverField?_toJson hreceiver) hspan]
  | .call none name arguments span =>
    have hspan : span.Fits := h.span_fits
    have harguments := argumentsOfJson?_argumentsJson arguments
      fun argument hargument => h.below (by simpa [Node.children] using hargument)
    simp [Expr.toJson, Json.tagged, Expr.ofJson?,
      callOfJson?_callJson (fun _ => receiverField?_null) hspan harguments]
  | .call (some receiver) name arguments span =>
    have hspan : span.Fits := h.span_fits
    have hreceiver := receiver.ofJson?_toJson (h.below (by simp [Node.children]))
    have harguments := argumentsOfJson?_argumentsJson arguments
      fun argument hargument => h.below (by simp [Node.children, hargument])
    simp [Expr.toJson, Json.tagged, Expr.ofJson?,
      callOfJson?_callJson (fun _ => receiverField?_toJson hreceiver) hspan harguments]
  | .literal literal span =>
    have hspan : span.Fits := h.span_fits
    simp [Expr.toJson, Json.tagged, Expr.ofJson?, literal.ofJson?_toJson hspan]
  | .null span =>
    have hspan : span.Fits := h.span_fits
    simp [Expr.toJson, Json.tagged, Expr.ofJson?, Span.ofJson?_toJson hspan]
  | .this span =>
    have hspan : span.Fits := h.span_fits
    simp [Expr.toJson, Json.tagged, Expr.ofJson?, Span.ofJson?_toJson hspan]

theorem Argument.ofJson?_toJson (argument : Argument) (h : (Node.argument argument).Fits) :
    Argument.ofJson? argument.toJson = some argument := by
  match argument with
  | .positional value span =>
    have hspan : span.Fits := h.span_fits
    have hvalue := value.ofJson?_toJson (h.below (by simp [Node.children]))
    simp [Argument.toJson, Json.tagged, Argument.ofJson?, exprField?, hvalue, required?_cons,
      Span.ofJson?_toJson hspan]
  | .named name value span =>
    have hspan : span.Fits := h.span_fits
    have hvalue := value.ofJson?_toJson (h.below (by simp [Node.children]))
    simp [Argument.toJson, Json.tagged, Argument.ofJson?, exprField?, hvalue, required?_cons,
      Json.text?, Span.ofJson?_toJson hspan]
  | .lambda body span =>
    have hspan : span.Fits := h.span_fits
    have hbody := body.ofJson?_toJson (h.below (by simp [Node.children]))
    simp [Argument.toJson, Json.tagged, Argument.ofJson?, blockField?, hbody, required?_cons,
      Span.ofJson?_toJson hspan]

theorem argumentsOfJson?_argumentsJson (arguments : List Argument)
    (h : ∀ argument ∈ arguments, (Node.argument argument).Fits) :
    argumentsOfJson? (argumentsJson arguments) = some arguments := by
  match arguments with
  | [] => rfl
  | argument :: arguments =>
    obtain ⟨hfirst, hrest⟩ := List.forall_mem_cons.mp h
    simp [argumentsJson, argumentsOfJson?, argument.ofJson?_toJson hfirst,
      argumentsOfJson?_argumentsJson arguments hrest]

theorem Block.ofJson?_toJson (block : Block) (h : (Node.block block).Fits) :
    Block.ofJson? block.toJson = some block := by
  match block with
  | .mk statements span =>
    have hspan : span.Fits := h.span_fits
    have hstatements := statementsOfJson?_statementsJson statements
      fun statement hstatement => h.below (by simpa [Node.children] using hstatement)
    simp [Block.toJson, Block.ofJson?, statementsField?, hstatements, required?_cons,
      Span.ofJson?_toJson hspan]

theorem statementsOfJson?_statementsJson (statements : List Statement)
    (h : ∀ statement ∈ statements, (Node.statement statement).Fits) :
    statementsOfJson? (statementsJson statements) = some statements := by
  match statements with
  | [] => rfl
  | statement :: statements =>
    obtain ⟨hfirst, hrest⟩ := List.forall_mem_cons.mp h
    simp [statementsJson, statementsOfJson?, statement.ofJson?_toJson hfirst,
      statementsOfJson?_statementsJson statements hrest]

theorem Statement.ofJson?_toJson (statement : Statement) (h : (Node.statement statement).Fits) :
    Statement.ofJson? statement.toJson = some statement := by
  match statement with
  | .importName parts span =>
    have hspan : span.Fits := h.span_fits
    simp [Statement.toJson, Json.tagged, Statement.ofJson?, importOfJson?, importPartsOfJson?,
      Json.record?, required?_cons, Json.items?, Json.mapM_text?, Span.ofJson?_toJson hspan]
  | .assignment none name target value span =>
    have hspan : span.Fits := h.span_fits
    have hvalue := value.ofJson?_toJson (h.below (by simp [Node.children]))
    have htarget : target.Fits :=
      (@Node.Fits.below _ (.expr (.property none name target)) h (by simp [Node.children])).span_fits
    simp [Statement.toJson, Json.tagged, Statement.ofJson?,
      assignmentOfJson?_object (fun _ => receiverField?_null) htarget hspan hvalue]
  | .assignment (some receiver) name target value span =>
    have hspan : span.Fits := h.span_fits
    have hvalue := value.ofJson?_toJson (h.below (by simp [Node.children]))
    have haccess : (Node.expr (.property (some receiver) name target)).Fits :=
      h.below (by simp [Node.children])
    have htarget : target.Fits := haccess.span_fits
    have hreceiver := receiver.ofJson?_toJson (haccess.below (by simp [Node.children]))
    simp [Statement.toJson, Json.tagged, Statement.ofJson?,
      assignmentOfJson?_object (fun _ => receiverField?_toJson hreceiver) htarget hspan hvalue]
  | .localValue name value span =>
    have hspan : span.Fits := h.span_fits
    have hvalue := value.ofJson?_toJson (h.below (by simp [Node.children]))
    simp [Statement.toJson, Json.tagged, Statement.ofJson?, localValueOfJson?, exprField?, hvalue,
      required?_cons, Json.text?, Span.ofJson?_toJson hspan]
  | .expr value =>
    have hvalue := value.ofJson?_toJson (h.below (by simp [Node.children]))
    simp [Statement.toJson, Json.tagged, Statement.ofJson?, hvalue]

end

/-! ### What is read fits -/

theorem Json.of_required? {α : Type} {P : α → Prop} {fields : List (String × Json)}
    {name : String} {read : Json → Option α}
    (hread : ∀ value result, read value = some result → P result) {result : α}
    (h : Json.required? fields name read = some result) : P result := by
  obtain ⟨value, -, hvalue⟩ := Option.bind_eq_some_iff.mp h
  exact hread value result hvalue

theorem Span.fits_of_ofJson? (value : Json) (span : Span) (h : Span.ofJson? value = some span) :
    span.Fits := by
  simp only [Span.ofJson?, Option.bind_eq_bind, Option.bind_eq_some_iff, Option.pure_def,
    Option.some.injEq] at h
  obtain ⟨fields, -, start, hstart, stop, hstop, line, hline, column, hcolumn, rfl⟩ := h
  have hbelow : ∀ bound value natural, Json.natBelow? bound value = some natural →
      natural < bound := fun bound value natural => Json.lt_of_natBelow?
  exact ⟨Json.of_required? (hbelow _) hstart, Json.of_required? (hbelow _) hstop,
    Json.of_required? (hbelow _) hline, Json.of_required? (hbelow _) hcolumn⟩

theorem Literal.fits_of_ofJson? {value : Json} {literal : Literal} {span : Span}
    (h : Literal.ofJson? value = some (literal, span)) : span.Fits := by
  have hspan : ∀ {fields : List (String × Json)} {read : Option Literal},
      (do let literal ← read
          let span ← Json.required? fields "span" Span.ofJson?
          return (literal, span)) = some (literal, span) → span.Fits := by
    intro fields read hread
    simp only [Option.bind_eq_bind, Option.bind_eq_some_iff, Option.pure_def, Option.some.injEq,
      Prod.mk.injEq] at hread
    obtain ⟨_, -, _, hspan, -, rfl⟩ := hread
    exact Json.of_required? Span.fits_of_ofJson? hspan
  unfold Literal.ofJson? at h
  split at h
  · split_ifs at h <;> exact hspan h
  · cases h

/-- Whether a node is read from some value. -/
def Node.Decoded : Node → Prop
  | .expr value => ∃ written, Expr.ofJson? written = some value
  | .argument value => ∃ written, Argument.ofJson? written = some value
  | .block value => ∃ written, Block.ofJson? written = some value
  | .statement value => ∃ written, Statement.ofJson? written = some value

theorem receiverField?_decoded {fields : List (String × Json)} {receiver : Option Expr}
    (h : receiverField? fields = some receiver) :
    ∀ value ∈ receiver, (Node.expr value).Decoded := by
  induction fields with
  | nil =>
    obtain rfl := Option.some.inj h
    simp
  | cons field fields ih =>
    unfold receiverField? at h
    split_ifs at h
    · split at h
      · obtain rfl := Option.some.inj h
        simp
      · obtain ⟨value, hvalue, rfl⟩ := Option.map_eq_some_iff.mp h
        rintro _ ⟨⟩
        exact ⟨_, hvalue⟩
    · exact ih h

theorem exprField?_decoded {wanted : String} {fields : List (String × Json)} {value : Expr}
    (h : exprField? wanted fields = some value) : (Node.expr value).Decoded := by
  induction fields with
  | nil => cases h
  | cons field fields ih =>
    unfold exprField? at h
    split_ifs at h
    · exact ⟨_, h⟩
    · exact ih h

theorem blockField?_decoded {fields : List (String × Json)} {block : Block}
    (h : blockField? fields = some block) : (Node.block block).Decoded := by
  induction fields with
  | nil => cases h
  | cons field fields ih =>
    unfold blockField? at h
    split_ifs at h
    · exact ⟨_, h⟩
    · exact ih h

theorem argumentsOfJson?_decoded {items : List Json} {arguments : List Argument}
    (h : argumentsOfJson? items = some arguments) :
    ∀ argument ∈ arguments, (Node.argument argument).Decoded := by
  induction items generalizing arguments with
  | nil =>
    obtain rfl := Option.some.inj h
    simp
  | cons item items ih =>
    simp only [argumentsOfJson?, Option.bind_eq_bind, Option.bind_eq_some_iff, Option.pure_def,
      Option.some.injEq] at h
    obtain ⟨argument, hargument, rest, hrest, rfl⟩ := h
    exact List.forall_mem_cons.mpr ⟨⟨_, hargument⟩, ih hrest⟩

theorem argumentsField?_decoded {fields : List (String × Json)} {arguments : List Argument}
    (h : argumentsField? fields = some arguments) :
    ∀ argument ∈ arguments, (Node.argument argument).Decoded := by
  induction fields with
  | nil => cases h
  | cons field fields ih =>
    unfold argumentsField? at h
    split_ifs at h
    · split at h
      · exact argumentsOfJson?_decoded h
      · cases h
    · exact ih h

theorem statementsOfJson?_decoded {items : List Json} {statements : List Statement}
    (h : statementsOfJson? items = some statements) :
    ∀ statement ∈ statements, (Node.statement statement).Decoded := by
  induction items generalizing statements with
  | nil =>
    obtain rfl := Option.some.inj h
    simp
  | cons item items ih =>
    simp only [statementsOfJson?, Option.bind_eq_bind, Option.bind_eq_some_iff, Option.pure_def,
      Option.some.injEq] at h
    obtain ⟨statement, hstatement, rest, hrest, rfl⟩ := h
    exact List.forall_mem_cons.mpr ⟨⟨_, hstatement⟩, ih hrest⟩

theorem statementsField?_decoded {fields : List (String × Json)} {statements : List Statement}
    (h : statementsField? fields = some statements) :
    ∀ statement ∈ statements, (Node.statement statement).Decoded := by
  induction fields with
  | nil => cases h
  | cons field fields ih =>
    unfold statementsField? at h
    split_ifs at h
    · split at h
      · exact statementsOfJson?_decoded h
      · cases h
    · exact ih h

theorem accessOfJson?_decoded {written : Json} {receiver : Option Expr} {name : String}
    {span : Span} (h : accessOfJson? written = some (receiver, name, span)) :
    span.Fits ∧ ∀ value ∈ receiver, (Node.expr value).Decoded := by
  unfold accessOfJson? at h
  split at h <;> simp only [Option.bind_eq_bind, Option.bind_eq_some_iff, Option.pure_def,
    Option.some.injEq, Prod.mk.injEq, reduceCtorEq] at h
  · obtain ⟨receiver, hreceiver, _, -, _, hspan, rfl, -, rfl⟩ := h
    exact ⟨Json.of_required? Span.fits_of_ofJson? hspan, receiverField?_decoded hreceiver⟩
  · obtain ⟨_, -, _, hspan, rfl, -, rfl⟩ := h
    exact ⟨Span.fits_of_ofJson? _ _ hspan, by simp⟩
  · obtain ⟨value, hvalue, _, -, _, hspan, rfl, -, rfl⟩ := h
    refine ⟨Span.fits_of_ofJson? _ _ hspan, ?_⟩
    rintro _ ⟨⟩
    exact ⟨_, hvalue⟩

theorem callOfJson?_decoded {written : Json} {value : Expr} (h : callOfJson? written = some value) :
    (Node.expr value).span.Fits ∧ ∀ child ∈ (Node.expr value).children, child.Decoded := by
  unfold callOfJson? at h
  split at h <;> simp only [Option.bind_eq_bind, Option.bind_eq_some_iff, Option.pure_def,
    Option.some.injEq, reduceCtorEq] at h
  · obtain ⟨receiver, hreceiver, _, -, arguments, harguments, _, hspan, rfl⟩ := h
    refine ⟨Json.of_required? Span.fits_of_ofJson? hspan, ?_⟩
    simpa [Node.children, or_imp, forall_and] using
      ⟨receiverField?_decoded hreceiver, argumentsField?_decoded harguments⟩
  · obtain ⟨_, -, arguments, harguments, _, hspan, rfl⟩ := h
    refine ⟨Span.fits_of_ofJson? _ _ hspan, ?_⟩
    simpa [Node.children] using argumentsOfJson?_decoded harguments
  · obtain ⟨receiver, hreceiver, _, -, arguments, harguments, _, hspan, rfl⟩ := h
    refine ⟨Span.fits_of_ofJson? _ _ hspan, ?_⟩
    simpa [Node.children, or_imp, forall_and] using
      ⟨⟨_, hreceiver⟩, argumentsOfJson?_decoded harguments⟩

theorem ofJson?_tagged_access {written : Json} {receiver : Option Expr} {name : String}
    {span : Span} (h : accessOfJson? written = some (receiver, name, span)) :
    Expr.ofJson? (.tagged "PropertyAccess" written) = some (.property receiver name span) := by
  simp [Json.tagged, Expr.ofJson?, h]

theorem targetField?_decoded {fields : List (String × Json)} {receiver : Option Expr}
    {name : String} {span : Span} (h : targetField? fields = some (receiver, name, span)) :
    (Node.expr (.property receiver name span)).Decoded := by
  induction fields with
  | nil => cases h
  | cons field fields ih =>
    unfold targetField? at h
    split_ifs at h
    · exact ⟨_, ofJson?_tagged_access h⟩
    · exact ih h

theorem assignmentOfJson?_decoded {written : Json} {statement : Statement}
    (h : assignmentOfJson? written = some statement) :
    statement.span.Fits ∧ ∀ child ∈ (Node.statement statement).children, child.Decoded := by
  unfold assignmentOfJson? at h
  split at h <;> simp only [Option.bind_eq_bind, Option.bind_eq_some_iff, Option.pure_def,
    Option.some.injEq, reduceCtorEq] at h
  · obtain ⟨⟨receiver, name, target⟩, htarget, value, hvalue, _, hspan, rfl⟩ := h
    refine ⟨Json.of_required? Span.fits_of_ofJson? hspan, ?_⟩
    simpa [Node.children] using ⟨targetField?_decoded htarget, exprField?_decoded hvalue⟩
  · obtain ⟨⟨receiver, name, target⟩, htarget, value, hvalue, _, hspan, rfl⟩ := h
    refine ⟨Span.fits_of_ofJson? _ _ hspan, ?_⟩
    have haccess : (Node.expr (.property receiver name target)).Decoded :=
      ⟨_, ofJson?_tagged_access htarget⟩
    simpa [Node.children] using ⟨haccess, ⟨_, hvalue⟩⟩

theorem localValueOfJson?_decoded {written : Json} {statement : Statement}
    (h : localValueOfJson? written = some statement) :
    statement.span.Fits ∧ ∀ child ∈ (Node.statement statement).children, child.Decoded := by
  unfold localValueOfJson? at h
  split at h <;> simp only [Option.bind_eq_bind, Option.bind_eq_some_iff, Option.pure_def,
    Option.some.injEq, reduceCtorEq] at h
  · obtain ⟨_, -, value, hvalue, _, hspan, rfl⟩ := h
    refine ⟨Json.of_required? Span.fits_of_ofJson? hspan, ?_⟩
    simpa [Node.children] using exprField?_decoded hvalue
  · obtain ⟨_, -, value, hvalue, _, hspan, rfl⟩ := h
    refine ⟨Span.fits_of_ofJson? _ _ hspan, ?_⟩
    simpa [Node.children] using ⟨_, hvalue⟩

theorem Expr.below_of_ofJson? {written : Json} {value : Expr}
    (h : Expr.ofJson? written = some value) :
    value.span.Fits ∧ ∀ child ∈ (Node.expr value).children, child.Decoded := by
  unfold Expr.ofJson? at h
  split at h
  · split_ifs at h
    · simp only [Option.bind_eq_bind, Option.bind_eq_some_iff, Option.pure_def,
        Option.some.injEq] at h
      obtain ⟨⟨receiver, name, span⟩, haccess, rfl⟩ := h
      obtain ⟨hspan, hreceiver⟩ := accessOfJson?_decoded haccess
      exact ⟨hspan, by simpa [Node.children] using hreceiver⟩
    · exact callOfJson?_decoded h
    · simp only [Option.bind_eq_bind, Option.bind_eq_some_iff, Option.pure_def,
        Option.some.injEq] at h
      obtain ⟨⟨literal, span⟩, hliteral, rfl⟩ := h
      exact ⟨Literal.fits_of_ofJson? hliteral, by simp [Node.children]⟩
    all_goals
      obtain ⟨span, hspan, rfl⟩ := Option.map_eq_some_iff.mp h
      exact ⟨Span.fits_of_ofJson? _ _ hspan, by simp [Node.children]⟩
  · cases h

theorem Argument.below_of_ofJson? {written : Json} {argument : Argument}
    (h : Argument.ofJson? written = some argument) :
    argument.span.Fits ∧ ∀ child ∈ (Node.argument argument).children, child.Decoded := by
  unfold Argument.ofJson? at h
  split at h
  · split_ifs at h <;> simp only [Option.bind_eq_bind, Option.bind_eq_some_iff, Option.pure_def,
      Option.some.injEq] at h
    · obtain ⟨value, hvalue, _, hspan, rfl⟩ := h
      refine ⟨Json.of_required? Span.fits_of_ofJson? hspan, ?_⟩
      simpa [Node.children] using exprField?_decoded hvalue
    · obtain ⟨_, -, value, hvalue, _, hspan, rfl⟩ := h
      refine ⟨Json.of_required? Span.fits_of_ofJson? hspan, ?_⟩
      simpa [Node.children] using exprField?_decoded hvalue
    · obtain ⟨body, hbody, _, hspan, rfl⟩ := h
      refine ⟨Json.of_required? Span.fits_of_ofJson? hspan, ?_⟩
      simpa [Node.children] using blockField?_decoded hbody
  · cases h

theorem Block.below_of_ofJson? {written : Json} {block : Block}
    (h : Block.ofJson? written = some block) :
    block.span.Fits ∧ ∀ child ∈ (Node.block block).children, child.Decoded := by
  unfold Block.ofJson? at h
  split at h <;> simp only [Option.bind_eq_bind, Option.bind_eq_some_iff, Option.pure_def,
    Option.some.injEq, reduceCtorEq] at h
  · obtain ⟨statements, hstatements, _, hspan, rfl⟩ := h
    refine ⟨Json.of_required? Span.fits_of_ofJson? hspan, ?_⟩
    simpa [Node.children] using statementsField?_decoded hstatements
  · obtain ⟨statements, hstatements, _, hspan, rfl⟩ := h
    refine ⟨Span.fits_of_ofJson? _ _ hspan, ?_⟩
    simpa [Node.children] using statementsOfJson?_decoded hstatements

theorem importOfJson?_decoded {written : Json} {statement : Statement}
    (h : importOfJson? written = some statement) :
    statement.span.Fits ∧ ∀ child ∈ (Node.statement statement).children, child.Decoded := by
  simp only [importOfJson?, Option.bind_eq_bind, Option.bind_eq_some_iff, Option.pure_def,
    Option.some.injEq] at h
  obtain ⟨_, -, parts, -, span, hspan, rfl⟩ := h
  exact ⟨Json.of_required? Span.fits_of_ofJson? hspan, by simp [Node.children]⟩

theorem Statement.below_of_ofJson? {written : Json} {statement : Statement}
    (h : Statement.ofJson? written = some statement) :
    statement.span.Fits ∧ ∀ child ∈ (Node.statement statement).children, child.Decoded := by
  unfold Statement.ofJson? at h
  split at h
  · split_ifs at h
    · exact importOfJson?_decoded h
    · exact assignmentOfJson?_decoded h
    · exact localValueOfJson?_decoded h
    · obtain ⟨value, hvalue, rfl⟩ := Option.map_eq_some_iff.mp h
      have hdecoded : (Node.expr value).Decoded := ⟨_, hvalue⟩
      exact ⟨(Expr.below_of_ofJson? hvalue).1, by simpa [Node.children] using hdecoded⟩
  · cases h

theorem Node.Decoded.below {node : Node} (h : node.Decoded) :
    node.span.Fits ∧ ∀ child ∈ node.children, child.Decoded := by
  cases node with
  | expr value => exact Expr.below_of_ofJson? h.choose_spec
  | argument value => exact Argument.below_of_ofJson? h.choose_spec
  | block value => exact Block.below_of_ofJson? h.choose_spec
  | statement value => exact Statement.below_of_ofJson? h.choose_spec

theorem Node.Decoded.fits {root : Node} (h : root.Decoded) : root.Fits := by
  intro node hnode
  have hdecoded : node.Decoded := by
    induction hnode with
    | refl => exact h
    | tail _ hchild ih => exact ih.below.2 _ hchild
  exact hdecoded.below.1

/-- A tree that was parsed is read back from its written form, unless its source is so long that
the numbers of the written form cannot tell all its places. -/
theorem Block.ofJson?_of_parse {label source : String} {block : Block}
    (hparse : Block.parse label source = .ok block) (hlength : source.length + 1 < UInt32.size) :
    Block.ofJson? block.toJson = some block := by
  have hfits : (Node.block block).Fits := ((located_block label source).fits hlength).1 block hparse
  exact block.ofJson?_toJson hfits

/-- Every tree whose spans fit is read back from its written form; and whatever a value is read as
is such a tree, so it is read back as well. -/
theorem Block.lossless :
    (∀ block, (Node.block block).Fits → Block.ofJson? block.toJson = some block) ∧
      ∀ written block, Block.ofJson? written = some block →
        (Node.block block).Fits ∧ Block.ofJson? block.toJson = some block := by
  refine ⟨Block.ofJson?_toJson, fun written block h => ?_⟩
  have hdecoded : (Node.block block).Decoded := ⟨written, h⟩
  have hfits := hdecoded.fits
  exact ⟨hfits, block.ofJson?_toJson hfits⟩

/-- A call that no script spells: of a name that is no identifier, with the least number that an
argument can be and with two blocks, one of them at the last place that a span can tell. -/
def twoBlocks : Block :=
  let last : Span := ⟨UInt64.size - 1, UInt64.size - 1, UInt32.size - 1, UInt32.size - 1⟩
  .mk [.expr (.call (some (.this .blank)) "no name\n" [.positional (.literal (.int Int32.minValue)
    .blank) .blank, .lambda (.mk [] .blank) .blank, .lambda (.mk [] last) last] .blank)] .blank

/-- A block that holds a property access, written without its receiver and with a note that its
record does not know. -/
def notedBlock : Json :=
  .object [("note", .fraction 1 2), ("statements", .array [.tagged "Expr" (.tagged "PropertyAccess"
    (.object [("span", Span.blank.toJson), ("name", .string "size")]))]),
    ("span", Span.blank.toJson)]

theorem Block.lossless_odd :
    Block.ofJson? twoBlocks.toJson = some twoBlocks ∧
      ∃ block, Block.ofJson? notedBlock = some block ∧ Block.ofJson? block.toJson = some block := by
  have hleaf : ∀ node : Node, node.span.Fits → node.children = [] → node.Fits :=
    fun node hspan hnone => Node.fits_iff.mpr ⟨hspan, by simp [hnone]⟩
  have hlambda : ∀ span : Span, span.Fits → (Node.argument (.lambda (.mk [] span) span)).Fits :=
    fun span hspan => Node.fits_iff.mpr
      ⟨hspan, by simpa [Node.children] using hleaf (.block (.mk [] span)) hspan rfl⟩
  have hnumber :
      (Node.argument (.positional (.literal (.int Int32.minValue) .blank) .blank)).Fits :=
    Node.fits_iff.mpr ⟨by decide, by simpa [Node.children] using hleaf _ (by decide) rfl⟩
  have hfits : (Node.block twoBlocks).Fits := by
    refine Node.fits_iff.mpr ⟨by decide, List.forall_mem_singleton.mpr ?_⟩
    refine Node.fits_iff.mpr ⟨by decide, List.forall_mem_singleton.mpr ?_⟩
    refine Node.fits_iff.mpr ⟨by decide, ?_⟩
    simp only [Node.children, Option.toList, List.map, List.cons_append, List.nil_append,
      List.forall_mem_cons]
    exact ⟨hleaf _ (by decide) rfl, hnumber, hlambda _ (by decide), hlambda _ (by decide), by simp⟩
  have hnoted : Block.ofJson? notedBlock =
      some (.mk [.expr (.property none "size" .blank)] .blank) := by
    rfl
  exact ⟨Block.lossless.1 twoBlocks hfits, _, hnoted, (Block.lossless.2 _ _ hnoted).2⟩

end ConfigScript
