import ConfigScript.Proofs.Resolution.Framed
import ConfigScript.Proofs.Resolution.Soundness
import ConfigScript.Proofs.Schema.Upcast

/-!
# Overloads have no order

The functions of one name, and the constructors of a class, stand in some order, but a call is not
decided by it: a function is chosen when it is the only one that accepts the call, and what is
reported otherwise counts those that do. Schemas that list their overloads in different orders hence
resolve every script alike, however deep in it a call stands.
-/

namespace ConfigScript

/-- The same class but for the order of its functions and of its constructors. -/
structure DataClass.Shuffles (dataClass other : DataClass) : Prop where
  name : dataClass.name = other.name
  supertypes : dataClass.supertypes = other.supertypes
  properties : dataClass.properties = other.properties
  functions : dataClass.functions.Perm other.functions
  constructors : dataClass.constructors.Perm other.constructors

/-- The same schema but for the order of the functions and of the constructors in its classes. -/
structure Schema.Shuffles (schema other : Schema) : Prop where
  receiver : schema.receiver = other.receiver
  classes : ∀ name, Option.Rel DataClass.Shuffles (schema.classes.find? name)
    (other.classes.find? name)
  functions : schema.functions = other.functions
  objects : schema.objects = other.objects
  defaultImports : schema.defaultImports = other.defaultImports
  lambdaStyle : schema.lambdaStyle = other.lambdaStyle

/-! ### One call -/

namespace Candidate

/-- What each of the functions that a call may mean says to it. -/
abbrev Outcomes := List (Candidate × Except Mismatch Assignment)

/-- The functions that accept the call. -/
def accepting (outcomes : Outcomes) : List (Candidate × Assignment) :=
  outcomes.filterMap fun (candidate, outcome) =>
    outcome.toOption.map fun assignment => (candidate, assignment)

/-- What becomes of a call that no function accepts. -/
def refusal (name : String) (outcomes : Outcomes) :
    Except Diagnostic.Cause (Candidate × Assignment) :=
  if outcomes.all fun (_, outcome) => outcome matches .error .unexpectedBlock then
    .error (.unexpectedBlock name)
  else
    match outcomes with
    | [(_, .error mismatch)] => .error (.inapplicable name mismatch)
    | _ => .error (.noneApplicable name)

/-- What becomes of a call. -/
def verdict (name : String) (outcomes : Outcomes) :
    Except Diagnostic.Cause (Candidate × Assignment) :=
  match accepting outcomes, outcomes with
  | [choice], _ => .ok choice
  | _ :: _ :: _, _ => .error (.ambiguousCall name (accepting outcomes).length)
  | [], outcomes => refusal name outcomes

variable {outcomes others : Outcomes} {name : String}

theorem refusal_perm (h : outcomes.Perm others) : refusal name outcomes = refusal name others := by
  have hall : (outcomes.all fun (_, outcome) => outcome matches .error .unexpectedBlock) =
      others.all fun (_, outcome) => outcome matches .error .unexpectedBlock :=
    h.all_eq
  have hlength := h.length_eq
  unfold refusal
  rw [hall]
  -- A single refusal stands in one order only, and of several none is told apart.
  rcases outcomes with _ | ⟨outcome, _ | ⟨second, rest⟩⟩
  · obtain rfl := h.nil_eq
    rfl
  · obtain rfl := List.singleton_perm.mp h
    rfl
  · rcases others with _ | ⟨other, _ | ⟨third, later⟩⟩
    · cases hlength
    · cases hlength
    · simp only

theorem verdict_perm (h : outcomes.Perm others) : verdict name outcomes = verdict name others := by
  have haccepting : (accepting outcomes).Perm (accepting others) := h.filterMap _
  have hlength := haccepting.length_eq
  unfold verdict
  generalize accepting outcomes = first at haccepting hlength ⊢
  generalize accepting others = second at haccepting hlength ⊢
  rcases first with _ | ⟨choice, _ | ⟨other, rest⟩⟩
  · obtain rfl := haccepting.nil_eq
    exact refusal_perm h
  · obtain rfl := List.singleton_perm.mp haccepting
    rfl
  · rcases second with _ | ⟨third, _ | ⟨fourth, later⟩⟩
    · cases hlength
    · cases hlength
    · simp only [hlength]

end Candidate

theorem selectCandidate_eq_verdict {schema : Schema} {name : String} {candidates : List Candidate}
    {arguments : List GivenArgument} {hasBlock : Bool} :
    selectCandidate schema name candidates arguments hasBlock =
      Candidate.verdict name (candidates.map fun candidate =>
        (candidate, candidate.accept schema arguments hasBlock)) :=
  rfl

/-! ### Two schemas -/

namespace Schema.Shuffles

variable {schema other : Schema} (h : schema.Shuffles other)

include h

/-- Either schema has a class of a name when the other one has. -/
theorem class_cases (name : QualifiedName) :
    schema.classes.find? name = none ∧ other.classes.find? name = none ∨
      ∃ dataClass shuffled, schema.classes.find? name = some dataClass ∧
        other.classes.find? name = some shuffled ∧ dataClass.Shuffles shuffled := by
  have hclass := h.classes name
  revert hclass
  generalize schema.classes.find? name = first
  generalize other.classes.find? name = second
  rintro (hclass | _)
  · exact .inr ⟨_, _, rfl, rfl, hclass⟩
  · exact .inl ⟨rfl, rfl⟩

theorem declares (name : QualifiedName) : schema.declares name = other.declares name := by
  have hclass : schema.classes.contains name = other.classes.contains name := by
    unfold NameMap.contains
    obtain ⟨hfirst, hsecond⟩ | ⟨dataClass, shuffled, hfirst, hsecond, -⟩ := h.class_cases name
    · rw [hfirst, hsecond]
    · rw [hfirst, hsecond]
      rfl
  rw [Schema.declares, Schema.declares, hclass, h.functions, h.objects]

theorem imported? (parts : List String) : schema.imported? parts = other.imported? parts := by
  unfold Schema.imported?
  simp only [h.declares]

theorem supertypesOf : schema.supertypesOf = other.supertypesOf := by
  funext name
  unfold Schema.supertypesOf
  obtain ⟨hfirst, hsecond⟩ | ⟨dataClass, shuffled, hfirst, hsecond, hclass⟩ := h.class_cases name
  · rw [hfirst, hsecond]
  · rw [hfirst, hsecond]
    exact congrArg NameSet.names hclass.supertypes

theorem isAssignable (target source : TypeRef) :
    schema.isAssignable target source = other.isAssignable target source := by
  have hsubtype : ∀ sub sup, schema.isSubtype sub sup = other.isSubtype sub sup := by
    intro sub sup
    rw [Bool.eq_iff_iff, isSubtype_iff, isSubtype_iff, h.supertypesOf]
  unfold Schema.isAssignable
  simp only [hsubtype]

theorem property? (type : QualifiedName) (name : String) :
    (schema.classes.find? type).bind (·.property? name) =
      (other.classes.find? type).bind (·.property? name) := by
  obtain ⟨hfirst, hsecond⟩ | ⟨dataClass, shuffled, hfirst, hsecond, hclass⟩ := h.class_cases type
  · rw [hfirst, hsecond]
  · rw [hfirst, hsecond]
    simp only [Option.bind_some, DataClass.property?, hclass.properties]

theorem memberCandidates (owner : QualifiedName) (name : String) :
    (schema.memberCandidates owner name).Perm (other.memberCandidates owner name) := by
  unfold Schema.memberCandidates
  obtain ⟨hfirst, hsecond⟩ | ⟨dataClass, shuffled, hfirst, hsecond, hclass⟩ := h.class_cases owner
  · rw [hfirst, hsecond]
  · rw [hfirst, hsecond]
    exact (hclass.functions.filter _).map _

theorem packageCandidates (name : QualifiedName) :
    (schema.packageCandidates name).Perm (other.packageCandidates name) := by
  unfold Schema.packageCandidates
  rw [h.functions]
  cases other.functions.find? name with
  | some function => exact .refl _
  | none =>
    obtain ⟨hfirst, hsecond⟩ | ⟨dataClass, shuffled, hfirst, hsecond, hclass⟩ := h.class_cases name
    · rw [hfirst, hsecond]
    · rw [hfirst, hsecond]
      exact hclass.constructors.map _

theorem accept (candidate : Candidate) (arguments : List GivenArgument) (hasBlock : Bool) :
    candidate.accept schema arguments hasBlock = candidate.accept other arguments hasBlock := by
  unfold Candidate.accept Assignment.checkSlot
  simp only [h.isAssignable]

theorem selectCandidate {candidates reordered : List Candidate}
    (hperm : candidates.Perm reordered) (name : String) (arguments : List GivenArgument)
    (hasBlock : Bool) :
    ConfigScript.selectCandidate schema name candidates arguments hasBlock =
      ConfigScript.selectCandidate other name reordered arguments hasBlock := by
  simp only [selectCandidate_eq_verdict, h.accept]
  exact Candidate.verdict_perm (hperm.map _)

theorem registerAll (undeclared : UndeclaredImports) (imports : Imports)
    (names : List (List String × Span)) :
    imports.registerAll schema undeclared names = imports.registerAll other undeclared names := by
  induction names generalizing imports with
  | nil => rfl
  | cons name names ih =>
    unfold Imports.registerAll Imports.register
    simp only [h.imported?, ih]

end Schema.Shuffles

/-! ### Attempts that differ in an order -/

namespace Attempt

variable {α β : Type} {related : α → α → Prop}

/-- Attempts that report the same and come to related values, if to any. -/
structure Related (related : α → α → Prop) (first second : Attempt α) : Prop where
  result : Option.Rel related first.result second.result
  diagnostics : first.diagnostics = second.diagnostics

theorem related_pure {value other : α} (h : related value other) :
    Related related (pure value) (pure other) :=
  ⟨.some h, rfl⟩

theorem related_fail {cause : Diagnostic.Cause} {span : Span} :
    Related related (fail cause span) (fail cause span) :=
  ⟨.none, rfl⟩

theorem related_refl (attempt : Attempt α) : Related Eq attempt attempt := by
  obtain ⟨_ | value, diagnostics⟩ := attempt
  · exact ⟨.none, rfl⟩
  · exact ⟨.some rfl, rfl⟩

theorem Related.eq {first second : Attempt α} (h : Related Eq first second) : first = second := by
  obtain ⟨result, diagnostics⟩ := first
  obtain ⟨other, reported⟩ := second
  obtain ⟨hresult, rfl⟩ := h
  cases hresult with
  | none => rfl
  | some hvalue => rw [hvalue]

theorem Related.bind {first second : Attempt α} (h : Related related first second)
    {among : β → β → Prop} {next later : α → Attempt β}
    (hnext : ∀ value other, related value other → Related among (next value) (later other)) :
    Related among (first >>= next) (second >>= later) := by
  obtain ⟨result, diagnostics⟩ := first
  obtain ⟨other, reported⟩ := second
  obtain ⟨hresult, rfl⟩ := h
  cases hresult with
  | none => exact ⟨.none, rfl⟩
  | some hvalue =>
    obtain ⟨hresult, hdiagnostics⟩ := hnext _ _ hvalue
    rw [bind_of_some rfl, bind_of_some rfl, hdiagnostics]
    exact ⟨hresult, rfl⟩

theorem Related.bind_eq {first second : Attempt α} (h : Related related first second)
    {next later : α → Attempt β}
    (hnext : ∀ value other, related value other → next value = later other) :
    first >>= next = second >>= later := by
  apply Related.eq
  apply h.bind
  intro value other hvalue
  rw [hnext value other hvalue]
  exact related_refl _

end Attempt

namespace Environment

open Attempt

/-- The same place of a script that is resolved against another schema. -/
def against (environment : Environment) (other : Schema) : Environment :=
  { environment with schema := other }

variable {environment : Environment} {other : Schema} {name : String} {span : Span}

theorem enter_against {receiver : QualifiedName} :
    (environment.against other).enter receiver = (environment.enter receiver).against other :=
  rfl

theorem after_against {result : Option Operation} {statement : Statement} :
    (environment.against other).after result statement =
      (environment.after result statement).against other := by
  cases statement <;> rfl

section Lookup

variable (h : environment.schema.Shuffles other)

include h

theorem receiverProperty?_against :
    (environment.against other).receiverProperty? name span =
      environment.receiverProperty? name span := by
  unfold receiverProperty?
  congr 1
  funext ⟨depth, type⟩
  have hproperty := h.property? type name
  change ((other.classes.find? type).bind fun dataClass => (dataClass.property? name).bind _) =
    (environment.schema.classes.find? type).bind fun dataClass => (dataClass.property? name).bind _
  rw [← Option.bind_assoc, ← Option.bind_assoc, hproperty]

theorem readName_against :
    (environment.against other).readName name span = environment.readName name span := by
  unfold readName importedObject?
  rw [receiverProperty?_against h]
  simp only [against, local?, h.objects]

theorem memberProperty_against (receiver : TypedExpr) :
    (environment.against other).memberProperty receiver name span =
      environment.memberProperty receiver name span := by
  have hproperty : ∀ type : TypeRef,
      (type.className?.bind other.classes.find?).bind (·.property? name) =
        (type.className?.bind environment.schema.classes.find?).bind (·.property? name) := by
    intro type
    cases type.className? with
    | none => rfl
    | some type => exact (h.property? type name).symm
  unfold memberProperty
  simp only [against, hproperty]

theorem assignedProperty_against (receiver : Option TypedExpr) :
    (environment.against other).assignedProperty receiver name span =
      environment.assignedProperty receiver name span := by
  have hname : (environment.against other).assignedName name span =
      environment.assignedName name span := by
    unfold assignedName
    rw [receiverProperty?_against h]
    rfl
  unfold assignedProperty
  simp only [hname, memberProperty_against h]

/-- Two readings of one call: through the same object, the functions in whatever order. -/
def SameFunctions {α : Type} (first second : α × List Candidate) : Prop :=
  first.1 = second.1 ∧ first.2.Perm second.2

theorem receiverFunctions?_against :
    Option.Rel SameFunctions (environment.receiverFunctions? name span)
      ((environment.against other).receiverFunctions? name span) := by
  unfold receiverFunctions?
  change Option.Rel SameFunctions _ ((Scope.receivers environment.scopes).findSome? _)
  induction Scope.receivers environment.scopes with
  | nil => exact .none
  | cons receiver receivers ih =>
    obtain ⟨depth, type⟩ := receiver
    have hperm := h.memberCandidates type name
    rw [List.findSome?_cons, List.findSome?_cons]
    dsimp only [against]
    generalize environment.schema.memberCandidates type name = candidates at hperm ⊢
    generalize other.memberCandidates type name = reordered at hperm ⊢
    cases candidates with
    | nil =>
      obtain rfl := hperm.nil_eq
      exact ih
    | cons first rest =>
      cases reordered with
      | nil => cases hperm.length_eq
      | cons second later => exact .some ⟨rfl, hperm⟩

theorem namedFunctions_against (receiver : Option TypedExpr) :
    Related SameFunctions (environment.namedFunctions receiver name span)
      ((environment.against other).namedFunctions receiver name span) := by
  cases receiver with
  | some receiver =>
    apply (related_refl (memberOwner receiver span)).bind
    rintro owner _ rfl
    refine related_pure ⟨rfl, ?_⟩
    cases owner.className? with
    | none => exact .nil
    | some type => exact h.memberCandidates type name
  | none =>
    unfold namedFunctions
    dsimp only
    have hfunctions := @receiverFunctions?_against environment other name span h
    revert hfunctions
    generalize environment.receiverFunctions? name span = first
    generalize (environment.against other).receiverFunctions? name span = second
    rintro (⟨hreceiver, hperm⟩ | _)
    · exact related_pure ⟨congrArg some hreceiver, hperm⟩
    · refine related_pure ⟨rfl, ?_⟩
      dsimp only [against]
      cases environment.imports.find? name with
      | none => exact .nil
      | some imported => exact h.packageCandidates imported

theorem callTarget_against (receiver : Option TypedExpr) :
    Related SameFunctions (environment.callTarget receiver name span)
      ((environment.against other).callTarget receiver name span) := by
  rw [callTarget_eq, callTarget_eq]
  apply (namedFunctions_against h receiver).bind
  rintro ⟨target, candidates⟩ ⟨again, reordered⟩ ⟨htarget, hperm⟩
  dsimp only at htarget hperm ⊢
  subst htarget
  rw [hperm.isEmpty_eq]
  split
  · exact related_fail
  · exact related_pure ⟨rfl, hperm⟩

theorem choose_against {candidates reordered : List Candidate}
    (hperm : candidates.Perm reordered) (arguments : List GivenArgument) (hasBlock : Bool) :
    environment.choose name candidates arguments hasBlock span =
      (environment.against other).choose name reordered arguments hasBlock span := by
  unfold choose
  rw [h.selectCandidate hperm]
  rfl

theorem checkAssignable_against (property : Property) (value : TypedExpr) :
    (environment.against other).checkAssignable property value span =
      environment.checkAssignable property value span := by
  unfold checkAssignable
  rw [h.isAssignable]
  rfl

end Lookup

/-! ### Statements and the parts of them -/

mutual

theorem resolveExpr_against (environment : Environment)
    (h : environment.schema.Shuffles other) (value : Expr) :
    (environment.against other).resolveExpr value = environment.resolveExpr value := by
  cases value with
  | literal value span => rfl
  | null span => rfl
  | this span => rfl
  | property receiver name span =>
    cases receiver with
    | none => exact readName_against h
    | some owner =>
      simp only [resolveExpr, resolveExpr_against environment h owner, memberProperty_against h]
  | call receiver name arguments span =>
    simp only [resolveExpr, resolveReceiver_against environment h receiver,
      resolveArguments_against environment h arguments]
    congr 1
    funext target
    symm
    apply (callTarget_against h target).bind_eq
    rintro ⟨owner, candidates⟩ ⟨again, reordered⟩ ⟨howner, hperm⟩
    dsimp only at howner hperm ⊢
    subst howner
    congr 1
    funext given
    rw [choose_against h hperm]
    congr 1
    funext ⟨candidate, bound⟩
    dsimp only
    rw [resolveBlock_against environment h _ arguments]

theorem resolveReceiver_against (environment : Environment)
    (h : environment.schema.Shuffles other)
    (receiver : Option Expr) :
    (environment.against other).resolveReceiver receiver =
      environment.resolveReceiver receiver := by
  cases receiver with
  | none => rfl
  | some receiver => simp only [resolveReceiver, resolveExpr_against environment h receiver]

theorem resolveArguments_against (environment : Environment)
    (h : environment.schema.Shuffles other)
    (arguments : List Argument) :
    (environment.against other).resolveArguments arguments =
      environment.resolveArguments arguments := by
  cases arguments with
  | nil => rfl
  | cons argument arguments =>
    have hlater := resolveArguments_against environment h arguments
    cases argument with
    | positional value span =>
      simp only [resolveArguments, resolveExpr_against environment h value, hlater]
    | named name value span =>
      simp only [resolveArguments, resolveExpr_against environment h value, hlater]
    | lambda body span => simp only [resolveArguments, hlater]

theorem resolveBlock_against (environment : Environment)
    (h : environment.schema.Shuffles other)
    (configured : Option QualifiedName) (arguments : List Argument) :
    (environment.against other).resolveBlock configured arguments =
      environment.resolveBlock configured arguments := by
  cases arguments with
  | nil => rfl
  | cons argument arguments =>
    have hlater := resolveBlock_against environment h configured arguments
    cases argument with
    | positional value span => simp only [resolveBlock, hlater]
    | named name value span => simp only [resolveBlock, hlater]
    | lambda body span =>
      obtain ⟨statements, bodySpan⟩ := body
      cases configured with
      | none => simp only [resolveBlock]
      | some type =>
        have hinside := resolveStatements_against (environment.enter type) h statements
        simp only [resolveBlock, enter_against, hinside]

theorem resolveStatement_against (environment : Environment)
    (h : environment.schema.Shuffles other)
    (statement : Statement) :
    (environment.against other).resolveStatement statement =
      environment.resolveStatement statement := by
  cases statement with
  | importName parts span => rfl
  | assignment receiver name target value span =>
    simp only [resolveStatement, resolveReceiver_against environment h receiver,
      assignedProperty_against h, resolveExpr_against environment h value,
      checkAssignable_against h]
  | localValue name value span =>
    simp only [resolveStatement, resolveExpr_against environment h value]
    rfl
  | expr value => simp only [resolveStatement, resolveExpr_against environment h value]

theorem resolveStatements_against (environment : Environment)
    (h : environment.schema.Shuffles other)
    (statements : List Statement) :
    (environment.against other).resolveStatements statements =
      environment.resolveStatements statements := by
  cases statements with
  | nil => rfl
  | cons statement statements =>
    have hfirst := resolveStatement_against environment h statement
    have hlater := resolveStatements_against
      (environment.after (environment.resolveStatement statement).result statement)
      (by rwa [schema_after]) statements
    simp only [resolveStatements, hfirst, after_against, hlater]

end

end Environment

namespace Schema

/-- A script, or an expression, comes to the same whichever order the overloads are listed in: no
call is decided by which of them is declared first. -/
theorem resolve_eq_of_shuffles {schema other : Schema} (h : schema.Shuffles other) :
    (∀ (undeclared : UndeclaredImports) (filter : StatementFilter) (block : Block),
        schema.resolve undeclared filter block = other.resolve undeclared filter block) ∧
      ∀ value : Expr, schema.resolveExpr value = other.resolveExpr value := by
  constructor
  · intro undeclared filter block
    have hstatements : ∀ imports scopes statements,
        Environment.resolveStatements ⟨other, imports, scopes⟩ statements =
          Environment.resolveStatements ⟨schema, imports, scopes⟩ statements :=
      fun imports scopes => Environment.resolveStatements_against ⟨schema, imports, scopes⟩ h
    unfold resolve
    simp only [h.registerAll, h.defaultImports, h.receiver, hstatements]
  · intro value
    have hvalue : ∀ imports scopes,
        Environment.resolveExpr ⟨other, imports, scopes⟩ value =
          Environment.resolveExpr ⟨schema, imports, scopes⟩ value :=
      fun imports scopes => Environment.resolveExpr_against ⟨schema, imports, scopes⟩ h value
    unfold Schema.resolveExpr
    simp only [h.defaultImports, hvalue]

/-- The schema with the overloads of each class listed from the last to the first. -/
def reverseOverloads (schema : Schema) : Schema :=
  { schema with
    classes := schema.classes.mapValues fun dataClass =>
      { dataClass with
        functions := dataClass.functions.reverse
        constructors := dataClass.constructors.reverse } }

theorem shuffles_reverseOverloads (schema : Schema) : schema.Shuffles schema.reverseOverloads := by
  constructor
  case classes =>
    intro name
    dsimp only [reverseOverloads]
    rw [NameMap.find?_mapValues]
    cases schema.classes.find? name with
    | none => exact .none
    | some dataClass =>
      exact .some ⟨rfl, rfl, rfl, (List.reverse_perm _).symm, (List.reverse_perm _).symm⟩
  all_goals rfl

/-- Two ways to measure, two ways to keep a measure, and two ways to pick. -/
def overloadedCatalog : Catalog :=
  ⟨[⟨"Top", [], [],
      [⟨"size", .pure, [⟨"of", "Int", false, none⟩], some "Int", none, none⟩,
        ⟨"size", .pure, [⟨"of", "String", false, none⟩], some "Long", none, none⟩,
        ⟨"keep", .pure, [⟨"size", "Int", false, none⟩], none, none, none⟩,
        ⟨"keep", .pure, [⟨"size", "Long", false, none⟩, ⟨"unit", "String", true, none⟩], none,
          none, none⟩,
        ⟨"pick", .pure, [⟨"top", "Top", false, none⟩], none, none, none⟩,
        ⟨"pick", .pure, [⟨"item", "Item", false, none⟩], none, none, none⟩],
      []⟩,
    ⟨"Item", [], [], [], []⟩], [], [], []⟩

/-- Keeps the size of a text, which only one function measures, and picks `null`, which both
functions take. -/
def overloadedScript : Block :=
  .mk [.expr (.call none "keep"
      [.positional (.call none "size" [.positional (.literal (.string "x") .blank) .blank] .blank)
        .blank] .blank),
    .expr (.call none "pick" [.positional (.null .blank) .blank] .blank)] .blank

theorem resolve_eq_of_shuffles_reversed :
    ∃ schema, build overloadedCatalog .receiverFunction "Top" = .ok schema ∧
      schema ≠ schema.reverseOverloads ∧ schema.Shuffles schema.reverseOverloads ∧
      (schema.resolve .reported .all overloadedScript).operations.length = 1 ∧
      (schema.resolve .reported .all overloadedScript).diagnostics.map Diagnostic.code =
        [.ambiguousCall] ∧
      schema.resolve .reported .all overloadedScript =
        schema.reverseOverloads.resolve .reported .all overloadedScript := by
  have hok : (build overloadedCatalog .receiverFunction "Top").toOption.any (fun schema =>
      schema ≠ schema.reverseOverloads ∧
        (schema.resolve .reported .all overloadedScript).operations.length = 1 ∧
        (schema.resolve .reported .all overloadedScript).diagnostics.map Diagnostic.code =
          [.ambiguousCall]) = true := by
    decide +kernel
  cases hbuild : build overloadedCatalog .receiverFunction "Top" with
  | error fault => simp [hbuild, Except.toOption] at hok
  | ok schema =>
    obtain ⟨hne, hlength, hcodes⟩ : schema ≠ schema.reverseOverloads ∧
        (schema.resolve .reported .all overloadedScript).operations.length = 1 ∧
        (schema.resolve .reported .all overloadedScript).diagnostics.map Diagnostic.code =
          [.ambiguousCall] := by
      simpa [hbuild, Except.toOption] using hok
    have hshuffles := schema.shuffles_reverseOverloads
    exact ⟨schema, rfl, hne, hshuffles, hlength, hcodes,
      (resolve_eq_of_shuffles hshuffles).1 .reported .all overloadedScript⟩

end Schema

end ConfigScript
