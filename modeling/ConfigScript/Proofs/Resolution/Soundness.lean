import ConfigScript.Proofs.Resolution.Lookup
import ConfigScript.Resolution.Resolve

/-!
# Soundness of resolution

Resolution yields sound operations only: no branch of it skips a check that another one makes. The
induction follows the recursion over statements, expressions, arguments and blocks, and carries
along that all scopes hold known objects and values.
-/

namespace ConfigScript

namespace Environment

variable {environment : Environment}

theorem resolveBlock_positional {configured : Option QualifiedName} {value : Expr} {span : Span}
    {arguments : List Argument} :
    environment.resolveBlock configured (.positional value span :: arguments) =
      environment.resolveBlock configured arguments := by
  simp only [resolveBlock]

theorem resolveBlock_named {configured : Option QualifiedName} {name : String} {value : Expr}
    {span : Span} {arguments : List Argument} :
    environment.resolveBlock configured (.named name value span :: arguments) =
      environment.resolveBlock configured arguments := by
  simp only [resolveBlock]

theorem resolveBlock_lambda {configured : Option QualifiedName} {statements : List Statement}
    {bodySpan span : Span} {arguments : List Argument} :
    environment.resolveBlock configured (.lambda (.mk statements bodySpan) span :: arguments) =
      match configured with
      | none => .ok none
      | some type =>
        ⟨some (some ((environment.enter type).resolveStatements statements).operations),
          ((environment.enter type).resolveStatements statements).diagnostics⟩ := by
  cases configured <;> simp only [resolveBlock]

theorem schema_after {result : Option Operation} {statement : Statement} :
    (environment.after result statement).schema = environment.schema := by
  cases statement <;> rfl

theorem sound_choose {name : String} {span : Span} {candidates : List Candidate}
    {arguments : List GivenArgument} {hasBlock : Bool} {candidate : Candidate}
    {bound : List BoundArgument}
    (harguments : ∀ argument ∈ arguments, environment.schema.SoundExpr argument.value)
    (h : (environment.choose name candidates arguments hasBlock span).result =
      some (candidate, bound)) :
    candidate ∈ candidates ∧ environment.schema.Binds candidate.parameters bound ∧
      ∀ argument ∈ bound, environment.schema.SoundExpr argument.value := by
  unfold choose at h
  split at h
  · rename_i selected assignment hselected
    obtain ⟨rfl, rfl⟩ := Prod.mk.inj (Option.some.inj h)
    obtain ⟨hcandidate, haccept⟩ := selectCandidate_eq_ok hselected
    refine ⟨hcandidate, Candidate.binds_of_accept haccept, fun argument hargument => ?_⟩
    have hvalue := (Candidate.values_perm_of_accept haccept).mem_iff.mp
      (List.mem_map_of_mem hargument)
    obtain ⟨given, hgiven, heq⟩ := List.mem_map.mp hvalue
    exact heq ▸ harguments given hgiven
  · cases h

mutual

theorem sound_resolveExpr {environment : Environment}
    (hclosed : environment.schema.Closed) (hknown : environment.Known)
    (source : Expr) {value : TypedExpr}
    (h : (environment.resolveExpr source).result = some value) :
    environment.schema.SoundExpr value := by
  cases source with
  | literal value span =>
    obtain rfl := Option.some.inj (by simpa [resolveExpr] using h)
    exact .constant
  | null span =>
    obtain rfl := Option.some.inj (by simpa [resolveExpr] using h)
    exact .null
  | this span =>
    rw [resolveExpr] at h
    split at h
    · rename_i receiver hthis
      obtain rfl := Option.some.inj h
      exact hknown.sound_this hthis
    · cases h
  | property receiver name span =>
    cases receiver with
    | none =>
      rw [resolveExpr] at h
      exact hknown.sound_readName hclosed h
    | some owner =>
      rw [resolveExpr] at h
      obtain ⟨resolved, howner, h⟩ := Attempt.result_bind.mp h
      obtain ⟨read, hread, h⟩ := Attempt.result_bind.mp h
      obtain rfl := Attempt.result_pure.mp h
      have hhas := hasProperty_of_memberProperty hread
      exact .property (sound_resolveExpr hclosed hknown owner howner) hhas (hhas.knows hclosed)
  | call receiver name arguments span =>
    rw [resolveExpr] at h
    obtain ⟨owner, howner, h⟩ := Attempt.result_bind.mp h
    obtain ⟨⟨target, candidates⟩, htarget, h⟩ := Attempt.result_bind.mp h
    obtain ⟨values, hvalues, h⟩ := Attempt.result_bind.mp h
    obtain ⟨⟨candidate, bound⟩, hchosen, h⟩ := Attempt.result_bind.mp h
    obtain ⟨block, hblock, h⟩ := Attempt.result_bind.mp h
    obtain rfl := Attempt.result_pure.mp h
    have hreceiver := hknown.sound_callTarget
      (sound_resolveReceiver hclosed hknown receiver howner) htarget
    obtain ⟨hmem, hbinds, hbound⟩ := sound_choose
      (sound_resolveArguments hclosed hknown arguments hvalues) hchosen
    have hoffers := offers_of_callTarget hclosed htarget hmem
    have htypes := hoffers.knows hclosed
    refine .invocation (.mk hoffers hreceiver hbinds hbound ?_ htypes)
    refine sound_resolveBlock hclosed hknown arguments (fun type htype => ?_) hblock
    obtain ⟨configured, hconfigured, hclass⟩ := Option.bind_eq_some_iff.mp htype
    obtain rfl := TypeRef.className?_eq_some.mp hclass
    exact htypes _ (List.mem_append_right _ (Semantics.mem_of_configuredType? hconfigured))

theorem sound_resolveReceiver {environment : Environment}
    (hclosed : environment.schema.Closed) (hknown : environment.Known)
    (source : Option Expr) {receiver : Option TypedExpr}
    (h : (environment.resolveReceiver source).result = some receiver) :
    ∀ value ∈ receiver, environment.schema.SoundExpr value := by
  cases source with
  | none =>
    rw [resolveReceiver] at h
    obtain rfl := Option.some.inj h
    simp
  | some source =>
    rw [resolveReceiver] at h
    obtain ⟨value, hvalue, rfl⟩ := Attempt.result_map.mp h
    rintro _ ⟨⟩
    exact sound_resolveExpr hclosed hknown source hvalue

theorem sound_resolveArguments {environment : Environment}
    (hclosed : environment.schema.Closed) (hknown : environment.Known)
    (arguments : List Argument) {given : List GivenArgument}
    (h : (environment.resolveArguments arguments).result = some given) :
    ∀ argument ∈ given, environment.schema.SoundExpr argument.value := by
  cases arguments with
  | nil =>
    rw [resolveArguments] at h
    obtain rfl := Option.some.inj h
    simp
  | cons argument arguments =>
    cases argument with
    | positional value span =>
      rw [resolveArguments] at h
      obtain ⟨⟨first, rest⟩, hboth, h⟩ := Attempt.result_bind.mp h
      obtain rfl := Attempt.result_pure.mp h
      obtain ⟨hfirst, hrest⟩ := Attempt.result_both.mp hboth
      exact List.forall_mem_cons.mpr ⟨sound_resolveExpr hclosed hknown value hfirst,
        sound_resolveArguments hclosed hknown arguments hrest⟩
    | named name value span =>
      rw [resolveArguments] at h
      obtain ⟨⟨first, rest⟩, hboth, h⟩ := Attempt.result_bind.mp h
      obtain rfl := Attempt.result_pure.mp h
      obtain ⟨hfirst, hrest⟩ := Attempt.result_both.mp hboth
      exact List.forall_mem_cons.mpr ⟨sound_resolveExpr hclosed hknown value hfirst,
        sound_resolveArguments hclosed hknown arguments hrest⟩
    | lambda body span =>
      rw [resolveArguments] at h
      exact sound_resolveArguments hclosed hknown arguments h

theorem sound_resolveBlock {environment : Environment}
    (hclosed : environment.schema.Closed) (hknown : environment.Known)
    {configured : Option QualifiedName} (arguments : List Argument)
    (hconfigured : ∀ type ∈ configured, environment.schema.Knows (.named type))
    {block : Option (List Operation)}
    (h : (environment.resolveBlock configured arguments).result = some block) :
    ∀ operations ∈ block, ∀ operation ∈ operations,
      environment.schema.SoundOperation operation := by
  cases arguments with
  | nil =>
    rw [resolveBlock] at h
    obtain rfl := Option.some.inj h
    simp
  | cons argument arguments =>
    cases argument with
    | positional value span =>
      rw [resolveBlock_positional] at h
      exact sound_resolveBlock hclosed hknown arguments hconfigured h
    | named name value span =>
      rw [resolveBlock_named] at h
      exact sound_resolveBlock hclosed hknown arguments hconfigured h
    | lambda body span =>
      obtain ⟨statements, bodySpan⟩ := body
      rw [resolveBlock_lambda] at h
      cases configured with
      | none =>
        obtain rfl := Option.some.inj h
        simp
      | some type =>
        obtain rfl := Option.some.inj h
        have hinside : (environment.enter type).Known := hknown.enter (hconfigured type rfl)
        have hclosed : (environment.enter type).schema.Closed := hclosed
        rintro _ ⟨⟩
        exact sound_resolveStatements hclosed hinside statements

theorem sound_resolveStatement {environment : Environment}
    (hclosed : environment.schema.Closed) (hknown : environment.Known)
    (statement : Statement) {operation : Operation}
    (h : (environment.resolveStatement statement).result = some operation) :
    environment.schema.SoundOperation operation := by
  cases statement with
  | importName parts span =>
    rw [resolveStatement] at h
    cases h
  | assignment receiver name target value span =>
    rw [resolveStatement] at h
    obtain ⟨owner, howner, h⟩ := Attempt.result_bind.mp h
    obtain ⟨⟨found, property⟩, hassigned, h⟩ := Attempt.result_bind.mp h
    obtain ⟨resolved, hresolved, h⟩ := Attempt.result_bind.mp h
    obtain ⟨_, hassignable, h⟩ := Attempt.result_bind.mp h
    obtain rfl := Attempt.result_pure.mp h
    obtain ⟨hfound, hhas, hwritable⟩ := hknown.sound_assignedProperty
      (sound_resolveReceiver hclosed hknown receiver howner) hassigned
    refine .write hfound hhas hwritable (sound_resolveExpr hclosed hknown value hresolved) ?_
    unfold checkAssignable at hassignable
    split at hassignable
    · assumption
    · cases hassignable
  | localValue name value span =>
    rw [resolveStatement] at h
    split at h
    · cases h
    · obtain ⟨resolved, hresolved, h⟩ := Attempt.result_bind.mp h
      obtain rfl := Attempt.result_pure.mp h
      exact .bind (sound_resolveExpr hclosed hknown value hresolved)
  | expr value =>
    rw [resolveStatement] at h
    obtain ⟨resolved, hresolved, h⟩ := Attempt.result_bind.mp h
    obtain rfl := Attempt.result_pure.mp h
    have hsound := sound_resolveExpr hclosed hknown value hresolved
    cases resolved with
    | invocation call =>
      cases hsound with
      | invocation hcall => exact .invoke hcall
    | _ => exact .evaluate hsound

theorem sound_resolveStatements {environment : Environment}
    (hclosed : environment.schema.Closed) (hknown : environment.Known)
    (statements : List Statement) :
    ∀ operation ∈ (environment.resolveStatements statements).operations,
      environment.schema.SoundOperation operation := by
  cases statements with
  | nil =>
    rw [resolveStatements]
    simp
  | cons statement statements =>
    rw [resolveStatements]
    have hfirst : ∀ operation ∈ (environment.resolveStatement statement).result,
        environment.schema.SoundOperation operation := fun operation hoperation =>
      sound_resolveStatement hclosed hknown statement hoperation
    intro operation hoperation
    cases List.mem_append.mp hoperation with
    | inl hhead => exact hfirst operation (Option.mem_toList.mp hhead)
    | inr htail =>
      rw [← schema_after] at hclosed ⊢
      exact sound_resolveStatements hclosed (hknown.after hfirst) statements operation htail

end

end Environment

namespace Schema

theorem known_start {schema : Schema} (hclosed : schema.Closed) (imports : Imports) :
    Environment.Known ⟨schema, imports, [⟨some schema.receiver, []⟩]⟩ where
  receivers scope hscope type htype := by
    obtain rfl := List.mem_singleton.mp hscope
    obtain rfl := Option.some.inj htype
    exact hclosed.knows List.mem_cons_self
  locals scope hscope entry hentry := by
    obtain rfl := List.mem_singleton.mp hscope
    cases hentry

/-- Every operation that a script resolves to is sound, whatever statements a filter lets pass. -/
theorem sound_of_resolve {catalog : Catalog} {style : LambdaStyle} {receiver : String}
    {schema : Schema} (hbuild : build catalog style receiver = .ok schema)
    (undeclared : UndeclaredImports) (filter : StatementFilter) (block : Block) :
    ∀ operation ∈ (schema.resolve undeclared filter block).operations,
      schema.SoundOperation operation := by
  have hclosed := closed_of_build hbuild
  intro operation hoperation
  exact Environment.sound_resolveStatements hclosed (known_start hclosed _) _ operation hoperation

/-- A block that configures an object and writes one of its properties. -/
def configuringScript : Block :=
  let span : Span := ⟨0, 23, 1, 1⟩
  .mk [.expr (.call none "right" [.lambda (.mk [.assignment none "count" span
    (.literal (.int 1) span) span] span) span] span)] span

theorem sound_of_resolve_configuring :
    ∃ schema, build mutualCatalog .receiverFunction "Left" = .ok schema ∧
      (schema.resolve .reported .all configuringScript).operations ≠ [] ∧
      ∀ operation ∈ (schema.resolve .reported .all configuringScript).operations,
        schema.SoundOperation operation := by
  have hok : (build mutualCatalog .receiverFunction "Left").toOption.any (fun schema =>
      !(schema.resolve .reported .all configuringScript).operations.isEmpty) = true := by
    decide
  cases hbuild : build mutualCatalog .receiverFunction "Left" with
  | error fault => simp [hbuild, Except.toOption] at hok
  | ok schema =>
    refine ⟨schema, rfl, ?_, sound_of_resolve hbuild .reported .all configuringScript⟩
    simpa [hbuild, Except.toOption] using hok

end Schema

end ConfigScript
