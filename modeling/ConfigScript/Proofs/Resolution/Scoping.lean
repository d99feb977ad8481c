import ConfigScript.Proofs.Resolution.Mirroring
import ConfigScript.Proofs.Resolution.Soundness

/-!
# Scoping of resolution

Every operation is scoped, whatever has been resolved or has failed before. The induction follows
the recursion over statements, expressions, arguments and blocks, and carries along that the scopes
mirror the frames around the place.
-/

namespace ConfigScript

namespace Environment

variable {environment : Environment} {schema : Schema} {script : Block} {frames : List Frame}
  {name : String} {span : Span}

/-! ### No block names a value twice -/

/-- Only a statement that names a new value has an operation that does. -/
theorem declaredHere?_of_boundName? {statement : Statement} {operation : Operation}
    (h : (environment.resolveStatement statement).result = some operation)
    (hname : operation.boundName? = some name) :
    environment.declaredHere? name = none ∧
      ∃ value span, statement = .localValue name value span := by
  cases statement with
  | importName parts span =>
    rw [resolveStatement] at h
    cases h
  | assignment receiver target place value span =>
    rw [resolveStatement] at h
    obtain ⟨owner, -, h⟩ := Attempt.result_bind.mp h
    obtain ⟨found, -, h⟩ := Attempt.result_bind.mp h
    obtain ⟨resolved, -, h⟩ := Attempt.result_bind.mp h
    obtain ⟨_, -, h⟩ := Attempt.result_bind.mp h
    obtain rfl := Attempt.result_pure.mp h
    cases hname
  | localValue own value span =>
    rw [resolveStatement] at h
    split at h
    · cases h
    · rename_i hnew
      obtain ⟨resolved, -, h⟩ := Attempt.result_bind.mp h
      obtain rfl := Attempt.result_pure.mp h
      obtain rfl := Option.some.inj hname
      exact ⟨hnew, value, span, rfl⟩
  | expr value =>
    rw [resolveStatement] at h
    obtain ⟨resolved, -, h⟩ := Attempt.result_bind.mp h
    obtain rfl := Attempt.result_pure.mp h
    cases resolved <;> cases hname

theorem declaredHere?_after_localValue (hscopes : environment.scopes ≠ [])
    {result : Option Operation} {value : Expr} :
    (environment.after result (.localValue name value span)).declaredHere? name ≠ none := by
  obtain ⟨schema, imports, _ | ⟨scope, outer⟩⟩ := environment
  · exact absurd rfl hscopes
  · obtain ⟨first, hdeclare, -, hlookup⟩ := @Scope.declare_cons name
      ⟨result.bind Operation.boundType?, span⟩ scope outer
    have hfirst := hlookup name
    rw [if_pos rfl] at hfirst
    simp [after, declaredHere?, hdeclare, hfirst]

/-- What a block has named stays named behind every statement. -/
theorem declaredHere?_of_after {result : Option Operation} {statement : Statement}
    (h : (environment.after result statement).declaredHere? name = none) :
    environment.declaredHere? name = none := by
  cases statement with
  | localValue other value span =>
    obtain ⟨schema, imports, _ | ⟨scope, outer⟩⟩ := environment
    · rfl
    · obtain ⟨first, hdeclare, -, hlookup⟩ := @Scope.declare_cons other
        ⟨result.bind Operation.boundType?, span⟩ scope outer
      have hfirst : (first.locals.lookup name) = none := by
        simpa [after, declaredHere?, hdeclare] using h
      rw [hlookup name, Option.or_eq_none_iff] at hfirst
      exact hfirst.1
  | importName => exact h
  | assignment => exact h
  | expr => exact h

theorem scopes_after_ne_nil (hscopes : environment.scopes ≠ []) {result : Option Operation}
    {statement : Statement} : (environment.after result statement).scopes ≠ [] := by
  cases statement with
  | localValue name value span =>
    obtain ⟨schema, imports, _ | ⟨scope, outer⟩⟩ := environment
    · exact absurd rfl hscopes
    · obtain ⟨first, hdeclare, -⟩ := @Scope.declare_cons name
        ⟨result.bind Operation.boundType?, span⟩ scope outer
      simp [after, hdeclare]
  | importName => exact hscopes
  | assignment => exact hscopes
  | expr => exact hscopes

/-- The operations of a block name distinct values, and none that it has named before. -/
theorem distinct_resolveStatements {environment : Environment} (hscopes : environment.scopes ≠ [])
    (statements : List Statement) :
    DistinctLocals (environment.resolveStatements statements).operations ∧
      ∀ name ∈ (environment.resolveStatements statements).operations.filterMap
        Operation.boundName?, environment.declaredHere? name = none := by
  induction statements generalizing environment with
  | nil =>
    rw [resolveStatements]
    exact ⟨List.nodup_nil, by simp⟩
  | cons statement statements ih =>
    rw [resolveStatements]
    dsimp only
    obtain ⟨hdistinct, hfresh⟩ := @ih
      (environment.after (environment.resolveStatement statement).result statement)
      (scopes_after_ne_nil hscopes)
    have hlater := fun name hname => declaredHere?_of_after (hfresh name hname)
    cases hresult : (environment.resolveStatement statement).result with
    | none =>
      rw [hresult] at hdistinct hlater
      exact ⟨hdistinct, hlater⟩
    | some operation =>
      rw [hresult] at hdistinct hlater hfresh
      rw [DistinctLocals, Option.toList_some, List.singleton_append, List.filterMap_cons]
      cases hbound : operation.boundName? with
      | none => exact ⟨hdistinct, hlater⟩
      | some name =>
        obtain ⟨hnew, value, span, rfl⟩ := declaredHere?_of_boundName? hresult hbound
        constructor
        · apply List.nodup_cons.mpr
          refine ⟨fun hmem => ?_, hdistinct⟩
          exact declaredHere?_after_localValue hscopes (hfresh name hmem)
        · exact List.forall_mem_cons.mpr ⟨hnew, hlater⟩

/-! ### Every operation is scoped -/

mutual

theorem scoped_resolveExpr {environment : Environment} {frames : List Frame}
    (hclosed : schema.Closed) (hmirrors : environment.Mirrors schema script frames)
    (source : Expr) {value : TypedExpr}
    (h : (environment.resolveExpr source).result = some value) :
    schema.ScopedExpr script frames source value := by
  cases source with
  | literal value span =>
    obtain rfl := Option.some.inj (by simpa [resolveExpr] using h)
    exact .literal
  | null span =>
    obtain rfl := Option.some.inj (by simpa [resolveExpr] using h)
    exact .null
  | this span =>
    rw [resolveExpr] at h
    split at h
    · rename_i receiver hthis
      obtain rfl := Option.some.inj h
      exact hmirrors.scoped_this hthis
    · cases h
  | property receiver name span =>
    cases receiver with
    | none =>
      rw [resolveExpr] at h
      exact hmirrors.scoped_readName h
    | some owner =>
      rw [resolveExpr] at h
      obtain ⟨resolved, howner, h⟩ := Attempt.result_bind.mp h
      obtain ⟨read, -, h⟩ := Attempt.result_bind.mp h
      obtain rfl := Attempt.result_pure.mp h
      exact .property (.written (scoped_resolveExpr hclosed hmirrors owner howner))
  | call receiver name arguments span =>
    rw [resolveExpr] at h
    obtain ⟨owner, howner, h⟩ := Attempt.result_bind.mp h
    obtain ⟨⟨target, candidates⟩, htarget, h⟩ := Attempt.result_bind.mp h
    obtain ⟨values, hvalues, h⟩ := Attempt.result_bind.mp h
    obtain ⟨⟨candidate, bound⟩, hchosen, h⟩ := Attempt.result_bind.mp h
    obtain ⟨block, hblock, h⟩ := Attempt.result_bind.mp h
    obtain rfl := Attempt.result_pure.mp h
    obtain ⟨hreceiver, hcallees⟩ := hmirrors.scoped_callTarget hclosed
      (scoped_resolveReceiver hclosed hmirrors receiver howner) htarget
    obtain ⟨hcandidate, hbound⟩ := mem_of_choose hchosen
    apply Schema.ScopedExpr.call hreceiver (hcallees candidate hcandidate)
    · exact scoped_resolveArguments hclosed hmirrors arguments hvalues
    · exact hbound
    · exact scoped_resolveBlock hclosed hmirrors arguments hblock

theorem scoped_resolveReceiver {environment : Environment} {frames : List Frame}
    (hclosed : schema.Closed) (hmirrors : environment.Mirrors schema script frames)
    (source : Option Expr) {receiver : Option TypedExpr}
    (h : (environment.resolveReceiver source).result = some receiver) :
    Option.Rel (schema.ScopedExpr script frames) source receiver := by
  cases source with
  | none =>
    rw [resolveReceiver] at h
    obtain rfl := Option.some.inj h
    exact .none
  | some source =>
    rw [resolveReceiver] at h
    obtain ⟨value, hvalue, rfl⟩ := Attempt.result_map.mp h
    exact .some (scoped_resolveExpr hclosed hmirrors source hvalue)

theorem scoped_resolveArguments {environment : Environment} {frames : List Frame}
    (hclosed : schema.Closed) (hmirrors : environment.Mirrors schema script frames)
    (arguments : List Argument) {given : List GivenArgument}
    (h : (environment.resolveArguments arguments).result = some given) :
    schema.ScopedArguments script frames arguments (given.map GivenArgument.value) := by
  cases arguments with
  | nil =>
    rw [resolveArguments] at h
    obtain rfl := Option.some.inj h
    exact .nil
  | cons argument arguments =>
    cases argument with
    | positional value span =>
      rw [resolveArguments] at h
      obtain ⟨⟨first, rest⟩, hboth, h⟩ := Attempt.result_bind.mp h
      obtain rfl := Attempt.result_pure.mp h
      obtain ⟨hfirst, hrest⟩ := Attempt.result_both.mp hboth
      exact .positional (scoped_resolveExpr hclosed hmirrors value hfirst)
        (scoped_resolveArguments hclosed hmirrors arguments hrest)
    | named name value span =>
      rw [resolveArguments] at h
      obtain ⟨⟨first, rest⟩, hboth, h⟩ := Attempt.result_bind.mp h
      obtain rfl := Attempt.result_pure.mp h
      obtain ⟨hfirst, hrest⟩ := Attempt.result_both.mp hboth
      exact .named (scoped_resolveExpr hclosed hmirrors value hfirst)
        (scoped_resolveArguments hclosed hmirrors arguments hrest)
    | lambda body span =>
      rw [resolveArguments] at h
      exact .lambda (scoped_resolveArguments hclosed hmirrors arguments h)

theorem scoped_resolveBlock {environment : Environment} {frames : List Frame}
    (hclosed : schema.Closed) (hmirrors : environment.Mirrors schema script frames)
    {configured : Option QualifiedName} (arguments : List Argument)
    {block : Option (List Operation)}
    (h : (environment.resolveBlock configured arguments).result = some block) :
    schema.ScopedBlock script frames configured arguments block := by
  cases arguments with
  | nil =>
    rw [resolveBlock] at h
    obtain rfl := Option.some.inj h
    exact .none
  | cons argument arguments =>
    cases argument with
    | positional value span =>
      rw [resolveBlock_positional] at h
      cases scoped_resolveBlock hclosed hmirrors arguments h with
      | none => exact .none
      | inside hlambda hstatements hdistinct => exact .inside hlambda hstatements hdistinct
    | named name value span =>
      rw [resolveBlock_named] at h
      cases scoped_resolveBlock hclosed hmirrors arguments h with
      | none => exact .none
      | inside hlambda hstatements hdistinct => exact .inside hlambda hstatements hdistinct
    | lambda body span =>
      obtain ⟨statements, bodySpan⟩ := body
      rw [resolveBlock_lambda] at h
      cases configured with
      | none =>
        obtain rfl := Option.some.inj h
        exact .none
      | some type =>
        obtain rfl := Option.some.inj h
        apply Schema.ScopedBlock.inside rfl
        · exact scoped_resolveStatements hclosed (hmirrors.enter type) statements
        · exact (distinct_resolveStatements (List.cons_ne_nil _ _) statements).1

theorem scoped_resolveStatement {environment : Environment} {frames : List Frame}
    (hclosed : schema.Closed) (hmirrors : environment.Mirrors schema script frames)
    (statement : Statement) {operation : Operation}
    (h : (environment.resolveStatement statement).result = some operation) :
    schema.ScopedStatement script frames statement operation := by
  cases statement with
  | importName parts span =>
    rw [resolveStatement] at h
    cases h
  | assignment receiver name target value span =>
    rw [resolveStatement] at h
    obtain ⟨owner, howner, h⟩ := Attempt.result_bind.mp h
    obtain ⟨⟨found, property⟩, hassigned, h⟩ := Attempt.result_bind.mp h
    obtain ⟨resolved, hresolved, h⟩ := Attempt.result_bind.mp h
    obtain ⟨_, -, h⟩ := Attempt.result_bind.mp h
    obtain rfl := Attempt.result_pure.mp h
    apply Schema.ScopedStatement.assignment
    · exact hmirrors.scoped_assignedProperty
        (scoped_resolveReceiver hclosed hmirrors receiver howner) hassigned
    · exact scoped_resolveExpr hclosed hmirrors value hresolved
  | localValue name value span =>
    rw [resolveStatement] at h
    split at h
    · cases h
    · obtain ⟨resolved, hresolved, h⟩ := Attempt.result_bind.mp h
      obtain rfl := Attempt.result_pure.mp h
      exact .localValue (scoped_resolveExpr hclosed hmirrors value hresolved)
  | expr value =>
    rw [resolveStatement] at h
    obtain ⟨resolved, hresolved, h⟩ := Attempt.result_bind.mp h
    obtain rfl := Attempt.result_pure.mp h
    exact .expr (scoped_resolveExpr hclosed hmirrors value hresolved)

theorem scoped_resolveStatements {environment : Environment} {frames : List Frame}
    (hclosed : schema.Closed) (hmirrors : environment.Mirrors schema script frames)
    (statements : List Statement) :
    schema.ScopedStatements script frames statements
      (environment.resolveStatements statements).operations := by
  cases statements with
  | nil =>
    rw [resolveStatements]
    exact .nil
  | cons statement statements =>
    rw [resolveStatements]
    have hrest := scoped_resolveStatements hclosed
      (hmirrors.after (environment.resolveStatement statement).result statement) statements
    cases hresult : (environment.resolveStatement statement).result with
    | none =>
      rw [hresult] at hrest
      exact .failed hrest
    | some operation =>
      rw [hresult] at hrest
      exact .resolved (scoped_resolveStatement hclosed hmirrors statement hresult) hrest

end

end Environment

namespace Schema

/-- Resolution refers to enclosing objects, preceding values and imported entities only, at every
depth of blocks, and no block names a value twice. -/
theorem scoped_of_resolve {catalog : Catalog} {style : LambdaStyle} {receiver : String}
    {schema : Schema} (hbuild : build catalog style receiver = .ok schema)
    (undeclared : UndeclaredImports) (filter : StatementFilter) (block : Block) :
    schema.ScopedStatements block [⟨schema.receiver, []⟩]
        (block.statements.filter fun statement => !statement.isImport && filter.accepts statement)
        (schema.resolve undeclared filter block).operations ∧
      DistinctLocals (schema.resolve undeclared filter block).operations := by
  have hmirrors := mirrors_start schema undeclared block
  constructor
  · exact Environment.scoped_resolveStatements (closed_of_build hbuild) hmirrors _
  · exact (Environment.distinct_resolveStatements (List.cons_ne_nil _ _) _).1

/-- An imported constructor, and a block that reads a value from outside and names it anew. -/
def shadowingScript : Block :=
  let span : Span := ⟨0, 70, 1, 1⟩
  .mk [.importName ["Right"] span, .localValue "made" (.call none "Right" [] span) span,
    .localValue "size" (.literal (.int 1) span) span,
    .expr (.call none "right" [.lambda (.mk [
      .assignment none "count" span (.property none "size" span) span,
      .localValue "size" (.this span) span,
      .assignment none "peer" span (.property none "size" span) span] span) span] span)] span

theorem scoped_of_resolve_shadowing :
    ∃ schema, build mutualCatalog .receiverFunction "Left" = .ok schema ∧
      (schema.resolve .reported .all shadowingScript).operations.length = 3 ∧
      schema.ScopedStatements shadowingScript [⟨schema.receiver, []⟩]
        (shadowingScript.statements.filter fun statement =>
          !statement.isImport && StatementFilter.all.accepts statement)
        (schema.resolve .reported .all shadowingScript).operations := by
  have hok : (build mutualCatalog .receiverFunction "Left").toOption.any (fun schema =>
      (schema.resolve .reported .all shadowingScript).diagnostics.isEmpty &&
        (schema.resolve .reported .all shadowingScript).operations.length == 3) = true := by
    decide +kernel
  cases hbuild : build mutualCatalog .receiverFunction "Left" with
  | error fault => simp [hbuild, Except.toOption] at hok
  | ok schema =>
    simp only [hbuild, Except.toOption, Option.any_some, Bool.and_eq_true, beq_iff_eq] at hok
    exact ⟨schema, rfl, hok.2, (scoped_of_resolve hbuild .reported .all shadowingScript).1⟩

end Schema

end ConfigScript
