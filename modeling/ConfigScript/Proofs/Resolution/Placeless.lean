import ConfigScript.Proofs.Resolution.Alike
import ConfigScript.Proofs.Resolution.Moved
import ConfigScript.Proofs.Schema.Closed

/-!
# Places have no part in meaning

A script in another place is resolved to the same operations and the same diagnostics, all of them
in the other place. A span is only ever handed on, so whatever it is mapped to, resolution maps it
alike; scripts that differ in nothing but their spans hence have the same meaning.
-/

namespace ConfigScript

variable {move : Span → Span} {name : String} {span : Span}

namespace Scope

theorem receivers_mapSpans (scopes : List Scope) :
    receivers (scopes.map (mapSpans move)) = receivers scopes := by
  induction scopes with
  | nil => rfl
  | cons scope outer ih =>
    obtain ⟨receiver, locals⟩ := scope
    cases receiver with
    | none => exact ih
    | some type => simp only [List.map_cons, receivers, mapSpans, ih, List.length_map]

theorem lookup_mapSpans (scope : Scope) (name : String) :
    (scope.mapSpans move).locals.lookup name =
      (scope.locals.lookup name).map (LocalBinding.mapSpans move) := by
  obtain ⟨receiver, locals⟩ := scope
  change (locals.map _).lookup name = (locals.lookup name).map _
  induction locals with
  | nil => rfl
  | cons entry locals ih =>
    rw [List.map_cons, List.lookup_cons, List.lookup_cons, ih]
    by_cases hname : name = entry.1
    · simp [hname]
    · simp [beq_eq_false_iff_ne.mpr hname]

theorem declare_mapSpans (binding : LocalBinding) (scopes : List Scope) :
    declare name (binding.mapSpans move) (scopes.map (mapSpans move)) =
      (declare name binding scopes).map (mapSpans move) := by
  cases scopes with
  | nil => rfl
  | cons scope outer =>
    simp only [List.map_cons, declare, lookup_mapSpans, Option.isSome_map]
    split <;> rfl

end Scope

namespace Environment

open Attempt

variable {environment : Environment}

theorem local?_mapSpans (environment : Environment) (name : String) :
    (environment.mapSpans move).local? name =
      (environment.local? name).map (LocalBinding.mapSpans move) := by
  unfold local?
  rw [scopes_mapSpans]
  induction environment.scopes with
  | nil => rfl
  | cons scope outer ih =>
    rw [List.map_cons, List.findSome?_cons, List.findSome?_cons, Scope.lookup_mapSpans, ih]
    cases scope.locals.lookup name <;> rfl

theorem declaredHere?_mapSpans (environment : Environment) (name : String) :
    (environment.mapSpans move).declaredHere? name =
      (environment.declaredHere? name).map (LocalBinding.mapSpans move) := by
  unfold declaredHere?
  rw [scopes_mapSpans]
  cases environment.scopes with
  | nil => rfl
  | cons scope outer => exact scope.lookup_mapSpans name

theorem after_mapSpans (environment : Environment) (result : Option Operation)
    (statement : Statement) :
    (environment.mapSpans move).after (result.map (Operation.mapSpans move))
        (statement.mapSpans move) =
      (environment.after result statement).mapSpans move := by
  cases statement with
  | localValue name value span =>
    have htype : (result.map (Operation.mapSpans move)).bind Operation.boundType? =
        result.bind Operation.boundType? := by
      cases result with
      | none => rfl
      | some operation => exact operation.boundType?_mapSpans
    simp only [after, Statement.mapSpans, htype]
    exact congrArg (Environment.mk environment.schema environment.imports)
      (Scope.declare_mapSpans ⟨_, span⟩ environment.scopes)
  | assignment receiver => cases receiver <;> rfl
  | importName => rfl
  | expr => rfl

/-! ### What names mean -/

theorem this?_mapSpans :
    (environment.mapSpans move).this? (move span) =
      (environment.this? span).map (TypedExpr.mapSpans move) := by
  unfold this?
  rw [scopes_mapSpans, Scope.receivers_mapSpans]
  cases (Scope.receivers environment.scopes).head? <;> simp [TypedExpr.mapSpans]

theorem receiverProperty?_mapSpans :
    (environment.mapSpans move).receiverProperty? name (move span) =
      (environment.receiverProperty? name span).map (Prod.map (TypedExpr.mapSpans move) id) := by
  unfold receiverProperty?
  rw [scopes_mapSpans, schema_mapSpans, Scope.receivers_mapSpans, List.map_findSome?]
  congr 1
  funext ⟨depth, type⟩
  dsimp only [Function.comp_apply]
  cases hclass : environment.schema.classes.find? type with
  | none => rfl
  | some dataClass =>
    cases hread : dataClass.property? name <;> simp [hread, TypedExpr.mapSpans]

theorem receiverFunctions?_mapSpans :
    (environment.mapSpans move).receiverFunctions? name (move span) =
      (environment.receiverFunctions? name span).map (Prod.map (TypedExpr.mapSpans move) id) := by
  unfold receiverFunctions?
  rw [scopes_mapSpans, schema_mapSpans, Scope.receivers_mapSpans, List.map_findSome?]
  congr 1
  funext ⟨depth, type⟩
  dsimp only [Function.comp_apply]
  split <;> simp [TypedExpr.mapSpans]

theorem readName_mapSpans :
    (environment.mapSpans move).readName name (move span) =
      (environment.readName name span).moved move (TypedExpr.mapSpans move) := by
  unfold readName
  rw [local?_mapSpans, receiverProperty?_mapSpans, importedObject?_mapSpans]
  cases environment.local? name with
  | some binding =>
    obtain ⟨type, first⟩ := binding
    cases type with
    | none => rfl
    | some type => simp [LocalBinding.mapSpans, moved_ok, TypedExpr.mapSpans]
  | none =>
    cases environment.receiverProperty? name span with
    | some found => simp [moved_ok, TypedExpr.mapSpans]
    | none =>
      cases environment.importedObject? name with
      | some object => simp [moved_ok, TypedExpr.mapSpans]
      | none => rfl

theorem memberOwner_mapSpans (receiver : TypedExpr) :
    memberOwner (receiver.mapSpans move) (move span) =
      (memberOwner receiver span).moved move id := by
  unfold memberOwner
  rw [TypedExpr.type_mapSpans]
  cases receiver.type <;> rfl

theorem memberProperty_mapSpans (receiver : TypedExpr) :
    (environment.mapSpans move).memberProperty (receiver.mapSpans move) name (move span) =
      (environment.memberProperty receiver name span).moved move id := by
  unfold memberProperty
  rw [memberOwner_mapSpans]
  apply bind_moved
  intro owner
  rw [schema_mapSpans, id_eq]
  split <;> rfl

theorem assignedName_mapSpans :
    (environment.mapSpans move).assignedName name (move span) =
      (environment.assignedName name span).moved move (Prod.map (TypedExpr.mapSpans move) id) := by
  unfold assignedName
  rw [local?_mapSpans, receiverProperty?_mapSpans]
  cases environment.local? name with
  | some binding =>
    obtain ⟨type, first⟩ := binding
    cases type <;> rfl
  | none => cases environment.receiverProperty? name span <;> rfl

theorem assignedProperty_mapSpans (receiver : Option TypedExpr) :
    (environment.mapSpans move).assignedProperty (receiver.map (TypedExpr.mapSpans move)) name
        (move span) =
      (environment.assignedProperty receiver name span).moved move
        (Prod.map (TypedExpr.mapSpans move) id) := by
  have hnamed : (environment.mapSpans move).namedProperty
      (receiver.map (TypedExpr.mapSpans move)) name (move span) =
        (environment.namedProperty receiver name span).moved move
          (Prod.map (TypedExpr.mapSpans move) id) := by
    cases receiver with
    | none => exact assignedName_mapSpans
    | some owner =>
      simp only [namedProperty, Option.map_some, memberProperty_mapSpans]
      apply map_moved
      intro property
      rfl
  rw [assignedProperty_eq, assignedProperty_eq, hnamed]
  apply bind_moved
  rintro ⟨owner, property⟩
  dsimp only [Prod.map, id_eq]
  split <;> rfl

theorem callTarget_mapSpans (receiver : Option TypedExpr) :
    (environment.mapSpans move).callTarget (receiver.map (TypedExpr.mapSpans move)) name
        (move span) =
      (environment.callTarget receiver name span).moved move
        (Prod.map (Option.map (TypedExpr.mapSpans move)) id) := by
  have hnamed : (environment.mapSpans move).namedFunctions
      (receiver.map (TypedExpr.mapSpans move)) name (move span) =
        (environment.namedFunctions receiver name span).moved move
          (Prod.map (Option.map (TypedExpr.mapSpans move)) id) := by
    cases receiver with
    | none =>
      simp only [namedFunctions, Option.map_none, receiverFunctions?_mapSpans]
      cases environment.receiverFunctions? name span <;> rfl
    | some owner =>
      simp only [namedFunctions, Option.map_some, memberOwner_mapSpans]
      apply bind_moved
      intro type
      rfl
  rw [callTarget_eq, callTarget_eq, hnamed]
  apply bind_moved
  rintro ⟨target, candidates⟩
  dsimp only [Prod.map, id_eq]
  split <;> rfl

/-! ### Calls -/

theorem alike_mapSpans (arguments : List GivenArgument) :
    List.Forall₂ GivenArgument.Alike (arguments.map (GivenArgument.mapSpans move)) arguments := by
  apply List.forall₂_map_left_iff.mpr
  apply List.forall₂_same.mpr
  intro argument _
  exact ⟨rfl, argument.type_mapSpans⟩

theorem bound_mapSpans (parameters : List Parameter) (arguments : List GivenArgument)
    (assignment : Assignment) :
    assignment.bound parameters (arguments.map (GivenArgument.mapSpans move)) =
      (assignment.bound parameters arguments).map (BoundArgument.mapSpans move) := by
  unfold Assignment.bound
  rw [List.map_filterMap]
  apply List.filterMap_congr
  rintro ⟨parameter, slot⟩ _
  cases slot with
  | none => rfl
  | some index =>
    simp only [Option.bind_some, List.getElem?_map]
    cases arguments[index]? <;> simp [BoundArgument.mapSpans, GivenArgument.mapSpans]

theorem choose_mapSpans (candidates : List Candidate) (arguments : List GivenArgument)
    (hasBlock : Bool) :
    (environment.mapSpans move).choose name candidates
        (arguments.map (GivenArgument.mapSpans move)) hasBlock (move span) =
      (environment.choose name candidates arguments hasBlock span).moved move
        (Prod.map id (List.map (BoundArgument.mapSpans move))) := by
  unfold choose
  rw [schema_mapSpans, selectCandidate_alike (alike_mapSpans arguments)]
  cases hselected : selectCandidate environment.schema name candidates arguments hasBlock with
  | error cause =>
    dsimp only
    rw [moved_fail, mapSpans_of_selectCandidate hselected]
  | ok choice =>
    obtain ⟨candidate, assignment⟩ := choice
    dsimp only
    rw [bound_mapSpans, moved_ok]
    rfl

theorem checkAssignable_mapSpans (property : Property) (value : TypedExpr) :
    (environment.mapSpans move).checkAssignable property (value.mapSpans move) (move span) =
      (environment.checkAssignable property value span).moved move id := by
  unfold checkAssignable
  rw [schema_mapSpans, TypedExpr.type_mapSpans]
  by_cases h : environment.schema.isAssignable property.type value.type = true
  · rw [if_pos h, if_pos h, moved_ok, id_eq]
  · rw [if_neg h, if_neg h]
    rfl

/-! ### Statements and the parts of them -/

mutual

theorem resolveExpr_mapSpans (environment : Environment) (value : Expr) :
    (environment.mapSpans move).resolveExpr (value.mapSpans move) =
      (environment.resolveExpr value).moved move (TypedExpr.mapSpans move) := by
  cases value with
  | literal value span => simp only [Expr.mapSpans, resolveExpr, moved_ok, TypedExpr.mapSpans]
  | null span => simp only [Expr.mapSpans, resolveExpr, moved_ok, TypedExpr.mapSpans]
  | this span =>
    simp only [Expr.mapSpans, resolveExpr, this?_mapSpans]
    cases environment.this? span <;> rfl
  | property receiver name span =>
    rw [mapSpans_property]
    cases receiver with
    | none => simp only [Option.map_none, resolveExpr, readName_mapSpans]
    | some owner =>
      simp only [Option.map_some, resolveExpr, resolveExpr_mapSpans environment owner]
      apply bind_moved
      intro owner
      rw [memberProperty_mapSpans]
      apply bind_moved
      intro property
      exact congrArg ok (by rw [TypedExpr.mapSpans, id_eq])
  | call receiver name arguments span =>
    rw [Expr.mapSpans_call]
    simp only [resolveExpr, any_isLambda_mapSpans, resolveReceiver_mapSpans environment receiver,
      resolveArguments_mapSpans environment arguments]
    apply bind_moved
    intro receiver
    rw [callTarget_mapSpans]
    apply bind_moved
    rintro ⟨target, candidates⟩
    apply bind_moved
    intro given
    dsimp only [Prod.map, id_eq]
    rw [choose_mapSpans]
    apply bind_moved
    rintro ⟨candidate, bound⟩
    dsimp only [Prod.map, id_eq]
    rw [resolveBlock_mapSpans environment _ arguments]
    apply bind_moved
    intro block
    refine congrArg ok ?_
    rw [TypedExpr.mapSpans, Invocation.mapSpans, receiverMapSpans_eq_map, boundMapSpans_eq_map,
      blockMapSpans_eq_map]

theorem resolveReceiver_mapSpans (environment : Environment) (receiver : Option Expr) :
    (environment.mapSpans move).resolveReceiver (receiver.map (Expr.mapSpans move)) =
      (environment.resolveReceiver receiver).moved move
        (Option.map (TypedExpr.mapSpans move)) := by
  cases receiver with
  | none => rfl
  | some receiver =>
    simp only [Option.map_some, resolveReceiver, resolveExpr_mapSpans environment receiver]
    apply map_moved
    intro value
    rfl

theorem resolveArguments_mapSpans (environment : Environment) (arguments : List Argument) :
    (environment.mapSpans move).resolveArguments (argumentsMapSpans move arguments) =
      (environment.resolveArguments arguments).moved move
        (List.map (GivenArgument.mapSpans move)) := by
  cases arguments with
  | nil => rfl
  | cons argument arguments =>
    have hlater := resolveArguments_mapSpans environment arguments
    cases argument with
    | positional value span =>
      simp only [argumentsMapSpans, Argument.mapSpans, resolveArguments, hlater,
        resolveExpr_mapSpans environment value, both_moved]
      apply bind_moved
      rintro ⟨value, given⟩
      rfl
    | named name value span =>
      simp only [argumentsMapSpans, Argument.mapSpans, resolveArguments, hlater,
        resolveExpr_mapSpans environment value, both_moved]
      apply bind_moved
      rintro ⟨value, given⟩
      rfl
    | lambda body span =>
      simp only [argumentsMapSpans, Argument.mapSpans, resolveArguments, hlater]

theorem resolveBlock_mapSpans (environment : Environment) (configured : Option QualifiedName)
    (arguments : List Argument) :
    (environment.mapSpans move).resolveBlock configured (argumentsMapSpans move arguments) =
      (environment.resolveBlock configured arguments).moved move
        (Option.map (List.map (Operation.mapSpans move))) := by
  cases arguments with
  | nil => rfl
  | cons argument arguments =>
    have hlater := resolveBlock_mapSpans environment configured arguments
    cases argument with
    | positional value span =>
      simp only [argumentsMapSpans, Argument.mapSpans, resolveBlock, hlater]
    | named name value span =>
      simp only [argumentsMapSpans, Argument.mapSpans, resolveBlock, hlater]
    | lambda body span =>
      obtain ⟨statements, bodySpan⟩ := body
      simp only [argumentsMapSpans, Argument.mapSpans, Block.mapSpans, resolveBlock]
      cases configured with
      | none => rfl
      | some type =>
        simp only [enter_mapSpans, resolveStatements_mapSpans (environment.enter type) statements]
        rfl

theorem resolveStatement_mapSpans (environment : Environment) (statement : Statement) :
    (environment.mapSpans move).resolveStatement (statement.mapSpans move) =
      (environment.resolveStatement statement).moved move (Operation.mapSpans move) := by
  cases statement with
  | importName parts span => rfl
  | assignment receiver name target value span =>
    rw [mapSpans_assignment]
    simp only [resolveStatement, resolveReceiver_mapSpans environment receiver,
      resolveExpr_mapSpans environment value, Expr.span_mapSpans]
    apply bind_moved
    intro receiver
    rw [assignedProperty_mapSpans]
    apply bind_moved
    rintro ⟨owner, property⟩
    apply bind_moved
    intro resolved
    rw [checkAssignable_mapSpans]
    apply bind_moved
    intro _
    exact congrArg ok (by rw [Operation.mapSpans]; rfl)
  | localValue name value span =>
    simp only [Statement.mapSpans, resolveStatement, declaredHere?_mapSpans,
      resolveExpr_mapSpans environment value]
    cases environment.declaredHere? name with
    | some first => rfl
    | none =>
      dsimp only [Option.map_none]
      apply bind_moved
      intro resolved
      exact congrArg ok (by rw [Operation.mapSpans])
  | expr value =>
    simp only [Statement.mapSpans, resolveStatement, resolveExpr_mapSpans environment value]
    apply bind_moved
    intro resolved
    exact congrArg ok (Operation.mapSpans_ofExpr resolved).symm

theorem resolveStatements_mapSpans (environment : Environment) (statements : List Statement) :
    (environment.mapSpans move).resolveStatements (statementsMapSpans move statements) =
      (environment.resolveStatements statements).mapSpans move := by
  cases statements with
  | nil => rfl
  | cons statement statements =>
    have hfirst := resolveStatement_mapSpans environment statement
    have hresult : ((environment.mapSpans move).resolveStatement
        (statement.mapSpans move)).result =
          (environment.resolveStatement statement).result.map (Operation.mapSpans move) := by
      rw [hfirst, moved]
    have hlater := resolveStatements_mapSpans
      (environment.after (environment.resolveStatement statement).result statement) statements
    simp only [statementsMapSpans, resolveStatements, hresult, after_mapSpans, hlater]
    simp only [hfirst, moved, Resolution.mapSpans, List.map_append]
    cases (environment.resolveStatement statement).result <;> rfl

end

end Environment

/-! ### Scripts -/

namespace Imports

theorem register_mapSpans (schema : Schema) (undeclared : UndeclaredImports) (imports : Imports)
    (parts : List String) (span : Span) :
    imports.register schema undeclared parts (move span) =
      Prod.map id (List.map (Diagnostic.mapSpans move))
        (imports.register schema undeclared parts span) := by
  unfold register
  cases schema.imported? parts with
  | none => cases undeclared <;> rfl
  | some name =>
    dsimp only
    cases imports.add name <;> rfl

theorem registerAll_mapSpans (schema : Schema) (undeclared : UndeclaredImports)
    (imports : Imports) (entries : List (List String × Span)) :
    imports.registerAll schema undeclared (entries.map (Prod.map id move)) =
      Prod.map id (List.map (Diagnostic.mapSpans move))
        (imports.registerAll schema undeclared entries) := by
  induction entries generalizing imports with
  | nil => rfl
  | cons entry entries ih =>
    obtain ⟨parts, span⟩ := entry
    rw [List.map_cons, Prod.map_apply, id_eq]
    simp only [registerAll, register_mapSpans, Prod.map_fst, Prod.map_snd, id_eq, ih,
      Prod.map_apply, List.map_append]

end Imports

theorem Block.imports_mapSpans (block : Block) :
    (block.mapSpans move).imports = block.imports.map (Prod.map id move) := by
  obtain ⟨statements, span⟩ := block
  unfold Block.imports
  rw [Block.mapSpans, Block.statements, Block.statements, statementsMapSpans_eq_map,
    List.filterMap_map, List.map_filterMap]
  congr 1
  funext statement
  cases statement with
  | assignment receiver => cases receiver <;> rfl
  | _ => rfl

theorem StatementFilter.accepts_mapSpans (filter : StatementFilter) (statement : Statement) :
    filter.accepts (statement.mapSpans move) = filter.accepts statement := by
  have hcall : topLevelCall? (statement.mapSpans move) = topLevelCall? statement := by
    cases statement with
    | assignment receiver => cases receiver <;> rfl
    | expr value =>
      cases value with
      | property receiver => cases receiver <;> rfl
      | call receiver => cases receiver <;> rfl
      | _ => rfl
    | _ => rfl
  cases filter <;> simp only [accepts, hcall]

namespace Schema

/-- Resolving a script in another place is resolving it and moving what comes of it. -/
theorem resolve_mapSpans (schema : Schema) (undeclared : UndeclaredImports)
    (filter : StatementFilter) (block : Block) :
    schema.resolve undeclared filter (block.mapSpans move) =
      (schema.resolve undeclared filter block).mapSpans move := by
  have hstatements : (block.mapSpans move).statements.filter (fun statement =>
      !statement.isImport && filter.accepts statement) =
        statementsMapSpans move (block.statements.filter fun statement =>
          !statement.isImport && filter.accepts statement) := by
    obtain ⟨statements, span⟩ := block
    rw [Block.mapSpans, Block.statements, Block.statements, statementsMapSpans_eq_map,
      statementsMapSpans_eq_map, List.filter_map]
    congr 2
    funext statement
    rw [Function.comp_apply, Statement.isImport_mapSpans, filter.accepts_mapSpans]
  simp only [resolve, Block.imports_mapSpans, Imports.registerAll_mapSpans, hstatements]
  have henvironment : ∀ imports : Imports,
      (⟨schema, imports, [⟨some schema.receiver, []⟩]⟩ : Environment) =
        Environment.mapSpans move ⟨schema, imports, [⟨some schema.receiver, []⟩]⟩ :=
    fun _ => rfl
  rw [henvironment, Environment.resolveStatements_mapSpans]
  simp only [Resolution.mapSpans, Prod.map_snd, Prod.map_fst, id_eq, List.map_append]

theorem resolveExpr_mapSpans (schema : Schema) (value : Expr) :
    schema.resolveExpr (value.mapSpans move) =
      ((schema.resolveExpr value).map (TypedExpr.mapSpans move)).mapError
        (List.map (Diagnostic.mapSpans move)) := by
  let environment : Environment := ⟨schema, .ofDefaults schema.defaultImports, [⟨none, []⟩]⟩
  have hresolve : environment.resolveExpr (value.mapSpans move) =
      (environment.resolveExpr value).moved move (TypedExpr.mapSpans move) :=
    environment.resolveExpr_mapSpans value
  unfold Schema.resolveExpr
  dsimp only
  rw [hresolve, Attempt.moved]
  cases (environment.resolveExpr value).result with
  | none => rfl
  | some resolved => cases (environment.resolveExpr value).diagnostics <;> rfl

end Schema

/-! ### Scripts without places -/

namespace Schema

/-- Scripts that differ in nothing but their spans come to the same operations and the same
diagnostics, and such expressions to the same value or the same diagnostics. -/
theorem same_of_eraseSpans_eq (schema : Schema) :
    (∀ (undeclared : UndeclaredImports) (filter : StatementFilter) (left right : Block),
        left.eraseSpans = right.eraseSpans →
          (schema.resolve undeclared filter left).Same (schema.resolve undeclared filter right)) ∧
      ∀ left right : Expr, left.eraseSpans = right.eraseSpans →
        SameOutcome (schema.resolveExpr left) (schema.resolveExpr right) := by
  refine ⟨fun undeclared filter left right h => ?_, fun left right h => ?_⟩
  · have hmoved : (schema.resolve undeclared filter left).mapSpans (fun _ => .blank) =
        (schema.resolve undeclared filter right).mapSpans fun _ => .blank := by
      rw [← resolve_mapSpans, ← resolve_mapSpans, left.mapSpans_blank, h, right.mapSpans_blank]
    obtain ⟨hoperations, hdiagnostics⟩ := Resolution.mk.inj hmoved
    exact ⟨hoperations, sameReports_of_erased hdiagnostics⟩
  · have hleft := @resolveExpr_mapSpans (fun _ => .blank) schema left
    have hright := @resolveExpr_mapSpans (fun _ => .blank) schema right
    rw [left.mapSpans_blank, h] at hleft
    rw [right.mapSpans_blank, hleft] at hright
    cases hfirst : schema.resolveExpr left with
    | error reported =>
      cases hsecond : schema.resolveExpr right with
      | error other =>
        rw [hfirst, hsecond] at hright
        exact .error (sameReports_of_erased (Except.error.inj hright))
      | ok other =>
        rw [hfirst, hsecond] at hright
        cases hright
    | ok value =>
      cases hsecond : schema.resolveExpr right with
      | error other =>
        rw [hfirst, hsecond] at hright
        cases hright
      | ok other =>
        rw [hfirst, hsecond] at hright
        exact .ok (Except.ok.inj hright)

/-- A script that names a value twice, in two places. -/
def repeatedLocal (first second : Span) : Block :=
  .mk [.localValue "size" (.literal (.int 1) first) first,
    .localValue "size" (.literal (.int 2) second) second] first

theorem same_of_eraseSpans_eq_repeated :
    ∃ schema, build mutualCatalog .receiverFunction "Left" = .ok schema ∧
      (schema.resolve .reported .all
        (repeatedLocal ⟨0, 12, 1, 1⟩ ⟨13, 25, 2, 1⟩)).diagnostics ≠ [] ∧
      (schema.resolve .reported .all (repeatedLocal ⟨0, 12, 1, 1⟩ ⟨13, 25, 2, 1⟩)).Same
        (schema.resolve .reported .all (repeatedLocal ⟨13, 25, 2, 1⟩ ⟨0, 12, 1, 1⟩)) ∧
      SameOutcome (schema.resolveExpr (.this ⟨0, 4, 1, 1⟩))
        (schema.resolveExpr (.this ⟨5, 9, 1, 6⟩)) := by
  have hok : (build mutualCatalog .receiverFunction "Left").toOption.any (fun schema =>
      !(schema.resolve .reported .all
        (repeatedLocal ⟨0, 12, 1, 1⟩ ⟨13, 25, 2, 1⟩)).diagnostics.isEmpty) = true := by
    decide +kernel
  cases hbuild : build mutualCatalog .receiverFunction "Left" with
  | error fault => simp [hbuild, Except.toOption] at hok
  | ok schema =>
    obtain ⟨hscripts, hexpressions⟩ := schema.same_of_eraseSpans_eq
    exact ⟨schema, rfl, by simpa [hbuild, Except.toOption] using hok,
      hscripts .reported .all _ _ rfl, hexpressions _ _ rfl⟩

end Schema

end ConfigScript
