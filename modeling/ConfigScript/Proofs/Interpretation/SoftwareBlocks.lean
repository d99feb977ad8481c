import ConfigScript.Proofs.Interpretation.Agreement
import ConfigScript.Proofs.Interpretation.SoftwareTypes
import ConfigScript.Proofs.Syntax.Wrapped

/-!
# Software types are usable blocks

A project script may call the block of any software type, as often as it likes, and so may the
conventions of the settings. Each such call comes to one operation, which configures the model of
the software type through an accessor of its own; nothing is reported.
-/

namespace ConfigScript

/-! ### What calls of blocks come to -/

namespace Environment

variable {owner object : QualifiedName} {name accessor : String}
  {locals : List (String × LocalBinding)} {outer : List Scope}

theorem resolveStatement_blockCall (environment : Environment)
    (hscopes : environment.scopes = ⟨some owner, locals⟩ :: outer)
    (hoffers : environment.schema.OffersBlock owner name accessor object)
    (body : List Statement) (inner place span : Span) :
    environment.resolveStatement (.expr (.call none name [.lambda (.mk body inner) place] span)) =
      ⟨some (.invoke (.mk (.member owner name) (some (.receiver owner outer.length span))
          (.accessAndConfigure (.custom (.named object) accessor) .unit) []
          (some ((environment.enter object).resolveStatements body).operations) span)),
        ((environment.enter object).resolveStatements body).diagnostics⟩ := by
  have hcandidates : environment.schema.memberCandidates owner name =
      [.ofBlock owner name accessor object] := hoffers
  have hfunctions : environment.receiverFunctions? name span =
      some (.receiver owner outer.length span, [.ofBlock owner name accessor object]) := by
    rw [receiverFunctions?, hscopes, Scope.receivers, List.findSome?_cons]
    dsimp only
    rw [hcandidates]
  have htarget : environment.callTarget none name span =
      .ok (some (.receiver owner outer.length span), [.ofBlock owner name accessor object]) := by
    rw [callTarget, hfunctions]
    rfl
  have hchosen : environment.choose name [.ofBlock owner name accessor object] [] true span =
      .ok (.ofBlock owner name accessor object, []) := rfl
  rw [resolveStatement, resolveExpr]
  simp only [resolveReceiver, Attempt.ok_bind, htarget, resolveArguments]
  simp only [List.any_cons, Argument.isLambda, Bool.true_or, hchosen, Attempt.ok_bind]
  have hconfigured : (Candidate.ofBlock owner name accessor object).semantics.configuredType?.bind
      TypeRef.className? = some object := rfl
  rw [hconfigured, resolveBlock]
  simp [Candidate.ofBlock, bind, Attempt.andThen, pure, Attempt.ok, Operation.ofExpr]

end Environment

/-- An operation that configures the model of a software type, on an object in scope whose class has
the text `owner` for its name. -/
def SoftwareType.ConfiguredBy (type : SoftwareType) (owner : String) (depth : Nat)
    (operation : Operation) : Prop :=
  ∃ receiver object span, receiver.text = owner ∧ TypeRef.parse type.model = .ok (.named object) ∧
    operation = .invoke (.mk (.member receiver type.name) (some (.receiver receiver depth span))
      (.accessAndConfigure (.custom (.named object) ("softwareType:" ++ type.name)) .unit)
      [] (some []) span)

/-- Calls of the blocks of software types, each empty. -/
def SoftwareType.blockCalls (types : List SoftwareType) : List Statement :=
  types.map fun type => .blockCall type.name []

namespace Environment

variable {owner : QualifiedName} {locals : List (String × LocalBinding)}
  {outer : List Scope}

/-- Calls of the blocks of software types come to operations one by one, and report nothing. -/
theorem resolveStatements_blockCalls (environment : Environment)
    (hscopes : environment.scopes = ⟨some owner, locals⟩ :: outer) {types : List SoftwareType}
    (hoffers : ∀ type ∈ types, ∃ object, TypeRef.parse type.model = .ok (.named object) ∧
      environment.schema.OffersBlock owner type.name ("softwareType:" ++ type.name) object)
    {statements : List Statement}
    (hcalls : statementsEraseSpans statements =
      statementsEraseSpans (SoftwareType.blockCalls types)) :
    (environment.resolveStatements statements).diagnostics = [] ∧
      List.Forall₂ (fun type operation => type.ConfiguredBy owner.text outer.length operation)
        types (environment.resolveStatements statements).operations := by
  induction types generalizing statements with
  | nil =>
    cases statements with
    | nil => exact ⟨by rw [resolveStatements], by rw [resolveStatements]; exact .nil⟩
    | cons statement statements => cases hcalls
  | cons type types ih =>
    obtain ⟨⟨object, hparse, hfirst⟩, hothers⟩ := List.forall_mem_cons.mp hoffers
    cases statements with
    | nil => cases hcalls
    | cons statement statements =>
      obtain ⟨hcall, hlater⟩ := List.cons.inj hcalls
      obtain ⟨body, inner, place, span, rfl, hbody⟩ := Statement.exists_of_blockCall hcall
      obtain rfl : body = [] := by
        cases body with
        | nil => rfl
        | cons => cases hbody
      obtain ⟨hquiet, hoperations⟩ := ih hothers hlater
      rw [resolveStatements, resolveStatement_blockCall environment hscopes hfirst]
      have hempty : (environment.enter object).resolveStatements [] = ⟨[], []⟩ := by
        rw [resolveStatements]
      rw [hempty]
      exact ⟨hquiet, .cons ⟨owner, object, span, rfl, hparse, rfl⟩ hoperations⟩

end Environment

/-! ### Scripts of blocks -/

/-- The lines of a script that calls the block of each software type in turn. -/
def SoftwareType.blockLines (types : List SoftwareType) : List String :=
  types.map fun type => type.name ++ " \x7b \x7d"

theorem SoftwareType.render_blockCalls (types : List SoftwareType) :
    (blockCalls types).map Statement.render = blockLines types := by
  rw [blockCalls, blockLines, List.map_map]
  rfl

theorem SoftwareType.wellFormed_blockCalls {types : List SoftwareType}
    (hnames : ∀ type ∈ types, isName type.name = true) :
    ∀ statement ∈ blockCalls types, statement.WellFormed := by
  intro statement hstatement
  obtain ⟨type, htype, rfl⟩ := List.mem_map.mp hstatement
  exact ⟨trivial, hnames type htype, trivial, rfl⟩

theorem SoftwareType.parse_blockLines {types : List SoftwareType}
    (hnames : ∀ type ∈ types, isName type.name = true) (label : String) :
    ∃ parsed, Block.parse label ("\n".intercalate (blockLines types)) = .ok parsed ∧
      statementsEraseSpans parsed.statements = statementsEraseSpans (blockCalls types) := by
  have hwell : (Block.mk (blockCalls types) .blank).WellFormed :=
    scriptWellFormed_of_statements (statementsWellFormed_iff.mpr (wellFormed_blockCalls hnames))
  have hsource : (Block.mk (blockCalls types) .blank).render =
      "\n".intercalate (blockLines types) := by
    apply String.toList_inj.mp
    rw [toList_render, ← render_blockCalls, String.toList_intercalate, List.map_map]
    rfl
  obtain ⟨parsed, hparsed, hsame⟩ := parse_render hwell label
  refine ⟨parsed, hsource ▸ hparsed, ?_⟩
  cases parsed
  exact (Block.mk.inj hsame).1

/-! ### Evaluations -/

/-- The statements of a script are calls, by names other than some. -/
def Block.CallsBesides (block : Block) (names : List String) : Prop :=
  ∀ statement ∈ block.statements, ∃ name ∉ names,
    StatementFilter.topLevelCall? statement = some name

namespace Block.CallsBesides

variable {block : Block} {names : List String} (h : block.CallsBesides names)

include h

theorem not_import {statement : Statement} (hmem : statement ∈ block.statements) :
    statement.isImport = false := by
  obtain ⟨name, -, hcall⟩ := h statement hmem
  cases statement with
  | importName => cases hcall
  | _ => rfl

theorem imports_eq : block.imports = [] := by
  refine List.filterMap_eq_nil_iff.mpr fun statement hmem => ?_
  have hnot := h.not_import hmem
  cases statement with
  | importName => cases hnot
  | _ => rfl

end Block.CallsBesides

theorem StatementFilter.topLevelCall?_eraseSpans (statement : Statement) :
    topLevelCall? statement.eraseSpans = topLevelCall? statement := by
  cases statement with
  | importName => rfl
  | assignment receiver => cases receiver <;> rfl
  | localValue => rfl
  | expr value =>
    cases value with
    | property receiver => cases receiver <;> rfl
    | call receiver => cases receiver <;> rfl
    | _ => rfl

/-- Spans have no part in which functions a script calls. -/
theorem Block.callsBesides_of_eraseSpans {block : Block} {names : List String}
    {statements : List Statement}
    (hsame : statementsEraseSpans block.statements = statementsEraseSpans statements)
    (h : ∀ statement ∈ statements, ∃ name ∉ names,
      StatementFilter.topLevelCall? statement = some name) : block.CallsBesides names := by
  rw [statementsEraseSpans_eq_map, statementsEraseSpans_eq_map] at hsame
  intro statement hstatement
  obtain ⟨other, hother, heq⟩ := List.mem_map.mp (hsame ▸ List.mem_map_of_mem hstatement)
  obtain ⟨name, hname, hcall⟩ := h other hother
  refine ⟨name, hname, ?_⟩
  rw [← StatementFilter.topLevelCall?_eraseSpans, ← heq, StatementFilter.topLevelCall?_eraseSpans,
    hcall]

namespace Schema

variable {block : Block} {names : List String}

/-- The environment at the top of a script without imports. -/
def top (schema : Schema) : Environment :=
  ⟨schema, .ofDefaults schema.defaultImports, [⟨some schema.receiver, []⟩]⟩

theorem resolve_exceptCalls (schema : Schema) (h : block.CallsBesides names) :
    schema.resolve .ignored (.exceptCalls names) block =
      schema.top.resolveStatements block.statements := by
  have hall : block.statements.filter (fun statement => !statement.isImport &&
      (StatementFilter.exceptCalls names).accepts statement) = block.statements := by
    refine List.filter_eq_self.mpr fun statement hmem => ?_
    obtain ⟨name, hname, hcall⟩ := h statement hmem
    simp [h.not_import hmem, StatementFilter.accepts, hcall, hname]
  simp only [resolve, h.imports_eq, hall]
  rfl

theorem resolve_onlyCalls (schema : Schema) (h : block.CallsBesides names) :
    schema.resolve .ignored (.onlyCalls names) block = ⟨[], []⟩ := by
  have hnone : block.statements.filter (fun statement => !statement.isImport &&
      (StatementFilter.onlyCalls names).accepts statement) = [] := by
    refine List.filter_eq_nil_iff.mpr fun statement hmem => ?_
    obtain ⟨name, hname, hcall⟩ := h statement hmem
    simp [StatementFilter.accepts, hcall, hname]
  simp only [resolve, h.imports_eq, hnone, Environment.resolveStatements]
  rfl

end Schema

namespace Interpreter

variable {interpreter : Interpreter}

/-- A script that is evaluated in two steps and reports nothing; all its operations belong to the
later step. -/
def EvaluatesTo (interpreter : Interpreter) (context : ScriptContext) (source identifier : String)
    (operations : List Operation) : Prop :=
  ∃ before last, (interpreter.evaluate context source).1 = .ok (.resolved [before, last]) ∧
    (Evaluation.resolved [before, last]).isUsable = true ∧ before.resolution.operations = [] ∧
    last.identifier = identifier ∧ last.resolution.operations = operations

theorem Faithful.stepsFor_eq (h : interpreter.Faithful) {payload : Payload} {steps : List Step}
    (hsteps : payload.kind.steps interpreter.catalog = .ok steps) :
    (interpreter.stepsFor ⟨payload.kind, some payload⟩).1 = .ok (some steps) := by
  have hkind : payload.kind ≠ .unknown := by cases payload <;> simp [Payload.kind]
  unfold Interpreter.stepsFor
  rw [if_neg hkind, if_neg (by simp)]
  dsimp only
  rw [(h.stepsOf payload.kind).1, hsteps]
  rfl

theorem evaluate_of_parse {context : ScriptContext} {steps : List Step} {source : String}
    {block : Block} (hsteps : (interpreter.stepsFor context).1 = .ok (some steps))
    (hparse : Block.parse context.label source = .ok block) :
    (interpreter.evaluate context source).1 = .ok (.resolved (block.evaluate steps)) := by
  unfold evaluate
  simp only [hsteps, hparse]

/-- When a script is nothing but calls that the first of two steps leaves to the second, the second
step makes all of the script. -/
theorem Faithful.evaluatesTo (h : interpreter.Faithful) (payload : Payload) {before last : Step}
    (hsteps : payload.kind.steps interpreter.catalog = .ok [before, last]) {names : List String}
    (hbefore : before.filter = .onlyCalls names) (hlast : last.filter = .exceptCalls names)
    {source : String} {block : Block}
    (hparse : Block.parse (ScriptContext.label ⟨payload.kind, some payload⟩) source = .ok block)
    (hcalls : block.CallsBesides names)
    (hquiet : (last.schema.top.resolveStatements block.statements).diagnostics = []) :
    interpreter.EvaluatesTo ⟨payload.kind, some payload⟩ source last.identifier
      (last.schema.top.resolveStatements block.statements).operations := by
  have hevaluate := evaluate_of_parse (h.stepsFor_eq hsteps) hparse
  have hundeclared : block.undeclaredImports [before.schema, last.schema] = [] := by
    rw [Block.undeclaredImports, hcalls.imports_eq]
    rfl
  have hfirst : before.schema.resolve .ignored before.filter block = ⟨[], []⟩ := by
    rw [hbefore, Schema.resolve_onlyCalls _ hcalls]
  have hsecond : last.schema.resolve .ignored last.filter block =
      ⟨(last.schema.top.resolveStatements block.statements).operations, []⟩ := by
    rw [hlast, Schema.resolve_exceptCalls _ hcalls, ← hquiet]
  have hresults : block.evaluate [before, last] =
      [⟨before.identifier, before.schema.fingerprint, ⟨[], []⟩⟩,
        ⟨last.identifier, last.schema.fingerprint,
          ⟨(last.schema.top.resolveStatements block.statements).operations, []⟩⟩] := by
    simp [Block.evaluate, hundeclared, reportLast, Step.resolve, hfirst, hsecond]
  exact ⟨_, _, hevaluate.trans (by rw [hresults]), rfl, rfl, rfl, rfl⟩

end Interpreter

/-- A project script of blocks of software types comes to one operation for each of its lines. -/
def Interpreter.ConfiguresProject (interpreter : Interpreter) (types : List SoftwareType) : Prop :=
  ∀ path, ∃ operations, interpreter.EvaluatesTo ⟨.project, some (.project path)⟩
      ("\n".intercalate (SoftwareType.blockLines types)) "project" operations ∧
    List.Forall₂ (fun type operation => type.ConfiguredBy Bundled.projectReceiver 0 operation)
      types operations

/-- In settings the same lines, with whatever margin inside the block of the conventions, come to
the operations of that block. -/
def Interpreter.ConfiguresSettings (interpreter : Interpreter) (types : List SoftwareType) : Prop :=
  ∀ displayName margin, ∃ settings conventions operations span,
    settings.text = Bundled.settingsReceiver ∧ conventions.text = Bundled.conventionsType ∧
    interpreter.EvaluatesTo ⟨.settings, some (.settings displayName)⟩
      ("\n".intercalate (wrappedLines "conventions" margin (SoftwareType.blockLines types)))
      "settings" [.invoke (.mk (.member settings "conventions")
        (some (.receiver settings 0 span))
        (.accessAndConfigure (.custom (.named conventions) "conventions") .unit) []
        (some operations) span)] ∧
    List.Forall₂ (fun type operation => type.ConfiguredBy Bundled.conventionsType 1 operation)
      types operations

theorem ScriptKind.steps_eq_pair {kind : ScriptKind} {catalog : Catalog} {first second : StepPlan}
    (hplans : kind.plans = [first, second]) {steps : List Step}
    (h : kind.steps catalog = .ok steps) :
    ∃ before last, steps = [before, last] ∧ before.filter = first.filter ∧
      last.filter = second.filter ∧ last.identifier = second.identifier ∧
      Schema.build catalog .receiverFunction second.receiver = .ok last.schema := by
  rw [ScriptKind.steps, hplans] at h
  cases Fallible.mapM_eq_ok.mp h with
  | cons hfirst hrest =>
    cases hrest with
    | cons hsecond hnone =>
      cases hnone
      obtain ⟨_, -, hfirst⟩ := Fallible.bind_eq_ok.mp hfirst
      obtain ⟨schema, hschema, hsecond⟩ := Fallible.bind_eq_ok.mp hsecond
      obtain rfl := Fallible.pure_eq_ok.mp hfirst
      obtain rfl := Fallible.pure_eq_ok.mp hsecond
      exact ⟨_, _, rfl, rfl, rfl, rfl, hschema⟩

namespace Interpreter

variable {registry : Registry} {interpreter : Interpreter} {types : List SoftwareType}

section Scripts

variable (hreached : Reached Bundled.catalog registry interpreter)
  (hdistinct : (registry.softwareTypes.map SoftwareType.name).Nodup)
  (hnames : ∀ type ∈ types, isName type.name = true)
  (htypes : ∀ type ∈ types, type ∈ registry.softwareTypes)

include hreached hdistinct hnames htypes

theorem configuresProject {steps : List Step}
    (hsteps : ScriptKind.project.steps interpreter.catalog = .ok steps)
    (hplugins : ∀ type ∈ types, type.name ≠ "plugins") : interpreter.ConfiguresProject types := by
  intro path
  obtain ⟨before, last, rfl, hbefore, hlast, hidentifier, hbuild⟩ :=
    ScriptKind.steps_eq_pair rfl hsteps
  obtain ⟨hreceiver, -⟩ := Schema.presents_of_build hbuild
  obtain ⟨block, hparse, hsame⟩ := SoftwareType.parse_blockLines hnames
    (ScriptContext.label ⟨.project, some (.project path)⟩)
  have hcalls : block.CallsBesides ["plugins"] := by
    refine Block.callsBesides_of_eraseSpans hsame fun statement hstatement => ?_
    obtain ⟨type, htype, rfl⟩ := List.mem_map.mp hstatement
    exact ⟨type.name, by simpa using hplugins type htype, rfl⟩
  have howner : last.schema.receiver.text ∈ SoftwareType.owners := by
    simp [hreceiver, SoftwareType.owners]
  obtain ⟨hquiet, hoperations⟩ := last.schema.top.resolveStatements_blockCalls rfl
    (fun type htype => offersBlock_softwareType hreached.withRegistry_eq hdistinct hbuild howner
      .receiver (htypes type htype)) hsame
  rw [hreceiver] at hoperations
  have hevaluates := hreached.faithful.evaluatesTo (.project path) hsteps hbefore hlast
    hparse hcalls hquiet
  rw [hidentifier] at hevaluates
  exact ⟨_, hevaluates, hoperations⟩

theorem configuresSettings {steps : List Step}
    (hsteps : ScriptKind.settings.steps interpreter.catalog = .ok steps) :
    interpreter.ConfiguresSettings types := by
  intro displayName margin
  obtain ⟨before, last, rfl, hbefore, hlast, hidentifier, hbuild⟩ :=
    ScriptKind.steps_eq_pair rfl hsteps
  obtain ⟨hreceiver, -⟩ := Schema.presents_of_build hbuild
  have hcatalog := hreached.withRegistry_eq
  obtain ⟨conventions, hconventions, hneeded, hoffered⟩ := offersBlock_conventions hcatalog hbuild
  have hword : isName "conventions" = true := by decide
  obtain ⟨block, hparse, hsame⟩ := parse_wrappedLines hword
    (SoftwareType.wellFormed_blockCalls hnames) margin
    (ScriptContext.label ⟨.settings, some (.settings displayName)⟩)
  rw [SoftwareType.render_blockCalls] at hparse
  have hcalls : block.CallsBesides ["pluginManagement", "plugins"] := by
    apply Block.callsBesides_of_eraseSpans (hsame.trans (statementsEraseSpans_eq_map [_]).symm)
    exact List.forall_mem_singleton.mpr ⟨"conventions", by decide, rfl⟩
  obtain ⟨statement, hstatements, hcall⟩ : ∃ statement, block.statements = [statement] ∧
      statement.eraseSpans =
        (Statement.blockCall "conventions" (SoftwareType.blockCalls types)).eraseSpans := by
    rw [statementsEraseSpans_eq_map] at hsame
    exact List.map_eq_singleton_iff.mp hsame
  obtain ⟨body, inner, place, span, rfl, hbody⟩ := Statement.exists_of_blockCall hcall
  have howner : conventions.text ∈ SoftwareType.owners := by
    simp [hconventions, SoftwareType.owners]
  obtain ⟨hquiet, hoperations⟩ :=
    (last.schema.top.enter conventions).resolveStatements_blockCalls rfl
      (fun type htype => offersBlock_softwareType hcatalog hdistinct hbuild howner hneeded
        (htypes type htype)) hbody
  rw [hconventions] at hoperations
  have hresolved : last.schema.top.resolveStatements block.statements =
      ⟨[.invoke (.mk (.member last.schema.receiver "conventions")
          (some (.receiver last.schema.receiver 0 span))
          (.accessAndConfigure (.custom (.named conventions) "conventions") .unit) []
          (some ((last.schema.top.enter conventions).resolveStatements body).operations) span)],
        []⟩ := by
    have hsingle := last.schema.top.resolveStatement_blockCall rfl hoffered body inner place span
    rw [hquiet] at hsingle
    rw [hstatements, Environment.resolveStatements, hsingle, Environment.resolveStatements]
    rfl
  have hevaluates := hreached.faithful.evaluatesTo (.settings displayName) hsteps
    hbefore hlast hparse hcalls (by rw [hresolved])
  rw [hidentifier, hresolved] at hevaluates
  exact ⟨_, conventions, _, span, hreceiver, hconventions, hevaluates, hoperations⟩

end Scripts

end Interpreter

/-- Every software type becomes a usable block: with any registry whose software types have distinct
names, all of them names of the language other than that of the plugin block, scripts may call
their blocks as they like, so long as the schemas of both kinds of script build. -/
theorem softwareTypes_usable {registry : Registry}
    (hdistinct : (registry.softwareTypes.map SoftwareType.name).Nodup)
    (hnames : ∀ type ∈ registry.softwareTypes,
      isName type.name = true ∧ type.name ≠ "plugins") :
    (∃ interpreter, Interpreter.ofCatalog Bundled.catalog registry = .ok interpreter) ∧
      ∀ interpreter, Interpreter.Reached Bundled.catalog registry interpreter →
        (∃ steps, ScriptKind.project.steps interpreter.catalog = .ok steps) →
        (∃ steps, ScriptKind.settings.steps interpreter.catalog = .ok steps) →
          ∀ types, (∀ type ∈ types, type ∈ registry.softwareTypes) →
            interpreter.ConfiguresProject types ∧ interpreter.ConfiguresSettings types := by
  constructor
  · obtain ⟨catalog, hcatalog⟩ : ∃ catalog, Bundled.catalog.withRegistry registry = .ok catalog :=
      Catalog.exists_addSoftwareTypes
        (List.forall_mem_cons.mpr ⟨⟨_, rfl⟩, List.forall_mem_singleton.mpr ⟨_, rfl⟩⟩) hdistinct
        (by simp)
    exact ⟨_, Fallible.bind_eq_ok.mpr ⟨catalog, hcatalog, rfl⟩⟩
  · rintro interpreter hreached ⟨projectSteps, hproject⟩ ⟨settingsSteps, hsettings⟩ types htypes
    have hnamed : ∀ type ∈ types, isName type.name = true :=
      fun type htype => (hnames type (htypes type htype)).1
    have hplugins : ∀ type ∈ types, type.name ≠ "plugins" :=
      fun type htype => (hnames type (htypes type htype)).2
    exact ⟨Interpreter.configuresProject hreached hdistinct hnamed htypes hproject hplugins,
      Interpreter.configuresSettings hreached hdistinct hnamed htypes hsettings⟩

/-- Software types one of which is named like a block of the settings and configures settings. -/
def confusingRegistry : Registry :=
  ⟨[⟨"library", " ext.Library", [⟨"ext.Library", [], [], [], []⟩]⟩,
    ⟨"conventions", "build.settings.Settings", []⟩]⟩

/-- Scripts that call each block twice. -/
theorem softwareTypes_usable_confusing :
    ∃ interpreter, Interpreter.ofCatalog Bundled.catalog confusingRegistry = .ok interpreter ∧
      interpreter.ConfiguresProject
        (confusingRegistry.softwareTypes ++ confusingRegistry.softwareTypes) ∧
      interpreter.ConfiguresSettings
        (confusingRegistry.softwareTypes ++ confusingRegistry.softwareTypes) := by
  have hok : (Interpreter.ofCatalog Bundled.catalog confusingRegistry).toOption.any
      (fun interpreter => (ScriptKind.project.steps interpreter.catalog).toOption.isSome &&
        (ScriptKind.settings.steps interpreter.catalog).toOption.isSome) = true := by
    decide +kernel
  obtain ⟨⟨interpreter, hinterpreter⟩, husable⟩ :=
    @softwareTypes_usable confusingRegistry (by decide) (by decide)
  rw [hinterpreter] at hok
  obtain ⟨hproject, hsettings⟩ := Bool.and_eq_true_iff.mp hok
  obtain ⟨projectSteps, hproject⟩ := Option.isSome_iff_exists.mp hproject
  obtain ⟨settingsSteps, hsettings⟩ := Option.isSome_iff_exists.mp hsettings
  exact ⟨interpreter, hinterpreter, husable interpreter (.start hinterpreter)
    ⟨_, Fallible.toOption_eq_some.mp hproject⟩ ⟨_, Fallible.toOption_eq_some.mp hsettings⟩ _
    (by simp)⟩

end ConfigScript
