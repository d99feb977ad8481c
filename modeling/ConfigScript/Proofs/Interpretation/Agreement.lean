import ConfigScript.Proofs.Interpretation.Partition
import ConfigScript.Proofs.Schema.Built

/-!
# Schemas of one catalog agree

All schemas of a catalog have its functions, objects and default imports, and a class that two of
them have is the same in both. Any class of a schema can be the receiver of a schema of its own,
which is a part of the first one. So the steps of an interpretation never disagree about a type.
-/

namespace ConfigScript

/-- What one type needs, every type that needs it needs too. -/
theorem Catalog.Needs.trans {catalog : Catalog} {style : LambdaStyle}
    {receiver middle name : QualifiedName} (hmiddle : catalog.Needs style receiver middle)
    (h : catalog.Needs style middle name) : catalog.Needs style receiver name := by
  induction h with
  | receiver => exact hmiddle
  | functionParameter hfunction hparameter hnames =>
    exact .functionParameter hfunction hparameter hnames
  | functionResult hfunction hreturns hnames => exact .functionResult hfunction hreturns hnames
  | object hobject hnames => exact .object hobject hnames
  | defaultImport himport hdecl => exact .defaultImport himport hdecl
  | member _ hdecl hmention hnames ih => exact .member ih hdecl hmention hnames
  | supertype _ hdecl hsup habove ih => exact .supertype ih hdecl hsup habove

namespace Schema

/-- Two schemas that may have different classes, but say the same of all that both of them have,
and have everything else in common. -/
structure Agrees (schema other : Schema) : Prop where
  classes : ∀ name first second, schema.classes.find? name = some first →
    other.classes.find? name = some second → first = second
  functions : schema.functions = other.functions
  objects : schema.objects = other.objects
  defaultImports : schema.defaultImports = other.defaultImports

/-- Every class of a part is a class of the schema. -/
def Extends (schema part : Schema) : Prop :=
  ∀ name dataClass, part.classes.find? name = some dataClass →
    schema.classes.find? name = some dataClass

namespace Presents

variable {catalog : Catalog} {style : LambdaStyle} {declarations : Declarations}
  {schema other : Schema}

theorem agrees (hcatalog : Declarations.ofCatalog catalog style = .ok declarations)
    (h : schema.Presents catalog declarations) (hother : other.Presents catalog declarations) :
    schema.Agrees other := by
  constructor
  case classes =>
    intro name first second hfirst hsecond
    obtain ⟨-, decl, hdecl, hbuilt⟩ := (h.find?_classes hcatalog).mp hfirst
    obtain ⟨-, again, hagain, hrebuilt⟩ := (hother.find?_classes hcatalog).mp hsecond
    obtain rfl : decl = again := Option.some.inj (hdecl.symm.trans hagain)
    exact Except.ok.inj (hbuilt.symm.trans hrebuilt)
  case functions =>
    obtain ⟨functions, hbuilt, hschema⟩ := h.functions
    obtain ⟨again, hrebuilt, hsecond⟩ := hother.functions
    obtain rfl : functions = again := Except.ok.inj (hbuilt.symm.trans hrebuilt)
    rw [hschema, hsecond]
  case objects =>
    obtain ⟨objects, hbuilt, hschema⟩ := h.objects
    obtain ⟨again, hrebuilt, hsecond⟩ := hother.objects
    obtain rfl : objects = again := Except.ok.inj (hbuilt.symm.trans hrebuilt)
    rw [hschema, hsecond]
  case defaultImports =>
    apply NameSet.eq_of_mem_iff
    intro name
    rw [h.imports, hother.imports]

/-- A class of a schema, with the classes that it needs, makes a schema of its own. -/
theorem exists_part (h : schema.Presents catalog declarations) {name : QualifiedName}
    (hname : schema.classes.contains name = true) :
    ∃ part, part.receiver = name ∧ part.Presents catalog declarations ∧ schema.Extends part := by
  classical
  have hneeds := h.needed name hname
  let kept := fun other => decide (catalog.Needs declarations.style name other)
  have hfind : ∀ other dataClass, (schema.classes.restrict kept).find? other = some dataClass ↔
      catalog.Needs declarations.style name other ∧
        schema.classes.find? other = some dataClass := by
    intro other dataClass
    rw [NameMap.find?_restrict, decide_eq_true_iff]
  refine ⟨{ schema with receiver := name, classes := schema.classes.restrict kept }, rfl, ?_,
    fun other dataClass hclass => ((hfind other dataClass).mp hclass).2⟩
  constructor
  case style => exact h.style
  case readable => exact h.readable
  case needed =>
    intro other hother
    obtain ⟨dataClass, hclass⟩ := NameMap.contains_iff.mp hother
    exact ((hfind other dataClass).mp hclass).1
  case classes =>
    intro other hother
    obtain ⟨decl, dataClass, hdecl, hread, hbuilt, hclass⟩ := h.classes other (hneeds.trans hother)
    exact ⟨decl, dataClass, hdecl, hread, hbuilt, (hfind other dataClass).mpr ⟨hother, hclass⟩⟩
  case functions => exact h.functions
  case objects => exact h.objects
  case imports => exact h.imports
  case declared =>
    intro imported himported
    have hdeclared := h.declared imported himported
    simp only [declares, Bool.or_eq_true] at hdeclared ⊢
    apply hdeclared.imp_left
    apply Or.imp_left
    intro hclass
    -- A default import that names a class is needed from wherever the search starts.
    obtain ⟨decl, dataClass, hdecl, -, -, hfound⟩ := h.classes imported (h.needed imported hclass)
    have himport := (h.imports imported).mp himported
    exact NameMap.contains_iff.mpr
      ⟨dataClass, (hfind imported dataClass).mpr ⟨.defaultImport himport hdecl, hfound⟩⟩

end Presents

variable {catalog : Catalog} {style : LambdaStyle} {receiver other : String}
  {schema second : Schema}

theorem agrees_of_build (h : build catalog style receiver = .ok schema)
    (hsecond : build catalog style other = .ok second) : schema.Agrees second := by
  obtain ⟨-, declarations, hcatalog, hpresents⟩ := build_eq_ok_iff.mp h
  obtain ⟨-, again, hagain, hpresented⟩ := build_eq_ok_iff.mp hsecond
  obtain rfl : declarations = again := Except.ok.inj (hcatalog.symm.trans hagain)
  exact hpresents.agrees hcatalog hpresented

theorem exists_part_of_build (h : build catalog style receiver = .ok schema) {name : QualifiedName}
    (hname : schema.classes.contains name = true) :
    ∃ part, build catalog style name.text = .ok part ∧ schema.Extends part := by
  obtain ⟨-, declarations, hcatalog, hpresents⟩ := build_eq_ok_iff.mp h
  obtain ⟨part, rfl, hpart, hextends⟩ := hpresents.exists_part hname
  exact ⟨part, build_eq_ok_iff.mpr ⟨rfl, declarations, hcatalog, hpart⟩, hextends⟩

end Schema

namespace Interpreter

variable {interpreter : Interpreter}

theorem catalog_stepsOf (kind : ScriptKind) :
    (interpreter.stepsOf kind).2.catalog = interpreter.catalog := by
  unfold stepsOf
  split
  · rfl
  · split <;> rfl

theorem catalog_stepsFor (context : ScriptContext) :
    (interpreter.stepsFor context).2.catalog = interpreter.catalog := by
  unfold stepsFor
  split
  · rfl
  · split
    · rfl
    · exact catalog_stepsOf context.kind

/-- Whatever an interpreter has been asked for, its catalog is the one with the registry. -/
theorem Reached.withRegistry_eq {catalog : Catalog} {registry : Registry}
    (h : Reached catalog registry interpreter) :
    catalog.withRegistry registry = .ok interpreter.catalog := by
  induction h with
  | start h =>
    obtain ⟨extended, hextended, h⟩ := Fallible.bind_eq_ok.mp h
    obtain rfl := Fallible.pure_eq_ok.mp h
    exact hextended
  | stepsFor _ context ih => rw [ih, catalog_stepsFor]

theorem Faithful.build_of_stepsFor (h : interpreter.Faithful) {context : ScriptContext}
    {steps : List Step} (hsteps : (interpreter.stepsFor context).1 = .ok (some steps))
    {step : Step} (hstep : step ∈ steps) :
    ∃ receiver, Schema.build interpreter.catalog .receiverFunction receiver = .ok step.schema := by
  obtain ⟨hkind, hsteps⟩ := h.steps_of_stepsFor hsteps
  exact (ScriptKind.two_steps hkind hsteps).1 step hstep

end Interpreter

/-- The schemas of a catalog agree, those of their classes are parts of them, and so the steps of
any scripts, the same or not, that interpreters of the catalog are asked for agree as well. -/
theorem Catalog.schemas_agree (catalog : Catalog) (style : LambdaStyle) :
    (∀ receiver other schema second, Schema.build catalog style receiver = .ok schema →
      Schema.build catalog style other = .ok second → schema.Agrees second) ∧
    (∀ receiver schema name, Schema.build catalog style receiver = .ok schema →
      schema.classes.contains name = true →
        ∃ part, Schema.build catalog style name.text = .ok part ∧ schema.Extends part) ∧
    ∀ registry first second context other steps others,
      Interpreter.Reached catalog registry first → Interpreter.Reached catalog registry second →
      (first.stepsFor context).1 = .ok (some steps) →
      (second.stepsFor other).1 = .ok (some others) →
        ∀ step ∈ steps, ∀ later ∈ others, step.schema.Agrees later.schema := by
  refine ⟨?_, ?_, ?_⟩
  · intro receiver other schema second hschema hsecond
    exact Schema.agrees_of_build hschema hsecond
  · intro receiver schema name hschema hname
    exact Schema.exists_part_of_build hschema hname
  · intro registry first second context other steps others hfirst hsecond hsteps hothers
    have hcatalog : first.catalog = second.catalog :=
      Except.ok.inj (hfirst.withRegistry_eq.symm.trans hsecond.withRegistry_eq)
    intro step hstep later hlater
    obtain ⟨receiver, hschema⟩ := hfirst.faithful.build_of_stepsFor hsteps hstep
    obtain ⟨receiver, hlater⟩ := hsecond.faithful.build_of_stepsFor hothers hlater
    exact Schema.agrees_of_build hschema (hcatalog ▸ hlater)

/-- Projects and the plugin blocks in front of them, which share the type of plugins. -/
def projectCatalog : Catalog :=
  ⟨[⟨Bundled.pluginsReceiver, [], [⟨"plugin", "Plugin", true, false⟩], [], []⟩,
    ⟨Bundled.projectReceiver, [Bundled.pluginsReceiver], [], [], []⟩,
    ⟨"Plugin", [], [⟨"owner", Bundled.projectReceiver, true, false⟩], [], []⟩], [], [],
    [Bundled.pluginsReceiver]⟩

/-- Plugin blocks and the rest of a project script agree, in schemas of either. -/
theorem Catalog.schemas_agree_project :
    ∃ project plugins interpreter steps,
      Schema.build projectCatalog .receiverFunction Bundled.projectReceiver = .ok project ∧
      Schema.build projectCatalog .receiverFunction Bundled.pluginsReceiver = .ok plugins ∧
      project.Agrees plugins ∧ project.Extends plugins ∧
      Interpreter.Reached projectCatalog .empty interpreter ∧
      (interpreter.stepsFor ⟨.project, some (.project ":lib")⟩).1 = .ok (some steps) ∧
      ∀ step ∈ steps, ∀ later ∈ steps, step.schema.Agrees later.schema := by
  have hagree := schemas_agree projectCatalog .receiverFunction
  have hparts : (Schema.build projectCatalog .receiverFunction
      Bundled.projectReceiver).toOption.any (fun schema =>
        schema.classes.names.any fun name => name.text == Bundled.pluginsReceiver) = true := by
    decide
  have hsteps : (Interpreter.ofCatalog projectCatalog .empty).toOption.any (fun interpreter =>
      (interpreter.stepsFor ⟨.project, some (.project ":lib")⟩).1.toOption.any Option.isSome) =
        true := by
    decide
  cases hproject : Schema.build projectCatalog .receiverFunction Bundled.projectReceiver with
  | error fault => simp [hproject, Except.toOption] at hparts
  | ok project =>
    cases hinterpreter : Interpreter.ofCatalog projectCatalog .empty with
    | error fault => simp [hinterpreter, Except.toOption] at hsteps
    | ok interpreter =>
      cases hscript : (interpreter.stepsFor ⟨.project, some (.project ":lib")⟩).1 with
      | error fault => simp [hinterpreter, hscript, Except.toOption] at hsteps
      | ok found =>
        cases found with
        | none => simp [hinterpreter, hscript, Except.toOption] at hsteps
        | some steps =>
          obtain ⟨name, hname, htext⟩ : ∃ name ∈ project.classes.names,
              name.text = Bundled.pluginsReceiver := by
            simpa [hproject, Except.toOption] using hparts
          have hclass := NameMap.contains_iff.mpr (NameMap.mem_names_iff.mp hname)
          obtain ⟨plugins, hplugins, hextends⟩ := hagree.2.1 _ project name hproject hclass
          rw [htext] at hplugins
          refine ⟨project, plugins, interpreter, steps, rfl, hplugins,
            hagree.1 _ _ project plugins hproject hplugins, hextends, .start hinterpreter,
            hscript, ?_⟩
          exact hagree.2.2 _ interpreter interpreter _ _ steps steps (.start hinterpreter)
            (.start hinterpreter) hscript hscript

end ConfigScript
