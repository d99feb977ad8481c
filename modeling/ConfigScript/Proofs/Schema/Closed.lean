import ConfigScript.Proofs.Schema.Built
import ConfigScript.Proofs.Schema.Members

/-!
# Built schemas are closed

A schema that was built without fault holds a class under every name that occurs in one of its
types, and it holds no more classes than its receiver, the packages of the catalog and the default
imports make necessary. The default imports of the schema are those of the catalog, and each of them
is declared in it.
-/

namespace ConfigScript

def Constructor.types (constructor : Constructor) : List TypeRef :=
  constructor.parameters.flatMap Parameter.types

def ExternalFunction.types (function : ExternalFunction) : List TypeRef :=
  function.parameters.flatMap Parameter.types ++ function.semantics.types

def DataClass.types (dataClass : DataClass) : List TypeRef :=
  dataClass.supertypes.names.map .named ++ dataClass.properties.map Property.type ++
    dataClass.functions.flatMap MemberFunction.types ++
    dataClass.constructors.flatMap Constructor.types

/-- All types that occur in a schema. -/
def Schema.types (schema : Schema) : List TypeRef :=
  .named schema.receiver :: schema.classes.values.flatMap DataClass.types ++
    schema.functions.values.flatMap ExternalFunction.types ++ schema.objects.values

/-- Every name in a schema leads to what it names, and every function keeps to its protocol. -/
structure Schema.Closed (schema : Schema) : Prop where
  types : ∀ name, .named name ∈ schema.types → schema.classes.contains name = true
  imports : ∀ name ∈ schema.defaultImports, schema.declares name = true
  classes : ∀ name dataClass, schema.classes.find? name = some dataClass →
    dataClass.name = name ∧
      ∀ function ∈ dataClass.functions, function.receiver = name ∧ function.semantics.Fits name
  functions : ∀ name function, schema.functions.find? name = some function →
    function.name = name ∧ ∃ type, function.semantics = .pure type

namespace Declarations

variable {catalog : Catalog} {style : LambdaStyle} {declarations : Declarations}
  {root : QualifiedName}

/-- A class has all its types among the needed ones, supertypes included. -/
theorem dataClass_eq_ok (hcatalog : ofCatalog catalog style = .ok declarations)
    {name : QualifiedName} (hneeds : catalog.Needs style root name) {decl : TypeDecl}
    (hdecl : catalog.Declares name decl) {dataClass : DataClass}
    (h : declarations.dataClass name decl = .ok dataClass) :
    dataClass.name = name ∧
      (∀ function ∈ dataClass.functions,
        function.receiver = name ∧ function.semantics.Fits name) ∧
      ∀ type ∈ dataClass.types, catalog.Covers style root type := by
  replace h := materialised h
  have hmember : ∀ function ∈ dataClass.functions, function.receiver = name ∧
      function.semantics.Fits name ∧ ∀ type ∈ function.types, catalog.Covers style root type := by
    intro function hfunction
    obtain ⟨⟨above, decl⟩, hlineage, own, hown, hbuilt⟩ := h.exists_own_function hfunction
    exact memberFunction_eq_ok hcatalog hneeds hlineage hown hbuilt
  refine ⟨h.name, fun function hfunction => ?_, fun type htype => ?_⟩
  · exact ⟨(hmember function hfunction).1, (hmember function hfunction).2.1⟩
  simp only [DataClass.types, List.mem_append] at htype
  rcases htype with ((hsupertype | hproperty) | hfunction) | hconstructor
  · rw [h.supertypes] at hsupertype
    obtain ⟨above, habove, rfl⟩ := List.mem_map.mp hsupertype
    obtain ⟨hmem, hdeclared⟩ := List.mem_filter.mp (NameSet.mem_ofList.mp habove)
    obtain ⟨below, text, hbelow, htext, hparse⟩ := exists_of_mem_supertypesOf hmem
    obtain ⟨aboveDecl, hfind⟩ := NameMap.contains_iff.mp hdeclared
    rintro _ ⟨⟩
    obtain rfl := QualifiedName.parse_eq_ok.mp hparse
    exact .supertype hneeds ((find?_types hcatalog).mp hbelow) htext
      ((find?_types hcatalog).mp hfind)
  · obtain ⟨property, hmem, rfl⟩ := List.mem_map.mp hproperty
    obtain ⟨⟨above, decl⟩, hlineage, own, hown, hbuilt⟩ := h.exists_own_property hmem
    obtain ⟨habove, hdeclares⟩ := needs_of_mem_lineage hcatalog hneeds hlineage
    exact covers_of_mentions habove hdeclares (.property hown) (toProperty_eq_ok hbuilt).2.1
  · obtain ⟨function, hmem, htype⟩ := List.mem_flatMap.mp hfunction
    exact (hmember function hmem).2.2 type htype
  · obtain ⟨constructor, hmem, htype⟩ := List.mem_flatMap.mp hconstructor
    obtain ⟨own, hown, hbuilt⟩ := Fallible.mem_of_mapM_eq_ok h.constructors hmem
    obtain ⟨parameter, hparameter, htype⟩ := List.mem_flatMap.mp htype
    obtain ⟨spelled, hspelled, hparameter⟩ :=
      Fallible.mem_of_mapM_eq_ok (constructor_cases hbuilt) hparameter
    exact covers_of_parameter hparameter
      (fun _ => covers_of_mentions hneeds hdecl (.construction hown hspelled)) htype

theorem externalFunction_eq_ok {own : PackageFunctionDecl} (hown : own ∈ catalog.functions)
    {function : ExternalFunction} (h : declarations.externalFunction own = .ok function) :
    (∃ type, function.semantics = .pure type) ∧
      ∀ type ∈ function.types, catalog.Covers style root type := by
  obtain ⟨-, -, -, hparameters, returns, hreturns, hsemantics⟩ := externalFunction_cases h
  refine ⟨⟨_, hsemantics⟩, fun type htype => ?_⟩
  cases List.mem_append.mp htype with
  | inl hparameter =>
    obtain ⟨parameter, hmem, htype⟩ := List.mem_flatMap.mp hparameter
    obtain ⟨spelled, hspelled, hparameter⟩ := Fallible.mem_of_mapM_eq_ok hparameters hmem
    refine covers_of_parameter hparameter (fun type hparse => ?_) htype
    rintro name rfl
    exact .functionParameter hown hspelled (LambdaStyle.names_of_parse hparse)
  | inr hreturn =>
    rintro name rfl
    rw [hsemantics] at hreturn
    cases returns with
    | none => simp [Semantics.types] at hreturn
    | some type =>
      obtain ⟨text, htext, hparse⟩ := optionalType_eq_ok hreturns
      simp only [Semantics.types, Option.getD_some, List.mem_singleton] at hreturn
      exact .functionResult hown htext (LambdaStyle.names_of_parse (hreturn ▸ hparse))

/-- A function that is found under a name was declared under it. -/
theorem externalFunction_of_find? {decls : List PackageFunctionDecl}
    {functions : List ExternalFunction}
    (h : decls.mapM declarations.externalFunction = .ok functions) {name : QualifiedName}
    {function : ExternalFunction}
    (hfind : (NameMap.ofList (functions.map fun function => (function.name, function))).find? name =
      some function) :
    function.name = name ∧ ∃ decl ∈ decls, declarations.externalFunction decl = .ok function := by
  obtain ⟨found, hfound, heq⟩ := List.mem_map.mp (NameMap.mem_of_find?_ofList hfind)
  obtain ⟨rfl, rfl⟩ := Prod.mk.inj heq
  exact ⟨rfl, Fallible.mem_of_mapM_eq_ok h hfound⟩

theorem externalObject_eq_ok {own : ObjectDecl} (hown : own ∈ catalog.objects)
    {name : QualifiedName} {type : TypeRef} (h : externalObject own = .ok (name, type)) :
    catalog.Covers style root type := by
  rintro name rfl
  exact .object hown (LambdaStyle.names_of_parse (externalObject_cases h).2)

end Declarations

namespace Schema

/-- What a schema was made of: its classes, functions and objects are those of the declarations. -/
theorem build_eq_ok {catalog : Catalog} {style : LambdaStyle} {receiver : String} {schema : Schema}
    (h : build catalog style receiver = .ok schema) :
    ∃ declarations, Declarations.ofCatalog catalog style = .ok declarations ∧
      schema.receiver.text = receiver ∧
      (∀ name, schema.classes.contains name = true ↔ catalog.Needs style schema.receiver name) ∧
      (∀ name dataClass, schema.classes.find? name = some dataClass →
        ∃ decl, catalog.Declares name decl ∧ declarations.dataClass name decl = .ok dataClass) ∧
      (∃ functions, catalog.functions.mapM declarations.externalFunction = .ok functions ∧
        schema.functions = .ofList (functions.map fun function => (function.name, function))) ∧
      (∃ objects, catalog.objects.mapM Declarations.externalObject = .ok objects ∧
        schema.objects = .ofList objects) ∧
      ∀ name ∈ schema.defaultImports, schema.declares name = true := by
  obtain ⟨hreceiver, declarations, hcatalog, hpresents⟩ := presents_of_build h
  obtain rfl := Declarations.style_ofCatalog hcatalog
  refine ⟨declarations, hcatalog, hreceiver, fun name => ⟨hpresents.needed name, fun hname => ?_⟩,
    fun name dataClass hclass => ?_, hpresents.functions, hpresents.objects, hpresents.declared⟩
  · obtain ⟨decl, dataClass, -, -, -, hclass⟩ := hpresents.classes name hname
    exact NameMap.contains_iff.mpr ⟨dataClass, hclass⟩
  · obtain ⟨-, decl, hdecl, hbuilt⟩ := (hpresents.find?_classes hcatalog).mp hclass
    exact ⟨decl, (Declarations.find?_types hcatalog).mp hdecl, hbuilt⟩

/-- A schema whose classes and functions are all put together from these declarations. -/
structure MadeFrom (schema : Schema) (declarations : Declarations) : Prop where
  classes : ∀ name dataClass, schema.classes.find? name = some dataClass →
    ∃ decl, declarations.Materialised name decl dataClass
  functions : ∀ name function, schema.functions.find? name = some function →
    ∃ decl, declarations.externalFunction decl = .ok function

theorem madeFrom_of_build {catalog : Catalog} {style : LambdaStyle} {receiver : String}
    {schema : Schema} (h : build catalog style receiver = .ok schema) :
    ∃ declarations, schema.MadeFrom declarations := by
  obtain ⟨declarations, -, -, -, hclasses, ⟨functions, hfunctions, hschema⟩, -⟩ := build_eq_ok h
  refine ⟨declarations, fun name dataClass hfind => ?_, fun name function hfind => ?_⟩
  · obtain ⟨decl, -, hbuilt⟩ := hclasses name dataClass hfind
    exact ⟨decl, Declarations.materialised hbuilt⟩
  · rw [hschema] at hfind
    obtain ⟨-, decl, -, hbuilt⟩ := Declarations.externalFunction_of_find? hfunctions hfind
    exact ⟨decl, hbuilt⟩

theorem closed_of_build {catalog : Catalog} {style : LambdaStyle} {receiver : String}
    {schema : Schema} (h : build catalog style receiver = .ok schema) : schema.Closed := by
  obtain ⟨declarations, hcatalog, -, hneeds, hclasses, ⟨functions, hfunctions, hschema⟩,
    ⟨objects, hobjects, hschemaObjects⟩, himports⟩ := build_eq_ok h
  have hclass : ∀ name dataClass, schema.classes.find? name = some dataClass →
      dataClass.name = name ∧
        (∀ function ∈ dataClass.functions,
          function.receiver = name ∧ function.semantics.Fits name) ∧
        ∀ type ∈ dataClass.types, catalog.Covers style schema.receiver type := by
    intro name dataClass hfind
    obtain ⟨decl, hdecl, hbuilt⟩ := hclasses name dataClass hfind
    have hname := (hneeds name).mp (NameMap.contains_iff.mpr ⟨dataClass, hfind⟩)
    exact Declarations.dataClass_eq_ok hcatalog hname hdecl hbuilt
  have hfunction : ∀ name function, schema.functions.find? name = some function →
      function.name = name ∧ (∃ type, function.semantics = .pure type) ∧
        ∀ type ∈ function.types, catalog.Covers style schema.receiver type := by
    intro name function hfind
    rw [hschema] at hfind
    obtain ⟨hname, decl, hdecl, hbuilt⟩ :=
      Declarations.externalFunction_of_find? hfunctions hfind
    exact ⟨hname, Declarations.externalFunction_eq_ok hdecl hbuilt⟩
  refine ⟨fun name hmem => (hneeds name).mpr ?_, himports,
    fun name dataClass hfind => ⟨(hclass _ _ hfind).1, (hclass _ _ hfind).2.1⟩,
    fun name function hfind => ⟨(hfunction _ _ hfind).1, (hfunction _ _ hfind).2.1⟩⟩
  simp only [types, List.mem_append, List.mem_cons] at hmem
  rcases hmem with ((hreceiver | hvalues) | hvalues) | hvalue
  · cases hreceiver
    exact .receiver
  · obtain ⟨dataClass, hvalue, htype⟩ := List.mem_flatMap.mp hvalues
    obtain ⟨key, hfind⟩ := NameMap.mem_values_iff.mp hvalue
    exact (hclass key dataClass hfind).2.2 _ htype name rfl
  · obtain ⟨function, hvalue, htype⟩ := List.mem_flatMap.mp hvalues
    obtain ⟨key, hfind⟩ := NameMap.mem_values_iff.mp hvalue
    exact (hfunction key function hfind).2.2 _ htype name rfl
  · obtain ⟨key, hfind⟩ := NameMap.mem_values_iff.mp hvalue
    rw [hschemaObjects] at hfind
    obtain ⟨decl, hdecl, hbuilt⟩ :=
      Fallible.mem_of_mapM_eq_ok hobjects (NameMap.mem_of_find?_ofList hfind)
    exact Declarations.externalObject_eq_ok hdecl hbuilt name rfl

/-- Built schemas are closed, their default imports are those of the catalog, each of them declared,
and their classes are the needed types and no others. -/
theorem closed_and_least_of_build {catalog : Catalog} {style : LambdaStyle} {receiver : String}
    {schema : Schema} (h : build catalog style receiver = .ok schema) :
    schema.Closed ∧ schema.receiver.text = receiver ∧
      (∀ name, name ∈ schema.defaultImports ↔ name.text ∈ catalog.defaultImports) ∧
      (∀ text ∈ catalog.defaultImports,
        ∃ name, QualifiedName.parse text = .ok name ∧ schema.declares name = true) ∧
      ∀ name, schema.classes.contains name = true ↔
        catalog.Needs style schema.receiver name := by
  obtain ⟨-, -, -, hneeds, -⟩ := build_eq_ok h
  obtain ⟨hreceiver, declarations, -, hpresents⟩ := presents_of_build h
  exact ⟨closed_of_build h, hreceiver, hpresents.imports, fun _ => hpresents.exists_declared,
    hneeds⟩

/-- Two types that extend and mention each other, with a block that configures the other one. -/
def mutualCatalog : Catalog :=
  ⟨[⟨"Left", ["Right"], [⟨"peer", "Right", false, false⟩],
      [⟨"right", .configuring, [⟨"action", "Right.() -> Unit", false, none⟩], none, some "peer",
        none⟩], []⟩,
    ⟨"Right", ["Left"], [⟨"count", "Int", false, true⟩], [], [⟨[⟨"left", "Left", true, none⟩]⟩]⟩,
    ⟨"Unused", [], [], [], []⟩], [], [], ["Left"]⟩

theorem closed_and_least_of_mutual :
    ∃ schema, build mutualCatalog .receiverFunction "Right" = .ok schema ∧
      schema.Closed ∧ schema.receiver.text = "Right" ∧
      (∀ name, name ∈ schema.defaultImports ↔ name.text = "Left") ∧
      (∃ name, QualifiedName.parse "Left" = .ok name ∧ schema.declares name = true) ∧
        ∀ name, schema.classes.contains name = true ↔
          mutualCatalog.Needs .receiverFunction schema.receiver name := by
  have hok : (build mutualCatalog .receiverFunction "Right").isOk = true := by decide
  cases hbuild : build mutualCatalog .receiverFunction "Right" with
  | error fault => simp [hbuild, Except.isOk, Except.toBool] at hok
  | ok schema =>
    obtain ⟨hclosed, hreceiver, himports, hdeclared, hneeds⟩ := closed_and_least_of_build hbuild
    have hleft : ∀ name, name ∈ schema.defaultImports ↔ name.text = "Left" :=
      fun name => (himports name).trans List.mem_singleton
    exact ⟨schema, rfl, hclosed, hreceiver, hleft, hdeclared "Left" List.mem_cons_self, hneeds⟩

end Schema

end ConfigScript
