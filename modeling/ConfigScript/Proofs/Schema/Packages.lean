import ConfigScript.Proofs.Schema.Closed

/-!
# Functions and objects of packages

A schema holds one function and one object under a name. It keeps what the catalog declares, except
that a declaration gives way to a later one of the same name.
-/

namespace ConfigScript

/-- A parameter with the name, the type and the default that its declaration gives it. -/
def ParameterDecl.Describes (decl : ParameterDecl) (parameter : Parameter) : Prop :=
  ∃ type, TypeRef.parse decl.type = .ok type ∧
    parameter = ⟨decl.name, type, decl.optional, .unknown⟩

/-- A function with the name, the parameters and the result that its declaration gives it. -/
structure PackageFunctionDecl.Describes (decl : PackageFunctionDecl) (function : ExternalFunction) :
    Prop where
  name : QualifiedName.inPackage decl.package decl.name = .ok function.name
  parameters : List.Forall₂ ParameterDecl.Describes decl.parameters function.parameters
  returns : ∃ type, function.semantics = .pure type ∧
    (decl.returns = none ∧ type = .unit ∨
      ∃ text, decl.returns = some text ∧ TypeRef.parse text = .ok type)

namespace Schema

/-- A schema in which every declaration of a catalog that is not followed by another one of its name
is found under the name. -/
structure KeepsLast (schema : Schema) (catalog : Catalog) : Prop where
  functions : ∀ before decl after, catalog.functions = before ++ decl :: after →
    ∃ name, QualifiedName.inPackage decl.package decl.name = .ok name ∧
      ((∀ later ∈ after, QualifiedName.inPackage later.package later.name ≠ .ok name) →
        ∃ function, schema.functions.find? name = some function ∧ decl.Describes function)
  objects : ∀ before decl after, catalog.objects = before ++ decl :: after →
    ∃ name, QualifiedName.parse decl.name = .ok name ∧
      ((∀ later ∈ after, QualifiedName.parse later.name ≠ .ok name) →
        ∃ type, schema.objects.find? name = some type ∧ TypeRef.parse decl.type = .ok type)

end Schema

namespace Declarations

variable {declarations : Declarations}

theorem describes_of_parameter {function : String} {decl : ParameterDecl} {parameter : Parameter}
    (h : declarations.parameter function none decl = .ok parameter) : decl.Describes parameter := by
  obtain ⟨htype, hname, hoptional, hunknown | ⟨owner, _, hnone, -⟩⟩ := parameter_eq_ok h
  · obtain ⟨name, type, optional, role⟩ := parameter
    subst hname hoptional hunknown
    exact ⟨type, htype, rfl⟩
  · cases hnone

theorem describes_of_externalFunction {decl : PackageFunctionDecl} {built : ExternalFunction}
    (h : declarations.externalFunction decl = .ok built) : decl.Describes built := by
  obtain ⟨hname, -, -, hparameters, returns, hreturns, hsemantics⟩ := externalFunction_cases h
  constructor
  case name => exact hname
  case parameters =>
    exact (Fallible.mapM_eq_ok.mp hparameters).imp fun _ _ => describes_of_parameter
  case returns =>
    refine ⟨_, hsemantics, ?_⟩
    cases returns with
    | none =>
      cases htext : decl.returns with
      | none => exact .inl ⟨rfl, rfl⟩
      | some text =>
        rw [htext] at hreturns
        obtain ⟨type, -, ⟨⟩⟩ := Fallible.map_eq_ok.mp hreturns
    | some type => exact .inr (optionalType_eq_ok hreturns)

end Declarations

namespace Schema

variable {catalog : Catalog} {style : LambdaStyle} {receiver : String} {schema : Schema}

/-- A built schema loses no function and no object to anything but a later declaration of the same
name. -/
theorem keepsLast_of_build (h : build catalog style receiver = .ok schema) :
    schema.KeepsLast catalog := by
  obtain ⟨declarations, -, -, -, -, ⟨functions, hfunctions, hschema⟩,
    ⟨objects, hobjects, hschemaObjects⟩, -⟩ := build_eq_ok h
  constructor
  case functions =>
    intro before decl after hcatalog
    rw [hcatalog] at hfunctions
    obtain ⟨front, function, rest, rfl, hbuilt, hrest⟩ := Fallible.split_of_mapM_eq_ok hfunctions
    have hdescribes := Declarations.describes_of_externalFunction hbuilt
    refine ⟨function.name, hdescribes.name, fun hlast => ⟨function, ?_, hdescribes⟩⟩
    rw [hschema, List.map_append, List.map_cons]
    apply NameMap.find?_ofList_of_last
    -- Whatever is entered later is built from a later declaration, which has another name.
    intro entry hentry
    obtain ⟨other, hother, rfl⟩ := List.mem_map.mp hentry
    obtain ⟨later, hlater, hbuilt⟩ := Fallible.mem_of_mapM_eq_ok hrest hother
    intro heq
    apply hlast later hlater
    exact (Declarations.describes_of_externalFunction hbuilt).name.trans (congrArg _ heq)
  case objects =>
    intro before decl after hcatalog
    rw [hcatalog] at hobjects
    obtain ⟨front, ⟨name, type⟩, rest, rfl, hbuilt, hrest⟩ :=
      Fallible.split_of_mapM_eq_ok hobjects
    obtain ⟨hname, htype⟩ := Declarations.externalObject_cases hbuilt
    refine ⟨name, hname, fun hlast => ⟨type, ?_, htype⟩⟩
    rw [hschemaObjects]
    apply NameMap.find?_ofList_of_last
    rintro ⟨other, otherType⟩ hother rfl
    obtain ⟨later, hlater, hbuilt⟩ := Fallible.mem_of_mapM_eq_ok hrest hother
    exact hlast later hlater (Declarations.externalObject_cases hbuilt).1

/-- A catalog with two functions and two objects of one name each. -/
def clashingCatalog : Catalog :=
  ⟨[⟨"a.Top", [], [], [], []⟩],
    [⟨"p", "f", .pure, [⟨"size", "Int", false, none⟩], some "Int"⟩,
      ⟨"p", "f", .pure, [⟨"label", "String", true, none⟩], none⟩],
    [⟨"p.o", "a.Top"⟩, ⟨"p.o", "Long"⟩], []⟩

/-- What a schema knows about the names that `clashingCatalog` declares twice. -/
def clashes (schema : Schema) : Option (List String) × Option TypeRef :=
  ((schema.functions.find? ⟨"p.f", by decide⟩).map fun function =>
      function.parameters.map Parameter.name,
    schema.objects.find? ⟨"p.o", by decide⟩)

theorem exists_build_clashing :
    ∃ schema, build clashingCatalog .receiverFunction "a.Top" = .ok schema ∧
      schema.clashes = (some ["label"], some (.constant .long)) := by
  have hok : (build clashingCatalog .receiverFunction "a.Top").toOption.map clashes =
      some (some ["label"], some (.constant .long)) := by
    decide
  obtain ⟨schema, hbuild, hclashes⟩ := Option.map_eq_some_iff.mp hok
  exact ⟨schema, Fallible.toOption_eq_some.mp hbuild, hclashes⟩

theorem keepsLast_of_clashing :
    ∃ schema, build clashingCatalog .receiverFunction "a.Top" = .ok schema ∧
      schema.KeepsLast clashingCatalog ∧
      schema.clashes = (some ["label"], some (.constant .long)) := by
  obtain ⟨schema, hbuild, hclashes⟩ := exists_build_clashing
  exact ⟨schema, hbuild, keepsLast_of_build hbuild, hclashes⟩

/-- Of two functions, or of two objects, with one name the earlier one is nowhere in the schema. -/
theorem loses_earlier_of_clashing :
    ∃ schema, build clashingCatalog .receiverFunction "a.Top" = .ok schema ∧
      (¬ ∀ decl ∈ clashingCatalog.functions, ∃ name function,
        QualifiedName.inPackage decl.package decl.name = .ok name ∧
          schema.functions.find? name = some function ∧ decl.Describes function) ∧
      ¬ ∀ decl ∈ clashingCatalog.objects, ∃ name type,
        QualifiedName.parse decl.name = .ok name ∧ schema.objects.find? name = some type ∧
          TypeRef.parse decl.type = .ok type := by
  obtain ⟨schema, hbuild, hclashes⟩ := exists_build_clashing
  obtain ⟨hnames, hobject⟩ := Prod.mk.inj hclashes
  obtain ⟨found, hfound, hlabel⟩ := Option.map_eq_some_iff.mp hnames
  refine ⟨schema, hbuild, fun hkept => ?_, fun hkept => ?_⟩
  · obtain ⟨name, function, hname, hfunction, hdescribes⟩ := hkept _ List.mem_cons_self
    have hsame : name = ⟨"p.f", by decide⟩ := Except.ok.inj (hname.symm.trans (by decide))
    rw [hsame, hfound] at hfunction
    obtain rfl := Option.some.inj hfunction
    have hparameters := hdescribes.parameters
    generalize found.parameters = parameters at hlabel hparameters
    cases hparameters with
    | cons hfirst =>
      obtain ⟨type, -, rfl⟩ := hfirst
      simp at hlabel
  · obtain ⟨name, type, hname, htype, hparse⟩ := hkept _ List.mem_cons_self
    have hsame : name = ⟨"p.o", by decide⟩ := Except.ok.inj (hname.symm.trans (by decide))
    rw [hsame, hobject] at htype
    obtain rfl := Option.some.inj htype
    cases hparse

end Schema

end ConfigScript
