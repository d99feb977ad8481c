import ConfigScript.Proofs.Resolution.Sound

/-!
# Own properties

What a call stores in an object, and what it configures in its receiver, is a property that the
class of that object lists. A function is built for every class that inherits it, so it is the
inheriting class that is asked, and it may list a property of its own under the name.
-/

namespace ConfigScript

/-- The class whose objects take the arguments of a call in. A function of a package has none. -/
inductive Callee.Fills : Callee → Semantics → QualifiedName → Prop where
  | pure {owner : QualifiedName} {name : String} {type : TypeRef} :
      Fills (.member owner name) (.pure type) owner
  | builder {owner : QualifiedName} {name : String} {type : TypeRef} :
      Fills (.member owner name) (.builder type) owner
  | adding {owner element : QualifiedName} {name : String} {accepts : Bool} :
      Fills (.member owner name) (.addAndConfigure (.named element) accepts) element
  | configuring {owner object : QualifiedName} {name : String} {accessor : Accessor}
      {kind : ReturnKind} (h : accessor.objectType = .named object) :
      Fills (.member owner name) (.accessAndConfigure accessor kind) object
  | constructor {name : QualifiedName} {semantics : Semantics} :
      Fills (.constructor name) semantics name

namespace Schema

/-- The property that a class of the schema lists under its name. -/
def Lists (schema : Schema) (owner : QualifiedName) (property : Property) : Prop :=
  ∃ dataClass, schema.classes.find? owner = some dataClass ∧
    dataClass.property? property.name = some property

/-- Arguments are stored in, and blocks configure, the properties that classes list. -/
structure StoresOwn (schema : Schema) : Prop where
  /-- No class lists two properties under one name. -/
  distinct : ∀ name dataClass, schema.classes.find? name = some dataClass →
    (dataClass.properties.map Property.name).Nodup
  stored : ∀ callee receiver parameters semantics,
    schema.Offers callee receiver parameters semantics → ∀ parameter ∈ parameters, ∀ property,
      parameter.role = .storeIn property → ∃ target, callee.Fills semantics target ∧
        schema.Lists target property ∧ property.type = parameter.type
  configured : ∀ callee receiver parameters property kind,
    schema.Offers callee receiver parameters (.accessAndConfigure (.property property) kind) →
      ∃ owner name, callee = .member owner name ∧ schema.Lists owner property

end Schema

namespace Declarations

variable {declarations : Declarations} {owner target : QualifiedName}

theorem fills_of_storageTarget {name : String} {semantics : Semantics}
    (h : storageTarget owner semantics = some target) :
    (Callee.member owner name).Fills semantics target := by
  rcases semantics with type | type | ⟨element, accepts⟩ | ⟨accessor, kind⟩
  · obtain rfl := Option.some.inj h
    exact .pure
  · obtain rfl := Option.some.inj h
    exact .builder
  · obtain rfl := TypeRef.className?_eq_some.mp h
    exact .adding
  · exact .configuring (TypeRef.className?_eq_some.mp h)

/-- A parameter that stores its argument does so in a property of the target, of its own type. -/
theorem property?_of_stored {function : String} {storage : Option QualifiedName}
    {decls : List ParameterDecl} {parameters : List Parameter}
    (h : decls.mapM (declarations.parameter function storage) = .ok parameters)
    {parameter : Parameter} (hparameter : parameter ∈ parameters) {property : Property}
    (hstored : parameter.role = .storeIn property) :
    ∃ target, storage = some target ∧
      declarations.property? target property.name = .ok (some property) ∧
      property.type = parameter.type := by
  obtain ⟨decl, -, hbuilt⟩ := Fallible.mem_of_mapM_eq_ok h hparameter
  obtain ⟨-, -, -, hunknown | ⟨target, found, htarget, hfound, htype, hrole⟩⟩ :=
    parameter_eq_ok hbuilt
  · rw [hunknown] at hstored
    cases hstored
  · rw [hrole] at hstored
    cases hstored
    exact ⟨target, htarget, hfound, htype⟩

end Declarations

namespace Schema

variable {schema : Schema} {callee : Callee} {receiver : Option TypeRef}
  {parameters : List Parameter} {semantics : Semantics} {target : QualifiedName}

theorem Offers.contains_owner (h : schema.Offers callee receiver parameters semantics)
    {owner : QualifiedName}
    (howner : (∃ name, callee = .member owner name) ∨ callee = .constructor owner) :
    schema.classes.contains owner = true := by
  cases h with
  | member hclass =>
    obtain ⟨name, ⟨⟩⟩ | ⟨⟨⟩⟩ := howner
    exact NameMap.contains_iff.mpr ⟨_, hclass⟩
  | function => obtain ⟨name, ⟨⟩⟩ | ⟨⟨⟩⟩ := howner
  | constructor hclass =>
    obtain ⟨name, ⟨⟩⟩ | ⟨⟨⟩⟩ := howner
    exact NameMap.contains_iff.mpr ⟨_, hclass⟩

theorem Offers.contains_target (hclosed : schema.Closed)
    (h : schema.Offers callee receiver parameters semantics)
    (hfills : callee.Fills semantics target) : schema.classes.contains target = true := by
  have hknows : ∀ type ∈ semantics.types, schema.Knows type := fun type htype =>
    h.knows hclosed type (List.mem_append_right _ htype)
  cases hfills with
  | pure => exact h.contains_owner (.inl ⟨_, rfl⟩)
  | builder => exact h.contains_owner (.inl ⟨_, rfl⟩)
  | adding => exact hknows _ (List.mem_singleton_self _) target rfl
  | configuring hobject => exact hknows _ (List.mem_singleton_self _) target hobject
  | constructor => exact h.contains_owner (.inr rfl)

namespace MadeFrom

variable {declarations : Declarations} (h : schema.MadeFrom declarations)

include h

/-- The property that a lineage has under a name is the one that the class lists. -/
theorem lists {owner : QualifiedName} {property : Property}
    (howner : schema.classes.contains owner = true)
    (hproperty : declarations.property? owner property.name = .ok (some property)) :
    schema.Lists owner property := by
  obtain ⟨dataClass, hclass⟩ := NameMap.contains_iff.mp howner
  obtain ⟨decl, hbuilt⟩ := h.classes owner dataClass hclass
  rw [hbuilt.property?_eq] at hproperty
  exact ⟨dataClass, hclass, Except.ok.inj hproperty⟩

/-- A function that a class lists is built for that class, wherever in the lineage it is declared. -/
theorem exists_own_function {owner : QualifiedName} {dataClass : DataClass}
    (hclass : schema.classes.find? owner = some dataClass) {function : MemberFunction}
    (hfunction : function ∈ dataClass.functions) :
    ∃ own, declarations.memberFunction owner own = .ok function := by
  obtain ⟨decl, hbuilt⟩ := h.classes owner dataClass hclass
  obtain ⟨-, -, own, -, hown⟩ := hbuilt.exists_own_function hfunction
  exact ⟨own, hown⟩

/-- A stored argument goes into a property of the lineage of the target of the call. -/
theorem property?_of_stored (hoffers : schema.Offers callee receiver parameters semantics)
    {parameter : Parameter} (hparameter : parameter ∈ parameters) {property : Property}
    (hstored : parameter.role = .storeIn property) :
    ∃ target, callee.Fills semantics target ∧
      declarations.property? target property.name = .ok (some property) ∧
      property.type = parameter.type := by
  cases hoffers with
  | member hclass hfunction =>
    obtain ⟨own, hown⟩ := h.exists_own_function hclass hfunction
    obtain ⟨-, -, _, _, _, _, -, -, -, hparameters⟩ := Declarations.memberFunction_cases hown
    obtain ⟨target, htarget, hproperty⟩ :=
      Declarations.property?_of_stored hparameters hparameter hstored
    exact ⟨target, Declarations.fills_of_storageTarget htarget, hproperty⟩
  | function hfind =>
    -- A function of a package has no target, hence no parameter that stores anything.
    obtain ⟨decl, hbuilt⟩ := h.functions _ _ hfind
    obtain ⟨-, -, -, hparameters, -⟩ := Declarations.externalFunction_cases hbuilt
    obtain ⟨target, ⟨⟩, -⟩ := Declarations.property?_of_stored hparameters hparameter hstored
  | constructor hclass hconstructor =>
    obtain ⟨decl, hbuilt⟩ := h.classes _ _ hclass
    obtain ⟨own, -, hown⟩ := Fallible.mem_of_mapM_eq_ok hbuilt.constructors hconstructor
    obtain ⟨target, ⟨⟩, hproperty⟩ := Declarations.property?_of_stored
      (Declarations.constructor_cases hown) hparameter hstored
    exact ⟨_, .constructor, hproperty⟩

/-- A block that configures a property configures one of the lineage of the receiver. -/
theorem property?_of_configuring {owner : QualifiedName} {dataClass : DataClass}
    (hclass : schema.classes.find? owner = some dataClass) {function : MemberFunction}
    (hfunction : function ∈ dataClass.functions) {property : Property} {kind : ReturnKind}
    (hsemantics : function.semantics = .accessAndConfigure (.property property) kind) :
    declarations.property? owner property.name = .ok (some property) := by
  obtain ⟨own, hown⟩ := h.exists_own_function hclass hfunction
  obtain ⟨-, -, _, _, _, _, -, -, hprotocol, -⟩ := Declarations.memberFunction_cases hown
  rw [hsemantics] at hprotocol
  obtain ⟨-, -, ⟨⟩⟩ | ⟨-, -, ⟨⟩⟩ | ⟨_, -, -, -, ⟨⟩⟩ | ⟨accessor, _, -, -, hproperty, heq⟩ :=
    Declarations.semantics_cases hprotocol
  cases heq
  exact hproperty property rfl

end MadeFrom

/-- In a built schema, what a call stores is a property of the class whose object takes it in, and
what its block configures is a property of the class on whose objects it is called. -/
theorem storesOwn_of_build {catalog : Catalog} {style : LambdaStyle} {root : String}
    (h : build catalog style root = .ok schema) : schema.StoresOwn := by
  have hclosed := closed_of_build h
  obtain ⟨declarations, hmade⟩ := madeFrom_of_build h
  constructor
  case distinct =>
    intro name dataClass hfind
    obtain ⟨decl, hbuilt⟩ := hmade.classes name dataClass hfind
    exact hbuilt.nodup_properties
  case stored =>
    intro callee receiver parameters semantics hoffers parameter hparameter property hstored
    obtain ⟨target, hfills, hproperty, htype⟩ :=
      hmade.property?_of_stored hoffers hparameter hstored
    exact ⟨target, hfills, hmade.lists (hoffers.contains_target hclosed hfills) hproperty, htype⟩
  case configured =>
    intro callee receiver parameters property kind hoffers
    -- What the schema offers is told apart by its callee, so the protocol must be a variable.
    generalize hsemantics : Semantics.accessAndConfigure (.property property) kind = semantics
      at hoffers
    cases hoffers with
    | member hclass hfunction =>
      have hproperty := hmade.property?_of_configuring hclass hfunction hsemantics.symm
      exact ⟨_, _, rfl, hmade.lists (NameMap.contains_iff.mpr ⟨_, hclass⟩) hproperty⟩
    | function hfind =>
      obtain ⟨type, hpure⟩ := (hclosed.functions _ _ hfind).2
      cases hsemantics.trans hpure
    | constructor => cases hsemantics

/-- A class that lists a property of its own under the name in which an inherited function stores
its argument. -/
def shadowingCatalog : Catalog :=
  ⟨[⟨"Base", [], [⟨"title", "String", false, false⟩, ⟨"part", "Part", false, false⟩],
      [⟨"rename", .builder, [⟨"text", "String", false, some "title"⟩], none, none, none⟩,
        ⟨"part", .configuring, [⟨"label", "String", false, some "label"⟩,
          ⟨"action", "Part.() -> Unit", false, none⟩], none, some "part", none⟩], []⟩,
    ⟨"Special", ["Base"], [⟨"title", "String", true, true⟩], [],
      [⟨[⟨"title", "String", false, some "title"⟩]⟩]⟩,
    ⟨"Part", [], [⟨"label", "String", false, false⟩], [], []⟩], [], [], []⟩

/-- The roles of the parameters of all functions of the receiver of a schema. -/
def storedByReceiver (schema : Schema) : List (String × List Parameter.Role) :=
  (schema.topLevelClass?.map DataClass.functions).getD [] |>.map fun function =>
    (function.name, function.parameters.map Parameter.role)

theorem storesOwn_of_shadowing :
    ∃ schema, build shadowingCatalog .receiverFunction "Special" = .ok schema ∧
      schema.StoresOwn ∧ schema.storedByReceiver =
        [("rename", [.storeIn ⟨"title", .constant .string, true, true⟩]),
          ("part", [.storeIn ⟨"label", .constant .string, false, false⟩])] := by
  have hstored : (build shadowingCatalog .receiverFunction "Special").toOption.map
      storedByReceiver = some
        [("rename", [.storeIn ⟨"title", .constant .string, true, true⟩]),
          ("part", [.storeIn ⟨"label", .constant .string, false, false⟩])] := by
    decide
  obtain ⟨schema, hbuild, hstored⟩ := Option.map_eq_some_iff.mp hstored
  rw [Fallible.toOption_eq_some] at hbuild
  exact ⟨schema, hbuild, storesOwn_of_build hbuild, hstored⟩

end Schema

end ConfigScript
