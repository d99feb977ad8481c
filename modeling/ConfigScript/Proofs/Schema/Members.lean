import ConfigScript.Proofs.Schema.Flattening
import ConfigScript.Proofs.Schema.Needed

/-!
# The types of members

Members are put together from the texts of a whole lineage, and some of their types come from
properties of other classes. All the same, every class that such a member names is one of the
needed types.
-/

namespace ConfigScript

/-- A type that is no class, or a class that the schema needs. -/
def Catalog.Covers (catalog : Catalog) (style : LambdaStyle) (root : QualifiedName)
    (type : TypeRef) : Prop :=
  ∀ name, type = .named name → catalog.Needs style root name

/-- The types that a parameter carries, that of the property in which it is stored among them. -/
def Parameter.types (parameter : Parameter) : List TypeRef :=
  match parameter.role with
  | .storeIn property => [parameter.type, property.type]
  | .unknown => [parameter.type]

def Semantics.types : Semantics → List TypeRef
  | .pure type => [type]
  | .builder type => [type]
  | .addAndConfigure element _ => [element]
  | .accessAndConfigure accessor _ => [accessor.objectType]

/-- A protocol that a member function of a class can have: a builder returns its class, and what
is added or configured is of some class. -/
def Semantics.Fits (owner : QualifiedName) : Semantics → Prop
  | .pure _ => True
  | .builder type => type = .named owner
  | .addAndConfigure element _ => ∃ name, element = .named name
  | .accessAndConfigure accessor _ => ∃ name, accessor.objectType = .named name

def MemberFunction.types (function : MemberFunction) : List TypeRef :=
  function.parameters.flatMap Parameter.types ++ function.semantics.types

namespace Declarations

variable {catalog : Catalog} {style : LambdaStyle} {declarations : Declarations}
  {root owner above : QualifiedName} {decl : TypeDecl}

theorem needs_of_mem_lineage (hcatalog : ofCatalog catalog style = .ok declarations)
    (howner : catalog.Needs style root owner) (h : (above, decl) ∈ declarations.lineage owner) :
    catalog.Needs style root above ∧ catalog.Declares above decl := by
  obtain ⟨hleads, hdecl⟩ := mem_lineage_iff.mp h
  refine ⟨?_, (find?_types hcatalog).mp hdecl⟩
  clear h
  induction hleads generalizing decl with
  | refl => exact howner
  | tail _ hreference ih =>
    obtain ⟨below, text, hbelow, htext, hparse⟩ := exists_of_mem_supertypesOf hreference
    obtain rfl := QualifiedName.parse_eq_ok.mp hparse
    exact .supertype (ih hbelow) ((find?_types hcatalog).mp hbelow) htext
      ((find?_types hcatalog).mp hdecl)

theorem covers_of_mentions (howner : catalog.Needs style root owner)
    (hdecl : catalog.Declares owner decl) {text : String} (hmention : decl.Mentions text)
    {type : TypeRef} (hparse : TypeRef.parse text = .ok type) :
    catalog.Covers style root type := by
  rintro name rfl
  exact .member howner hdecl hmention (LambdaStyle.names_of_parse hparse)

/-- The value parameters are parameters, and the block configures a class that the type of its
parameter names. -/
theorem splitBlock_eq_ok {function : String} {parameters values : List ParameterDecl}
    {configured : Option TypeRef}
    (h : declarations.splitBlock function parameters = .ok (values, configured)) :
    (∀ value ∈ values, value ∈ parameters) ∧
      ∀ type, configured = some type → ∃ parameter ∈ parameters, ∃ name, type = .named name ∧
        declarations.style.Names parameter.type name := by
  obtain ⟨-, ⟨rfl, rfl⟩ | ⟨block, text, name, rfl, htext, hparse, rfl⟩⟩ := splitBlock_cases h
  · exact ⟨fun value hvalue => hvalue, by rintro _ ⟨⟩⟩
  · refine ⟨fun value hvalue => List.mem_append_left _ hvalue, ?_⟩
    rintro _ ⟨⟩
    exact ⟨block, List.mem_append_right _ (List.mem_singleton_self _), name, rfl,
      LambdaStyle.names_of_configuredType? htext hparse⟩

theorem covers_of_parameter {function : String} {target : Option QualifiedName}
    {decl : ParameterDecl} {parameter : Parameter}
    (h : declarations.parameter function target decl = .ok parameter)
    (htype : ∀ type, TypeRef.parse decl.type = .ok type → catalog.Covers style root type)
    {type : TypeRef} (hmem : type ∈ parameter.types) : catalog.Covers style root type := by
  obtain ⟨hparse, -, -, hrole⟩ := parameter_eq_ok h
  have hcovers := htype parameter.type hparse
  unfold Parameter.types at hmem
  rcases hrole with hunknown | ⟨owner, property, -, -, hsame, hstored⟩
  · rw [hunknown] at hmem
    exact List.mem_singleton.mp hmem ▸ hcovers
  · simp only [hstored, hsame, List.mem_cons, List.not_mem_nil, or_false, or_self] at hmem
    exact hmem ▸ hcovers

/-- What a member function returns and configures is spelled by its declaration. -/
theorem semantics_eq_ok {function : String} {decl : FunctionDecl}
    {configured returns : Option TypeRef} {protocol : Semantics}
    (h : declarations.semantics owner function decl configured returns = .ok protocol)
    (hclass : ∀ type, configured = some type → ∃ name, type = .named name) :
    protocol.Fits owner ∧ ∀ type ∈ protocol.types,
      type = .unit ∨ type = .named owner ∨ returns = some type ∨ configured = some type := by
  rcases semantics_cases h with ⟨-, -, rfl⟩ | ⟨-, -, rfl⟩ | ⟨name, -, rfl, -, rfl⟩ |
    ⟨accessor, kind, -, rfl, -, rfl⟩
  · cases returns <;> simp [Semantics.types, Semantics.Fits]
  · simp [Semantics.types, Semantics.Fits]
  · simp [Semantics.types, Semantics.Fits]
  · simp [Semantics.types, Semantics.Fits, hclass _ rfl]

theorem memberFunction_eq_ok (hcatalog : ofCatalog catalog style = .ok declarations)
    (howner : catalog.Needs style root owner) (habove : (above, decl) ∈ declarations.lineage owner)
    {own : FunctionDecl} (hown : own ∈ decl.functions) {function : MemberFunction}
    (h : declarations.memberFunction owner own = .ok function) :
    function.receiver = owner ∧ function.semantics.Fits owner ∧
      ∀ type ∈ function.types, catalog.Covers style root type := by
  obtain ⟨habove, hdecl⟩ := needs_of_mem_lineage hcatalog howner habove
  obtain ⟨hreceiver, -, text, values, configured, returns, hsplit, hreturns, hprotocol,
    hparameters⟩ := memberFunction_cases h
  obtain ⟨hvalues, hconfigured⟩ := splitBlock_eq_ok hsplit
  rw [style_ofCatalog hcatalog] at hconfigured
  obtain ⟨hfits, hspelled⟩ := semantics_eq_ok hprotocol fun type htype =>
    have ⟨_, _, name, heq, _⟩ := hconfigured type htype
    ⟨name, heq⟩
  refine ⟨hreceiver, hfits, fun type htype => ?_⟩
  cases List.mem_append.mp htype with
  | inl hparameter =>
    obtain ⟨parameter, hmem, htype⟩ := List.mem_flatMap.mp hparameter
    obtain ⟨value, hvalue, hparameter⟩ := Fallible.mem_of_mapM_eq_ok hparameters hmem
    exact covers_of_parameter hparameter
      (fun _ => covers_of_mentions habove hdecl (.parameter hown (hvalues value hvalue))) htype
  | inr hsemantics =>
    rcases hspelled type hsemantics with rfl | rfl | hreturn | hblock
    · rintro name ⟨⟩
    · rintro name ⟨⟩
      exact howner
    · obtain ⟨text, htext, hparse⟩ := optionalType_eq_ok (hreturn ▸ hreturns)
      exact covers_of_mentions habove hdecl (.returns hown htext) hparse
    · obtain ⟨parameter, hparameter, name, rfl, hnames⟩ := hconfigured type hblock
      rintro _ ⟨⟩
      exact .member habove hdecl (.parameter hown hparameter) hnames

end Declarations

end ConfigScript
