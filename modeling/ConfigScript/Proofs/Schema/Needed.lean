import ConfigScript.Proofs.Schema.Declared
import ConfigScript.Schema.Reachable

/-!
# The types that a schema needs

The needed types are the least set that holds the receiver, what the packages and the default
imports of the catalog name, and with a declared type all classes that its members mention and its
declared supertypes. When the search for reachable types ends without fault, it has found exactly
this set, and every type in it is declared.
-/

namespace ConfigScript

/-- A member of a declared type is spelled with a type text. -/
inductive TypeDecl.Mentions (decl : TypeDecl) : String → Prop where
  | property {property : PropertyDecl} (h : property ∈ decl.properties) :
      Mentions decl property.type
  | parameter {function : FunctionDecl} {parameter : ParameterDecl}
      (hfunction : function ∈ decl.functions) (h : parameter ∈ function.parameters) :
      Mentions decl parameter.type
  | returns {function : FunctionDecl} {text : String} (hfunction : function ∈ decl.functions)
      (h : function.returns = some text) : Mentions decl text
  | construction {constructor : ConstructorDecl} {parameter : ParameterDecl}
      (hconstructor : constructor ∈ decl.constructors) (h : parameter ∈ constructor.parameters) :
      Mentions decl parameter.type

inductive Catalog.Needs (catalog : Catalog) (style : LambdaStyle) (receiver : QualifiedName) :
    QualifiedName → Prop where
  | receiver : Needs catalog style receiver receiver
  | functionParameter {function : PackageFunctionDecl} {parameter : ParameterDecl}
      {name : QualifiedName} (hfunction : function ∈ catalog.functions)
      (hparameter : parameter ∈ function.parameters) (h : style.Names parameter.type name) :
      Needs catalog style receiver name
  | functionResult {function : PackageFunctionDecl} {text : String} {name : QualifiedName}
      (hfunction : function ∈ catalog.functions) (hreturns : function.returns = some text)
      (h : style.Names text name) : Needs catalog style receiver name
  | object {object : ObjectDecl} {name : QualifiedName} (hobject : object ∈ catalog.objects)
      (h : style.Names object.type name) : Needs catalog style receiver name
  | defaultImport {name : QualifiedName} {decl : TypeDecl}
      (himport : name.text ∈ catalog.defaultImports) (h : catalog.Declares name decl) :
      Needs catalog style receiver name
  | member {owner name : QualifiedName} {decl : TypeDecl} {text : String}
      (howner : Needs catalog style receiver owner) (hdecl : catalog.Declares owner decl)
      (hmention : decl.Mentions text) (h : style.Names text name) :
      Needs catalog style receiver name
  | supertype {sub sup : QualifiedName} {decl above : TypeDecl}
      (hsub : Needs catalog style receiver sub) (hdecl : catalog.Declares sub decl)
      (hsup : sup.text ∈ decl.supertypes) (h : catalog.Declares sup above) :
      Needs catalog style receiver sup

theorem TypeDecl.mentions_iff {decl : TypeDecl} {text : String} :
    decl.Mentions text ↔ ∃ member, (member, text) ∈ decl.mentions := by
  simp only [mentions, List.mem_append, List.mem_map, List.mem_flatMap, Option.mem_toList,
    Prod.mk.injEq]
  constructor
  · rintro (hproperty | ⟨hfunction, hparameter⟩ | ⟨hfunction, hreturns⟩ |
      ⟨hconstructor, hparameter⟩)
    · exact ⟨_, .inl (.inl ⟨_, hproperty, rfl, rfl⟩)⟩
    · exact ⟨_, .inl (.inr ⟨_, hfunction, .inl ⟨_, hparameter, rfl, rfl⟩⟩)⟩
    · exact ⟨_, .inl (.inr ⟨_, hfunction, .inr ⟨_, hreturns, rfl, rfl⟩⟩)⟩
    · exact ⟨_, .inr ⟨_, hconstructor, _, hparameter, rfl, rfl⟩⟩
  · rintro ⟨member, (⟨property, hproperty, -, rfl⟩ | ⟨function, hfunction,
      (⟨parameter, hparameter, -, rfl⟩ | ⟨type, hreturns, -, rfl⟩)⟩) |
      ⟨constructor, hconstructor, parameter, hparameter, -, rfl⟩⟩
    · exact .property hproperty
    · exact .parameter hfunction hparameter
    · exact .returns hfunction hreturns
    · exact .construction hconstructor hparameter

namespace Declarations

variable {declarations : Declarations} {name other : QualifiedName} {decl : TypeDecl}

/-- The links of a declared type, each with the type that it leads to. -/
theorem mem_references_iff {references : List (Link × QualifiedName)} {link : Link}
    (h : declarations.references name decl = .ok references) :
    (link, other) ∈ references ↔
      (∃ member text, (member, text) ∈ decl.mentions ∧ declarations.style.Names text other ∧
        link = .member name member) ∨
        other.text ∈ decl.supertypes ∧ declarations.types.contains other = true ∧
          link = .supertype name other := by
  obtain ⟨mentioned, hmentioned, h⟩ := Fallible.bind_eq_ok.mp h
  obtain ⟨inherited, hinherited, h⟩ := Fallible.bind_eq_ok.mp h
  obtain rfl := Fallible.pure_eq_ok.mp h
  have hmention : (link, other) ∈ mentioned ↔
      ∃ member text, (member, text) ∈ decl.mentions ∧ declarations.style.Names text other ∧
        link = .member name member := by
    simp only [(Fallible.filterMapM_eq_ok hmentioned).2, Prod.exists, Fallible.bind_eq_ok,
      Fallible.pure_eq_ok, Option.map_eq_some_iff, Prod.mk.injEq]
    constructor
    · rintro ⟨member, text, hmem, found, hfound, type, rfl, rfl, rfl⟩
      exact ⟨member, text, hmem, className?_eq_some.mp hfound, rfl⟩
    · rintro ⟨member, text, hmem, hnames, rfl⟩
      exact ⟨member, text, hmem, some other, className?_eq_some.mpr hnames, other, rfl, rfl, rfl⟩
  have hsupertype : (link, other) ∈ inherited ↔
      other.text ∈ decl.supertypes ∧ declarations.types.contains other = true ∧
        link = .supertype name other := by
    simp only [(Fallible.filterMapM_eq_ok hinherited).2, Fallible.bind_eq_ok, buildName_eq_ok,
      QualifiedName.parse_eq_ok]
    constructor
    · rintro ⟨text, hmem, type, rfl, hkept⟩
      split at hkept
      · rename_i hdeclared
        simp only [Fallible.pure_eq_ok, Option.some.injEq, Prod.mk.injEq] at hkept
        obtain ⟨rfl, rfl⟩ := hkept
        exact ⟨hmem, hdeclared, rfl⟩
      · simp [Fallible.pure_eq_ok] at hkept
    · rintro ⟨hmem, hdeclared, rfl⟩
      exact ⟨other.text, hmem, other, rfl, by rw [if_pos hdeclared]; rfl⟩
  rw [List.mem_append, hmention, hsupertype]

theorem mem_references {references : List (Link × QualifiedName)}
    (h : declarations.references name decl = .ok references) :
    other ∈ references.map Prod.snd ↔
      (∃ text, decl.Mentions text ∧ declarations.style.Names text other) ∨
        other.text ∈ decl.supertypes ∧ declarations.types.contains other = true := by
  simp only [List.mem_map, Prod.exists, exists_eq_right, mem_references_iff h,
    TypeDecl.mentions_iff]
  constructor
  · rintro ⟨link, ⟨member, text, hmem, hnames, -⟩ | ⟨hmem, hdeclared, -⟩⟩
    · exact .inl ⟨text, ⟨member, hmem⟩, hnames⟩
    · exact .inr ⟨hmem, hdeclared⟩
  · rintro (⟨text, ⟨member, hmem⟩, hnames⟩ | ⟨hmem, hdeclared⟩)
    · exact ⟨_, .inl ⟨member, text, hmem, hnames, rfl⟩⟩
    · exact ⟨_, .inr ⟨hmem, hdeclared, rfl⟩⟩

theorem length_references_le {references : List (Link × QualifiedName)}
    (h : declarations.references name decl = .ok references) :
    references.length ≤ (decl.mentions.map Prod.snd ++ decl.supertypes).length := by
  obtain ⟨mentioned, hmentioned, h⟩ := Fallible.bind_eq_ok.mp h
  obtain ⟨inherited, hinherited, h⟩ := Fallible.bind_eq_ok.mp h
  obtain rfl := Fallible.pure_eq_ok.mp h
  have hmention := Fallible.length_le_of_filterMapM_eq_ok hmentioned
  have hsupertype := Fallible.length_le_of_filterMapM_eq_ok hinherited
  simp only [List.length_append, List.length_map]
  omega

/-- What a name refers to; behind an undeclared one there is nothing. -/
def links (declarations : Declarations) (name : QualifiedName) :
    Except BuildError (List (Link × QualifiedName)) :=
  match declarations.types.find? name with
  | none => .ok []
  | some decl => declarations.references name decl

theorem mem_links {links : List (Link × QualifiedName)} (h : declarations.links name = .ok links) :
    other ∈ links.map Prod.snd ↔ ∃ decl, declarations.types.find? name = some decl ∧
      ((∃ text, decl.Mentions text ∧ declarations.style.Names text other) ∨
        other.text ∈ decl.supertypes ∧ declarations.types.contains other = true) := by
  unfold Declarations.links at h
  split at h
  · rename_i hnone
    obtain rfl := Except.ok.inj h
    simp [hnone]
  · rename_i decl hdecl
    simp [hdecl, mem_references h]

/-- The names that a name refers to, when all of them can be read. -/
def referencesOf (declarations : Declarations) (name : QualifiedName) : List QualifiedName :=
  ((declarations.links name).toOption.getD []).map Prod.snd

theorem referencesOf_eq {links : List (Link × QualifiedName)}
    (h : declarations.links name = .ok links) :
    declarations.referencesOf name = links.map Prod.snd := by
  rw [referencesOf, h]
  rfl

theorem exists_of_mem_referencesOf (h : other ∈ declarations.referencesOf name) :
    ∃ links, declarations.links name = .ok links ∧ other ∈ links.map Prod.snd := by
  cases hlinks : declarations.links name with
  | error fault => simp [referencesOf, hlinks, Except.toOption] at h
  | ok links => exact ⟨links, rfl, referencesOf_eq hlinks ▸ h⟩

theorem referencesOf_undeclared (h : name ∉ declarations.types.names) :
    declarations.referencesOf name = [] := by
  have hnone : declarations.types.find? name = none := by
    by_contra hsome
    exact h (NameMap.mem_names_iff.mpr (Option.ne_none_iff_exists'.mp hsome))
  simp [referencesOf, links, hnone, Except.toOption]

theorem length_referencesOf_le :
    (declarations.types.names.flatMap declarations.referencesOf).length ≤
      declarations.referenceCount :=
  NameMap.length_flatMap_names_le fun name decl hdecl => by
    have hlinks : declarations.links name = declarations.references name decl := by
      rw [links, hdecl]
    cases hreferences : declarations.references name decl with
    | error fault => simp [referencesOf, hlinks, hreferences, Except.toOption]
    | ok references =>
      rw [referencesOf_eq (hlinks.trans hreferences), List.length_map]
      exact length_references_le hreferences

end Declarations

end ConfigScript
