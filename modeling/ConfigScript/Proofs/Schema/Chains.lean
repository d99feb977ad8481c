import ConfigScript.Proofs.Schema.BreadthFirst
import ConfigScript.Proofs.Schema.Reachable

/-!
# Chains to types

A chain of links says how a type is reached: from the receiver or a default import, or over a
function or an object of a package, and then from one declared type to the next over a member or a
supertype. The search for reachable types carries such a chain along with every name in its queue.
-/

namespace ConfigScript

/-- A member of a declared type, given by its name, is spelled with a type text. -/
inductive TypeDecl.MemberMentions (decl : TypeDecl) : String → String → Prop where
  | property {property : PropertyDecl} (h : property ∈ decl.properties) :
      MemberMentions decl property.name property.type
  | parameter {function : FunctionDecl} {parameter : ParameterDecl}
      (hfunction : function ∈ decl.functions) (h : parameter ∈ function.parameters) :
      MemberMentions decl function.name parameter.type
  | returns {function : FunctionDecl} {text : String} (hfunction : function ∈ decl.functions)
      (h : function.returns = some text) : MemberMentions decl function.name text
  | construction {constructor : ConstructorDecl} {parameter : ParameterDecl}
      (hconstructor : constructor ∈ decl.constructors) (h : parameter ∈ constructor.parameters) :
      MemberMentions decl "<init>" parameter.type

/-- A link from a declared type to a type that it refers to. -/
inductive Catalog.Links (catalog : Catalog) (style : LambdaStyle) (owner : QualifiedName) :
    Link → QualifiedName → Prop where
  | member {decl : TypeDecl} {member text : String} {name : QualifiedName}
      (hdecl : catalog.Declares owner decl) (hmention : decl.MemberMentions member text)
      (h : style.Names text name) : Links catalog style owner (.member owner member) name
  | supertype {decl above : TypeDecl} {sup : QualifiedName} (hdecl : catalog.Declares owner decl)
      (hsup : sup.text ∈ decl.supertypes) (h : catalog.Declares sup above) :
      Links catalog style owner (.supertype owner sup) sup

/-- A chain of links that leads to a type. -/
inductive Catalog.Chain (catalog : Catalog) (style : LambdaStyle) (receiver : QualifiedName) :
    List Link → QualifiedName → Prop where
  | receiver : Chain catalog style receiver [] receiver
  | defaultImport {name : QualifiedName} {decl : TypeDecl}
      (himport : name.text ∈ catalog.defaultImports) (h : catalog.Declares name decl) :
      Chain catalog style receiver [] name
  | function {function : PackageFunctionDecl} {text : String} {name : QualifiedName}
      (hfunction : function ∈ catalog.functions)
      (htext : text ∈ function.parameters.map ParameterDecl.type ∨ function.returns = some text)
      (h : style.Names text name) :
      Chain catalog style receiver [.function function.package function.name] name
  | object {object : ObjectDecl} {name : QualifiedName} (hobject : object ∈ catalog.objects)
      (h : style.Names object.type name) : Chain catalog style receiver [.object object.name] name
  | link {chain : List Link} {link : Link} {owner name : QualifiedName}
      (hchain : Chain catalog style receiver chain owner)
      (h : catalog.Links style owner link name) :
      Chain catalog style receiver (chain ++ [link]) name

theorem TypeDecl.memberMentions_iff {decl : TypeDecl} {member text : String} :
    decl.MemberMentions member text ↔ (member, text) ∈ decl.mentions := by
  simp only [mentions, List.mem_append, List.mem_map, List.mem_flatMap, Option.mem_toList,
    Prod.mk.injEq]
  constructor
  · rintro (hproperty | ⟨hfunction, hparameter⟩ | ⟨hfunction, hreturns⟩ |
      ⟨hconstructor, hparameter⟩)
    · exact .inl (.inl ⟨_, hproperty, rfl, rfl⟩)
    · exact .inl (.inr ⟨_, hfunction, .inl ⟨_, hparameter, rfl, rfl⟩⟩)
    · exact .inl (.inr ⟨_, hfunction, .inr ⟨_, hreturns, rfl, rfl⟩⟩)
    · exact .inr ⟨_, hconstructor, _, hparameter, rfl, rfl⟩
  · rintro ((⟨property, hproperty, rfl, rfl⟩ | ⟨function, hfunction,
      (⟨parameter, hparameter, rfl, rfl⟩ | ⟨type, hreturns, rfl, rfl⟩)⟩) |
      ⟨constructor, hconstructor, parameter, hparameter, rfl, rfl⟩)
    · exact .property hproperty
    · exact .parameter hfunction hparameter
    · exact .returns hfunction hreturns
    · exact .construction hconstructor hparameter

/-- The end of a chain without links is the receiver or a declared type. -/
theorem Catalog.Chain.of_nil {catalog : Catalog} {style : LambdaStyle}
    {receiver name : QualifiedName} (h : catalog.Chain style receiver [] name) :
    name = receiver ∨ ∃ decl, catalog.Declares name decl := by
  generalize hnil : ([] : List Link) = chain at h
  cases h with
  | receiver => exact .inl rfl
  | defaultImport himport hdecl => exact .inr ⟨_, hdecl⟩
  | function => cases hnil
  | object => cases hnil
  | link => simp at hnil

namespace Declarations

variable {declarations : Declarations} {catalog : Catalog} {style : LambdaStyle}
  {receiver name owner : QualifiedName} {chain : List Link}

section Catalog

variable (hcatalog : ofCatalog catalog style = .ok declarations)

include hcatalog

theorem links_of_mem_links {next : List (Link × QualifiedName)} {link : Link}
    (h : declarations.links owner = .ok next) (hlink : (link, name) ∈ next) :
    catalog.Links style owner link name := by
  obtain rfl := style_ofCatalog hcatalog
  unfold Declarations.links at h
  split at h
  · obtain rfl := Except.ok.inj h
    cases hlink
  · rename_i decl hdecl
    have hdeclares := (find?_types hcatalog).mp hdecl
    obtain ⟨member, text, hmention, hnames, rfl⟩ | ⟨hsup, hdeclared, rfl⟩ :=
      (mem_references_iff h).mp hlink
    · exact .member hdeclares (TypeDecl.memberMentions_iff.mpr hmention) hnames
    · obtain ⟨above, habove⟩ := NameMap.contains_iff.mp hdeclared
      exact .supertype hdeclares hsup ((find?_types hcatalog).mp habove)

theorem chain_of_mentioned {mentioned : List Visit}
    (h : declarations.mentionedByPackages catalog = .ok mentioned)
    (hfound : ⟨name, chain⟩ ∈ mentioned) : catalog.Chain style receiver chain name := by
  obtain rfl := style_ofCatalog hcatalog
  obtain ⟨function, hfunction, text, htext, hnames, rfl⟩ | ⟨object, hobject, hnames, rfl⟩ |
    ⟨himport, hdeclared, rfl⟩ := (mem_mentionedByPackages_iff h).mp hfound
  · exact .function hfunction ((List.mem_append.mp htext).imp_right Option.mem_toList.mp) hnames
  · exact .object hobject hnames
  · obtain ⟨decl, hdecl⟩ := NameMap.contains_iff.mp hdeclared
    exact .defaultImport himport ((find?_types hcatalog).mp hdecl)

/-- One visit puts chains that are longer by a link behind the queue. -/
theorem chains_of_links {found : Visit} {next : List (Link × QualifiedName)}
    (hfound : catalog.Chain style receiver found.chain found.name)
    (h : declarations.links found.name = .ok next) :
    ∀ later ∈ next.map fun (link, name) => (⟨name, found.chain ++ [link]⟩ : Visit),
      catalog.Chain style receiver later.chain later.name := by
  intro later hlater
  obtain ⟨⟨link, name⟩, hlink, rfl⟩ := List.mem_map.mp hlater
  exact .link hfound (links_of_mem_links hcatalog h hlink)

/-- A search from a queue of chains visits names with chains that lead to them. -/
theorem chains_of_visitTypes {budget : Nat} {seen : List QualifiedName}
    {queue visits : List Visit} (h : declarations.visitTypes budget seen queue = .ok visits)
    (hqueue : ∀ found ∈ queue, catalog.Chain style receiver found.chain found.name) :
    ∀ found ∈ visits, catalog.Chain style receiver found.chain found.name := by
  induction budget generalizing seen queue visits with
  | zero =>
    obtain rfl : [] = visits := by simpa [visitTypes] using h
    simp
  | succ budget ih =>
    cases queue with
    | nil =>
      obtain rfl : [] = visits := by simpa [visitTypes] using h
      simp
    | cons first queue =>
      obtain ⟨hfirst, hrest⟩ := List.forall_mem_cons.mp hqueue
      by_cases hseen : first.name ∈ seen
      · rw [visitTypes, if_pos hseen] at h
        exact ih h hrest
      · rw [visitTypes_new hseen] at h
        obtain ⟨next, hnext, h⟩ := Fallible.bind_eq_ok.mp h
        obtain ⟨later, hlater, h⟩ := Fallible.bind_eq_ok.mp h
        obtain rfl := Fallible.pure_eq_ok.mp h
        refine List.forall_mem_cons.mpr ⟨hfirst, ih hlater fun found hfound => ?_⟩
        cases List.mem_append.mp hfound with
        | inl hwaiting => exact hrest found hwaiting
        | inr hnew => exact chains_of_links hcatalog hfirst hnext found hnew

end Catalog

/-! ### What one search visits -/

/-- No name is visited twice. -/
theorem nodup_visitTypes {queue visits : List Visit}
    (hvisits : declarations.visitTypes (queue.length + declarations.referenceCount) [] queue =
      .ok visits) : (visits.map Visit.name).Nodup := by
  have hbudget : (queue.map Visit.name).length +
      openReferences declarations.referencesOf declarations.types.names [] ≤
        queue.length + declarations.referenceCount := by
    rw [List.length_map, openReferences_nil]
    exact Nat.add_le_add_left length_referencesOf_le _
  rw [(visitTypes_eq_ok hvisits).1, visit_eq (fun _ => referencesOf_undeclared) hbudget]
  exact nodup_eraseDups _

/-- The search begins with the receiver. -/
theorem head_visitTypes {mentioned visits : List Visit} {budget : Nat} (hbudget : 0 < budget)
    (h : declarations.visitTypes budget [] (⟨receiver, []⟩ :: mentioned) = .ok visits) :
    ⟨receiver, []⟩ ∈ visits := by
  obtain ⟨less, rfl⟩ := Nat.exists_eq_succ_of_ne_zero hbudget.ne'
  rw [visitTypes_new List.not_mem_nil] at h
  obtain ⟨next, -, h⟩ := Fallible.bind_eq_ok.mp h
  obtain ⟨later, -, h⟩ := Fallible.bind_eq_ok.mp h
  obtain rfl := Fallible.pure_eq_ok.mp h
  exact List.mem_cons_self

end Declarations

end ConfigScript
