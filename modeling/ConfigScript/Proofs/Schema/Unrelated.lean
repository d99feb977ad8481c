import ConfigScript.Proofs.Schema.Built
import ConfigScript.Proofs.Schema.Members

/-!
# Types that nothing mentions

A schema does not depend on types of its catalog that are neither its receiver nor mentioned
anywhere: with more such types, valid or not on the inside, building comes to the same schema, or
fails in the same way. The names that matter are a region that no reference leads out of, and all
that is put together for a name of the region is put together from the types of the region.
-/

namespace ConfigScript

namespace Declarations

/-- Two tables of types that are the same for names of their own, which no reference of a declared
type leads away from. -/
structure SameOn (wider declarations : Declarations) (own : QualifiedName → Prop) : Prop where
  style : wider.style = declarations.style
  find? : ∀ name, own name → wider.types.find? name = declarations.types.find? name
  mentions : ∀ owner decl, own owner → declarations.types.find? owner = some decl →
    ∀ text name, decl.Mentions text → declarations.style.Names text name → own name
  supertypes : ∀ owner decl, own owner → declarations.types.find? owner = some decl →
    ∀ name, name.text ∈ decl.supertypes → own name

namespace SameOn

variable {wider declarations : Declarations} {own : QualifiedName → Prop}
  {owner above name : QualifiedName} {decl : TypeDecl}

section

variable (h : wider.SameOn declarations own)

include h

theorem contains (hname : own name) :
    wider.types.contains name = declarations.types.contains name := by
  rw [NameMap.contains, NameMap.contains, h.find? name hname]

theorem supertypesOf (hname : own name) :
    wider.supertypesOf name = declarations.supertypesOf name := by
  rw [Declarations.supertypesOf, Declarations.supertypesOf, h.find? name hname]

theorem own_of_mem_supertypesOf (hname : own name)
    (habove : above ∈ declarations.supertypesOf name) : own above := by
  obtain ⟨decl, text, hdecl, htext, hparse⟩ := exists_of_mem_supertypesOf habove
  obtain rfl := QualifiedName.parse_eq_ok.mp hparse
  exact h.supertypes name decl hname hdecl above htext

theorem own_of_leads (hname : own name) (hleads : Leads declarations.supertypesOf name above) :
    own above :=
  hleads.stays (fun _ hsub _ => h.own_of_mem_supertypesOf hsub) hname

theorem lineage (hname : own name) : wider.lineage name = declarations.lineage name := by
  have hreached : reachFrom wider.supertypesOf wider.supertypeCount name =
      reachFrom declarations.supertypesOf declarations.supertypeCount name :=
    reachFrom_congr (fun _ => supertypesOf_undeclared) (fun _ => supertypesOf_undeclared)
      (fun _ => h.supertypesOf) (fun _ hsub _ => h.own_of_mem_supertypesOf hsub) hname
      length_supertypesOf_le length_supertypesOf_le
  rw [Declarations.lineage, Declarations.lineage, hreached]
  apply List.filterMap_congr
  intro above habove
  have hleads := (mem_reachFrom_iff (fun _ => supertypesOf_undeclared) length_supertypesOf_le).mp
    habove
  rw [h.find? above (h.own_of_leads hname hleads)]

theorem own_of_mem_lineage (hname : own name)
    (hentry : (above, decl) ∈ declarations.lineage name) :
    own above ∧ declarations.types.find? above = some decl := by
  obtain ⟨hleads, hdecl⟩ := mem_lineage_iff.mp hentry
  exact ⟨h.own_of_leads hname hleads, hdecl⟩

theorem property? (howner : own owner) (text : String) :
    wider.property? owner text = declarations.property? owner text := by
  rw [Declarations.property?, Declarations.property?, h.lineage howner]

theorem splitBlock (function : String) (parameters : List ParameterDecl) :
    wider.splitBlock function parameters = declarations.splitBlock function parameters := by
  induction parameters with
  | nil => rfl
  | cons parameter parameters ih =>
    rw [Declarations.splitBlock, Declarations.splitBlock, h.style, ih]

theorem parameter {target : Option QualifiedName} (htarget : ∀ name, target = some name → own name)
    (function : String) :
    wider.parameter function target = declarations.parameter function target := by
  funext decl
  cases target with
  | none => rfl
  | some owner =>
    simp only [Declarations.parameter, h.property? (htarget owner rfl)]

theorem semantics (howner : own owner) (function : String) (decl : FunctionDecl)
    (configured returns : Option TypeRef) :
    wider.semantics owner function decl configured returns =
      declarations.semantics owner function decl configured returns := by
  simp only [Declarations.semantics, h.lineage howner, h.property? howner]

/-- Where a function of an own type stores its arguments is an own name too. -/
theorem own_of_storageTarget (howner : own owner) (habove : own above)
    (hdecl : declarations.types.find? above = some decl) {function : FunctionDecl}
    (hfunction : function ∈ decl.functions) {text : String} {values : List ParameterDecl}
    {configured returns : Option TypeRef} {protocol : Semantics}
    (hsplit : declarations.splitBlock text function.parameters = .ok (values, configured))
    (hreturns : optionalType function.returns = .ok returns)
    (hprotocol : declarations.semantics owner text function configured returns = .ok protocol)
    (htarget : storageTarget owner protocol = some name) : own name := by
  obtain ⟨-, hconfigured⟩ := splitBlock_eq_ok hsplit
  have hclass : ∀ type, configured = some type → ∃ name, type = .named name := by
    intro type htype
    obtain ⟨_, -, name, heq, -⟩ := hconfigured type htype
    exact ⟨name, heq⟩
  have hspelled : name = owner ∨ returns = some (.named name) ∨
      configured = some (.named name) := by
    have htypes := (semantics_eq_ok hprotocol hclass).2 (.named name)
    cases protocol with
    | pure type => exact .inl (Option.some.inj htarget).symm
    | builder type => exact .inl (Option.some.inj htarget).symm
    | addAndConfigure element accepts =>
      obtain rfl := TypeRef.className?_eq_some.mp htarget
      simpa using htypes (List.mem_singleton_self _)
    | accessAndConfigure accessor kind =>
      simpa using htypes (List.mem_singleton.mpr (TypeRef.className?_eq_some.mp htarget).symm)
  rcases hspelled with rfl | hreturn | hblock
  · exact howner
  · obtain ⟨spelled, htext, hparse⟩ := optionalType_eq_ok (hreturn ▸ hreturns)
    exact h.mentions above decl habove hdecl spelled name (.returns hfunction htext)
      (LambdaStyle.names_of_parse hparse)
  · obtain ⟨parameter, hparameter, other, heq, hnames⟩ := hconfigured _ hblock
    obtain rfl := TypeRef.named.inj heq
    exact h.mentions above decl habove hdecl _ name (.parameter hfunction hparameter) hnames

theorem memberFunction (howner : own owner) (habove : own above)
    (hdecl : declarations.types.find? above = some decl) {function : FunctionDecl}
    (hfunction : function ∈ decl.functions) :
    wider.memberFunction owner function = declarations.memberFunction owner function := by
  simp only [Declarations.memberFunction, h.splitBlock, h.semantics howner]
  apply Fallible.bind_congr
  rintro ⟨values, configured⟩ hsplit
  apply Fallible.bind_congr
  intro returns hreturns
  apply Fallible.bind_congr
  intro protocol hprotocol
  rw [h.parameter fun name htarget =>
    h.own_of_storageTarget howner habove hdecl hfunction hsplit hreturns hprotocol htarget]

theorem constructor (howner : own owner) (decl : ConstructorDecl) :
    wider.constructor owner decl = declarations.constructor owner decl := by
  have htarget : ∀ name, some owner = some name → own name := by
    rintro name ⟨⟩
    exact howner
  rw [Declarations.constructor, Declarations.constructor, h.parameter htarget]

/-- A class is put together from the same lineage. -/
theorem dataClass (hname : own name) :
    wider.dataClass name decl = declarations.dataClass name decl := by
  have hfunctions : ∀ function ∈ ((declarations.lineage name).flatMap (·.2.functions)).eraseDupsBy
      (·.signature == ·.signature),
      wider.memberFunction name function = declarations.memberFunction name function := by
    intro function hfunction
    obtain ⟨⟨above, decl⟩, hentry, hfunction⟩ :=
      List.mem_flatMap.mp (mem_of_mem_eraseDupsBy hfunction)
    obtain ⟨habove, hdecl⟩ := h.own_of_mem_lineage hname hentry
    exact h.memberFunction hname habove hdecl hfunction
  have hsupertypes : (declarations.supertypesOf name).filter wider.types.contains =
      (declarations.supertypesOf name).filter declarations.types.contains :=
    List.filter_congr fun above habove => h.contains (h.own_of_mem_supertypesOf hname habove)
  rw [Declarations.dataClass, Declarations.dataClass, h.lineage hname, h.supertypesOf hname,
    hsupertypes, Fallible.mapM_congr hfunctions, funext (h.constructor hname)]

theorem namedClass (hname : own name) : wider.namedClass name = declarations.namedClass name := by
  simp only [Declarations.namedClass, h.find? name hname, h.dataClass hname]

theorem externalFunction : wider.externalFunction = declarations.externalFunction := by
  funext decl
  have htarget : ∀ name, none = some name → own name := by
    rintro name ⟨⟩
  simp only [Declarations.externalFunction, h.splitBlock, h.parameter htarget]

theorem links (hname : own name) : wider.links name = declarations.links name := by
  rw [Declarations.links, Declarations.links, h.find? name hname]
  cases hdecl : declarations.types.find? name with
  | none => rfl
  | some decl =>
    simp only [references, h.style]
    apply Fallible.bind_congr
    intro mentioned _
    have hinherited : ∀ text ∈ decl.supertypes, (do
          let supertype ← buildName (QualifiedName.parse text)
          if wider.types.contains supertype then
            return some (Link.supertype name supertype, supertype)
          else return none) = (do
          let supertype ← buildName (QualifiedName.parse text)
          if declarations.types.contains supertype then
            return some (Link.supertype name supertype, supertype)
          else return none : Except BuildError _) := by
      intro text htext
      apply Fallible.bind_congr
      intro above habove
      obtain rfl := QualifiedName.parse_eq_ok.mp (buildName_eq_ok.mp habove)
      rw [h.contains (h.supertypes name decl hname hdecl above htext)]
    rw [Fallible.filterMapM_congr hinherited]

theorem own_of_reference (hname : own name) {other : QualifiedName}
    (hother : other ∈ declarations.referencesOf name) : own other := by
  obtain ⟨links, hlinks, hother⟩ := exists_of_mem_referencesOf hother
  obtain ⟨decl, hdecl, hreference⟩ := (mem_links hlinks).mp hother
  rcases hreference with ⟨text, hmention, hnames⟩ | ⟨hsup, -⟩
  · exact h.mentions name decl hname hdecl text other hmention hnames
  · exact h.supertypes name decl hname hdecl other hsup

/-- The search takes the same way and comes to the same end, be it a fault, as long as both budgets
suffice. -/
theorem visitTypes {queue : List Visit} (hqueue : ∀ start ∈ queue, own start.name)
    {seen : List QualifiedName} {budget enough : Nat}
    (hbudget : queue.length + openReferences declarations.referencesOf declarations.types.names
      seen ≤ budget)
    (henough : queue.length + openReferences wider.referencesOf wider.types.names seen ≤ enough) :
    wider.visitTypes enough seen queue = declarations.visitTypes budget seen queue := by
  induction budget generalizing enough seen queue with
  | zero =>
    obtain rfl : queue = [] := List.eq_nil_of_length_eq_zero (by omega)
    cases enough <;> rfl
  | succ budget ih =>
    cases queue with
    | nil => cases enough <;> rfl
    | cons first queue =>
      obtain ⟨hfirst, hqueue⟩ := List.forall_mem_cons.mp hqueue
      rw [List.length_cons] at hbudget henough
      obtain ⟨enough, rfl⟩ : ∃ rest, enough = rest + 1 := ⟨enough - 1, by omega⟩
      by_cases hseen : first.name ∈ seen
      · rw [Declarations.visitTypes, Declarations.visitTypes, if_pos hseen, if_pos hseen]
        exact ih hqueue (by omega) (by omega)
      · have hpaid : (declarations.referencesOf first.name).length + _ ≤ _ :=
          openReferences_visit (fun _ => referencesOf_undeclared) hseen
        have hpays : (wider.referencesOf first.name).length + _ ≤ _ :=
          openReferences_visit (fun _ => referencesOf_undeclared) hseen
        rw [visitTypes_new hseen, visitTypes_new hseen, h.links hfirst]
        apply Fallible.bind_congr
        intro next hnext
        have hfound := referencesOf_eq hnext
        rw [hfound, List.length_map] at hpaid
        rw [referencesOf_eq ((h.links hfirst).trans hnext), List.length_map] at hpays
        dsimp only
        rw [ih]
        · intro start hstart
          cases List.mem_append.mp hstart with
          | inl hold => exact hqueue start hold
          | inr hlater =>
            obtain ⟨link, hlink, rfl⟩ := List.mem_map.mp hlater
            exact h.own_of_reference hfirst (hfound ▸ List.mem_map_of_mem hlink)
        · rw [List.length_append, List.length_map]
          omega
        · rw [List.length_append, List.length_map]
          omega

theorem own_of_visited {queue visits : List Visit} (hqueue : ∀ start ∈ queue, own start.name)
    {budget : Nat} {seen : List QualifiedName}
    (hvisits : declarations.visitTypes budget seen queue = .ok visits)
    (hname : name ∈ visits.map Visit.name) : own name := by
  rw [(visitTypes_eq_ok hvisits).1] at hname
  obtain ⟨start, hstart, hleads⟩ := visit_leads hname
  obtain ⟨first, hfirst, rfl⟩ := List.mem_map.mp hstart
  exact hleads.stays (fun _ hown _ => h.own_of_reference hown) (hqueue first hfirst)

section Search

variable {catalog : Catalog} {receiver : QualifiedName}

theorem mentionedByPackages (himports : ∀ name, name.text ∈ catalog.defaultImports → own name) :
    wider.mentionedByPackages catalog = declarations.mentionedByPackages catalog := by
  simp only [Declarations.mentionedByPackages, h.style]
  apply Fallible.bind_congr
  intro functions _
  apply Fallible.bind_congr
  intro objects _
  have hkept : ∀ text ∈ catalog.defaultImports, (do
        let name ← buildName (QualifiedName.parse text)
        return if wider.types.contains name then some ⟨name, []⟩ else none) = (do
        let name ← buildName (QualifiedName.parse text)
        return if declarations.types.contains name then some ⟨name, []⟩ else none :
          Except BuildError (Option Visit)) := by
    intro text htext
    apply Fallible.bind_congr
    intro name hname
    obtain rfl := QualifiedName.parse_eq_ok.mp (buildName_eq_ok.mp hname)
    rw [h.contains (himports name htext)]
  rw [Fallible.filterMapM_congr hkept]

/-- The search finds the same types, and lists the same undeclared ones when it fails. -/
theorem reachable (hreceiver : own receiver)
    (himports : ∀ name, name.text ∈ catalog.defaultImports → own name)
    (hmentioned : ∀ mentioned, declarations.mentionedByPackages catalog = .ok mentioned →
      ∀ start ∈ mentioned, own start.name) :
    wider.reachable catalog receiver = declarations.reachable catalog receiver := by
  unfold Declarations.reachable
  rw [h.mentionedByPackages himports]
  apply Fallible.bind_congr
  intro mentioned hpackages
  have hqueue : ∀ start ∈ Visit.mk receiver [] :: mentioned, own start.name :=
    List.forall_mem_cons.mpr ⟨hreceiver, hmentioned mentioned hpackages⟩
  have hsame : wider.visitTypes
      ((Visit.mk receiver [] :: mentioned).length + wider.referenceCount) []
        (Visit.mk receiver [] :: mentioned) =
      declarations.visitTypes
        ((Visit.mk receiver [] :: mentioned).length + declarations.referenceCount) []
        (Visit.mk receiver [] :: mentioned) := by
    apply h.visitTypes hqueue
    · rw [openReferences_nil]
      exact Nat.add_le_add_left length_referencesOf_le _
    · rw [openReferences_nil]
      exact Nat.add_le_add_left length_referencesOf_le _
  dsimp only
  rw [hsame]
  apply Fallible.bind_congr
  intro visits hvisits
  have hdeclared : ∀ found ∈ visits, wider.types.contains found.name =
      declarations.types.contains found.name := fun found hfound =>
    h.contains (h.own_of_visited hqueue hvisits (List.mem_map_of_mem hfound))
  have hundeclared : ∀ found ∈ visits, (!wider.types.contains found.name) =
      !declarations.types.contains found.name := fun found hfound =>
    congrArg (!·) (hdeclared found hfound)
  simp only [List.partition_eq_filter_filter, Function.comp_def, List.filter_congr hdeclared,
    List.filter_congr hundeclared]

theorem own_of_reachable (hreceiver : own receiver)
    (hmentioned : ∀ mentioned, declarations.mentionedByPackages catalog = .ok mentioned →
      ∀ start ∈ mentioned, own start.name) {needed : NameSet}
    (hneeded : declarations.reachable catalog receiver = .ok needed) (hname : name ∈ needed) :
    own name := by
  obtain ⟨mentioned, visits, hpackages, hvisits, rfl, -⟩ := visits_of_reachable hneeded
  apply h.own_of_visited ?_ hvisits (NameSet.mem_ofList.mp hname)
  exact List.forall_mem_cons.mpr ⟨hreceiver, hmentioned mentioned hpackages⟩

end Search

end

end SameOn

end Declarations

namespace Catalog

/-- A name that a catalog mentions, whether it declares the type or not. -/
inductive Mentions (catalog : Catalog) (style : LambdaStyle) (name : QualifiedName) : Prop where
  | member {decl : TypeDecl} {text : String} (hdecl : decl ∈ catalog.types)
      (hmention : decl.Mentions text) (h : style.Names text name) : Mentions catalog style name
  | supertype {decl : TypeDecl} (hdecl : decl ∈ catalog.types)
      (h : name.text ∈ decl.supertypes) : Mentions catalog style name
  | function {function : PackageFunctionDecl} {text : String}
      (hfunction : function ∈ catalog.functions)
      (htext : text ∈ function.parameters.map (·.type) ++ function.returns.toList)
      (h : style.Names text name) : Mentions catalog style name
  | object {object : ObjectDecl} (hobject : object ∈ catalog.objects)
      (h : style.Names object.type name) : Mentions catalog style name
  | defaultImport (h : name.text ∈ catalog.defaultImports) : Mentions catalog style name

/-- Nothing but types with valid and distinct names, of which a catalog neither declares nor
mentions any, and none of which is its receiver. What the types say of themselves is free. -/
structure Unrelated (other catalog : Catalog) (style : LambdaStyle) (receiver : String) :
    Prop where
  functions : other.functions = []
  objects : other.objects = []
  defaultImports : other.defaultImports = []
  valid : ∀ decl ∈ other.types, ∃ name, QualifiedName.parse decl.name = .ok name
  distinct : (other.types.map TypeDecl.name).Nodup
  apart : ∀ name decl, other.Declares name decl → name.text ≠ receiver ∧
    (∀ own, ¬ catalog.Declares name own) ∧ ¬ catalog.Mentions style name

variable {catalog other : Catalog} {style : LambdaStyle} {receiver : String}

theorem declares_merge_iff {name : QualifiedName} {decl : TypeDecl} :
    (catalog.merge other).Declares name decl ↔
      catalog.Declares name decl ∨ other.Declares name decl := by
  simp only [Declares, merge, List.mem_append]
  grind

/-- Types that cannot be indexed cannot be indexed with more types behind them either. -/
theorem ofCatalog_merge_error {fault : BuildError}
    (hcatalog : Declarations.ofCatalog catalog style = .error fault) :
    Declarations.ofCatalog (catalog.merge other) style = .error fault := by
  have hsplit : Declarations.indexTypes (catalog.merge other).types =
      Declarations.indexTypes catalog.types >>= other.types.foldlM Declarations.addType := by
    change (catalog.types ++ other.types).foldlM Declarations.addType .empty = _
    rw [List.foldlM_append]
    rfl
  rw [Declarations.ofCatalog, hsplit]
  cases hindex : Declarations.indexTypes catalog.types with
  | error cause => rw [← hcatalog, Declarations.ofCatalog, hindex]; rfl
  | ok index =>
    simp [Declarations.ofCatalog, hindex, bind, Except.bind, pure, Except.pure] at hcatalog

namespace Unrelated

variable (h : other.Unrelated catalog style receiver)

include h

theorem merge_eq :
    catalog.merge other = { catalog with types := catalog.types ++ other.types } := by
  simp [merge, h.functions, h.objects, h.defaultImports, appendNew]

theorem exists_ofCatalog {declarations : Declarations}
    (hcatalog : Declarations.ofCatalog catalog style = .ok declarations) :
    ∃ wider, Declarations.ofCatalog (catalog.merge other) style = .ok wider := by
  obtain ⟨index, hindex, -⟩ := Fallible.bind_eq_ok.mp hcatalog
  obtain ⟨hvalid, hnodup⟩ := Declarations.exists_foldlM_addType_iff.mp ⟨index, hindex⟩
  have hall : ∃ result, (catalog.merge other).types.foldlM Declarations.addType .empty =
      .ok result := by
    apply Declarations.exists_foldlM_addType_iff.mpr
    constructor
    · intro decl hdecl
      cases List.mem_append.mp hdecl with
      | inl hown => exact hvalid decl hown
      | inr hother =>
        obtain ⟨name, hname⟩ := h.valid decl hother
        exact ⟨name, QualifiedName.parse_eq_ok.mp hname, rfl⟩
    · simp only [merge, List.map_append, List.nodup_append]
      refine ⟨hnodup, h.distinct, ?_⟩
      -- A name that stands in both lists would be declared by both catalogs.
      intro text hown foreign hforeign heq
      obtain ⟨decl, hdecl, rfl⟩ := List.mem_map.mp hown
      obtain ⟨type, htype, rfl⟩ := List.mem_map.mp hforeign
      obtain ⟨name, hname⟩ := h.valid type htype
      have hname := QualifiedName.parse_eq_ok.mp hname
      exact (h.apart name type ⟨htype, hname.symm⟩).2.1 decl ⟨hdecl, heq.trans hname.symm⟩
  obtain ⟨index, hindex⟩ := hall
  exact ⟨⟨index, style⟩, Fallible.bind_eq_ok.mpr ⟨index, hindex, rfl⟩⟩

/-- The types of the catalog are the same among the others, and none of them leads away. -/
theorem sameOn {declarations wider : Declarations}
    (hcatalog : Declarations.ofCatalog catalog style = .ok declarations)
    (hwider : Declarations.ofCatalog (catalog.merge other) style = .ok wider) :
    wider.SameOn declarations fun name => ∀ decl, ¬ other.Declares name decl := by
  obtain rfl := Declarations.style_ofCatalog hcatalog
  constructor
  case style => exact Declarations.style_ofCatalog hwider
  case find? =>
    intro name hname
    ext decl
    rw [Declarations.find?_types hwider, Declarations.find?_types hcatalog, declares_merge_iff,
      or_iff_left (hname decl)]
  case mentions =>
    intro owner decl _ hdecl text name hmention hnames foreign hforeign
    have hdeclares := (Declarations.find?_types hcatalog).mp hdecl
    exact (h.apart name foreign hforeign).2.2 (.member hdeclares.1 hmention hnames)
  case supertypes =>
    intro owner decl _ hdecl name hsup foreign hforeign
    have hdeclares := (Declarations.find?_types hcatalog).mp hdecl
    exact (h.apart name foreign hforeign).2.2 (.supertype hdeclares.1 hsup)

/-- What packages mention is none of the other types. -/
theorem own_of_mentioned {declarations : Declarations}
    (hcatalog : Declarations.ofCatalog catalog style = .ok declarations)
    {mentioned : List Declarations.Visit}
    (hmentioned : declarations.mentionedByPackages catalog = .ok mentioned)
    {start : Declarations.Visit} (hstart : start ∈ mentioned) (decl : TypeDecl) :
    ¬ other.Declares start.name decl := by
  obtain rfl := Declarations.style_ofCatalog hcatalog
  intro hforeign
  apply (h.apart start.name decl hforeign).2.2
  rcases (Declarations.mem_mentionedByPackages hmentioned).mp (List.mem_map_of_mem hstart) with
    ⟨function, hfunction, text, htext, hnames⟩ | ⟨object, hobject, hnames⟩ | ⟨himport, -⟩
  · exact .function hfunction htext hnames
  · exact .object hobject hnames
  · exact .defaultImport himport

end Unrelated

end Catalog

namespace Schema

variable {catalog other : Catalog} {style : LambdaStyle} {receiver : String}

/-- Types that nothing mentions make no difference to what building comes to. -/
theorem build_merge_of_unrelated (h : other.Unrelated catalog style receiver) :
    build (catalog.merge other) style receiver = build catalog style receiver := by
  have hmerge := h.merge_eq
  rw [hmerge]
  unfold build
  apply Fallible.bind_congr
  intro root hroot
  obtain rfl := QualifiedName.parse_eq_ok.mp (buildName_eq_ok.mp hroot)
  cases hcatalog : Declarations.ofCatalog catalog style with
  | error fault =>
    rw [← hmerge, Catalog.ofCatalog_merge_error hcatalog]
    rfl
  | ok declarations =>
    obtain ⟨wider, hwider⟩ := h.exists_ofCatalog hcatalog
    have hsame := h.sameOn hcatalog hwider
    have hroot : ∀ decl, ¬ other.Declares root decl := fun decl hforeign =>
      (h.apart root decl hforeign).1 rfl
    have hmentioned : ∀ mentioned, declarations.mentionedByPackages catalog = .ok mentioned →
        ∀ start ∈ mentioned, ∀ decl, ¬ other.Declares start.name decl :=
      fun _ hpackages _ hstart => h.own_of_mentioned hcatalog hpackages hstart
    have hreachable : wider.reachable catalog root = declarations.reachable catalog root := by
      apply hsame.reachable hroot ?_ hmentioned
      intro name himport decl hforeign
      exact (h.apart name decl hforeign).2.2 (.defaultImport himport)
    rw [← hmerge, hwider, hmerge]
    change (wider.reachable catalog root >>= _) = (declarations.reachable catalog root >>= _)
    rw [hreachable]
    apply Fallible.bind_congr
    intro needed hneeded
    have hclasses : needed.names.filterMapM wider.namedClass =
        needed.names.filterMapM declarations.namedClass :=
      Fallible.filterMapM_congr fun name hname =>
        hsame.namedClass (hsame.own_of_reachable hroot hmentioned hneeded hname)
    change (needed.names.filterMapM wider.namedClass >>= _) =
      (needed.names.filterMapM declarations.namedClass >>= _)
    rw [hclasses, hsame.externalFunction]

/-- Two types that mention each other, and one that mentions a type that nobody declares. -/
def tornCatalog : Catalog :=
  ⟨[⟨"Left", ["Gone"], [⟨"right", "Right", true, false⟩], [], []⟩,
    ⟨"Right", [], [⟨"left", "Left", true, false⟩], [], []⟩,
    ⟨"Torn", [], [⟨"lost", "Lost", true, false⟩], [], []⟩], [], [], []⟩

/-- Types of which hardly anything can be read. -/
def strangeCatalog : Catalog :=
  ⟨[⟨"Strange", ["Left", "1"], [⟨"odd", "no type", false, false⟩],
      [⟨"odd", .builder, [⟨"block", "1.() -> Unit", false, none⟩], some "Lost", none, none⟩], []⟩,
    ⟨"Stranger", ["Strange", "Stranger"], [], [], []⟩], [], [], []⟩

theorem mentions_tornCatalog {name : QualifiedName}
    (h : tornCatalog.Mentions .receiverFunction name) :
    name.text ∈ ["Right", "Left", "Lost", "Gone"] := by
  have hread : ∀ text ∈ ["Right", "Left", "Lost"],
      ((Declarations.className? .receiverFunction text).toOption.bind id).map QualifiedName.text =
        some text := by
    decide
  have hnames : ∀ text ∈ ["Right", "Left", "Lost"], ∀ name,
      LambdaStyle.receiverFunction.Names text name → name.text = text := by
    intro text htext name hname
    have hclass := hread text htext
    rw [Declarations.className?_eq_some.mpr hname] at hclass
    exact Option.some.inj hclass
  cases h with
  | @member decl text hdecl hmention hname =>
    have htext : text ∈ ["Right", "Left", "Lost"] := by
      obtain ⟨member, hmention⟩ := TypeDecl.mentions_iff.mp hmention
      simp only [tornCatalog, List.mem_cons, List.not_mem_nil, or_false] at hdecl
      rcases hdecl with rfl | rfl | rfl <;> simp_all [TypeDecl.mentions]
    rw [hnames text htext name hname]
    simp only [List.mem_cons] at htext ⊢
    grind
  | supertype hdecl hsup =>
    simp only [tornCatalog, List.mem_cons, List.not_mem_nil, or_false] at hdecl
    rcases hdecl with rfl | rfl | rfl <;> simp_all
  | function hfunction => cases hfunction
  | object hobject => cases hobject
  | defaultImport himport => cases himport

theorem unrelated_strangeCatalog {receiver : String} (hreceiver : receiver ∈ ["Left", "Torn"]) :
    strangeCatalog.Unrelated tornCatalog .receiverFunction receiver := by
  have hstrange : ∀ name decl, strangeCatalog.Declares name decl →
      name.text ∈ ["Strange", "Stranger"] := by
    rintro name decl ⟨hdecl, htext⟩
    rw [← htext]
    exact List.mem_map_of_mem (f := TypeDecl.name) hdecl
  refine ⟨rfl, rfl, rfl, ?_, by decide, ?_⟩
  · intro decl hdecl
    have hvalid : ∀ decl ∈ strangeCatalog.types, isQualified decl.name.toList = true := by decide
    exact ⟨⟨decl.name, hvalid decl hdecl⟩, QualifiedName.parse_eq_ok.mpr rfl⟩
  · intro name decl hdeclares
    have hname := hstrange name decl hdeclares
    refine ⟨?_, ?_, ?_⟩
    · rintro rfl
      have hapart : ∀ text ∈ ["Left", "Torn"], text ∉ ["Strange", "Stranger"] := by decide
      exact hapart _ hreceiver hname
    · rintro own ⟨hown, htext⟩
      have hapart : ∀ own ∈ tornCatalog.types, own.name ∉ ["Strange", "Stranger"] := by decide
      exact hapart own hown (htext ▸ hname)
    · intro hmention
      have hapart : ∀ text ∈ ["Right", "Left", "Lost", "Gone"],
          text ∉ ["Strange", "Stranger"] := by
        decide
      exact hapart _ (mentions_tornCatalog hmention) hname

/-- With the strange types a schema is built as before, and another one fails as before. -/
theorem build_merge_of_unrelated_strange :
    (∃ schema, build (tornCatalog.merge strangeCatalog) .receiverFunction "Left" = .ok schema ∧
      build tornCatalog .receiverFunction "Left" = .ok schema) ∧
    ∃ fault, build (tornCatalog.merge strangeCatalog) .receiverFunction "Torn" = .error fault ∧
      build tornCatalog .receiverFunction "Torn" = .error fault := by
  have hunrelated : ∀ receiver ∈ ["Left", "Torn"],
      strangeCatalog.Unrelated tornCatalog .receiverFunction receiver := fun _ =>
    unrelated_strangeCatalog
  rw [build_merge_of_unrelated (hunrelated "Left" (by decide)),
    build_merge_of_unrelated (hunrelated "Torn" (by decide))]
  have hok : (build tornCatalog .receiverFunction "Left").isOk = true := by decide
  have hfails : (build tornCatalog .receiverFunction "Torn").isOk = false := by decide
  constructor
  · cases hbuild : build tornCatalog .receiverFunction "Left" with
    | ok schema => exact ⟨schema, rfl, rfl⟩
    | error fault => simp [hbuild, Except.isOk, Except.toBool] at hok
  · cases hbuild : build tornCatalog .receiverFunction "Torn" with
    | ok schema => simp [hbuild, Except.isOk, Except.toBool] at hfails
    | error fault => exact ⟨fault, rfl, rfl⟩

end Schema

end ConfigScript
