import ConfigScript.Interpretation.SoftwareTypes
import ConfigScript.Proofs.Schema.Built
import ConfigScript.Proofs.Schema.Flattening
import ConfigScript.Proofs.Schema.Spelling
import ConfigScript.Resolution.Binding

/-!
# Software types in schemas

The software types of a registry stand in its catalog as the last functions of their owners, one for
each type and in the order of the registry; nothing else of what was declared before changes. A
class without supertypes has exactly the functions that its type declares, so a call by the name
of a software type has one function to mean, and the block behind it configures the model.
-/

namespace ConfigScript

/-! ### Catalogs with software types -/

/-- A declaration with functions behind its own. -/
def TypeDecl.withFunctions (decl : TypeDecl) (functions : List FunctionDecl) : TypeDecl :=
  { decl with functions := decl.functions ++ functions }

@[simp] theorem TypeDecl.withFunctions_nil (decl : TypeDecl) : decl.withFunctions [] = decl := by
  simp [withFunctions]

@[simp] theorem TypeDecl.withFunctions_withFunctions (decl : TypeDecl)
    (first second : List FunctionDecl) :
    (decl.withFunctions first).withFunctions second = decl.withFunctions (first ++ second) := by
  simp [withFunctions]

namespace Catalog

variable {catalog extended : Catalog} {name owner : String} {decl : TypeDecl}

theorem type?_modifyType {change : TypeDecl → TypeDecl} (catalog : Catalog) (owner name : String)
    (hname : ∀ type, (change type).name = type.name) :
    (catalog.modifyType owner change).type? name =
      if name = owner then (catalog.type? name).map change else catalog.type? name := by
  unfold type? modifyType
  dsimp only
  induction catalog.types with
  | nil => simp [modifyType.go]
  | cons first types ih =>
    unfold modifyType.go
    by_cases hfirst : first.name = owner
    · subst hfirst
      by_cases hsame : first.name = name
      · simp [hsame, hname]
      · simp [hsame, Ne.symm hsame, hname]
    · by_cases hsame : first.name = name
      · have hother : name ≠ owner := hsame ▸ hfirst
        simp [hsame, hother]
      · simpa [hfirst, hsame] using ih

theorem declares_of_type? {name : QualifiedName} (h : catalog.type? name.text = some decl) :
    catalog.Declares name decl :=
  ⟨List.mem_of_find?_eq_some h, by simpa using List.find?_some h⟩

theorem type?_addFunction {function : FunctionDecl}
    (h : catalog.addFunction function owner = .ok extended) (name : String) :
    extended.type? name = (catalog.type? name).map fun decl =>
      decl.withFunctions (if name = owner then [function] else []) := by
  unfold addFunction at h
  split at h
  · cases h
  · obtain rfl := Except.ok.inj h
    rw [type?_modifyType _ _ _ (by simp)]
    by_cases hname : name = owner <;> simp [hname, TypeDecl.withFunctions]

theorem exists_addFunction_iff {function : FunctionDecl} :
    (∃ extended, catalog.addFunction function owner = .ok extended) ↔
      ∃ decl, catalog.type? owner = some decl := by
  unfold addFunction
  cases catalog.type? owner <;> simp

variable {type : SoftwareType}

/-- What was declared before is declared still, as an owner with one more function. -/
theorem type?_addSoftwareType (h : catalog.addSoftwareType type = .ok extended)
    (hdecl : catalog.type? name = some decl) :
    extended.type? name = some (decl.withFunctions
      (if name ∈ SoftwareType.owners then [type.configuringFunction] else [])) := by
  obtain ⟨both, hboth, h⟩ := Fallible.bind_eq_ok.mp h
  obtain rfl := Fallible.pure_eq_ok.mp h
  simp only [SoftwareType.owners, List.foldlM_cons, List.foldlM_nil, Fallible.bind_eq_ok,
    Fallible.pure_eq_ok] at hboth
  obtain ⟨first, hfirst, second, hsecond, rfl⟩ := hboth
  have hfound : second.type? name = some (decl.withFunctions
      (if name ∈ SoftwareType.owners then [type.configuringFunction] else [])) := by
    rw [type?_addFunction hsecond, type?_addFunction hfirst, hdecl]
    have hdistinct : Bundled.projectReceiver ≠ Bundled.conventionsType := by decide
    by_cases hproject : name = Bundled.projectReceiver
    · simp [hproject, hdistinct, SoftwareType.owners]
    · by_cases hconventions : name = Bundled.conventionsType <;>
        simp [hproject, hconventions, SoftwareType.owners, hdistinct.symm]
  unfold type? at hfound ⊢
  rw [List.find?_append, hfound]
  rfl

theorem exists_addSoftwareType (type : SoftwareType)
    (howners : ∀ owner ∈ SoftwareType.owners, ∃ decl, catalog.type? owner = some decl) :
    ∃ extended, catalog.addSoftwareType type = .ok extended := by
  obtain ⟨project, hproject⟩ := howners Bundled.projectReceiver (by simp [SoftwareType.owners])
  obtain ⟨conventions, hconventions⟩ :=
    howners Bundled.conventionsType (by simp [SoftwareType.owners])
  obtain ⟨first, hfirst⟩ : ∃ first, catalog.addFunction type.configuringFunction
      Bundled.projectReceiver = .ok first := exists_addFunction_iff.mpr ⟨project, hproject⟩
  have hkept := type?_addFunction hfirst Bundled.conventionsType
  rw [hconventions] at hkept
  obtain ⟨second, hsecond⟩ := exists_addFunction_iff.mpr ⟨_, hkept⟩
  refine ⟨_, Fallible.bind_eq_ok.mpr ⟨second, ?_, rfl⟩⟩
  simp only [SoftwareType.owners, List.foldlM_cons, List.foldlM_nil, Fallible.bind_eq_ok,
    Fallible.pure_eq_ok]
  exact ⟨first, hfirst, second, hsecond, rfl⟩

variable {types : List SoftwareType} {seen : List String}

theorem addSoftwareTypes_cons_eq_ok :
    catalog.addSoftwareTypes seen (type :: types) = .ok extended ↔
      type.name ∉ seen ∧ ∃ first, catalog.addSoftwareType type = .ok first ∧
        first.addSoftwareTypes (type.name :: seen) types = .ok extended := by
  rw [addSoftwareTypes]
  by_cases hseen : type.name ∈ seen
  · simp [hseen, throw, throwThe, MonadExceptOf.throw, bind, Except.bind]
  · rw [if_neg hseen, and_iff_right hseen]
    exact Fallible.bind_eq_ok

/-- Behind its own functions an owner has one for each software type, in order. -/
theorem type?_addSoftwareTypes (h : catalog.addSoftwareTypes seen types = .ok extended)
    (hdecl : catalog.type? name = some decl) :
    extended.type? name = some (decl.withFunctions
      (if name ∈ SoftwareType.owners then types.map SoftwareType.configuringFunction else [])) := by
  induction types generalizing catalog seen decl with
  | nil =>
    obtain rfl := Except.ok.inj h
    simpa using hdecl
  | cons type types ih =>
    obtain ⟨-, first, hfirst, hrest⟩ := addSoftwareTypes_cons_eq_ok.mp h
    rw [ih hrest (type?_addSoftwareType hfirst hdecl), TypeDecl.withFunctions_withFunctions]
    by_cases howner : name ∈ SoftwareType.owners <;> simp [howner]

/-- Software types with distinct names can all be added, so long as their owners are declared. -/
theorem exists_addSoftwareTypes
    (howners : ∀ owner ∈ SoftwareType.owners, ∃ decl, catalog.type? owner = some decl)
    (hdistinct : (types.map SoftwareType.name).Nodup)
    (hfresh : ∀ type ∈ types, type.name ∉ seen) :
    ∃ extended, catalog.addSoftwareTypes seen types = .ok extended := by
  induction types generalizing catalog seen with
  | nil => exact ⟨catalog, rfl⟩
  | cons type types ih =>
    obtain ⟨hnew, hdistinct⟩ := List.nodup_cons.mp hdistinct
    obtain ⟨hunseen, hfresh⟩ := List.forall_mem_cons.mp hfresh
    obtain ⟨first, hfirst⟩ := exists_addSoftwareType type howners
    have hkept : ∀ owner ∈ SoftwareType.owners, ∃ decl, first.type? owner = some decl := by
      intro owner howner
      obtain ⟨decl, hdecl⟩ := howners owner howner
      exact ⟨_, type?_addSoftwareType hfirst hdecl⟩
    have hothers : ∀ other ∈ types, other.name ∉ type.name :: seen := by
      intro other hother hmem
      rcases List.mem_cons.mp hmem with heq | hseen
      · exact hnew (heq ▸ List.mem_map_of_mem hother)
      · exact hfresh other hother hseen
    obtain ⟨extended, hextended⟩ := ih hkept hdistinct hothers
    exact ⟨extended, addSoftwareTypes_cons_eq_ok.mpr ⟨hunseen, first, hfirst, hextended⟩⟩

end Catalog

/-! ### Classes without supertypes -/

/-- A function whose block configures an object that it reaches through an accessor. -/
def FunctionDecl.ofBlock (name model accessor : String) : FunctionDecl :=
  ⟨name, .configuring, [Bundled.configureBlock model], none, none, some accessor⟩

theorem filter_eq_singleton {α β : Type} [DecidableEq β] {key : α → β} {values : List α}
    (hdistinct : (values.map key).Nodup) {value : α} (h : value ∈ values) :
    values.filter (fun other => key other == key value) = [value] := by
  induction values with
  | nil => cases h
  | cons first values ih =>
    obtain ⟨hfirst, hrest⟩ := List.nodup_cons.mp hdistinct
    cases h with
    | head =>
      have hnone : values.filter (fun other => key other == key value) = [] := by
        rw [List.filter_eq_nil_iff]
        intro other hother heq
        exact hfirst (eq_of_beq heq ▸ List.mem_map_of_mem hother)
      simp [hnone]
    | tail _ hmem =>
      have hother : key first ≠ key value := fun heq => hfirst (heq ▸ List.mem_map_of_mem hmem)
      simp [hother, ih hrest hmem]

namespace Declarations

variable {declarations : Declarations} {owner : QualifiedName} {decl : TypeDecl}
  {dataClass : DataClass}

theorem lineage_eq_singleton (hdecl : declarations.types.find? owner = some decl)
    (htop : decl.supertypes = []) : declarations.lineage owner = [(owner, decl)] := by
  have hnone : declarations.supertypesOf owner = [] := by
    rw [supertypesOf_declared hdecl, htop]
    rfl
  have hreach : reachFrom declarations.supertypesOf declarations.supertypeCount owner =
      [owner] := by
    rw [reachFrom, visit, if_neg List.not_mem_nil, hnone]
    cases declarations.supertypeCount <;> rfl
  rw [lineage, hreach]
  simp [hdecl]

/-- A class without supertypes has the functions of its type, when no two of them have one name. -/
theorem Materialised.functions_eq (h : declarations.Materialised owner decl dataClass)
    (hdecl : declarations.types.find? owner = some decl) (htop : decl.supertypes = [])
    (hdistinct : (decl.functions.map FunctionDecl.name).Nodup) :
    decl.functions.mapM (declarations.memberFunction owner) = .ok dataClass.functions := by
  have hfunctions := h.functions
  have hsignatures : decl.functions.Pairwise fun first later =>
      (later.signature == first.signature) = false := by
    refine (List.pairwise_map.mp hdistinct).imp fun hne => ?_
    rw [beq_eq_false_iff_ne]
    intro heq
    exact hne (congrArg Prod.fst heq).symm
  rwa [lineage_eq_singleton hdecl htop, List.flatMap_singleton, eraseDupsBy_eq_self hsignatures]
    at hfunctions

/-- What is built of such a function takes nothing but its block, which configures the class that
the declaration names. -/
theorem memberFunction_ofBlock {name model accessor : String} {function : MemberFunction}
    (hstyle : declarations.style = .receiverFunction)
    (h : declarations.memberFunction owner (.ofBlock name model accessor) = .ok function) :
    ∃ object, TypeRef.parse model = .ok (.named object) ∧ function =
      ⟨owner, name, [], .accessAndConfigure (.custom (.named object) accessor) .unit⟩ := by
  obtain ⟨hreceiver, hname, text, values, configured, returns, hsplit, hreturns, hprotocol,
    hparameters⟩ := memberFunction_cases h
  obtain ⟨-, ⟨rfl, -⟩ | ⟨block, inner, object, hblock, hinner, hparse, rfl⟩⟩ :=
    splitBlock_cases hsplit
  · -- Without a block there would be nothing to configure.
    cases hprotocol
  · obtain ⟨rfl, rfl⟩ : values = [] ∧ Bundled.configureBlock model = block := by
      cases values with
      | nil => exact ⟨rfl, (List.cons.inj hblock).1⟩
      | cons value values =>
        have hlength := congrArg List.length hblock
        simp [FunctionDecl.ofBlock] at hlength
    obtain rfl : none = returns := Except.ok.inj hreturns
    rw [hstyle] at hinner
    obtain ⟨receiver, built, parameters, protocol⟩ := function
    obtain rfl : receiver = owner := hreceiver
    obtain rfl : built = name := hname
    obtain rfl : .accessAndConfigure (.custom (.named object) accessor) .unit = protocol :=
      Except.ok.inj hprotocol
    obtain rfl : [] = parameters := Except.ok.inj hparameters
    exact ⟨object, LambdaStyle.parse_of_configuredType?_spell hinner hparse, rfl⟩

end Declarations

/-! ### What calls of blocks mean -/

/-- A member function that takes nothing but a block, which configures an object that the function
reaches through an accessor. -/
def Candidate.ofBlock (owner : QualifiedName) (name accessor : String) (object : QualifiedName) :
    Candidate :=
  ⟨.member owner name, [], .accessAndConfigure (.custom (.named object) accessor) .unit⟩

/-- A call by a name has one function to mean on an object of a class, and that takes a block. -/
def Schema.OffersBlock (schema : Schema) (owner : QualifiedName) (name accessor : String)
    (object : QualifiedName) : Prop :=
  schema.memberCandidates owner name = [.ofBlock owner name accessor object]

namespace Schema

variable {schema : Schema} {catalog : Catalog} {declarations : Declarations}
  {owner : QualifiedName} {decl : TypeDecl}

theorem Presents.offersBlock (h : schema.Presents catalog declarations)
    (hcatalog : Declarations.ofCatalog catalog .receiverFunction = .ok declarations)
    (hneeded : catalog.Needs .receiverFunction schema.receiver owner)
    (hdecl : catalog.Declares owner decl) (htop : decl.supertypes = [])
    (hdistinct : (decl.functions.map FunctionDecl.name).Nodup) {name model accessor : String}
    (hmem : .ofBlock name model accessor ∈ decl.functions) :
    ∃ object, TypeRef.parse model = .ok (.named object) ∧
      schema.OffersBlock owner name accessor object := by
  have hstyle := Declarations.style_ofCatalog hcatalog
  obtain ⟨own, dataClass, hown, -, hbuilt, hclass⟩ := h.classes owner (hstyle ▸ hneeded)
  have hfind := (Declarations.find?_types hcatalog).mpr hdecl
  obtain rfl : decl = own :=
    Option.some.inj (hfind.symm.trans ((Declarations.find?_types hcatalog).mpr hown))
  have hfunctions := (Declarations.materialised hbuilt).functions_eq hfind htop hdistinct
  have hnames : dataClass.functions.map MemberFunction.name =
      decl.functions.map FunctionDecl.name :=
    Fallible.map_of_mapM_eq_ok
      (fun _ _ hfunction => (Declarations.memberFunction_cases hfunction).2.1) hfunctions
  obtain ⟨function, hfunction, hbuilt⟩ := Fallible.exists_of_mapM_eq_ok hfunctions hmem
  obtain ⟨object, hparse, rfl⟩ := Declarations.memberFunction_ofBlock hstyle hbuilt
  refine ⟨object, hparse, ?_⟩
  have hfilter := filter_eq_singleton (hnames ▸ hdistinct) hfunction
  rw [OffersBlock, memberCandidates, hclass]
  simp only [DataClass.functionsNamed] at hfilter ⊢
  rw [hfilter]
  rfl

end Schema

variable {registry : Registry} {catalog : Catalog} {schema : Schema} {receiver : String}

/-- The declaration of an owner in a catalog with software types. -/
theorem declares_owner (hcatalog : Bundled.catalog.withRegistry registry = .ok catalog)
    {owner : QualifiedName} (howner : owner.text ∈ SoftwareType.owners) :
    ∃ decl, catalog.Declares owner decl ∧ decl.supertypes = [] ∧
      decl.functions = registry.softwareTypes.map SoftwareType.configuringFunction := by
  have hbundled : ∀ name ∈ SoftwareType.owners, ∃ decl, Bundled.catalog.type? name = some decl ∧
      decl.supertypes = [] ∧ decl.functions = [] :=
    List.forall_mem_cons.mpr ⟨⟨_, rfl, rfl, rfl⟩, List.forall_mem_singleton.mpr ⟨_, rfl, rfl, rfl⟩⟩
  obtain ⟨decl, hdecl, htop, hnone⟩ := hbundled _ howner
  have hadded := Catalog.type?_addSoftwareTypes hcatalog hdecl
  refine ⟨_, Catalog.declares_of_type? hadded, htop, ?_⟩
  simp [TypeDecl.withFunctions, hnone, howner]

/-- A software type has its block on every owner that a schema holds. -/
theorem offersBlock_softwareType (hcatalog : Bundled.catalog.withRegistry registry = .ok catalog)
    (hdistinct : (registry.softwareTypes.map SoftwareType.name).Nodup)
    (hbuild : Schema.build catalog .receiverFunction receiver = .ok schema)
    {owner : QualifiedName} (howner : owner.text ∈ SoftwareType.owners)
    (hneeded : catalog.Needs .receiverFunction schema.receiver owner) {type : SoftwareType}
    (htype : type ∈ registry.softwareTypes) :
    ∃ object, TypeRef.parse type.model = .ok (.named object) ∧
      schema.OffersBlock owner type.name ("softwareType:" ++ type.name) object := by
  obtain ⟨-, declarations, hdeclarations, hpresents⟩ := Schema.presents_of_build hbuild
  obtain ⟨decl, hdecl, htop, hfunctions⟩ := declares_owner hcatalog howner
  refine hpresents.offersBlock hdeclarations hneeded hdecl htop ?_ ?_
  · rw [hfunctions, List.map_map]
    exact hdistinct
  · rw [hfunctions]
    exact List.mem_map_of_mem htype

/-- The settings have a block for their conventions, to which every schema of theirs leads. -/
theorem offersBlock_conventions (hcatalog : Bundled.catalog.withRegistry registry = .ok catalog)
    (hbuild : Schema.build catalog .receiverFunction Bundled.settingsReceiver = .ok schema) :
    ∃ conventions : QualifiedName, conventions.text = Bundled.conventionsType ∧
      catalog.Needs .receiverFunction schema.receiver conventions ∧
      schema.OffersBlock schema.receiver "conventions" "conventions" conventions := by
  obtain ⟨hreceiver, declarations, hdeclarations, hpresents⟩ := Schema.presents_of_build hbuild
  obtain ⟨decl, hbundled, htop, hdistinct, hmem⟩ : ∃ decl,
      Bundled.catalog.type? Bundled.settingsReceiver = some decl ∧ decl.supertypes = [] ∧
        (decl.functions.map FunctionDecl.name).Nodup ∧
        .ofBlock "conventions" Bundled.conventionsType "conventions" ∈ decl.functions :=
    ⟨_, rfl, rfl, by decide, by decide⟩
  have hadded := Catalog.type?_addSoftwareTypes hcatalog hbundled
  rw [if_neg (by decide), TypeDecl.withFunctions_nil, ← hreceiver] at hadded
  have hdecl := Catalog.declares_of_type? hadded
  obtain ⟨conventions, hparse, hoffers⟩ :=
    hpresents.offersBlock hdeclarations .receiver hdecl htop hdistinct hmem
  obtain rfl : ⟨Bundled.conventionsType, by decide⟩ = conventions := by
    have hconventions : TypeRef.parse Bundled.conventionsType =
        .ok (.named ⟨Bundled.conventionsType, by decide⟩) := by decide
    exact TypeRef.named.inj (Except.ok.inj (hconventions.symm.trans hparse))
  have hnames := LambdaStyle.names_of_configuredType?
    (@LambdaStyle.configuredType?_spell .receiverFunction ⟨Bundled.conventionsType, by decide⟩)
    hparse
  exact ⟨_, rfl, .member .receiver hdecl (.parameter hmem (List.mem_singleton_self _)) hnames,
    hoffers⟩

end ConfigScript
