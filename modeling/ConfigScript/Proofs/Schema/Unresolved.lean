import ConfigScript.Proofs.Faults
import ConfigScript.Proofs.Schema.Chains
import ConfigScript.Schema.Build

/-!
# Unresolved types

A schema is not built when a needed type is undeclared. All such types are then reported, each once
and with a chain of links that leads to it. Every other step of building a schema has faults of its
own, so that whatever is reported as unresolved comes from the search for reachable types.
-/

namespace ConfigScript

open Fallible

/-- A fault other than that of types that nobody declares. -/
def BuildError.OfEntry (fault : BuildError) : Prop :=
  ∀ unresolved, fault ≠ .unresolvedTypes unresolved

theorem faults_buildName {α : Type} (result : Except InvalidName α) :
    FaultsIn BuildError.OfEntry (buildName result) :=
  faultsIn_mapError fun _ _ => nofun

theorem faults_optionalType (text : Option String) :
    FaultsIn BuildError.OfEntry (optionalType text) := by
  cases text with
  | none => exact faultsIn_ok none
  | some text => exact (faults_buildName _).map some

namespace Declarations

variable {declarations : Declarations}

theorem faults_ofCatalog (catalog : Catalog) (style : LambdaStyle) :
    FaultsIn BuildError.OfEntry (ofCatalog catalog style) := by
  have hadd : ∀ (index : NameMap TypeDecl), ∀ decl ∈ catalog.types,
      FaultsIn BuildError.OfEntry (addType index decl) := by
    intro index decl _
    apply (faults_buildName _).bind
    intro name _
    dsimp only
    split
    · exact faultsIn_throw fun _ => nofun
    · exact faultsIn_pure _
  have hindex : FaultsIn BuildError.OfEntry (indexTypes catalog.types) :=
    faultsIn_foldlM hadd .empty
  exact hindex.bind fun index _ => faultsIn_pure _

/-! ### The search -/

theorem faults_className? (style : LambdaStyle) (text : String) :
    FaultsIn BuildError.OfEntry (className? style text) :=
  (faults_buildName _).bind fun _ _ => faultsIn_pure _

theorem faults_links (name : QualifiedName) :
    FaultsIn BuildError.OfEntry (declarations.links name) := by
  unfold links
  split
  · exact faultsIn_ok []
  · apply FaultsIn.bind
    · exact faultsIn_filterMapM fun mention _ =>
        (faults_className? _ _).bind fun type _ => faultsIn_pure _
    · intro mentioned _
      apply FaultsIn.bind
      · apply faultsIn_filterMapM
        intro text _
        apply (faults_buildName _).bind
        intro supertype _
        split
        · exact faultsIn_pure _
        · exact faultsIn_pure _
      · exact fun inherited _ => faultsIn_pure _

theorem faults_mentionedByPackages (catalog : Catalog) :
    FaultsIn BuildError.OfEntry (declarations.mentionedByPackages catalog) := by
  apply FaultsIn.bind
  · apply faultsIn_flatMapM
    intro function _
    apply FaultsIn.bind (faultsIn_filterMapM fun text _ => faults_className? _ text)
    exact fun names _ => faultsIn_pure _
  · intro functions _
    apply FaultsIn.bind
    · exact faultsIn_filterMapM fun object _ =>
        (faults_className? _ _).bind fun name _ => faultsIn_pure _
    · intro objects _
      apply FaultsIn.bind
      · exact faultsIn_filterMapM fun text _ =>
          (faults_buildName _).bind fun name _ => faultsIn_pure _
      · exact fun imports _ => faultsIn_pure _

theorem faults_visitTypes (budget : Nat) (seen : List QualifiedName) (queue : List Visit) :
    FaultsIn BuildError.OfEntry (declarations.visitTypes budget seen queue) := by
  induction budget generalizing seen queue with
  | zero => exact faultsIn_ok []
  | succ budget ih =>
    cases queue with
    | nil => exact faultsIn_ok []
    | cons first queue =>
      by_cases hseen : first.name ∈ seen
      · rw [visitTypes, if_pos hseen]
        exact ih seen queue
      · rw [visitTypes_new hseen]
        apply (faults_links first.name).bind
        intro next _
        exact (ih _ _).bind fun later _ => faultsIn_pure _

/-! ### Classes and functions -/

theorem faults_toProperty (decl : PropertyDecl) :
    FaultsIn BuildError.OfEntry decl.toProperty :=
  (faults_buildName _).bind fun _ _ => faultsIn_pure _

theorem faults_property? (owner : QualifiedName) (name : String) :
    FaultsIn BuildError.OfEntry (declarations.property? owner name) := by
  unfold property?
  split
  · exact faultsIn_ok none
  · exact (faults_toProperty _).map some

theorem faults_splitBlock (function : String) (parameters : List ParameterDecl) :
    FaultsIn BuildError.OfEntry (declarations.splitBlock function parameters) := by
  induction parameters with
  | nil => exact faultsIn_ok _
  | cons parameter parameters ih =>
    unfold splitBlock
    split
    · exact ih.bind fun split _ => faultsIn_pure _
    · split
      · exact faultsIn_error fun _ => nofun
      · apply (faults_buildName _).bind
        intro type _
        split
        · exact faultsIn_throw fun _ => nofun
        · exact faultsIn_pure _

theorem faults_parameter (function : String) (target : Option QualifiedName)
    (decl : ParameterDecl) :
    FaultsIn BuildError.OfEntry (declarations.parameter function target decl) := by
  apply (faults_buildName _).bind
  intro type _
  split
  · exact faultsIn_pure _
  · split
    · apply (faults_property? _ _).bind
      intro found _
      split
      · split
        · exact faultsIn_throw fun _ => nofun
        · exact faultsIn_pure _
      · exact faultsIn_throw fun _ => nofun
    · exact faultsIn_throw fun _ => nofun

theorem faults_accessing {function : String} {accessor : Accessor} {object : TypeRef}
    {returns : Option TypeRef} :
    FaultsIn BuildError.OfEntry
      (match returns with
      | none => pure (Semantics.accessAndConfigure accessor .unit)
      | some type =>
        if type = .unit then pure (Semantics.accessAndConfigure accessor .unit)
        else if type = object then pure (Semantics.accessAndConfigure accessor .configuredObject)
        else throw (BuildError.invalidFunction function .configuringReturn) :
      Except BuildError Semantics) := by
  split
  · exact faultsIn_pure _
  · split
    · exact faultsIn_pure _
    · split
      · exact faultsIn_pure _
      · exact faultsIn_throw fun _ => nofun

theorem faults_semantics (receiver : QualifiedName) (function : String) (decl : FunctionDecl)
    (configured returns : Option TypeRef) :
    FaultsIn BuildError.OfEntry
      (declarations.semantics receiver function decl configured returns) := by
  unfold Declarations.semantics
  cases decl.kind with
  | pure =>
    dsimp only
    split
    · exact faultsIn_throw fun _ => nofun
    · exact faultsIn_pure _
  | builder =>
    dsimp only
    split
    · exact faultsIn_throw fun _ => nofun
    · split
      · exact faultsIn_throw fun _ => nofun
      · exact faultsIn_pure _
  | adding =>
    cases returns with
    | none => exact faultsIn_throw fun _ => nofun
    | some element =>
      dsimp only
      split
      · exact faultsIn_throw fun _ => nofun
      · split
        · exact faultsIn_throw fun _ => nofun
        · exact faultsIn_pure _
  | configuring =>
    cases configured with
    | none => exact faultsIn_throw fun _ => nofun
    | some object =>
      dsimp only
      split
      · exact (faultsIn_pure _).bind fun _ _ => faults_accessing
      · apply (faults_property? _ _).bind
        intro found _
        cases found with
        | none => exact faultsIn_throw fun _ => nofun
        | some property =>
          dsimp only
          split
          · exact faultsIn_throw fun _ => nofun
          · exact (faultsIn_pure _).bind fun _ _ => faults_accessing

theorem faults_memberFunction (receiver : QualifiedName) (decl : FunctionDecl) :
    FaultsIn BuildError.OfEntry (declarations.memberFunction receiver decl) := by
  apply (faults_splitBlock _ _).bind
  intro split _
  apply (faults_optionalType _).bind
  intro returns _
  apply (faults_semantics _ _ _ _ _).bind
  intro semantics _
  exact (faultsIn_mapM fun value _ => faults_parameter _ _ value).bind fun _ _ => faultsIn_pure _

theorem faults_dataClass (name : QualifiedName) (decl : TypeDecl) :
    FaultsIn BuildError.OfEntry (declarations.dataClass name decl) := by
  apply (faultsIn_mapM fun own _ => faults_toProperty own).bind
  intro properties _
  apply (faultsIn_mapM fun own _ => faults_memberFunction name own).bind
  intro functions _
  apply FaultsIn.bind
  · apply faultsIn_mapM
    intro constructor _
    exact (faultsIn_mapM fun own _ => faults_parameter _ _ own).bind fun _ _ => faultsIn_pure _
  · exact fun constructors _ => faultsIn_pure _

theorem faults_externalFunction (decl : PackageFunctionDecl) :
    FaultsIn BuildError.OfEntry (declarations.externalFunction decl) := by
  apply (faults_buildName _).bind
  intro name _
  dsimp only
  split
  · exact faultsIn_throw fun _ => nofun
  · apply (faults_splitBlock _ _).bind
    rintro ⟨values, configured⟩ _
    dsimp only
    split
    · exact faultsIn_throw fun _ => nofun
    · apply (faultsIn_mapM fun own _ => faults_parameter _ _ own).bind
      intro parameters _
      exact (faults_optionalType _).bind fun _ _ => faultsIn_pure _

theorem faults_externalObject (decl : ObjectDecl) :
    FaultsIn BuildError.OfEntry (externalObject decl) := by
  apply (faults_buildName _).bind
  intro name _
  exact (faults_buildName _).bind fun _ _ => faultsIn_pure _

end Declarations

theorem Schema.faults_checkedImports (schema : Schema) (imports : List String) :
    FaultsIn BuildError.OfEntry (schema.checkedImports imports) := by
  apply FaultsIn.bind
  · apply faultsIn_mapM
    intro text _
    apply (faults_buildName _).bind
    intro name _
    dsimp only
    split
    · exact faultsIn_throw fun _ => nofun
    · exact faultsIn_pure _
  · exact fun names _ => faultsIn_pure _

theorem not_ofEntry (unresolved : List UnresolvedType) :
    ¬ (BuildError.unresolvedTypes unresolved).OfEntry :=
  fun h => h unresolved rfl

/-- What is reported as unresolved: each name once, exactly the needed types that the catalog does
not declare, each with a chain of links that leads to it. Only the receiver needs none. -/
structure Catalog.Reports (catalog : Catalog) (style : LambdaStyle) (receiver : QualifiedName)
    (unresolved : List UnresolvedType) : Prop where
  distinct : (unresolved.map UnresolvedType.name).Nodup
  complete : ∀ name, name ∈ unresolved.map UnresolvedType.name ↔
    catalog.Needs style receiver name ∧ ∀ decl, ¬ catalog.Declares name decl
  chained : ∀ entry ∈ unresolved, catalog.Chain style receiver entry.chain entry.name
  rooted : ∀ entry ∈ unresolved, entry.chain = [] ↔ entry.name = receiver

namespace Declarations

variable {declarations : Declarations} {catalog : Catalog} {style : LambdaStyle}
  {receiver : QualifiedName} {unresolved : List UnresolvedType}

/-- A visit of a type, as it is reported when nobody declares the type. -/
def Visit.toUnresolved (found : Visit) : UnresolvedType :=
  ⟨found.name, found.chain⟩

/-- A search that reports types reports those of its visits that are of no declared type. -/
theorem unresolved_of_reachable
    (h : declarations.reachable catalog receiver = .error (.unresolvedTypes unresolved)) :
    ∃ mentioned visits, declarations.mentionedByPackages catalog = .ok mentioned ∧
      declarations.visitTypes
        ((Visit.mk receiver [] :: mentioned).length + declarations.referenceCount) []
        (⟨receiver, []⟩ :: mentioned) = .ok visits ∧
      unresolved ≠ [] ∧
      unresolved = (visits.filter fun found =>
        !declarations.types.contains found.name).map Visit.toUnresolved := by
  obtain ⟨mentioned, hmentioned, h⟩ :=
    (faults_mentionedByPackages catalog).ok_of_bind (not_ofEntry _) h
  obtain ⟨visits, hvisits, h⟩ := (faults_visitTypes _ _ _).ok_of_bind (not_ofEntry _) h
  refine ⟨mentioned, visits, hmentioned, hvisits, ?_⟩
  simp only [List.partition_eq_filter_filter, Function.comp_def] at h
  split at h
  · cases h
  · rename_i hsome
    obtain rfl := BuildError.unresolvedTypes.inj (Except.error.inj h)
    refine ⟨?_, rfl⟩
    simpa [List.map_eq_nil_iff] using hsome

/-- The names that no type is declared under. -/
theorem contains_eq_false_iff (hcatalog : ofCatalog catalog style = .ok declarations)
    (name : QualifiedName) :
    declarations.types.contains name = false ↔ ∀ decl, ¬ catalog.Declares name decl := by
  rw [← Bool.not_eq_true, NameMap.contains_iff, not_exists]
  exact forall_congr' fun decl => not_congr (find?_types hcatalog)

theorem reports_of_reachable (hcatalog : ofCatalog catalog style = .ok declarations)
    (h : declarations.reachable catalog receiver = .error (.unresolvedTypes unresolved)) :
    unresolved ≠ [] ∧ catalog.Reports style receiver unresolved := by
  obtain ⟨mentioned, visits, hmentioned, hvisits, hsome, rfl⟩ := unresolved_of_reachable h
  have hdistinct := nodup_visitTypes hvisits
  have hchains : ∀ found ∈ visits, catalog.Chain style receiver found.chain found.name := by
    apply chains_of_visitTypes hcatalog hvisits
    intro found hfound
    cases List.mem_cons.mp hfound with
    | inl hfirst => exact hfirst ▸ .receiver
    | inr hrest => exact chain_of_mentioned hcatalog hmentioned hrest
  -- The reported visits are those that stand for no declared type.
  have hreported : ∀ {found}, found ∈ (visits.filter fun found =>
      !declarations.types.contains found.name) ↔
        found ∈ visits ∧ ∀ decl, ¬ catalog.Declares found.name decl := by
    intro found
    rw [List.mem_filter, Bool.not_eq_true', contains_eq_false_iff hcatalog]
  have hnames : ((visits.filter fun found => !declarations.types.contains found.name).map
      Visit.toUnresolved).map UnresolvedType.name =
        (visits.filter fun found => !declarations.types.contains found.name).map Visit.name :=
    List.map_map
  refine ⟨hsome, ?_, fun name => ?_, List.forall_mem_map.mpr fun found hfound => ?_,
    List.forall_mem_map.mpr fun found hfound => ?_⟩
  · rw [hnames]
    exact hdistinct.sublist (List.filter_sublist.map Visit.name)
  · rw [hnames]
    constructor
    · intro hname
      obtain ⟨found, hfound, rfl⟩ := List.mem_map.mp hname
      obtain ⟨hvisited, hundeclared⟩ := hreported.mp hfound
      exact ⟨needs_of_visited hcatalog hmentioned hvisits (List.mem_map_of_mem hvisited),
        hundeclared⟩
    · rintro ⟨hneeds, hundeclared⟩
      obtain ⟨found, hfound, rfl⟩ :=
        List.mem_map.mp (visited_of_needs hcatalog hmentioned hvisits hneeds)
      exact List.mem_map_of_mem (hreported.mpr ⟨hfound, hundeclared⟩)
  · exact hchains found (hreported.mp hfound).1
  · obtain ⟨hvisited, hundeclared⟩ := hreported.mp hfound
    constructor
    · intro hempty
      have hchain : catalog.Chain style receiver [] found.name := by
        rw [← hempty]
        exact hchains found hvisited
      obtain hreceiver | ⟨decl, hdecl⟩ := hchain.of_nil
      · exact hreceiver
      · exact absurd hdecl (hundeclared decl)
    · intro hname
      have hfirst : ⟨receiver, []⟩ ∈ visits :=
        head_visitTypes (Nat.add_pos_left (Nat.succ_pos mentioned.length) _) hvisits
      have hsame := List.inj_on_of_nodup_map hdistinct hvisited hfirst hname
      exact congrArg Visit.chain hsame

end Declarations

namespace Schema

/-- Whenever a schema is not built for unresolved types, these are all the types that are needed and
not declared, each of them once, and the links given with each of them do lead to it. -/
theorem reports_of_build {catalog : Catalog} {style : LambdaStyle} {receiver : String}
    {unresolved : List UnresolvedType}
    (h : build catalog style receiver = .error (.unresolvedTypes unresolved)) :
    ∃ root : QualifiedName, root.text = receiver ∧ unresolved ≠ [] ∧
      catalog.Reports style root unresolved := by
  obtain ⟨root, hroot, h⟩ := (faults_buildName _).ok_of_bind (not_ofEntry _) h
  obtain ⟨declarations, hcatalog, h⟩ :=
    (Declarations.faults_ofCatalog catalog style).ok_of_bind (not_ofEntry _) h
  have hsearch : declarations.reachable catalog root = .error (.unresolvedTypes unresolved) := by
    refine error_of_bind (fun needed => ?_) (not_ofEntry _) h
    apply FaultsIn.bind
    · apply faultsIn_filterMapM
      intro name _
      split
      · exact faultsIn_pure _
      · exact (Declarations.faults_dataClass _ _).bind fun _ _ => faultsIn_pure _
    · intro classes _
      apply (faultsIn_mapM fun own _ => Declarations.faults_externalFunction own).bind
      intro functions _
      apply (faultsIn_mapM fun own _ => Declarations.faults_externalObject own).bind
      intro objects _
      exact (faults_checkedImports _ _).bind fun _ _ => faultsIn_pure _
  have hname := QualifiedName.parse_eq_ok.mp (buildName_eq_ok.mp hroot)
  exact ⟨root, hname, Declarations.reports_of_reachable hcatalog hsearch⟩

/-- Two types in a circle, with types that nobody declares around them. -/
def danglingCatalog : Catalog :=
  ⟨[⟨"Top", ["Next", "Above"], [⟨"part", "Missing", false, false⟩],
      [⟨"next", .configuring, [⟨"block", "Lost.() -> Unit", false, none⟩], none, none, none⟩], []⟩,
    ⟨"Next", ["Top"], [⟨"top", "Top", false, false⟩], [], [⟨[⟨"seed", "Gone", true, none⟩]⟩]⟩],
    [⟨"p", "f", .pure, [⟨"value", "Missing", false, none⟩], some "Away"⟩], [⟨"p.o", "Far"⟩],
    ["Top", "p.o"]⟩

theorem reports_of_build_dangling : ∃ unresolved root,
    build danglingCatalog .receiverFunction "Top" = .error (.unresolvedTypes unresolved) ∧
      unresolved.map UnresolvedType.message =
        ["Missing (via p.f)", "Away (via p.f)", "Far (via p.o)", "Lost (via Top.next)",
          "Gone (via Top: Next -> Next.<init>)"] ∧
      root.text = "Top" ∧ danglingCatalog.Reports .receiverFunction root unresolved := by
  have hok : (match build danglingCatalog .receiverFunction "Top" with
      | .error (.unresolvedTypes unresolved) =>
        unresolved.map UnresolvedType.message ==
          ["Missing (via p.f)", "Away (via p.f)", "Far (via p.o)", "Lost (via Top.next)",
            "Gone (via Top: Next -> Next.<init>)"]
      | _ => false) = true := by
    decide +kernel
  split at hok
  · rename_i unresolved hbuild
    obtain ⟨root, hroot, -, hreports⟩ := reports_of_build hbuild
    exact ⟨unresolved, root, hbuild, eq_of_beq hok, hroot, hreports⟩
  · cases hok

end Schema

end ConfigScript
