import ConfigScript.Proofs.Schema.Reachable
import ConfigScript.Schema.Build

/-!
# Built schemas

A catalog yields a schema exactly when all texts that matter can be read, every needed type is
declared, and every class, function and object can be put together; the schema then holds these and
nothing else. Neither the order of the catalog nor the way that the search took enters into what a
built schema is.
-/

namespace ConfigScript

/-- A type text that names a type, be it through the shape of a configure lambda. -/
def LambdaStyle.Reads (style : LambdaStyle) (text : String) : Prop :=
  ∃ type, TypeRef.parse ((style.configuredType? text).getD text) = .ok type

/-- A declared type whose members and supertypes are spelled with texts that can be read. -/
structure TypeDecl.Readable (style : LambdaStyle) (decl : TypeDecl) : Prop where
  mentions : ∀ text, decl.Mentions text → style.Reads text
  supertypes : ∀ text ∈ decl.supertypes, ∃ name, QualifiedName.parse text = .ok name

/-- A catalog whose packages and default imports are spelled with texts that can be read. -/
structure Catalog.Readable (style : LambdaStyle) (catalog : Catalog) : Prop where
  functions : ∀ function ∈ catalog.functions,
    ∀ text ∈ function.parameters.map (·.type) ++ function.returns.toList, style.Reads text
  objects : ∀ object ∈ catalog.objects, style.Reads object.type
  imports : ∀ text ∈ catalog.defaultImports, ∃ name, QualifiedName.parse text = .ok name

namespace Declarations

variable {catalog : Catalog} {style : LambdaStyle} {declarations : Declarations}
  {receiver name : QualifiedName} {decl : TypeDecl}

theorem exists_className?_iff {text : String} :
    (∃ kept, className? style text = .ok kept) ↔ style.Reads text := by
  simp only [className?, Fallible.exists_bind_eq_ok, Fallible.exists_pure_eq_ok, and_true,
    buildName_eq_ok, LambdaStyle.Reads]

/-- The packages of a catalog tell which types they mention exactly when they can be read. -/
theorem exists_mentionedByPackages_iff :
    (∃ mentioned, declarations.mentionedByPackages catalog = .ok mentioned) ↔
      catalog.Readable declarations.style := by
  simp only [mentionedByPackages, Fallible.exists_bind_eq_ok, Fallible.exists_flatMapM_eq_ok,
    Fallible.exists_filterMapM_eq_ok, Fallible.exists_pure_eq_ok, exists_className?_iff,
    buildName_eq_ok, exists_and_right, and_true]
  constructor
  · rintro ⟨hfunctions, hobjects, himports⟩
    exact ⟨hfunctions, hobjects, himports⟩
  · intro h
    exact ⟨h.functions, h.objects, h.imports⟩

/-- A declared type tells which types it refers to exactly when it can be read. -/
theorem exists_references_iff :
    (∃ references, declarations.references name decl = .ok references) ↔
      decl.Readable declarations.style := by
  simp only [references, Fallible.exists_bind_eq_ok, Fallible.exists_filterMapM_eq_ok,
    ← apply_ite (pure (f := Except BuildError)), Fallible.exists_pure_eq_ok, exists_className?_iff,
    buildName_eq_ok, exists_and_right, and_true]
  constructor
  · rintro ⟨hmentions, hsupertypes⟩
    refine ⟨fun text htext => ?_, hsupertypes⟩
    obtain ⟨member, hmember⟩ := TypeDecl.mentions_iff.mp htext
    exact hmentions (member, text) hmember
  · intro h
    refine ⟨fun (member, text) hmember => ?_, h.supertypes⟩
    exact h.mentions text (TypeDecl.mentions_iff.mpr ⟨member, hmember⟩)

/-- A search ends without fault when the links of all that its queue leads to can be read. -/
theorem exists_visitTypes {budget : Nat} {seen : List QualifiedName} {queue : List Visit}
    (h : ∀ start ∈ queue.map Visit.name, ∀ name, Leads declarations.referencesOf start name →
      ∃ next, declarations.links name = .ok next) :
    ∃ visits, declarations.visitTypes budget seen queue = .ok visits := by
  induction budget generalizing seen queue with
  | zero => exact ⟨[], by simp [visitTypes]⟩
  | succ budget ih =>
    cases queue with
    | nil => exact ⟨[], by simp [visitTypes]⟩
    | cons first queue =>
      rw [List.map_cons, List.forall_mem_cons] at h
      obtain ⟨hfirst, hqueue⟩ := h
      by_cases hseen : first.name ∈ seen
      · rw [visitTypes, if_pos hseen]
        exact ih hqueue
      · obtain ⟨next, hnext⟩ := hfirst first.name .refl
        rw [visitTypes_new hseen, hnext, Fallible.exists_bind_eq_ok]
        refine ⟨next, rfl, ?_⟩
        simp only [Fallible.exists_bind_eq_ok, Fallible.exists_pure_eq_ok, and_true]
        apply ih
        intro start hstart name hleads
        simp only [List.map_append, List.map_map, List.mem_append] at hstart
        cases hstart with
        | inl hold => exact hqueue start hold name hleads
        | inr hfound =>
          -- What the first name refers to is led to from it.
          have hreference : start ∈ declarations.referencesOf first.name := by
            rw [referencesOf_eq hnext]
            simpa [Function.comp_def] using hfound
          exact hfirst name (.head hreference hleads)

theorem exists_links_iff (hdecl : declarations.types.find? name = some decl) :
    (∃ next, declarations.links name = .ok next) ↔ decl.Readable declarations.style := by
  simp only [links, hdecl, exists_references_iff]

/-- The search finds a set of types exactly when they are the needed ones, and all of them are
declared and can be read. -/
theorem reachable_eq_ok_iff (hcatalog : ofCatalog catalog style = .ok declarations)
    {needed : NameSet} :
    declarations.reachable catalog receiver = .ok needed ↔
      catalog.Readable style ∧ (∀ name, name ∈ needed ↔ catalog.Needs style receiver name) ∧
        ∀ name ∈ needed, ∃ decl, catalog.Declares name decl ∧ decl.Readable style := by
  obtain rfl := style_ofCatalog hcatalog
  constructor
  · intro h
    obtain ⟨hneeds, hdeclared⟩ := reachable_eq_ok hcatalog h
    obtain ⟨mentioned, visits, hmentioned, hvisits, rfl, -⟩ := visits_of_reachable h
    refine ⟨exists_mentionedByPackages_iff.mp ⟨mentioned, hmentioned⟩, hneeds, ?_⟩
    intro name hname
    obtain ⟨decl, hdecl⟩ := hdeclared name hname
    obtain ⟨found, hfound, rfl⟩ := List.mem_map.mp (NameSet.mem_ofList.mp hname)
    have hread := (exists_links_iff hdecl).mp ((visitTypes_eq_ok hvisits).2 found hfound)
    exact ⟨decl, (find?_types hcatalog).mp hdecl, hread⟩
  · rintro ⟨hreadable, hneeds, hdeclared⟩
    obtain ⟨mentioned, hmentioned⟩ := exists_mentionedByPackages_iff.mpr hreadable
    have hdecl : ∀ name, catalog.Needs declarations.style receiver name →
        ∃ decl, declarations.types.find? name = some decl ∧ decl.Readable declarations.style := by
      intro name hname
      obtain ⟨decl, hdecl, hread⟩ := hdeclared name ((hneeds name).mpr hname)
      exact ⟨decl, (find?_types hcatalog).mpr hdecl, hread⟩
    obtain ⟨visits, hvisits⟩ : ∃ visits, declarations.visitTypes
        ((Visit.mk receiver [] :: mentioned).length + declarations.referenceCount) []
        (⟨receiver, []⟩ :: mentioned) = .ok visits := by
      apply exists_visitTypes
      intro start hstart name hleads
      obtain ⟨decl, hdecl, hread⟩ :=
        hdecl name (needs_of_leads hcatalog hmentioned hstart hleads)
      exact (exists_links_iff hdecl).mpr hread
    have hvisited : ∀ name, name ∈ visits.map Visit.name ↔ name ∈ needed := fun name =>
      ⟨fun hname => (hneeds name).mpr (needs_of_visited hcatalog hmentioned hvisits hname),
        fun hname => visited_of_needs hcatalog hmentioned hvisits ((hneeds name).mp hname)⟩
    have hcontains : ∀ found ∈ visits, declarations.types.contains found.name = true := by
      intro found hfound
      have hname := (hvisited found.name).mp (List.mem_map_of_mem hfound)
      obtain ⟨decl, hdecl, -⟩ := hdecl found.name ((hneeds found.name).mp hname)
      exact NameMap.contains_iff.mpr ⟨decl, hdecl⟩
    have hset : NameSet.ofList (visits.map Visit.name) = needed :=
      NameSet.eq_of_mem_iff fun name => NameSet.mem_ofList.trans (hvisited name)
    have hnone : (visits.filter fun found => !declarations.types.contains found.name) = [] := by
      simpa [List.filter_eq_nil_iff] using hcontains
    unfold reachable
    rw [hmentioned]
    change (declarations.visitTypes _ _ _ >>= _) = _
    rw [hvisits]
    simp only [bind, Except.bind, List.partition_eq_filter_filter, Function.comp_def]
    rw [hnone, List.filter_eq_self.mpr hcontains, hset]
    rfl

/-- The class of a name, if a type is declared under it. -/
def namedClass (declarations : Declarations) (name : QualifiedName) :
    Except BuildError (Option (QualifiedName × DataClass)) :=
  match declarations.types.find? name with
  | none => return none
  | some decl => return some (name, ← declarations.dataClass name decl)

theorem namedClass_eq_ok {other : QualifiedName} {dataClass : DataClass} :
    declarations.namedClass name = .ok (some (other, dataClass)) ↔
      name = other ∧ ∃ decl, declarations.types.find? name = some decl ∧
        declarations.dataClass name decl = .ok dataClass := by
  unfold namedClass
  cases declarations.types.find? name with
  | none => simp [Fallible.pure_eq_ok]
  | some decl =>
    simp only [Fallible.bind_eq_ok, Fallible.pure_eq_ok, Option.some.injEq, Prod.mk.injEq]
    grind

theorem exists_namedClass_iff (hdecl : declarations.types.find? name = some decl) :
    (∃ kept, declarations.namedClass name = .ok kept) ↔
      ∃ dataClass, declarations.dataClass name decl = .ok dataClass := by
  simp only [namedClass, hdecl, Fallible.exists_bind_eq_ok, Fallible.exists_pure_eq_ok, and_true]

/-- The classes of a set of names are those of its declared names. -/
theorem find?_namedClasses {needed : NameSet} {classes : List (QualifiedName × DataClass)}
    (h : needed.names.filterMapM declarations.namedClass = .ok classes) {dataClass : DataClass} :
    (NameMap.ofList classes).find? name = some dataClass ↔
      name ∈ needed ∧ ∃ decl, declarations.types.find? name = some decl ∧
        declarations.dataClass name decl = .ok dataClass := by
  have hmem : ∀ name dataClass, (name, dataClass) ∈ classes ↔
      name ∈ needed ∧ ∃ decl, declarations.types.find? name = some decl ∧
        declarations.dataClass name decl = .ok dataClass := by
    intro name dataClass
    rw [(Fallible.filterMapM_eq_ok h).2]
    simp only [namedClass_eq_ok]
    constructor
    · rintro ⟨found, hfound, rfl, hdecl⟩
      exact ⟨hfound, hdecl⟩
    · rintro ⟨hname, hdecl⟩
      exact ⟨name, hname, rfl, hdecl⟩
  rw [NameMap.find?_ofList_iff, hmem]
  intro name first second hfirst hsecond
  obtain ⟨-, decl, hdecl, hbuilt⟩ := (hmem name first).mp hfirst
  obtain ⟨-, other, hother, hagain⟩ := (hmem name second).mp hsecond
  obtain rfl : decl = other := Option.some.inj (hdecl.symm.trans hother)
  exact Except.ok.inj (hbuilt.symm.trans hagain)

end Declarations

namespace Schema

/-- A schema that holds what a catalog declares for its receiver, and nothing else. -/
structure Presents (schema : Schema) (catalog : Catalog) (declarations : Declarations) : Prop where
  style : schema.lambdaStyle = declarations.style
  readable : catalog.Readable declarations.style
  needed : ∀ name, schema.classes.contains name = true →
    catalog.Needs declarations.style schema.receiver name
  classes : ∀ name, catalog.Needs declarations.style schema.receiver name →
    ∃ decl dataClass, catalog.Declares name decl ∧ decl.Readable declarations.style ∧
      declarations.dataClass name decl = .ok dataClass ∧
      schema.classes.find? name = some dataClass
  functions : ∃ functions, catalog.functions.mapM declarations.externalFunction = .ok functions ∧
    schema.functions = .ofList (functions.map fun function => (function.name, function))
  objects : ∃ objects, catalog.objects.mapM Declarations.externalObject = .ok objects ∧
    schema.objects = .ofList objects
  imports : ∀ name, name ∈ schema.defaultImports ↔ name.text ∈ catalog.defaultImports
  declared : ∀ name ∈ schema.defaultImports, schema.declares name = true

variable {catalog : Catalog} {style : LambdaStyle} {receiver : String} {schema : Schema}

/-- The default imports pass when each of them names something that the schema declares. -/
theorem checkedImports_eq_ok_iff {imports : List String} {names : NameSet} :
    schema.checkedImports imports = .ok names ↔
      (∀ text ∈ imports, ∃ name, QualifiedName.parse text = .ok name) ∧
        (∀ name, name ∈ names ↔ name.text ∈ imports) ∧
        ∀ name ∈ names, schema.declares name = true := by
  unfold checkedImports
  generalize hstep : (fun text => do
    let name ← buildName (QualifiedName.parse text)
    if !schema.declares name then throw (BuildError.unknownDefaultImport text)
    return name) = step
  have hpassed : ∀ text name, step text = .ok name ↔
      name.text = text ∧ schema.declares name = true := by
    intro text name
    simp only [← hstep, Fallible.bind_eq_ok, buildName_eq_ok, QualifiedName.parse_eq_ok]
    constructor
    · rintro ⟨read, hread, h⟩
      split at h
      · cases h
      · rename_i hdeclared
        obtain rfl := Fallible.pure_eq_ok.mp h
        exact ⟨hread, by simpa using hdeclared⟩
    · rintro ⟨htext, hdeclared⟩
      exact ⟨name, htext, by simp [hdeclared, pure, Except.pure]⟩
  have hmem : ∀ checked, imports.mapM step = .ok checked →
      ∀ name, name ∈ checked ↔ name.text ∈ imports := by
    intro checked hchecked name
    constructor
    · intro hname
      obtain ⟨text, htext, hread⟩ := Fallible.mem_of_mapM_eq_ok hchecked hname
      rwa [((hpassed text name).mp hread).1]
    · intro htext
      obtain ⟨read, hread, htext⟩ := Fallible.exists_of_mapM_eq_ok hchecked htext
      rwa [← QualifiedName.eq_of_text_eq ((hpassed _ _).mp htext).1]
  constructor
  · intro h
    obtain ⟨checked, hchecked, h⟩ := Fallible.bind_eq_ok.mp h
    obtain rfl := Fallible.pure_eq_ok.mp h
    refine ⟨fun text htext => ?_, fun name => ?_, fun name hname => ?_⟩
    · obtain ⟨read, -, hread⟩ := Fallible.exists_of_mapM_eq_ok hchecked htext
      exact ⟨read, QualifiedName.parse_eq_ok.mpr ((hpassed text read).mp hread).1⟩
    · rw [NameSet.mem_ofList, hmem checked hchecked]
    · obtain ⟨text, -, hread⟩ :=
        Fallible.mem_of_mapM_eq_ok hchecked (NameSet.mem_ofList.mp hname)
      exact ((hpassed text name).mp hread).2
  · rintro ⟨hread, himports, hdeclared⟩
    obtain ⟨checked, hchecked⟩ : ∃ checked, imports.mapM step = .ok checked := by
      apply Fallible.exists_mapM_eq_ok.mpr
      intro text htext
      obtain ⟨name, hname⟩ := hread text htext
      obtain rfl := QualifiedName.parse_eq_ok.mp hname
      exact ⟨name, (hpassed _ _).mpr ⟨rfl, hdeclared name ((himports name).mpr htext)⟩⟩
    have hset : NameSet.ofList checked = names := by
      apply NameSet.eq_of_mem_iff
      intro name
      rw [NameSet.mem_ofList, hmem checked hchecked, himports]
    rw [hchecked, ← hset]
    rfl

/-- A schema that presents a catalog has exactly the classes of the needed types. -/
theorem Presents.find?_classes {declarations : Declarations}
    (hcatalog : Declarations.ofCatalog catalog style = .ok declarations)
    (h : schema.Presents catalog declarations) {name : QualifiedName} {dataClass : DataClass} :
    schema.classes.find? name = some dataClass ↔
      catalog.Needs declarations.style schema.receiver name ∧
        ∃ decl, declarations.types.find? name = some decl ∧
          declarations.dataClass name decl = .ok dataClass := by
  constructor
  · intro hclass
    have hname := h.needed name (NameMap.contains_iff.mpr ⟨dataClass, hclass⟩)
    obtain ⟨decl, found, hdecl, -, hbuilt, hfound⟩ := h.classes name hname
    obtain rfl : dataClass = found := Option.some.inj (hclass.symm.trans hfound)
    exact ⟨hname, decl, (Declarations.find?_types hcatalog).mpr hdecl, hbuilt⟩
  · rintro ⟨hname, decl, hfind, hbuilt⟩
    obtain ⟨own, found, hown, -, hfound, hclass⟩ := h.classes name hname
    have hown := (Declarations.find?_types hcatalog).mpr hown
    obtain rfl : decl = own := Option.some.inj (hfind.symm.trans hown)
    obtain rfl : dataClass = found := Except.ok.inj (hbuilt.symm.trans hfound)
    exact hclass

/-- Every default import of a catalog names something that the schema declares. -/
theorem Presents.exists_declared {declarations : Declarations}
    (h : schema.Presents catalog declarations) {text : String}
    (htext : text ∈ catalog.defaultImports) :
    ∃ name, QualifiedName.parse text = .ok name ∧ schema.declares name = true := by
  obtain ⟨name, hname⟩ := h.readable.imports text htext
  obtain rfl := QualifiedName.parse_eq_ok.mp hname
  exact ⟨name, hname, h.declared name ((h.imports name).mpr htext)⟩

theorem presents_of_build (h : build catalog style receiver = .ok schema) :
    schema.receiver.text = receiver ∧
      ∃ declarations, Declarations.ofCatalog catalog style = .ok declarations ∧
        schema.Presents catalog declarations := by
  obtain ⟨root, hroot, h⟩ := Fallible.bind_eq_ok.mp h
  obtain ⟨declarations, hcatalog, h⟩ := Fallible.bind_eq_ok.mp h
  obtain ⟨needed, hneeded, h⟩ := Fallible.bind_eq_ok.mp h
  obtain ⟨classes, hclasses, h⟩ := Fallible.bind_eq_ok.mp h
  obtain ⟨functions, hfunctions, h⟩ := Fallible.bind_eq_ok.mp h
  obtain ⟨objects, hobjects, h⟩ := Fallible.bind_eq_ok.mp h
  obtain ⟨imports, himports, h⟩ := Fallible.bind_eq_ok.mp h
  obtain rfl := Fallible.pure_eq_ok.mp h
  replace hclasses : needed.names.filterMapM declarations.namedClass = .ok classes := hclasses
  obtain ⟨hreadable, hneeds, hdeclared⟩ := (Declarations.reachable_eq_ok_iff hcatalog).mp hneeded
  obtain ⟨-, hmem, hdeclares⟩ := checkedImports_eq_ok_iff.mp himports
  obtain rfl := Declarations.style_ofCatalog hcatalog
  refine ⟨QualifiedName.parse_eq_ok.mp (buildName_eq_ok.mp hroot), declarations, hcatalog, ?_⟩
  constructor
  case style => rfl
  case readable => exact hreadable
  case needed =>
    intro name hname
    obtain ⟨dataClass, hclass⟩ := NameMap.contains_iff.mp hname
    exact (hneeds name).mp ((Declarations.find?_namedClasses hclasses).mp hclass).1
  case classes =>
    intro name hname
    replace hname := (hneeds name).mpr hname
    obtain ⟨decl, hdecl, hread⟩ := hdeclared name hname
    have hfind := (Declarations.find?_types hcatalog).mpr hdecl
    have hkept := Fallible.exists_filterMapM_eq_ok.mp ⟨classes, hclasses⟩ name hname
    obtain ⟨dataClass, hbuilt⟩ := (Declarations.exists_namedClass_iff hfind).mp hkept
    exact ⟨decl, dataClass, hdecl, hread, hbuilt,
      (Declarations.find?_namedClasses hclasses).mpr ⟨hname, decl, hfind, hbuilt⟩⟩
  case functions => exact ⟨functions, hfunctions, rfl⟩
  case objects => exact ⟨objects, hobjects, rfl⟩
  case imports => exact hmem
  case declared => exact hdeclares

theorem build_of_presents {declarations : Declarations}
    (hcatalog : Declarations.ofCatalog catalog style = .ok declarations)
    (h : schema.Presents catalog declarations) :
    build catalog style schema.receiver.text = .ok schema := by
  obtain rfl := Declarations.style_ofCatalog hcatalog
  have hmem : ∀ name, name ∈ NameSet.ofList schema.classes.names ↔
      catalog.Needs declarations.style schema.receiver name := by
    intro name
    rw [NameSet.mem_ofList, NameMap.mem_names_iff, ← NameMap.contains_iff]
    constructor
    · exact h.needed name
    · intro hname
      obtain ⟨decl, dataClass, -, -, -, hclass⟩ := h.classes name hname
      exact NameMap.contains_iff.mpr ⟨dataClass, hclass⟩
  have hneeded : declarations.reachable catalog schema.receiver =
      .ok (NameSet.ofList schema.classes.names) := by
    apply (Declarations.reachable_eq_ok_iff hcatalog).mpr
    refine ⟨h.readable, hmem, fun name hname => ?_⟩
    obtain ⟨decl, dataClass, hdecl, hread, -⟩ := h.classes name ((hmem name).mp hname)
    exact ⟨decl, hdecl, hread⟩
  obtain ⟨classes, hclasses⟩ : ∃ classes,
      (NameSet.ofList schema.classes.names).names.filterMapM declarations.namedClass =
        .ok classes := by
    apply Fallible.exists_filterMapM_eq_ok.mpr
    intro name hname
    obtain ⟨decl, dataClass, hdecl, -, hbuilt, -⟩ := h.classes name ((hmem name).mp hname)
    have hfind := (Declarations.find?_types hcatalog).mpr hdecl
    exact (Declarations.exists_namedClass_iff hfind).mpr ⟨dataClass, hbuilt⟩
  have hmap : NameMap.ofList classes = schema.classes := by
    apply NameMap.eq_of_find?_eq
    intro name
    ext dataClass
    rw [Declarations.find?_namedClasses hclasses, hmem, h.find?_classes hcatalog]
  obtain ⟨functions, hfunctions, hschemaFunctions⟩ := h.functions
  obtain ⟨objects, hobjects, hschemaObjects⟩ := h.objects
  have himports : Schema.checkedImports { schema with defaultImports := .empty }
      catalog.defaultImports = .ok schema.defaultImports :=
    checkedImports_eq_ok_iff.mpr ⟨h.readable.imports, h.imports, h.declared⟩
  have hstyle := h.style
  clear h hmem
  obtain ⟨root, classMap, functionMap, objectMap, imports, lambdaStyle⟩ := schema
  subst hmap hschemaFunctions hschemaObjects hstyle
  unfold build
  simp only [Fallible.bind_eq_ok]
  exact ⟨root, buildName_eq_ok.mpr (QualifiedName.parse_eq_ok.mpr rfl), declarations, hcatalog, _,
    hneeded, classes, hclasses, functions, hfunctions, objects, hobjects, imports, himports, rfl⟩

/-- Building succeeds with a schema exactly when the schema presents the catalog. -/
theorem build_eq_ok_iff :
    build catalog style receiver = .ok schema ↔
      schema.receiver.text = receiver ∧
        ∃ declarations, Declarations.ofCatalog catalog style = .ok declarations ∧
          schema.Presents catalog declarations := by
  constructor
  · exact presents_of_build
  · rintro ⟨rfl, declarations, hcatalog, h⟩
    exact build_of_presents hcatalog h

end Schema

end ConfigScript
