import ConfigScript.Proofs.Schema.BreadthFirst
import ConfigScript.Proofs.Schema.Upcast

/-!
# Nearest declarations

The lineage of a type lists the types above it by their distances, whatever cycles and diamonds its
supertypes make. A class has each property and each function of its lineage as the nearest type of
the lineage declares it.
-/

namespace ConfigScript

/-- The types of the catalog that a type of the catalog declares as its supertypes, in their
order. -/
def Catalog.supertypesOf (catalog : Catalog) (name : QualifiedName) : List QualifiedName :=
  match catalog.types.find? (·.name == name.text) with
  | some decl => (decl.supertypes.filterMap fun text => (QualifiedName.parse text).toOption).filter
      fun above => catalog.types.any (·.name == above.text)
  | none => []

/-- The lineage of a type in a catalog: the type itself and then, each once, the types that
supertypes lead to from it. None stands in front of one that is nearer, and all stand in the order
in which the supertypes of the types of the lineage, taken in turn, mention them first. -/
structure Catalog.IsLineage (catalog : Catalog) (name : QualifiedName)
    (lineage : List (QualifiedName × TypeDecl)) : Prop where
  own : ∃ decl above, lineage = (name, decl) :: above
  declared : ∀ entry ∈ lineage, catalog.Declares entry.1 entry.2
  reached : ∀ above, above ∈ lineage.map Prod.fst ↔ Leads catalog.supertypesOf name above
  distinct : (lineage.map Prod.fst).Nodup
  nearest : (lineage.map Prod.fst).Pairwise (NoFarther catalog.supertypesOf name)
  discovered : Firsts id (name :: (lineage.map Prod.fst).flatMap catalog.supertypesOf)
    (lineage.map Prod.fst)

/-- The members of a class against those that the types of its lineage declare. Each property is
the one that the first type with a property of its name declares, and the functions are made, for
the class itself, of the first declaration of each signature. -/
structure DataClass.Flattens (declarations : Declarations) (name : QualifiedName)
    (dataClass : DataClass) : Prop where
  distinct : (dataClass.properties.map Property.name).Nodup
  named : ∀ text, text ∈ dataClass.properties.map Property.name ↔
    ∃ entry ∈ declarations.lineage name, text ∈ entry.2.properties.map PropertyDecl.name
  defined : ∀ property ∈ dataClass.properties, ∃ nearer entry farther own,
    declarations.lineage name = nearer ++ entry :: farther ∧
      (∀ other ∈ nearer, property.name ∉ other.2.properties.map PropertyDecl.name) ∧
      entry.2.properties.find? (·.name == property.name) = some own ∧
      own.toProperty = .ok property
  functions : ∃ kept,
    Firsts FunctionDecl.signature ((declarations.lineage name).flatMap (·.2.functions)) kept ∧
      List.Forall₂ (fun own function => declarations.memberFunction name own = .ok function ∧
        function.receiver = name ∧ function.name = own.name) kept dataClass.functions

/-- Elements that contribute nothing can be left out. -/
theorem flatMap_filter_of_nil {α β : Type} {own : α → Bool} {parts : α → List β}
    (hnil : ∀ value, own value = false → parts value = []) (values : List α) :
    (values.filter own).flatMap parts = values.flatMap parts := by
  induction values with
  | nil => rfl
  | cons first rest ih =>
    cases hfirst : own first with
    | true => rw [List.filter_cons_of_pos hfirst, List.flatMap_cons, List.flatMap_cons, ih]
    | false =>
      rw [List.filter_cons_of_neg (by simp [hfirst]), List.flatMap_cons, hnil first hfirst, ih,
        List.nil_append]

namespace Declarations

variable {catalog : Catalog} {style : LambdaStyle} {declarations : Declarations}
  {name above : QualifiedName} {decl : TypeDecl} {dataClass : DataClass}

section Catalog

variable (h : ofCatalog catalog style = .ok declarations)

include h

theorem contains_types (name : QualifiedName) :
    declarations.types.contains name = catalog.types.any (·.name == name.text) := by
  rw [Bool.eq_iff_iff, NameMap.contains_iff, List.any_eq_true]
  simp only [find?_types h, Catalog.Declares, beq_iff_eq]

theorem find?_types_eq (name : QualifiedName) :
    declarations.types.find? name = catalog.types.find? (·.name == name.text) := by
  cases hfind : catalog.types.find? (·.name == name.text) with
  | none =>
    by_contra hsome
    obtain ⟨decl, hdecl⟩ := Option.ne_none_iff_exists'.mp hsome
    obtain ⟨hmem, htext⟩ := (find?_types h).mp hdecl
    exact List.find?_eq_none.mp hfind decl hmem (beq_iff_eq.mpr htext)
  | some decl =>
    exact (find?_types h).mpr
      ⟨List.mem_of_find?_eq_some hfind, by simpa using List.find?_some hfind⟩

/-- The supertypes that count are those among the declared types. -/
theorem supertypesOf_catalog (name : QualifiedName) :
    catalog.supertypesOf name =
      (declarations.supertypesOf name).filter declarations.types.contains := by
  unfold Catalog.supertypesOf supertypesOf
  rw [find?_types_eq h]
  cases catalog.types.find? (·.name == name.text) with
  | none => rfl
  | some decl =>
    dsimp only
    congr 1
    funext above
    exact (contains_types h above).symm

/-- Types that are not declared are no way from one declared type to another. -/
theorem leads_catalog_iff (hname : declarations.types.contains name = true) :
    Leads catalog.supertypesOf name above ↔
      Leads declarations.supertypesOf name above ∧ declarations.types.contains above = true := by
  constructor
  · intro hleads
    induction hleads with
    | refl => exact ⟨.refl, hname⟩
    | tail _ hstep ih =>
      rw [supertypesOf_catalog h] at hstep
      obtain ⟨hstep, hdeclared⟩ := List.mem_filter.mp hstep
      exact ⟨ih.1.tail hstep, hdeclared⟩
  · rintro ⟨hleads, hdeclared⟩
    induction hleads with
    | refl => exact .refl
    | tail _ hstep ih =>
      obtain ⟨decl, text, hdecl, -⟩ := exists_of_mem_supertypesOf hstep
      refine (ih (NameMap.contains_iff.mpr ⟨decl, hdecl⟩)).tail ?_
      rw [supertypesOf_catalog h]
      exact List.mem_filter.mpr ⟨hstep, hdeclared⟩

end Catalog

theorem names_lineage : (declarations.lineage name).map Prod.fst =
    (reachFrom declarations.supertypesOf declarations.supertypeCount name).filter
      declarations.types.contains := by
  rw [lineage, List.map_filterMap, ← List.filterMap_eq_filter]
  congr 1
  funext above
  cases hfind : declarations.types.find? above with
  | none => simp [NameMap.contains, hfind, Option.guard]
  | some decl => simp [NameMap.contains, hfind, Option.guard]

/-- The names of a lineage stand as a search over the declared types finds them. -/
theorem firsts_lineage (h : ofCatalog catalog style = .ok declarations)
    (hname : declarations.types.contains name = true) :
    Firsts id (name :: ((declarations.lineage name).map Prod.fst).flatMap catalog.supertypesOf)
      ((declarations.lineage name).map Prod.fst) := by
  have hfound : Firsts id
      (name :: (reachFrom declarations.supertypesOf declarations.supertypeCount name).flatMap
        declarations.supertypesOf)
      (reachFrom declarations.supertypesOf declarations.supertypeCount name) :=
    firsts_reachFrom (fun _ => supertypesOf_undeclared) length_supertypesOf_le
  have hrespects : ∀ first second, id first = id second →
      declarations.types.contains first = declarations.types.contains second :=
    fun _ _ heq => congrArg _ heq
  have hdeclared := hfound.filter hrespects
  rw [List.filter_cons_of_pos hname, List.filter_flatMap] at hdeclared
  rw [names_lineage, flatMap_filter_of_nil]
  · rw [funext (supertypesOf_catalog h)]
    exact hdeclared
  · intro above hundeclared
    have hnone : above ∉ declarations.types.names := fun hmem => by
      rw [NameMap.contains_iff.mpr (NameMap.mem_names_iff.mp hmem)] at hundeclared
      cases hundeclared
    rw [supertypesOf_catalog h, supertypesOf_undeclared hnone, List.filter_nil]

theorem isLineage (h : ofCatalog catalog style = .ok declarations)
    (hdecl : declarations.types.find? name = some decl) :
    catalog.IsLineage name (declarations.lineage name) := by
  have hname := NameMap.contains_iff.mpr ⟨decl, hdecl⟩
  have hfirsts := firsts_lineage h hname
  refine ⟨?_, fun ⟨above, aboveDecl⟩ hentry => ?_, fun above => ?_, ?_, ?_, hfirsts⟩
  · rw [lineage, reachFrom, visit, if_neg List.not_mem_nil, List.filterMap_cons, hdecl]
    exact ⟨decl, _, rfl⟩
  · exact (find?_types h).mp (mem_lineage_iff.mp hentry).2
  · rw [leads_catalog_iff h hname, NameMap.contains_iff, List.mem_map]
    constructor
    · rintro ⟨⟨_, aboveDecl⟩, hentry, rfl⟩
      obtain ⟨hleads, hfind⟩ := mem_lineage_iff.mp hentry
      exact ⟨hleads, aboveDecl, hfind⟩
    · rintro ⟨hleads, aboveDecl, hfind⟩
      exact ⟨(above, aboveDecl), mem_lineage_iff.mpr ⟨hleads, hfind⟩, rfl⟩
  · simpa using hfirsts.nodup_keys
  · exact pairwise_noFarther hfirsts

namespace Materialised

variable (h : declarations.Materialised name decl dataClass)

include h

theorem mem_properties_iff (text : String) :
    text ∈ dataClass.properties.map Property.name ↔
      ∃ entry ∈ declarations.lineage name, text ∈ entry.2.properties.map PropertyDecl.name := by
  constructor
  · intro hmem
    obtain ⟨property, hproperty, rfl⟩ := List.mem_map.mp hmem
    obtain ⟨entry, hentry, own, hown, hbuilt⟩ := h.exists_own_property hproperty
    exact ⟨entry, hentry, List.mem_map.mpr ⟨own, hown, (toProperty_eq_ok hbuilt).1.symm⟩⟩
  · rintro ⟨entry, hentry, hmem⟩
    obtain ⟨own, hown, rfl⟩ := List.mem_map.mp hmem
    obtain ⟨property, hproperty, hname⟩ := h.exists_property hentry hown
    exact List.mem_map.mpr ⟨property, hproperty, hname⟩

/-- A property is built from what the first type that knows its name declares. -/
theorem exists_nearest {property : Property} (hproperty : property ∈ dataClass.properties) :
    ∃ nearer entry farther own, declarations.lineage name = nearer ++ entry :: farther ∧
      (∀ other ∈ nearer, property.name ∉ other.2.properties.map PropertyDecl.name) ∧
      entry.2.properties.find? (·.name == property.name) = some own ∧
      own.toProperty = .ok property := by
  have hfind : dataClass.property? property.name = some property := by
    have hsome : (dataClass.property? property.name).isSome = true :=
      List.find?_isSome.mpr ⟨property, hproperty, by simp⟩
    obtain ⟨found, hfound⟩ := Option.isSome_iff_exists.mp hsome
    have hsame : found.name = property.name := by simpa using List.find?_some hfound
    rw [hfound]
    rw [List.inj_on_of_nodup_map h.nodup_properties (List.mem_of_find?_eq_some hfound) hproperty
      hsame]
  have hfound := h.property?_eq property.name
  rw [hfind, property?] at hfound
  split at hfound
  · cases hfound
  · rename_i own hown
    obtain ⟨built, hbuilt, heq⟩ := Fallible.map_eq_ok.mp hfound
    obtain rfl := Option.some.inj heq
    obtain ⟨nearer, entry, farther, hsplit, hentry, hnearer⟩ := List.findSome?_eq_some_iff.mp hown
    refine ⟨nearer, entry, farther, own, hsplit, fun other hother hmem => ?_, hentry, hbuilt⟩
    obtain ⟨decl, hdecl, hname⟩ := List.mem_map.mp hmem
    exact List.find?_eq_none.mp (hnearer other hother) decl hdecl (beq_iff_eq.mpr hname)

theorem flattens : dataClass.Flattens declarations name where
  distinct := h.nodup_properties
  named := h.mem_properties_iff
  defined := fun _ => h.exists_nearest
  functions := by
    refine ⟨_, firsts_eraseDupsBy FunctionDecl.signature _,
      (Fallible.mapM_eq_ok.mp h.functions).imp fun own function hbuilt => ?_⟩
    obtain ⟨hreceiver, hname, -⟩ := memberFunction_cases hbuilt
    exact ⟨hbuilt, hreceiver, hname⟩

end Materialised

end Declarations

namespace Schema

/-- Every class of a schema that was built stands on the lineage of its type, by distance and then
by discovery, and has the members of the lineage as they are declared nearest. -/
theorem flattens_of_build {catalog : Catalog} {style : LambdaStyle} {receiver : String}
    {schema : Schema} (h : build catalog style receiver = .ok schema) {name : QualifiedName}
    {dataClass : DataClass} (hclass : schema.classes.find? name = some dataClass) :
    ∃ declarations, Declarations.ofCatalog catalog style = .ok declarations ∧
      catalog.IsLineage name (declarations.lineage name) ∧ dataClass.Flattens declarations name := by
  obtain ⟨declarations, hcatalog, -, -, hclasses, -⟩ := build_eq_ok h
  obtain ⟨decl, hdecl, hbuilt⟩ := hclasses name dataClass hclass
  exact ⟨declarations, hcatalog,
    Declarations.isLineage hcatalog ((Declarations.find?_types hcatalog).mpr hdecl),
    (Declarations.materialised hbuilt).flattens⟩

/-- The lowest type of the diamond keeps its own property and its own function, in front of what
both arms and the type above them declare. -/
theorem flattens_of_build_diamond :
    ∃ schema bottom declarations, build diamondCatalog .receiverFunction "Bottom" = .ok schema ∧
      schema.classes.find? ⟨"Bottom", by decide⟩ = some bottom ∧
      bottom.properties.map Property.name = ["id", "second"] ∧
      bottom.functions.map MemberFunction.name = ["options", "tag"] ∧
      (declarations.lineage ⟨"Bottom", by decide⟩).map (·.1.text) =
        ["Bottom", "First", "Second", "Top"] ∧
      diamondCatalog.IsLineage ⟨"Bottom", by decide⟩
        (declarations.lineage ⟨"Bottom", by decide⟩) ∧
      bottom.Flattens declarations ⟨"Bottom", by decide⟩ := by
  have hok : (build diamondCatalog .receiverFunction "Bottom").toOption.any (fun schema =>
      (schema.classes.find? ⟨"Bottom", by decide⟩).any fun bottom =>
        bottom.properties.map Property.name == ["id", "second"] &&
          bottom.functions.map MemberFunction.name == ["options", "tag"]) = true := by
    decide +kernel
  have hlineage : (Declarations.ofCatalog diamondCatalog .receiverFunction).toOption.any
      (fun declarations => (declarations.lineage ⟨"Bottom", by decide⟩).map (·.1.text) ==
        ["Bottom", "First", "Second", "Top"]) = true := by
    decide +kernel
  obtain ⟨schema, hschema, hok⟩ := (Option.any_eq_true _ _).mp hok
  obtain ⟨bottom, hbottom, hmembers⟩ := (Option.any_eq_true _ _).mp hok
  obtain ⟨hproperties, hfunctions⟩ := Bool.and_eq_true_iff.mp hmembers
  have hbuild := Fallible.toOption_eq_some.mp hschema
  obtain ⟨declarations, hcatalog, hisLineage, hflattens⟩ := flattens_of_build hbuild hbottom
  rw [hcatalog] at hlineage
  exact ⟨schema, bottom, declarations, hbuild, hbottom, eq_of_beq hproperties,
    eq_of_beq hfunctions, eq_of_beq hlineage, hisLineage, hflattens⟩

end Schema

end ConfigScript
