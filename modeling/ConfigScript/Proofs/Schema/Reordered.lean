import ConfigScript.Proofs.Schema.Built
import ConfigScript.Proofs.Schema.Protocols
import ConfigScript.Schema.Fingerprint

/-!
# Catalogs in another order

In which order a catalog lists its types, functions, objects and default imports makes no
difference to a schema. The search meets the types in another order and gives up elsewhere when it
does, but it needs the same types, and whether it can succeed depends on the needed types alone.
-/

namespace ConfigScript

namespace Catalog

/-- The same declarations, each list in an order of its own. -/
structure Reorders (catalog other : Catalog) : Prop where
  types : catalog.types.Perm other.types
  functions : catalog.functions.Perm other.functions
  objects : catalog.objects.Perm other.objects
  defaultImports : catalog.defaultImports.Perm other.defaultImports

/-- The qualified names of the functions of packages. -/
def functionNames (catalog : Catalog) : List QualifiedName :=
  catalog.functions.filterMap fun decl => (QualifiedName.inPackage decl.package decl.name).toOption

/-- The qualified names of the objects of packages. -/
def objectNames (catalog : Catalog) : List QualifiedName :=
  catalog.objects.filterMap fun decl => (QualifiedName.parse decl.name).toOption

variable {catalog other : Catalog} {style : LambdaStyle} {receiver name : QualifiedName}

namespace Reorders

variable (h : catalog.Reorders other)

include h

theorem symm : other.Reorders catalog :=
  ⟨h.types.symm, h.functions.symm, h.objects.symm, h.defaultImports.symm⟩

theorem declares {decl : TypeDecl} (hdecl : catalog.Declares name decl) :
    other.Declares name decl :=
  ⟨h.types.subset hdecl.1, hdecl.2⟩

/-- What is needed does not depend on any order. -/
theorem needs (hneeds : catalog.Needs style receiver name) : other.Needs style receiver name := by
  induction hneeds with
  | receiver => exact .receiver
  | functionParameter hfunction hparameter hnames =>
    exact .functionParameter (h.functions.subset hfunction) hparameter hnames
  | functionResult hfunction hreturns hnames =>
    exact .functionResult (h.functions.subset hfunction) hreturns hnames
  | object hobject hnames => exact .object (h.objects.subset hobject) hnames
  | defaultImport himport hdecl =>
    exact .defaultImport (h.defaultImports.subset himport) (h.declares hdecl)
  | member _ hdecl hmention hnames ih => exact .member ih (h.declares hdecl) hmention hnames
  | supertype _ hdecl hsup habove ih =>
    exact .supertype ih (h.declares hdecl) hsup (h.declares habove)

theorem readable (hreadable : catalog.Readable style) : other.Readable style := by
  constructor
  case functions =>
    intro function hfunction
    exact hreadable.functions function (h.functions.symm.subset hfunction)
  case objects =>
    intro object hobject
    exact hreadable.objects object (h.objects.symm.subset hobject)
  case imports =>
    intro text htext
    exact hreadable.imports text (h.defaultImports.symm.subset htext)

/-- The types are indexed under their names, wherever they stand. -/
theorem ofCatalog {declarations : Declarations}
    (hcatalog : Declarations.ofCatalog catalog style = .ok declarations) :
    Declarations.ofCatalog other style = .ok declarations := by
  obtain ⟨index, hindex, heq⟩ := Fallible.bind_eq_ok.mp hcatalog
  obtain ⟨hvalid, hnodup⟩ := Declarations.exists_foldlM_addType_iff.mp ⟨index, hindex⟩
  obtain ⟨again, hagain⟩ := Declarations.exists_foldlM_addType_iff.mpr
    ⟨fun decl hdecl => hvalid decl (h.types.symm.subset hdecl),
      (h.types.map TypeDecl.name).nodup_iff.mp hnodup⟩
  have hsame : again = index := by
    apply NameMap.eq_of_find?_eq
    intro name
    ext decl
    rw [Declarations.find?_foldlM_addType hagain, Declarations.find?_foldlM_addType hindex,
      h.types.mem_iff]
  exact Fallible.bind_eq_ok.mpr ⟨again, hagain, hsame ▸ heq⟩

end Reorders

end Catalog

namespace Declarations

variable {catalog : Catalog} {declarations : Declarations}

theorem map_name_externalFunctions {functions : List ExternalFunction}
    (h : catalog.functions.mapM declarations.externalFunction = .ok functions) :
    functions.map ExternalFunction.name = catalog.functionNames :=
  (Fallible.filterMap_of_mapM_eq_ok (fun _ _ hbuilt => (externalFunction_cases hbuilt).1) h).symm

theorem map_fst_externalObjects {objects : List (QualifiedName × TypeRef)}
    (h : catalog.objects.mapM externalObject = .ok objects) :
    objects.map Prod.fst = catalog.objectNames :=
  (Fallible.filterMap_of_mapM_eq_ok (fun _ _ hbuilt => (externalObject_cases hbuilt).1) h).symm

end Declarations

namespace Schema

variable {catalog other : Catalog} {style : LambdaStyle} {receiver : String} {schema : Schema}

/-- A schema that presents a catalog presents it in every order. -/
theorem Presents.reorder {declarations : Declarations}
    (hpresents : schema.Presents catalog declarations) (h : catalog.Reorders other)
    (hfunctions : catalog.functionNames.Nodup) (hobjects : catalog.objectNames.Nodup) :
    schema.Presents other declarations := by
  constructor
  case style => exact hpresents.style
  case readable => exact h.readable hpresents.readable
  case needed =>
    intro name hname
    exact h.needs (hpresents.needed name hname)
  case classes =>
    intro name hname
    obtain ⟨decl, dataClass, hdecl, hclass⟩ := hpresents.classes name (h.symm.needs hname)
    exact ⟨decl, dataClass, h.declares hdecl, hclass⟩
  case functions =>
    obtain ⟨functions, hbuilt, hschema⟩ := hpresents.functions
    obtain ⟨reordered, hreordered, hperm⟩ := Fallible.exists_mapM_perm h.functions hbuilt
    refine ⟨reordered, hreordered, ?_⟩
    rw [hschema]
    apply NameMap.ofList_eq_of_perm (hperm.map _)
    rw [List.map_map]
    exact (Declarations.map_name_externalFunctions hbuilt).symm ▸ hfunctions
  case objects =>
    obtain ⟨objects, hbuilt, hschema⟩ := hpresents.objects
    obtain ⟨reordered, hreordered, hperm⟩ := Fallible.exists_mapM_perm h.objects hbuilt
    refine ⟨reordered, hreordered, ?_⟩
    rw [hschema]
    apply NameMap.ofList_eq_of_perm hperm
    rwa [Declarations.map_fst_externalObjects hbuilt]
  case imports =>
    intro name
    rw [hpresents.imports, h.defaultImports.mem_iff]
  case declared => exact hpresents.declared

theorem build_reorders (h : catalog.Reorders other) (hfunctions : catalog.functionNames.Nodup)
    (hobjects : catalog.objectNames.Nodup) (hbuild : build catalog style receiver = .ok schema) :
    build other style receiver = .ok schema := by
  obtain ⟨hreceiver, declarations, hcatalog, hpresents⟩ := build_eq_ok_iff.mp hbuild
  exact build_eq_ok_iff.mpr ⟨hreceiver, declarations, h.ofCatalog hcatalog,
    hpresents.reorder h hfunctions hobjects⟩

/-- A catalog whose packages declare no name twice yields the same schema in every order, or none in
any order. -/
theorem same_of_reorders (h : catalog.Reorders other) (hfunctions : catalog.functionNames.Nodup)
    (hobjects : catalog.objectNames.Nodup) (style : LambdaStyle) (receiver : String) :
    (build catalog style receiver).isOk = (build other style receiver).isOk ∧
      ∀ first second, build catalog style receiver = .ok first →
        build other style receiver = .ok second →
          first = second ∧ first.fingerprint = second.fingerprint := by
  have hforward : ∀ schema, build catalog style receiver = .ok schema →
      build other style receiver = .ok schema := fun schema =>
    build_reorders h hfunctions hobjects
  have hback : ∀ schema, build other style receiver = .ok schema →
      build catalog style receiver = .ok schema := by
    intro schema
    apply build_reorders h.symm
    · exact (h.functions.filterMap _).nodup_iff.mp hfunctions
    · exact (h.objects.filterMap _).nodup_iff.mp hobjects
  constructor
  · cases hfirst : build catalog style receiver with
    | ok schema => rw [hforward schema hfirst]
    | error fault =>
      cases hsecond : build other style receiver with
      | ok schema => cases hfirst.symm.trans (hback schema hsecond)
      | error _ => rfl
  · intro first second hfirst hsecond
    obtain rfl : first = second := Except.ok.inj ((hforward first hfirst).symm.trans hsecond)
    exact ⟨rfl, rfl⟩

/-- Types that mention each other in a circle, with functions, objects and default imports. -/
def circularCatalog : Catalog :=
  ⟨[⟨"Circle", ["Shape"], [⟨"next", "Square", false, false⟩], [], []⟩,
    ⟨"Square", ["Shape", "Missing"], [⟨"peer", "Circle", true, false⟩], [], []⟩,
    ⟨"Shape", [], [], [⟨"draw", .pure, [⟨"on", "Square", false, none⟩], none, none, none⟩], []⟩],
    [⟨"p", "make", .pure, [⟨"size", "Int", false, none⟩], some "Circle"⟩,
      ⟨"p", "join", .pure, [⟨"first", "Shape", false, none⟩], none⟩],
    [⟨"p.unit", "Square"⟩, ⟨"p.origin", "Shape"⟩], ["p.make", "Circle", "p.unit"]⟩

/-- The same catalog, every list from its end. -/
def reversedCatalog : Catalog :=
  ⟨circularCatalog.types.reverse, circularCatalog.functions.reverse,
    circularCatalog.objects.reverse, circularCatalog.defaultImports.reverse⟩

theorem same_of_reorders_reversed :
    ∃ first second, build circularCatalog .receiverFunction "Shape" = .ok first ∧
      build reversedCatalog .receiverFunction "Shape" = .ok second ∧
      first = second ∧ first.fingerprint = second.fingerprint := by
  have hreorders : circularCatalog.Reorders reversedCatalog :=
    ⟨(List.reverse_perm _).symm, (List.reverse_perm _).symm, (List.reverse_perm _).symm,
      (List.reverse_perm _).symm⟩
  have hsame := same_of_reorders hreorders (by decide) (by decide) .receiverFunction "Shape"
  have hok : (build circularCatalog .receiverFunction "Shape").isOk = true := by decide
  cases hfirst : build circularCatalog .receiverFunction "Shape" with
  | error fault => simp [hfirst, Except.isOk, Except.toBool] at hok
  | ok first =>
    cases hsecond : build reversedCatalog .receiverFunction "Shape" with
    | error fault => simp [hfirst, hsecond, Except.isOk, Except.toBool] at hsame
    | ok second => exact ⟨first, second, rfl, rfl, hsame.2 first second hfirst hsecond⟩

end Schema

end ConfigScript
