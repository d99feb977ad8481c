import ConfigScript.Proofs.NameMap
import ConfigScript.Proofs.Reach
import ConfigScript.Proofs.Schema.TypeText

/-!
# Declared types and their lineages

The types that a catalog declares are found under their names, and the lineage of a type holds
exactly the declared types that declared supertypes lead to.
-/

namespace ConfigScript

/-- A catalog declares a type under a name. -/
def Catalog.Declares (catalog : Catalog) (name : QualifiedName) (decl : TypeDecl) : Prop :=
  decl ∈ catalog.types ∧ decl.name = name.text

namespace Declarations

/-- The index with one more type, unless its name is taken. -/
def addType (index : NameMap TypeDecl) (decl : TypeDecl) :
    Except BuildError (NameMap TypeDecl) := do
  let name ← buildName (QualifiedName.parse decl.name)
  if index.contains name then throw (.duplicateType decl.name)
  return index.insert name decl

theorem addType_eq_ok_iff {index result : NameMap TypeDecl} {decl : TypeDecl} :
    addType index decl = .ok result ↔
      ∃ name, name.text = decl.name ∧ index.find? name = none ∧
        result = index.insert name decl := by
  simp only [addType, Fallible.bind_eq_ok, buildName_eq_ok, QualifiedName.parse_eq_ok]
  apply exists_congr
  intro name
  apply and_congr_right
  intro _
  cases hfind : index.find? name with
  | none => simp [NameMap.contains, hfind, pure, Except.pure, eq_comm]
  | some old =>
    simp [NameMap.contains, hfind, throw, throwThe, MonadExceptOf.throw, bind, Except.bind]

theorem find?_foldlM_addType {types : List TypeDecl} {index result : NameMap TypeDecl}
    (h : types.foldlM addType index = .ok result) (name : QualifiedName) (decl : TypeDecl) :
    result.find? name = some decl ↔
      index.find? name = some decl ∨ decl ∈ types ∧ decl.name = name.text := by
  induction types generalizing index with
  | nil =>
    obtain rfl := Fallible.pure_eq_ok.mp h
    simp
  | cons first types ih =>
    rw [List.foldlM_cons, Fallible.bind_eq_ok] at h
    obtain ⟨inserted, hinserted, hrest⟩ := h
    obtain ⟨own, htext, hnew, rfl⟩ := addType_eq_ok_iff.mp hinserted
    rw [ih hrest, NameMap.find?_insert]
    by_cases heq : name = own
    · rw [if_pos heq, heq, hnew]
      grind
    · have hother : first.name ≠ name.text := fun hname =>
        heq (QualifiedName.eq_of_text_eq (htext.trans hname).symm)
      rw [if_neg heq]
      grind

/-- Types can be added to an index exactly when their names are valid, free and distinct. -/
theorem exists_foldlM_addType_iff {types : List TypeDecl} {index : NameMap TypeDecl} :
    (∃ result, types.foldlM addType index = .ok result) ↔
      (∀ decl ∈ types, ∃ name, name.text = decl.name ∧ index.find? name = none) ∧
        (types.map TypeDecl.name).Nodup := by
  induction types generalizing index with
  | nil => simp [pure, Except.pure]
  | cons first types ih =>
    have hfree : ∀ own name : QualifiedName, (index.insert own first).find? name = none ↔
        name ≠ own ∧ index.find? name = none := by
      intro own name
      rw [NameMap.find?_insert]
      by_cases heq : name = own <;> simp [heq]
    simp only [List.foldlM_cons, Fallible.exists_bind_eq_ok, addType_eq_ok_iff, ih,
      List.forall_mem_cons, List.map_cons, List.nodup_cons, List.mem_map, not_exists, not_and]
    constructor
    · rintro ⟨_, ⟨own, htext, hnew, rfl⟩, hrest, hnodup⟩
      refine ⟨⟨⟨own, htext, hnew⟩, fun decl hdecl => ?_⟩, fun decl hdecl hname => ?_, hnodup⟩
      · obtain ⟨name, hname, hnone⟩ := hrest decl hdecl
        exact ⟨name, hname, ((hfree own name).mp hnone).2⟩
      · obtain ⟨name, hsame, hnone⟩ := hrest decl hdecl
        apply ((hfree own name).mp hnone).1
        exact QualifiedName.eq_of_text_eq (by rw [hsame, hname, htext])
    · rintro ⟨⟨⟨own, htext, hnew⟩, hrest⟩, hdistinct, hnodup⟩
      refine ⟨_, ⟨own, htext, hnew, rfl⟩, fun decl hdecl => ?_, hnodup⟩
      obtain ⟨name, hname, hnone⟩ := hrest decl hdecl
      refine ⟨name, hname, (hfree own name).mpr ⟨?_, hnone⟩⟩
      rintro rfl
      exact hdistinct decl hdecl (hname.symm.trans htext)

theorem find?_types {catalog : Catalog} {style : LambdaStyle} {declarations : Declarations}
    (h : ofCatalog catalog style = .ok declarations) {name : QualifiedName} {decl : TypeDecl} :
    declarations.types.find? name = some decl ↔ catalog.Declares name decl := by
  obtain ⟨index, hindex, heq⟩ := Fallible.bind_eq_ok.mp h
  obtain rfl := Fallible.pure_eq_ok.mp heq
  simpa [Catalog.Declares] using find?_foldlM_addType hindex name decl

theorem style_ofCatalog {catalog : Catalog} {style : LambdaStyle} {declarations : Declarations}
    (h : ofCatalog catalog style = .ok declarations) : declarations.style = style := by
  obtain ⟨index, hindex, heq⟩ := Fallible.bind_eq_ok.mp h
  obtain rfl := Fallible.pure_eq_ok.mp heq
  rfl

variable {declarations : Declarations} {name above : QualifiedName} {decl : TypeDecl}

theorem supertypesOf_declared (h : declarations.types.find? name = some decl) :
    declarations.supertypesOf name =
      decl.supertypes.filterMap fun text => (QualifiedName.parse text).toOption := by
  rw [supertypesOf, h]

theorem supertypesOf_undeclared (h : name ∉ declarations.types.names) :
    declarations.supertypesOf name = [] := by
  have hnone : declarations.types.find? name = none := by
    by_contra hsome
    exact h (NameMap.mem_names_iff.mpr (Option.ne_none_iff_exists'.mp hsome))
  rw [supertypesOf, hnone]

theorem exists_of_mem_supertypesOf (h : above ∈ declarations.supertypesOf name) :
    ∃ decl text, declarations.types.find? name = some decl ∧ text ∈ decl.supertypes ∧
      QualifiedName.parse text = .ok above := by
  cases hfind : declarations.types.find? name with
  | none => simp [supertypesOf, hfind] at h
  | some decl =>
    rw [supertypesOf_declared hfind] at h
    obtain ⟨text, htext, hparse⟩ := List.mem_filterMap.mp h
    exact ⟨decl, text, rfl, htext, Fallible.toOption_eq_some.mp hparse⟩

theorem length_supertypesOf_le :
    (declarations.types.names.flatMap declarations.supertypesOf).length ≤
      declarations.supertypeCount :=
  NameMap.length_flatMap_names_le fun name decl hdecl => by
    rw [supertypesOf_declared hdecl]
    exact List.length_filterMap_le _ _

theorem mem_lineage_iff :
    (above, decl) ∈ declarations.lineage name ↔
      Leads declarations.supertypesOf name above ∧ declarations.types.find? above = some decl := by
  rw [lineage, List.mem_filterMap]
  simp only [mem_reachFrom_iff (fun _ => supertypesOf_undeclared) length_supertypesOf_le,
    Option.map_eq_some_iff, Prod.mk.injEq]
  constructor
  · rintro ⟨found, hleads, own, hfind, rfl, rfl⟩
    exact ⟨hleads, hfind⟩
  · rintro ⟨hleads, hfind⟩
    exact ⟨above, hleads, decl, hfind, rfl, rfl⟩

/-- A type has the lineages of all types above it in its own. -/
theorem lineage_subset (h : Leads declarations.supertypesOf name above) :
    declarations.lineage above ⊆ declarations.lineage name := by
  intro entry hentry
  obtain ⟨hleads, hfind⟩ := mem_lineage_iff.mp hentry
  exact mem_lineage_iff.mpr ⟨h.trans hleads, hfind⟩

end Declarations

end ConfigScript
