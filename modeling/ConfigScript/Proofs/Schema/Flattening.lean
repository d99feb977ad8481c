import ConfigScript.Proofs.Schema.Protocols

/-!
# Flattened lineages

A class lists the properties and functions of its whole lineage, of those alike only the nearest.
So a property is found in the class exactly as it is found by going through the lineage, and no
name and no signature of the lineage is missing from the class.
-/

namespace ConfigScript

section EraseDups

variable {α : Type} (same : α → α → Bool)

/-- Induction along the removal of duplicates: what is like the first element goes before the rest
is looked at. -/
theorem eraseDupsBy_induction {motive : List α → Prop} (nil : motive [])
    (cons : ∀ first rest, motive (rest.filter fun other => decide (same other first = false)) →
      motive (first :: rest))
    (values : List α) : motive values := by
  induction hlength : values.length using Nat.strongRecOn generalizing values with
  | ind length ih =>
    cases values with
    | nil => exact nil
    | cons first rest =>
      apply cons
      apply ih _ _ _ rfl
      have hshort := List.length_filter_le (fun other => decide (same other first = false)) rest
      rw [List.length_cons] at hlength
      omega

theorem mem_of_mem_eraseDupsBy {same : α → α → Bool} {value : α} {values : List α}
    (h : value ∈ values.eraseDupsBy same) : value ∈ values := by
  induction values using eraseDupsBy_induction same with
  | nil => simp at h
  | cons first rest ih =>
    rw [List.eraseDupsBy_cons] at h
    cases List.mem_cons.mp h with
    | inl hfirst => exact hfirst ▸ List.mem_cons_self
    | inr hrest => exact List.mem_cons_of_mem _ (List.mem_filter.mp (ih hrest)).1

/-- A question that elements alike answer alike is answered by the first of each. -/
theorem find?_eraseDupsBy {same : α → α → Bool} {asked : α → Bool}
    (halike : ∀ first later, same later first = true → asked later = asked first)
    (values : List α) : (values.eraseDupsBy same).find? asked = values.find? asked := by
  induction values using eraseDupsBy_induction same with
  | nil => rfl
  | cons first rest ih =>
    rw [List.eraseDupsBy_cons, List.find?_cons, List.find?_cons, ih, List.find?_filter]
    cases hfirst : asked first with
    | true => rfl
    | false =>
      dsimp only
      congr 1
      funext later
      by_cases hsame : same later first = true
      · simp [hsame, halike first later hsame, hfirst]
      · simp [hsame]

/-- Of every element there remains one like it, be it the element itself. -/
theorem exists_mem_eraseDupsBy {value : α} {values : List α} (h : value ∈ values) :
    ∃ kept ∈ values.eraseDupsBy same, kept = value ∨ same value kept = true := by
  induction values using eraseDupsBy_induction same with
  | nil => cases h
  | cons first rest ih =>
    rw [List.eraseDupsBy_cons]
    by_cases hsame : same value first = true
    · exact ⟨first, List.mem_cons_self, .inr hsame⟩
    · cases List.mem_cons.mp h with
      | inl heq => exact ⟨first, List.mem_cons_self, .inl heq.symm⟩
      | inr hmem =>
        obtain ⟨kept, hkept, hlike⟩ := ih (List.mem_filter.mpr ⟨hmem, by simpa using hsame⟩)
        exact ⟨kept, List.mem_cons_of_mem _ hkept, hlike⟩

theorem pairwise_eraseDupsBy (values : List α) :
    (values.eraseDupsBy same).Pairwise fun first later => same later first = false := by
  induction values using eraseDupsBy_induction same with
  | nil => simp
  | cons first rest ih =>
    rw [List.eraseDupsBy_cons]
    apply List.Pairwise.cons _ ih
    intro later hlater
    simpa using (List.mem_filter.mp (mem_of_mem_eraseDupsBy hlater)).2

theorem eraseDupsBy_eq_self {same : α → α → Bool} {values : List α}
    (h : values.Pairwise fun first later => same later first = false) :
    values.eraseDupsBy same = values := by
  induction h with
  | nil => rfl
  | cons hfirst _ ih =>
    rw [List.eraseDupsBy_cons, List.filter_eq_self.mpr (by simpa using hfirst), ih]

end EraseDups

/-- Looking for a result is looking for what it comes from. -/
theorem Fallible.find?_mapM {ε α β : Type} {step : α → Except ε β} (asked : α → Bool)
    (question : β → Bool)
    (hsame : ∀ value result, step value = .ok result → question result = asked value)
    {values : List α} {results : List β} (h : values.mapM step = .ok results) :
    (values.find? asked).mapM step = .ok (results.find? question) := by
  have hall := mapM_eq_ok.mp h
  clear h
  induction hall with
  | nil => rfl
  | cons hfirst _ ih =>
    rw [List.find?_cons, List.find?_cons, hsame _ _ hfirst]
    split
    · exact map_eq_ok.mpr ⟨_, hfirst, rfl⟩
    · exact ih

namespace Declarations

variable {declarations : Declarations} {owner : QualifiedName} {decl : TypeDecl}
  {dataClass : DataClass}

/-- The parts of a class, each read off the declarations. -/
structure Materialised (declarations : Declarations) (owner : QualifiedName) (decl : TypeDecl)
    (dataClass : DataClass) : Prop where
  name : dataClass.name = owner
  supertypes : dataClass.supertypes =
    .ofList ((declarations.supertypesOf owner).filter declarations.types.contains)
  properties : (((declarations.lineage owner).flatMap (·.2.properties)).eraseDupsBy
    (·.name == ·.name)).mapM PropertyDecl.toProperty = .ok dataClass.properties
  functions : (((declarations.lineage owner).flatMap (·.2.functions)).eraseDupsBy
    (·.signature == ·.signature)).mapM (declarations.memberFunction owner) =
      .ok dataClass.functions
  constructors : decl.constructors.mapM (declarations.constructor owner) =
    .ok dataClass.constructors

theorem materialised (h : declarations.dataClass owner decl = .ok dataClass) :
    declarations.Materialised owner decl dataClass := by
  obtain ⟨properties, hproperties, h⟩ := Fallible.bind_eq_ok.mp h
  obtain ⟨functions, hfunctions, h⟩ := Fallible.bind_eq_ok.mp h
  obtain ⟨constructors, hconstructors, h⟩ := Fallible.bind_eq_ok.mp h
  obtain rfl := Fallible.pure_eq_ok.mp h
  exact ⟨rfl, rfl, hproperties, hfunctions, hconstructors⟩

namespace Materialised

variable (h : declarations.Materialised owner decl dataClass)

include h

/-- A property of the class is built from one of the lineage. -/
theorem exists_own_property {property : Property} (hproperty : property ∈ dataClass.properties) :
    ∃ above ∈ declarations.lineage owner, ∃ own ∈ above.2.properties,
      own.toProperty = .ok property := by
  obtain ⟨own, hown, hbuilt⟩ := Fallible.mem_of_mapM_eq_ok h.properties hproperty
  obtain ⟨above, habove, hown⟩ := List.mem_flatMap.mp (mem_of_mem_eraseDupsBy hown)
  exact ⟨above, habove, own, hown, hbuilt⟩

/-- A function of the class is built from one of the lineage, for the class itself. -/
theorem exists_own_function {function : MemberFunction}
    (hfunction : function ∈ dataClass.functions) :
    ∃ above ∈ declarations.lineage owner, ∃ own ∈ above.2.functions,
      declarations.memberFunction owner own = .ok function := by
  obtain ⟨own, hown, hbuilt⟩ := Fallible.mem_of_mapM_eq_ok h.functions hfunction
  obtain ⟨above, habove, hown⟩ := List.mem_flatMap.mp (mem_of_mem_eraseDupsBy hown)
  exact ⟨above, habove, own, hown, hbuilt⟩

/-- The lineage and the class agree about what a name means. -/
theorem property?_eq (text : String) :
    declarations.property? owner text = .ok (dataClass.property? text) := by
  have hfound := Fallible.find?_mapM (·.name == text) (·.name == text)
    (fun own property hproperty => by rw [(toProperty_eq_ok hproperty).1]) h.properties
  rw [find?_eraseDupsBy (fun first later hsame => by rw [eq_of_beq hsame]),
    List.find?_flatMap] at hfound
  rw [DataClass.property?, ← hfound, property?]
  dsimp only
  split
  · rename_i hnone
    rw [hnone]
    rfl
  · rename_i own hown
    rw [hown]
    rfl

theorem nodup_properties : (dataClass.properties.map Property.name).Nodup := by
  have hnames : dataClass.properties.map Property.name =
      (((declarations.lineage owner).flatMap (·.2.properties)).eraseDupsBy
        (·.name == ·.name)).map PropertyDecl.name :=
    Fallible.map_of_mapM_eq_ok (fun own property hproperty => (toProperty_eq_ok hproperty).1)
      h.properties
  rw [hnames, List.Nodup, List.pairwise_map]
  apply (pairwise_eraseDupsBy _ _).imp
  intro first later hdistinct heq
  rw [heq, beq_self_eq_true] at hdistinct
  cases hdistinct

/-- Every property of the lineage has its name in the class. -/
theorem exists_property {above : QualifiedName × TypeDecl}
    (habove : above ∈ declarations.lineage owner) {own : PropertyDecl}
    (hown : own ∈ above.2.properties) :
    ∃ property ∈ dataClass.properties, property.name = own.name := by
  have hmem : own ∈ (declarations.lineage owner).flatMap (·.2.properties) :=
    List.mem_flatMap.mpr ⟨above, habove, hown⟩
  obtain ⟨kept, hkept, hlike⟩ := exists_mem_eraseDupsBy (·.name == ·.name) hmem
  have hname : kept.name = own.name := by
    cases hlike with
    | inl heq => rw [heq]
    | inr hsame => exact (eq_of_beq hsame).symm
  obtain ⟨property, hproperty, hbuilt⟩ := Fallible.exists_of_mapM_eq_ok h.properties hkept
  exact ⟨property, hproperty, (toProperty_eq_ok hbuilt).1.trans hname⟩

/-- Every function of the lineage has its signature in the class. -/
theorem exists_function {above : QualifiedName × TypeDecl}
    (habove : above ∈ declarations.lineage owner) {own : FunctionDecl}
    (hown : own ∈ above.2.functions) :
    ∃ kept, kept.signature = own.signature ∧ ∃ function ∈ dataClass.functions,
      declarations.memberFunction owner kept = .ok function := by
  have hmem : own ∈ (declarations.lineage owner).flatMap (·.2.functions) :=
    List.mem_flatMap.mpr ⟨above, habove, hown⟩
  obtain ⟨kept, hkept, hlike⟩ := exists_mem_eraseDupsBy (·.signature == ·.signature) hmem
  have hsignature : kept.signature = own.signature := by
    cases hlike with
    | inl heq => rw [heq]
    | inr hsame => exact (eq_of_beq hsame).symm
  obtain ⟨function, hfunction, hbuilt⟩ := Fallible.exists_of_mapM_eq_ok h.functions hkept
  exact ⟨kept, hsignature, function, hfunction, hbuilt⟩

end Materialised

end Declarations

end ConfigScript
