import ConfigScript.Proofs.Schema.Closed

/-!
# Members after an upcast

An object may stand wherever a supertype of its class is expected. The class of the object then
answers to all that may be asked of it there: it lists a property under every property name of the
supertype and a function to call in place of every function of the supertype, be it one that hides
the inherited one.
-/

namespace ConfigScript

/-- Whatever is read, called or configured through the class `above` is there in `below` too. -/
structure DataClass.Covers (below above : DataClass) : Prop where
  properties : ∀ name ∈ above.properties.map Property.name,
    name ∈ below.properties.map Property.name
  functions : ∀ function ∈ above.functions, ∃ own ∈ below.functions,
    own.name = function.name ∧
      own.parameters.map Parameter.type = function.parameters.map Parameter.type ∧
      own.semantics.configuredType? = function.semantics.configuredType?

/-- A class whose lineage contains that of another one covers it. -/
theorem Declarations.Materialised.covers {declarations : Declarations}
    {sub sup : QualifiedName} {subDecl supDecl : TypeDecl} {below above : DataClass}
    (hbelow : declarations.Materialised sub subDecl below)
    (habove : declarations.Materialised sup supDecl above)
    (hlineage : declarations.lineage sup ⊆ declarations.lineage sub) : below.Covers above := by
  constructor
  case properties =>
    intro name hname
    obtain ⟨property, hproperty, rfl⟩ := List.mem_map.mp hname
    obtain ⟨entry, hentry, own, hown, hbuilt⟩ := habove.exists_own_property hproperty
    obtain ⟨kept, hkept, heq⟩ := hbelow.exists_property (hlineage hentry) hown
    rw [(toProperty_eq_ok hbuilt).1, ← heq]
    exact List.mem_map_of_mem hkept
  case functions =>
    intro function hfunction
    obtain ⟨entry, hentry, own, hown, hbuilt⟩ := habove.exists_own_function hfunction
    -- The function that stands in the lower class may be another one of the same signature.
    obtain ⟨kept, hsignature, inherited, hinherited, hkept⟩ :=
      hbelow.exists_function (hlineage hentry) hown
    exact ⟨inherited, hinherited, memberFunction_alike hkept hbuilt hsignature⟩

namespace Schema

variable {schema : Schema} {sub sup : QualifiedName}

/-- A name without a class has no supertypes, so the search for a supertype has the budget to come
to all of them. -/
theorem isSubtype_iff : schema.isSubtype sub sup = true ↔ Leads schema.supertypesOf sub sup := by
  have hsources : ∀ name, name ∉ schema.classes.names → schema.supertypesOf name = [] := by
    intro name hname
    unfold supertypesOf
    split
    · rename_i dataClass hclass
      exact absurd (NameMap.mem_names_iff.mpr ⟨dataClass, hclass⟩) hname
    · rfl
  have hbudget : (schema.classes.names.flatMap schema.supertypesOf).length ≤
      schema.supertypeCount := by
    apply NameMap.length_flatMap_names_le
    intro name dataClass hclass
    rw [supertypesOf, hclass]
  rw [isSubtype, List.contains_iff_mem, mem_reachFrom_iff hsources hbudget]

theorem leads_of_isAssignable (h : schema.isAssignable (.named sup) (.named sub) = true) :
    Leads schema.supertypesOf sub sup := by
  unfold isAssignable at h
  split at h
  · rename_i heq
    cases heq
    exact .refl
  · exact isSubtype_iff.mp h

/-- Every supertype of a class is one that its type was declared with. -/
theorem MadeFrom.mem_supertypesOf {declarations : Declarations} (h : schema.MadeFrom declarations)
    {name above : QualifiedName} (habove : above ∈ schema.supertypesOf name) :
    above ∈ declarations.supertypesOf name := by
  unfold supertypesOf at habove
  split at habove
  · rename_i dataClass hclass
    obtain ⟨decl, hbuilt⟩ := h.classes name dataClass hclass
    rw [hbuilt.supertypes] at habove
    exact List.mem_of_mem_filter (NameSet.mem_ofList.mp habove)
  · cases habove

/-- In a built schema, a class covers every class as which its objects may be taken. -/
theorem covers_of_isAssignable {catalog : Catalog} {style : LambdaStyle} {receiver : String}
    (h : build catalog style receiver = .ok schema) {below above : DataClass}
    (hbelow : schema.classes.find? sub = some below)
    (habove : schema.classes.find? sup = some above)
    (hassignable : schema.isAssignable (.named sup) (.named sub) = true) :
    below.Covers above := by
  obtain ⟨declarations, hmade⟩ := madeFrom_of_build h
  obtain ⟨belowDecl, hbelow⟩ := hmade.classes sub below hbelow
  obtain ⟨aboveDecl, habove⟩ := hmade.classes sup above habove
  have hleads : Leads declarations.supertypesOf sub sup :=
    Relation.ReflTransGen.mono (fun _ _ => hmade.mem_supertypesOf) _ _
      (leads_of_isAssignable hassignable)
  exact hbelow.covers habove (Declarations.lineage_subset hleads)

/-- A diamond over a cycle, in which the lower types hide functions of the upper ones by functions
of other kinds. -/
def diamondCatalog : Catalog :=
  ⟨[⟨"Bottom", ["First", "Second", "Missing"], [⟨"id", "Int", false, false⟩],
      [⟨"options", .adding, [⟨"block", "Top.() -> Unit", false, none⟩], some "Top", none, none⟩],
      []⟩,
    ⟨"First", ["Top"], [], [⟨"tag", .builder, [⟨"text", "String", false, none⟩], none, none, none⟩],
      []⟩,
    ⟨"Second", ["Top"], [⟨"second", "Long", true, false⟩],
      [⟨"options", .configuring, [⟨"block", "Top.() -> Unit", false, none⟩], none, none, none⟩],
      []⟩,
    ⟨"Top", ["Second"], [⟨"id", "String", false, false⟩],
      [⟨"tag", .pure, [⟨"label", "String", false, none⟩], some "Boolean", none, none⟩], []⟩],
    [], [], []⟩

theorem covers_of_isAssignable_diamond :
    ∃ schema below above, build diamondCatalog .receiverFunction "Bottom" = .ok schema ∧
      schema.classes.find? ⟨"Bottom", by decide⟩ = some below ∧
      schema.classes.find? ⟨"Top", by decide⟩ = some above ∧
      schema.isAssignable (.named ⟨"Top", by decide⟩) (.named ⟨"Bottom", by decide⟩) = true ∧
      above.functions.map (·.semantics.kindName) = ["pure", "access-and-configure"] ∧
      below.functions.map (·.semantics.kindName) = ["add-and-configure", "builder"] ∧
      below.Covers above := by
  have hok : (build diamondCatalog .receiverFunction "Bottom").toOption.any (fun schema =>
      (schema.classes.find? ⟨"Bottom", by decide⟩).any (fun below =>
        below.functions.map (·.semantics.kindName) == ["add-and-configure", "builder"]) &&
      (schema.classes.find? ⟨"Top", by decide⟩).any (fun above =>
        above.functions.map (·.semantics.kindName) == ["pure", "access-and-configure"]) &&
      schema.isAssignable (.named ⟨"Top", by decide⟩) (.named ⟨"Bottom", by decide⟩)) = true := by
    decide +kernel
  obtain ⟨schema, hschema, hok⟩ := (Option.any_eq_true _ _).mp hok
  have hbuild := Fallible.toOption_eq_some.mp hschema
  rw [Bool.and_eq_true, Bool.and_eq_true] at hok
  obtain ⟨⟨hbelow, habove⟩, hassignable⟩ := hok
  obtain ⟨below, hbelow, hkinds⟩ := (Option.any_eq_true _ _).mp hbelow
  obtain ⟨above, habove, habovekinds⟩ := (Option.any_eq_true _ _).mp habove
  exact ⟨schema, below, above, hbuild, hbelow, habove, hassignable, eq_of_beq habovekinds,
    eq_of_beq hkinds, covers_of_isAssignable hbuild hbelow habove hassignable⟩

end Schema

end ConfigScript
