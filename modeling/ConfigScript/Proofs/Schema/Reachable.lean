import ConfigScript.Proofs.Schema.Needed

/-!
# Reachable types are needed types

The search for reachable types is a breadth-first visit over the references of declared types. When
it ends without fault, what it found is the set of needed types, all of them declared.
-/

namespace ConfigScript.Declarations

variable {declarations : Declarations} {catalog : Catalog} {receiver name : QualifiedName}

theorem visitTypes_new {budget : Nat} {seen : List QualifiedName} {first : Visit}
    {queue : List Visit} (h : first.name ∉ seen) :
    declarations.visitTypes (budget + 1) seen (first :: queue) = do
      let next ← declarations.links first.name
      let found := next.map fun (link, name) => ⟨name, first.chain ++ [link]⟩
      let later ← declarations.visitTypes budget (first.name :: seen) (queue ++ found)
      return first :: later := by
  rw [visitTypes, if_neg h, links]
  cases declarations.types.find? first.name with
  | none => rfl
  | some decl => rfl

/-- The search visits names as the pure visit does, and reads the links of each of them. -/
theorem visitTypes_eq_ok {budget : Nat} {seen : List QualifiedName} {queue visits : List Visit}
    (h : declarations.visitTypes budget seen queue = .ok visits) :
    visits.map Visit.name =
        visit declarations.referencesOf budget seen (queue.map Visit.name) ∧
      ∀ found ∈ visits, ∃ next, declarations.links found.name = .ok next := by
  induction budget generalizing seen queue visits with
  | zero =>
    obtain rfl : [] = visits := by simpa [visitTypes] using h
    simp [visit]
  | succ budget ih =>
    cases queue with
    | nil =>
      obtain rfl : [] = visits := by simpa [visitTypes] using h
      simp [visit]
    | cons first queue =>
      rw [List.map_cons, visit]
      by_cases hseen : first.name ∈ seen
      · rw [visitTypes, if_pos hseen] at h
        rw [if_pos hseen]
        exact ih h
      · rw [visitTypes_new hseen] at h
        rw [if_neg hseen]
        obtain ⟨next, hnext, h⟩ := Fallible.bind_eq_ok.mp h
        obtain ⟨later, hlater, h⟩ := Fallible.bind_eq_ok.mp h
        obtain rfl := Fallible.pure_eq_ok.mp h
        obtain ⟨hnames, hread⟩ := ih hlater
        refine ⟨?_, List.forall_mem_cons.mpr ⟨⟨next, hnext⟩, hread⟩⟩
        rw [List.map_cons, hnames, referencesOf_eq hnext]
        simp [Function.comp_def]

/-- What the packages mention, each with the function or the object that mentions it. -/
theorem mem_mentionedByPackages_iff {visits : List Visit} {chain : List Link}
    (h : declarations.mentionedByPackages catalog = .ok visits) :
    ⟨name, chain⟩ ∈ visits ↔
      (∃ function ∈ catalog.functions,
        ∃ text ∈ function.parameters.map (·.type) ++ function.returns.toList,
          declarations.style.Names text name ∧
            chain = [.function function.package function.name]) ∨
      (∃ object ∈ catalog.objects, declarations.style.Names object.type name ∧
        chain = [.object object.name]) ∨
      name.text ∈ catalog.defaultImports ∧ declarations.types.contains name = true ∧
        chain = [] := by
  obtain ⟨functions, hfunctions, h⟩ := Fallible.bind_eq_ok.mp h
  obtain ⟨objects, hobjects, h⟩ := Fallible.bind_eq_ok.mp h
  obtain ⟨imports, himports, h⟩ := Fallible.bind_eq_ok.mp h
  obtain rfl := Fallible.pure_eq_ok.mp h
  have hfunction : ⟨name, chain⟩ ∈ functions ↔
      ∃ function ∈ catalog.functions,
        ∃ text ∈ function.parameters.map (·.type) ++ function.returns.toList,
          declarations.style.Names text name ∧
            chain = [.function function.package function.name] := by
    simp only [(Fallible.flatMapM_eq_ok hfunctions).2, Fallible.bind_eq_ok, Fallible.pure_eq_ok]
    constructor
    · rintro ⟨function, hmem, parts, ⟨names, hnames, rfl⟩, hfound⟩
      obtain ⟨type, htype, heq⟩ := List.mem_map.mp hfound
      obtain ⟨rfl, rfl⟩ := Visit.mk.inj heq
      obtain ⟨text, htext, hclass⟩ := ((Fallible.filterMapM_eq_ok hnames).2 type).mp htype
      exact ⟨function, hmem, text, htext, className?_eq_some.mp hclass, rfl⟩
    · rintro ⟨function, hmem, text, htext, hnames, rfl⟩
      obtain ⟨parts, hparts⟩ := (Fallible.flatMapM_eq_ok hfunctions).1 function hmem
      obtain ⟨names, hfiltered, -⟩ := Fallible.bind_eq_ok.mp hparts
      have hname := ((Fallible.filterMapM_eq_ok hfiltered).2 name).mpr
        ⟨text, htext, className?_eq_some.mpr hnames⟩
      exact ⟨function, hmem, _, ⟨names, hfiltered, rfl⟩, List.mem_map_of_mem hname⟩
  have hobject : ⟨name, chain⟩ ∈ objects ↔
      ∃ object ∈ catalog.objects, declarations.style.Names object.type name ∧
        chain = [.object object.name] := by
    simp only [(Fallible.filterMapM_eq_ok hobjects).2, Fallible.bind_eq_ok, Fallible.pure_eq_ok,
      Option.map_eq_some_iff, Visit.mk.injEq]
    constructor
    · rintro ⟨object, hmem, kept, hkept, type, rfl, rfl, rfl⟩
      exact ⟨object, hmem, className?_eq_some.mp hkept, rfl⟩
    · rintro ⟨object, hmem, hnames, rfl⟩
      exact ⟨object, hmem, _, className?_eq_some.mpr hnames, name, rfl, rfl, rfl⟩
  have himport : ⟨name, chain⟩ ∈ imports ↔
      name.text ∈ catalog.defaultImports ∧ declarations.types.contains name = true ∧
        chain = [] := by
    simp only [(Fallible.filterMapM_eq_ok himports).2, Fallible.bind_eq_ok, Fallible.pure_eq_ok,
      buildName_eq_ok, QualifiedName.parse_eq_ok]
    constructor
    · rintro ⟨text, hmem, type, rfl, hkept⟩
      split at hkept
      · rename_i hdeclared
        obtain ⟨rfl, rfl⟩ := Visit.mk.inj (Option.some.inj hkept)
        exact ⟨hmem, hdeclared, rfl⟩
      · cases hkept
    · rintro ⟨hmem, hdeclared, rfl⟩
      exact ⟨name.text, hmem, name, rfl, by rw [if_pos hdeclared]⟩
  rw [List.mem_append, List.mem_append, hfunction, hobject, himport, or_assoc]

theorem mem_mentionedByPackages {visits : List Visit}
    (h : declarations.mentionedByPackages catalog = .ok visits) :
    name ∈ visits.map Visit.name ↔
      (∃ function ∈ catalog.functions,
        ∃ text ∈ function.parameters.map (·.type) ++ function.returns.toList,
          declarations.style.Names text name) ∨
      (∃ object ∈ catalog.objects, declarations.style.Names object.type name) ∨
      name.text ∈ catalog.defaultImports ∧ declarations.types.contains name = true := by
  have hchains : name ∈ visits.map Visit.name ↔ ∃ chain, ⟨name, chain⟩ ∈ visits := by
    rw [List.mem_map]
    constructor
    · rintro ⟨found, hfound, rfl⟩
      exact ⟨found.chain, hfound⟩
    · rintro ⟨chain, hfound⟩
      exact ⟨⟨name, chain⟩, hfound, rfl⟩
  simp only [hchains, mem_mentionedByPackages_iff h]
  constructor
  · rintro ⟨chain, ⟨function, hmem, text, htext, hnames, -⟩ | ⟨object, hmem, hnames, -⟩ |
      ⟨hmem, hdeclared, -⟩⟩
    · exact .inl ⟨function, hmem, text, htext, hnames⟩
    · exact .inr (.inl ⟨object, hmem, hnames⟩)
    · exact .inr (.inr ⟨hmem, hdeclared⟩)
  · rintro (⟨function, hmem, text, htext, hnames⟩ | ⟨object, hmem, hnames⟩ | ⟨hmem, hdeclared⟩)
    · exact ⟨_, .inl ⟨function, hmem, text, htext, hnames, rfl⟩⟩
    · exact ⟨_, .inr (.inl ⟨object, hmem, hnames, rfl⟩)⟩
    · exact ⟨_, .inr (.inr ⟨hmem, hdeclared, rfl⟩)⟩

/-- A search without fault keeps all that it visited, and visited declared types only. -/
theorem visits_of_reachable {needed : NameSet}
    (h : declarations.reachable catalog receiver = .ok needed) :
    ∃ mentioned visits, declarations.mentionedByPackages catalog = .ok mentioned ∧
      declarations.visitTypes
        ((Visit.mk receiver [] :: mentioned).length + declarations.referenceCount) []
        (⟨receiver, []⟩ :: mentioned) = .ok visits ∧
      needed = .ofList (visits.map Visit.name) ∧
      ∀ found ∈ visits, declarations.types.contains found.name = true := by
  obtain ⟨mentioned, hmentioned, h⟩ := Fallible.bind_eq_ok.mp h
  obtain ⟨visits, hvisits, h⟩ := Fallible.bind_eq_ok.mp h
  refine ⟨mentioned, visits, hmentioned, hvisits, ?_⟩
  simp only [List.partition_eq_filter_filter, Function.comp_def] at h
  split at h
  · rename_i hempty
    have hdeclared : ∀ found ∈ visits, declarations.types.contains found.name = true := by
      simpa [List.filter_eq_nil_iff] using hempty
    rw [List.filter_eq_self.mpr hdeclared] at h
    exact ⟨(Fallible.pure_eq_ok.mp h).symm, hdeclared⟩
  · cases h

theorem needs_of_mentioned {style : LambdaStyle} {mentioned : List Visit}
    (hcatalog : ofCatalog catalog style = .ok declarations)
    (h : declarations.mentionedByPackages catalog = .ok mentioned)
    (hname : name ∈ mentioned.map Visit.name) : catalog.Needs style receiver name := by
  obtain rfl := style_ofCatalog hcatalog
  rcases (mem_mentionedByPackages h).mp hname with ⟨function, hfunction, text, htext, hnames⟩ |
    ⟨object, hobject, hnames⟩ | ⟨himport, hdeclared⟩
  · cases List.mem_append.mp htext with
    | inl htext =>
      obtain ⟨parameter, hparameter, rfl⟩ := List.mem_map.mp htext
      exact .functionParameter hfunction hparameter hnames
    | inr hreturns => exact .functionResult hfunction (Option.mem_toList.mp hreturns) hnames
  · exact .object hobject hnames
  · obtain ⟨decl, hdecl⟩ := NameMap.contains_iff.mp hdeclared
    exact .defaultImport himport ((find?_types hcatalog).mp hdecl)

theorem needs_of_reference {style : LambdaStyle} {other : QualifiedName}
    (hcatalog : ofCatalog catalog style = .ok declarations)
    (hneeds : catalog.Needs style receiver name)
    (hother : other ∈ declarations.referencesOf name) : catalog.Needs style receiver other := by
  obtain rfl := style_ofCatalog hcatalog
  obtain ⟨links, hlinks, hother⟩ := exists_of_mem_referencesOf hother
  obtain ⟨decl, hdecl, hreference⟩ := (mem_links hlinks).mp hother
  have hdeclares := (find?_types hcatalog).mp hdecl
  rcases hreference with ⟨text, hmention, hnames⟩ | ⟨hsup, hdeclared⟩
  · exact .member hneeds hdeclares hmention hnames
  · obtain ⟨above, habove⟩ := NameMap.contains_iff.mp hdeclared
    exact .supertype hneeds hdeclares hsup ((find?_types hcatalog).mp habove)

/-- A search whose budget counts its queue and all references visits what its queue leads to. -/
theorem mem_visitTypes_iff {queue visits : List Visit}
    (h : declarations.visitTypes (queue.length + declarations.referenceCount) [] queue =
      .ok visits) :
    name ∈ visits.map Visit.name ↔
      ∃ start ∈ queue.map Visit.name, Leads declarations.referencesOf start name := by
  rw [(visitTypes_eq_ok h).1, mem_visit_iff (fun _ => referencesOf_undeclared)]
  rw [List.length_map]
  exact Nat.add_le_add_left length_referencesOf_le _

theorem mem_visitTypes_of_mem {queue visits : List Visit}
    (h : declarations.visitTypes (queue.length + declarations.referenceCount) [] queue =
      .ok visits)
    (hname : name ∈ queue.map Visit.name) : name ∈ visits.map Visit.name :=
  (mem_visitTypes_iff h).mpr ⟨name, hname, .refl⟩

/-- The search goes from a declared type that it visited to every type that this one refers to. -/
theorem mem_visitTypes_of_declares {style : LambdaStyle} {other : QualifiedName} {decl : TypeDecl}
    {queue visits : List Visit} (hcatalog : ofCatalog catalog style = .ok declarations)
    (h : declarations.visitTypes (queue.length + declarations.referenceCount) [] queue =
      .ok visits)
    (hname : name ∈ visits.map Visit.name) (hdecl : catalog.Declares name decl)
    (hother : (∃ text, decl.Mentions text ∧ declarations.style.Names text other) ∨
      other.text ∈ decl.supertypes ∧ declarations.types.contains other = true) :
    other ∈ visits.map Visit.name := by
  obtain ⟨start, hstart, hleads⟩ := (mem_visitTypes_iff h).mp hname
  obtain ⟨found, hfound, rfl⟩ := List.mem_map.mp hname
  obtain ⟨next, hnext⟩ := (visitTypes_eq_ok h).2 found hfound
  refine (mem_visitTypes_iff h).mpr ⟨start, hstart, hleads.tail ?_⟩
  rw [referencesOf_eq hnext]
  exact (mem_links hnext).mpr ⟨decl, (find?_types hcatalog).mpr hdecl, hother⟩

theorem contains_of_declares {style : LambdaStyle} {decl : TypeDecl}
    (hcatalog : ofCatalog catalog style = .ok declarations) (hdecl : catalog.Declares name decl) :
    declarations.types.contains name = true :=
  NameMap.contains_iff.mpr ⟨decl, (find?_types hcatalog).mpr hdecl⟩

/-- Whatever the first types of the search lead to is needed. -/
theorem needs_of_leads {style : LambdaStyle} {mentioned : List Visit} {start : QualifiedName}
    (hcatalog : ofCatalog catalog style = .ok declarations)
    (hmentioned : declarations.mentionedByPackages catalog = .ok mentioned)
    (hstart : start ∈ receiver :: mentioned.map Visit.name)
    (hleads : Leads declarations.referencesOf start name) :
    catalog.Needs style receiver name := by
  induction hleads with
  | refl =>
    cases List.mem_cons.mp hstart with
    | inl heq => exact heq ▸ .receiver
    | inr hmem => exact needs_of_mentioned hcatalog hmentioned hmem
  | tail _ hreference ih => exact needs_of_reference hcatalog ih hreference

section Search

variable {style : LambdaStyle} {mentioned visits : List Visit}
  (hcatalog : ofCatalog catalog style = .ok declarations)
  (hmentioned : declarations.mentionedByPackages catalog = .ok mentioned)
  (hvisits : declarations.visitTypes
    ((Visit.mk receiver [] :: mentioned).length + declarations.referenceCount) []
    (⟨receiver, []⟩ :: mentioned) = .ok visits)

include hcatalog hmentioned hvisits

theorem needs_of_visited (hname : name ∈ visits.map Visit.name) :
    catalog.Needs style receiver name := by
  obtain ⟨start, hstart, hleads⟩ := (mem_visitTypes_iff hvisits).mp hname
  exact needs_of_leads hcatalog hmentioned hstart hleads

theorem visited_of_needs (hneeds : catalog.Needs style receiver name) :
    name ∈ visits.map Visit.name := by
  have hroot {name : QualifiedName} (hname : name ∈ mentioned.map Visit.name) :
      name ∈ visits.map Visit.name :=
    mem_visitTypes_of_mem hvisits (List.mem_cons_of_mem _ hname)
  rw [← style_ofCatalog hcatalog] at hneeds
  induction hneeds with
  | receiver => exact mem_visitTypes_of_mem hvisits List.mem_cons_self
  | functionParameter hfunction hparameter hclass =>
    exact hroot ((mem_mentionedByPackages hmentioned).mpr (.inl ⟨_, hfunction, _,
      List.mem_append_left _ (List.mem_map_of_mem hparameter), hclass⟩))
  | functionResult hfunction hreturns hclass =>
    exact hroot ((mem_mentionedByPackages hmentioned).mpr (.inl ⟨_, hfunction, _,
      List.mem_append_right _ (Option.mem_toList.mpr hreturns), hclass⟩))
  | object hobject hclass =>
    exact hroot ((mem_mentionedByPackages hmentioned).mpr (.inr (.inl ⟨_, hobject, hclass⟩)))
  | defaultImport himport hdeclares =>
    exact hroot ((mem_mentionedByPackages hmentioned).mpr
      (.inr (.inr ⟨himport, contains_of_declares hcatalog hdeclares⟩)))
  | member _ hdecl hmention hclass ih =>
    exact mem_visitTypes_of_declares hcatalog hvisits ih hdecl (.inl ⟨_, hmention, hclass⟩)
  | supertype _ hdecl hsup habove ih =>
    exact mem_visitTypes_of_declares hcatalog hvisits ih hdecl
      (.inr ⟨hsup, contains_of_declares hcatalog habove⟩)

end Search

/-- The search finds the needed types, and no type that it finds is undeclared. -/
theorem reachable_eq_ok {style : LambdaStyle} {needed : NameSet}
    (hcatalog : ofCatalog catalog style = .ok declarations)
    (h : declarations.reachable catalog receiver = .ok needed) :
    (∀ name, name ∈ needed ↔ catalog.Needs style receiver name) ∧
      ∀ name ∈ needed, ∃ decl, declarations.types.find? name = some decl := by
  obtain ⟨mentioned, visits, hmentioned, hvisits, rfl, hdeclared⟩ := visits_of_reachable h
  refine ⟨fun name => NameSet.mem_ofList.trans ⟨?_, ?_⟩, fun name hname => ?_⟩
  · exact needs_of_visited hcatalog hmentioned hvisits
  · exact visited_of_needs hcatalog hmentioned hvisits
  · obtain ⟨found, hfound, rfl⟩ := List.mem_map.mp (NameSet.mem_ofList.mp hname)
    exact NameMap.contains_iff.mp (hdeclared found hfound)

end ConfigScript.Declarations
