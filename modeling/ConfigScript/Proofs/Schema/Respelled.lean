import ConfigScript.Proofs.NameMap
import ConfigScript.Proofs.Schema.Built
import ConfigScript.Proofs.Schema.Closed
import ConfigScript.Proofs.Schema.Flattening
import ConfigScript.Proofs.Schema.Spelling

/-!
# Catalogs in another style

The styles of configure lambdas are spellings of one thing. With its blocks spelled in another style
a catalog makes the same schema, which differs in the style that it records and in nothing else.
Most parts of a schema come out the same, faults included, since no part reads a block otherwise
than through the class that the block configures. Only the parameters of a constructor, where no
block may stand, are read as they are spelled, and there both spellings are at fault.
-/

namespace ConfigScript

section Respelling

variable (style other : LambdaStyle)

def ParameterDecl.respell (decl : ParameterDecl) : ParameterDecl :=
  { decl with type := style.respell other decl.type }

def FunctionDecl.respell (decl : FunctionDecl) : FunctionDecl :=
  { decl with parameters := decl.parameters.map (ParameterDecl.respell style other) }

def ConstructorDecl.respell (decl : ConstructorDecl) : ConstructorDecl :=
  { decl with parameters := decl.parameters.map (ParameterDecl.respell style other) }

def TypeDecl.respell (decl : TypeDecl) : TypeDecl :=
  { decl with
    functions := decl.functions.map (FunctionDecl.respell style other)
    constructors := decl.constructors.map (ConstructorDecl.respell style other) }

def PackageFunctionDecl.respell (decl : PackageFunctionDecl) : PackageFunctionDecl :=
  { decl with parameters := decl.parameters.map (ParameterDecl.respell style other) }

/-- The catalog with every block that a parameter takes spelled in the other style. -/
def Catalog.respell (catalog : Catalog) : Catalog :=
  { catalog with
    types := catalog.types.map (TypeDecl.respell style other)
    functions := catalog.functions.map (PackageFunctionDecl.respell style other) }

end Respelling

/-- Parameters that are typed with types or with blocks of one style. -/
def LambdaStyle.SpellsAll (style : LambdaStyle) (parameters : List ParameterDecl) : Prop :=
  ∀ parameter ∈ parameters, style.Spells parameter.type

instance (style : LambdaStyle) (parameters : List ParameterDecl) :
    Decidable (style.SpellsAll parameters) :=
  inferInstanceAs (Decidable (∀ parameter ∈ parameters, style.Spells parameter.type))

/-- A declared type all of whose type texts read as types or, on parameters, spell blocks. -/
@[mk_iff]
structure TypeDecl.SpelledIn (style : LambdaStyle) (decl : TypeDecl) : Prop where
  properties : ∀ property ∈ decl.properties, TypeRef.Reads property.type
  parameters : ∀ function ∈ decl.functions, style.SpellsAll function.parameters
  returns : ∀ function ∈ decl.functions, ∀ text ∈ function.returns, TypeRef.Reads text
  constructors : ∀ constructor ∈ decl.constructors, style.SpellsAll constructor.parameters

instance (style : LambdaStyle) (decl : TypeDecl) : Decidable (decl.SpelledIn style) :=
  decidable_of_iff _ (decl.spelledIn_iff style).symm

/-- A catalog all of whose type texts read as types or, on parameters, spell blocks. -/
@[mk_iff]
structure Catalog.SpelledIn (style : LambdaStyle) (catalog : Catalog) : Prop where
  types : ∀ decl ∈ catalog.types, decl.SpelledIn style
  parameters : ∀ function ∈ catalog.functions, style.SpellsAll function.parameters
  returns : ∀ function ∈ catalog.functions, ∀ text ∈ function.returns, TypeRef.Reads text
  objects : ∀ object ∈ catalog.objects, TypeRef.Reads object.type

instance (style : LambdaStyle) (catalog : Catalog) : Decidable (catalog.SpelledIn style) :=
  decidable_of_iff _ (catalog.spelledIn_iff style).symm

section Texts

variable {style other : LambdaStyle}

/-- What a type mentions, in the other spelling. -/
theorem TypeDecl.mentions_respell {decl : TypeDecl} (h : decl.SpelledIn style) :
    (decl.respell style other).mentions =
      decl.mentions.map fun mention => (mention.1, style.respell other mention.2) := by
  have hproperties : decl.properties.map (fun property =>
      (property.name, style.respell other property.type)) =
        decl.properties.map fun property => (property.name, property.type) := by
    apply List.map_congr_left
    intro property hproperty
    rw [LambdaStyle.respell_of_reads (h.properties property hproperty)]
  have hfunctions : decl.functions.flatMap (fun function =>
      function.parameters.map (fun parameter =>
        (function.name, style.respell other parameter.type)) ++
          function.returns.toList.map fun text => (function.name, style.respell other text)) =
        decl.functions.flatMap fun function =>
          function.parameters.map (fun parameter =>
            (function.name, style.respell other parameter.type)) ++
              function.returns.toList.map fun text => (function.name, text) := by
    apply List.flatMap_congr
    intro function hfunction
    congr 1
    apply List.map_congr_left
    intro text htext
    rw [LambdaStyle.respell_of_reads
      (h.returns function hfunction text (Option.mem_toList.mp htext))]
  simp only [mentions, respell, FunctionDecl.respell, ConstructorDecl.respell,
    ParameterDecl.respell, List.map_append, List.map_flatMap, List.flatMap_map, List.map_map,
    Function.comp_def, hproperties, hfunctions]

theorem TypeDecl.spells_of_mem_mentions {decl : TypeDecl} (h : decl.SpelledIn style)
    {mention : String × String} (hmention : mention ∈ decl.mentions) :
    style.Spells mention.2 := by
  simp only [mentions, List.mem_append, List.mem_flatMap, List.mem_map, Option.mem_toList]
    at hmention
  rcases hmention with (⟨property, hproperty, rfl⟩ | ⟨function, hfunction, hplace⟩) |
    ⟨constructor, hconstructor, parameter, hparameter, rfl⟩
  · exact .type (h.properties property hproperty)
  · rcases hplace with ⟨parameter, hparameter, rfl⟩ | ⟨text, htext, rfl⟩
    · exact h.parameters function hfunction parameter hparameter
    · exact .type (h.returns function hfunction text htext)
  · exact h.constructors constructor hconstructor parameter hparameter

/-- Two functions have the same signature in one spelling exactly when they do in the other. -/
theorem FunctionDecl.signature_respell_beq {first second : FunctionDecl}
    (hfirst : style.SpellsAll first.parameters) (hsecond : style.SpellsAll second.parameters) :
    ((first.respell style other).signature == (second.respell style other).signature) =
      (first.signature == second.signature) := by
  have htypes : ∀ parameters others : List ParameterDecl,
      style.SpellsAll parameters → style.SpellsAll others →
        (parameters.map (fun parameter => style.respell other parameter.type) =
          others.map (fun parameter => style.respell other parameter.type) ↔
            parameters.map (·.type) = others.map (·.type)) := by
    intro parameters others hparameters hothers
    induction parameters generalizing others with
    | nil => cases others <;> simp
    | cons parameter parameters ih =>
      cases others with
      | nil => simp
      | cons another others =>
        obtain ⟨hparameter, hparameters⟩ := List.forall_mem_cons.mp hparameters
        obtain ⟨hanother, hothers⟩ := List.forall_mem_cons.mp hothers
        have hhead : style.respell other parameter.type = style.respell other another.type ↔
            parameter.type = another.type :=
          ⟨LambdaStyle.eq_of_respell_eq hparameter hanother, congrArg _⟩
        simp only [List.map_cons, List.cons.injEq, hhead, ih others hparameters hothers]
  rw [Bool.eq_iff_iff, beq_iff_eq, beq_iff_eq]
  simp only [signature, respell, ParameterDecl.respell, List.map_map, Function.comp_def,
    Prod.mk.injEq, htypes _ _ hfirst hsecond]

end Texts

/-- Removing duplicates commutes with a change that keeps apart what is not alike. -/
theorem eraseDupsBy_map {α β : Type} {same : α → α → Bool} {alike : β → β → Bool}
    {change : α → β} {values : List α}
    (h : ∀ first ∈ values, ∀ second ∈ values,
      alike (change first) (change second) = same first second) :
    (values.map change).eraseDupsBy alike = (values.eraseDupsBy same).map change := by
  induction values using eraseDupsBy_induction same with
  | nil => rfl
  | cons first rest ih =>
    have hrest : (rest.map change).filter (fun later => decide (alike later (change first) = false))
        = (rest.filter fun later => decide (same later first = false)).map change := by
      rw [List.filter_map]
      congr 1
      apply List.filter_congr
      intro later hlater
      rw [Function.comp_apply, h later (List.mem_cons_of_mem _ hlater) first List.mem_cons_self]
    rw [List.map_cons, List.eraseDupsBy_cons, List.eraseDupsBy_cons, List.map_cons, hrest, ih]
    intro second hsecond third hthird
    exact h second (List.mem_cons_of_mem _ (List.mem_filter.mp hsecond).1)
      third (List.mem_cons_of_mem _ (List.mem_filter.mp hthird).1)

namespace Declarations

/-- The declared types in the spelling of another style, to be read in that style. -/
def respell (declarations : Declarations) (other : LambdaStyle) : Declarations :=
  ⟨declarations.types.mapValues (TypeDecl.respell declarations.style other), other⟩

def Spelled (declarations : Declarations) : Prop :=
  ∀ name decl, declarations.types.find? name = some decl → decl.SpelledIn declarations.style

theorem Spelled.parameters_of_mem_lineage {declarations : Declarations}
    (h : declarations.Spelled) {owner : QualifiedName} {function : FunctionDecl}
    (hfunction : function ∈ (declarations.lineage owner).flatMap (·.2.functions)) :
    declarations.style.SpellsAll function.parameters := by
  obtain ⟨⟨above, decl⟩, habove, hfunction⟩ := List.mem_flatMap.mp hfunction
  obtain ⟨-, hdecl⟩ := mem_lineage_iff.mp habove
  exact (h above decl hdecl).parameters function hfunction

section Index

variable {style other : LambdaStyle}

theorem addType_respell (index : NameMap TypeDecl) (decl : TypeDecl) :
    addType (index.mapValues (TypeDecl.respell style other)) (decl.respell style other) =
      (addType index decl).map (NameMap.mapValues (TypeDecl.respell style other)) := by
  simp only [addType, NameMap.contains_mapValues, TypeDecl.respell]
  cases buildName (QualifiedName.parse decl.name) with
  | error fault => rfl
  | ok name =>
    simp only [bind, Except.bind]
    split
    · rfl
    · simp only [pure, Except.pure, Except.map, NameMap.mapValues_insert, TypeDecl.respell]

theorem foldlM_addType_respell (types : List TypeDecl) (index : NameMap TypeDecl) :
    (types.map (TypeDecl.respell style other)).foldlM addType
        (index.mapValues (TypeDecl.respell style other)) =
      (types.foldlM addType index).map (NameMap.mapValues (TypeDecl.respell style other)) := by
  induction types generalizing index with
  | nil => rfl
  | cons decl types ih =>
    rw [List.map_cons, List.foldlM_cons, List.foldlM_cons, addType_respell]
    cases addType index decl with
    | error fault => rfl
    | ok inserted => exact ih inserted

/-- The types of a catalog are indexed alike in every spelling. -/
theorem ofCatalog_respell (catalog : Catalog) (style other : LambdaStyle) :
    ofCatalog (catalog.respell style other) other =
      (·.respell other) <$> ofCatalog catalog style := by
  have hindex : indexTypes (catalog.respell style other).types =
      (indexTypes catalog.types).map (NameMap.mapValues (TypeDecl.respell style other)) :=
    foldlM_addType_respell catalog.types .empty
  rw [ofCatalog, ofCatalog, hindex]
  cases indexTypes catalog.types with
  | error fault => rfl
  | ok index => rfl

theorem spelled_ofCatalog {catalog : Catalog} {declarations : Declarations}
    (hspelled : catalog.SpelledIn style)
    (hcatalog : ofCatalog catalog style = .ok declarations) : declarations.Spelled := by
  intro name decl hdecl
  rw [style_ofCatalog hcatalog]
  exact hspelled.types decl ((find?_types hcatalog).mp hdecl).1

end Index

section Lineages

variable {declarations : Declarations} {other : LambdaStyle}

theorem find?_respell (name : QualifiedName) : (declarations.respell other).types.find? name =
    (declarations.types.find? name).map (TypeDecl.respell declarations.style other) :=
  NameMap.find?_mapValues

theorem contains_respell (name : QualifiedName) :
    (declarations.respell other).types.contains name = declarations.types.contains name :=
  NameMap.contains_mapValues

theorem values_respell : (declarations.respell other).types.values =
    declarations.types.values.map (TypeDecl.respell declarations.style other) :=
  NameMap.values_mapValues

theorem supertypesOf_respell :
    (declarations.respell other).supertypesOf = declarations.supertypesOf := by
  funext name
  rw [supertypesOf, supertypesOf, find?_respell]
  cases declarations.types.find? name with
  | none => rfl
  | some decl => rfl

theorem supertypeCount_respell :
    (declarations.respell other).supertypeCount = declarations.supertypeCount := by
  rw [supertypeCount, supertypeCount, values_respell, List.flatMap_map]
  rfl

/-- The same types stand above a type, in the other spelling. -/
theorem lineage_respell (name : QualifiedName) : (declarations.respell other).lineage name =
    (declarations.lineage name).map fun entry =>
      (entry.1, entry.2.respell declarations.style other) := by
  rw [lineage, lineage, supertypesOf_respell, supertypeCount_respell, List.map_filterMap]
  apply List.filterMap_congr
  intro above _
  rw [find?_respell]
  cases declarations.types.find? above with
  | none => rfl
  | some decl => rfl

theorem property?_respell (owner : QualifiedName) (name : String) :
    (declarations.respell other).property? owner name = declarations.property? owner name := by
  rw [property?, property?, lineage_respell, List.findSome?_map]
  rfl

end Lineages

section Parts

variable {declarations : Declarations} (other : LambdaStyle)

/-- The block is split off alike, and what stands before it is no block in either spelling. -/
theorem splitBlock_respell (function : String) {parameters : List ParameterDecl}
    (h : declarations.style.SpellsAll parameters) :
    (declarations.respell other).splitBlock function
        (parameters.map (ParameterDecl.respell declarations.style other)) =
      declarations.splitBlock function parameters := by
  induction parameters with
  | nil => rfl
  | cons parameter parameters ih =>
    obtain ⟨hparameter, hparameters⟩ := List.forall_mem_cons.mp h
    have hblock : (declarations.respell other).style.configuredType?
        (parameter.respell declarations.style other).type =
          declarations.style.configuredType? parameter.type :=
      LambdaStyle.configuredType?_respell hparameter
    rw [List.map_cons, splitBlock, splitBlock, hblock, ih hparameters]
    cases hnone : declarations.style.configuredType? parameter.type with
    | some text => simp only [List.isEmpty_map]
    | none =>
      have hsame : parameter.respell declarations.style other = parameter := by
        rw [ParameterDecl.respell, LambdaStyle.respell_of_none hnone]
      simp only [hsame]

theorem parameter_respell (function : String) (target : Option QualifiedName) :
    (declarations.respell other).parameter function target =
      declarations.parameter function target := by
  funext decl
  simp only [parameter, property?_respell]

theorem semantics_respell (owner : QualifiedName) (function : String) (decl : FunctionDecl)
    (configured returns : Option TypeRef) :
    (declarations.respell other).semantics owner function
        (decl.respell declarations.style other) configured returns =
      declarations.semantics owner function decl configured returns := by
  simp only [semantics, property?_respell, lineage_respell, List.any_map, FunctionDecl.respell,
    Function.comp_def]

theorem memberFunction_respell (owner : QualifiedName) {decl : FunctionDecl}
    (h : declarations.style.SpellsAll decl.parameters) :
    (declarations.respell other).memberFunction owner (decl.respell declarations.style other) =
      declarations.memberFunction owner decl := by
  simp only [memberFunction, semantics_respell, parameter_respell]
  simp only [FunctionDecl.respell, splitBlock_respell other _ h]

/-- A block where a value must stand is at fault in either spelling. -/
theorem toOption_parameter_respell (function : String) (target : Option QualifiedName)
    {decl : ParameterDecl} (h : declarations.style.Spells decl.type) :
    (declarations.parameter function target (decl.respell declarations.style other)).toOption =
      (declarations.parameter function target decl).toOption := by
  refine Fallible.toOption_bind_congr ?_ fun _ _ => rfl
  rw [toOption_buildName, toOption_buildName, ParameterDecl.respell,
    LambdaStyle.toOption_parse_respell h]

theorem toOption_constructor_respell (owner : QualifiedName) {decl : ConstructorDecl}
    (h : declarations.style.SpellsAll decl.parameters) :
    ((declarations.respell other).constructor owner
        (decl.respell declarations.style other)).toOption =
      (declarations.constructor owner decl).toOption := by
  rw [constructor, constructor, parameter_respell, ConstructorDecl.respell, List.mapM_map]
  refine Fallible.toOption_bind_congr ?_ fun _ _ => rfl
  apply Fallible.toOption_mapM_congr
  intro parameter hparameter
  exact toOption_parameter_respell other _ _ (h parameter hparameter)

theorem externalFunction_respell {decl : PackageFunctionDecl}
    (h : declarations.style.SpellsAll decl.parameters) :
    (declarations.respell other).externalFunction (decl.respell declarations.style other) =
      declarations.externalFunction decl := by
  simp only [externalFunction, PackageFunctionDecl.respell, parameter_respell,
    splitBlock_respell other _ h]

theorem functions_of_lineage_respell (hspelled : declarations.Spelled) (owner : QualifiedName) :
    (((declarations.respell other).lineage owner).flatMap (·.2.functions)).eraseDupsBy
        (·.signature == ·.signature) =
      (((declarations.lineage owner).flatMap (·.2.functions)).eraseDupsBy
        (·.signature == ·.signature)).map (FunctionDecl.respell declarations.style other) := by
  have hmap : ((declarations.respell other).lineage owner).flatMap (·.2.functions) =
      ((declarations.lineage owner).flatMap (·.2.functions)).map
        (FunctionDecl.respell declarations.style other) := by
    rw [lineage_respell, List.flatMap_map, List.map_flatMap]
    rfl
  rw [hmap]
  apply eraseDupsBy_map
  intro first hfirst second hsecond
  exact FunctionDecl.signature_respell_beq (hspelled.parameters_of_mem_lineage hfirst)
    (hspelled.parameters_of_mem_lineage hsecond)

/-- A class comes out the same, or not at all, in both spellings. -/
theorem toOption_dataClass_respell (hspelled : declarations.Spelled) (owner : QualifiedName)
    {decl : TypeDecl} (hdecl : decl.SpelledIn declarations.style) :
    ((declarations.respell other).dataClass owner
        (decl.respell declarations.style other)).toOption =
      (declarations.dataClass owner decl).toOption := by
  have hproperties : ((declarations.respell other).lineage owner).flatMap (·.2.properties) =
      (declarations.lineage owner).flatMap (·.2.properties) := by
    rw [lineage_respell, List.flatMap_map]
    rfl
  have hfunctions : (((declarations.lineage owner).flatMap (·.2.functions)).eraseDupsBy
      (·.signature == ·.signature)).mapM
        ((declarations.respell other).memberFunction owner ∘
          FunctionDecl.respell declarations.style other) =
      (((declarations.lineage owner).flatMap (·.2.functions)).eraseDupsBy
        (·.signature == ·.signature)).mapM (declarations.memberFunction owner) := by
    apply Fallible.mapM_congr
    intro function hfunction
    exact memberFunction_respell other owner
      (hspelled.parameters_of_mem_lineage (mem_of_mem_eraseDupsBy hfunction))
  have hsupertypes : ((declarations.respell other).supertypesOf owner).filter
      (declarations.respell other).types.contains =
        (declarations.supertypesOf owner).filter declarations.types.contains := by
    rw [supertypesOf_respell]
    exact List.filter_congr fun name _ => contains_respell name
  simp only [dataClass, hproperties, functions_of_lineage_respell other hspelled, List.mapM_map,
    hfunctions, hsupertypes]
  refine Fallible.toOption_bind_congr rfl fun properties _ => ?_
  refine Fallible.toOption_bind_congr rfl fun functions _ => ?_
  refine Fallible.toOption_bind_congr ?_ fun _ _ => rfl
  rw [TypeDecl.respell, List.mapM_map]
  apply Fallible.toOption_mapM_congr
  intro constructor hconstructor
  exact toOption_constructor_respell other owner (hdecl.constructors constructor hconstructor)

end Parts

section Search

variable {declarations : Declarations} (other : LambdaStyle)

/-- A text names the same class in both spellings. -/
theorem className?_respell {style : LambdaStyle} {text : String} (h : style.Spells text) :
    className? other (style.respell other text) = className? style text := by
  rw [className?, className?, LambdaStyle.configuredType?_respell h]
  cases hblock : style.configuredType? text with
  | some configured => rfl
  | none => rw [LambdaStyle.respell_of_none hblock]

theorem filterMapM_className?_respell {style : LambdaStyle} {parameters : List ParameterDecl}
    {returns : Option String} (hparameters : style.SpellsAll parameters)
    (hreturns : ∀ text ∈ returns, TypeRef.Reads text) :
    ((parameters.map (ParameterDecl.respell style other)).map (·.type) ++
        returns.toList).filterMapM (className? other) =
      (parameters.map (·.type) ++ returns.toList).filterMapM (className? style) := by
  have hreturned : returns.toList.map (style.respell other) = returns.toList := by
    rw [List.map_congr_left fun text htext =>
      LambdaStyle.respell_of_reads (hreturns text (Option.mem_toList.mp htext)), List.map_id']
  have htexts : (parameters.map (ParameterDecl.respell style other)).map (·.type) ++
      returns.toList = (parameters.map (·.type) ++ returns.toList).map (style.respell other) := by
    rw [List.map_append, hreturned, List.map_map, List.map_map]
    rfl
  rw [htexts, Fallible.filterMapM_map]
  apply Fallible.filterMapM_congr
  intro text htext
  apply className?_respell
  cases List.mem_append.mp htext with
  | inl hparameter =>
    obtain ⟨parameter, hmem, rfl⟩ := List.mem_map.mp hparameter
    exact hparameters parameter hmem
  | inr hreturn => exact .type (hreturns text (Option.mem_toList.mp hreturn))

theorem references_respell (name : QualifiedName) {decl : TypeDecl}
    (h : decl.SpelledIn declarations.style) :
    (declarations.respell other).references name (decl.respell declarations.style other) =
      declarations.references name decl := by
  simp only [references, contains_respell, TypeDecl.mentions_respell h, Fallible.filterMapM_map]
  refine Fallible.bind_congr_of_eq ?_ fun _ _ => rfl
  apply Fallible.filterMapM_congr
  intro mention hmention
  simp only [Function.comp_apply, respell,
    className?_respell other (TypeDecl.spells_of_mem_mentions h hmention)]

theorem referenceCount_respell (hspelled : declarations.Spelled) :
    (declarations.respell other).referenceCount = declarations.referenceCount := by
  rw [referenceCount, referenceCount, values_respell, List.flatMap_map, List.length_flatMap,
    List.length_flatMap]
  congr 1
  apply List.map_congr_left
  intro decl hdecl
  obtain ⟨name, hname⟩ := NameMap.mem_values_iff.mp hdecl
  rw [TypeDecl.mentions_respell (hspelled name decl hname)]
  simp [TypeDecl.respell]

theorem visitTypes_respell (hspelled : declarations.Spelled) (budget : Nat)
    (seen : List QualifiedName) (queue : List Visit) :
    (declarations.respell other).visitTypes budget seen queue =
      declarations.visitTypes budget seen queue := by
  induction budget generalizing seen queue with
  | zero => rfl
  | succ budget ih =>
    cases queue with
    | nil => rfl
    | cons first queue =>
      simp only [visitTypes, ih, find?_respell]
      cases hdecl : declarations.types.find? first.name with
      | none => rfl
      | some decl =>
        simp only [Option.map_some, references_respell other first.name (hspelled _ _ hdecl)]

theorem mentionedByPackages_respell {catalog : Catalog}
    (h : catalog.SpelledIn declarations.style) :
    (declarations.respell other).mentionedByPackages
        (catalog.respell declarations.style other) =
      declarations.mentionedByPackages catalog := by
  simp only [mentionedByPackages, Catalog.respell, contains_respell, Fallible.flatMapM_map]
  refine Fallible.bind_congr_of_eq ?_ fun functions _ => ?_
  · apply Fallible.flatMapM_congr
    intro function hfunction
    simp only [Function.comp_apply, PackageFunctionDecl.respell, respell]
    rw [filterMapM_className?_respell other (h.parameters function hfunction)
      (h.returns function hfunction)]
  · refine Fallible.bind_congr_of_eq ?_ fun _ _ => rfl
    apply Fallible.filterMapM_congr
    intro object hobject
    have hreads := h.objects object hobject
    have hclass := className?_respell other (.type hreads : declarations.style.Spells _)
    rw [LambdaStyle.respell_of_reads hreads] at hclass
    simp only [respell, hclass]

theorem reachable_respell {catalog : Catalog} (h : catalog.SpelledIn declarations.style)
    (hspelled : declarations.Spelled) (receiver : QualifiedName) :
    (declarations.respell other).reachable (catalog.respell declarations.style other) receiver =
      declarations.reachable catalog receiver := by
  simp only [reachable, mentionedByPackages_respell other h, visitTypes_respell other hspelled,
    referenceCount_respell other hspelled, contains_respell]

theorem toOption_namedClass_respell (hspelled : declarations.Spelled) (name : QualifiedName) :
    ((declarations.respell other).namedClass name).toOption =
      (declarations.namedClass name).toOption := by
  rw [namedClass, namedClass, find?_respell]
  cases hdecl : declarations.types.find? name with
  | none => rfl
  | some decl =>
    exact Fallible.toOption_bind_congr
      (toOption_dataClass_respell other hspelled name (hspelled name decl hdecl)) fun _ _ => rfl

end Search

end Declarations

namespace Schema

variable {catalog : Catalog} {style : LambdaStyle}

/-- A catalog and the same catalog in the spelling of another style make the same schema for every
receiver, but for the style that it records, or neither makes one. -/
theorem build_respell (h : catalog.SpelledIn style) (other : LambdaStyle) (receiver : String) :
    (build (catalog.respell style other) other receiver).toOption =
      (build catalog style receiver).toOption.map fun schema =>
        { schema with lambdaStyle := other } := by
  rw [← Fallible.toOption_map, ← bind_pure_comp]
  simp only [build, Declarations.ofCatalog_respell, bind_map_left, bind_assoc, pure_bind]
  refine Fallible.toOption_bind_congr rfl fun root _ => ?_
  refine Fallible.toOption_bind_congr rfl fun declarations hcatalog => ?_
  have hspelled := Declarations.spelled_ofCatalog h hcatalog
  obtain rfl := Declarations.style_ofCatalog hcatalog
  rw [Declarations.reachable_respell other h hspelled]
  refine Fallible.toOption_bind_congr rfl fun needed _ => ?_
  refine Fallible.toOption_bind_congr ?_ fun classes _ => ?_
  · apply Fallible.toOption_filterMapM_congr
    intro name _
    exact Declarations.toOption_namedClass_respell other hspelled name
  · have hfunctions :
        (catalog.respell declarations.style other).functions.mapM
            (declarations.respell other).externalFunction =
          catalog.functions.mapM declarations.externalFunction := by
      rw [Catalog.respell, List.mapM_map]
      apply Fallible.mapM_congr
      intro function hfunction
      exact Declarations.externalFunction_respell other (h.parameters function hfunction)
    rw [hfunctions]
    refine Fallible.toOption_bind_congr rfl fun functions _ => ?_
    refine Fallible.toOption_bind_congr rfl fun objects _ => ?_
    exact Fallible.toOption_bind_congr rfl fun imports _ => rfl

/-- The block of `Left` is read in both of its spellings, and the schemas of `Right` differ in the
style only. -/
theorem build_respell_mutual :
    ∃ schema, build mutualCatalog .receiverFunction "Right" = .ok schema ∧
      mutualCatalog.respell .receiverFunction .actionInterface ≠ mutualCatalog ∧
      build (mutualCatalog.respell .receiverFunction .actionInterface) .actionInterface "Right" =
        .ok { schema with lambdaStyle := .actionInterface } := by
  have hrespelled : mutualCatalog.SpelledIn .receiverFunction := by decide
  have hsame := build_respell hrespelled .actionInterface "Right"
  have hok : (build mutualCatalog .receiverFunction "Right").isOk = true := by decide
  cases hbuild : build mutualCatalog .receiverFunction "Right" with
  | error fault => simp [hbuild, Except.isOk, Except.toBool] at hok
  | ok schema =>
    rw [hbuild] at hsame
    exact ⟨schema, rfl, by decide, Fallible.toOption_eq_some.mp hsame⟩

end Schema

end ConfigScript
