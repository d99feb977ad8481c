import ConfigScript.Proofs.Resolution.Chosen
import ConfigScript.Proofs.Schema.Blanks
import ConfigScript.Proofs.Schema.Lineage

/-!
# Redeclared functions

Calls tell the functions of a class apart by the types that their parameters were read as, but a
class keeps one function for every way in which the types are spelled. A function that a type
declares anew hence takes the place of an inherited one just when both are spelled alike; where two
spellings have the same meaning the class has both functions, and no call tells them apart. Such
spellings differ in their blanks only.
-/

namespace ConfigScript

/-- What calls tell functions apart by: the name, the types of the values, and the type that the
block configures. -/
structure CallForm where
  name : String
  types : List TypeRef
  configured : Option TypeRef
deriving DecidableEq

def MemberFunction.form (function : MemberFunction) : CallForm :=
  ⟨function.name, function.parameters.map Parameter.type, function.semantics.configuredType?⟩

def Candidate.form (candidate : Candidate) : CallForm :=
  ⟨candidate.callee.simpleName, candidate.parameters.map Parameter.type,
    candidate.semantics.configuredType?⟩

/-- What a signature means: its last text may be that of a block, the others are those of values. -/
def CallForm.spelled? (style : LambdaStyle) : String × List String → Option CallForm
  | (name, texts) =>
    match texts.getLast?.bind style.configuredType? with
    | none => do return ⟨name, ← (texts.mapM TypeRef.parse).toOption, none⟩
    | some block => do
      let types ← (texts.dropLast.mapM TypeRef.parse).toOption
      return ⟨name, types, some (← (TypeRef.parse block).toOption)⟩

/-- The texts that a form is spelled with when nobody adds a blank. -/
def CallForm.texts (style : LambdaStyle) (form : CallForm) : List String :=
  form.types.map toString ++ (form.configured.map fun type => style.spell (toString type)).toList

/-- A name with texts, the blanks of the texts apart. -/
def bareSignature (signature : String × List String) : String × List (List Char) :=
  (signature.1, signature.2.map fun text => Text.bare text.toList)

section Spelled

variable {style : LambdaStyle} {name : String} {texts : List String} {types : List TypeRef}

theorem CallForm.spelled?_values (hvalues : ∀ text ∈ texts, style.configuredType? text = none)
    (htypes : texts.mapM TypeRef.parse = .ok types) :
    spelled? style (name, texts) = some ⟨name, types, none⟩ := by
  have hlast : texts.getLast?.bind style.configuredType? = none :=
    Option.bind_eq_none_iff.mpr fun text htext => hvalues text (List.mem_of_getLast? htext)
  rw [spelled?, hlast, htypes]
  rfl

theorem CallForm.spelled?_block {block configured : String} {type : TypeRef}
    (hblock : style.configuredType? block = some configured)
    (htype : TypeRef.parse configured = .ok type) (htypes : texts.mapM TypeRef.parse = .ok types) :
    spelled? style (name, texts ++ [block]) = some ⟨name, types, some type⟩ := by
  have hlast : (texts ++ [block]).getLast?.bind style.configuredType? = some configured := by
    rw [List.getLast?_concat, Option.bind_some, hblock]
  rw [spelled?, hlast]
  dsimp only
  rw [List.dropLast_concat, htypes, htype]
  rfl

theorem bare_of_mapM_parse {values : List String} (h : values.mapM TypeRef.parse = .ok types) :
    values.map (fun text => Text.bare text.toList) =
      (types.map toString).map fun text => Text.bare text.toList := by
  rw [List.map_map]
  exact (Fallible.map_of_mapM_eq_ok (fun _ _ hparse => (TypeRef.bare_of_parse hparse).symm) h).symm

/-- Whatever spells a form is the spelling of the form, but for blanks. -/
theorem CallForm.bareSignature_of_spelled? {form : CallForm}
    (h : spelled? style (name, texts) = some form) :
    bareSignature (name, texts) = bareSignature (form.name, form.texts style) := by
  unfold spelled? at h
  dsimp only at h
  split at h
  case h_1 =>
    obtain ⟨types, htypes, hform⟩ := Option.bind_eq_some_iff.mp h
    obtain rfl := Option.some.inj hform
    have hbare := bare_of_mapM_parse (Fallible.toOption_eq_some.mp htypes)
    simp only [bareSignature, CallForm.texts, hbare, Option.map_none, Option.toList_none,
      List.append_nil]
  case h_2 block hblock =>
    obtain ⟨text, hlast, hconfigured⟩ := Option.bind_eq_some_iff.mp hblock
    obtain ⟨types, htypes, hrest⟩ := Option.bind_eq_some_iff.mp h
    obtain ⟨type, htype, hform⟩ := Option.bind_eq_some_iff.mp hrest
    obtain rfl := Option.some.inj hform
    have hvalues := bare_of_mapM_parse (Fallible.toOption_eq_some.mp htypes)
    have htext : Text.bare text.toList = Text.bare (style.spell (toString type)).toList := by
      rw [LambdaStyle.bare_of_configuredType? hconfigured]
      exact LambdaStyle.bare_spell (TypeRef.bare_of_parse (Fallible.toOption_eq_some.mp htype))
    rw [← List.dropLast_append_getLast? text hlast]
    simp only [bareSignature, CallForm.texts, List.map_append, hvalues, Option.map_some,
      Option.toList_some, List.map_cons, List.map_nil, htext]

end Spelled

/-- The functions of a type of the catalog and of all types above it, as they are declared. -/
def Catalog.Inherits (catalog : Catalog) (name : QualifiedName) (own : FunctionDecl) : Prop :=
  ∃ above decl, Leads catalog.supertypesOf name above ∧ catalog.Declares above decl ∧
    own ∈ decl.functions

/-- Functions above a type that mean the same are spelled the same. -/
def Catalog.SpellsAlike (catalog : Catalog) (style : LambdaStyle) (name : QualifiedName) : Prop :=
  ∀ own other, catalog.Inherits name own → catalog.Inherits name other →
    CallForm.spelled? style own.signature = CallForm.spelled? style other.signature →
      own.signature = other.signature

namespace Declarations

variable {catalog : Catalog} {style : LambdaStyle} {declarations : Declarations}
  {owner : QualifiedName} {decl : TypeDecl} {dataClass : DataClass}

/-- A function is called by what its signature means. -/
theorem spelled?_of_memberFunction {own : FunctionDecl} {built : MemberFunction}
    (h : declarations.memberFunction owner own = .ok built) :
    CallForm.spelled? declarations.style own.signature = some built.form := by
  obtain ⟨-, hname, _, values, configured, _, hsplit, -, hprotocol, hparameters⟩ :=
    memberFunction_cases h
  have hconfigured := configuredType?_of_semantics hprotocol
  have htypes := parameterTypes_eq_ok hparameters
  rw [FunctionDecl.signature, ← hname]
  obtain ⟨hvalues, ⟨rfl, heq⟩ | ⟨block, text, type, heq, htext, hparse, rfl⟩⟩ :=
    splitBlock_cases hsplit
  · rw [MemberFunction.form, hconfigured, heq]
    exact CallForm.spelled?_values (List.forall_mem_map.mpr hvalues) htypes
  · rw [MemberFunction.form, hconfigured, heq, List.map_append]
    exact CallForm.spelled?_block htext hparse htypes

theorem mem_lineage_iff_inherits (h : ofCatalog catalog style = .ok declarations)
    (howner : declarations.types.contains owner = true) {own : FunctionDecl} :
    own ∈ (declarations.lineage owner).flatMap (·.2.functions) ↔ catalog.Inherits owner own := by
  rw [List.mem_flatMap]
  constructor
  · rintro ⟨⟨above, decl⟩, hmem, hown⟩
    obtain ⟨hleads, hfind⟩ := mem_lineage_iff.mp hmem
    exact ⟨above, decl, (leads_catalog_iff h howner).mpr
      ⟨hleads, NameMap.contains_iff.mpr ⟨decl, hfind⟩⟩, (find?_types h).mp hfind, hown⟩
  · rintro ⟨above, decl, hleads, hdeclares, hown⟩
    exact ⟨(above, decl), mem_lineage_iff.mpr
      ⟨((leads_catalog_iff h howner).mp hleads).1, (find?_types h).mpr hdeclares⟩, hown⟩

/-- The forms of the functions of a class, one for each signature that is inherited. -/
theorem Materialised.forms_eq (h : ofCatalog catalog style = .ok declarations)
    (howner : declarations.types.contains owner = true)
    (hmade : declarations.Materialised owner decl dataClass) :
    ∃ signatures : List (String × List String), signatures.Nodup ∧
      (∀ signature, signature ∈ signatures ↔
        ∃ own, catalog.Inherits owner own ∧ own.signature = signature) ∧
      dataClass.functions.map (some ∘ MemberFunction.form) =
        signatures.map (CallForm.spelled? style) := by
  have hkept := firsts_eraseDupsBy FunctionDecl.signature
    ((declarations.lineage owner).flatMap (·.2.functions))
  refine ⟨_, hkept.nodup_keys, fun signature => ?_, ?_⟩
  · rw [hkept.mem_keys_iff, List.mem_map]
    simp only [mem_lineage_iff_inherits h howner]
  · rw [List.map_map, ← style_ofCatalog h]
    exact Fallible.map_of_mapM_eq_ok
      (fun own built hbuilt => (spelled?_of_memberFunction hbuilt).symm) hmade.functions

/-- The class has a function of the meaning of each function above it. -/
theorem Materialised.exists_form (h : ofCatalog catalog style = .ok declarations)
    (howner : declarations.types.contains owner = true)
    (hmade : declarations.Materialised owner decl dataClass) {own : FunctionDecl}
    (hown : catalog.Inherits owner own) :
    ∃ function ∈ dataClass.functions,
      CallForm.spelled? style own.signature = some function.form := by
  obtain ⟨signatures, -, hmem, hforms⟩ := hmade.forms_eq h howner
  have hform : CallForm.spelled? style own.signature ∈
      dataClass.functions.map (some ∘ MemberFunction.form) := by
    rw [hforms]
    exact List.mem_map_of_mem ((hmem _).mpr ⟨own, hown, rfl⟩)
  obtain ⟨function, hfunction, hsame⟩ := List.mem_map.mp hform
  exact ⟨function, hfunction, hsame.symm⟩

theorem Materialised.nodup_forms_iff (h : ofCatalog catalog style = .ok declarations)
    (howner : declarations.types.contains owner = true)
    (hmade : declarations.Materialised owner decl dataClass) :
    (dataClass.functions.map MemberFunction.form).Nodup ↔ catalog.SpellsAlike style owner := by
  obtain ⟨signatures, hnodup, hmem, hforms⟩ := hmade.forms_eq h howner
  have hsome : (dataClass.functions.map MemberFunction.form).Nodup ↔
      (signatures.map (CallForm.spelled? style)).Nodup := by
    rw [← hforms, ← List.map_map, List.nodup_map_iff (Option.some_injective _)]
  rw [hsome, List.nodup_map_iff_inj_on hnodup]
  constructor
  · intro hinjective own other hown hother
    exact hinjective _ ((hmem _).mpr ⟨own, hown, rfl⟩) _ ((hmem _).mpr ⟨other, hother, rfl⟩)
  · intro halike first hfirst second hsecond
    obtain ⟨own, hown, rfl⟩ := (hmem first).mp hfirst
    obtain ⟨other, hother, rfl⟩ := (hmem second).mp hsecond
    exact halike own other hown hother

end Declarations

/-! ### Calls of redeclared functions -/

/-- Of elements told apart by a key, two that answer a question alike have different keys. -/
theorem exists_two_of_countP {α κ : Type} {key : α → κ} {asked : α → Bool} {values : List α}
    (hkeys : (values.map key).Nodup) (hmany : 2 ≤ values.countP asked) :
    ∃ first ∈ values, ∃ second ∈ values, asked first = true ∧ asked second = true ∧
      key first ≠ key second := by
  rw [List.countP_eq_length_filter] at hmany
  have hfiltered : ((values.filter asked).map key).Nodup :=
    hkeys.sublist (List.filter_sublist.map key)
  have hmem : ∀ {value}, value ∈ values.filter asked → value ∈ values ∧ asked value = true :=
    List.mem_filter.mp
  rcases hlist : values.filter asked with _ | ⟨first, _ | ⟨second, rest⟩⟩
  · simp [hlist] at hmany
  · simp [hlist] at hmany
  · rw [hlist] at hfiltered hmem
    have hfirst := hmem (List.mem_cons_self)
    have hsecond := hmem (List.mem_cons_of_mem first List.mem_cons_self)
    refine ⟨first, hfirst.1, second, hsecond.1, hfirst.2, hsecond.2, ?_⟩
    simp only [List.map_cons, List.nodup_cons, List.mem_cons, not_or] at hfiltered
    exact hfiltered.1.1

namespace Schema

variable {schema : Schema} {name : QualifiedName} {dataClass : DataClass}

theorem nodup_forms_of_memberCandidates (hclass : schema.classes.find? name = some dataClass)
    (hforms : (dataClass.functions.map MemberFunction.form).Nodup) (spelled : String) :
    ((schema.memberCandidates name spelled).map Candidate.form).Nodup := by
  have heq : (schema.memberCandidates name spelled).map Candidate.form =
      (dataClass.functionsNamed spelled).map MemberFunction.form := by
    rw [memberCandidates, hclass]
    exact List.map_map
  rw [heq]
  exact hforms.sublist (List.filter_sublist.map _)

/-- Functions above a class that mean the same are spelled the same but for blanks. The functions of
the class are told apart by calls just when they are spelled the same, blanks included. Then each of
them has one function in the class that means what it does, and a call is ambiguous only between
functions that mean different things. -/
theorem functions_apart_iff {catalog : Catalog} {style : LambdaStyle} {receiver : String}
    (h : build catalog style receiver = .ok schema)
    (hclass : schema.classes.find? name = some dataClass) :
    (∀ own other, catalog.Inherits name own → catalog.Inherits name other →
        CallForm.spelled? style own.signature = CallForm.spelled? style other.signature →
          bareSignature own.signature = bareSignature other.signature) ∧
      ((dataClass.functions.map MemberFunction.form).Nodup ↔ catalog.SpellsAlike style name) ∧
      (catalog.SpellsAlike style name →
        (∀ own, catalog.Inherits name own → ∃! function, function ∈ dataClass.functions ∧
          CallForm.spelled? style own.signature = some function.form) ∧
        ∀ (called spelled : String) (count : Nat) (values : List GivenArgument) (hasBlock : Bool),
          selectCandidate schema called (schema.memberCandidates name called) values hasBlock =
              .error (.ambiguousCall spelled count) →
            ∃ first ∈ schema.memberCandidates name called,
              ∃ second ∈ schema.memberCandidates name called,
                first.Accepts schema values hasBlock ∧ second.Accepts schema values hasBlock ∧
                  first.form ≠ second.form) := by
  obtain ⟨declarations, hcatalog, -, -, hclasses, -⟩ := build_eq_ok h
  obtain ⟨decl, hdecl, hbuilt⟩ := hclasses name dataClass hclass
  have hmade := Declarations.materialised hbuilt
  have howner : declarations.types.contains name = true :=
    NameMap.contains_iff.mpr ⟨decl, (Declarations.find?_types hcatalog).mpr hdecl⟩
  have hiff := hmade.nodup_forms_iff hcatalog howner
  refine ⟨fun own other hown hother hsame => ?_, hiff, fun halike => ⟨fun own hown => ?_, ?_⟩⟩
  · obtain ⟨function, -, hform⟩ := hmade.exists_form hcatalog howner hown
    have hspelled := CallForm.bareSignature_of_spelled? hform
    exact hspelled.trans (CallForm.bareSignature_of_spelled? (hsame.symm.trans hform)).symm
  · obtain ⟨function, hfunction, hform⟩ := hmade.exists_form hcatalog howner hown
    refine ⟨function, ⟨hfunction, hform⟩, ?_⟩
    rintro other ⟨hother, hmeans⟩
    apply List.inj_on_of_nodup_map (hiff.mpr halike) hother hfunction
    exact Option.some.inj (hmeans.symm.trans hform)
  · intro called spelled count values hasBlock hambiguous
    have hmany := (selectCandidate_eq_ambiguous_iff.mp hambiguous).1
    have hforms := nodup_forms_of_memberCandidates hclass (hiff.mpr halike) called
    obtain ⟨first, hfirst, second, hsecond, hone, htwo, hapart⟩ :=
      exists_two_of_countP hforms hmany
    exact ⟨first, hfirst, second, hsecond, of_decide_eq_true hone, of_decide_eq_true htwo, hapart⟩

def specialClass : QualifiedName :=
  ⟨"Special", by decide⟩

/-- A type that declares an inherited function anew, and beside it another one of the name. -/
def redeclaringCatalog : Catalog :=
  ⟨[⟨"Base", [], [], [⟨"size", .pure, [⟨"width", "Int", false, none⟩], some "Int", none, none⟩],
      []⟩,
    ⟨"Special", ["Base"], [],
      [⟨"size", .pure, [⟨"height", "Int", false, none⟩], some "Int", none, none⟩,
        ⟨"size", .pure, [⟨"length", "Long", false, none⟩], some "Int", none, none⟩], []⟩],
    [], [], []⟩

/-- The same function, whose redeclaration has blanks around the type of its parameter. -/
def spacedCatalog : Catalog :=
  ⟨[⟨"Base", [], [], [⟨"size", .pure, [⟨"width", "Int", false, none⟩], some "Int", none, none⟩],
      []⟩,
    ⟨"Special", ["Base"], [],
      [⟨"size", .pure, [⟨"width", " Int ", false, none⟩], some "Int", none, none⟩], []⟩],
    [], [], []⟩

/-- A number as the only argument of a call. -/
def numberArgument : List Argument :=
  [.positional (.literal (.int 1) .blank) .blank]

theorem functions_apart_iff_redeclaring : ∃ schema special values,
    build redeclaringCatalog .receiverFunction "Special" = .ok schema ∧
      schema.classes.find? specialClass = some special ∧
      (schema.atStart.resolveArguments numberArgument).result = some values ∧
      selectCandidate schema "size" (schema.memberCandidates specialClass "size") values false =
        .error (.ambiguousCall "size" 2) ∧
      redeclaringCatalog.SpellsAlike .receiverFunction specialClass ∧
      ∃ first ∈ schema.memberCandidates specialClass "size",
        ∃ second ∈ schema.memberCandidates specialClass "size",
          first.Accepts schema values false ∧ second.Accepts schema values false ∧
            first.form ≠ second.form := by
  have hok : (build redeclaringCatalog .receiverFunction "Special").toOption.any (fun schema =>
      (schema.classes.find? specialClass).any fun special =>
        (schema.atStart.resolveArguments numberArgument).result.any fun values =>
          (special.functions.map MemberFunction.form).Nodup ∧
            Candidate.countAccepting schema (schema.memberCandidates specialClass "size") values
              false = 2) = true := by
    decide +kernel
  simp only [Option.any_eq_true, decide_eq_true_eq] at hok
  obtain ⟨schema, hschema, special, hspecial, values, hvalues, hforms, htwo⟩ := hok
  have hbuild := Fallible.toOption_eq_some.mp hschema
  obtain ⟨-, hiff, hambiguous⟩ := functions_apart_iff hbuild hspecial
  have hselect : selectCandidate schema "size" (schema.memberCandidates specialClass "size") values
      false = .error (.ambiguousCall "size" 2) :=
    selectCandidate_eq_ambiguous_iff.mpr ⟨htwo.ge, rfl, htwo.symm⟩
  exact ⟨schema, special, values, hbuild, hspecial, hvalues, hselect, hiff.mp hforms,
    (hambiguous (hiff.mp hforms)).2 _ _ _ _ _ hselect⟩

/-- Blanks around a type keep the inherited function in the class, and no call can mean either. -/
theorem functions_alike_of_spaced : ∃ schema special,
    build spacedCatalog .receiverFunction "Special" = .ok schema ∧
      schema.classes.find? specialClass = some special ∧
      special.functions.map MemberFunction.form =
        [⟨"size", [.constant .int], none⟩, ⟨"size", [.constant .int], none⟩] ∧
      (schema.atStart.resolveExpr (.call none "size" numberArgument .blank)).diagnostics =
        [⟨.ambiguousCall "size" 2, .blank⟩] := by
  have hok : (build spacedCatalog .receiverFunction "Special").toOption.any (fun schema =>
      (schema.classes.find? specialClass).any fun special =>
        special.functions.map MemberFunction.form =
            [⟨"size", [.constant .int], none⟩, ⟨"size", [.constant .int], none⟩] ∧
          (schema.atStart.resolveExpr (.call none "size" numberArgument .blank)).diagnostics =
            [⟨.ambiguousCall "size" 2, .blank⟩]) = true := by
    decide +kernel
  simp only [Option.any_eq_true, decide_eq_true_eq] at hok
  obtain ⟨schema, hschema, special, hspecial, hforms, hreported⟩ := hok
  exact ⟨schema, special, Fallible.toOption_eq_some.mp hschema, hspecial, hforms, hreported⟩

end Schema

end ConfigScript
