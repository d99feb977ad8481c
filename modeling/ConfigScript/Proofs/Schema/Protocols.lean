import ConfigScript.Proofs.Schema.Declared
import ConfigScript.Schema.Build

/-!
# Protocols of member functions

What a function that was built without fault is made of: its block stands behind all its value
parameters, and its kind decides how what it returns and what its block configures make up its
protocol.
-/

namespace ConfigScript.Declarations

variable {declarations : Declarations} {owner : QualifiedName} {function : String}

theorem toProperty_eq_ok {decl : PropertyDecl} {property : Property}
    (h : decl.toProperty = .ok property) :
    property.name = decl.name ∧ TypeRef.parse decl.type = .ok property.type ∧
      property.readOnly = decl.readOnly ∧ property.hasDefault = decl.hasDefault := by
  obtain ⟨type, htype, h⟩ := Fallible.bind_eq_ok.mp h
  obtain rfl := Fallible.pure_eq_ok.mp h
  exact ⟨rfl, buildName_eq_ok.mp htype, rfl, rfl⟩

theorem property?_eq_ok {name : String} {property : Property}
    (h : declarations.property? owner name = .ok (some property)) :
    ∃ above decl, (above, decl) ∈ declarations.lineage owner ∧
      ∃ own ∈ decl.properties, own.name = name ∧ own.toProperty = .ok property := by
  unfold property? at h
  split at h
  · cases h
  · rename_i own hfound
    obtain ⟨found, hproperty, heq⟩ := Fallible.map_eq_ok.mp h
    obtain rfl := Option.some.inj heq
    obtain ⟨⟨above, decl⟩, hmem, hfind⟩ := List.exists_of_findSome?_eq_some hfound
    exact ⟨above, decl, hmem, own, List.mem_of_find?_eq_some hfind,
      by simpa using List.find?_some hfind, hproperty⟩

/-- A function has no block, or its last parameter is one and configures objects of a class. -/
theorem splitBlock_cases {parameters values : List ParameterDecl} {configured : Option TypeRef}
    (h : declarations.splitBlock function parameters = .ok (values, configured)) :
    (∀ value ∈ values, declarations.style.configuredType? value.type = none) ∧
      (configured = none ∧ parameters = values ∨
        ∃ block text name, parameters = values ++ [block] ∧
          declarations.style.configuredType? block.type = some text ∧
          TypeRef.parse text = .ok (.named name) ∧ configured = some (.named name)) := by
  induction parameters generalizing values with
  | nil =>
    obtain ⟨rfl, rfl⟩ : [] = values ∧ none = configured := by simpa [splitBlock] using h
    exact ⟨by simp, .inl ⟨rfl, rfl⟩⟩
  | cons parameter parameters ih =>
    unfold splitBlock at h
    split at h
    · rename_i hvalue
      obtain ⟨⟨rest, block⟩, hrest, h⟩ := Fallible.bind_eq_ok.mp h
      obtain ⟨rfl, rfl⟩ := Prod.mk.inj (Fallible.pure_eq_ok.mp h)
      obtain ⟨hvalues, hcases⟩ := ih hrest
      refine ⟨List.forall_mem_cons.mpr ⟨hvalue, hvalues⟩, ?_⟩
      rcases hcases with ⟨hnone, rfl⟩ | ⟨last, text, name, rfl, htext, hparse, hsome⟩
      · exact .inl ⟨hnone, rfl⟩
      · exact .inr ⟨last, text, name, rfl, htext, hparse, hsome⟩
    · rename_i text htext
      split at h
      · cases h
      · rename_i hlast
        obtain ⟨type, htype, h⟩ := Fallible.bind_eq_ok.mp h
        split at h
        · cases h
        · rename_i hclass
          obtain ⟨rfl, rfl⟩ := Prod.mk.inj (Fallible.pure_eq_ok.mp h)
          have hnil : parameters = [] := by simpa using hlast
          obtain ⟨name, rfl⟩ := TypeRef.exists_named hclass
          exact ⟨by simp, .inr ⟨parameter, text, name, by rw [hnil]; rfl, htext,
            buildName_eq_ok.mp htype, rfl⟩⟩

/-- The texts of the parameter types decide which of them are values and what the block
configures. -/
theorem splitBlock_alike {other : String} {parameters others values rest : List ParameterDecl}
    {configured block : Option TypeRef}
    (h : declarations.splitBlock function parameters = .ok (values, configured))
    (hother : declarations.splitBlock other others = .ok (rest, block))
    (htypes : parameters.map ParameterDecl.type = others.map ParameterDecl.type) :
    values.map ParameterDecl.type = rest.map ParameterDecl.type ∧ configured = block := by
  obtain ⟨hvalues, hcases⟩ := splitBlock_cases h
  obtain ⟨hrest, hothers⟩ := splitBlock_cases hother
  -- No text is both that of a value and that of a block.
  have hapart : ∀ {texts : List ParameterDecl} {last : ParameterDecl} {text : String},
      (∀ value ∈ texts, declarations.style.configuredType? value.type = none) →
        declarations.style.configuredType? last.type = some text →
          last.type ∉ texts.map ParameterDecl.type := by
    intro texts last text hnone hsome hmem
    obtain ⟨value, hvalue, heq⟩ := List.mem_map.mp hmem
    rw [← heq, hnone value hvalue] at hsome
    cases hsome
  rcases hcases with ⟨rfl, rfl⟩ | ⟨last, text, name, rfl, htext, hparse, rfl⟩
  · rcases hothers with ⟨rfl, rfl⟩ | ⟨last, text, name, rfl, htext, hparse, rfl⟩
    · exact ⟨htypes, rfl⟩
    · exact absurd (by simp [htypes]) (hapart hvalues htext)
  · rcases hothers with ⟨rfl, rfl⟩ | ⟨otherLast, otherText, otherName, rfl, hotherText,
      hotherParse, rfl⟩
    · exact absurd (by simp [← htypes]) (hapart hrest htext)
    · rw [List.map_append, List.map_append] at htypes
      obtain ⟨hsame, hlast⟩ := List.append_inj' htypes rfl
      have hlast : last.type = otherLast.type := List.cons.inj hlast |>.1
      rw [hlast, hotherText] at htext
      obtain rfl := Option.some.inj htext
      rw [hparse] at hotherParse
      cases hotherParse
      exact ⟨hsame, rfl⟩

theorem parameter_eq_ok {function : String} {target : Option QualifiedName} {decl : ParameterDecl}
    {parameter : Parameter} (h : declarations.parameter function target decl = .ok parameter) :
    TypeRef.parse decl.type = .ok parameter.type ∧ parameter.name = decl.name ∧
      parameter.optional = decl.optional ∧
      (parameter.role = .unknown ∨ ∃ owner property, target = some owner ∧
        declarations.property? owner property.name = .ok (some property) ∧
        property.type = parameter.type ∧ parameter.role = .storeIn property) := by
  obtain ⟨type, htype, h⟩ := Fallible.bind_eq_ok.mp h
  have htype := buildName_eq_ok.mp htype
  split at h
  · obtain rfl := Fallible.pure_eq_ok.mp h
    exact ⟨htype, rfl, rfl, .inl rfl⟩
  · rename_i stored hstored
    cases target with
    | none => cases h
    | some owner =>
      obtain ⟨found, hfound, h⟩ := Fallible.bind_eq_ok.mp h
      cases found with
      | none => cases h
      | some property =>
        dsimp only at h
        split at h
        · cases h
        · rename_i heq
          obtain rfl := Fallible.pure_eq_ok.mp h
          obtain ⟨above, decl, -, own, -, hname, hproperty⟩ := property?_eq_ok hfound
          have hsame : property.name = stored := (toProperty_eq_ok hproperty).1.trans hname
          exact ⟨htype, rfl, rfl, .inr ⟨owner, property, rfl, hsame ▸ hfound,
            not_not.mp heq, rfl⟩⟩

theorem accessing_eq_ok {function : String} {accessor : Accessor} {object : TypeRef}
    {returns : Option TypeRef} {protocol : Semantics}
    (h : (match returns with
      | none => pure (Semantics.accessAndConfigure accessor .unit)
      | some type =>
        if type = .unit then pure (Semantics.accessAndConfigure accessor .unit)
        else if type = object then pure (Semantics.accessAndConfigure accessor .configuredObject)
        else throw (BuildError.invalidFunction function .configuringReturn) :
      Except BuildError Semantics) = .ok protocol) :
    ∃ kind, protocol = .accessAndConfigure accessor kind := by
  split at h
  · exact ⟨_, (Fallible.pure_eq_ok.mp h).symm⟩
  · split at h
    · exact ⟨_, (Fallible.pure_eq_ok.mp h).symm⟩
    · split at h
      · exact ⟨_, (Fallible.pure_eq_ok.mp h).symm⟩
      · cases h

/-- A function that configures what it reaches reaches an object of the type that its block has, be
it through a property of its class. -/
theorem configuring_cases {decl : FunctionDecl} {object : TypeRef} {returns : Option TypeRef}
    {protocol : Semantics} (hkind : decl.kind = .configuring)
    (h : declarations.semantics owner function decl (some object) returns = .ok protocol) :
    ∃ accessor kind, object = accessor.objectType ∧
      (∀ property, accessor = .property property →
        declarations.property? owner property.name = .ok (some property)) ∧
      protocol = .accessAndConfigure accessor kind := by
  unfold Declarations.semantics at h
  rw [hkind] at h
  dsimp only at h
  split at h
  · obtain ⟨accessor, haccessor, h⟩ := Fallible.bind_eq_ok.mp h
    obtain rfl := Fallible.pure_eq_ok.mp haccessor
    obtain ⟨kind, hprotocol⟩ := accessing_eq_ok h
    exact ⟨.custom object _, kind, rfl, by rintro _ ⟨⟩, hprotocol⟩
  · obtain ⟨found, hfound, h⟩ := Fallible.bind_eq_ok.mp h
    cases found with
    | none => cases h
    | some property =>
      dsimp only at h
      split at h
      · cases h
      · rename_i htype
        obtain ⟨accessor, haccessor, h⟩ := Fallible.bind_eq_ok.mp h
        obtain rfl := Fallible.pure_eq_ok.mp haccessor
        obtain ⟨kind, hprotocol⟩ := accessing_eq_ok h
        refine ⟨.property property, kind, (not_not.mp htype).symm, ?_, hprotocol⟩
        rintro _ ⟨⟩
        obtain ⟨_, _, _, own, _, hown, hproperty⟩ := property?_eq_ok hfound
        rwa [(toProperty_eq_ok hproperty).1, hown]

/-- What the kind of a function makes of the type that it returns and the type that its block
configures. -/
theorem semantics_cases {decl : FunctionDecl} {configured returns : Option TypeRef}
    {protocol : Semantics}
    (h : declarations.semantics owner function decl configured returns = .ok protocol) :
    (decl.kind = .pure ∧ configured = none ∧ protocol = .pure (returns.getD .unit)) ∨
      (decl.kind = .builder ∧ configured = none ∧ protocol = .builder (.named owner)) ∨
      (∃ name, decl.kind = .adding ∧ returns = some (.named name) ∧
        (∀ type ∈ configured, type = .named name) ∧
        protocol = .addAndConfigure (.named name) configured.isSome) ∨
      ∃ accessor kind, decl.kind = .configuring ∧ configured = some accessor.objectType ∧
        (∀ property, accessor = .property property →
          declarations.property? owner property.name = .ok (some property)) ∧
        protocol = .accessAndConfigure accessor kind := by
  cases hkind : decl.kind with
  | pure =>
    unfold Declarations.semantics at h
    rw [hkind] at h
    dsimp only at h
    split at h
    · cases h
    · rename_i hnone
      exact .inl ⟨rfl, by simpa using hnone, (Fallible.pure_eq_ok.mp h).symm⟩
  | builder =>
    unfold Declarations.semantics at h
    rw [hkind] at h
    dsimp only at h
    split at h
    · cases h
    · rename_i hnone
      split at h
      · cases h
      · exact .inr (.inl ⟨rfl, by simpa using hnone, (Fallible.pure_eq_ok.mp h).symm⟩)
  | adding =>
    unfold Declarations.semantics at h
    rw [hkind] at h
    cases returns with
    | none => cases h
    | some element =>
      dsimp only at h
      split at h
      · cases h
      · rename_i hclass
        obtain ⟨name, rfl⟩ := TypeRef.exists_named hclass
        split at h
        · cases h
        · rename_i hsame
          refine .inr (.inr (.inl ⟨name, rfl, rfl, fun type htype => ?_,
            (Fallible.pure_eq_ok.mp h).symm⟩))
          obtain rfl := Option.mem_def.mp htype
          simpa using hsame
  | configuring =>
    cases configured with
    | none =>
      unfold Declarations.semantics at h
      rw [hkind] at h
      cases h
    | some object =>
      obtain ⟨accessor, kind, hobject, hproperty, hprotocol⟩ := configuring_cases hkind h
      exact .inr (.inr (.inr ⟨accessor, kind, rfl, congrArg some hobject, hproperty, hprotocol⟩))

/-- A call of a function configures what the block of the function configures. -/
theorem configuredType?_of_semantics {decl : FunctionDecl} {configured returns : Option TypeRef}
    {protocol : Semantics}
    (h : declarations.semantics owner function decl configured returns = .ok protocol) :
    protocol.configuredType? = configured := by
  rcases semantics_cases h with ⟨-, rfl, rfl⟩ | ⟨-, rfl, rfl⟩ | ⟨name, -, -, hsame, rfl⟩ |
    ⟨accessor, kind, -, rfl, -, rfl⟩
  · rfl
  · rfl
  · cases configured with
    | none => rfl
    | some type => exact congrArg some (hsame type rfl).symm
  · rfl

theorem optionalType_eq_ok {text : Option String} {type : TypeRef}
    (h : optionalType text = .ok (some type)) :
    ∃ spelled, text = some spelled ∧ TypeRef.parse spelled = .ok type := by
  cases text with
  | none => cases h
  | some spelled =>
    obtain ⟨found, hfound, heq⟩ := Fallible.map_eq_ok.mp h
    exact ⟨spelled, rfl, Option.some.inj heq ▸ buildName_eq_ok.mp hfound⟩

/-- The parts of a member function, each built from its declaration. -/
theorem memberFunction_cases {decl : FunctionDecl} {built : MemberFunction}
    (h : declarations.memberFunction owner decl = .ok built) :
    built.receiver = owner ∧ built.name = decl.name ∧
      ∃ text values configured returns,
        declarations.splitBlock text decl.parameters = .ok (values, configured) ∧
        optionalType decl.returns = .ok returns ∧
        declarations.semantics owner text decl configured returns = .ok built.semantics ∧
        values.mapM (declarations.parameter text (storageTarget owner built.semantics)) =
          .ok built.parameters := by
  obtain ⟨⟨values, configured⟩, hsplit, h⟩ := Fallible.bind_eq_ok.mp h
  obtain ⟨returns, hreturns, h⟩ := Fallible.bind_eq_ok.mp h
  obtain ⟨protocol, hprotocol, h⟩ := Fallible.bind_eq_ok.mp h
  obtain ⟨parameters, hparameters, h⟩ := Fallible.bind_eq_ok.mp h
  obtain rfl := Fallible.pure_eq_ok.mp h
  exact ⟨rfl, rfl, _, values, configured, returns, hsplit, hreturns, hprotocol, hparameters⟩

theorem parameterTypes_eq_ok {target : Option QualifiedName} {decls : List ParameterDecl}
    {parameters : List Parameter}
    (h : decls.mapM (declarations.parameter function target) = .ok parameters) :
    (decls.map ParameterDecl.type).mapM TypeRef.parse = .ok (parameters.map Parameter.type) := by
  rw [Fallible.mapM_eq_ok] at h ⊢
  rw [List.forall₂_map_left_iff, List.forall₂_map_right_iff]
  exact h.imp fun _ _ hbuilt => (parameter_eq_ok hbuilt).1

/-- Functions of one signature are called alike, for whichever classes and of whichever kinds they
are built. -/
theorem memberFunction_alike {decl other : FunctionDecl} {heir : QualifiedName}
    {built inherited : MemberFunction} (h : declarations.memberFunction owner decl = .ok built)
    (hother : declarations.memberFunction heir other = .ok inherited)
    (hsignature : decl.signature = other.signature) :
    built.name = inherited.name ∧
      built.parameters.map Parameter.type = inherited.parameters.map Parameter.type ∧
      built.semantics.configuredType? = inherited.semantics.configuredType? := by
  obtain ⟨hnames, htypes⟩ := Prod.mk.inj hsignature
  obtain ⟨-, hname, _, _, _, _, hsplit, -, hprotocol, hparameters⟩ := memberFunction_cases h
  obtain ⟨-, hotherName, _, _, _, _, hotherSplit, -, hotherProtocol, hotherParameters⟩ :=
    memberFunction_cases hother
  obtain ⟨hvalues, hconfigured⟩ := splitBlock_alike hsplit hotherSplit htypes
  refine ⟨by rw [hname, hotherName, hnames], ?_, ?_⟩
  · have hparsed := parameterTypes_eq_ok hparameters
    rw [hvalues, parameterTypes_eq_ok hotherParameters] at hparsed
    exact (Except.ok.inj hparsed).symm
  · rw [configuredType?_of_semantics hprotocol, configuredType?_of_semantics hotherProtocol,
      hconfigured]

theorem constructor_cases {decl : ConstructorDecl} {built : Constructor}
    (h : declarations.constructor owner decl = .ok built) :
    decl.parameters.mapM (declarations.parameter (owner.text ++ ".<init>") (some owner)) =
      .ok built.parameters := by
  obtain ⟨parameters, hparameters, h⟩ := Fallible.bind_eq_ok.mp h
  obtain rfl := Fallible.pure_eq_ok.mp h
  exact hparameters

/-- The parts of a function of a package. All its parameters are values, and there is no object to
store their arguments in. -/
theorem externalFunction_cases {decl : PackageFunctionDecl} {built : ExternalFunction}
    (h : declarations.externalFunction decl = .ok built) :
    QualifiedName.inPackage decl.package decl.name = .ok built.name ∧ decl.kind = .pure ∧
      (∀ spelled ∈ decl.parameters, declarations.style.configuredType? spelled.type = none) ∧
      decl.parameters.mapM (declarations.parameter built.name.text none) = .ok built.parameters ∧
      ∃ returns, optionalType decl.returns = .ok returns ∧
        built.semantics = .pure (returns.getD .unit) := by
  obtain ⟨name, hname, h⟩ := Fallible.bind_eq_ok.mp h
  dsimp only at h
  split at h
  · cases h
  rename_i hkind
  obtain ⟨⟨values, configured⟩, hsplit, h⟩ := Fallible.bind_eq_ok.mp h
  dsimp only at h
  split at h
  · cases h
  rename_i hnone
  obtain ⟨parameters, hparameters, h⟩ := Fallible.bind_eq_ok.mp h
  obtain ⟨returns, hreturns, h⟩ := Fallible.bind_eq_ok.mp h
  obtain rfl := Fallible.pure_eq_ok.mp h
  obtain ⟨hvalues, ⟨-, heq⟩ | ⟨_, _, _, -, -, -, rfl⟩⟩ := splitBlock_cases hsplit
  · rw [heq]
    exact ⟨buildName_eq_ok.mp hname, not_not.mp hkind, hvalues, hparameters, returns, hreturns,
      rfl⟩
  · simp at hnone

theorem externalObject_cases {decl : ObjectDecl} {name : QualifiedName} {type : TypeRef}
    (h : externalObject decl = .ok (name, type)) :
    QualifiedName.parse decl.name = .ok name ∧ TypeRef.parse decl.type = .ok type := by
  obtain ⟨found, hname, h⟩ := Fallible.bind_eq_ok.mp h
  obtain ⟨parsed, htype, h⟩ := Fallible.bind_eq_ok.mp h
  obtain ⟨rfl, rfl⟩ := Prod.mk.inj (Fallible.pure_eq_ok.mp h)
  exact ⟨buildName_eq_ok.mp hname, buildName_eq_ok.mp htype⟩

end ConfigScript.Declarations
