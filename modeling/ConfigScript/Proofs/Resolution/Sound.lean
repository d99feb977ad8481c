import ConfigScript.Proofs.Resolution.Binding
import ConfigScript.Proofs.Schema.Closed

/-!
# Sound operations

An operation is sound for a schema when every name in it refers to an entity of the schema and
every value has a type that its place accepts, at whatever depth of blocks, arguments and
receivers.
-/

namespace ConfigScript

theorem Semantics.returnType_mem {semantics : Semantics} :
    semantics.returnType = .unit ∨ semantics.returnType ∈ semantics.types := by
  rcases semantics with type | type | ⟨element, accepts⟩ | ⟨accessor, kind⟩
  · exact .inr (List.mem_singleton_self _)
  · exact .inr (List.mem_singleton_self _)
  · exact .inr (List.mem_singleton_self _)
  · cases kind with
    | unit => exact .inl rfl
    | configuredObject => exact .inr (List.mem_singleton_self _)

theorem Semantics.mem_of_configuredType? {semantics : Semantics} {type : TypeRef}
    (h : semantics.configuredType? = some type) : type ∈ semantics.types := by
  rcases semantics with type | type | ⟨element, _ | _⟩ | ⟨accessor, kind⟩
  · cases h
  · cases h
  · cases h
  · exact Option.some.inj h ▸ List.mem_singleton_self _
  · exact Option.some.inj h ▸ List.mem_singleton_self _

theorem Semantics.Fits.exists_configured {semantics : Semantics} {owner : QualifiedName}
    (h : semantics.Fits owner) (hblock : semantics.blockRequirement ≠ .notAllowed) :
    ∃ type, semantics.configuredType?.bind TypeRef.className? = some type := by
  rcases semantics with type | type | ⟨element, _ | _⟩ | ⟨accessor, kind⟩
  · exact absurd rfl hblock
  · exact absurd rfl hblock
  · exact absurd rfl hblock
  · obtain ⟨name, rfl⟩ := h
    exact ⟨name, rfl⟩
  · obtain ⟨name, hname⟩ := h
    exact ⟨name, TypeRef.className?_eq_some.mpr hname⟩

namespace Schema

/-- A type that is no class, or a class of the schema. -/
def Knows (schema : Schema) (type : TypeRef) : Prop :=
  ∀ name, type = .named name → schema.classes.contains name = true

/-- A property that the class of an object has. -/
def HasProperty (schema : Schema) (owner : TypeRef) (property : Property) : Prop :=
  ∃ name dataClass, owner = .named name ∧ schema.classes.find? name = some dataClass ∧
    property ∈ dataClass.properties

/-- What a schema declares under a callee: the type of the object it is called on, if there is one,
the parameters and the protocol. -/
inductive Offers (schema : Schema) :
    Callee → Option TypeRef → List Parameter → Semantics → Prop where
  | member {owner : QualifiedName} {dataClass : DataClass} {function : MemberFunction}
      (hclass : schema.classes.find? owner = some dataClass)
      (h : function ∈ dataClass.functions) :
      Offers schema (.member owner function.name) (some (.named owner)) function.parameters
        function.semantics
  | function {name : QualifiedName} {function : ExternalFunction}
      (h : schema.functions.find? name = some function) :
      Offers schema (.function name) none function.parameters function.semantics
  | constructor {name : QualifiedName} {dataClass : DataClass} {constructor : Constructor}
      (hclass : schema.classes.find? name = some dataClass)
      (h : constructor ∈ dataClass.constructors) :
      Offers schema (.constructor name) none constructor.parameters (.pure (.named name))

mutual

/-- An expression in which all names refer to entities of the schema. -/
inductive SoundExpr (schema : Schema) : TypedExpr → Prop where
  | constant {value : Literal} {span : Span} : SoundExpr schema (.constant value span)
  | null {span : Span} : SoundExpr schema (.null span)
  | receiver {type : QualifiedName} {depth : Nat} {span : Span}
      (htype : schema.Knows (.named type)) : SoundExpr schema (.receiver type depth span)
  | localValue {name : String} {type : TypeRef} {span : Span} (htype : schema.Knows type) :
      SoundExpr schema (.localValue name type span)
  | property {owner : TypedExpr} {read : Property} {span : Span}
      (howner : SoundExpr schema owner) (hread : schema.HasProperty owner.type read)
      (htype : schema.Knows read.type) : SoundExpr schema (.property owner read span)
  | object {name : QualifiedName} {type : TypeRef} {span : Span}
      (hobject : schema.objects.find? name = some type) (htype : schema.Knows type) :
      SoundExpr schema (.object name type span)
  | invocation {call : Invocation} (hcall : SoundInvocation schema call) :
      SoundExpr schema (.invocation call)

/-- A call of a function that the schema declares, with arguments that its parameters accept. -/
inductive SoundInvocation (schema : Schema) : Invocation → Prop where
  | mk {callee : Callee} {receiver : Option TypedExpr} {semantics : Semantics}
      {parameters : List Parameter} {arguments : List BoundArgument}
      {block : Option (List Operation)} {span : Span}
      (hcallee : schema.Offers callee (receiver.map TypedExpr.type) parameters semantics)
      (hreceiver : ∀ value ∈ receiver, SoundExpr schema value)
      (hbinds : schema.Binds parameters arguments)
      (harguments : ∀ argument ∈ arguments, SoundExpr schema argument.value)
      (hblock : ∀ operations ∈ block, ∀ operation ∈ operations, SoundOperation schema operation)
      (htypes : ∀ type ∈ parameters.flatMap Parameter.types ++ semantics.types,
        schema.Knows type) :
      SoundInvocation schema (.mk callee receiver semantics arguments block span)

inductive SoundOperation (schema : Schema) : Operation → Prop where
  | write {receiver value : TypedExpr} {target : Property} {span : Span}
      (hreceiver : SoundExpr schema receiver) (htarget : schema.HasProperty receiver.type target)
      (hwritable : target.readOnly = false) (hvalue : SoundExpr schema value)
      (htype : schema.isAssignable target.type value.type = true) :
      SoundOperation schema (.write receiver target value span)
  | bind {name : String} {value : TypedExpr} {span : Span} (hvalue : SoundExpr schema value) :
      SoundOperation schema (.bind name value span)
  | invoke {call : Invocation} (hcall : SoundInvocation schema call) :
      SoundOperation schema (.invoke call)
  | evaluate {value : TypedExpr} (hvalue : SoundExpr schema value) :
      SoundOperation schema (.evaluate value)

end

variable {schema : Schema}

theorem Closed.knows (h : schema.Closed) {type : TypeRef} (hmem : type ∈ schema.types) :
    schema.Knows type :=
  fun name heq => h.types name (heq ▸ hmem)

theorem Closed.knows_of_class (h : schema.Closed) {name : QualifiedName} {dataClass : DataClass}
    (hclass : schema.classes.find? name = some dataClass) {type : TypeRef}
    (hmem : type ∈ dataClass.types) : schema.Knows type := by
  refine h.knows (List.mem_append_left _ (List.mem_append_left _ (List.mem_cons_of_mem _ ?_)))
  exact List.mem_flatMap.mpr ⟨dataClass, NameMap.mem_values_iff.mpr ⟨name, hclass⟩, hmem⟩

theorem HasProperty.knows (h : schema.Closed) {owner : TypeRef} {property : Property}
    (hproperty : schema.HasProperty owner property) : schema.Knows property.type := by
  obtain ⟨name, dataClass, -, hclass, hmem⟩ := hproperty
  refine h.knows_of_class hclass ?_
  simp only [DataClass.types, List.mem_append, List.mem_map]
  exact .inl (.inl (.inr ⟨property, hmem, rfl⟩))

theorem Offers.knows (h : schema.Closed) {callee : Callee} {receiver : Option TypeRef}
    {parameters : List Parameter} {semantics : Semantics}
    (hoffers : schema.Offers callee receiver parameters semantics) :
    ∀ type ∈ parameters.flatMap Parameter.types ++ semantics.types, schema.Knows type := by
  cases hoffers with
  | member hclass hfunction =>
    intro type htype
    refine h.knows_of_class hclass ?_
    simp only [DataClass.types, List.mem_append, List.mem_flatMap]
    exact .inl (.inr ⟨_, hfunction, htype⟩)
  | function hfind =>
    intro type htype
    refine h.knows (List.mem_append_left _ (List.mem_append_right _ ?_))
    exact List.mem_flatMap.mpr ⟨_, NameMap.mem_values_iff.mpr ⟨_, hfind⟩, htype⟩
  | constructor hclass hconstructor =>
    intro type htype
    cases List.mem_append.mp htype with
    | inl hparameter =>
      refine h.knows_of_class hclass ?_
      simp only [DataClass.types, List.mem_append, List.mem_flatMap (f := Constructor.types)]
      exact .inr ⟨_, hconstructor, hparameter⟩
    | inr hresult =>
      obtain rfl := List.mem_singleton.mp hresult
      rintro name ⟨⟩
      exact NameMap.contains_iff.mpr ⟨_, hclass⟩

theorem Offers.fits (h : schema.Closed) {callee : Callee} {receiver : Option TypeRef}
    {parameters : List Parameter} {semantics : Semantics}
    (hoffers : schema.Offers callee receiver parameters semantics) :
    ∃ owner, semantics.Fits owner := by
  cases hoffers with
  | member hclass hfunction => exact ⟨_, ((h.classes _ _ hclass).2 _ hfunction).2⟩
  | @function name _ hfind =>
    obtain ⟨type, hpure⟩ := (h.functions _ _ hfind).2
    rw [hpure]
    exact ⟨name, trivial⟩
  | @constructor name => exact ⟨name, trivial⟩

/-- The type of a sound expression is no class that is missing from the schema. -/
theorem SoundExpr.knows {value : TypedExpr} (h : schema.SoundExpr value) :
    schema.Knows value.type := by
  cases h with
  | constant => rintro name ⟨⟩
  | null => rintro name ⟨⟩
  | receiver htype => exact htype
  | localValue htype => exact htype
  | property _ _ htype => exact htype
  | object _ htype => exact htype
  | invocation hcall =>
    cases hcall with
    | mk _ _ _ _ _ htypes =>
      cases Semantics.returnType_mem with
      | inl hunit =>
        rintro name heq
        cases hunit.symm.trans heq
      | inr hmem => exact htypes _ (List.mem_append_right _ hmem)

end Schema

end ConfigScript
