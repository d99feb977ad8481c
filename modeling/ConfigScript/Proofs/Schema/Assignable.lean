import ConfigScript.Proofs.Schema.Upcast

/-!
# The order of types

A type may stand for another one when it is the same, when it is the narrower of the two integer
types, when it is the type of `null` and a class is expected, or when both are classes and declared
supertypes lead from it to the other one. Names without a class declare nothing and can still be
declared as supertypes. All this makes an order, cycles of supertypes apart.
-/

namespace ConfigScript.Schema

variable {schema : Schema} {sub sup : QualifiedName} {target middle source : TypeRef}

/-- A class is found under the first name, and it declares the other one as a supertype. -/
def DeclaresSupertype (schema : Schema) (sub sup : QualifiedName) : Prop :=
  ∃ dataClass, schema.classes.find? sub = some dataClass ∧ sup ∈ dataClass.supertypes

theorem mem_supertypesOf_iff : sup ∈ schema.supertypesOf sub ↔ schema.DeclaresSupertype sub sup := by
  unfold supertypesOf DeclaresSupertype
  cases schema.classes.find? sub with
  | none => simp
  | some dataClass => simp [Membership.mem]

/-- The search for a supertype comes to just the names to which declared supertypes lead. -/
theorem isSubtype_iff_leads : schema.isSubtype sub sup = true ↔
    Relation.ReflTransGen schema.DeclaresSupertype sub sup := by
  have hsteps : (fun name other => other ∈ schema.supertypesOf name) = schema.DeclaresSupertype := by
    funext name other
    exact propext mem_supertypesOf_iff
  rw [isSubtype_iff, Leads, hsteps]

/-- The order that a schema declares: where the first type is expected, a value of the second one may
stand. -/
inductive Accepts (schema : Schema) : TypeRef → TypeRef → Prop where
  | same (type : TypeRef) : schema.Accepts type type
  | widened : schema.Accepts (.constant .long) (.constant .int)
  | absent (name : QualifiedName) : schema.Accepts (.named name) .null
  | upcast {sup sub : QualifiedName}
    (hleads : Relation.ReflTransGen schema.DeclaresSupertype sub sup) :
    schema.Accepts (.named sup) (.named sub)

/-- Nothing but itself stands below the narrower integer and the type of `null`, and the supertypes
of supertypes are reached over both. -/
theorem Accepts.trans (h : schema.Accepts target middle) (hbelow : schema.Accepts middle source) :
    schema.Accepts target source := by
  cases h with
  | same => exact hbelow
  | widened =>
    cases hbelow with
    | same => exact .widened
  | absent name =>
    cases hbelow with
    | same => exact .absent name
  | @upcast sup between hup =>
    cases hbelow with
    | same => exact .upcast hup
    | absent => exact .absent sup
    | upcast hlow => exact .upcast (hlow.trans hup)

theorem accepts_named :
    schema.Accepts (.named sup) (.named sub) ↔
      Relation.ReflTransGen schema.DeclaresSupertype sub sup := by
  constructor
  · rintro (_ | _ | _ | hleads)
    · exact .refl
    · exact hleads
  · exact .upcast

/-- Different types are compared by their kinds. -/
theorem isAssignable_iff_of_ne (hne : target ≠ source) :
    schema.isAssignable target source = true ↔ schema.Accepts target source := by
  unfold isAssignable
  rw [if_neg hne]
  split
  · exact iff_of_true rfl .widened
  · exact iff_of_true rfl (.absent _)
  · rw [isSubtype_iff_leads, accepts_named]
  · rename_i hwidened habsent hupcast
    refine iff_of_false Bool.false_ne_true ?_
    rintro (_ | _ | name | _)
    · exact hne rfl
    · exact hwidened rfl rfl
    · exact habsent name rfl rfl
    · exact hupcast _ _ rfl rfl

theorem isAssignable_iff_accepts :
    schema.isAssignable target source = true ↔ schema.Accepts target source := by
  by_cases hsame : target = source
  · subst hsame
    refine iff_of_true ?_ (.same target)
    unfold isAssignable
    rw [if_pos rfl]
  · exact isAssignable_iff_of_ne hsame

/-- In every schema, whatever its supertypes are, assignability is the order that the schema
declares. So it holds of each type with itself, and from one type over a second to a third. -/
theorem isAssignable_declared_order (schema : Schema) :
    (∀ target source, schema.isAssignable target source = true ↔
      target = source ∨ (target = .constant .long ∧ source = .constant .int) ∨
        (∃ name, target = .named name ∧ source = .null) ∨
        ∃ sup sub, target = .named sup ∧ source = .named sub ∧
          Relation.ReflTransGen schema.DeclaresSupertype sub sup) ∧
      (∀ type, schema.isAssignable type type = true) ∧
      ∀ target middle source, schema.isAssignable target middle = true →
        schema.isAssignable middle source = true → schema.isAssignable target source = true := by
  refine ⟨fun target source => ?_, fun type => ?_, fun target middle source h hbelow => ?_⟩
  · rw [isAssignable_iff_accepts]
    constructor
    · rintro (_ | _ | name | hleads)
      · exact .inl rfl
      · exact .inr (.inl ⟨rfl, rfl⟩)
      · exact .inr (.inr (.inl ⟨name, rfl, rfl⟩))
      · exact .inr (.inr (.inr ⟨_, _, rfl, rfl, hleads⟩))
    · rintro (rfl | ⟨rfl, rfl⟩ | ⟨name, rfl, rfl⟩ | ⟨sup, sub, rfl, rfl, hleads⟩)
      · exact .same target
      · exact .widened
      · exact .absent name
      · exact .upcast hleads
  · exact isAssignable_iff_accepts.mpr (.same type)
  · rw [isAssignable_iff_accepts] at h hbelow ⊢
    exact h.trans hbelow

/-- Two classes that declare each other as supertypes, and beside them a name without a class. -/
def circularSchema : Schema where
  receiver := ⟨"First", by decide⟩
  classes := .ofList
    [(⟨"First", by decide⟩, ⟨⟨"First", by decide⟩, .ofList [⟨"Second", by decide⟩], [], [], []⟩),
      (⟨"Second", by decide⟩, ⟨⟨"Second", by decide⟩,
        .ofList [⟨"First", by decide⟩, ⟨"Missing", by decide⟩], [], [], []⟩)]
  functions := .empty
  objects := .empty
  defaultImports := .empty
  lambdaStyle := .receiverFunction

/-- From the first class the second and the missing one are reached, and nothing leads back from the
missing one. -/
theorem isAssignable_declared_order_circular :
    circularSchema.isAssignable (.named ⟨"Second", by decide⟩) (.named ⟨"First", by decide⟩) =
        true ∧
      circularSchema.isAssignable (.named ⟨"Missing", by decide⟩) (.named ⟨"Second", by decide⟩) =
        true ∧
      circularSchema.isAssignable (.named ⟨"Missing", by decide⟩) (.named ⟨"First", by decide⟩) =
        true ∧
      ¬ Relation.ReflTransGen circularSchema.DeclaresSupertype ⟨"Missing", by decide⟩
        ⟨"First", by decide⟩ := by
  obtain ⟨hiff, -, htrans⟩ := isAssignable_declared_order circularSchema
  have hfirst : circularSchema.isAssignable (.named ⟨"Second", by decide⟩)
      (.named ⟨"First", by decide⟩) = true := by
    decide +kernel
  have hsecond : circularSchema.isAssignable (.named ⟨"Missing", by decide⟩)
      (.named ⟨"Second", by decide⟩) = true := by
    decide +kernel
  have hback : ¬ circularSchema.isAssignable (.named ⟨"First", by decide⟩)
      (.named ⟨"Missing", by decide⟩) = true := by
    decide +kernel
  refine ⟨hfirst, hsecond, htrans _ _ _ hsecond hfirst, fun hleads => hback ?_⟩
  exact (hiff _ _).mpr (.inr (.inr (.inr ⟨_, _, rfl, rfl, hleads⟩)))

end ConfigScript.Schema
