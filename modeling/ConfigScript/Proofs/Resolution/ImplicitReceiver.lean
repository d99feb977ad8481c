import ConfigScript.Proofs.Resolution.Chosen
import ConfigScript.Proofs.Resolution.Placeless

/-!
# The implicit receiver

A member that is written without receiver is looked up in the objects in scope, the innermost one
first; with `this` in front it is looked up in the type of an expression. When the class of the
innermost object has such a member, both searches come to it, and from there on the two forms go
through the same checks.
-/

namespace ConfigScript

/-- Two attempts that come to the same or fail for the same reasons, wherever their parts stand. -/
structure Attempt.Same {α : Type} (erase : α → α) (left right : Attempt α) : Prop where
  result : left.result.map erase = right.result.map erase
  reports : SameReports left.diagnostics right.diagnostics

theorem Attempt.same_of_moved_eq {α : Type} {erase : α → α} {left right : Attempt α}
    (h : left.moved (fun _ => .blank) erase = right.moved (fun _ => .blank) erase) :
    Same erase left right := by
  obtain ⟨hresult, hdiagnostics⟩ := Attempt.mk.inj h
  exact ⟨hresult, sameReports_of_erased hdiagnostics⟩

namespace Schema

variable {schema : Schema} {type : QualifiedName} {name : String}

theorem HasProperty.exists_property? {property : Property}
    (h : schema.HasProperty (.named type) property) :
    ∃ found, (schema.classes.find? type).bind (·.property? property.name) = some found := by
  obtain ⟨own, dataClass, htype, hclass, hmem⟩ := h
  obtain rfl := TypeRef.named.inj htype
  have hsome : (dataClass.property? property.name).isSome = true :=
    List.find?_isSome.mpr ⟨property, hmem, beq_self_eq_true _⟩
  rw [hclass, Option.bind_some]
  exact Option.isSome_iff_exists.mp hsome

theorem Offers.memberCandidates_ne_nil {owner : Option TypeRef} {parameters : List Parameter}
    {semantics : Semantics} (h : schema.Offers (.member type name) owner parameters semantics) :
    schema.memberCandidates type name ≠ [] := by
  cases h with
  | @member _ dataClass function hclass hmem =>
    have hnamed : function ∈ dataClass.functionsNamed function.name :=
      List.mem_filter.mpr ⟨hmem, beq_self_eq_true _⟩
    rw [memberCandidates, hclass]
    exact fun hempty => List.ne_nil_of_mem hnamed (List.map_eq_nil_iff.mp hempty)

end Schema

namespace Environment

variable {environment : Environment} {type : QualifiedName} {depth : Nat} {name : String}
  {span : Span}

/-- The innermost object in scope is of that class. -/
def Within (environment : Environment) (type : QualifiedName) : Prop :=
  ∃ depth, (Scope.receivers environment.scopes).head? = some (depth, type)

theorem Within.mapSpans {move : Span → Span} (h : environment.Within type) :
    (environment.mapSpans move).Within type := by
  obtain ⟨depth, hinner⟩ := h
  exact ⟨depth, by rw [scopes_mapSpans, Scope.receivers_mapSpans, hinner]⟩

/-! ### The member of the innermost object -/

section Innermost

variable (hinner : (Scope.receivers environment.scopes).head? = some (depth, type))

include hinner

theorem resolveExpr_this :
    environment.resolveExpr (.this span) = .ok (.receiver type depth span) := by
  rw [resolveExpr, this?, hinner, Option.map_some]

theorem resolveReceiver_this :
    environment.resolveReceiver (some (.this span)) = .ok (some (.receiver type depth span)) := by
  rw [resolveReceiver, resolveExpr_this hinner]
  rfl

theorem receiverProperty?_innermost {property : Property}
    (hread : (environment.schema.classes.find? type).bind (·.property? name) = some property) :
    environment.receiverProperty? name span = some (.receiver type depth span, property) := by
  obtain ⟨outer, hreceivers⟩ := List.head?_eq_some_iff.mp hinner
  obtain ⟨dataClass, hclass, hproperty⟩ := Option.bind_eq_some_iff.mp hread
  rw [receiverProperty?, hreceivers, List.findSome?_cons]
  simp [hclass, hproperty]

theorem receiverFunctions?_innermost
    (hfunctions : environment.schema.memberCandidates type name ≠ []) :
    environment.receiverFunctions? name span =
      some (.receiver type depth span, environment.schema.memberCandidates type name) := by
  obtain ⟨outer, hreceivers⟩ := List.head?_eq_some_iff.mp hinner
  cases hcandidates : environment.schema.memberCandidates type name with
  | nil => exact absurd hcandidates hfunctions
  | cons candidate candidates =>
    rw [receiverFunctions?, hreceivers, List.findSome?_cons]
    simp only [hcandidates]

end Innermost

/-- The property of an object in scope, as an access through that object finds it. -/
theorem memberProperty_receiver {property : Property}
    (hread : (environment.schema.classes.find? type).bind (·.property? name) = some property) :
    environment.memberProperty (.receiver type depth span) name span = .ok property := by
  simp only [memberProperty, memberOwner, TypedExpr.type, Attempt.ok_bind, TypeRef.className?,
    Option.bind_some, hread]

/-! ### Both forms in one place -/

section Within

variable (hwithin : environment.Within type)

include hwithin

theorem read_eq_this {property : Property} (hlocal : environment.local? property.name = none)
    (hhas : environment.schema.HasProperty (.named type) property) :
    environment.resolveExpr (.property none property.name span) =
      environment.resolveExpr (.property (some (.this span)) property.name span) := by
  obtain ⟨depth, hinner⟩ := hwithin
  obtain ⟨found, hread⟩ := hhas.exists_property?
  rw [resolveExpr, resolveExpr, resolveExpr_this hinner, Attempt.ok_bind,
    memberProperty_receiver hread, Attempt.ok_bind, readName, hlocal,
    receiverProperty?_innermost hinner hread]
  rfl

theorem assignment_eq_this {property : Property} (hlocal : environment.local? property.name = none)
    (hhas : environment.schema.HasProperty (.named type) property) (value : Expr) (whole : Span) :
    environment.resolveStatement (.assignment none property.name span value whole) =
      environment.resolveStatement
        (.assignment (some (.this span)) property.name span value whole) := by
  obtain ⟨depth, hinner⟩ := hwithin
  obtain ⟨found, hread⟩ := hhas.exists_property?
  have htarget : environment.assignedProperty none property.name span =
      environment.assignedProperty (some (.receiver type depth span)) property.name span := by
    simp only [assignedProperty, assignedName, hlocal, receiverProperty?_innermost hinner hread,
      memberProperty_receiver hread]
    rfl
  rw [resolveStatement, resolveStatement, resolveReceiver_this hinner, resolveReceiver,
    Attempt.ok_bind, Attempt.ok_bind, htarget]

theorem call_eq_this {parameters : List Parameter} {semantics : Semantics}
    (hhas : environment.schema.Offers (.member type name) (some (.named type)) parameters semantics)
    (arguments : List Argument) :
    environment.resolveExpr (.call none name arguments span) =
      environment.resolveExpr (.call (some (.this span)) name arguments span) := by
  obtain ⟨depth, hinner⟩ := hwithin
  have htarget : environment.callTarget none name span =
      environment.callTarget (some (.receiver type depth span)) name span := by
    simp only [callTarget, receiverFunctions?_innermost hinner hhas.memberCandidates_ne_nil,
      memberOwner, TypedExpr.type, Attempt.ok_bind, TypeRef.className?]
  rw [resolveExpr, resolveExpr, resolveReceiver_this hinner, resolveReceiver, Attempt.ok_bind,
    Attempt.ok_bind, htarget]

end Within

/-! ### Both forms wherever they stand -/

/-- Two expressions that mean the same, as values and as statements, wherever they stand. -/
structure Agree (environment : Environment) (left right : Expr) : Prop where
  value : Attempt.Same TypedExpr.eraseSpans
    (environment.resolveExpr left) (environment.resolveExpr right)
  statement : Attempt.Same Operation.eraseSpans
    (environment.resolveStatement (.expr left)) (environment.resolveStatement (.expr right))

/-- Where two statements come to the same without places, they come to the same. -/
theorem same_of_blank {left right : Statement}
    (h : (environment.mapSpans fun _ => .blank).resolveStatement left.eraseSpans =
      (environment.mapSpans fun _ => .blank).resolveStatement right.eraseSpans) :
    Attempt.Same Operation.eraseSpans
      (environment.resolveStatement left) (environment.resolveStatement right) := by
  apply Attempt.same_of_moved_eq
  rw [← left.mapSpans_blank, ← right.mapSpans_blank] at h
  rw [resolveStatement_mapSpans, resolveStatement_mapSpans] at h
  exact h

theorem agree_of_blank {left right : Expr}
    (h : (environment.mapSpans fun _ => .blank).resolveExpr left.eraseSpans =
      (environment.mapSpans fun _ => .blank).resolveExpr right.eraseSpans) :
    environment.Agree left right where
  value := by
    apply Attempt.same_of_moved_eq
    rw [← left.mapSpans_blank, ← right.mapSpans_blank] at h
    rw [resolveExpr_mapSpans, resolveExpr_mapSpans] at h
    exact h
  statement := by
    apply same_of_blank
    rw [Statement.eraseSpans, Statement.eraseSpans, resolveStatement, resolveStatement, h]

/-- A member of the innermost object is the same with and without `this` in front of it: a property
that no local value hides is read and written alike, and a function is called alike, with any
arguments and blocks. Each form may stand in a place of its own. -/
theorem member_agrees_with_this {environment : Environment} {type : QualifiedName}
    (hwithin : environment.Within type) (name : String) :
    (∀ property, environment.schema.HasProperty (.named type) property → property.name = name →
        environment.local? name = none →
      (∀ span this whole, environment.Agree (.property none name span)
          (.property (some (.this this)) name whole)) ∧
        ∀ value other : Expr, value.eraseSpans = other.eraseSpans →
          ∀ target span this named whole, Attempt.Same Operation.eraseSpans
            (environment.resolveStatement (.assignment none name target value span))
            (environment.resolveStatement
              (.assignment (some (.this this)) name named other whole))) ∧
      ∀ parameters semantics,
        environment.schema.Offers (.member type name) (some (.named type)) parameters semantics →
          ∀ arguments others : List Argument,
            argumentsEraseSpans arguments = argumentsEraseSpans others →
              ∀ span this whole, environment.Agree (.call none name arguments span)
                (.call (some (.this this)) name others whole) := by
  have hblank : (environment.mapSpans fun _ => .blank).Within type := hwithin.mapSpans
  refine ⟨?_, ?_⟩
  · rintro property hhas rfl hlocal
    have hnone : (environment.mapSpans fun _ => .blank).local? property.name = none := by
      rw [local?_mapSpans, hlocal, Option.map_none]
    refine ⟨fun span this whole => ?_, fun value other hvalue target span this named whole => ?_⟩
    · apply agree_of_blank
      exact read_eq_this hblank hnone hhas
    · apply same_of_blank
      rw [Statement.eraseSpans, Statement.eraseSpans, hvalue]
      exact assignment_eq_this hblank hnone hhas other.eraseSpans .blank
  · intro parameters semantics hhas arguments others harguments span this whole
    apply agree_of_blank
    rw [Expr.eraseSpans, Expr.eraseSpans, harguments]
    exact call_eq_this hblank hhas (argumentsEraseSpans others)

def rightClass : QualifiedName :=
  ⟨"Right", by decide⟩

/-- Where a block configures a `Right` and has named a value. -/
def insideRight (schema : Schema) : Environment :=
  (schema.atStart.enter rightClass).after none
    (.localValue "size" (.literal (.int 1) .blank) .blank)

/-- A call that configures an object, with a faulty assignment in its block. -/
def rightArguments (place : Span) : List Argument :=
  let wrong : Statement := .assignment none "count" place (.literal (.string "one") place) place
  [.lambda (.mk [wrong] place) place]

theorem member_agrees_with_this_nested : ∃ schema,
    Schema.build Schema.mutualCatalog .receiverFunction "Left" = .ok schema ∧
      ((insideRight schema).resolveExpr
        (.call none "right" (rightArguments ⟨6, 19, 1, 7⟩) ⟨0, 21, 1, 1⟩)).diagnostics ≠ [] ∧
      (insideRight schema).Agree
        (.call none "right" (rightArguments ⟨6, 19, 1, 7⟩) ⟨0, 21, 1, 1⟩)
        (.call (some (.this ⟨0, 4, 1, 1⟩)) "right" (rightArguments ⟨11, 24, 1, 12⟩)
          ⟨0, 26, 1, 1⟩) ∧
      (insideRight schema).Agree (.property none "count" ⟨0, 5, 1, 1⟩)
        (.property (some (.this ⟨0, 4, 1, 1⟩)) "count" ⟨0, 10, 1, 1⟩) ∧
      Attempt.Same Operation.eraseSpans
        ((insideRight schema).resolveStatement (.assignment none "count" ⟨0, 5, 1, 1⟩
          (.literal (.int 2) ⟨8, 9, 1, 9⟩) ⟨0, 9, 1, 1⟩))
        ((insideRight schema).resolveStatement
          (.assignment (some (.this ⟨0, 4, 1, 1⟩)) "count" ⟨0, 10, 1, 1⟩
            (.literal (.int 2) ⟨13, 14, 1, 14⟩) ⟨0, 14, 1, 1⟩)) := by
  have hok : (Schema.build Schema.mutualCatalog .receiverFunction "Left").toOption.any
      (fun schema =>
        ((schema.classes.find? rightClass).any fun dataClass =>
          dataClass.properties.any (·.name == "count") &&
            dataClass.functions.any (·.name == "right")) &&
        !((insideRight schema).resolveExpr (.call none "right" (rightArguments ⟨6, 19, 1, 7⟩)
          ⟨0, 21, 1, 1⟩)).diagnostics.isEmpty) = true := by
    decide +kernel
  simp only [Option.any_eq_true, Bool.and_eq_true, List.any_eq_true, beq_iff_eq,
    Bool.not_eq_true', List.isEmpty_eq_false_iff] at hok
  obtain ⟨schema, hschema, ⟨dataClass, hclass, ⟨property, hproperty, hcount⟩, function, hfunction,
    hright⟩, hreported⟩ := hok
  have hwithin : (insideRight schema).Within rightClass := ⟨1, rfl⟩
  obtain ⟨hread, hwrite⟩ := (member_agrees_with_this hwithin "count").1 property
    ⟨_, dataClass, rfl, hclass, hproperty⟩ hcount rfl
  have hoffered := Schema.Offers.member hclass hfunction
  rw [hright] at hoffered
  have hcall := (member_agrees_with_this hwithin "right").2 _ _ hoffered
    (rightArguments ⟨6, 19, 1, 7⟩) (rightArguments ⟨11, 24, 1, 12⟩) rfl
  exact ⟨schema, Fallible.toOption_eq_some.mp hschema, hreported, hcall _ _ _, hread _ _ _,
    hwrite (.literal (.int 2) ⟨8, 9, 1, 9⟩) (.literal (.int 2) ⟨13, 14, 1, 14⟩) rfl _ _ _ _ _⟩

end Environment

end ConfigScript
