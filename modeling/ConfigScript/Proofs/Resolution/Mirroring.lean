import ConfigScript.Proofs.Resolution.Scoped
import ConfigScript.Proofs.Resolution.Reporting

/-!
# Scopes that mirror the script

The scopes in which names are looked up mirror the nesting of the script around a place. What a name
is found to mean there is then in scope: an enclosing object, a preceding value or an imported
entity.
-/

namespace ConfigScript

/-- A scope holds what its block configures and has named, though the last value first. -/
def Scope.Mirrors (scope : Scope) (frame : Frame) : Prop :=
  scope.receiver = some frame.receiver ∧
    ∀ name, (scope.locals.lookup name).map LocalBinding.type = frame.locals.lookup name

namespace Scope

variable {scopes : List Scope} {frames : List Frame}

/-- A name that is declared gets a value in the innermost scope if it has none there. -/
theorem declare_cons {name : String} {binding : LocalBinding} {scope : Scope}
    {outer : List Scope} :
    ∃ first, declare name binding (scope :: outer) = first :: outer ∧
      first.receiver = scope.receiver ∧
      ∀ other, first.locals.lookup other =
        (scope.locals.lookup other).or (if other = name then some binding else none) := by
  by_cases hold : (scope.locals.lookup name).isSome
  · refine ⟨scope, if_pos hold, rfl, fun other => ?_⟩
    by_cases hother : other = name
    · obtain ⟨old, hold⟩ := Option.isSome_iff_exists.mp hold
      rw [hother, hold, Option.some_or]
    · rw [if_neg hother, Option.or_none]
  · refine ⟨_, if_neg hold, rfl, fun other => ?_⟩
    rw [Option.not_isSome_iff_eq_none] at hold
    by_cases hother : other = name
    · simp [hother, hold]
    · simp [List.lookup_cons, beq_false_of_ne hother, hother]

/-- Of two values with one name in a block, both the scope and the frame keep the first. -/
theorem mirrors_declare (h : List.Forall₂ Mirrors scopes frames) (name : String)
    (binding : LocalBinding) :
    List.Forall₂ Mirrors (declare name binding scopes)
      (Frame.declare name binding.type frames) := by
  cases h with
  | nil => exact .nil
  | @cons scope frame outer frames hfirst hrest =>
    obtain ⟨first, hdeclare, hreceiver, hlookup⟩ := @declare_cons name binding scope outer
    rw [hdeclare, Frame.declare]
    refine .cons ⟨hreceiver.trans hfirst.1, fun other => ?_⟩ hrest
    rw [hlookup other, List.lookup_append, ← hfirst.2 other]
    by_cases hother : other = name
    · cases scope.locals.lookup other <;> simp [hother]
    · simp [List.lookup_cons, beq_false_of_ne hother, hother]

theorem receiverAt_of_mem_receivers (h : List.Forall₂ Mirrors scopes frames) {depth : Nat}
    {type : QualifiedName} (hmem : (depth, type) ∈ receivers scopes) :
    Frame.ReceiverAt frames depth type := by
  induction h with
  | nil => simp [receivers] at hmem
  | cons hfirst hrest ih =>
    rw [receivers, hfirst.1] at hmem
    cases List.mem_cons.mp hmem with
    | inl heq =>
      obtain ⟨rfl, rfl⟩ := Prod.mk.inj heq
      rw [hrest.length_eq]
      exact Frame.receiverAt_length
    | inr hmem => exact (ih hmem).cons

/-- Every block has a receiver, so the first one is that of the innermost block. -/
theorem depth_of_head_receivers (h : List.Forall₂ Mirrors scopes frames) {depth : Nat}
    {type : QualifiedName} (hhead : (receivers scopes).head? = some (depth, type)) :
    depth + 1 = frames.length := by
  cases h with
  | nil => simp [receivers] at hhead
  | cons hfirst hrest =>
    rw [receivers, hfirst.1] at hhead
    obtain ⟨rfl, -⟩ := Prod.mk.inj (Option.some.inj hhead)
    rw [hrest.length_eq, List.length_cons]

theorem findSome?_lookup (h : List.Forall₂ Mirrors scopes frames) (name : String) :
    (scopes.findSome? fun scope => scope.locals.lookup name).map LocalBinding.type =
      frames.findSome? fun frame => frame.locals.lookup name := by
  induction h with
  | nil => rfl
  | cons hfirst hrest ih =>
    rw [List.findSome?_cons, List.findSome?_cons, ← hfirst.2 name, ← ih]
    cases List.lookup name _ <;> rfl

end Scope

namespace Environment

variable {environment : Environment} {schema : Schema} {script : Block} {frames : List Frame}
  {name : String} {span : Span}

/-- An environment at a place of a script with these frames around it. -/
structure Mirrors (environment : Environment) (schema : Schema) (script : Block)
    (frames : List Frame) : Prop where
  schema_eq : environment.schema = schema
  imports : ∀ name found, environment.imports.find? name = some found →
    schema.IsImported script found
  scopes : List.Forall₂ Scope.Mirrors environment.scopes frames

theorem Mirrors.enter (h : environment.Mirrors schema script frames) (type : QualifiedName) :
    (environment.enter type).Mirrors schema script (⟨type, []⟩ :: frames) where
  schema_eq := h.schema_eq
  imports := h.imports
  scopes := .cons ⟨rfl, fun _ => rfl⟩ h.scopes

theorem Mirrors.after (h : environment.Mirrors schema script frames) (result : Option Operation)
    (statement : Statement) :
    (environment.after result statement).Mirrors schema script
      (Frame.after frames result statement) := by
  cases statement with
  | localValue name value span =>
    exact ⟨h.schema_eq, h.imports, Scope.mirrors_declare h.scopes name _⟩
  | importName => exact h
  | assignment => exact h
  | expr => exact h

theorem Mirrors.scoped_this (h : environment.Mirrors schema script frames) {value : TypedExpr}
    (hthis : environment.this? span = some value) :
    schema.ScopedExpr script frames (.this span) value := by
  obtain ⟨⟨depth, type⟩, hhead, rfl⟩ := Option.map_eq_some_iff.mp hthis
  apply Schema.ScopedExpr.this
  · exact Scope.receiverAt_of_mem_receivers h.scopes (List.mem_of_head? hhead)
  · exact Scope.depth_of_head_receivers h.scopes hhead

theorem Mirrors.scoped_receiverProperty (h : environment.Mirrors schema script frames)
    {receiver : TypedExpr} {property : Property}
    (hfound : environment.receiverProperty? name span = some (receiver, property)) :
    schema.ScopedReceiver script frames none (some receiver) := by
  obtain ⟨⟨depth, type⟩, hmem, hproperty⟩ := List.exists_of_findSome?_eq_some hfound
  obtain ⟨dataClass, -, hproperty⟩ := Option.bind_eq_some_iff.mp hproperty
  obtain ⟨read, -, heq⟩ := Option.bind_eq_some_iff.mp hproperty
  obtain ⟨rfl, rfl⟩ := Prod.mk.inj (Option.some.inj heq)
  exact .scope (Scope.receiverAt_of_mem_receivers h.scopes hmem)

theorem Mirrors.scoped_readName (h : environment.Mirrors schema script frames)
    {value : TypedExpr} (hread : (environment.readName name span).result = some value) :
    schema.ScopedExpr script frames (.property none name span) value := by
  unfold readName at hread
  split at hread
  · rename_i type _ hlocal
    obtain rfl := Option.some.inj hread
    apply Schema.ScopedExpr.localValue
    rw [Frame.LocalIs, ← Scope.findSome?_lookup h.scopes]
    exact congrArg (Option.map LocalBinding.type) hlocal
  · cases hread
  · split at hread
    · rename_i hproperty
      obtain rfl := Option.some.inj hread
      exact .property (h.scoped_receiverProperty hproperty)
    · split at hread
      · rename_i hobject
        obtain rfl := Option.some.inj hread
        obtain ⟨found, hfound, hobject⟩ := Option.bind_eq_some_iff.mp hobject
        obtain ⟨type, htype, heq⟩ := Option.bind_eq_some_iff.mp hobject
        obtain ⟨rfl, rfl⟩ := Prod.mk.inj (Option.some.inj heq)
        exact .object (h.schema_eq ▸ htype) (h.imports name _ hfound) (simpleName_of_find? hfound)
      · cases hread

theorem Mirrors.scoped_assignedProperty (h : environment.Mirrors schema script frames)
    {source : Option Expr} {receiver : Option TypedExpr}
    (hreceiver : Option.Rel (schema.ScopedExpr script frames) source receiver)
    {owner : TypedExpr} {property : Property}
    (hassigned : (environment.assignedProperty receiver name span).result =
      some (owner, property)) :
    schema.ScopedReceiver script frames source (some owner) := by
  rw [assignedProperty_eq] at hassigned
  obtain ⟨⟨found, target⟩, hfound, hassigned⟩ := Attempt.result_bind.mp hassigned
  dsimp only at hassigned
  split at hassigned
  · cases hassigned
  · obtain ⟨rfl, rfl⟩ := Prod.mk.inj (Attempt.result_pure.mp hassigned)
    cases hreceiver with
    | none =>
      change (environment.assignedName name span).result = _ at hfound
      unfold assignedName at hfound
      split at hfound
      · cases hfound
      · cases hfound
      · split at hfound
        · rename_i hproperty
          obtain rfl := Option.some.inj hfound
          exact h.scoped_receiverProperty hproperty
        · cases hfound
    | some hwritten =>
      obtain ⟨read, -, heq⟩ := Attempt.result_map.mp hfound
      obtain ⟨rfl, rfl⟩ := Prod.mk.inj heq
      exact .written hwritten

theorem member_of_mem_memberCandidates {owner : QualifiedName} {candidate : Candidate}
    (h : candidate ∈ schema.memberCandidates owner name) :
    candidate.callee = .member owner name := by
  unfold Schema.memberCandidates at h
  split at h
  · cases h
  · obtain ⟨function, hfunction, rfl⟩ := List.mem_map.mp h
    have hname : function.name = name := by simpa using (List.mem_filter.mp hfunction).2
    exact hname ▸ rfl

theorem scopedCallee_of_mem_packageCandidates (hclosed : schema.Closed)
    {imported : QualifiedName} (himported : schema.IsImported script imported)
    (hname : imported.simpleName = name) {candidate : Candidate}
    (h : candidate ∈ schema.packageCandidates imported) :
    schema.ScopedCallee script none name candidate.callee := by
  unfold Schema.packageCandidates at h
  split at h
  · rename_i function hfunction
    obtain rfl := List.mem_singleton.mp h
    obtain rfl := (hclosed.functions _ _ hfunction).1
    exact .function (NameMap.contains_iff.mpr ⟨_, hfunction⟩) himported hname
  · split at h
    · cases h
    · rename_i dataClass hclass
      obtain ⟨constructor, -, rfl⟩ := List.mem_map.mp h
      exact .constructor (NameMap.contains_iff.mpr ⟨_, hclass⟩) himported hname

theorem Mirrors.scoped_callTarget (hclosed : schema.Closed)
    (h : environment.Mirrors schema script frames) {source : Option Expr}
    {receiver target : Option TypedExpr}
    (hreceiver : Option.Rel (schema.ScopedExpr script frames) source receiver)
    {candidates : List Candidate}
    (htarget : (environment.callTarget receiver name span).result = some (target, candidates)) :
    schema.ScopedReceiver script frames source target ∧
      ∀ candidate ∈ candidates, schema.ScopedCallee script target name candidate.callee := by
  obtain rfl := h.schema_eq
  rcases callTarget_cases htarget with ⟨value, rfl, rfl, hmembers⟩ |
    ⟨depth, type, rfl, hmem, rfl, rfl⟩ | ⟨rfl, rfl, hpackage⟩
  · cases hreceiver with
    | some hwritten =>
      refine ⟨.written hwritten, fun candidate hcandidate => ?_⟩
      obtain ⟨type, htype, hmember⟩ := hmembers candidate hcandidate
      rw [member_of_mem_memberCandidates hmember]
      exact .member htype
  · cases hreceiver with
    | none =>
      refine ⟨.scope (Scope.receiverAt_of_mem_receivers h.scopes hmem), ?_⟩
      intro candidate hcandidate
      rw [member_of_mem_memberCandidates hcandidate]
      exact .member rfl
  · cases hreceiver with
    | none =>
      refine ⟨.none, fun candidate hcandidate => ?_⟩
      obtain ⟨imported, himported, hmember⟩ := hpackage candidate hcandidate
      exact scopedCallee_of_mem_packageCandidates hclosed (h.imports name imported himported)
        (simpleName_of_find? himported) hmember

theorem mem_of_choose {candidates : List Candidate} {arguments : List GivenArgument}
    {hasBlock : Bool} {candidate : Candidate} {bound : List BoundArgument}
    (h : (environment.choose name candidates arguments hasBlock span).result =
      some (candidate, bound)) :
    candidate ∈ candidates ∧
      (bound.map BoundArgument.value).Perm (arguments.map GivenArgument.value) := by
  unfold choose at h
  split at h
  · rename_i selected assignment hselected
    obtain ⟨rfl, rfl⟩ := Prod.mk.inj (Option.some.inj h)
    obtain ⟨hcandidate, haccept⟩ := selectCandidate_eq_ok hselected
    exact ⟨hcandidate, Candidate.values_perm_of_accept haccept⟩
  · cases h

end Environment

namespace Imports

variable {schema : Schema} {undeclared : UndeclaredImports} {script : Block} {imports : Imports}

theorem ofParts_of_imported? {parts : List String} {name : QualifiedName}
    (h : schema.imported? parts = some name) : QualifiedName.ofParts parts = .ok name := by
  unfold Schema.imported? at h
  split at h
  · rename_i found hfound
    split at h
    · obtain rfl := Option.some.inj h
      exact hfound
    · cases h
  · cases h

/-- Taking up an import adds the entity that it names, or changes nothing. -/
theorem register_cases {parts : List String} {span : Span} :
    (imports.register schema undeclared parts span).1 = imports ∨
      ∃ name, QualifiedName.ofParts parts = .ok name ∧
        (imports.register schema undeclared parts span).1 =
          { imports with explicit := imports.explicit ++ [name] } := by
  unfold register
  split
  · split <;> exact .inl rfl
  · rename_i name hname
    split
    · rename_i added hadded
      unfold add at hadded
      split at hadded
      · obtain rfl := Except.ok.inj hadded
        exact .inr ⟨name, ofParts_of_imported? hname, rfl⟩
      · split at hadded
        · exact .inl (Except.ok.inj hadded).symm
        · cases hadded
    · exact .inl rfl

/-- All entities that are visible are named by imports of a script, or are so by default. -/
def AreOf (imports : Imports) (schema : Schema) (script : Block) : Prop :=
  ∀ name ∈ imports.explicit ++ imports.defaults, schema.IsImported script name

theorem AreOf.registerAll {imports : Imports} {names : List (List String × Span)}
    (hnames : ∀ entry ∈ names, entry ∈ script.imports) (h : imports.AreOf schema script) :
    (imports.registerAll schema undeclared names).1.AreOf schema script := by
  induction names generalizing imports with
  | nil => exact h
  | cons entry names ih =>
    obtain ⟨parts, span⟩ := entry
    change (Imports.registerAll schema undeclared
      (imports.register schema undeclared parts span).1 names).1.AreOf schema script
    apply ih (fun other hother => hnames other (List.mem_cons_of_mem _ hother))
    rcases @register_cases schema undeclared imports parts span with hkept | ⟨name, hname, hadded⟩
    · rw [hkept]
      exact h
    · rw [hadded]
      intro other hother
      rw [List.append_assoc, List.mem_append] at hother
      cases hother with
      | inl hold => exact h other (List.mem_append_left _ hold)
      | inr hother =>
        cases List.mem_cons.mp hother with
        | inl heq => exact .inr ⟨(parts, span), hnames _ List.mem_cons_self, heq ▸ hname⟩
        | inr hdefault => exact h other (List.mem_append_right _ hdefault)

theorem mem_of_find? {name : String} {found : QualifiedName}
    (h : imports.find? name = some found) : found ∈ imports.explicit ++ imports.defaults := by
  unfold find? at h
  cases hnamed : named imports.explicit name with
  | some explicit =>
    rw [hnamed] at h
    obtain rfl := Option.some.inj h
    exact List.mem_append_left _ (List.mem_of_find?_eq_some hnamed)
  | none =>
    rw [hnamed] at h
    exact List.mem_append_right _ (List.mem_of_find?_eq_some h)

end Imports

namespace Schema

theorem mirrors_start (schema : Schema) (undeclared : UndeclaredImports) (block : Block) :
    Environment.Mirrors ⟨schema, (Imports.registerAll schema undeclared
      (.ofDefaults schema.defaultImports) block.imports).1, [⟨some schema.receiver, []⟩]⟩
      schema block [⟨schema.receiver, []⟩] where
  schema_eq := rfl
  imports name found hfound := by
    have hstart : (Imports.ofDefaults schema.defaultImports).AreOf schema block :=
      fun name hname => .inl hname
    exact hstart.registerAll (fun _ => id) found (Imports.mem_of_find? hfound)
  scopes := .cons ⟨rfl, fun _ => rfl⟩ .nil

end Schema

end ConfigScript
