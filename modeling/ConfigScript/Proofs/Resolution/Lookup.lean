import ConfigScript.Proofs.Resolution.Attempt
import ConfigScript.Proofs.Resolution.Sound
import ConfigScript.Resolution.Environment

/-!
# Names in scope

Whatever a name can mean at a place of a script is an entity of the schema, as long as the scopes
around the place hold objects and values of known types only.
-/

namespace ConfigScript

namespace Environment

/-- What is in scope is of classes of the schema. -/
structure Known (environment : Environment) : Prop where
  receivers : ∀ scope ∈ environment.scopes, ∀ type ∈ scope.receiver,
    environment.schema.Knows (.named type)
  locals : ∀ scope ∈ environment.scopes, ∀ entry ∈ scope.locals, ∀ type ∈ entry.2.type,
    environment.schema.Knows type

variable {environment : Environment} {name : String} {span : Span}

theorem exists_of_mem_receivers {scopes : List Scope} {depth : Nat} {type : QualifiedName}
    (h : (depth, type) ∈ Scope.receivers scopes) :
    ∃ scope ∈ scopes, scope.receiver = some type := by
  induction scopes with
  | nil => simp [Scope.receivers] at h
  | cons scope scopes ih =>
    unfold Scope.receivers at h
    split at h
    · rename_i own hown
      cases List.mem_cons.mp h with
      | inl heq => exact ⟨scope, List.mem_cons_self, (Prod.mk.inj heq).2 ▸ hown⟩
      | inr hrest =>
        obtain ⟨outer, houter, hreceiver⟩ := ih hrest
        exact ⟨outer, List.mem_cons_of_mem _ houter, hreceiver⟩
    · obtain ⟨outer, houter, hreceiver⟩ := ih h
      exact ⟨outer, List.mem_cons_of_mem _ houter, hreceiver⟩

theorem Known.sound_receiver (h : environment.Known) {depth : Nat} {type : QualifiedName}
    (hmem : (depth, type) ∈ Scope.receivers environment.scopes) :
    environment.schema.SoundExpr (.receiver type depth span) := by
  obtain ⟨scope, hscope, hreceiver⟩ := exists_of_mem_receivers hmem
  exact .receiver (h.receivers scope hscope type hreceiver)

theorem exists_of_local? {binding : LocalBinding} (h : environment.local? name = some binding) :
    ∃ scope ∈ environment.scopes, (name, binding) ∈ scope.locals := by
  obtain ⟨scope, hscope, hlookup⟩ := List.exists_of_findSome?_eq_some h
  obtain ⟨before, after, hlocals, -⟩ := List.lookup_eq_some_iff.mp hlookup
  exact ⟨scope, hscope, by simp [hlocals]⟩

theorem Known.enter (h : environment.Known) {receiver : QualifiedName}
    (hreceiver : environment.schema.Knows (.named receiver)) :
    (environment.enter receiver).Known where
  receivers scope hscope type htype := by
    cases List.mem_cons.mp hscope with
    | inl heq =>
      obtain rfl := heq
      exact Option.some.inj htype ▸ hreceiver
    | inr hmem => exact h.receivers scope hmem type htype
  locals scope hscope entry hentry := by
    cases List.mem_cons.mp hscope with
    | inl heq =>
      obtain rfl := heq
      cases hentry
    | inr hmem => exact h.locals scope hmem entry hentry

/-- Naming a value keeps all scopes, up to a new entry in one of them. -/
theorem mem_declare {binding : LocalBinding} {scopes : List Scope} {scope : Scope}
    (h : scope ∈ Scope.declare name binding scopes) :
    scope ∈ scopes ∨ ∃ old ∈ scopes,
      scope = { old with locals := (name, binding) :: old.locals } := by
  cases scopes with
  | nil => cases h
  | cons first outer =>
    rw [Scope.declare] at h
    split at h
    · exact .inl h
    · cases List.mem_cons.mp h with
      | inl heq => exact .inr ⟨first, List.mem_cons_self, heq⟩
      | inr hmem => exact .inl (List.mem_cons_of_mem _ hmem)

theorem Known.declare (h : environment.Known) {binding : LocalBinding}
    (htype : ∀ type ∈ binding.type, environment.schema.Knows type) :
    { environment with scopes := Scope.declare name binding environment.scopes }.Known where
  receivers scope hscope := by
    rcases mem_declare hscope with hmem | ⟨old, hold, rfl⟩
    · exact h.receivers scope hmem
    · exact h.receivers old hold
  locals scope hscope entry hentry := by
    rcases mem_declare hscope with hmem | ⟨old, hold, rfl⟩
    · exact h.locals scope hmem entry hentry
    · cases List.mem_cons.mp hentry with
      | inl heq => exact heq ▸ htype
      | inr hmem => exact h.locals old hold entry hmem

theorem Known.after (h : environment.Known) {result : Option Operation} {statement : Statement}
    (hresult : ∀ operation ∈ result, environment.schema.SoundOperation operation) :
    (environment.after result statement).Known := by
  cases statement with
  | localValue name value span =>
    refine h.declare fun type htype => ?_
    obtain ⟨operation, hoperation, hbound⟩ := Option.bind_eq_some_iff.mp htype
    cases hresult operation hoperation with
    | bind hvalue => exact Option.some.inj hbound ▸ hvalue.knows
    | write => cases hbound
    | invoke => cases hbound
    | evaluate => cases hbound
  | importName => exact h
  | assignment => exact h
  | expr => exact h

theorem Known.sound_this (h : environment.Known) {value : TypedExpr}
    (hthis : environment.this? span = some value) : environment.schema.SoundExpr value := by
  obtain ⟨⟨depth, type⟩, hhead, rfl⟩ := Option.map_eq_some_iff.mp hthis
  exact h.sound_receiver (List.mem_of_head? hhead)

theorem Known.sound_receiverProperty (h : environment.Known) {receiver : TypedExpr}
    {property : Property}
    (hfound : environment.receiverProperty? name span = some (receiver, property)) :
    environment.schema.SoundExpr receiver ∧
      environment.schema.HasProperty receiver.type property := by
  obtain ⟨⟨depth, type⟩, hmem, hproperty⟩ := List.exists_of_findSome?_eq_some hfound
  obtain ⟨dataClass, hclass, hproperty⟩ := Option.bind_eq_some_iff.mp hproperty
  obtain ⟨read, hread, heq⟩ := Option.bind_eq_some_iff.mp hproperty
  obtain ⟨rfl, rfl⟩ := Prod.mk.inj (Option.some.inj heq)
  exact ⟨h.sound_receiver hmem, type, dataClass, rfl, hclass, List.mem_of_find?_eq_some hread⟩

theorem name_of_receiverProperty? {receiver : TypedExpr} {property : Property}
    (h : environment.receiverProperty? name span = some (receiver, property)) :
    property.name = name ∧ ∃ type depth, receiver = .receiver type depth span := by
  obtain ⟨⟨depth, type⟩, -, h⟩ := List.exists_of_findSome?_eq_some h
  obtain ⟨dataClass, -, h⟩ := Option.bind_eq_some_iff.mp h
  obtain ⟨read, hread, heq⟩ := Option.bind_eq_some_iff.mp h
  obtain ⟨rfl, rfl⟩ := Prod.mk.inj (Option.some.inj heq)
  exact ⟨by simpa using List.find?_some hread, type, depth, rfl⟩

theorem Known.sound_readName (hclosed : environment.schema.Closed) (h : environment.Known)
    {value : TypedExpr} (hread : (environment.readName name span).result = some value) :
    environment.schema.SoundExpr value := by
  unfold readName at hread
  split at hread
  · rename_i type _ hlocal
    obtain rfl := Option.some.inj hread
    obtain ⟨scope, hscope, hentry⟩ := exists_of_local? hlocal
    exact .localValue (h.locals scope hscope _ hentry type rfl)
  · cases hread
  · split at hread
    · rename_i hproperty
      obtain rfl := Option.some.inj hread
      obtain ⟨hreceiver, hhas⟩ := h.sound_receiverProperty hproperty
      exact .property hreceiver hhas (hhas.knows hclosed)
    · split at hread
      · rename_i hobject
        obtain rfl := Option.some.inj hread
        obtain ⟨found, -, hobject⟩ := Option.bind_eq_some_iff.mp hobject
        obtain ⟨type, htype, heq⟩ := Option.bind_eq_some_iff.mp hobject
        obtain ⟨rfl, rfl⟩ := Prod.mk.inj (Option.some.inj heq)
        refine .object htype (hclosed.knows ?_)
        exact List.mem_append_right _ (NameMap.mem_values_iff.mpr ⟨_, htype⟩)
      · cases hread

theorem type_of_memberOwner {receiver : TypedExpr} {owner : TypeRef}
    (h : (memberOwner receiver span).result = some owner) : receiver.type = owner := by
  unfold memberOwner at h
  split at h
  · cases h
  · exact Option.some.inj h

theorem hasProperty_of_memberProperty {receiver : TypedExpr} {property : Property}
    (h : (environment.memberProperty receiver name span).result = some property) :
    environment.schema.HasProperty receiver.type property := by
  obtain ⟨owner, howner, h⟩ := Attempt.result_bind.mp h
  split at h
  · rename_i found hfound
    obtain rfl := Option.some.inj h
    obtain ⟨dataClass, hclass, hfound⟩ := Option.bind_eq_some_iff.mp hfound
    obtain ⟨type, htype, hclass⟩ := Option.bind_eq_some_iff.mp hclass
    have howner := (type_of_memberOwner howner).trans (TypeRef.className?_eq_some.mp htype)
    exact ⟨type, dataClass, howner, hclass, List.mem_of_find?_eq_some hfound⟩
  · cases h

/-- The property that an assignment names, be it writable or not. -/
def namedProperty (environment : Environment) (receiver : Option TypedExpr) (name : String)
    (span : Span) : Attempt (TypedExpr × Property) :=
  match receiver with
  | none => environment.assignedName name span
  | some owner => (owner, ·) <$> environment.memberProperty owner name span

theorem assignedProperty_eq {receiver : Option TypedExpr} :
    environment.assignedProperty receiver name span =
      environment.namedProperty receiver name span >>= fun (owner, property) =>
        if property.readOnly then .fail (.readOnlyProperty property.name) span
        else pure (owner, property) := by
  cases receiver <;> rfl

/-- The functions of a name that a call can reach, if any. -/
def namedFunctions (environment : Environment) (receiver : Option TypedExpr) (name : String)
    (span : Span) : Attempt (Option TypedExpr × List Candidate) :=
  match receiver with
  | some receiver => do
    let owner ← memberOwner receiver span
    pure (some receiver, owner.className?.elim [] (environment.schema.memberCandidates · name))
  | none =>
    match environment.receiverFunctions? name span with
    | some (receiver, candidates) => pure (some receiver, candidates)
    | none =>
      pure (none, (environment.imports.find? name).elim [] environment.schema.packageCandidates)

theorem callTarget_eq {receiver : Option TypedExpr} :
    environment.callTarget receiver name span =
      environment.namedFunctions receiver name span >>= fun (receiver, candidates) =>
        if candidates.isEmpty then .fail (.unresolvedFunction name) span
        else pure (receiver, candidates) := by
  cases receiver with
  | none =>
    unfold callTarget namedFunctions
    cases environment.receiverFunctions? name span with
    | none => cases environment.imports.find? name <;> rfl
    | some found => rfl
  | some receiver =>
    unfold callTarget namedFunctions memberOwner
    dsimp only
    cases receiver.type <;> rfl

theorem Known.sound_assignedProperty (h : environment.Known) {receiver : Option TypedExpr}
    (hreceiver : ∀ value ∈ receiver, environment.schema.SoundExpr value)
    {owner : TypedExpr} {property : Property}
    (hassigned : (environment.assignedProperty receiver name span).result =
      some (owner, property)) :
    environment.schema.SoundExpr owner ∧ environment.schema.HasProperty owner.type property ∧
      property.readOnly = false := by
  rw [assignedProperty_eq] at hassigned
  obtain ⟨⟨found, target⟩, hfound, hassigned⟩ := Attempt.result_bind.mp hassigned
  dsimp only at hassigned
  split at hassigned
  · cases hassigned
  · rename_i hwritable
    obtain ⟨rfl, rfl⟩ := Prod.mk.inj (Attempt.result_pure.mp hassigned)
    refine and_assoc.mp ⟨?_, by simpa using hwritable⟩
    cases receiver with
    | none =>
      change (environment.assignedName name span).result = _ at hfound
      unfold assignedName at hfound
      split at hfound
      · cases hfound
      · cases hfound
      · split at hfound
        · rename_i hproperty
          obtain rfl := Option.some.inj hfound
          exact h.sound_receiverProperty hproperty
        · cases hfound
    | some value =>
      obtain ⟨read, hread, heq⟩ := Attempt.result_map.mp hfound
      obtain ⟨rfl, rfl⟩ := Prod.mk.inj heq
      exact ⟨hreceiver _ rfl, hasProperty_of_memberProperty hread⟩

theorem offers_of_mem_memberCandidates {schema : Schema} {owner : QualifiedName}
    {candidate : Candidate} (h : candidate ∈ schema.memberCandidates owner name) :
    schema.Offers candidate.callee (some (.named owner)) candidate.parameters
      candidate.semantics := by
  unfold Schema.memberCandidates at h
  split at h
  · cases h
  · rename_i dataClass hclass
    obtain ⟨function, hfunction, rfl⟩ := List.mem_map.mp h
    exact .member hclass (List.mem_filter.mp hfunction).1

theorem offers_of_mem_packageCandidates {schema : Schema} (hclosed : schema.Closed)
    {imported : QualifiedName} {candidate : Candidate}
    (h : candidate ∈ schema.packageCandidates imported) :
    schema.Offers candidate.callee none candidate.parameters candidate.semantics := by
  unfold Schema.packageCandidates at h
  split at h
  · rename_i function hfunction
    obtain rfl := List.mem_singleton.mp h
    obtain rfl := (hclosed.functions _ _ hfunction).1
    exact .function hfunction
  · split at h
    · cases h
    · rename_i dataClass hclass
      obtain ⟨constructor, hconstructor, rfl⟩ := List.mem_map.mp h
      exact .constructor hclass hconstructor

theorem exists_of_receiverFunctions? {receiver : TypedExpr} {candidates : List Candidate}
    (h : environment.receiverFunctions? name span = some (receiver, candidates)) :
    ∃ depth type, (depth, type) ∈ Scope.receivers environment.scopes ∧
      receiver = .receiver type depth span ∧
      candidates = environment.schema.memberCandidates type name := by
  obtain ⟨⟨depth, type⟩, hmem, hcandidates⟩ := List.exists_of_findSome?_eq_some h
  dsimp only at hcandidates
  split at hcandidates
  · cases hcandidates
  · obtain ⟨rfl, rfl⟩ := Prod.mk.inj (Option.some.inj hcandidates)
    exact ⟨depth, type, hmem, rfl, rfl⟩

theorem namedFunctions_of_callTarget {receiver target : Option TypedExpr}
    {candidates : List Candidate}
    (h : (environment.callTarget receiver name span).result = some (target, candidates)) :
    (environment.namedFunctions receiver name span).result = some (target, candidates) := by
  rw [callTarget_eq] at h
  obtain ⟨⟨found, functions⟩, hfound, h⟩ := Attempt.result_bind.mp h
  dsimp only at h
  split at h
  · cases h
  · obtain ⟨rfl, rfl⟩ := Prod.mk.inj (Attempt.result_pure.mp h)
    exact hfound

/-- The functions that a call may mean are those of its own receiver, or of an object in scope, or
an imported one without receiver. -/
theorem callTarget_cases {receiver target : Option TypedExpr} {candidates : List Candidate}
    (h : (environment.callTarget receiver name span).result = some (target, candidates)) :
    (∃ value, receiver = some value ∧ target = some value ∧ ∀ candidate ∈ candidates, ∃ type,
        value.type = .named type ∧ candidate ∈ environment.schema.memberCandidates type name) ∨
      (∃ depth type, receiver = none ∧ (depth, type) ∈ Scope.receivers environment.scopes ∧
        target = some (.receiver type depth span) ∧
        candidates = environment.schema.memberCandidates type name) ∨
      receiver = none ∧ target = none ∧ ∀ candidate ∈ candidates, ∃ imported,
        environment.imports.find? name = some imported ∧
          candidate ∈ environment.schema.packageCandidates imported := by
  replace h := namedFunctions_of_callTarget h
  unfold namedFunctions at h
  split at h
  · rename_i value
    obtain ⟨owner, howner, h⟩ := Attempt.result_bind.mp h
    obtain ⟨rfl, rfl⟩ := Prod.mk.inj (Attempt.result_pure.mp h)
    refine .inl ⟨value, rfl, rfl, fun candidate hcandidate => ?_⟩
    cases htype : owner.className? with
    | none => simp [htype] at hcandidate
    | some type =>
      rw [htype] at hcandidate
      exact ⟨type, (type_of_memberOwner howner).trans (TypeRef.className?_eq_some.mp htype),
        hcandidate⟩
  · split at h
    · rename_i members hmembers
      obtain ⟨rfl, rfl⟩ := Prod.mk.inj (Attempt.result_pure.mp h)
      obtain ⟨depth, type, hmem, rfl, rfl⟩ := exists_of_receiverFunctions? hmembers
      exact .inr (.inl ⟨depth, type, rfl, hmem, rfl, rfl⟩)
    · obtain ⟨rfl, rfl⟩ := Prod.mk.inj (Attempt.result_pure.mp h)
      refine .inr (.inr ⟨rfl, rfl, fun candidate hcandidate => ?_⟩)
      cases himport : environment.imports.find? name with
      | none => simp [himport] at hcandidate
      | some imported => exact ⟨imported, rfl, by simpa [himport] using hcandidate⟩

/-- Every function that a call may mean is one that the schema offers for its receiver. -/
theorem offers_of_callTarget (hclosed : environment.schema.Closed)
    {receiver target : Option TypedExpr} {candidates : List Candidate}
    (h : (environment.callTarget receiver name span).result = some (target, candidates))
    {candidate : Candidate} (hcandidate : candidate ∈ candidates) :
    environment.schema.Offers candidate.callee (target.map TypedExpr.type) candidate.parameters
      candidate.semantics := by
  rcases callTarget_cases h with ⟨value, -, rfl, hmembers⟩ | ⟨depth, type, -, -, rfl, rfl⟩ |
    ⟨-, rfl, hpackage⟩
  · obtain ⟨type, htype, hmember⟩ := hmembers candidate hcandidate
    rw [Option.map_some, htype]
    exact offers_of_mem_memberCandidates hmember
  · exact offers_of_mem_memberCandidates hcandidate
  · obtain ⟨imported, -, hmember⟩ := hpackage candidate hcandidate
    exact offers_of_mem_packageCandidates hclosed hmember

theorem Known.sound_callTarget (h : environment.Known) {receiver target : Option TypedExpr}
    {candidates : List Candidate}
    (hreceiver : ∀ value ∈ receiver, environment.schema.SoundExpr value)
    (htarget : (environment.callTarget receiver name span).result = some (target, candidates)) :
    ∀ value ∈ target, environment.schema.SoundExpr value := by
  rcases callTarget_cases htarget with ⟨value, rfl, rfl, -⟩ | ⟨depth, type, -, hmem, rfl, -⟩ |
    ⟨-, rfl, -⟩
  · exact hreceiver
  · rintro _ ⟨⟩
    exact h.sound_receiver hmem
  · simp

end Environment

end ConfigScript
