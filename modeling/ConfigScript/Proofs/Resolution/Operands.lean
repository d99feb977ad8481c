import ConfigScript.Proofs.Resolution.Framed
import ConfigScript.Proofs.Resolution.Soundness
import ConfigScript.Proofs.Syntax.Nodes

/-!
# Operands

Resolving an expression or a statement means resolving its operands first and then, when all of them
have come to a value, looking at the node itself. So what is reported about a node is what is
reported about the operands that were tried, then at most one problem of its own, then what is
reported about the block behind a call. A node with a failed operand adds nothing.
-/

namespace ConfigScript

/-- The values of the arguments that are no lambdas, in order. -/
def Argument.values : List Argument → List Expr
  | [] => []
  | .positional value _ :: arguments => value :: values arguments
  | .named _ value _ :: arguments => value :: values arguments
  | .lambda _ _ :: arguments => values arguments

namespace Node

/-- The places at which a problem of a node itself is reported: that of the node, and for an
assignment those of its target and of its value. -/
def places : Node → List Span
  | .statement (.assignment _ _ target value _) => [target, value.span]
  | node => [node.span]

/-- The block behind a call. -/
def body? : Node → Option Block
  | .expr (.call _ _ arguments _) => Argument.firstLambda? arguments
  | _ => none

end Node

namespace Attempt

variable {α β : Type} {span : Span}

/-- An attempt of one step: it comes to a value, or fails with at most one report, at a place. -/
inductive Plain (span : Span) : Attempt α → Prop
  | ok (value : α) : Plain span (ok value)
  | silent : Plain span silent
  | fail (cause : Diagnostic.Cause) : Plain span (fail cause span)

theorem Plain.bind {first : Attempt α} {next : α → Attempt β} (h : Plain span first)
    (hnext : ∀ value, Plain span (next value)) : Plain span (first >>= next) := by
  cases h with
  | ok value => exact hnext value
  | silent => exact .silent
  | fail cause => exact .fail cause

theorem Plain.map {first : Attempt α} {change : α → β} (h : Plain span first) :
    Plain span (change <$> first) :=
  h.bind fun value => .ok (change value)

theorem Plain.diagnostics_of_some {attempt : Attempt α} (h : Plain span attempt) {value : α}
    (hresult : attempt.result = some value) : attempt.diagnostics = [] := by
  cases h with
  | ok value => rfl
  | silent => cases hresult
  | fail cause => cases hresult

theorem diagnostics_map {first : Attempt α} {change : α → β} :
    (change <$> first).diagnostics = first.diagnostics := by
  change (first.andThen _).diagnostics = _
  unfold andThen
  cases first.result with
  | none => rfl
  | some value => exact List.append_nil _

theorem isSome_map {first : Attempt α} {change : α → β} :
    (change <$> first).result.isSome = first.result.isSome := by
  change (first.andThen _).result.isSome = _
  unfold andThen
  cases first.result with
  | none => rfl
  | some value => rfl

theorem isSome_both {first : Attempt α} {second : Attempt β} :
    (first.both second).result.isSome = (first.result.isSome && second.result.isSome) := by
  unfold both
  cases first.result with
  | none => rfl
  | some left =>
    cases second.result with
    | none => rfl
    | some right => rfl

theorem bind_assoc {γ : Type} {first : Attempt α} {second : α → Attempt β}
    {third : β → Attempt γ} :
    first >>= second >>= third = first >>= fun value => second value >>= third := by
  cases hfirst : first.result with
  | none => rw [bind_of_none (bind_of_none hfirst ▸ rfl), bind_of_none hfirst, bind_of_none hfirst]
  | some value =>
    rw [bind_of_some hfirst, bind_of_some hfirst]
    change andThen _ third = ⟨(andThen _ third).result, _ ++ (andThen _ third).diagnostics⟩
    unfold andThen
    dsimp only
    cases (second value).result with
    | none => rfl
    | some result => simp only [List.append_assoc]

/-- The attempt with what was reported before it. -/
def reporting (earlier : List Diagnostic) (attempt : Attempt α) : Attempt α :=
  ⟨attempt.result, earlier ++ attempt.diagnostics⟩

theorem bind_reporting {earlier : List Diagnostic} {first : Attempt α} {next : α → Attempt β} :
    first.reporting earlier >>= next = (first >>= next).reporting earlier := by
  change andThen _ next = reporting earlier (andThen first next)
  unfold andThen reporting
  cases first.result with
  | none => rfl
  | some value => simp only [List.append_assoc]

theorem Plain.exists_own {attempt : Attempt α} (h : Plain span attempt) :
    ∃ own : Option Diagnostic, attempt.diagnostics = own.toList ∧
      ∀ found ∈ own, found.span = span ∧ attempt.result = none := by
  cases h with
  | ok value => exact ⟨none, rfl, by simp⟩
  | silent => exact ⟨none, rfl, by simp⟩
  | fail cause => exact ⟨some ⟨cause, span⟩, rfl, by simp⟩

end Attempt

namespace Environment

open Attempt

variable {environment : Environment} {name : String} {span : Span}

theorem plain_readName : Plain span (environment.readName name span) := by
  unfold readName
  split
  · exact .ok _
  · exact .silent
  · split
    · exact .ok _
    · split
      · exact .ok _
      · exact .fail _

theorem plain_memberOwner {receiver : TypedExpr} : Plain span (memberOwner receiver span) := by
  unfold memberOwner
  split
  · exact .fail _
  · exact .ok _

theorem plain_memberProperty {receiver : TypedExpr} :
    Plain span (environment.memberProperty receiver name span) := by
  refine plain_memberOwner.bind fun owner => ?_
  split
  · exact .ok _
  · exact .fail _

theorem plain_assignedProperty {receiver : Option TypedExpr} :
    Plain span (environment.assignedProperty receiver name span) := by
  have hnamed : Plain span (environment.namedProperty receiver name span) := by
    cases receiver with
    | some owner => exact plain_memberProperty.map
    | none =>
      change Plain span (environment.assignedName name span)
      unfold assignedName
      split
      · exact .fail _
      · exact .silent
      · split
        · exact .ok _
        · exact .fail _
  rw [assignedProperty_eq]
  refine hnamed.bind fun found => ?_
  dsimp only
  split
  · exact .fail _
  · exact .ok _

theorem plain_callTarget {receiver : Option TypedExpr} :
    Plain span (environment.callTarget receiver name span) := by
  have hnamed : Plain span (environment.namedFunctions receiver name span) := by
    unfold namedFunctions
    split
    · exact plain_memberOwner.bind fun _ => .ok _
    · split
      · exact .ok _
      · exact .ok _
  rw [callTarget_eq]
  refine hnamed.bind fun found => ?_
  dsimp only
  split
  · exact .fail _
  · exact .ok _

theorem plain_choose {candidates : List Candidate} {arguments : List GivenArgument}
    {hasBlock : Bool} :
    Plain span (environment.choose name candidates arguments hasBlock span) := by
  unfold choose
  split
  · exact .ok _
  · exact .fail _

theorem plain_checkAssignable {property : Property} {value : TypedExpr} :
    Plain span (environment.checkAssignable property value span) := by
  unfold checkAssignable
  split
  · exact .ok _
  · exact .fail _

/-- What is reported about an expression or a statement, all that stands in it included. -/
def reported (environment : Environment) : Node → List Diagnostic
  | .expr value => (environment.resolveExpr value).diagnostics
  | .statement statement => (environment.resolveStatement statement).diagnostics
  | _ => []

/-- Whether an expression comes to a value, or a statement to an operation. -/
def Resolves (environment : Environment) : Node → Prop
  | .expr value => (environment.resolveExpr value).result.isSome
  | .statement statement => (environment.resolveStatement statement).result.isSome
  | _ => False

/-- What a call without its arguments means. -/
def callee (environment : Environment) (receiver : Option Expr) (name : String) (span : Span) :
    Attempt (Option TypedExpr × List Candidate) := do
  let receiver ← environment.resolveReceiver receiver
  environment.callTarget receiver name span

/-- What an assignment without its value means. -/
def assigned (environment : Environment) (receiver : Option Expr) (name : String)
    (target : Span) : Attempt (TypedExpr × Property) := do
  let receiver ← environment.resolveReceiver receiver
  environment.assignedProperty receiver name target

/-- The operands of a node that are resolved before it: the receiver, the arguments of a call whose
name means something, the value of an assignment to a property, an initialiser. -/
def operands (environment : Environment) : Node → List Expr
  | .expr (.property receiver _ _) => receiver.toList
  | .expr (.call receiver name arguments span) =>
    receiver.toList ++
      if (environment.callee receiver name span).result.isSome then Argument.values arguments
      else []
  | .statement (.assignment receiver name target value _) =>
    receiver.toList ++
      if (environment.assigned receiver name target).result.isSome then [value] else []
  | .statement (.localValue name value _) =>
    if (environment.declaredHere? name).isSome then [] else [value]
  | .statement (.expr value) => [value]
  | _ => []

/-- The statements of a sequence, each with the environment in which it is resolved. -/
def along (environment : Environment) : List Statement → List (Environment × Statement)
  | [] => []
  | statement :: statements =>
    (environment, statement) ::
      (environment.after (environment.resolveStatement statement).result statement).along statements

theorem diagnostics_resolveStatements (statements : List Statement) :
    (environment.resolveStatements statements).diagnostics =
      (environment.along statements).flatMap fun entry =>
        entry.1.reported (.statement entry.2) := by
  induction statements generalizing environment with
  | nil =>
    rw [resolveStatements]
    rfl
  | cons statement statements ih =>
    rw [resolveStatements, along, List.flatMap_cons, ← ih]
    rfl

theorem mem_of_mem_along {statements : List Statement} {entry : Environment × Statement}
    (h : entry ∈ environment.along statements) : entry.2 ∈ statements := by
  induction statements generalizing environment with
  | nil => cases h
  | cons statement statements ih =>
    cases List.mem_cons.mp h with
    | inl heq => exact heq ▸ List.mem_cons_self
    | inr hrest => exact List.mem_cons_of_mem _ (ih hrest)

/-- How what is reported about a node comes about: from its operands, from the node itself, and from
the block behind a call. -/
structure Accounts (environment : Environment) (node : Node) (own : Option Diagnostic)
    (inside : List Diagnostic) : Prop where
  reported : environment.reported node =
    (environment.operands node).flatMap (fun operand => environment.reported (.expr operand)) ++
      own.toList ++ inside
  own : ∀ found ∈ own, found.span ∈ node.places ∧ ¬ environment.Resolves node ∧
    ∀ operand ∈ environment.operands node, environment.Resolves (.expr operand)
  resolved : environment.Resolves node →
    ∀ operand ∈ environment.operands node, environment.Resolves (.expr operand)
  inside : inside ≠ [] → environment.Resolves node ∧ ∃ statements span type,
    node.body? = some (.mk statements span) ∧
      inside = ((environment.enter type).along statements).flatMap fun entry =>
        entry.1.reported (.statement entry.2)

/-! ### The operands come first -/

theorem diagnostics_resolveReceiver (receiver : Option Expr) :
    (environment.resolveReceiver receiver).diagnostics =
      receiver.toList.flatMap fun operand => environment.reported (.expr operand) := by
  cases receiver with
  | none =>
    rw [resolveReceiver]
    rfl
  | some source =>
    rw [resolveReceiver, diagnostics_map]
    simp [reported]

theorem isSome_resolveReceiver {receiver : Option Expr} :
    (environment.resolveReceiver receiver).result.isSome ↔
      ∀ operand ∈ receiver.toList, environment.Resolves (.expr operand) := by
  cases receiver with
  | none =>
    rw [resolveReceiver]
    simp
  | some source =>
    rw [resolveReceiver, isSome_map]
    simp [Resolves]

/-- All arguments are resolved, and their values are missing when one of them is. -/
theorem resolveArguments_eq (environment : Environment) (arguments : List Argument) :
    (environment.resolveArguments arguments).diagnostics =
        (Argument.values arguments).flatMap (fun operand => environment.reported (.expr operand)) ∧
      ((environment.resolveArguments arguments).result.isSome ↔
        ∀ operand ∈ Argument.values arguments, environment.Resolves (.expr operand)) := by
  induction arguments with
  | nil =>
    rw [resolveArguments]
    simp [Argument.values, ok]
  | cons argument arguments ih =>
    obtain ⟨hdiagnostics, hresult⟩ := ih
    have hgiven : ∀ (value : Expr) (change : TypedExpr × List GivenArgument → List GivenArgument),
        let attempt := change <$>
          (environment.resolveExpr value).both (environment.resolveArguments arguments)
        attempt.diagnostics = (value :: Argument.values arguments).flatMap
            (fun operand => environment.reported (.expr operand)) ∧
          (attempt.result.isSome ↔ ∀ operand ∈ value :: Argument.values arguments,
            environment.Resolves (.expr operand)) := by
      intro value change
      dsimp only
      rw [diagnostics_map, isSome_map, isSome_both, Bool.and_eq_true, hresult, both, hdiagnostics,
        List.flatMap_cons, List.forall_mem_cons]
      exact ⟨rfl, Iff.rfl⟩
    cases argument with
    | positional value span =>
      rw [resolveArguments]
      exact hgiven value _
    | named name value span =>
      rw [resolveArguments]
      exact hgiven value _
    | lambda body span =>
      rw [resolveArguments]
      exact ⟨hdiagnostics, hresult⟩

/-- The block behind a call is resolved in any case, and reports what its statements do. -/
theorem resolveBlock_eq (environment : Environment) (configured : Option QualifiedName)
    (arguments : List Argument) :
    (environment.resolveBlock configured arguments).result.isSome ∧
      ((environment.resolveBlock configured arguments).diagnostics ≠ [] →
        ∃ statements span type, Argument.firstLambda? arguments = some (.mk statements span) ∧
          (environment.resolveBlock configured arguments).diagnostics =
            ((environment.enter type).along statements).flatMap fun entry =>
              entry.1.reported (.statement entry.2)) := by
  induction arguments with
  | nil =>
    rw [resolveBlock]
    simp [ok]
  | cons argument arguments ih =>
    cases argument with
    | positional value span =>
      rw [resolveBlock_positional]
      exact ih
    | named name value span =>
      rw [resolveBlock_named]
      exact ih
    | lambda body span =>
      obtain ⟨statements, bodySpan⟩ := body
      rw [resolveBlock_lambda]
      cases configured with
      | none => simp [ok]
      | some type =>
        exact ⟨rfl, fun _ =>
          ⟨statements, bodySpan, type, rfl, diagnostics_resolveStatements statements⟩⟩

/-! ### The node comes last -/

/-- A last step about a node: it reports at most one problem of the node, or, when there is none,
what the block behind a call does. -/
structure Completes {α : Type} (environment : Environment) (node : Node) (attempt : Attempt α)
    (own : Option Diagnostic) (inside : List Diagnostic) : Prop where
  reported : attempt.diagnostics = own.toList ++ inside
  own : ∀ found ∈ own, found.span ∈ node.places ∧ attempt.result = none
  inside : inside ≠ [] → attempt.result.isSome ∧ ∃ statements span type,
    node.body? = some (.mk statements span) ∧
      inside = ((environment.enter type).along statements).flatMap fun entry =>
        entry.1.reported (.statement entry.2)

theorem completes_of_plain {node : Node} {α : Type} {attempt : Attempt α}
    (h : Plain span attempt) (hspan : span ∈ node.places) :
    ∃ own inside, environment.Completes node attempt own inside := by
  obtain ⟨own, hown, hplace⟩ := h.exists_own
  refine ⟨own, [], by rw [hown, List.append_nil], fun found hfound => ?_, by simp⟩
  obtain ⟨hat, hfailed⟩ := hplace found hfound
  exact ⟨hat ▸ hspan, hfailed⟩

/-- What is reported about a node is what is reported about its operands and, when all of them have
a value, about the last step. -/
theorem accounts_of_bind {node : Node} {α β : Type} (first : Attempt α) (next : α → Attempt β)
    (hreported : environment.reported node = (first >>= next).diagnostics)
    (hresolves : environment.Resolves node ↔ (first >>= next).result.isSome)
    (hfirst : first.diagnostics =
      (environment.operands node).flatMap fun operand => environment.reported (.expr operand))
    (hoperands : first.result.isSome ↔
      ∀ operand ∈ environment.operands node, environment.Resolves (.expr operand))
    (hnext : ∀ value, first.result = some value →
      ∃ own inside, environment.Completes node (next value) own inside) :
    ∃ own inside, environment.Accounts node own inside := by
  cases hvalue : first.result with
  | none =>
    rw [bind_of_none hvalue] at hreported hresolves
    have hnot : ¬ environment.Resolves node := by simp [hresolves]
    refine ⟨none, [], ?_, by simp, fun h => absurd h hnot, by simp⟩
    rw [hreported, hfirst]
    simp
  | some value =>
    rw [hvalue] at hoperands
    rw [bind_of_some hvalue] at hreported hresolves
    obtain ⟨own, inside, hlast⟩ := hnext value hvalue
    refine ⟨own, inside, ?_, fun found hfound => ?_, fun _ => hoperands.mp rfl, fun hne => ?_⟩
    · rw [hreported, hlast.reported, hfirst, List.append_assoc]
    · obtain ⟨hplace, hfailed⟩ := hlast.own found hfound
      exact ⟨hplace, by simp [hresolves, hfailed], hoperands.mp rfl⟩
    · obtain ⟨hresult, hbody⟩ := hlast.inside hne
      exact ⟨hresolves.mpr hresult, hbody⟩

/-- A node without operands is looked at right away. -/
theorem accounts_of_plain {node : Node} {α : Type} (attempt : Attempt α) (span : Span)
    (hreported : environment.reported node = attempt.diagnostics)
    (hresolves : environment.Resolves node ↔ attempt.result.isSome)
    (hoperands : environment.operands node = [])
    (h : Plain span attempt) (hspan : span ∈ node.places) :
    ∃ own inside, environment.Accounts node own inside := by
  apply accounts_of_bind (ok ()) (fun _ => attempt) hreported hresolves
  · simp [hoperands, ok]
  · simp [hoperands]
  · intro _ _
    exact completes_of_plain h hspan

section Targets

variable {α β γ : Type} {node : Node} {receiver : Option Expr}
  {target : Option TypedExpr → Attempt α}

/-- When it cannot be told what a name of the receiver means, nothing else is resolved. -/
theorem accounts_of_target_none (hplain : ∀ value, Plain span (target value))
    (hspan : span ∈ node.places)
    (hnone : (environment.resolveReceiver receiver >>= target).result = none)
    (hreported : environment.reported node =
      (environment.resolveReceiver receiver >>= target).diagnostics)
    (hresolves : ¬ environment.Resolves node)
    (hoperands : environment.operands node = receiver.toList) :
    ∃ own inside, environment.Accounts node own inside := by
  apply accounts_of_bind (environment.resolveReceiver receiver) target hreported
  case hresolves => simp [hresolves, hnone]
  case hfirst => rw [hoperands, diagnostics_resolveReceiver]
  case hoperands => rw [hoperands, isSome_resolveReceiver]
  case hnext =>
    intro value _
    exact completes_of_plain (hplain value) hspan

/-- Behind the receiver and the meaning of a name, the other operands are resolved. -/
theorem accounts_of_target_some (hplain : ∀ value, Plain span (target value)) {found : α}
    (hfound : (environment.resolveReceiver receiver >>= target).result = some found)
    (later : List Expr) (rest : Attempt β) (next : β → Attempt γ)
    (hrest : rest.diagnostics = later.flatMap fun operand => environment.reported (.expr operand))
    (hlater : rest.result.isSome ↔ ∀ operand ∈ later, environment.Resolves (.expr operand))
    (hreported : environment.reported node =
      (environment.resolveReceiver receiver >>= target).diagnostics ++ (rest >>= next).diagnostics)
    (hresolves : environment.Resolves node ↔ (rest >>= next).result.isSome)
    (hoperands : environment.operands node = receiver.toList ++ later)
    (hnext : ∀ value, rest.result = some value →
      ∃ own inside, environment.Completes node (next value) own inside) :
    ∃ own inside, environment.Accounts node own inside := by
  obtain ⟨value, hvalue, hmeaning⟩ := result_bind.mp hfound
  have hquiet := (hplain value).diagnostics_of_some hmeaning
  have htarget : (environment.resolveReceiver receiver >>= target).diagnostics =
      receiver.toList.flatMap fun operand => environment.reported (.expr operand) := by
    rw [bind_of_some hvalue, hquiet, diagnostics_resolveReceiver, List.append_nil]
  have hall := isSome_resolveReceiver.mp (Option.isSome_iff_exists.mpr ⟨value, hvalue⟩)
  apply accounts_of_bind
    (rest.reporting (environment.resolveReceiver receiver >>= target).diagnostics) next
  case hreported => rw [hreported, bind_reporting, reporting]
  case hresolves => rw [hresolves, bind_reporting, reporting]
  case hfirst => rw [hoperands, List.flatMap_append, reporting, htarget, hrest]
  case hoperands =>
    rw [hoperands, List.forall_mem_append, reporting, hlater]
    exact ⟨fun h => ⟨hall, h⟩, fun h => h.2⟩
  case hnext => exact hnext

end Targets

/-- Of the functions that a name means one is chosen, and then its block is resolved. -/
theorem completes_call {receiver : Option Expr} {arguments : List Argument}
    {candidates : List Candidate} {values : List GivenArgument} {hasBlock : Bool}
    (configured : Candidate → Option QualifiedName)
    (result : Candidate × List BoundArgument → Option (List Operation) → TypedExpr) :
    ∃ own inside, environment.Completes (.expr (.call receiver name arguments span))
      (environment.choose name candidates values hasBlock span >>= fun chosen =>
        environment.resolveBlock (configured chosen.1) arguments >>= fun block =>
          pure (result chosen block)) own inside := by
  have hplain : Plain span (environment.choose name candidates values hasBlock span) :=
    plain_choose
  cases hchosen : (environment.choose name candidates values hasBlock span).result with
  | none =>
    rw [bind_of_none hchosen]
    obtain ⟨own, hown, hplace⟩ := hplain.exists_own
    refine ⟨own, [], by rw [hown, List.append_nil], fun found hfound => ?_, by simp⟩
    exact ⟨List.mem_singleton.mpr (hplace found hfound).1, rfl⟩
  | some chosen =>
    rw [bind_of_some hchosen, hplain.diagnostics_of_some hchosen]
    obtain ⟨hresult, hbody⟩ :=
      resolveBlock_eq environment (configured chosen.1) arguments
    obtain ⟨block, hblock⟩ := Option.isSome_iff_exists.mp hresult
    refine ⟨none, (environment.resolveBlock (configured chosen.1) arguments).diagnostics, ?_,
      by simp, fun hne => ⟨?_, hbody hne⟩⟩
    · rw [bind_of_some hblock]
      simp [pure, ok]
    · rw [bind_of_some hblock]
      rfl

theorem accounts_call (receiver : Option Expr) (name : String) (arguments : List Argument)
    (span : Span) :
    ∃ own inside, environment.Accounts (.expr (.call receiver name arguments span)) own inside := by
  have hcall : environment.resolveExpr (.call receiver name arguments span) =
      environment.callee receiver name span >>= fun target =>
        environment.resolveArguments arguments >>= fun values =>
          environment.choose name target.2 values (arguments.any Argument.isLambda) span >>=
            fun chosen => environment.resolveBlock
              (chosen.1.semantics.configuredType?.bind TypeRef.className?) arguments >>=
                fun block => pure (TypedExpr.invocation
                  (.mk chosen.1.callee target.1 chosen.1.semantics chosen.2 block span)) := by
    rw [resolveExpr, callee, bind_assoc]
  have hplain : ∀ value, Plain span (environment.callTarget value name span) :=
    fun _ => plain_callTarget
  obtain ⟨hvalues, hgiven⟩ := resolveArguments_eq environment arguments
  cases htarget : (environment.callee receiver name span).result with
  | none =>
    apply accounts_of_target_none hplain ?hspan htarget
    case hspan => exact List.mem_singleton_self span
    case hreported => rw [reported, hcall, bind_of_none htarget, callee]
    case hresolves => simp [Resolves, hcall, bind_of_none htarget]
    case hoperands => simp [operands, htarget]
  | some target =>
    apply accounts_of_target_some hplain htarget (Argument.values arguments)
      (environment.resolveArguments arguments) _ hvalues hgiven
    case hreported => rw [reported, hcall, bind_of_some htarget, callee]
    case hresolves => rw [Resolves, hcall, bind_of_some htarget]
    case hoperands => simp [operands, htarget]
    case hnext =>
      intro values _
      exact completes_call
        (fun candidate => candidate.semantics.configuredType?.bind TypeRef.className?)
        fun chosen block => .invocation
          (.mk chosen.1.callee target.1 chosen.1.semantics chosen.2 block span)

theorem accounts_expr (source : Expr) :
    ∃ own inside, environment.Accounts (.expr source) own inside := by
  cases source with
  | literal value span =>
    apply accounts_of_plain (ok (TypedExpr.constant value span)) span
    case h => exact .ok _
    case hspan => exact List.mem_singleton_self _
    all_goals simp only [reported, Resolves, operands, resolveExpr]
  | null span =>
    apply accounts_of_plain (ok (TypedExpr.null span)) span
    case h => exact .ok _
    case hspan => exact List.mem_singleton_self _
    all_goals simp only [reported, Resolves, operands, resolveExpr]
  | this span =>
    apply accounts_of_plain (environment.resolveExpr (.this span)) span
    case h =>
      rw [resolveExpr]
      split
      · exact .ok _
      · exact .fail _
    case hspan => exact List.mem_singleton_self _
    all_goals simp only [reported, Resolves, operands]
  | property receiver name span =>
    cases receiver with
    | none =>
      apply accounts_of_plain (environment.readName name span) span
      case h => exact plain_readName
      case hspan => exact List.mem_singleton_self _
      all_goals simp only [reported, Resolves, operands, resolveExpr, Option.toList_none]
    | some owner =>
      apply accounts_of_bind (environment.resolveExpr owner) fun owner =>
        environment.memberProperty owner name span >>= fun property =>
          pure (TypedExpr.property owner property span)
      case hnext =>
        intro value _
        exact completes_of_plain (plain_memberProperty.bind fun _ => .ok _)
          (List.mem_singleton_self span)
      all_goals simp [reported, Resolves, operands, resolveExpr]
  | call receiver name arguments span => exact accounts_call receiver name arguments span

theorem accounts_assignment (receiver : Option Expr) (name : String) (target : Span)
    (value : Expr) (span : Span) : ∃ own inside,
      environment.Accounts (.statement (.assignment receiver name target value span)) own
        inside := by
  have hassignment : environment.resolveStatement (.assignment receiver name target value span) =
      environment.assigned receiver name target >>= fun found =>
        environment.resolveExpr value >>= fun resolved =>
          environment.checkAssignable found.2 resolved value.span >>= fun _ =>
            pure (Operation.write found.1 found.2 resolved span) := by
    rw [resolveStatement, assigned, bind_assoc]
  have hplain : ∀ owner, Plain target (environment.assignedProperty owner name target) :=
    fun _ => plain_assignedProperty
  cases hfound : (environment.assigned receiver name target).result with
  | none =>
    apply accounts_of_target_none hplain (by simp [Node.places]) hfound
    case hreported => rw [reported, hassignment, bind_of_none hfound, assigned]
    case hresolves => simp [Resolves, hassignment, bind_of_none hfound]
    case hoperands => simp [operands, hfound]
  | some found =>
    apply accounts_of_target_some hplain hfound [value] (environment.resolveExpr value)
      fun resolved => environment.checkAssignable found.2 resolved value.span >>= fun _ =>
        pure (Operation.write found.1 found.2 resolved span)
    case hrest => simp [reported]
    case hlater => simp [Resolves]
    case hreported => rw [reported, hassignment, bind_of_some hfound, assigned]
    case hresolves => rw [Resolves, hassignment, bind_of_some hfound]
    case hoperands => simp [operands, hfound]
    case hnext =>
      intro resolved _
      have hcheck : Plain value.span
          (environment.checkAssignable found.2 resolved value.span) := plain_checkAssignable
      exact completes_of_plain (hcheck.bind fun _ => .ok _) (by simp [Node.places])

theorem accounts_statement (source : Statement) :
    ∃ own inside, environment.Accounts (.statement source) own inside := by
  cases source with
  | importName parts span =>
    apply accounts_of_plain (silent : Attempt Operation) span
    case h => exact .silent
    case hspan => exact List.mem_singleton_self _
    all_goals simp only [reported, Resolves, operands, resolveStatement]
  | assignment receiver name target value span =>
    exact accounts_assignment receiver name target value span
  | localValue name value span =>
    cases hdeclared : environment.declaredHere? name with
    | some first =>
      apply accounts_of_plain (fail (.duplicateLocal name first.span) span : Attempt Operation) span
      case h => exact .fail _
      case hspan => exact List.mem_singleton_self _
      all_goals simp [reported, Resolves, operands, resolveStatement, hdeclared]
    | none =>
      apply accounts_of_bind (environment.resolveExpr value)
        fun value => pure (Operation.bind name value span)
      case hnext =>
        intro resolved _
        exact completes_of_plain (.ok _) (List.mem_singleton_self _)
      all_goals simp [reported, Resolves, operands, resolveStatement, hdeclared]
  | expr value =>
    apply accounts_of_bind (environment.resolveExpr value)
      fun value => pure (Operation.ofExpr value)
    case hnext =>
      intro resolved _
      exact completes_of_plain (.ok _) (List.mem_singleton_self _)
    all_goals simp [reported, Resolves, operands, resolveStatement]

/-- What is reported about any node is accounted for by its operands, itself and its block. -/
theorem exists_accounts (environment : Environment) (node : Node) :
    ∃ own inside, environment.Accounts node own inside := by
  cases node with
  | expr source => exact accounts_expr source
  | statement source => exact accounts_statement source
  | argument source => exact ⟨none, [], rfl, by simp, by simp [Resolves], by simp⟩
  | block source => exact ⟨none, [], rfl, by simp, by simp [Resolves], by simp⟩

end Environment

end ConfigScript
