import ConfigScript.Proofs.Resolution.Reporting
import ConfigScript.Proofs.Resolution.Soundness

/-!
# What is reported about statements

Imports are registered before any statement is resolved, and only there can a problem with an import
be reported. Nothing that the resolution of a statement reports concerns an import, at whatever
depth of blocks, arguments and receivers.
-/

namespace ConfigScript

namespace Attempt

variable {α β : Type}

/-- An attempt that reports nothing about imports. -/
def SparesImports (attempt : Attempt α) : Prop :=
  ∀ diagnostic ∈ attempt.diagnostics, ¬ diagnostic.ConcernsImport

theorem spares_ok {value : α} : (ok value).SparesImports := by
  simp [SparesImports, ok]

theorem spares_silent : (silent : Attempt α).SparesImports := by
  simp [SparesImports, silent]

theorem spares_fail {cause : Diagnostic.Cause} {span : Span}
    (h : cause.code ≠ .unresolvedImport ∧ cause.code ≠ .ambiguousImport) :
    (fail cause span : Attempt α).SparesImports := by
  intro diagnostic hmem hconcerns
  obtain rfl := List.mem_singleton.mp hmem
  cases hconcerns with
  | inl hunresolved => exact h.1 hunresolved
  | inr hambiguous => exact h.2 hambiguous

theorem SparesImports.bind {first : Attempt α} {next : α → Attempt β}
    (hfirst : first.SparesImports) (hnext : ∀ value, (next value).SparesImports) :
    (first >>= next).SparesImports := by
  change (first.andThen next).SparesImports
  unfold andThen
  cases first.result with
  | none => exact hfirst
  | some value =>
    intro diagnostic hmem
    cases List.mem_append.mp hmem with
    | inl hmem => exact hfirst diagnostic hmem
    | inr hmem => exact hnext value diagnostic hmem

theorem SparesImports.map {first : Attempt α} {change : α → β} (h : first.SparesImports) :
    (change <$> first).SparesImports :=
  h.bind fun _ => spares_ok

theorem SparesImports.both {first : Attempt α} {second : Attempt β}
    (hfirst : first.SparesImports) (hsecond : second.SparesImports) :
    (first.both second).SparesImports := by
  intro diagnostic hmem
  cases List.mem_append.mp hmem with
  | inl hmem => exact hfirst diagnostic hmem
  | inr hmem => exact hsecond diagnostic hmem

end Attempt

namespace Environment

open Attempt

variable {environment : Environment} {name : String} {span : Span}

theorem spares_readName : (environment.readName name span).SparesImports := by
  unfold readName
  split
  · exact spares_ok
  · exact spares_silent
  · split
    · exact spares_ok
    · split
      · exact spares_ok
      · exact spares_fail (by simp [Diagnostic.Cause.code])

theorem spares_memberOwner {receiver : TypedExpr} :
    (memberOwner receiver span).SparesImports := by
  unfold memberOwner
  split
  · exact spares_fail (by simp [Diagnostic.Cause.code])
  · exact spares_ok

theorem spares_memberProperty {receiver : TypedExpr} :
    (environment.memberProperty receiver name span).SparesImports := by
  refine spares_memberOwner.bind fun owner => ?_
  split
  · exact spares_ok
  · exact spares_fail (by simp [Diagnostic.Cause.code])

theorem spares_assignedProperty {receiver : Option TypedExpr} :
    (environment.assignedProperty receiver name span).SparesImports := by
  have hnamed : (environment.namedProperty receiver name span).SparesImports := by
    cases receiver with
    | some owner => exact spares_memberProperty.map
    | none =>
      change (environment.assignedName name span).SparesImports
      unfold assignedName
      split
      · exact spares_fail (by simp [Diagnostic.Cause.code])
      · exact spares_silent
      · split
        · exact spares_ok
        · exact spares_fail (by simp [Diagnostic.Cause.code])
  rw [assignedProperty_eq]
  refine hnamed.bind fun found => ?_
  dsimp only
  split
  · exact spares_fail (by simp [Diagnostic.Cause.code])
  · exact spares_ok

theorem spares_callTarget {receiver : Option TypedExpr} :
    (environment.callTarget receiver name span).SparesImports := by
  have hnamed : (environment.namedFunctions receiver name span).SparesImports := by
    unfold namedFunctions
    split
    · exact spares_memberOwner.bind fun _ => spares_ok
    · split <;> exact spares_ok
  rw [callTarget_eq]
  refine hnamed.bind fun found => ?_
  dsimp only
  split
  · exact spares_fail (by simp [Diagnostic.Cause.code])
  · exact spares_ok

theorem spares_choose {candidates : List Candidate} {arguments : List GivenArgument}
    {hasBlock : Bool} :
    (environment.choose name candidates arguments hasBlock span).SparesImports := by
  unfold choose
  split
  · exact spares_ok
  · rename_i cause hcause
    exact spares_fail (code_of_selectCandidate hcause)

theorem spares_checkAssignable {property : Property} {value : TypedExpr} :
    (environment.checkAssignable property value span).SparesImports := by
  unfold checkAssignable
  split
  · exact spares_ok
  · exact spares_fail (by simp [Diagnostic.Cause.code])

mutual

theorem spares_resolveExpr {environment : Environment} (source : Expr) :
    (environment.resolveExpr source).SparesImports := by
  cases source with
  | literal value span =>
    rw [resolveExpr]
    exact spares_ok
  | null span =>
    rw [resolveExpr]
    exact spares_ok
  | this span =>
    rw [resolveExpr]
    split
    · exact spares_ok
    · exact spares_fail (by simp [Diagnostic.Cause.code])
  | property receiver name span =>
    cases receiver with
    | none =>
      rw [resolveExpr]
      exact spares_readName
    | some owner =>
      rw [resolveExpr]
      exact (spares_resolveExpr owner).bind fun _ => spares_memberProperty.bind fun _ => spares_ok
  | call receiver name arguments span =>
    rw [resolveExpr]
    refine (spares_resolveReceiver receiver).bind fun owner => ?_
    refine spares_callTarget.bind fun target => ?_
    refine (spares_resolveArguments arguments).bind fun values => ?_
    refine spares_choose.bind fun choice => ?_
    exact (spares_resolveBlock arguments).bind fun _ => spares_ok

theorem spares_resolveReceiver {environment : Environment} (source : Option Expr) :
    (environment.resolveReceiver source).SparesImports := by
  cases source with
  | none =>
    rw [resolveReceiver]
    exact spares_ok
  | some source =>
    rw [resolveReceiver]
    exact (spares_resolveExpr source).map

theorem spares_resolveArguments {environment : Environment} (arguments : List Argument) :
    (environment.resolveArguments arguments).SparesImports := by
  cases arguments with
  | nil =>
    rw [resolveArguments]
    exact spares_ok
  | cons argument arguments =>
    cases argument with
    | positional value span =>
      rw [resolveArguments]
      exact ((spares_resolveExpr value).both (spares_resolveArguments arguments)).bind
        fun _ => spares_ok
    | named name value span =>
      rw [resolveArguments]
      exact ((spares_resolveExpr value).both (spares_resolveArguments arguments)).bind
        fun _ => spares_ok
    | lambda body span =>
      rw [resolveArguments]
      exact spares_resolveArguments arguments

theorem spares_resolveBlock {environment : Environment} {configured : Option QualifiedName}
    (arguments : List Argument) :
    (environment.resolveBlock configured arguments).SparesImports := by
  cases arguments with
  | nil =>
    rw [resolveBlock]
    exact spares_ok
  | cons argument arguments =>
    cases argument with
    | positional value span =>
      rw [resolveBlock_positional]
      exact spares_resolveBlock arguments
    | named name value span =>
      rw [resolveBlock_named]
      exact spares_resolveBlock arguments
    | lambda body span =>
      obtain ⟨statements, bodySpan⟩ := body
      rw [resolveBlock_lambda]
      cases configured with
      | none => exact spares_ok
      | some type => exact spares_resolveStatements statements

theorem spares_resolveStatement {environment : Environment} (statement : Statement) :
    (environment.resolveStatement statement).SparesImports := by
  cases statement with
  | importName parts span =>
    rw [resolveStatement]
    exact spares_silent
  | assignment receiver name target value span =>
    rw [resolveStatement]
    refine (spares_resolveReceiver receiver).bind fun owner => ?_
    refine spares_assignedProperty.bind fun found => ?_
    refine (spares_resolveExpr value).bind fun resolved => ?_
    exact spares_checkAssignable.bind fun _ => spares_ok
  | localValue name value span =>
    rw [resolveStatement]
    split
    · exact spares_fail (by simp [Diagnostic.Cause.code])
    · exact (spares_resolveExpr value).bind fun _ => spares_ok
  | expr value =>
    rw [resolveStatement]
    exact (spares_resolveExpr value).bind fun _ => spares_ok

theorem spares_resolveStatements {environment : Environment} (statements : List Statement) :
    ∀ diagnostic ∈ (environment.resolveStatements statements).diagnostics,
      ¬ diagnostic.ConcernsImport := by
  cases statements with
  | nil =>
    rw [resolveStatements]
    simp
  | cons statement statements =>
    rw [resolveStatements]
    intro diagnostic hmem
    cases List.mem_append.mp hmem with
    | inl hfirst => exact spares_resolveStatement statement diagnostic hfirst
    | inr hrest => exact spares_resolveStatements statements diagnostic hrest

end

end Environment

end ConfigScript
