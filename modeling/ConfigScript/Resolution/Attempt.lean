import ConfigScript.Resolution.Diagnostic

/-!
# Attempts

An attempt to resolve a part of a script has a result unless it failed, and in either case the
diagnostics that were reported on the way. A failure need not report anything: what depends on a
part that failed fails silently, so that each problem is reported once.
-/

namespace ConfigScript

structure Attempt (α : Type) where
  result : Option α
  diagnostics : List Diagnostic

namespace Attempt

variable {α β : Type}

def ok (value : α) : Attempt α :=
  ⟨some value, []⟩

/-- A failure whose reason has been reported elsewhere. -/
def silent : Attempt α :=
  ⟨none, []⟩

def fail (cause : Diagnostic.Cause) (span : Span) : Attempt α :=
  ⟨none, [⟨cause, span⟩]⟩

/-- A second attempt that needs the result of the first. -/
def andThen (first : Attempt α) (next : α → Attempt β) : Attempt β :=
  match first.result with
  | none => ⟨none, first.diagnostics⟩
  | some value => ⟨(next value).result, first.diagnostics ++ (next value).diagnostics⟩

instance : Monad Attempt where
  pure := ok
  bind := andThen

/-- Two attempts that are both made, whether or not the first one fails. -/
def both (first : Attempt α) (second : Attempt β) : Attempt (α × β) where
  result := do return (← first.result, ← second.result)
  diagnostics := first.diagnostics ++ second.diagnostics

end Attempt

end ConfigScript
