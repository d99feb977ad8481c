/-!
# Spans

Where a node stands in its source: the byte offsets of its two ends, and the line and column of
its start, both counted from one, columns in characters. All four are counted without a bound here.
The written form has bounds, and every source of fewer than `2 ^ 32 - 1` characters keeps them.
-/

namespace ConfigScript

structure Span where
  start : Nat
  stop : Nat
  line : Nat
  column : Nat
deriving DecidableEq, Repr, Inhabited

namespace Span

/-- The span that stands for no place at all. -/
def blank : Span :=
  ⟨0, 0, 0, 0⟩

/-- Line and column as messages show them. -/
def place (span : Span) : String :=
  toString span.line ++ ":" ++ toString span.column

/-- Offsets fit 64 bits, line and column 32: the bounds of the written form. -/
def Fits (span : Span) : Prop :=
  span.start < UInt64.size ∧ span.stop < UInt64.size ∧ span.line < UInt32.size ∧
    span.column < UInt32.size

instance (span : Span) : Decidable span.Fits := by
  unfold Fits; infer_instance

end Span

end ConfigScript
