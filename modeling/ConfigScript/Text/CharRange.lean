/-!
# Ranges of code points

Character classes of the Unicode standard are kept as ascending lists of closed ranges of code
points, looked up one by one. The tables of this library follow version 17.0 of the standard.
-/

namespace ConfigScript.Text

/-- A closed range of code points, first and last. -/
abbrev CharRange := Nat × Nat

def CharRange.contains (range : CharRange) (c : Char) : Bool :=
  range.1 ≤ c.toNat && c.toNat ≤ range.2

/-- Whether a character lies in one of the ranges. -/
def inRanges (ranges : List CharRange) (c : Char) : Bool :=
  ranges.any fun range => range.contains c

/-- Ranges ascend and do not touch, so a table has one form only. -/
def Ascending (ranges : List CharRange) : Prop :=
  (∀ range ∈ ranges, range.1 ≤ range.2) ∧ ranges.Pairwise fun a b => a.2 + 1 < b.1

instance (ranges : List CharRange) : Decidable (Ascending ranges) := by
  unfold Ascending; infer_instance

/-- How many code points the ranges cover. -/
def coverage (ranges : List CharRange) : Nat :=
  ranges.foldr (fun range count => range.2 + 1 - range.1 + count) 0

end ConfigScript.Text
