/-
  Sets of characters as ascending lists of code point ranges, both ends included.
-/
namespace Interpolation.Text

/-- Ascending, disjoint ranges of code points, each given by its two ends. -/
abbrev Ranges := List (Nat × Nat)

/-- Whether a code point lies in one of the ranges; the search stops at the first range beyond it. -/
def Ranges.contains : Ranges → Nat → Bool
  | [], _ => false
  | (low, high) :: rest, n =>
    if n < low then false else if n ≤ high then true else Ranges.contains rest n

end Interpolation.Text
