/-!
# Sets of code points

A character class beyond ASCII is a sorted array of disjoint closed intervals, and membership is a bisection. The
number of halvings is bounded by the number of intervals, so the search is structural and always ends with an
answer.
-/

namespace ContractMigration.Text

/-- Disjoint closed intervals of code points, in increasing order. -/
abbrev Ranges := Array (Nat × Nat)

namespace Ranges

/-- Looks for `point` among the intervals with index at least `low` and below `high`. -/
def bisect (ranges : Ranges) (point : Nat) : (halvings low high : Nat) → Bool
  | 0, _, _ => false
  | halvings + 1, low, high =>
    if high ≤ low then false
    else
      let middle := (low + high) / 2
      match ranges[middle]? with
      | none => false
      | some (first, last) =>
        if point < first then bisect ranges point halvings low middle
        else if last < point then bisect ranges point halvings (middle + 1) high
        else true

/-- Whether one of the intervals holds the point. -/
def contains (ranges : Ranges) (point : Nat) : Bool :=
  bisect ranges point (ranges.size.log2 + 2) 0 ranges.size

end Ranges

end ContractMigration.Text
