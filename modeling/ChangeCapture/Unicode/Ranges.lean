/-!
# Ranges of characters

Properties of characters are kept as lists of ranges of code points, in rising
order.
-/

namespace ChangeCapture.Unicode

/-- Whether a code point lies in one of the ranges.  Both ends belong to a range. -/
def inRanges (ranges : List (Nat × Nat)) (c : Nat) : Bool :=
  ranges.any fun r => r.1 ≤ c && c ≤ r.2

end ChangeCapture.Unicode
