/-!
# Character ranges

Properties of characters given as tables of inclusive code point ranges.
-/

namespace IRule.Text

/-- Whether a character lies in one of the ranges. -/
def inRanges (ranges : List (Nat × Nat)) (char : Char) : Bool :=
  ranges.any fun (low, high) => decide (low ≤ char.toNat) && decide (char.toNat ≤ high)

end IRule.Text
