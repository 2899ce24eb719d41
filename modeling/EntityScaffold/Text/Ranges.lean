/-!
# Sets of characters given by code-point ranges

The tables of the Unicode Character Database that this library carries are lists of closed
ranges; this module reads one.
-/

namespace EntityScaffold.Text

/-- The code point of `c` lies in one of the closed ranges. -/
def inRanges (ranges : List (Nat × Nat)) (c : Char) : Bool :=
  ranges.any fun r => r.1 ≤ c.toNat && c.toNat ≤ r.2

end EntityScaffold.Text
