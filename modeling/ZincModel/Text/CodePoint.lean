/-!
# Sets of characters as ranges of code points

Character classes of a standard are written down as closed ranges of code points in ascending order. One
lookup serves all of them.
-/

namespace ZincModel.Text

/-- The code point `n` lies in one of the closed ranges `ranges`. -/
def inRanges (ranges : List (Nat × Nat)) (n : Nat) : Bool :=
  ranges.any fun r => r.1 ≤ n && n ≤ r.2

end ZincModel.Text
