/-!
# Tables of character ranges

A character property with many members is a list of closed ranges of code points.
`inRanges` looks a character up in such a list, and `inRanges_iff` says what a hit means.
-/

set_option autoImplicit false

namespace LooseC

/-- The code point of `c` lies in one of the ranges. Both ends of a range belong to it. -/
def inRanges (ranges : List (Nat × Nat)) (c : Char) : Bool :=
  ranges.any fun r => decide (r.1 ≤ c.toNat) && decide (c.toNat ≤ r.2)

/-- A table holds a character exactly when one of its ranges does. -/
theorem inRanges_iff {ranges : List (Nat × Nat)} {c : Char} :
    inRanges ranges c = true ↔ ∃ r ∈ ranges, r.1 ≤ c.toNat ∧ c.toNat ≤ r.2 := by
  simp [inRanges]

end LooseC
