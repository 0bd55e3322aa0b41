/-!
# Ranges of characters

Classes of characters are given by the inclusive ranges of their code points, in increasing
order.
-/

namespace ResponseModel

namespace Text

/-- Whether a code point lies in one of the ranges. -/
def inRanges (ranges : List (Nat × Nat)) (code : Nat) : Bool :=
  ranges.any fun range => decide (range.1 ≤ code ∧ code ≤ range.2)

end Text

end ResponseModel
