/-!
# Sets of code points given by ranges

A character class is written down as a list of inclusive ranges of code points; `inRanges` is
membership in the class.
-/

namespace StageChain.Text

/-- Whether a code point lies in one of the inclusive ranges. -/
def inRanges (ranges : List (Nat × Nat)) (codePoint : Nat) : Bool :=
  ranges.any fun range => range.1 ≤ codePoint && codePoint ≤ range.2

/-- Membership in a list of ranges, as a proposition. -/
theorem inRanges_eq_true {ranges : List (Nat × Nat)} {codePoint : Nat} :
    inRanges ranges codePoint = true ↔
      ∃ range ∈ ranges, range.1 ≤ codePoint ∧ codePoint ≤ range.2 := by
  simp [inRanges]

end StageChain.Text
