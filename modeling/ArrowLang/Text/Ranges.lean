/-!
# Ranges of code points

A character class is a list of ranges in ascending order, each with both of its ends.
-/

namespace ArrowLang.Text

/-- Membership in ascending ranges; the search ends at the first range that starts above `n`. -/
def inRanges : List (Nat × Nat) → Nat → Bool
  | [], _ => false
  | (first, last) :: ranges, n => first ≤ n && (n ≤ last || inRanges ranges n)

end ArrowLang.Text
