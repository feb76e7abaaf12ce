/-!
# Ranges of code points

A set of characters is given by the ranges of its code points, in increasing order.
-/

namespace BorrowIR

/-- A range of code points, both ends included. -/
abbrev CodeRange := Nat × Nat

/-- A code point lies in one of some ranges. The ranges are in increasing order, so the search ends
at the first range behind the code point. -/
def CodeRange.cover (n : Nat) : List CodeRange → Bool
  | [] => false
  | (first, last) :: ranges => if n < first then false else n ≤ last || cover n ranges

end BorrowIR
