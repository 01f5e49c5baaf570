/-
**Classes of characters.**

A class of characters is a list of ranges of code points, both ends included.  The tables of the
library list their ranges in ascending order and leave something out between two of them, so that a
class has only one table.

Main definitions

* `Calculator.CodePoints`, `Calculator.CodePoints.has` — a class, and whether a character is in it;
* `Calculator.CodePoints.isAscending` — whether a table is in order;
* `Calculator.CodePoints.isClearOf` — whether a table leaves out everything between two code points.

Main results

* `Calculator.CodePoints.has_eq_false_of_isClearOf` — what a table leaves out is not in its class.
-/

set_option autoImplicit false

namespace Calculator

/-- A class of characters: ranges of code points, both ends included. -/
abbrev CodePoints := List (Nat × Nat)

namespace CodePoints

/-- Whether a character is in a class. -/
def has (ranges : CodePoints) (c : Char) : Bool :=
  ranges.any fun r => decide (r.1 ≤ c.toNat) && decide (c.toNat ≤ r.2)

/-- Whether the ranges of a table are not empty, in ascending order, and apart from each other,
given the least code point that the first of them may start with. -/
def isAscendingFrom (least : Nat) : CodePoints → Bool
  | [] => true
  | (low, high) :: ranges =>
      decide (least ≤ low) && decide (low ≤ high) && isAscendingFrom (high + 2) ranges

/-- Whether the ranges of a table are not empty, in ascending order, and apart from each other. -/
def isAscending (ranges : CodePoints) : Bool := isAscendingFrom 0 ranges

/-- Whether no range of a table reaches between two code points, both included. -/
def isClearOf (low high : Nat) (ranges : CodePoints) : Bool :=
  ranges.all fun r => decide (r.2 < low) || decide (high < r.1)

/-- What a table leaves out is not in its class. -/
theorem has_eq_false_of_isClearOf {low high : Nat} {ranges : CodePoints}
    (h : ranges.isClearOf low high) {c : Char} (hlow : low ≤ c.toNat) (hhigh : c.toNat ≤ high) :
    ranges.has c = false := by
  refine List.any_eq_false.2 fun r hr hin => ?_
  have hclear := List.all_eq_true.1 h r hr
  simp only [Bool.or_eq_true, Bool.and_eq_true, decide_eq_true_eq] at hclear hin
  omega

end CodePoints

end Calculator
