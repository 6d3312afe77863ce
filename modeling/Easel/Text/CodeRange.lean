/-!
# Ranges of code points

Properties of characters beyond ASCII are given as lists of closed ranges of code points.
-/

namespace Easel.Text

/-- A closed range of code points, by its first and its last member. -/
abbrev CodeRange := Nat × Nat

/-- Whether one of the ranges holds `c`. -/
def CodeRange.covers (ranges : List CodeRange) (c : Char) : Bool :=
  ranges.any fun range => range.1 ≤ c.toNat && c.toNat ≤ range.2

end Easel.Text
