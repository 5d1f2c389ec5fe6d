import SlideDeck.Text.Basic

/-!
# Ranges of code points

A character property of the character standard is a table of ranges of code
points.
-/

set_option autoImplicit false

namespace SlideDeck.Text

/-- A property as the ranges of code points that have it, both ends included. -/
abbrev CodeRanges := List (Nat × Nat)

/-- Whether the character lies in one of the ranges. -/
def CodeRanges.holds (ranges : CodeRanges) (c : Char) : Bool :=
  ranges.any fun (first, last) => decide (first ≤ c.toNat) && decide (c.toNat ≤ last)

end SlideDeck.Text
