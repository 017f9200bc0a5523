/-! # Sets of characters

A set of characters is a list of ranges of code points. Each range is given by its first and its
last code point. The ranges of a table stand in ascending order, with a gap between any two.
-/

namespace Interop

/-- Whether ranges are ascending and begin behind a code point with a gap before each. -/
def ascendingFrom (least : Nat) : List (Nat × Nat) → Bool
  | [] => true
  | (first, last) :: rest => least ≤ first && first ≤ last && ascendingFrom (last + 2) rest

/-- Ranges of code points, both ends included. -/
structure CharRanges where
  ranges : List (Nat × Nat)
  ascending : ascendingFrom 0 ranges = true

namespace CharRanges

def has (table : CharRanges) (c : Char) : Bool :=
  table.ranges.any fun range => range.1 ≤ c.toNat && c.toNat ≤ range.2

end CharRanges

end Interop
