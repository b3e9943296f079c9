/-
# Sets of characters as ranges

Properties of the Unicode standard are kept as ascending lists of ranges of code points, both ends
included.
-/

namespace Dragonstone

def inRanges (ranges : List (Nat × Nat)) (n : Nat) : Bool :=
  ranges.any fun (first, last) => first ≤ n && n ≤ last

end Dragonstone
