/-!
# Ranges of code points

A set of characters as a table: `covers` says whether a code point lies in one of the ranges.
-/

namespace SpiceDeck

/-- Ranges of code points, both ends included, in ascending order. -/
abbrev Ranges := List (Nat × Nat)

namespace Ranges

/-- Looks no further than the first range that starts above `n`. -/
def covers : Ranges → Nat → Bool
  | [], _ => false
  | (low, high) :: rest, n => if n < low then false else n ≤ high || covers rest n

end Ranges

end SpiceDeck
