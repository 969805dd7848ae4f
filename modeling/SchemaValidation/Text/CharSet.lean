/-!
# Sets of characters

A set of characters is written as the ranges of its code points, in ascending order, each with its
first and its last.  The tables of this library that hold a property of Unicode are such sets.
They follow version 17 of the standard, with the characters known to be added after it.
-/

namespace SchemaValidation

namespace Text

structure CharSet where
  ranges : List (Nat × Nat)

namespace CharSet

/-- A code point lies in one of some ascending ranges.  The search ends at the first range that
begins behind it. -/
def covers (n : Nat) : List (Nat × Nat) → Bool
  | [] => false
  | (first, last) :: rest => first ≤ n && (n ≤ last || covers n rest)

def contains (s : CharSet) (c : Char) : Bool := covers c.toNat s.ranges

end CharSet

end Text

end SchemaValidation
