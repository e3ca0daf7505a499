/-
  Sets of characters.

  A property of characters is stored as the ascending code points at which it changes between
  "no" and "yes": a character has the property iff an odd number of them is at most its own.
-/

namespace Rulebook

/-- A set of code points by the points at which membership changes, in ascending order. -/
structure CodeSet where
  changes : Array Nat

namespace CodeSet

/-- How many of the points between positions `low` and `high` are at most `c`, plus `low`, by
    halving the gap at most `fuel` times. -/
def search (points : Array Nat) (c : Nat) : Nat → Nat → Nat → Nat
  | 0, low, _ => low
  | fuel + 1, low, high =>
    if high ≤ low then low
    else
      let mid := (low + high) / 2
      if points.getD mid 0 ≤ c then search points c fuel (mid + 1) high
      else search points c fuel low mid

/-- Whether a character is in the set. -/
def mem (s : CodeSet) (c : Char) : Bool :=
  search s.changes c.toNat (s.changes.size.log2 + 2) 0 s.changes.size % 2 = 1

end CodeSet

end Rulebook
