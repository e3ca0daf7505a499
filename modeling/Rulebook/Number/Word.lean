/-
  Words: the whole numbers that fit a signed machine word.

  Lengths, positions and limits are kept in words, so numbers past these bounds are refused where
  one is asked for.
-/

namespace Rulebook.Word

/-- The largest number of a word of 64 bits. -/
def largest : Int := 9223372036854775807

/-- The largest number of a word of 32 bits. -/
def largestHalf : Int := 2147483647

/-- Whether a number fits a word of 64 bits. -/
def fits (n : Int) : Bool :=
  -largest - 1 ≤ n ∧ n ≤ largest

/-- Whether a number fits a word of 32 bits. -/
def fitsHalf (n : Int) : Bool :=
  -largestHalf - 1 ≤ n ∧ n ≤ largestHalf

end Rulebook.Word
