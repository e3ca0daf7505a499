/-
  Quantities: numbers that can be averaged and compared.

  Clocks, waiting times and means are computed on a `Quantity`, so that the rules for them do not
  depend on how such numbers are rounded.  Doubles are the quantity that programs run on.
-/
import Rulebook.Number.Arithmetic

namespace Rulebook

/-- Numbers that can be averaged and compared. -/
class Quantity (τ : Type) where
  ofNat : Nat → τ
  add : τ → τ → τ
  sub : τ → τ → τ
  mul : τ → τ → τ
  div : τ → τ → τ
  /-- The quotient of two counts, which is rounded once if it is rounded at all. -/
  share : Nat → Nat → τ
  less : τ → τ → Bool
  /-- Whether the first is not greater than the second; false of what has no order. -/
  atMost : τ → τ → Bool

namespace Quantity

variable {τ : Type} [Quantity τ]

/-- The quantity zero. -/
def zero : τ := ofNat 0

/-- The mean of `n` quantities, given the mean of all but the last of them and the last one. -/
def nextMean (mean : τ) (n : Nat) (last : τ) : τ :=
  div (add (mul mean (ofNat (n - 1))) last) (ofNat n)

end Quantity

/-- A count as a double. -/
def Binary64.ofNat (n : Nat) : Float :=
  (Binary64.ofRatio false n 1).getD (Binary64.infinity false)

instance : Quantity Float where
  ofNat := Binary64.ofNat
  add := (· + ·)
  sub := (· - ·)
  mul := (· * ·)
  div := (· / ·)
  share part whole := (Binary64.ofRatio false part whole).getD (Binary64.infinity false)
  less x y := x < y
  atMost x y := x ≤ y

end Rulebook
