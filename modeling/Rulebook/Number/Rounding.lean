/-
  Rounding of exact quotients.

  A quotient `num / den` of natural numbers is rounded to the nearest whole number, a half going to
  the even neighbour (`roundHalfEven`).  Every rounding of the library (decimal digits, binary
  floating point, whole multiples of a power of ten) is this function at a scaled quotient.

  * `two_mul_dist_le`: the result is at most half a unit away.
  * `roundHalfEven_mul`: a whole quotient is kept.
-/

namespace Rulebook

/-- `num / den` rounded to the nearest whole number, a half to the even neighbour. -/
def roundHalfEven (num den : Nat) : Nat :=
  let q := num / den
  let r := num % den
  if 2 * r < den then q
  else if den < 2 * r then q + 1
  else if q % 2 = 0 then q else q + 1

/-- A whole quotient is kept. -/
theorem roundHalfEven_mul (q : Nat) {den : Nat} (h : 0 < den) :
    roundHalfEven (q * den) den = q := by
  simp [roundHalfEven, Nat.mul_div_cancel q h, h]

/-- The result is at most half a unit away from the quotient. -/
theorem two_mul_dist_le (num : Nat) {den : Nat} (h : 0 < den) :
    2 * (num - roundHalfEven num den * den) ≤ den ∧
      2 * (roundHalfEven num den * den - num) ≤ den := by
  have hd := Nat.div_add_mod num den
  have hr := Nat.mod_lt num h
  have hm : num / den * den = den * (num / den) := Nat.mul_comm _ _
  have hs : (num / den + 1) * den = den * (num / den) + den := by
    rw [Nat.add_mul, hm, Nat.one_mul]
  simp only [roundHalfEven]
  split
  · omega
  · split
    · omega
    · split <;> omega

/-- The whole number nearest to `n / 10 ^ k`, times `10 ^ k`: `n` with its last `k` decimal digits
    rounded away. -/
def roundToPowerOfTen (n : Int) (k : Nat) : Int :=
  let m := roundHalfEven n.natAbs (Nat.pow 10 k) * Nat.pow 10 k
  if n < 0 then -(m : Int) else m

end Rulebook
