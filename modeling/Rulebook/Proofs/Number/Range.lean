/-
  The whole numbers that have a double.

  Half a unit past the largest double the next power of two would be nearer, and in the middle
  between the two it is the even one.  There are no doubles from there on.

  * `lt_exp_iff`: what is rounded to too large a power of two;
  * `ofInt_eq_none_iff`: the whole numbers without a double;
  * `toFloat_int_eq_error_iff`: the fault of taking one for a double.
-/
import Rulebook.Number.Arithmetic
import Rulebook.Proofs.Number.Bits

namespace Rulebook

namespace Binary64

variable {mant : Nat} {exp : Int}

/-- Nothing is packed past the largest double. -/
theorem pack_eq_none (hmant : 2 ^ 52 ≤ mant) (hexp : 971 < exp) (negative : Bool) :
    pack negative mant exp = none := by
  have hnormal : ¬mant < Nat.pow 2 52 := Nat.not_lt.2 hmant
  unfold pack
  dsimp only
  rw [if_neg hnormal, if_pos hexp]

/-- What is rounded past the largest double lies half a unit past it or further. -/
theorem lt_exp_iff {n : Nat} (hr : Rounds mant exp n) (hlow : 2 ^ 52 ≤ mant)
    (hhigh : mant < 2 ^ 53) : 971 < exp ↔ 2 ^ 1024 ≤ n + 2 ^ 970 := by
  have hcast : 2 ^ 1024 ≤ n + 2 ^ 970 ↔ (2 : ℚ) ^ 54 * 2 ^ (970 : ℕ) ≤ n + 2 ^ (970 : ℕ) := by
    rw [← pow_add, ← Nat.cast_le (α := ℚ), Nat.cast_add, Nat.cast_pow, Nat.cast_pow, Nat.cast_ofNat]
  have habove (h : 971 < exp) : 4 * (2 : ℚ) ^ (970 : ℕ) ≤ 2 ^ exp := by
    calc 4 * (2 : ℚ) ^ (970 : ℕ) = 2 ^ ((972 : ℕ) : Int) := by
          rw [zpow_natCast, pow_add _ 2 970]
          norm_num only
      _ ≤ 2 ^ exp := zpow_le_zpow_right₀ (by norm_num) (by omega)
  have hbelow (h : ¬971 < exp) : (2 : ℚ) ^ exp ≤ 2 * 2 ^ (970 : ℕ) := by
    calc (2 : ℚ) ^ exp ≤ 2 ^ ((971 : ℕ) : Int) := zpow_le_zpow_right₀ (by norm_num) (by omega)
      _ = 2 * 2 ^ (970 : ℕ) := by rw [zpow_natCast, pow_succ']
  have hu : (0 : ℚ) < 2 ^ (970 : ℕ) := pow_pos two_pos 970
  have hpos := two_zpow_pos exp
  rw [hcast]
  generalize (2 : ℚ) ^ (970 : ℕ) = u at habove hbelow hu
  constructor
  · intro hexp
    -- only the least mantissa has a quarter below it, and half a unit is less than what others add
    have hunits : (2 : ℚ) ^ 52 - 1 / 4 ≤ mant - gapBelow mant exp := by
      rcases Nat.eq_or_lt_of_le hlow with rfl | hmore
      · rw [gapBelow, if_pos ⟨rfl, by omega⟩]
        norm_num
      · have hmant : (2 : ℚ) ^ 52 + 1 ≤ mant := by exact_mod_cast hmore
        have hgap := gapBelow_le mant exp
        linarith
    calc (2 : ℚ) ^ 54 * u = (2 ^ 52 - 1 / 4) * (4 * u) + u := by ring
      _ ≤ (mant - gapBelow mant exp) * 2 ^ exp + u := by
        have hscale := habove hexp
        gcongr
      _ ≤ n + u := by linarith [hr.lower]
  · intro hn
    by_contra hexp
    have hscale := hbelow hexp
    rcases Nat.eq_or_lt_of_le (Nat.succ_le_of_lt hhigh) with hmax | hless
    · -- the largest mantissa is odd, so the midpoint above it goes the other way
      have hodd : ¬mant % 2 = 0 := by omega
      have hne : (n : ℚ) ≠ (mant + 1 / 2) * 2 ^ exp := fun h => hodd (hr.even (.inr h))
      have hlt := lt_of_le_of_ne hr.upper hne
      have hmant : (mant : ℚ) + 1 = 2 ^ 53 := by exact_mod_cast hmax
      nlinarith
    · have hmant : (mant : ℚ) + 2 ≤ 2 ^ 53 := by exact_mod_cast hless
      have hupper := hr.upper
      nlinarith

/-- **A whole number has a double unless it is half a unit past the largest one or further.** -/
theorem ofInt_eq_none_iff {n : Int} : ofInt n = none ↔ 2 ^ 1024 ≤ n.natAbs + 2 ^ 970 := by
  rcases Nat.eq_zero_or_pos n.natAbs with hzero | hpos
  · have hc : Canonical 0 (-1074) := ⟨by norm_num, le_rfl, by norm_num, .inr rfl⟩
    rw [ofInt, hzero, ofRatio, if_pos rfl, pack_eq hc, Nat.zero_add]
    refine iff_of_false nofun fun h => ?_
    exact absurd ((Nat.pow_le_pow_iff_right (by decide)).1 h) (by decide)
  · obtain ⟨hlow, hhigh⟩ := leadingPlace_bounds hpos Nat.one_pos
    have hplace : -53 < leadingPlace n.natAbs 1 := by
      have hone : (2 : ℚ) ^ (0 : Int) ≤ n.natAbs / (1 : Nat) := by
        rw [zpow_zero, Nat.cast_one, div_one]
        exact_mod_cast hpos
      have h := (zpow_lt_zpow_iff_right₀ (by norm_num : (1 : ℚ) < 2)).1 (hone.trans_lt hhigh)
      omega
    obtain ⟨mant, exp, hr, hleast, hmost, hexp, -⟩ := exists_rounds hlow hhigh
    have hrounded : Rounded mant exp := ⟨hmost, by omega, .inl hleast⟩
    rw [ofInt, ofRatio_of_rounds hrounded hpos Nat.one_pos hr]
    rw [Nat.cast_one, div_one] at hr
    rw [← lt_exp_iff hr hleast hmost]
    by_cases hpast : 971 < exp
    · exact iff_of_true (pack_eq_none hleast hpast _) hpast
    · have hc : Canonical mant exp := ⟨hmost, by omega, by omega, .inl hleast⟩
      rw [pack_eq hc]
      exact iff_of_false nofun hpast

end Binary64

/-- A whole number is taken for a double unless there is none. -/
theorem Number.toFloat_int_eq_error_iff {n : Int} {f : Fault} : (Number.int n).toFloat = .error f ↔
    f = .integerTooLargeForFloat ∧ 2 ^ 1024 ≤ n.natAbs + 2 ^ 970 := by
  rw [← Binary64.ofInt_eq_none_iff, Number.toFloat]
  cases Binary64.ofInt n with
  | none => simp [eq_comm]
  | some x => simp

end Rulebook
