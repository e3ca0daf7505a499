/-
  The size of sums of doubles.

  A sum of doubles is computed exactly and rounded once.  Rounding moves it by less than its last
  place, so a sum that is not too small or too large is a double of its own sign and about its own
  size (`add_sized`, `sub_sized`).
-/
import Rulebook.Proofs.Number.Bits

open Float.Model Float.Model.UnpackedFloat

namespace Rulebook.Binary64

/-! ## Rounding -/

theorem mantissa_shiftRight (em : ExtendedMantissa) (k : Nat) :
    (em >>> k).mantissa = em.mantissa / 2 ^ k := by
  induction k with
  | zero => exact (Nat.div_one _).symm
  | succ k ih =>
    change (em >>> k).mantissa / 2 = _
    rw [ih, Nat.div_div_eq_div_mul, Nat.pow_succ]

theorem roundedMantissa_bounds (em : ExtendedMantissa) :
    em.mantissa ≤ em.roundedMantissa ∧ em.roundedMantissa ≤ em.mantissa + 1 := by
  obtain ⟨m, roundBit, stickyBit⟩ := em
  change m ≤ Accuracy.roundToNearestEven m _ ∧ Accuracy.roundToNearestEven m _ ≤ m + 1
  cases roundBit <;> cases stickyBit <;>
    simp only [ExtendedMantissa.accuracy, Accuracy.roundToNearestEven] <;> omega

theorem targetExponent_eq {place : Int} (h : -1021 ≤ place) :
    Format.binary64.targetExponent place = place - 53 := by
  change max (place - 53) (-1074) = place - 53
  omega

/-- A mantissa cut to 53 bits. -/
theorem shift_spec {m : Nat} {e : Int} (h : -1021 ≤ totalExponent m e)
    (he : e ≤ totalExponent m e - 53) :
    (shiftToTargetExponent .binary64 m e .exact).1.mantissa =
        m / 2 ^ (totalExponent m e - 53 - e).toNat ∧
      (shiftToTargetExponent .binary64 m e .exact).2 = totalExponent m e - 53 := by
  unfold shiftToTargetExponent shiftToExponent
  rw [targetExponent_eq h]
  refine ⟨mantissa_shiftRight _ _, ?_⟩
  dsimp only
  omega

theorem log2_bounds_cut {m k : Nat} (hm : m.log2 = 52 + k) :
    2 ^ 52 ≤ m / 2 ^ k ∧ m / 2 ^ k < 2 ^ 53 := by
  have hne : m ≠ 0 := by
    rintro rfl
    simp at hm
    omega
  have hk : 0 < 2 ^ k := Nat.pow_pos (by norm_num)
  rw [Nat.le_div_iff_mul_le hk, Nat.div_lt_iff_lt_mul hk, ← Nat.pow_add, ← Nat.pow_add,
    show 53 + k = m.log2 + 1 by omega, ← hm]
  exact ⟨Nat.log2_self_le hne, Nat.lt_log2_self⟩

/-- A mantissa that may have been rounded up to 54 bits is cut once more. -/
theorem shift_rounded {r : Nat} {place : Int} (hlow : 2 ^ 52 ≤ r) (hhigh : r ≤ 2 ^ 53)
    (hplace : -1074 ≤ place) :
    ∃ mant exp, 2 ^ 52 ≤ mant ∧ mant < 2 ^ 53 ∧ place ≤ exp ∧ exp ≤ place + 1 ∧
      (shiftToTargetExponent .binary64 r place .exact).1.mantissa = mant ∧
      (shiftToTargetExponent .binary64 r place .exact).2 = exp := by
  rcases Nat.lt_or_eq_of_le hhigh with hlt | rfl
  · have htotal : totalExponent r place = place + 53 := by
      unfold totalExponent
      rw [log2_of_normal hlow hlt]
      omega
    obtain ⟨hmant, hexp⟩ := @shift_spec r place (by omega) (by omega)
    rw [htotal, show place + 53 - 53 - place = 0 by omega] at hmant
    exact ⟨r, place, hlow, hlt, le_rfl, by omega, by simpa using hmant, by omega⟩
  · have htotal : totalExponent (2 ^ 53) place = place + 54 := by
      unfold totalExponent
      rw [Nat.log2_two_pow]
      omega
    obtain ⟨hmant, hexp⟩ := @shift_spec (2 ^ 53) place (by omega) (by omega)
    rw [htotal, show place + 54 - 53 - place = 1 by omega] at hmant
    exact ⟨2 ^ 52, place + 1, le_rfl, by norm_num, by omega, le_rfl, hmant, by omega⟩

/-- A number that is not below the normal doubles is rounded to 53 bits, of which the last stands at
    the 53rd place from its own first one, or at the one before. -/
theorem roundWithAccuracy_normal {m : Nat} {e : Int}
    (hlow : -1021 ≤ totalExponent m e) (he : e ≤ totalExponent m e - 53) (negative : Bool) :
    ∃ mant exp, 2 ^ 52 ≤ mant ∧ mant < 2 ^ 53 ∧ totalExponent m e - 53 ≤ exp ∧
      exp ≤ totalExponent m e - 52 ∧
      roundWithAccuracy .binary64 (signOf negative) m e .exact = unpacked negative mant exp := by
  obtain ⟨hmant, hexp⟩ := shift_spec hlow he
  obtain ⟨hcut, hcut'⟩ := log2_bounds_cut
    (show m.log2 = 52 + (totalExponent m e - 53 - e).toNat by unfold totalExponent at *; omega)
  have hrounded := roundedMantissa_bounds (shiftToTargetExponent .binary64 m e .exact).1
  rw [hmant] at hrounded
  obtain ⟨mant, exp, hm, hm', he', he'', hfinal, hplace⟩ :=
    @shift_rounded (shiftToTargetExponent .binary64 m e .exact).1.roundedMantissa
      (totalExponent m e - 53) (by omega) (by omega) (by omega)
  refine ⟨mant, exp, hm, hm', he', by omega, ?_⟩
  rw [← hexp] at hfinal hplace
  have hpos : 0 < mant := by omega
  have hne : (shiftToTargetExponent .binary64
      (shiftToTargetExponent .binary64 m e .exact).1.roundedMantissa
      (shiftToTargetExponent .binary64 m e .exact).2 .exact).1.mantissa ≠ 0 := by
    rw [hfinal]
    exact hpos.ne'
  unfold roundWithAccuracy unpacked
  dsimp only
  rw [dif_neg hne, dif_pos hpos]
  exact finite_congr hfinal hplace

theorem log2_mul_two_pow {m : Nat} (hm : 0 < m) (k : Nat) : (m * 2 ^ k).log2 = m.log2 + k := by
  have hpos : 0 < m * 2 ^ k := Nat.mul_pos hm (Nat.pow_pos (by norm_num))
  rw [Nat.log2_eq_iff hpos.ne', Nat.pow_add, Nat.add_right_comm, Nat.pow_add]
  exact ⟨Nat.mul_le_mul_right _ (Nat.log2_self_le hm.ne'),
    Nat.mul_lt_mul_of_pos_right Nat.lt_log2_self (Nat.pow_pos (by norm_num))⟩

theorem round_normal {m : Nat} {e : Int} (hm : 0 < m) (hlow : -1021 ≤ totalExponent m e)
    (negative : Bool) :
    ∃ mant exp, 2 ^ 52 ≤ mant ∧ mant < 2 ^ 53 ∧ totalExponent m e - 53 ≤ exp ∧
      exp ≤ totalExponent m e - 52 ∧
      UnpackedFloat.round .binary64 (signOf negative) m e = unpacked negative mant exp := by
  have hdecreased : UnpackedFloat.round .binary64 (signOf negative) m e =
      roundWithAccuracy .binary64 (signOf negative) (m <<< (e - (totalExponent m e - 53)).toNat)
        (e - (e - (totalExponent m e - 53)).toNat) .exact := by
    unfold UnpackedFloat.round decreaseExponent
    rw [targetExponent_eq hlow]
  have htotal : totalExponent (m <<< (e - (totalExponent m e - 53)).toNat)
      (e - (e - (totalExponent m e - 53)).toNat) = totalExponent m e := by
    generalize (e - (totalExponent m e - 53)).toNat = k
    unfold totalExponent
    rw [Nat.shiftLeft_eq, log2_mul_two_pow hm]
    omega
  have hspec := roundWithAccuracy_normal (htotal.symm ▸ hlow) (by rw [htotal]; omega) negative
  rw [htotal] at hspec
  rwa [hdecreased]

theorem round_spec {m : Nat} {e : Int} (hm : 0 < m) (hlow : -1021 ≤ totalExponent m e)
    (hhigh : totalExponent m e ≤ 1023) (negative : Bool) :
    ∃ mant exp, Canonical mant exp ∧ 2 ^ 52 ≤ mant ∧ totalExponent m e - 53 ≤ exp ∧
      exp ≤ totalExponent m e - 52 ∧
      UnpackedFloat.round .binary64 (signOf negative) m e = unpacked negative mant exp := by
  obtain ⟨mant, exp, hm, hm', he, he', hround⟩ := round_normal hm hlow negative
  exact ⟨mant, exp, ⟨hm', by omega, by omega, .inl hm⟩, hm, he, he', hround⟩

/-! ## Sums -/

/-- The exact value of a finite double. -/
def exact (negative : Bool) (mant : Nat) (exp : Int) : ℚ :=
  if negative then -magnitude mant exp else magnitude mant exp

/-- A double is the rounded value of a quotient, as far as its sign and its size go. -/
def Sized (v : ℚ) (x : Float) : Prop :=
  (v = 0 ∧ x = finite false 0 (-1074)) ∨
    ∃ mant exp, Canonical mant exp ∧ 2 ^ 52 ≤ mant ∧ (2 : ℚ) ^ (exp + 51) ≤ |v| ∧
      |v| < 2 ^ (exp + 53) ∧ x = finite (decide (v < 0)) mant exp

theorem round_sized {m : Nat} {e : Int} (hm : 0 < m) (hlow : -1000 ≤ e)
    {top : Int} (htop : top ≤ 1000)
    (hhigh : (m * 2 ^ e : ℚ) < 2 ^ top) (negative : Bool) :
    ∃ mant exp, Canonical mant exp ∧ 2 ^ 52 ≤ mant ∧ (2 : ℚ) ^ (exp + 51) ≤ m * 2 ^ e ∧
      (m * 2 ^ e : ℚ) < 2 ^ (exp + 53) ∧
      UnpackedFloat.round .binary64 (signOf negative) m e = unpacked negative mant exp := by
  obtain ⟨hlog, hlog'⟩ := log2_bounds hm
  have he := two_zpow_pos e
  have hleast : (2 : ℚ) ^ (m.log2 + e) ≤ m * 2 ^ e := by
    rw [zpow_add₀ (by norm_num)]
    gcongr
  have hmost : (m * 2 ^ e : ℚ) < 2 ^ (m.log2 + 1 + e) := by
    rw [zpow_add₀ (by norm_num)]
    gcongr
  have hsize := (zpow_lt_zpow_iff_right₀ (by norm_num : (1 : ℚ) < 2)).1 (hleast.trans_lt hhigh)
  obtain ⟨mant, exp, hc, hmant, hexp, hexp', hround⟩ :=
    @round_spec m e hm (by unfold totalExponent; omega) (by unfold totalExponent; omega) negative
  unfold totalExponent at hexp hexp'
  refine ⟨mant, exp, hc, hmant, le_trans ?_ hleast, hmost.trans_le ?_, hround⟩
  · exact zpow_le_zpow_right₀ (by norm_num) (by omega)
  · exact zpow_le_zpow_right₀ (by norm_num) (by omega)

/-- A sum that is computed exactly and then rounded. -/
theorem normalize_sized {m e : Int} {v : ℚ} (hv : (m : ℚ) * 2 ^ e = v) (hlow : -1000 ≤ e)
    {top : Int} (htop : top ≤ 1000) (hhigh : |v| < 2 ^ top) :
    Sized v (.ofModel (.pack (UnpackedFloat.normalize .binary64 m e .positive))) := by
  have he := two_zpow_pos e
  unfold UnpackedFloat.normalize
  rcases lt_trichotomy m 0 with hneg | rfl | hpos
  · obtain ⟨j, hj⟩ := Int.eq_ofNat_of_zero_le (by omega : 0 ≤ -m)
    have hm : (m : ℚ) = -j := by
      rw [← neg_neg m, hj]
      push_cast
      rfl
    have hj' : (0 : ℚ) < j := by
      have : 0 < j := by omega
      exact_mod_cast this
    have hvalue : |v| = j * 2 ^ e := by
      rw [← hv, hm, neg_mul, abs_neg, abs_of_pos (by positivity)]
    have hnegative : v < 0 := by
      rw [← hv, hm, neg_mul]
      exact neg_neg_of_pos (by positivity)
    obtain ⟨mant, exp, hc, hmant, hleast, hmost, hround⟩ :=
      @round_sized j e (by omega) hlow top htop (by rwa [← hvalue]) true
    refine .inr ⟨mant, exp, hc, hmant, by rwa [hvalue], by rwa [hvalue], ?_⟩
    rw [compare_lt_iff_lt.2 hneg, hj, decide_eq_true hnegative]
    exact congrArg (fun u => Float.ofModel (.pack u)) hround
  · refine .inl ⟨?_, rfl⟩
    rw [← hv, Int.cast_zero, zero_mul]
  · obtain ⟨j, rfl⟩ := Int.eq_ofNat_of_zero_le hpos.le
    have hj' : (0 : ℚ) < j := by exact_mod_cast hpos
    have hvalue : |v| = j * 2 ^ e := by
      rw [← hv, Int.cast_natCast, abs_of_pos (by positivity)]
    have hpositive : ¬v < 0 := by
      rw [← hv, Int.cast_natCast]
      exact not_lt.2 (by positivity)
    obtain ⟨mant, exp, hc, hmant, hleast, hmost, hround⟩ :=
      @round_sized j e (by omega) hlow top htop (by rwa [← hvalue]) false
    refine .inr ⟨mant, exp, hc, hmant, by rwa [hvalue], by rwa [hvalue], ?_⟩
    rw [compare_gt_iff_gt.2 hpos, decide_eq_false hpositive]
    exact congrArg (fun u => Float.ofModel (.pack u)) hround

section

variable {m₁ m₂ : Nat} {e₁ e₂ : Int}

theorem exact_scaled (negative : Bool) (m : Nat) {e e' : Int} (h : e' ≤ e) :
    ((signOf negative).apply ((decreaseExponent m e e').1 : Nat) : ℚ) * 2 ^ e' =
      exact negative m e := by
  obtain ⟨k, hk⟩ := Int.eq_ofNat_of_zero_le (by omega : 0 ≤ e - e')
  have hmagnitude : ((decreaseExponent m e e').1 : ℚ) * 2 ^ e' = magnitude m e := by
    unfold decreaseExponent magnitude
    dsimp only
    rw [hk, Int.toNat_natCast, Nat.shiftLeft_eq, show e = k + e' by omega, zpow_add₀ (by norm_num),
      zpow_natCast]
    push_cast
    ring
  unfold exact
  cases negative with
  | false => exact hmagnitude
  | true =>
    rw [if_pos rfl, ← hmagnitude]
    change ((-(_ : Int) : Int) : ℚ) * _ = _
    push_cast
    ring

/-- **A sum of doubles has the sign and about the size of the exact sum.** -/
theorem add_sized (hc₁ : Canonical m₁ e₁) (hc₂ : Canonical m₂ e₂) (hm₁ : 0 < m₁) (hm₂ : 0 < m₂)
    (he₁ : -1000 ≤ e₁) (he₂ : -1000 ≤ e₂) (n₁ n₂ : Bool) {v : ℚ}
    (hv : exact n₁ m₁ e₁ + exact n₂ m₂ e₂ = v) {top : Int} (htop : top ≤ 1000)
    (hhigh : |v| < 2 ^ top) : Sized v (finite n₁ m₁ e₁ + finite n₂ m₂ e₂) := by
  have hsum : finite n₁ m₁ e₁ + finite n₂ m₂ e₂ =
      .ofModel (.pack (UnpackedFloat.normalize .binary64
        ((signOf n₁).apply ((decreaseExponent m₁ e₁ (min e₁ e₂)).1 : Nat) +
          (signOf n₂).apply ((decreaseExponent m₂ e₂ (min e₁ e₂)).1 : Nat)) (min e₁ e₂)
        .positive)) := by
    change Float.ofModel (.pack (UnpackedFloat.add .binary64
      (UnpackedFloat.unpack Format.binary64
        (UnpackedFloat.pack Format.binary64 (unpacked n₁ m₁ e₁)))
      (UnpackedFloat.unpack Format.binary64
        (UnpackedFloat.pack Format.binary64 (unpacked n₂ m₂ e₂))))) = _
    rw [unpack_of_word hc₁ (word_packed hc₁ n₁), unpack_of_word hc₂ (word_packed hc₂ n₂)]
    unfold unpacked
    rw [dif_pos hm₁, dif_pos hm₂]
    rfl
  rw [hsum]
  refine normalize_sized ?_ (le_min he₁ he₂) htop hhigh
  rw [Int.cast_add, add_mul, exact_scaled n₁ m₁ (min_le_left e₁ e₂),
    exact_scaled n₂ m₂ (min_le_right e₁ e₂), hv]

/-- **So is a difference.** -/
theorem sub_sized (hc₁ : Canonical m₁ e₁) (hc₂ : Canonical m₂ e₂) (hm₁ : 0 < m₁) (hm₂ : 0 < m₂)
    (he₁ : -1000 ≤ e₁) (he₂ : -1000 ≤ e₂) (n₁ n₂ : Bool) {v : ℚ}
    (hv : exact n₁ m₁ e₁ - exact n₂ m₂ e₂ = v) {top : Int} (htop : top ≤ 1000)
    (hhigh : |v| < 2 ^ top) : Sized v (finite n₁ m₁ e₁ - finite n₂ m₂ e₂) := by
  have hdifference : finite n₁ m₁ e₁ - finite n₂ m₂ e₂ =
      .ofModel (.pack (UnpackedFloat.normalize .binary64
        ((signOf n₁).apply ((decreaseExponent m₁ e₁ (min e₁ e₂)).1 : Nat) -
          (signOf n₂).apply ((decreaseExponent m₂ e₂ (min e₁ e₂)).1 : Nat)) (min e₁ e₂)
        .positive)) := by
    change Float.ofModel (.pack (UnpackedFloat.sub .binary64
      (UnpackedFloat.unpack Format.binary64
        (UnpackedFloat.pack Format.binary64 (unpacked n₁ m₁ e₁)))
      (UnpackedFloat.unpack Format.binary64
        (UnpackedFloat.pack Format.binary64 (unpacked n₂ m₂ e₂))))) = _
    rw [unpack_of_word hc₁ (word_packed hc₁ n₁), unpack_of_word hc₂ (word_packed hc₂ n₂)]
    unfold unpacked
    rw [dif_pos hm₁, dif_pos hm₂]
    rfl
  rw [hdifference]
  refine normalize_sized ?_ (le_min he₁ he₂) htop hhigh
  rw [Int.cast_sub, sub_mul, exact_scaled n₁ m₁ (min_le_left e₁ e₂),
    exact_scaled n₂ m₂ (min_le_right e₁ e₂), hv]

end

/-! ## Whole numbers -/

section

variable {mant : Nat} {exp : Int}

theorem Rounds.self (mant : Nat) (exp : Int) : Rounds mant exp (magnitude mant exp) := by
  have hexp := two_zpow_pos exp
  have hgap := gapBelow_pos mant exp
  unfold magnitude
  refine ⟨by nlinarith, by nlinarith, ?_⟩
  rintro (h | h) <;> nlinarith

/-- A whole number of at most 53 bits is a double. -/
theorem exists_whole {n : Nat} (hn : 0 < n) (hlt : n < 2 ^ 53) :
    ∃ mant exp, Canonical mant exp ∧ 0 < mant ∧ -1000 ≤ exp ∧ magnitude mant exp = n ∧
      ofInt n = some (finite false mant exp) := by
  have hlog : n.log2 < 53 := (Nat.log2_lt hn.ne').2 hlt
  obtain ⟨s, hs⟩ := Nat.exists_eq_add_of_le (Nat.le_of_lt_succ hlog)
  have hlow : 2 ^ 52 ≤ n * 2 ^ s := by
    rw [hs, Nat.pow_add]
    exact Nat.mul_le_mul_right _ (Nat.log2_self_le hn.ne')
  have hhigh : n * 2 ^ s < 2 ^ 53 := by
    rw [show 53 = n.log2 + 1 + s by omega, Nat.pow_add]
    exact Nat.mul_lt_mul_of_pos_right Nat.lt_log2_self (Nat.pow_pos (by norm_num))
  have hc : Canonical (n * 2 ^ s) (-s) := ⟨hhigh, by omega, by omega, .inl hlow⟩
  have hmagnitude : magnitude (n * 2 ^ s) (-s) = n := by
    unfold magnitude
    rw [zpow_neg, zpow_natCast]
    push_cast
    exact mul_inv_cancel_right₀ (by positivity) _
  refine ⟨n * 2 ^ s, -s, hc, by omega, by omega, hmagnitude, ?_⟩
  have hr : Rounds (n * 2 ^ s) (-s) ((n : ℚ) / (1 : Nat)) := by
    rw [Nat.cast_one, div_one, ← hmagnitude]
    exact .self _ _
  have hsign : decide ((n : Int) < 0) = false := decide_eq_false (by omega)
  unfold ofInt
  rw [hsign, Int.natAbs_natCast, ofRatio_of_rounds hc.rounded hn Nat.one_pos hr, pack_eq hc]

/-- A quotient below a double is not rounded to one above it. -/
theorem Rounds.magnitude_le {r : ℚ} (hr : Rounds mant exp r) (hlow : 2 ^ 52 ≤ mant)
    (hhigh : mant < 2 ^ 53) {mant' : Nat} {exp' : Int} (hlow' : 2 ^ 52 ≤ mant')
    (hhigh' : mant' < 2 ^ 53) (hlt : r < magnitude mant' exp') :
    magnitude mant exp ≤ magnitude mant' exp' := by
  have hexp := two_zpow_pos exp
  have hexp' := two_zpow_pos exp'
  have hgap := gapBelow_le mant exp
  have hlower := hr.lower.trans_lt hlt
  have hleast : (2 ^ 52 : ℚ) ≤ mant := by exact_mod_cast hlow
  have hleast' : (2 ^ 52 : ℚ) ≤ mant' := by exact_mod_cast hlow'
  have hmost : (mant : ℚ) + 1 ≤ 2 ^ 53 := by exact_mod_cast hhigh
  have hmost' : (mant' : ℚ) + 1 ≤ 2 ^ 53 := by exact_mod_cast hhigh'
  unfold magnitude at *
  rcases lt_trichotomy exp exp' with hless | rfl | hmore
  · have hscale : (2 : ℚ) ^ (exp + 1) ≤ 2 ^ exp' := zpow_le_zpow_right₀ (by norm_num) (by omega)
    rw [two_zpow_succ] at hscale
    nlinarith
  · have h : (mant : ℚ) < mant' + 1 := by
      have := lt_of_mul_lt_mul_right hlower hexp.le
      linarith
    have h' : mant ≤ mant' := Nat.le_of_lt_succ (by exact_mod_cast h)
    gcongr
  · have hscale : (2 : ℚ) ^ (exp' + 1) ≤ 2 ^ exp := zpow_le_zpow_right₀ (by norm_num) (by omega)
    rw [two_zpow_succ] at hscale
    nlinarith

/-- A double that is the rounded value of one quotient and lies around another is about as large as
    both. -/
theorem Sized.near {v r : ℚ} {negative : Bool} (h : Sized v (finite negative mant exp))
    (hc : Canonical mant exp) (hm : 0 < mant) (hr : Rounds mant exp r) :
    negative = decide (v < 0) ∧ v ≠ 0 ∧ |v| < 4 * r ∧ r ≤ 4 * |v| := by
  rcases h with ⟨-, hzero⟩ | ⟨mant', exp', hc', hmant, hleast, hmost, hx⟩
  · have hc₀ : Canonical 0 (-1074) := ⟨by norm_num, le_rfl, by norm_num, .inr rfl⟩
    exact absurd (finite_injective hc hc₀ hzero).2.1 hm.ne'
  obtain ⟨hsign, rfl, rfl⟩ := finite_injective hc hc' hx
  have hexp := two_zpow_pos exp
  have hgap := gapBelow_le mant exp
  have hlow : (2 ^ 52 : ℚ) ≤ mant := by exact_mod_cast hmant
  have hhigh : (mant : ℚ) + 1 ≤ 2 ^ 53 := by exact_mod_cast hc.mant_lt
  have hlower := hr.lower
  have hupper := hr.upper
  rw [zpow_add₀ (by norm_num)] at hleast hmost
  norm_num at hleast hmost hlow hhigh
  refine ⟨hsign, ?_, ?_, ?_⟩
  · rintro rfl
    rw [abs_zero] at hleast
    linarith
  · have hleast' : (4503599627370496 - 1 / 2 : ℚ) * 2 ^ exp ≤
        (mant - gapBelow mant exp) * 2 ^ exp := by
      gcongr
      exact_mod_cast hlow
    linarith
  · have hmost' : ((mant : ℚ) + 1 / 2) * 2 ^ exp ≤ 9007199254740992 * 2 ^ exp := by
      gcongr
      linarith
    linarith

end

end Rulebook.Binary64
