/-
  Products with powers of two.

  A product of doubles is computed exactly and rounded once.  Rounding does not change what a double
  can be, and a double times a power of two is a double, however small, or past the largest one.

  * `round_exact`: rounding keeps what fits;
  * `value?_mul_twoTo`: products with powers of two are exact;
  * `lt_iff_value`, `order_float`: doubles are ordered as their values are;
  * `pow_two`, `pow_two_past`: the powers of two that are computed, and the first one that is not.
-/
import Rulebook.Number.Arithmetic
import Rulebook.Proofs.Number.Differences
import Rulebook.Proofs.Number.Shortest

open Float.Model Float.Model.UnpackedFloat

namespace Rulebook.Binary64

/-! ## Rounding keeps what fits -/

theorem shiftRight_exact (m k : Nat) :
    ExtendedMantissa.ofMantissaAndAccuracy (m * 2 ^ k) .exact >>> k =
      .ofMantissaAndAccuracy m .exact := by
  induction k generalizing m with
  | zero => rw [Nat.pow_zero, Nat.mul_one]; rfl
  | succ k ih =>
    rw [Nat.pow_succ, Nat.mul_comm (2 ^ k) 2, ← Nat.mul_assoc]
    change ExtendedMantissa.shiftRightOne
      (ExtendedMantissa.ofMantissaAndAccuracy (m * 2 * 2 ^ k) .exact >>> k) = _
    rw [ih]
    simp [ExtendedMantissa.shiftRightOne, ExtendedMantissa.ofMantissaAndAccuracy]

section

variable {m : Nat} {e : Int}

theorem targetExponent_rounded (hr : Rounded m e) (hm : 0 < m) :
    Format.binary64.targetExponent (totalExponent m e) = e := by
  change max (m.log2 + 1 + e - 53) (-1074) = e
  rcases hr.normal with hnormal | rfl
  · have hle := hr.le_exp
    rw [log2_of_normal hnormal hr.mant_lt]
    omega
  · have hlog := (Nat.log2_lt hm.ne').2 hr.mant_lt
    omega

theorem shift_exact (hr : Rounded m e) (hm : 0 < m) (k : Nat) :
    shiftToTargetExponent .binary64 (m * 2 ^ k) (e - k) .exact =
      (.ofMantissaAndAccuracy m .exact, e) := by
  have htotal : totalExponent (m * 2 ^ k) (e - k) = totalExponent m e := by
    unfold totalExponent
    rw [log2_mul_two_pow hm]
    omega
  unfold shiftToTargetExponent shiftToExponent
  rw [htotal, targetExponent_rounded hr hm]
  dsimp only
  rw [show e - (e - (k : Int)) = k by omega, Int.toNat_natCast, shiftRight_exact,
    Int.sub_add_cancel]

/-- Rounding does not change a number that a double can be. -/
theorem round_exact (hr : Rounded m e) (hm : 0 < m) (k : Nat) (negative : Bool) :
    roundWithAccuracy .binary64 (signOf negative) (m * 2 ^ k) (e - k) .exact =
      unpacked negative m e := by
  have hagain := shift_exact hr hm 0
  rw [Nat.pow_zero, Nat.mul_one, Nat.cast_zero, Int.sub_zero] at hagain
  unfold roundWithAccuracy unpacked
  rw [shift_exact hr hm k]
  dsimp only
  rw [show (ExtendedMantissa.ofMantissaAndAccuracy m .exact).roundedMantissa = m from rfl, hagain,
    dif_pos hm]
  exact dif_neg hm.ne'

end

/-! ## Products -/

section

variable {m m₁ m₂ : Nat} {e e₁ e₂ : Int}

theorem unpack_finite (hc : Canonical m e) (n : Bool) :
    (finite n m e).toModel.unpack = unpacked n m e :=
  unpack_of_word hc (word_packed hc n)

theorem finite_mul (hc₁ : Canonical m₁ e₁) (hc₂ : Canonical m₂ e₂) (n₁ n₂ : Bool) :
    finite n₁ m₁ e₁ * finite n₂ m₂ e₂ =
      .ofModel (.pack (UnpackedFloat.mul .binary64 (unpacked n₁ m₁ e₁) (unpacked n₂ m₂ e₂))) := by
  rw [← unpack_finite hc₁, ← unpack_finite hc₂]
  rfl

/-- A product that a double can be is computed exactly. -/
theorem mul_finite (hc₁ : Canonical m₁ e₁) (hc₂ : Canonical m₂ e₂) (hm₁ : 0 < m₁) (hm₂ : 0 < m₂)
    (hr : Rounded m e) {k : Nat} (hm : m₁ * m₂ = m * 2 ^ k) (he : e₁ + e₂ = e - k) (n₁ n₂ : Bool) :
    finite n₁ m₁ e₁ * finite n₂ m₂ e₂ = finite (n₁ != n₂) m e := by
  have hpos : 0 < m := by
    rcases Nat.eq_zero_or_pos m with rfl | hpos
    · have := Nat.mul_pos hm₁ hm₂
      omega
    · exact hpos
  have hsign : signOf n₁ * signOf n₂ = signOf (n₁ != n₂) := by
    cases n₁ <;> cases n₂ <;> rfl
  rw [finite_mul hc₁ hc₂, finite, ← round_exact hr hpos k, ← hsign, ← hm, ← he]
  unfold unpacked
  rw [dif_pos hm₁, dif_pos hm₂]
  rfl

theorem zero_mul_finite (hc : Canonical m e) (n₁ n₂ : Bool) :
    finite n₁ 0 (-1074) * finite n₂ m e = finite (n₁ != n₂) 0 (-1074) := by
  rw [finite_mul ⟨by norm_num, le_rfl, by norm_num, .inr rfl⟩ hc]
  unfold unpacked
  rw [dif_neg (lt_irrefl 0)]
  by_cases hm : 0 < m
  · rw [dif_pos hm]
    cases n₁ <;> cases n₂ <;> rfl
  · rw [dif_neg hm]
    cases n₁ <;> cases n₂ <;> rfl

/-- A power of two. -/
def twoTo (i : Nat) : Float :=
  finite false (2 ^ 52) (i - 52)

theorem magnitude_twoTo (i : Nat) : magnitude (2 ^ 52) (i - 52) = 2 ^ i := by
  have h52 : ((2 ^ 52 : Nat) : ℚ) = 2 ^ (52 : Int) := by norm_num
  rw [magnitude, h52, ← zpow_add₀ (by norm_num), add_sub_cancel, zpow_natCast]

theorem canonical_twoTo {i : Nat} (hi : i < 1024) : Canonical (2 ^ 52) (i - 52) :=
  ⟨by norm_num, by omega, by omega, .inl le_rfl⟩

/-- A number stays one that a double can be, or is past the largest double, when it is doubled. -/
theorem exists_doubled (hr : Rounded m₁ e₁) (hm₁ : 0 < m₁) (i : Nat) :
    ∃ m e, ∃ k : Nat, 0 < m ∧ Rounded m e ∧ m₁ * 2 ^ 52 = m * 2 ^ k ∧
      e₁ + ((i : Int) - 52) = e - k := by
  induction i with
  | zero => exact ⟨m₁, e₁, 52, hm₁, hr, rfl, by omega⟩
  | succ i ih =>
    obtain ⟨m, e, k, hm, hr, hmant, hexp⟩ := ih
    rcases Nat.lt_or_ge m (2 ^ 52) with hlow | hnormal
    · obtain ⟨k, rfl⟩ : ∃ l, k = l + 1 := Nat.exists_eq_succ_of_ne_zero fun hk => by
        subst hk
        omega
      obtain rfl := hr.normal.resolve_left (by omega)
      refine ⟨m * 2, -1074, k, by omega, ⟨by omega, le_rfl, .inr rfl⟩, ?_, by omega⟩
      rw [hmant, Nat.pow_succ]
      ring
    · exact ⟨m, e + 1, k, hm, ⟨hr.mant_lt, by have := hr.le_exp; omega, .inl hnormal⟩, hmant,
        by omega⟩

/-- A double times a power of two is computed exactly. -/
theorem mul_twoTo (hc : Canonical m₁ e₁) (n : Bool) {i : Nat} (hi : i < 1024) :
    ∃ m e, Rounded m e ∧ magnitude m e = magnitude m₁ e₁ * 2 ^ i ∧
      finite n m₁ e₁ * twoTo i = finite n m e := by
  have hc₂ := canonical_twoTo hi
  rcases Nat.eq_zero_or_pos m₁ with rfl | hm₁
  · obtain rfl : e₁ = -1074 := hc.normal.resolve_left (by omega)
    refine ⟨0, -1074, hc.rounded, by simp [magnitude], ?_⟩
    rw [twoTo, zero_mul_finite hc₂, Bool.bne_false]
  · obtain ⟨m, e, k, -, hr, hmant, hexp⟩ := exists_doubled hc.rounded hm₁ i
    refine ⟨m, e, hr, ?_, ?_⟩
    · have hmant' : (m₁ : ℚ) * 2 ^ 52 = m * 2 ^ k := by exact_mod_cast hmant
      have hplace : e = e₁ + i - 52 + k := by omega
      unfold magnitude
      rw [hplace, zpow_add₀ (by norm_num), zpow_sub₀ (by norm_num), zpow_add₀ (by norm_num),
        zpow_natCast, zpow_natCast]
      have h52 : (2 : ℚ) ^ (52 : Int) = 2 ^ 52 := by norm_num
      rw [h52]
      field_simp
      rw [← hmant', mul_comm]
    · rw [twoTo, mul_finite hc hc₂ hm₁ (by norm_num) hr hmant hexp, Bool.bne_false]

end

/-! ## Values -/

/-- The value of a finite double. -/
def value? (x : Float) : Option ℚ :=
  match parts x with
  | .finite negative mant exp => some (exact negative mant exp)
  | _ => none

section

variable {m m₁ m₂ : Nat} {e e₁ e₂ : Int} {x y : Float} {a b : ℚ}

theorem parts_finite (hc : Canonical m e) (n : Bool) :
    parts (finite n m e) = .finite n m e := by
  have hword : (finite n m e).toBits.toNat = word n m e := word_packed hc n
  obtain ⟨hlt, hle, hexp, hnormal⟩ := hc
  have hsign : decide (word n m e / 2 ^ 63 = 1) = n := by
    have htop : word n m e / 2 ^ 63 = if n then 1 else 0 := by
      unfold word signBit
      cases n <;> simp only [if_true, if_false, Bool.false_eq_true] <;> split_ifs <;> omega
    rw [htop]
    cases n <;> rfl
  have hfield : word n m e / 2 ^ 52 % 2048 = if m < 2 ^ 52 then 0 else (e + 1075).toNat := by
    unfold word signBit
    split_ifs <;> omega
  have hfraction : word n m e % 2 ^ 52 = if m < 2 ^ 52 then m else m - 2 ^ 52 := by
    unfold word signBit
    split_ifs <;> omega
  unfold parts
  rw [hword]
  simp only [Nat.shiftRight_eq_div_pow, Nat.pow_eq]
  rw [hsign, hfield, hfraction]
  by_cases hsub : m < 2 ^ 52
  · obtain rfl := hnormal.resolve_left (by omega)
    simp only [hsub, if_true]
    rfl
  · rw [if_neg hsub, if_neg hsub, if_neg (by omega), if_neg (by omega)]
    congr 1 <;> omega

theorem value?_finite (hc : Canonical m e) (n : Bool) :
    value? (finite n m e) = some (exact n m e) := by
  rw [value?, parts_finite hc]

theorem value?_eq_some (hx : value? x = some a) :
    ∃ n m e, Canonical m e ∧ x = finite n m e ∧ exact n m e = a := by
  unfold value? at hx
  split at hx
  · next n m e hparts =>
    obtain ⟨hc, rfl⟩ := eq_finite_of_parts hparts
    exact ⟨n, m, e, hc, rfl, Option.some.inj hx⟩
  · cases hx

end

/-! ## Order -/

section

variable {m m₁ m₂ : Nat} {e e₁ e₂ : Int} {x y : Float} {a b : ℚ}

theorem lt_zero (u : UnpackedFloat) (s : Sign) : u.lt (.zero s) = above u.neg := by
  cases u with
  | infinity s' => cases s' <;> rfl
  | notANumber => rfl
  | zero s' => rfl
  | finite s' m e h => cases s' <;> rfl

theorem exact_zero (n : Bool) (e : Int) : exact n 0 e = 0 := by
  cases n <;> simp [exact, magnitude]

theorem exact_pos_iff (n : Bool) (m : Nat) (e : Int) : 0 < exact n m e ↔ n = false ∧ 0 < m := by
  have he := two_zpow_pos e
  cases n <;> simp [exact, magnitude, he]

theorem exact_not (n : Bool) (m : Nat) (e : Int) : exact (!n) m e = -exact n m e := by
  cases n <;> simp [exact]

/-- Finite doubles are compared as their exact values are. -/
theorem lt_unpacked_iff (hc₁ : Canonical m₁ e₁) (hc₂ : Canonical m₂ e₂) (n₁ n₂ : Bool) :
    (unpacked n₁ m₁ e₁).lt (unpacked n₂ m₂ e₂) = true ↔ exact n₁ m₁ e₁ < exact n₂ m₂ e₂ := by
  rcases Nat.eq_zero_or_pos m₁ with rfl | hm₁
  · rw [exact_zero, exact_pos_iff, show unpacked n₁ 0 e₁ = .zero (signOf n₁) from rfl, zero_lt,
      above_unpacked]
    simp
  rcases Nat.eq_zero_or_pos m₂ with rfl | hm₂
  · rw [exact_zero, show unpacked n₂ 0 e₂ = .zero (signOf n₂) from rfl, lt_zero, unpacked_neg,
      above_unpacked, ← neg_pos, ← exact_not, exact_pos_iff]
    simp
  · have hscale := two_zpow_pos (min e₁ e₂)
    rw [lt_unpacked hc₂ hc₁ hm₂ hm₁, decide_eq_true_iff, ← exact_scaled n₁ m₁ (min_le_left e₁ e₂),
      ← exact_scaled n₂ m₂ (min_le_right e₁ e₂), mul_lt_mul_iff_left₀ hscale,
      decreaseExponent_fst, decreaseExponent_fst, Int.cast_lt, sub_pos, min_comm e₂ e₁]

/-- Doubles are ordered as their values are. -/
theorem lt_iff_value (hx : value? x = some a) (hy : value? y = some b) : x < y ↔ a < b := by
  obtain ⟨n₁, m₁, e₁, hc₁, rfl, rfl⟩ := value?_eq_some hx
  obtain ⟨n₂, m₂, e₂, hc₂, rfl, rfl⟩ := value?_eq_some hy
  rw [← lt_unpacked_iff hc₁ hc₂, ← unpack_finite hc₁, ← unpack_finite hc₂, ← less_eq_lt]
  exact decide_eq_true_iff.symm

theorem compare_swap (u v : UnpackedFloat) : v.compare u = (u.compare v).map Ordering.swap := by
  cases u with
  | notANumber => cases v <;> rfl
  | infinity s =>
    cases v with
    | finite s' m e h => cases s <;> rfl
    | infinity s' => cases s <;> cases s' <;> rfl
    | _ => cases s <;> rfl
  | zero s =>
    cases v with
    | infinity s' => cases s' <;> rfl
    | finite s' m e h => cases s' <;> rfl
    | _ => rfl
  | finite s m e h =>
    cases v with
    | notANumber => rfl
    | infinity s' => cases s' <;> cases s <;> rfl
    | zero s' => cases s <;> rfl
    | finite s' m' e' h' =>
      have hswap : (compare e' e).then (compare m' m) =
          ((compare e e').then (compare m m')).swap := by
        rw [Ordering.swap_then, Int.compare_swap, Nat.compare_swap]
      cases s <;> cases s'
      · exact congrArg (fun o => some (Ordering.swap o)) hswap
      · rfl
      · rfl
      · exact congrArg some hswap

theorem lt_iff_compare (x y : Float) :
    x < y ↔ x.toModel.unpack.compare y.toModel.unpack = some .lt := by
  rw [← beq_iff_eq]
  exact decide_eq_true_iff.symm.trans (Bool.eq_iff_iff.1 (less_eq_lt x y))

theorem le_iff_compare (x y : Float) :
    x ≤ y ↔ (x.toModel.unpack.compare y.toModel.unpack).any (·.isLE) = true :=
  decide_eq_true_iff

/-- The order of numbers is that of doubles as they are computed with. -/
theorem order_float (x y : Float) :
    Number.order (.float x) (.float y) = x.toModel.unpack.compare y.toModel.unpack := by
  have heq : (x == y) = (x.toModel.unpack.compare y.toModel.unpack == some .eq) := rfl
  unfold Number.order
  simp only [lt_iff_compare, heq, compare_swap x.toModel.unpack]
  generalize x.toModel.unpack.compare y.toModel.unpack = o
  rcases o with _ | _ | _ | _ <;> rfl

theorem order_eq_lt : Number.order (.float x) (.float y) = some .lt ↔ x < y := by
  rw [order_float, lt_iff_compare]

theorem order_eq_gt : Number.order (.float x) (.float y) = some .gt ↔ y < x := by
  rw [order_float, lt_iff_compare, compare_swap x.toModel.unpack]
  generalize x.toModel.unpack.compare y.toModel.unpack = o
  rcases o with _ | _ | _ | _ <;> simp

end

/-! ## Past the largest double -/

section

variable {m : Nat} {e : Int} {x : Float} {a : ℚ}

theorem infinity_eq (n : Bool) : infinity n = .ofModel (.pack (.infinity (signOf n))) := by
  cases n <;> decide +kernel

theorem finite_past (hr : Rounded m e) (he : 971 < e) (n : Bool) :
    finite n m e = infinity n := by
  have hpacked : Float.Model.pack (unpacked n m e) = .pack (.infinity (signOf n)) :=
    (Float.Model.mk.injEq ..).mpr (congrArg UInt64.ofBitVec (pack_past hr he n))
  rw [infinity_eq, finite, hpacked]

theorem value?_twoTo {i : Nat} (hi : i < 1024) : value? (twoTo i) = some (2 ^ i) := by
  rw [twoTo, value?_finite (canonical_twoTo hi), exact, if_neg Bool.false_ne_true, magnitude_twoTo]

/-- A double that is not below zero, times a power of two, is the double of that value or past the
    largest one. -/
theorem value?_mul_twoTo (hx : value? x = some a) (ha : 0 ≤ a) {i : Nat} (hi : i < 1024) :
    value? (x * twoTo i) = some (a * 2 ^ i) ∨ x * twoTo i = infinity false ∧ 2 ^ 1024 ≤ a * 2 ^ i := by
  obtain ⟨n, m₁, e₁, hc, rfl, rfl⟩ := value?_eq_some hx
  obtain ⟨m, e, hr, hmagnitude, hproduct⟩ := mul_twoTo hc n hi
  have hvalue : exact n m e = exact n m₁ e₁ * 2 ^ i := by
    unfold exact
    split_ifs <;> rw [hmagnitude]
    ring
  rw [hproduct]
  rcases Int.lt_or_le 971 e with hlarge | hexp
  · have hm : 2 ^ 52 ≤ m := hr.normal.resolve_right (by omega)
    have hleast : (2 : ℚ) ^ 1024 ≤ magnitude m e := by
      calc (2 : ℚ) ^ 1024 = magnitude (2 ^ 52) (1024 - 52) := (magnitude_twoTo 1024).symm
        _ ≤ magnitude m e := by
          unfold magnitude
          gcongr
          · norm_num
          · omega
    have hpos : 0 < magnitude m e := lt_of_lt_of_le (by positivity) hleast
    obtain rfl : n = false := by
      have hsign : 0 ≤ exact n m e := hvalue ▸ by positivity
      cases n with
      | false => rfl
      | true => exact absurd hpos (not_lt.2 (neg_nonneg.1 hsign))
    exact .inr ⟨finite_past hr hlarge _, hvalue ▸ hleast⟩
  · rw [← hvalue]
    exact .inl (value?_finite ⟨hr.mant_lt, hr.le_exp, hexp, hr.normal⟩ n)

theorem infinity_mul_twoTo {i : Nat} (hi : i < 1024) (n : Bool) :
    infinity n * twoTo i = infinity n := by
  have hunpack : (infinity n).toModel.unpack = .infinity (signOf n) := by
    cases n <;> rfl
  have hproduct : infinity n * twoTo i = .ofModel (.pack
      (UnpackedFloat.mul .binary64 (.infinity (signOf n)) (unpacked false (2 ^ 52) (i - 52)))) := by
    rw [← hunpack, ← unpack_finite (canonical_twoTo hi)]
    rfl
  rw [hproduct]
  unfold unpacked
  rw [dif_pos (by norm_num), infinity_eq]
  cases n <;> rfl

end

theorem value?_zero : value? 0.0 = some 0 := by
  have hc : Canonical 0 (-1074) := ⟨by norm_num, le_rfl, by norm_num, .inr rfl⟩
  have hzero : (0.0 : Float) = finite false 0 (-1074) := by decide +kernel
  rw [hzero, value?_finite hc, exact_zero]

theorem value?_two : value? 2.0 = some 2 := by
  have htwo : (2.0 : Float) = twoTo 1 := by decide +kernel
  rw [htwo, value?_twoTo (by norm_num), pow_one]

/-! ## Powers of two -/

theorem twoToThe_eq {i : Nat} (hi : i < 1024) : Number.twoToThe i = some (twoTo i) := by
  have hc := canonical_twoTo hi
  have hr : Rounds (2 ^ 52) (i - 52) (((2 ^ i : Nat) : ℚ) / (1 : Nat)) := by
    have hvalue : (((2 ^ i : Nat) : ℚ) / (1 : Nat)) = magnitude (2 ^ 52) (i - 52) := by
      rw [magnitude_twoTo, Nat.cast_one, div_one, Nat.cast_pow, Nat.cast_ofNat]
    rw [hvalue]
    exact .self _ _
  unfold Number.twoToThe
  rw [if_neg (by omega), if_neg (by omega), if_pos (by omega), Int.toNat_natCast, Nat.pow_eq,
    ofRatio_of_rounds hc.rounded (Nat.two_pow_pos i) Nat.one_pos hr, pack_eq hc]
  rfl

section

variable {m : Nat} {e : Int} {i : Nat}

theorem ratio_whole (h : magnitude m e = i) : (ratio m e).1 = i * (ratio m e).2 := by
  have hden : ((ratio m e).2 : ℚ) ≠ 0 := by exact_mod_cast (Decimal.ratio_snd_pos m e).ne'
  have hratio := Decimal.ratio_div m e
  rw [h, div_eq_iff hden] at hratio
  exact_mod_cast hratio

theorem isWhole_finite (h : magnitude m e = i) (n : Bool) : isWhole (.finite n m e) = true := by
  unfold isWhole
  dsimp only
  rw [ratio_whole h, Nat.mul_mod_left, decide_eq_true rfl]

theorem truncate_finite (h : magnitude m e = i) (n : Bool) :
    truncate (.finite n m e) = signed n i := by
  unfold truncate
  dsimp only
  rw [ratio_whole h, Nat.mul_div_cancel _ (Decimal.ratio_snd_pos m e)]

/-- Two to the power of a double that is a whole number. -/
theorem powFloat_two (hc : Canonical m e) (hm : 0 < m) (h : magnitude m e = i) :
    Number.powFloat 2.0 (finite false m e) =
      match Number.twoToThe i with
      | some x => .ok (.float x)
      | none => .error .resultOutOfRange := by
  have hunpack : (finite false m e).toModel.unpack = .finite .positive m e hm := by
    rw [unpack_finite hc, unpacked, dif_pos hm]
    rfl
  have hzero : (finite false m e == 0.0) = false := by
    change UnpackedFloat.beq (finite false m e).toModel.unpack _ = false
    rw [hunpack]
    rfl
  have hnan : (finite false m e).isNaN = false := by
    change UnpackedFloat.isNaN (finite false m e).toModel.unpack = false
    rw [hunpack]
    rfl
  have hinf : (finite false m e).isInf = false := by
    change UnpackedFloat.isInf (finite false m e).toModel.unpack = false
    rw [hunpack]
    rfl
  have hbase : (2.0 : Float).isNaN = false ∧ (2.0 : Float).isInf = false ∧
      ((2.0 : Float) == 0.0) = false ∧ ¬(2.0 : Float) < 0.0 ∧ (2.0 : Float).abs = 2.0 ∧
      Number.twoExponent? 2.0 = some 1 := by
    decide +kernel
  obtain ⟨hbase₁, hbase₂, hbase₃, hbase₄, hbase₅, hbase₆⟩ := hbase
  unfold Number.powFloat Number.powPositive
  cases hpower : Number.twoToThe i <;>
    simp only [hzero, hnan, hinf, hbase₁, hbase₂, hbase₃, hbase₄, hbase₅, hbase₆, parts_finite hc,
      isWhole_finite h, truncate_finite h, signed, if_false, Bool.false_eq_true, decide_false,
      Bool.false_and, one_mul, hpower]

end

theorem pow_two {i : Nat} (hi : i < 1024) :
    (Number.float 2.0).pow (.int i) = .ok (.float (twoTo i)) := by
  change Number.onFloats Number.powFloat (.float 2.0) (.int i) = _
  rcases Nat.eq_zero_or_pos i with rfl | hpos
  · rfl
  · obtain ⟨m, e, hc, hm, -, hvalue, hwhole⟩ := exists_whole hpos (by omega)
    have hint : Number.toFloat (.int i) = .ok (finite false m e) := by
      simp only [Number.toFloat, hwhole]
    unfold Number.onFloats
    rw [hint]
    change Number.powFloat 2.0 (finite false m e) = _
    rw [powFloat_two hc hm hvalue, twoToThe_eq hi]

/-- The first power of two that is past the largest double. -/
theorem pow_two_past : (Number.float 2.0).pow (.int 1024) = .error .resultOutOfRange := by
  rfl

end Rulebook.Binary64
