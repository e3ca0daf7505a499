/-
  Signs of differences of doubles.

  A difference of doubles is computed exactly and rounded once.  All doubles are multiples of the
  least one, and so are their differences, which therefore are not rounded to zero unless they are
  zero.  So a difference is above zero if and only if the first double is above the second, infinite
  doubles and what is no number included (`less_zero_sub`).
-/
import Rulebook.Number.Quantity
import Rulebook.Proofs.Number.Sums

open Float.Model Float.Model.UnpackedFloat

namespace Rulebook.Binary64

/-! ## What rounding leads to -/

theorem shift_lowest {m : Nat} (h : totalExponent m (-1074) ≤ -1021) :
    shiftToTargetExponent .binary64 m (-1074) .exact =
      (.ofMantissaAndAccuracy m .exact, -1074) := by
  have htarget : Format.binary64.targetExponent (totalExponent m (-1074)) = -1074 := by
    change max (totalExponent m (-1074) - 53) (-1074) = -1074
    omega
  unfold shiftToTargetExponent shiftToExponent
  rw [htarget]
  rfl

/-- Below the normal doubles, multiples of the least double are not changed by rounding. -/
theorem round_subnormal {m : Nat} {e : Int} (hm : 0 < m) (he : -1074 ≤ e)
    (hlow : totalExponent m e < -1021) (negative : Bool) :
    UnpackedFloat.round .binary64 (signOf negative) m e =
      unpacked negative (m * 2 ^ (e + 1074).toNat) (-1074) := by
  have hpos : 0 < m * 2 ^ (e + 1074).toNat := Nat.mul_pos hm (Nat.two_pow_pos _)
  have htarget : Format.binary64.targetExponent (totalExponent m e) = -1074 := by
    change max (totalExponent m e - 53) (-1074) = -1074
    omega
  have htotal : totalExponent (m * 2 ^ (e + 1074).toNat) (-1074) = totalExponent m e := by
    unfold totalExponent
    rw [log2_mul_two_pow hm]
    omega
  have hshift := shift_lowest (htotal.trans_le hlow.le)
  have hdecreased : decreaseExponent m e (-1074) = (m * 2 ^ (e + 1074).toNat, -1074) := by
    unfold decreaseExponent
    rw [show e - -1074 = e + 1074 by omega]
    exact Prod.ext (Nat.shiftLeft_eq _ _) (by dsimp only; omega)
  unfold UnpackedFloat.round
  rw [htarget]
  dsimp only
  rw [hdecreased]
  unfold roundWithAccuracy unpacked
  rw [hshift]
  dsimp only
  rw [show (ExtendedMantissa.ofMantissaAndAccuracy (m * 2 ^ (e + 1074).toNat) .exact).roundedMantissa =
    m * 2 ^ (e + 1074).toNat from rfl, hshift, dif_pos hpos]
  exact dif_neg hpos.ne'

theorem round_rounded {m : Nat} {e : Int} (hm : 0 < m) (he : -1074 ≤ e) (negative : Bool) :
    ∃ mant exp, 0 < mant ∧ Rounded mant exp ∧
      UnpackedFloat.round .binary64 (signOf negative) m e = unpacked negative mant exp := by
  rcases Int.lt_or_le (totalExponent m e) (-1021) with hlow | hlow
  · have hlog : (m * 2 ^ (e + 1074).toNat).log2 < 53 := by
      rw [log2_mul_two_pow hm]
      unfold totalExponent at hlow
      omega
    have hpos : 0 < m * 2 ^ (e + 1074).toNat := Nat.mul_pos hm (Nat.two_pow_pos _)
    exact ⟨_, _, hpos, ⟨(Nat.log2_lt hpos.ne').1 hlog, le_rfl, .inr rfl⟩,
      round_subnormal hm he hlow negative⟩
  · obtain ⟨mant, exp, hmant, hlt, hexp, -, hround⟩ := round_normal hm hlow negative
    exact ⟨mant, exp, by omega, ⟨hlt, by omega, .inl hmant⟩, hround⟩

/-! ## What is above zero -/

/-- Whether a double is above zero. -/
def above : UnpackedFloat → Bool
  | .infinity .positive | .finite .positive .. => true
  | _ => false

theorem zero_lt (s : Sign) (u : UnpackedFloat) : (UnpackedFloat.zero s).lt u = above u := by
  cases u with
  | infinity s' => cases s' <;> rfl
  | notANumber => rfl
  | zero s' => rfl
  | finite s' m e h => cases s' <;> rfl

theorem above_unpacked (negative : Bool) (mant : Nat) (exp : Int) :
    above (unpacked negative mant exp) = (!negative && decide (0 < mant)) := by
  unfold unpacked
  by_cases h : 0 < mant
  · rw [dif_pos h, decide_eq_true h]
    cases negative <;> rfl
  · rw [dif_neg h, decide_eq_false h]
    cases negative <;> rfl

/-- What is rounded to a power of two that is too large is packed as infinite. -/
theorem pack_past {mant : Nat} {exp : Int} (h : Rounded mant exp) (hlarge : 971 < exp)
    (negative : Bool) : UnpackedFloat.pack .binary64 (unpacked negative mant exp) =
      packedInfinity .binary64 (signOf negative) := by
  have hpos : 0 < mant := by
    have := h.normal.resolve_right (by omega)
    omega
  have hfield : exp + (Format.binary64.exponentBias : Int) +
      (Format.binary64.mantissaBitsWithoutImplicit : Int) = exp + 1075 := by
    rw [add_assoc]
    rfl
  unfold unpacked UnpackedFloat.pack
  rw [dif_pos hpos]
  dsimp only
  rw [hfield, if_pos (by omega)]

/-- What is rounded is above zero if and only if it is so after it was packed. -/
theorem above_repack {mant : Nat} {exp : Int} (h : Rounded mant exp) (negative : Bool) :
    above (UnpackedFloat.unpack .binary64 (UnpackedFloat.pack .binary64
      (unpacked negative mant exp))) = above (unpacked negative mant exp) := by
  rcases Int.lt_or_le 971 exp with hlarge | hexp
  · have hpos : 0 < mant := by
      have := h.normal.resolve_right (by omega)
      omega
    rw [pack_past h hlarge, above_unpacked, decide_eq_true hpos]
    cases negative <;> decide
  · have hc : Canonical mant exp := ⟨h.mant_lt, h.le_exp, hexp, h.normal⟩
    rw [unpack_of_word hc (word_packed hc negative)]

/-! ## Doubles as they are computed with -/

/-- A double is no number, infinite or finite. -/
inductive Kind : UnpackedFloat → Prop
  | notANumber : Kind .notANumber
  | infinity (s : Sign) : Kind (.infinity s)
  | finite {mant : Nat} {exp : Int} (negative : Bool) (hc : Canonical mant exp) :
    Kind (unpacked negative mant exp)

theorem exists_signOf (s : Sign) : ∃ negative, s = signOf negative := by
  cases s with
  | negative => exact ⟨true, rfl⟩
  | positive => exact ⟨false, rfl⟩

theorem kind_unpack (b : BitVec 64) : Kind (UnpackedFloat.unpack .binary64 b) := by
  obtain ⟨negative, hs⟩ := exists_signOf (Sign.ofBitVec (@unpackSign Format.binary64 b))
  have hmant : (@unpackMantissa Format.binary64 b).toNat < 2 ^ 52 := BitVec.isLt _
  have hexp : (@unpackExponent Format.binary64 b).toNat < 2 ^ 11 := BitVec.isLt _
  have hbias : (Format.binary64.exponentBias : Int) +
      (Format.binary64.mantissaBitsWithoutImplicit : Int) = 1075 := rfl
  unfold UnpackedFloat.unpack
  dsimp only
  rw [hs, hbias]
  by_cases hlast : @unpackExponent Format.binary64 b = -1#11
  · rw [if_pos hlast]
    by_cases hfraction : @unpackMantissa Format.binary64 b = 0#52
    · rw [if_pos hfraction]
      exact .infinity _
    · rw [if_neg hfraction]
      exact .notANumber
  rw [if_neg hlast]
  by_cases hfirst : @unpackExponent Format.binary64 b = 0#11
  · rw [if_pos hfirst]
    by_cases hzero : @unpackMantissa Format.binary64 b = 0#52
    · rw [dif_pos hzero]
      have hc : Canonical 0 (-1074) := ⟨by norm_num, le_rfl, by norm_num, .inr rfl⟩
      exact .finite negative hc
    · rw [dif_neg hzero]
      have hpos : 0 < (@unpackMantissa Format.binary64 b).toNat := by
        simpa [BitVec.toNat_pos, BitVec.pos_iff_ne_zero] using hzero
      have hc : Canonical (@unpackMantissa Format.binary64 b).toNat (-1074) :=
        ⟨by omega, le_rfl, by norm_num, .inr rfl⟩
      have hk := Kind.finite negative hc
      unfold unpacked at hk
      rw [dif_pos hpos] at hk
      have hplace : ((@unpackExponent Format.binary64 b).toNat : Int) - 1075 + 1 = -1074 := by
        rw [hfirst]
        rfl
      rwa [finite_congr rfl hplace]
  · rw [if_neg hfirst]
    have htop : (1#1 ++ @unpackMantissa Format.binary64 b).toNat =
        2 ^ 52 + (@unpackMantissa Format.binary64 b).toNat := by
      rw [BitVec.toNat_append, ← Nat.shiftLeft_add_eq_or_of_lt hmant, Nat.shiftLeft_eq]
      exact congrArg (· + _) (Nat.one_mul _)
    have hne : (@unpackExponent Format.binary64 b).toNat ≠ 0 := fun h =>
      hfirst (BitVec.eq_of_toNat_eq h)
    have hne' : (@unpackExponent Format.binary64 b).toNat ≠ 2047 := fun h =>
      hlast (BitVec.eq_of_toNat_eq h)
    have hc : Canonical (1#1 ++ @unpackMantissa Format.binary64 b).toNat
        ((@unpackExponent Format.binary64 b).toNat - 1075) :=
      ⟨by omega, by omega, by omega, .inl (by omega)⟩
    have hk := Kind.finite negative hc
    unfold unpacked at hk
    rwa [dif_pos (by omega)] at hk

/-! ## Differences -/

section

variable {m₁ m₂ : Nat} {e₁ e₂ : Int}

/-- A mantissa for a power of two that is not greater than its own. -/
def scaledTo (m : Nat) (e e' : Int) : Nat :=
  m * 2 ^ (e - e').toNat

theorem decreaseExponent_fst (m : Nat) (e e' : Int) :
    (decreaseExponent m e e').1 = scaledTo m e e' :=
  Nat.shiftLeft_eq _ _

/-- The greater one of two doubles has the greater power of two, or the same one and the greater
    mantissa. -/
theorem scaledTo_lt_iff (hc₁ : Canonical m₁ e₁) (hc₂ : Canonical m₂ e₂) :
    scaledTo m₁ e₁ (min e₁ e₂) < scaledTo m₂ e₂ (min e₁ e₂) ↔ e₁ < e₂ ∨ e₁ = e₂ ∧ m₁ < m₂ := by
  -- With a greater power of two a double is normal, and twice the least normal mantissa is more
  -- than any mantissa.
  have hless {m m' : Nat} {e e' : Int} (hc : Canonical m e) (hc' : Canonical m' e') (h : e < e') :
      scaledTo m e e < scaledTo m' e' e := by
    have hnormal := hc'.normal.resolve_right (by have := hc.le_exp; omega)
    obtain ⟨k, hk⟩ := Int.eq_ofNat_of_zero_le (by omega : 0 ≤ e' - e - 1)
    unfold scaledTo
    rw [Int.sub_self, show (e' - e).toNat = k + 1 by omega, Nat.pow_succ]
    have hpow : 1 ≤ 2 ^ k := Nat.two_pow_pos k
    have hlt := hc.mant_lt
    calc m * 2 ^ (0 : Int).toNat = m := Nat.mul_one m
      _ < 2 ^ 52 * (1 * 2) := by omega
      _ ≤ m' * (2 ^ k * 2) := Nat.mul_le_mul hnormal (Nat.mul_le_mul_right 2 hpow)
  rcases lt_trichotomy e₁ e₂ with h | rfl | h
  · rw [min_eq_left h.le]
    exact iff_of_true (hless hc₁ hc₂ h) (.inl h)
  · rw [min_self]
    unfold scaledTo
    rw [Int.sub_self]
    simp
  · rw [min_eq_right h.le]
    refine iff_of_false (Nat.not_lt.2 (hless hc₂ hc₁ h).le) ?_
    rintro (hlt | ⟨rfl, -⟩) <;> omega

theorem then_compare_eq_lt : (compare e₁ e₂).then (compare m₁ m₂) = .lt ↔
    e₁ < e₂ ∨ e₁ = e₂ ∧ m₁ < m₂ := by
  rw [Ordering.then_eq_lt, compare_lt_iff_lt, compare_eq_iff_eq, compare_lt_iff_lt]

/-- Finite doubles that are not zero are compared as their exact values are. -/
theorem lt_unpacked (hc₁ : Canonical m₁ e₁) (hc₂ : Canonical m₂ e₂) (hm₁ : 0 < m₁) (hm₂ : 0 < m₂)
    (n₁ n₂ : Bool) :
    (unpacked n₂ m₂ e₂).lt (unpacked n₁ m₁ e₁) =
      decide (0 < (signOf n₁).apply (scaledTo m₁ e₁ (min e₁ e₂) : Nat) -
        (signOf n₂).apply (scaledTo m₂ e₂ (min e₁ e₂) : Nat)) := by
  have hpos₁ : 0 < scaledTo m₁ e₁ (min e₁ e₂) := Nat.mul_pos hm₁ (Nat.two_pow_pos _)
  have hpos₂ : 0 < scaledTo m₂ e₂ (min e₁ e₂) := Nat.mul_pos hm₂ (Nat.two_pow_pos _)
  have hlt := scaledTo_lt_iff hc₁ hc₂
  have hgt := scaledTo_lt_iff hc₂ hc₁
  rw [min_comm] at hgt
  unfold unpacked
  rw [dif_pos hm₁, dif_pos hm₂, Bool.eq_iff_iff, decide_eq_true_iff]
  unfold UnpackedFloat.lt
  rw [beq_iff_eq]
  generalize scaledTo m₁ e₁ (min e₁ e₂) = a₁ at hpos₁ hlt hgt ⊢
  generalize scaledTo m₂ e₂ (min e₁ e₂) = a₂ at hpos₂ hlt hgt ⊢
  cases n₁ with
  | false =>
    cases n₂ with
    | false =>
      change some ((compare e₂ e₁).then (compare m₂ m₁)) = some .lt ↔ (0 : Int) < a₁ - a₂
      rw [Option.some_inj, then_compare_eq_lt, ← hgt]
      omega
    | true =>
      change some Ordering.lt = some .lt ↔ (0 : Int) < a₁ - -a₂
      exact iff_of_true rfl (by omega)
  | true =>
    cases n₂ with
    | false =>
      change some Ordering.gt = some .lt ↔ (0 : Int) < -a₁ - a₂
      exact iff_of_false nofun (by omega)
    | true =>
      change some ((compare e₂ e₁).then (compare m₂ m₁)).swap = some .lt ↔ (0 : Int) < -a₁ - -a₂
      have hlt' : e₁ < e₂ ∨ e₁ = e₂ ∧ m₁ < m₂ ↔ e₁ < e₂ ∨ e₂ = e₁ ∧ m₁ < m₂ := by rw [eq_comm]
      rw [Option.some_inj, Ordering.swap_eq_lt, Ordering.then_eq_gt, compare_gt_iff_gt,
        compare_eq_iff_eq, compare_gt_iff_gt, ← hlt', ← hlt]
      omega

theorem normalize_rounded (m : Int) {e : Int} (he : -1074 ≤ e) :
    ∃ n mant exp, Rounded mant exp ∧ UnpackedFloat.normalize .binary64 m e .positive =
      unpacked n mant exp ∧ above (unpacked n mant exp) = decide (0 < m) := by
  unfold UnpackedFloat.normalize
  rcases lt_trichotomy m 0 with hneg | rfl | hpos
  · obtain ⟨mant, exp, -, hr, hround⟩ :=
      round_rounded (by omega : 0 < (-m).toNat) he true
    refine ⟨true, mant, exp, hr, ?_, ?_⟩
    · rw [compare_lt_iff_lt.2 hneg]
      exact hround
    · rw [above_unpacked, decide_eq_false (Int.not_lt.2 hneg.le)]
      rfl
  · exact ⟨false, 0, -1074, ⟨by norm_num, le_rfl, .inr rfl⟩, rfl, rfl⟩
  · obtain ⟨mant, exp, hm, hr, hround⟩ := round_rounded (by omega : 0 < m.toNat) he false
    refine ⟨false, mant, exp, hr, ?_, ?_⟩
    · rw [compare_gt_iff_gt.2 hpos]
      exact hround
    · rw [above_unpacked, decide_eq_true hm, decide_eq_true hpos]
      rfl

theorem sub_unpacked (hc₁ : Canonical m₁ e₁) (hc₂ : Canonical m₂ e₂) (n₁ n₂ : Bool) :
    ∃ n mant exp, Rounded mant exp ∧
      UnpackedFloat.sub .binary64 (unpacked n₁ m₁ e₁) (unpacked n₂ m₂ e₂) = unpacked n mant exp ∧
      above (unpacked n mant exp) = (unpacked n₂ m₂ e₂).lt (unpacked n₁ m₁ e₁) := by
  rcases Nat.eq_zero_or_pos m₁ with rfl | hm₁ <;> rcases Nat.eq_zero_or_pos m₂ with rfl | hm₂
  · refine ⟨n₁ && !n₂, 0, -1074, ⟨by norm_num, le_rfl, .inr rfl⟩, ?_, ?_⟩ <;>
      cases n₁ <;> cases n₂ <;> rfl
  · refine ⟨!n₂, m₂, e₂, hc₂.rounded, ?_, ?_⟩
    · unfold unpacked
      rw [dif_pos hm₂, dif_pos hm₂]
      cases n₁ <;> cases n₂ <;> rfl
    · unfold unpacked
      rw [dif_pos hm₂, dif_pos hm₂]
      cases n₁ <;> cases n₂ <;> rfl
  · refine ⟨n₁, m₁, e₁, hc₁.rounded, ?_, ?_⟩
    · unfold unpacked
      rw [dif_pos hm₁]
      rfl
    · unfold unpacked
      rw [dif_pos hm₁]
      cases n₁ <;> cases n₂ <;> rfl
  · obtain ⟨n, mant, exp, hr, hnormal, habove⟩ := normalize_rounded
      ((signOf n₁).apply (scaledTo m₁ e₁ (min e₁ e₂) : Nat) -
        (signOf n₂).apply (scaledTo m₂ e₂ (min e₁ e₂) : Nat)) (le_min hc₁.le_exp hc₂.le_exp)
    refine ⟨n, mant, exp, hr, ?_, ?_⟩
    · rw [← hnormal, ← decreaseExponent_fst, ← decreaseExponent_fst]
      unfold unpacked
      rw [dif_pos hm₁, dif_pos hm₂]
      rfl
    · rw [habove, lt_unpacked hc₁ hc₂ hm₁ hm₂]

end

theorem above_notANumber :
    above (UnpackedFloat.unpack .binary64 (UnpackedFloat.pack .binary64 .notANumber)) = false := by
  decide

theorem above_infinity (s : Sign) :
    above (UnpackedFloat.unpack .binary64 (UnpackedFloat.pack .binary64 (.infinity s))) =
      above (.infinity s) := by
  cases s <;> decide

/-- A difference, packed, is above zero if and only if the first is the greater. -/
theorem above_sub {u v : UnpackedFloat} (hu : Kind u) (hv : Kind v) :
    above (UnpackedFloat.unpack .binary64 (UnpackedFloat.pack .binary64
      (UnpackedFloat.sub .binary64 u v))) = v.lt u := by
  cases hu with
  | notANumber =>
    refine above_notANumber.trans ?_
    cases v <;> rfl
  | infinity s =>
    cases hv with
    | notANumber => exact above_notANumber
    | infinity s' => cases s <;> cases s' <;> decide
    | @finite m₂ e₂ n₂ hc₂ =>
      unfold unpacked
      by_cases hm : 0 < m₂
      · rw [dif_pos hm]
        refine (above_infinity s).trans ?_
        cases s <;> rfl
      · rw [dif_neg hm]
        refine (above_infinity s).trans ?_
        cases s <;> rfl
  | @finite m₁ e₁ n₁ hc₁ =>
    cases hv with
    | notANumber =>
      unfold unpacked
      by_cases hm : 0 < m₁
      · rw [dif_pos hm]
        exact above_notANumber
      · rw [dif_neg hm]
        exact above_notANumber
    | infinity s' =>
      unfold unpacked
      by_cases hm : 0 < m₁
      · rw [dif_pos hm]
        refine (above_infinity (-s')).trans ?_
        cases s' <;> rfl
      · rw [dif_neg hm]
        refine (above_infinity (-s')).trans ?_
        cases s' <;> rfl
    | @finite m₂ e₂ n₂ hc₂ =>
      obtain ⟨n, mant, exp, hr, hsub, habove⟩ := sub_unpacked hc₁ hc₂ n₁ n₂
      rw [hsub, above_repack hr, habove]

theorem less_eq_lt (x y : Float) : Quantity.less x y = x.toModel.unpack.lt y.toModel.unpack := by
  change decide (x < y) = _
  rw [Bool.eq_iff_iff, decide_eq_true_iff]
  exact decide_eq_true_iff

/-- **A difference of doubles is above zero if and only if the first is the greater.** -/
theorem less_zero_sub (x y : Float) :
    Quantity.less Quantity.zero (Quantity.sub x y) = Quantity.less y x := by
  have hzero : (Quantity.zero : Float).toModel.unpack = .zero .positive := by rfl
  rw [less_eq_lt, less_eq_lt, hzero, zero_lt]
  exact above_sub (kind_unpack _) (kind_unpack _)

theorem lt_self (u : UnpackedFloat) : u.lt u = false := by
  cases u with
  | infinity s => cases s <;> rfl
  | notANumber => rfl
  | zero s => rfl
  | finite s m e h =>
    have hself : (compare e e).then (compare m m) = .eq := by
      rw [compare_eq_iff_eq.2 rfl, compare_eq_iff_eq.2 rfl]
      rfl
    cases s with
    | positive =>
      change (some ((compare e e).then (compare m m)) == some .lt) = false
      rw [hself]
      rfl
    | negative =>
      change (some ((compare e e).then (compare m m)).swap == some .lt) = false
      rw [hself]
      rfl

theorem less_self (x : Float) : Quantity.less x x = false :=
  (less_eq_lt x x).trans (lt_self _)

end Rulebook.Binary64
