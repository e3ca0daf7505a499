/-
  The shortest decimal of a double.

  What `shortest` finds lies around the double that it was asked for, so that it reads back as it.
  Each grid that the search tries leaves it nothing or such a decimal; the eighteenth grid is finer
  than half the distance to the next double, so that the search ends by then.

  * `leadingExponent_spec`: the estimate of the leading power of ten is not too high;
  * `shortest_rounds`: the shortest decimal lies around its double;
  * `ofDecimal_of_rounds`: a decimal around a double reads back as it.
-/
import Rulebook.Number.Decimal
import Rulebook.Proofs.Number.Bits

namespace Rulebook

open Binary64

namespace Decimal

theorem ten_zpow_pos (k : Int) : (0 : ℚ) < 10 ^ k :=
  zpow_pos (by norm_num) k

/-- The number that a decimal stands for. -/
def value (d : Decimal) : ℚ :=
  d.digits * 10 ^ d.exp

/-! ## Quotients -/

theorem ratio_snd_pos (mant : Nat) (exp : Int) : 0 < (ratio mant exp).2 := by
  unfold ratio
  split_ifs
  · exact Nat.one_pos
  · rw [Nat.shiftLeft_eq]
    positivity

theorem ratio_div (mant : Nat) (exp : Int) :
    ((ratio mant exp).1 : ℚ) / (ratio mant exp).2 = magnitude mant exp := by
  unfold ratio magnitude
  split_ifs with he
  · obtain ⟨k, rfl⟩ := Int.eq_ofNat_of_zero_le he
    simp only [Int.toNat_natCast, Nat.shiftLeft_eq]
    push_cast
    rw [zpow_natCast, div_one]
  · obtain ⟨k, hk⟩ := Int.eq_ofNat_of_zero_le (by omega : 0 ≤ -exp)
    obtain rfl : exp = -k := by omega
    simp only [neg_neg, Int.toNat_natCast, Nat.shiftLeft_eq]
    push_cast
    rw [zpow_neg, zpow_natCast, one_mul, div_eq_mul_inv]

theorem shifted_snd_pos {num den : Nat} (hden : 0 < den) (p : Int) : 0 < (shifted num den p).2 := by
  unfold shifted
  split_ifs
  · exact Nat.mul_pos hden (Nat.pow_pos (by norm_num))
  · exact hden

theorem shifted_div (num den : Nat) (p : Int) :
    ((shifted num den p).1 : ℚ) / (shifted num den p).2 = num / den / 10 ^ p := by
  unfold shifted
  split_ifs with hp
  · obtain ⟨k, rfl⟩ := Int.eq_ofNat_of_zero_le hp
    simp only [Int.toNat_natCast, Nat.pow_eq]
    push_cast
    rw [zpow_natCast, div_div]
  · obtain ⟨k, hk⟩ := Int.eq_ofNat_of_zero_le (by omega : 0 ≤ -p)
    obtain rfl : p = -k := by omega
    simp only [neg_neg, Int.toNat_natCast, Nat.pow_eq]
    push_cast
    rw [zpow_neg, zpow_natCast, div_inv_eq_mul]
    ring

section

variable {num den : Nat} (hden : 0 < den) (p : Int) (c : Nat)
include hden

theorem shifted_le_iff :
    (shifted num den p).1 ≤ c * (shifted num den p).2 ↔ (num : ℚ) / den ≤ c * 10 ^ p := by
  have hpos : (0 : ℚ) < (shifted num den p).2 := by exact_mod_cast shifted_snd_pos hden p
  rw [← div_le_iff₀ (ten_zpow_pos p), ← shifted_div, div_le_iff₀ hpos]
  norm_cast

theorem le_shifted_iff :
    c * (shifted num den p).2 ≤ (shifted num den p).1 ↔ (c : ℚ) * 10 ^ p ≤ num / den := by
  have hpos : (0 : ℚ) < (shifted num den p).2 := by exact_mod_cast shifted_snd_pos hden p
  rw [← le_div_iff₀ (ten_zpow_pos p), ← shifted_div, le_div_iff₀ hpos]
  norm_cast

theorem shifted_lt_iff :
    (shifted num den p).1 < c * (shifted num den p).2 ↔ (num : ℚ) / den < c * 10 ^ p := by
  rw [← not_le, ← not_le, le_shifted_iff hden]

theorem lt_shifted_iff :
    c * (shifted num den p).2 < (shifted num den p).1 ↔ (c : ℚ) * 10 ^ p < num / den := by
  rw [← not_le, ← not_le, shifted_le_iff hden]

end

/-! ## The leading power of ten -/

/-- An estimate by the digits 30103 of the decimal logarithm of two is at most two too high. -/
theorem ten_zpow_le {t size : Int} (hlow : -1100 ≤ size) (hhigh : size ≤ 1100)
    (ht : 100000 * t ≤ 30103 * size) : (10 : ℚ) ^ (t - 2) ≤ 2 ^ (size - 1) := by
  rcases le_total 0 size with hsize | hsize
  · refine (pow_le_pow_iff_left₀ (by positivity) (by positivity) (by norm_num : 10 ≠ 0)).1 ?_
    calc ((10 : ℚ) ^ (t - 2)) ^ 10 = 10 ^ ((t - 2) * 10) := by
          rw [zpow_mul]
          rfl
      _ ≤ 10 ^ (3 * size + -8) := zpow_le_zpow_right₀ (by norm_num) (by omega)
      _ = (10 ^ (3 : Int)) ^ size * 10 ^ (-8 : Int) := by
        rw [zpow_add₀ (by norm_num), zpow_mul]
      _ ≤ (2 ^ (10 : Int)) ^ size * 2 ^ (-10 : Int) := by
        have h : ((10 : ℚ) ^ (3 : Int)) ^ size ≤ (2 ^ (10 : Int)) ^ size :=
          zpow_le_zpow_left₀ hsize (by positivity) (by norm_num)
        gcongr
        norm_num
      _ = (2 ^ (size - 1)) ^ 10 := by
        rw [← zpow_mul, ← zpow_add₀ (by norm_num), ← zpow_natCast, ← zpow_mul]
        congr 1
        push_cast
        ring
  · refine (pow_le_pow_iff_left₀ (by positivity) (by positivity) (by norm_num : 93 ≠ 0)).1 ?_
    calc ((10 : ℚ) ^ (t - 2)) ^ 93 = 10 ^ ((t - 2) * 93) := by
          rw [zpow_mul]
          rfl
      _ ≤ 10 ^ (28 * size + -28) := zpow_le_zpow_right₀ (by norm_num) (by omega)
      _ = (10 ^ (-28 : Int)) ^ (-size) * 10 ^ (-28 : Int) := by
        rw [zpow_add₀ (by norm_num), ← zpow_mul]
        congr 2
        ring
      _ ≤ (2 ^ (-93 : Int)) ^ (-size) * 2 ^ (-93 : Int) := by
        have h : ((10 : ℚ) ^ (-28 : Int)) ^ (-size) ≤ (2 ^ (-93 : Int)) ^ (-size) :=
          zpow_le_zpow_left₀ (by omega) (by positivity) (by norm_num)
        gcongr
        norm_num
      _ = (2 ^ (size - 1)) ^ 93 := by
        rw [← zpow_mul, ← zpow_add₀ (by norm_num), ← zpow_natCast, ← zpow_mul]
        congr 1
        push_cast
        ring

/-- The leading power of ten, as it is estimated, is one that the quotient reaches. -/
theorem leadingExponent_spec {num den : Nat} (hnum : 0 < num) (hden : 0 < den)
    (hlow : -1100 ≤ (num.log2 : Int) - den.log2) (hhigh : (num.log2 : Int) - den.log2 ≤ 1100) :
    -340 ≤ leadingExponent num den ∧ (10 : ℚ) ^ leadingExponent num den ≤ num / den := by
  have hd : (0 : ℚ) < den := by exact_mod_cast hden
  have hreach (k : Int) : (shifted num den k).2 ≤ (shifted num den k).1 ↔
      (10 : ℚ) ^ k ≤ num / den := by
    have h := @le_shifted_iff num den hden k 1
    rwa [Nat.one_mul, Nat.cast_one, one_mul] at h
  unfold leadingExponent
  dsimp only
  rw [Int.fdiv_eq_ediv_of_nonneg _ (by norm_num)]
  generalize hsize : (num.log2 : Int) - den.log2 = size at hlow hhigh ⊢
  have hlast : (10 : ℚ) ^ (size * 30103 / 100000 - 2) ≤ num / den := by
    obtain ⟨hn, -⟩ := log2_bounds hnum
    obtain ⟨-, hd'⟩ := log2_bounds hden
    calc (10 : ℚ) ^ (size * 30103 / 100000 - 2) ≤ 2 ^ (size - 1) :=
          ten_zpow_le hlow hhigh (by omega)
      _ = 2 ^ (num.log2 : Int) / 2 ^ ((den.log2 : Int) + 1) := by
        rw [← zpow_sub₀ (by norm_num), ← hsize]
        congr 1
        ring
      _ ≤ num / den := by gcongr
  simp only [decide_eq_true_eq, hreach]
  split_ifs with h1 h2 h3
  · exact ⟨by omega, h1⟩
  · exact ⟨by omega, h2⟩
  · exact ⟨by omega, h3⟩
  · exact ⟨by omega, hlast⟩

/-! ## Grids -/

/-- Whether a number lies between two bounds, themselves included if the span is closed. -/
def Between (low high : ℚ) (closed : Bool) (r : ℚ) : Prop :=
  if closed then low ≤ r ∧ r ≤ high else low < r ∧ r < high

section

variable {value low high den : Nat} {closed : Bool} {p : Int}

/-- Whether a multiple of a power of ten is between the bounds. -/
def inside (low high den : Nat) (closed : Bool) (p : Int) (c : Nat) : Bool :=
  let (l, e) := shifted low den p
  let (h, f) := shifted high den p
  if closed then l ≤ c * e && c * f ≤ h else l < c * e && c * f < h

theorem inside_iff (hden : 0 < den) (c : Nat) :
    inside low high den closed p c = true ↔
      Between (low / den) (high / den) closed (c * 10 ^ p) := by
  unfold inside Between
  cases closed with
  | true => simp [shifted_le_iff hden, le_shifted_iff hden]
  | false => simp [shifted_lt_iff hden, lt_shifted_iff hden]

theorem onGrid_eq : onGrid value low high den closed p =
    let (v, d) := shifted value den p
    match inside low high den closed p (v / d), inside low high den closed p (v / d + 1) with
    | true, true => some (roundHalfEven v d)
    | true, false => some (v / d)
    | false, true => some (v / d + 1)
    | false, false => none :=
  rfl

theorem roundHalfEven_near (num den : Nat) :
    roundHalfEven num den = num / den ∨ roundHalfEven num den = num / den + 1 := by
  unfold roundHalfEven
  dsimp only
  split_ifs <;> simp

theorem onGrid_spec (hden : 0 < den) {c : Nat} (h : onGrid value low high den closed p = some c) :
    Between (low / den) (high / den) closed (c * 10 ^ p) := by
  rw [onGrid_eq] at h
  dsimp only at h
  rw [← inside_iff hden]
  generalize (shifted value den p).1 = v at h
  generalize (shifted value den p).2 = d at h
  split at h
  · next h1 h2 =>
    obtain rfl := Option.some.inj h
    rcases roundHalfEven_near v d with hr | hr <;> rwa [hr]
  · next h1 _ => rwa [← Option.some.inj h]
  · next _ h2 => rwa [← Option.some.inj h]
  · cases h

/-- On a grid that is finer than the room above the value there is a point that reads back. -/
theorem onGrid_isSome (hden : 0 < den) (hlow : (low : ℚ) / den ≤ value / den)
    (hhigh : (value : ℚ) / den + 10 ^ p < high / den) :
    (onGrid value low high den closed p).isSome := by
  have hup : inside low high den closed p ((shifted value den p).1 / (shifted value den p).2 + 1) =
      true := by
    rw [inside_iff hden]
    have hpos := @shifted_snd_pos value den hden p
    generalize hv : (shifted value den p).1 / (shifted value den p).2 = a
    have h1 : (a : ℚ) * 10 ^ p ≤ value / den := by
      rw [← le_shifted_iff hden, ← hv]
      exact Nat.div_mul_le_self _ _
    have h2 : (value : ℚ) / den < (a + 1 : Nat) * 10 ^ p := by
      rw [← shifted_lt_iff hden, ← hv]
      exact (Nat.div_lt_iff_lt_mul hpos).1 (Nat.lt_succ_self _)
    push_cast at h2 ⊢
    unfold Between
    split_ifs
    · constructor <;> linarith
    · constructor <;> linarith
  rw [onGrid_eq]
  dsimp only
  rw [hup]
  cases inside low high den closed p ((shifted value den p).1 / (shifted value den p).2) <;> rfl

theorem dropZeros_spec (fuel : Nat) (d : Decimal) :
    (dropZeros fuel d).value = d.value ∧ d.exp ≤ (dropZeros fuel d).exp := by
  induction fuel generalizing d with
  | zero => exact ⟨rfl, le_rfl⟩
  | succ fuel ih =>
    unfold dropZeros
    split_ifs with h
    · obtain ⟨hvalue, hexp⟩ := ih ⟨d.digits / 10, d.exp + 1⟩
      refine ⟨?_, ?_⟩
      · have hdigits : d.digits = d.digits / 10 * 10 := by omega
        rw [hvalue, value, value, zpow_add_one₀ (by norm_num), hdigits]
        push_cast
        rw [Nat.mul_div_cancel _ (by norm_num)]
        ring
      · exact le_trans (by simp) hexp
    · exact ⟨rfl, le_rfl⟩

/-- A search whose last grid has a point finds one between the bounds. -/
theorem firstGrid_spec (hden : 0 < den) {lead : Int} (fuel n : Nat)
    (hlast : (onGrid value low high den closed (lead - (n + fuel : Nat) + 1)).isSome) :
    Between (low / den) (high / den) closed
        (firstGrid value low high den closed lead (fuel + 1) n).value ∧
      lead - (n + fuel : Nat) + 1 ≤
        (firstGrid value low high den closed lead (fuel + 1) n).exp := by
  induction fuel generalizing n with
  | zero =>
    obtain ⟨c, hc⟩ := Option.isSome_iff_exists.1 hlast
    rw [Nat.add_zero] at hc ⊢
    unfold firstGrid
    dsimp only
    rw [hc]
    obtain ⟨hvalue, hexp⟩ := dropZeros_spec 20 ⟨c, lead - n + 1⟩
    rw [hvalue]
    exact ⟨onGrid_spec hden hc, hexp⟩
  | succ fuel ih =>
    unfold firstGrid
    dsimp only
    split
    · next c hc =>
      obtain ⟨hvalue, hexp⟩ := dropZeros_spec 20 ⟨c, lead - n + 1⟩
      rw [hvalue]
      refine ⟨onGrid_spec hden hc, le_trans ?_ hexp⟩
      dsimp only
      omega
    · have hnext : n + 1 + fuel = n + (fuel + 1) := by ring
      rw [← hnext] at hlast ⊢
      exact ih (n + 1) hlast

end

/-! ## The shortest decimal -/

section

variable {mant : Nat} {exp : Int}

/-- One unit in the last place, over the denominator of a double. -/
theorem unit_spec (hm : 0 < mant) :
    (ratio mant exp).1 = mant * ((ratio mant exp).1 / mant) ∧
      (((ratio mant exp).1 / mant : Nat) : ℚ) / (ratio mant exp).2 = 2 ^ exp := by
  have hunit : (ratio mant exp).1 = mant * ((ratio mant exp).1 / mant) := by
    refine (Nat.mul_div_cancel' ?_).symm
    unfold ratio
    split_ifs
    · rw [Nat.shiftLeft_eq]
      exact Nat.dvd_mul_right _ _
    · exact dvd_rfl
  refine ⟨hunit, ?_⟩
  have hm' : (0 : ℚ) < mant := by exact_mod_cast hm
  have h := ratio_div mant exp
  rw [hunit, magnitude] at h
  push_cast at h
  rw [mul_div_assoc] at h
  exact mul_left_cancel₀ hm'.ne' h

theorem log2_ratio (hc : Canonical mant exp) (hm : 0 < mant) :
    -1100 ≤ ((ratio mant exp).1.log2 : Int) - (ratio mant exp).2.log2 ∧
      ((ratio mant exp).1.log2 : Int) - (ratio mant exp).2.log2 ≤ 1100 := by
  obtain ⟨hlt, hle, hexp, -⟩ := hc
  unfold ratio
  split_ifs with he
  · have h : (mant <<< exp.toNat).log2 < 1024 := by
      have hne : mant <<< exp.toNat ≠ 0 := by
        rw [Nat.shiftLeft_eq]
        positivity
      rw [Nat.log2_lt hne, Nat.shiftLeft_eq]
      calc mant * 2 ^ exp.toNat < 2 ^ 53 * 2 ^ exp.toNat := by gcongr
        _ = 2 ^ (53 + exp.toNat) := (Nat.pow_add _ _ _).symm
        _ ≤ 2 ^ 1024 := Nat.pow_le_pow_right (by norm_num) (by omega)
    have h1 : Nat.log2 1 = 0 := by decide
    dsimp only
    rw [h1]
    omega
  · have h : mant.log2 < 53 := (Nat.log2_lt hm.ne').2 hlt
    rw [Nat.shiftLeft_eq, one_mul, Nat.log2_two_pow]
    dsimp only
    omega

theorem ten_zpow_lt (hc : Canonical mant exp) {lead : Int}
    (hlead : (10 : ℚ) ^ lead ≤ magnitude mant exp) : (10 : ℚ) ^ (lead - 17) < 1 / 2 * 2 ^ exp := by
  have hm : (mant : ℚ) < 2 ^ 53 := by exact_mod_cast hc.mant_lt
  have he := two_zpow_pos exp
  unfold magnitude at hlead
  rw [zpow_sub₀ (by norm_num), div_lt_iff₀ (by positivity)]
  calc (10 : ℚ) ^ lead ≤ mant * 2 ^ exp := hlead
    _ < 2 ^ 53 * 2 ^ exp := by gcongr
    _ < 1 / 2 * 2 ^ exp * 10 ^ (17 : Int) := by
      norm_num
      linarith

theorem below_spec (mant : Nat) (exp : Int) (unit : Nat) :
    ((if mant = Nat.pow 2 52 ∧ -1074 < exp then unit else 2 * unit : Nat) : ℚ) =
      4 * gapBelow mant exp * unit := by
  unfold gapBelow
  rw [Nat.pow_eq]
  split_ifs
  · ring
  · push_cast
    ring

/-- What lies between the midpoints around a double, with them if its mantissa is even. -/
theorem rounds_of_between {r : ℚ} (h : Between ((mant - gapBelow mant exp) * 2 ^ exp)
    ((mant + 1 / 2) * 2 ^ exp) (mant % 2 = 0) r) : Rounds mant exp r := by
  unfold Between at h
  split_ifs at h with heven
  · exact ⟨h.1, h.2, fun _ => of_decide_eq_true heven⟩
  · refine ⟨h.1.le, h.2.le, fun hr => ?_⟩
    rcases hr with hr | hr
    · exact absurd hr h.1.ne'
    · exact absurd hr h.2.ne

/-- A double and the midpoints around it, over four times its denominator. -/
theorem midpoints {num den unit below : Nat} (hden : 0 < den)
    (hscale : (unit : ℚ) / den = 2 ^ exp) (hvalue : (num : ℚ) / den = magnitude mant exp)
    (hbelow : (below : ℚ) = 4 * gapBelow mant exp * unit) (hfits : below ≤ 4 * num) :
    ((4 * num : Nat) : ℚ) / (4 * den : Nat) = mant * 2 ^ exp ∧
      ((4 * num - below : Nat) : ℚ) / (4 * den : Nat) = (mant - gapBelow mant exp) * 2 ^ exp ∧
      ((4 * num + 2 * unit : Nat) : ℚ) / (4 * den : Nat) = (mant + 1 / 2) * 2 ^ exp := by
  have hd : (0 : ℚ) < den := by exact_mod_cast hden
  rw [div_eq_iff hd.ne'] at hscale hvalue
  unfold magnitude at hvalue
  refine ⟨?_, ?_, ?_⟩
  · push_cast
    rw [hvalue]
    field_simp
  · rw [Nat.cast_sub hfits]
    push_cast
    rw [hbelow, hscale, hvalue]
    field_simp
  · push_cast
    rw [hscale, hvalue]
    field_simp
    ring

/-- **The shortest decimal of a double lies around it.** -/
theorem shortest_rounds (hc : Canonical mant exp) (hm : 0 < mant) :
    Rounds mant exp (shortest mant exp).value ∧ -360 ≤ (shortest mant exp).exp := by
  obtain ⟨hunit, hscale⟩ := @unit_spec mant exp hm
  obtain ⟨hsize, hsize'⟩ := log2_ratio hc hm
  have hden := ratio_snd_pos mant exp
  have hmag := ratio_div mant exp
  have hnum : 0 < (ratio mant exp).1 := by
    have hd : (0 : ℚ) < (ratio mant exp).2 := by exact_mod_cast hden
    have hpos : (0 : ℚ) < (ratio mant exp).1 / (ratio mant exp).2 := by
      rw [hmag, magnitude]
      positivity
    exact_mod_cast (div_pos_iff_of_pos_right hd).1 hpos
  obtain ⟨hleast, hlead⟩ := leadingExponent_spec hnum hden hsize hsize'
  unfold shortest
  dsimp only
  generalize leadingExponent (ratio mant exp).1 (ratio mant exp).2 = lead at hleast hlead ⊢
  generalize (ratio mant exp).1 / mant = unit at hunit hscale ⊢
  generalize hbelow : (if mant = Nat.pow 2 52 ∧ -1074 < exp then unit else 2 * unit) = below
  generalize (ratio mant exp).1 = num at *
  generalize (ratio mant exp).2 = den at *
  have hbelow' : (below : ℚ) = 4 * gapBelow mant exp * unit := by
    rw [← hbelow, below_spec]
  have hfits : below ≤ 4 * num := by
    have hu : unit ≤ num := by
      rw [hunit]
      exact Nat.le_mul_of_pos_left unit hm
    rw [← hbelow]
    split_ifs <;> omega
  obtain ⟨hvalue, hlow, hhigh⟩ := midpoints hden hscale hmag hbelow' hfits
  have hexp := two_zpow_pos exp
  have hlast : (onGrid (4 * num) (4 * num - below) (4 * num + 2 * unit) (4 * den)
      (decide (mant % 2 = 0)) (lead - (1 + 17 : Nat) + 1)).isSome := by
    refine onGrid_isSome (by omega) ?_ ?_
    · rw [hlow, hvalue]
      have hgap := gapBelow_pos mant exp
      nlinarith
    · rw [hvalue, hhigh]
      have hfine := ten_zpow_lt hc (hlead.trans_eq hmag)
      rw [show lead - (1 + 17 : Nat) + 1 = lead - 17 by omega]
      linarith
  obtain ⟨hbetween, hplace⟩ := firstGrid_spec (by omega) 17 1 hlast
  rw [hlow, hhigh] at hbetween
  exact ⟨rounds_of_between hbetween, le_trans (by omega) hplace⟩

/-! ## Reading back -/

/-- About the power of ten of a decimal, by which those out of range are known. -/
def roughSize (digits : Nat) (exp : Int) : Int :=
  (digits.log2 : Int) * 30103 / 100000 + exp

/-- The quotient of a decimal. -/
def quotient (digits : Nat) (exp : Int) : Nat × Nat :=
  if 0 ≤ exp then (digits * Nat.pow 10 exp.toNat, 1) else (digits, Nat.pow 10 (-exp).toNat)

theorem quotient_pos {digits : Nat} (hdigits : 0 < digits) (exp : Int) :
    0 < (quotient digits exp).1 ∧ 0 < (quotient digits exp).2 := by
  unfold quotient
  split_ifs
  · exact ⟨Nat.mul_pos hdigits (Nat.pow_pos (by norm_num)), Nat.one_pos⟩
  · exact ⟨hdigits, Nat.pow_pos (by norm_num)⟩

theorem quotient_div (digits : Nat) (exp : Int) :
    ((quotient digits exp).1 : ℚ) / (quotient digits exp).2 = digits * 10 ^ exp := by
  unfold quotient
  split_ifs with he
  · obtain ⟨k, rfl⟩ := Int.eq_ofNat_of_zero_le he
    simp only [Int.toNat_natCast, Nat.pow_eq]
    push_cast
    rw [zpow_natCast, div_one]
  · obtain ⟨k, hk⟩ := Int.eq_ofNat_of_zero_le (by omega : 0 ≤ -exp)
    obtain rfl : exp = -k := by omega
    simp only [neg_neg, Int.toNat_natCast, Nat.pow_eq]
    push_cast
    rw [zpow_neg, zpow_natCast, div_eq_mul_inv]

theorem digits_pos_of_rounds (hm : 0 < mant) {digits : Nat} {e : Int}
    (hr : Rounds mant exp (digits * 10 ^ e)) : 0 < digits := by
  have hpos : (0 : ℚ) < (mant - gapBelow mant exp) * 2 ^ exp := by
    have hgap := gapBelow_le mant exp
    have hmant : (1 : ℚ) ≤ mant := by exact_mod_cast hm
    have hexp := two_zpow_pos exp
    nlinarith
  have h := (mul_pos_iff_of_pos_right (ten_zpow_pos e)).1 (hpos.trans_le hr.lower)
  exact_mod_cast h

/-- **A decimal around a double reads back as it.** -/
theorem ofDecimal_of_rounds (hc : Canonical mant exp) (hm : 0 < mant) {digits : Nat} {e : Int}
    (hr : Rounds mant exp (digits * 10 ^ e)) (hlow : -360 ≤ roughSize digits e)
    (hhigh : roughSize digits e ≤ 330) (negative : Bool) :
    ofDecimal negative digits e = finite negative mant exp := by
  have hdigits := digits_pos_of_rounds hm hr
  obtain ⟨hnum, hden⟩ := quotient_pos hdigits e
  have hratio : ofRatio negative (quotient digits e).1 (quotient digits e).2 =
      some (finite negative mant exp) := by
    rw [ofRatio_of_rounds hc.rounded hnum hden (by rwa [quotient_div]), pack_eq hc]
  unfold ofDecimal
  rw [if_neg hdigits.ne']
  change (if 330 < roughSize digits e then infinity negative
    else if roughSize digits e < -360 then zero negative
    else (ofRatio negative (quotient digits e).1 (quotient digits e).2).getD _) = _
  rw [if_neg (Int.not_lt.2 hhigh), if_neg (Int.not_lt.2 hlow), hratio, Option.getD_some]

end

end Decimal

end Rulebook
