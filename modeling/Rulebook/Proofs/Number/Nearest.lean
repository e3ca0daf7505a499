/-
  The double nearest to a quotient.

  A positive double `mant · 2 ^ exp` is what the quotients around it are rounded to: those between
  the midpoints to its neighbours, and the midpoints too if the mantissa is even (`Rounds`).

  * `roundHalfEven_eq`: a quotient rounds to the whole number that it is nearest to;
  * `ofRatio_of_rounds`: of a quotient around a double, `ofRatio` is that double;
  * `exists_rounds`, `exists_rounded`: every quotient lies around one.
-/
import Mathlib.Algebra.Order.Field.Power
import Mathlib.Data.Nat.Log
import Mathlib.Data.Rat.Cast.Order
import Mathlib.Data.Rat.Floor
import Mathlib.Tactic.FieldSimp
import Mathlib.Tactic.Linarith
import Mathlib.Tactic.NormNum
import Mathlib.Tactic.Positivity
import Mathlib.Tactic.Ring
import Rulebook.Number.Binary64

namespace Rulebook

/-! ## Rounding to whole numbers -/

theorem roundHalfEven_eq {num den n : Nat} (hden : 0 < den)
    (hlow : (n : ℚ) - 1 / 2 ≤ num / den) (hhigh : (num : ℚ) / den ≤ n + 1 / 2)
    (htie : (num : ℚ) / den = n - 1 / 2 ∨ (num : ℚ) / den = n + 1 / 2 → n % 2 = 0) :
    roundHalfEven num den = n := by
  have hd : (0 : ℚ) < den := by exact_mod_cast hden
  have hl : 2 * n * den ≤ 2 * num + den := by
    rw [le_div_iff₀ hd] at hlow
    have : (2 * n * den : ℚ) ≤ 2 * num + den := by linarith
    exact_mod_cast this
  have hh : 2 * num ≤ 2 * n * den + den := by
    rw [div_le_iff₀ hd] at hhigh
    have : (2 * num : ℚ) ≤ 2 * n * den + den := by linarith
    exact_mod_cast this
  have hlt : 2 * n * den = 2 * num + den → n % 2 = 0 := by
    intro h
    refine htie (.inl ?_)
    rw [div_eq_iff hd.ne']
    have : (2 * n * den : ℚ) = 2 * num + den := by exact_mod_cast h
    linarith
  have hht : 2 * num = 2 * n * den + den → n % 2 = 0 := by
    intro h
    refine htie (.inr ?_)
    rw [div_eq_iff hd.ne']
    have : (2 * num : ℚ) = 2 * n * den + den := by exact_mod_cast h
    linarith
  unfold roundHalfEven
  dsimp only
  have hsplit := Nat.div_add_mod num den
  have hmod := Nat.mod_lt num hden
  generalize num / den = q at hsplit ⊢
  generalize num % den = r at hsplit hmod ⊢
  -- The quotient rounded down is `n` or the number before it.
  have hq : q = n ∨ q + 1 = n := by
    have hlo : n ≤ q + 1 := by
      by_contra h
      have : (q + 2) * den ≤ n * den := Nat.mul_le_mul_right den (by omega)
      nlinarith
    have hhi : q ≤ n := by
      by_contra h
      have : (n + 1) * den ≤ q * den := Nat.mul_le_mul_right den (by omega)
      nlinarith
    omega
  rcases hq with rfl | rfl
  · have hr : 2 * r ≤ den := by nlinarith
    rw [if_neg (Nat.not_lt.2 hr)]
    split
    · rfl
    · rw [if_pos (hht (by nlinarith))]
  · have hr : den ≤ 2 * r := by nlinarith
    rw [if_neg (Nat.not_lt.2 hr)]
    split
    · rfl
    · have heven := hlt (by nlinarith)
      rw [if_neg (by omega)]

namespace Binary64

/-! ## The quotients around a double -/

/-- The magnitude of a double. -/
def magnitude (mant : Nat) (exp : Int) : ℚ :=
  mant * 2 ^ exp

/-- The mantissas and powers of two of finite doubles. -/
structure Canonical (mant : Nat) (exp : Int) : Prop where
  mant_lt : mant < 2 ^ 53
  le_exp : -1074 ≤ exp
  exp_le : exp ≤ 971
  normal : 2 ^ 52 ≤ mant ∨ exp = -1074

/-- The mantissas and powers of two that numbers are rounded to. If the power of two is too large,
    they stand for an infinite double. -/
structure Rounded (mant : Nat) (exp : Int) : Prop where
  mant_lt : mant < 2 ^ 53
  le_exp : -1074 ≤ exp
  normal : 2 ^ 52 ≤ mant ∨ exp = -1074

theorem Canonical.rounded {mant : Nat} {exp : Int} (hc : Canonical mant exp) : Rounded mant exp :=
  ⟨hc.mant_lt, hc.le_exp, hc.normal⟩

/-- How far below a double the midpoint to the one before it is, in units of its last place. -/
def gapBelow (mant : Nat) (exp : Int) : ℚ :=
  if mant = 2 ^ 52 ∧ -1074 < exp then 1 / 4 else 1 / 2

/-- Whether a quotient lies around a double: between the midpoints to its neighbours, or at one of
    them if the mantissa is even. -/
structure Rounds (mant : Nat) (exp : Int) (r : ℚ) : Prop where
  lower : (mant - gapBelow mant exp) * 2 ^ exp ≤ r
  upper : r ≤ (mant + 1 / 2) * 2 ^ exp
  even : r = (mant - gapBelow mant exp) * 2 ^ exp ∨ r = (mant + 1 / 2) * 2 ^ exp → mant % 2 = 0

theorem two_zpow_pos (e : Int) : (0 : ℚ) < 2 ^ e :=
  zpow_pos (by norm_num) e

theorem two_zpow_succ (e : Int) : (2 : ℚ) ^ (e + 1) = 2 * 2 ^ e := by
  rw [zpow_add_one₀ (by norm_num)]
  ring

theorem gapBelow_le (mant : Nat) (exp : Int) : gapBelow mant exp ≤ 1 / 2 := by
  unfold gapBelow
  split_ifs <;> norm_num

theorem gapBelow_pos (mant : Nat) (exp : Int) : 0 < gapBelow mant exp := by
  unfold gapBelow
  split_ifs <;> norm_num

/-! ## Scaled quotients -/

/-- A quotient over a power of two. -/
def scaled (num den : Nat) (q : Int) : Nat × Nat :=
  if 0 ≤ q then (num, den <<< q.toNat) else (num <<< (-q).toNat, den)

theorem scaled_snd_pos {num den : Nat} (hden : 0 < den) (q : Int) : 0 < (scaled num den q).2 := by
  unfold scaled
  split_ifs
  · rw [Nat.shiftLeft_eq]
    positivity
  · exact hden

theorem scaled_div (num den : Nat) (q : Int) :
    ((scaled num den q).1 : ℚ) / (scaled num den q).2 = num / den / 2 ^ q := by
  unfold scaled
  split_ifs with hq
  · obtain ⟨k, rfl⟩ := Int.eq_ofNat_of_zero_le hq
    simp only [Int.toNat_natCast, Nat.shiftLeft_eq]
    push_cast
    rw [zpow_natCast, div_div]
  · obtain ⟨k, hk⟩ := Int.eq_ofNat_of_zero_le (by omega : 0 ≤ -q)
    obtain rfl : q = -k := by omega
    simp only [neg_neg, Int.toNat_natCast, Nat.shiftLeft_eq]
    push_cast
    rw [zpow_neg, zpow_natCast, div_inv_eq_mul]
    ring

/-- The power of two that leaves a quotient about 53 bits before the point. -/
def guess (num den : Nat) : Int :=
  (num.log2 : Int) - den.log2 - 52

/-- The power of two that leaves a quotient 53 bits before the point. -/
def leadingPlace (num den : Nat) : Int :=
  let (a, b) := scaled num den (guess num den)
  if a / b < Nat.pow 2 52 then guess num den - 1 else guess num den

theorem log2_bounds {n : Nat} (hn : 0 < n) :
    (2 : ℚ) ^ (n.log2 : Int) ≤ n ∧ (n : ℚ) < 2 ^ ((n.log2 : Int) + 1) := by
  rw [zpow_natCast, ← Nat.cast_succ, zpow_natCast]
  exact ⟨by exact_mod_cast Nat.log2_self_le hn.ne', by exact_mod_cast Nat.lt_log2_self⟩

theorem leadingPlace_bounds {num den : Nat} (hnum : 0 < num) (hden : 0 < den) :
    (2 : ℚ) ^ (leadingPlace num den + 52) ≤ num / den ∧
      (num : ℚ) / den < 2 ^ (leadingPlace num den + 53) := by
  have hd : (0 : ℚ) < den := by exact_mod_cast hden
  obtain ⟨hn1, hn2⟩ := log2_bounds hnum
  obtain ⟨hd1, hd2⟩ := log2_bounds hden
  have hlow : (2 : ℚ) ^ (guess num den + 51) ≤ num / den := by
    rw [le_div_iff₀ hd]
    calc (2 : ℚ) ^ (guess num den + 51) * den
        ≤ 2 ^ (guess num den + 51) * 2 ^ ((den.log2 : Int) + 1) := by gcongr
      _ = 2 ^ (num.log2 : Int) := by
        rw [← zpow_add₀ (by norm_num)]
        congr 1
        unfold guess
        ring
      _ ≤ num := hn1
  have hhigh : (num : ℚ) / den < 2 ^ (guess num den + 53) := by
    rw [div_lt_iff₀ hd]
    calc (num : ℚ) < 2 ^ ((num.log2 : Int) + 1) := hn2
      _ = 2 ^ (guess num den + 53) * 2 ^ (den.log2 : Int) := by
        rw [← zpow_add₀ (by norm_num)]
        congr 1
        unfold guess
        ring
      _ ≤ 2 ^ (guess num den + 53) * den := by gcongr
  have htest : (scaled num den (guess num den)).1 / (scaled num den (guess num den)).2 <
      Nat.pow 2 52 ↔ (num : ℚ) / den < 2 ^ (guess num den + 52) := by
    have hb := @scaled_snd_pos num den hden (guess num den)
    have hb' : (0 : ℚ) < (scaled num den (guess num den)).2 := by exact_mod_cast hb
    rw [Nat.div_lt_iff_lt_mul hb, add_comm, zpow_add₀ (by norm_num),
      ← div_lt_iff₀ (two_zpow_pos _), ← scaled_div, div_lt_iff₀ hb']
    norm_cast
  unfold leadingPlace
  dsimp only
  split_ifs with h
  · refine ⟨?_, ?_⟩
    · rw [show guess num den - 1 + 52 = guess num den + 51 by ring]
      exact hlow
    · rw [show guess num den - 1 + 53 = guess num den + 52 by ring]
      exact htest.1 h
  · exact ⟨not_lt.1 fun hlt => h (htest.2 hlt), hhigh⟩

theorem ofRatio_eq (negative : Bool) {num : Nat} (den : Nat) (hnum : 0 < num) :
    ofRatio negative num den =
      let q := max (leadingPlace num den) (-1074)
      let m := roundHalfEven (scaled num den q).1 (scaled num den q).2
      if m = Nat.pow 2 53 then pack negative (Nat.pow 2 52) (q + 1) else pack negative m q := by
  unfold ofRatio
  rw [if_neg hnum.ne']
  rfl

/-! ## The nearest double -/

section

variable {num den mant : Nat} {exp : Int}

/-- A quotient of a power of two within half a unit of a whole number rounds to that. -/
theorem round_scaled (hden : 0 < den) {q : Int} {n : Nat}
    (hlow : (n - 1 / 2 : ℚ) * 2 ^ q ≤ num / den) (hhigh : (num : ℚ) / den ≤ (n + 1 / 2) * 2 ^ q)
    (htie : (num : ℚ) / den = (n - 1 / 2) * 2 ^ q ∨ (num : ℚ) / den = (n + 1 / 2) * 2 ^ q →
      n % 2 = 0) : roundHalfEven (scaled num den q).1 (scaled num den q).2 = n := by
  have hq := two_zpow_pos q
  refine roundHalfEven_eq (scaled_snd_pos hden q) ?_ ?_ ?_
  · rwa [scaled_div, le_div_iff₀ hq]
  · rwa [scaled_div, div_le_iff₀ hq]
  · rwa [scaled_div, div_eq_iff hq.ne', div_eq_iff hq.ne']

theorem lt_zpow_of_rounds (hc : Rounded mant exp) {r : ℚ} (hr : Rounds mant exp r) :
    r < 2 ^ (exp + 53) := by
  have hm : (mant : ℚ) + 1 ≤ 2 ^ 53 := by exact_mod_cast hc.mant_lt
  have he := two_zpow_pos exp
  calc r ≤ (mant + 1 / 2) * 2 ^ exp := hr.upper
    _ < 2 ^ 53 * 2 ^ exp := by gcongr; linarith
    _ = 2 ^ (exp + 53) := by
      rw [add_comm, zpow_add₀ (by norm_num)]
      norm_num

theorem leadingPlace_le (hc : Rounded mant exp) (hnum : 0 < num) (hden : 0 < den)
    (hr : Rounds mant exp (num / den)) : leadingPlace num den ≤ exp := by
  have hlow := (leadingPlace_bounds hnum hden).1
  have hlt := lt_zpow_of_rounds hc hr
  have h := (zpow_lt_zpow_iff_right₀ (by norm_num : (1 : ℚ) < 2)).1 (hlow.trans_lt hlt)
  omega

/-- Quotients around a double that are below its power of two: only the lowest mantissa is that
    close to the doubles with the power of two before. -/
theorem round_below (hc : Rounded mant exp) (hnum : 0 < num) (hden : 0 < den)
    (hr : Rounds mant exp (num / den)) (hnear : (num : ℚ) / den < 2 ^ (exp + 52))
    (hexp : -1074 < exp) : mant = 2 ^ 52 ∧ leadingPlace num den = exp - 1 ∧
      roundHalfEven (scaled num den (exp - 1)).1 (scaled num den (exp - 1)).2 = 2 ^ 53 := by
  obtain ⟨hlow, hhigh⟩ := leadingPlace_bounds hnum hden
  have hmant : mant = 2 ^ 52 := by
    have hmin := hc.normal.resolve_right (by omega)
    by_contra hne
    have hm : (2 ^ 52 + 1 : ℚ) ≤ mant := by exact_mod_cast Nat.lt_of_le_of_ne hmin (Ne.symm hne)
    have hup : (2 : ℚ) ^ (exp + 52) ≤ (mant - gapBelow mant exp) * 2 ^ exp := by
      rw [add_comm, zpow_add₀ (by norm_num)]
      have hgap := gapBelow_le mant exp
      gcongr
      norm_num
      linarith
    linarith [hr.lower]
  have hgap : gapBelow mant exp = 1 / 4 := if_pos ⟨hmant, hexp⟩
  have hlower : (2 ^ 53 - 1 / 2 : ℚ) * 2 ^ (exp - 1) ≤ num / den := by
    have h := hr.lower
    rw [hgap, hmant, ← sub_add_cancel exp 1, two_zpow_succ] at h
    push_cast at h
    linarith
  have hscale := two_zpow_pos (exp - 1)
  refine ⟨hmant, ?_, round_scaled hden ?_ ?_ fun _ => by norm_num⟩
  · have h1 : (2 : ℚ) ^ (exp + 51) ≤ num / den := by
      rw [show exp + 51 = 52 + (exp - 1) by ring, zpow_add₀ (by norm_num)]
      refine le_trans ?_ hlower
      gcongr
      norm_num
    have h2 := (zpow_lt_zpow_iff_right₀ (by norm_num : (1 : ℚ) < 2)).1 (h1.trans_lt hhigh)
    have h3 := (zpow_lt_zpow_iff_right₀ (by norm_num : (1 : ℚ) < 2)).1 (hlow.trans_lt hnear)
    omega
  · push_cast
    exact hlower
  · rw [show exp + 52 = 53 + (exp - 1) by ring, zpow_add₀ (by norm_num)] at hnear
    push_cast
    norm_num at hnear
    linarith

/-- All other quotients around a double. -/
theorem round_within (hc : Rounded mant exp) (hnum : 0 < num) (hden : 0 < den)
    (hr : Rounds mant exp (num / den)) (hwithin : -1074 < exp → (2 : ℚ) ^ (exp + 52) ≤ num / den) :
    max (leadingPlace num den) (-1074) = exp ∧
      roundHalfEven (scaled num den exp).1 (scaled num den exp).2 = mant := by
  have hhigh := (leadingPlace_bounds hnum hden).2
  have hplace := leadingPlace_le hc hnum hden hr
  have hgap : gapBelow mant exp = 1 / 2 ∨ (mant : ℚ) * 2 ^ exp ≤ num / den := by
    by_cases hm : mant = 2 ^ 52 ∧ -1074 < exp
    · refine .inr ?_
      have h := hwithin hm.2
      rw [add_comm, zpow_add₀ (by norm_num)] at h
      rw [hm.1]
      push_cast
      exact_mod_cast h
    · exact .inl (if_neg hm)
  have hpos := two_zpow_pos exp
  refine ⟨?_, round_scaled hden ?_ hr.upper fun htie => ?_⟩
  · rcases eq_or_lt_of_le hc.le_exp with he | he
    · rw [← he] at hplace ⊢
      exact max_eq_right hplace
    · have h := (zpow_lt_zpow_iff_right₀ (by norm_num : (1 : ℚ) < 2)).1
        ((hwithin he).trans_lt hhigh)
      omega
  · rcases hgap with h | h
    · rw [← h]
      exact hr.lower
    · nlinarith
  · rcases htie with htie | htie
    · rcases hgap with h | h
      · exact hr.even (.inl (by rw [h]; exact htie))
      · nlinarith
    · exact hr.even (.inr htie)

/-- **The double of the quotients around it.** -/
theorem ofRatio_of_rounds (hc : Rounded mant exp) (hnum : 0 < num) (hden : 0 < den)
    (hr : Rounds mant exp (num / den)) (negative : Bool) :
    ofRatio negative num den = pack negative mant exp := by
  rw [ofRatio_eq negative den hnum]
  by_cases hbelow : (num : ℚ) / den < 2 ^ (exp + 52) ∧ -1074 < exp
  · obtain ⟨hmant, hplace, hround⟩ := round_below hc hnum hden hr hbelow.1 hbelow.2
    have hmax : max (exp - 1) (-1074) = exp - 1 := max_eq_left (by omega)
    dsimp only
    rw [hplace, hmax, hround, if_pos Nat.pow_eq.symm, hmant, sub_add_cancel, Nat.pow_eq]
  · obtain ⟨hplace, hround⟩ := round_within hc hnum hden hr
      fun hexp => not_lt.1 fun hlt => hbelow ⟨hlt, hexp⟩
    have hne : mant ≠ Nat.pow 2 53 := Nat.ne_of_lt hc.mant_lt
    dsimp only
    rw [hplace, hround, if_neg hne]

end

/-! ## Every quotient has a nearest double -/

theorem exists_nearest {t : ℚ} (ht : 0 ≤ t) : ∃ n : ℕ, (n : ℚ) - 1 / 2 ≤ t ∧ t ≤ n + 1 / 2 ∧
    (t = n - 1 / 2 ∨ t = n + 1 / 2 → n % 2 = 0) := by
  have hlow := Nat.floor_le ht
  have hhigh := Nat.lt_floor_add_one t
  generalize ⌊t⌋₊ = n at hlow hhigh
  rcases lt_trichotomy t (n + 1 / 2) with hlt | heq | hgt
  · refine ⟨n, by linarith, hlt.le, ?_⟩
    rintro (h | h) <;> linarith
  · by_cases heven : n % 2 = 0
    · exact ⟨n, by linarith, heq.le, fun _ => heven⟩
    · refine ⟨n + 1, by push_cast; linarith, by push_cast; linarith, fun _ => by omega⟩
  · refine ⟨n + 1, by push_cast; linarith, by push_cast; linarith, ?_⟩
    push_cast
    rintro (h | h) <;> linarith

theorem exists_rounds {r : ℚ} {q : Int} (hlow : 2 ^ (q + 52) ≤ r) (hhigh : r < 2 ^ (q + 53)) :
    ∃ mant exp, Rounds mant exp r ∧ 2 ^ 52 ≤ mant ∧ mant < 2 ^ 53 ∧ q ≤ exp ∧ exp ≤ q + 1 := by
  have hq := two_zpow_pos q
  rw [add_comm, zpow_add₀ (by norm_num), ← le_div_iff₀ hq] at hlow
  rw [add_comm, zpow_add₀ (by norm_num), ← div_lt_iff₀ hq] at hhigh
  have hr : r = r / 2 ^ q * 2 ^ q := (div_mul_cancel₀ r hq.ne').symm
  generalize r / 2 ^ q = t at hlow hhigh hr
  subst hr
  norm_num at hlow hhigh
  obtain ⟨n, hn, hn', htie⟩ := exists_nearest (by linarith : 0 ≤ t)
  have hleast : 2 ^ 52 ≤ n := by
    have h : (2 ^ 52 : ℚ) < n + 1 := by linarith
    have h' : 2 ^ 52 < n + 1 := by exact_mod_cast h
    omega
  have hmost : n ≤ 2 ^ 53 := by
    have h : (n : ℚ) < 2 ^ 53 + 1 := by linarith
    have h' : n < 2 ^ 53 + 1 := by exact_mod_cast h
    omega
  rcases Nat.lt_or_eq_of_le hmost with hlt | rfl
  · -- Only the least mantissa has less room below, and the quotient is not below it.
    have hgap : gapBelow n q = 1 / 2 ∨ (n : ℚ) ≤ t := by
      by_cases hm : n = 2 ^ 52 ∧ -1074 < q
      · refine .inr ?_
        rw [hm.1]
        norm_num
        exact hlow
      · exact .inl (if_neg hm)
    refine ⟨n, q, ⟨?_, by gcongr, ?_⟩, hleast, hlt, le_rfl, by omega⟩
    · have hgap' := gapBelow_pos n q
      rcases hgap with h | h
      · rw [h]
        gcongr
      · gcongr
        linarith
    · rw [mul_left_inj' hq.ne', mul_left_inj' hq.ne']
      have hgap' := gapBelow_pos n q
      rintro (h | h)
      · rcases hgap with hhalf | hle
        · exact htie (.inl (by rw [h, hhalf]))
        · linarith
      · exact htie (.inr h)
  · have hgap : (1 / 4 : ℚ) ≤ gapBelow (2 ^ 52) (q + 1) := by
      unfold gapBelow
      split_ifs <;> norm_num
    refine ⟨2 ^ 52, q + 1, ⟨?_, ?_, fun _ => by norm_num⟩, le_rfl, by norm_num, by omega, le_rfl⟩
    · rw [two_zpow_succ]
      push_cast at hn ⊢
      nlinarith
    · rw [two_zpow_succ]
      push_cast
      nlinarith

/-- Every positive quotient lies around a double, if that may be infinite. One that is too small for
    53 bits lies around a multiple of the least double. -/
theorem exists_rounded {num den : Nat} (hnum : 0 < num) (hden : 0 < den) :
    ∃ mant exp, Rounded mant exp ∧ Rounds mant exp (num / den) := by
  obtain ⟨hlow, hhigh⟩ := leadingPlace_bounds hnum hden
  generalize leadingPlace num den = place at hlow hhigh
  rcases le_or_gt (-1074) place with hplace | hplace
  · obtain ⟨mant, exp, hr, hleast, hmost, hexp, -⟩ := exists_rounds hlow hhigh
    exact ⟨mant, exp, ⟨hmost, by omega, .inl hleast⟩, hr⟩
  · have hsmall : (num : ℚ) / den < 2 ^ (52 : Int) * 2 ^ (-1074 : Int) := by
      rw [← zpow_add₀ (by norm_num)]
      exact hhigh.trans_le (zpow_le_zpow_right₀ (by norm_num) (by omega))
    have hunit := two_zpow_pos (-1074)
    rw [← div_lt_iff₀ hunit] at hsmall
    have hr : (num : ℚ) / den = num / den / 2 ^ (-1074 : Int) * 2 ^ (-1074 : Int) :=
      (div_mul_cancel₀ _ hunit.ne').symm
    have hnonneg : 0 ≤ (num : ℚ) / den / 2 ^ (-1074 : Int) := by positivity
    generalize (num : ℚ) / den / 2 ^ (-1074 : Int) = t at hsmall hr hnonneg
    rw [hr]
    obtain ⟨n, hn, hn', htie⟩ := exists_nearest hnonneg
    have hmost : n < 2 ^ 53 := by
      have h : (n : ℚ) < 2 ^ 53 := by
        calc (n : ℚ) ≤ t + 1 / 2 := by linarith
          _ < 2 ^ (52 : Int) + 1 / 2 := by gcongr
          _ ≤ 2 ^ 53 := by norm_num
      exact_mod_cast h
    have hgap : gapBelow n (-1074) = 1 / 2 := if_neg fun h => lt_irrefl _ h.2
    refine ⟨n, -1074, ⟨hmost, le_rfl, .inr rfl⟩, ⟨?_, ?_, ?_⟩⟩
    · rw [hgap]
      gcongr
    · gcongr
    · rw [hgap, mul_left_inj' hunit.ne', mul_left_inj' hunit.ne']
      exact htie

end Binary64

end Rulebook
