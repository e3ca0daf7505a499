/-
  Numbers that are written with an exponent.

  Of the text of such a number the letter is struck out.  What is left is the sum or the difference
  of its mantissa and its exponent, which is far from the number, or no formula at all because the
  exponent starts with a zero.  So formulas calculate the number from its text only if that is
  positional.

  * `calculate_exponent`: a text with an exponent is not calculated to its number;
  * `calculate_written`: which texts of numbers are.
-/
import Rulebook.Proofs.Formula.Operand
import Rulebook.Proofs.Number.Sums

namespace Rulebook

open Binary64 Decimal Reading

namespace Script

open Token

/-! ## Mantissas -/

/-- A number as the mantissa of a double can be: whole, or a double of at most ten with the sign of
    the other. -/
def IsMantissa (negative : Bool) (n : Number) : Prop :=
  (∃ j, n = .int j) ∨ ∃ mant exp, Canonical mant exp ∧ 0 < mant ∧ -1000 ≤ exp ∧
    magnitude mant exp ≤ 10 ∧ n = .float (finite negative mant exp)

/-- A decimal with one digit before the point is read as a double of at most ten. -/
theorem exists_digitsDouble {digits k : Nat} (hlow : 10 ^ k ≤ digits)
    (hhigh : digits < 10 ^ (k + 1)) (hk : k ≤ 1000) :
    ∃ mant exp, Canonical mant exp ∧ 0 < mant ∧ -1000 ≤ exp ∧
      magnitude mant exp ≤ 10 ∧ ofDecimal false digits (-k) = finite false mant exp := by
  have hpos : 0 < digits := lt_of_lt_of_le (Nat.pow_pos (by norm_num)) hlow
  obtain ⟨hnum, hden⟩ := quotient_pos hpos (-k : Int)
  obtain ⟨hleast, hmost⟩ := leadingPlace_bounds hnum hden
  have hquotient : (1 : ℚ) ≤ digits * 10 ^ (-k : Int) ∧ (digits : ℚ) * 10 ^ (-k : Int) < 10 := by
    have hten : (0 : ℚ) < 10 ^ k := by positivity
    have hlow' : (10 : ℚ) ^ k ≤ digits := by exact_mod_cast hlow
    have hhigh' : (digits : ℚ) < 10 ^ k * 10 := by exact_mod_cast hhigh
    rw [zpow_neg, zpow_natCast, ← div_eq_mul_inv, le_div_iff₀ hten, div_lt_iff₀ hten]
    exact ⟨by linarith, by linarith⟩
  rw [quotient_div] at hleast hmost
  generalize leadingPlace _ _ = place at hleast hmost
  have hplace : place + 52 < 4 := by
    refine (zpow_lt_zpow_iff_right₀ (by norm_num : (1 : ℚ) < 2)).1 (hleast.trans_lt ?_)
    exact hquotient.2.trans (by norm_num)
  have hplace' : 0 < place + 53 := by
    refine (zpow_lt_zpow_iff_right₀ (by norm_num : (1 : ℚ) < 2)).1 (lt_of_le_of_lt ?_ hmost)
    exact le_trans (by norm_num) hquotient.1
  obtain ⟨mant, exp, hr, hmant, hmant', hexp, hexp'⟩ := exists_rounds hleast hmost
  have hc : Canonical mant exp := ⟨hmant', by omega, by omega, .inl hmant⟩
  have hsize := roughSize_bounds hlow hhigh (by omega : -1000 ≤ (-k : Int)) (by omega) (by omega)
  refine ⟨mant, exp, hc, by omega, by omega, ?_,
    ofDecimal_of_rounds hc (by omega) hr hsize.1 hsize.2 false⟩
  have hten : magnitude (10 * 2 ^ 49) (-49) = 10 := by
    unfold magnitude
    norm_num
  rw [← hten]
  refine hr.magnitude_le hmant hmant' (by norm_num) (by norm_num) ?_
  rw [hten]
  exact hquotient.2

/-- The numeral of digits with a point behind the first. -/
def mantissaChars : List Char → List Char
  | c :: d :: ds => c :: '.' :: d :: ds
  | cs => cs

theorem toList_exponential {d : Decimal} (h : ¬(-4 ≤ lead d ∧ lead d < 16)) :
    (d.text Data.floatLayout).toList =
      mantissaChars (Nat.toDigits 10 d.digits) ++ (exponentText (lead d)).toList := by
  rw [text_eq, if_neg h]
  rcases hcs : Nat.toDigits 10 d.digits with - | ⟨c, - | ⟨c', cs⟩⟩
  · exact absurd hcs Nat.toDigits_ne_nil
  · simp [mantissaChars]
  · simp [mantissaChars]

/-- The digits of a number are the numeral of a mantissa. -/
theorem exists_mantissaNumeral {digits : Nat} (hpos : 0 < digits)
    (hlength : (Nat.toDigits 10 digits).length ≤ 1000) :
    ∃ numeral : Numeral, numeral.chars = mantissaChars (Nat.toDigits 10 digits) ∧
      ∀ negative, ∃ a, (Operand.ofNumeral negative numeral).value Numeral.value = .ok a ∧
        IsMantissa negative a := by
  rcases hcs : Nat.toDigits 10 digits with - | ⟨c, - | ⟨c', cs⟩⟩
  · exact absurd hcs Nat.toDigits_ne_nil
  · have hone : (Nat.toDigits 10 digits).length ≤ maxDigits := by
      rw [hcs, List.length_singleton]
      decide
    refine ⟨wholeNumeral digits hone, ?_, fun negative => ?_⟩
    · rw [wholeNumeral_chars, Nat.toString_eq_repr, Nat.toList_repr, hcs]
      rfl
    · have hvalue := wholeNumeral_value digits hone
      cases negative with
      | false => exact ⟨_, congrArg Except.ok hvalue, .inl ⟨_, rfl⟩⟩
      | true => exact ⟨_, congrArg (fun n => Except.ok (Number.neg n)) hvalue, .inl ⟨_, rfl⟩⟩
  · have hdigits := toDigits_isDigit digits
    have hbounds := toDigits_bounds hpos
    have hdecimal := decimalOf_toDigits digits
    rw [hcs] at hdigits hbounds hdecimal hlength
    obtain ⟨mant, exp, hc, hm, hexp, hten, hread⟩ :=
      exists_digitsDouble hbounds.1 hbounds.2 (by simp at hlength ⊢; omega)
    have hwhole : ∀ d ∈ [c], d.isDigit := fun d hd => hdigits d (by simp_all)
    have hfraction : ∀ d ∈ c' :: cs, d.isDigit := fun d hd => hdigits d (List.mem_cons_of_mem c hd)
    have hvalue : (pointNumeral [c] (c' :: cs) hwhole hfraction (by simp)).value =
        .float (finite false mant exp) := by
      rw [← hread]
      unfold Numeral.value pointNumeral
      dsimp only
      rw [List.singleton_append, hdecimal]
      rfl
    refine ⟨pointNumeral [c] (c' :: cs) hwhole hfraction (by simp), rfl, fun negative => ?_⟩
    cases negative with
    | false => exact ⟨_, congrArg Except.ok hvalue, .inr ⟨mant, exp, hc, hm, hexp, hten, rfl⟩⟩
    | true =>
      refine ⟨_, congrArg (fun n => Except.ok (Number.neg n)) hvalue,
        .inr ⟨mant, exp, hc, hm, hexp, hten, ?_⟩⟩
      rw [Number.neg, neg_finite hc]
      rfl

/-! ## Sums of a mantissa and an exponent -/

section

variable {negative : Bool} {mant : Nat} {exp : Int} {r : ℚ} {a : Number} {k : Nat}

theorem magnitude_nonneg (mant : Nat) (exp : Int) : 0 ≤ magnitude mant exp :=
  mul_nonneg (Nat.cast_nonneg mant) (two_zpow_pos exp).le

theorem abs_exact (negative : Bool) (mant : Nat) (exp : Int) :
    |exact negative mant exp| = magnitude mant exp := by
  have hpos := magnitude_nonneg mant exp
  unfold exact
  cases negative with
  | false => exact abs_of_nonneg hpos
  | true => exact (abs_neg _).trans (abs_of_nonneg hpos)

/-- What a mantissa of a double and an exponent are calculated with. -/
theorem apply_whole {b : Number} {x y : Float} (hb : b.toFloat = .ok y) :
    Operation.add.apply (.float x) b = .ok (.float (x + y)) ∧
      Operation.sub.apply (.float x) b = .ok (.float (x - y)) := by
  change ((((Number.onFloats _ (.float x) b).mapError numberError).bind checkedNumber :
      Except Error Number) = _) ∧ (((Number.onFloats _ (.float x) b).mapError numberError).bind
      checkedNumber : Except Error Number) = _
  unfold Number.onFloats
  rw [hb]
  exact ⟨rfl, rfl⟩

theorem checkedNumber_int_ne (j : Int) (x : Float) :
    checkedNumber (.int j) ≠ .ok (.float x) := by
  unfold checkedNumber
  dsimp only
  split_ifs <;> nofun

theorem toFloat_of_ofInt {j : Int} {x : Float} (h : ofInt j = some x) :
    (Number.int j).toFloat = .ok x := by
  simp only [Number.toFloat, h]

/-- The sum of a mantissa and an exponent is far below a number with so large an exponent. -/
theorem apply_add_ne (ha : IsMantissa negative a) (hk : 10 ≤ k) (hk' : k ≤ 1000)
    (hc : Canonical mant exp) (hm : 0 < mant) (hr : Rounds mant exp r) (hlarge : 10 ^ 16 ≤ r) :
    Operation.add.apply a (.int k) ≠ .ok (.float (finite negative mant exp)) := by
  rcases ha with ⟨j, rfl⟩ | ⟨mant₁, exp₁, hc₁, hm₁, he₁, hten, rfl⟩
  · exact checkedNumber_int_ne (j + k) _
  · obtain ⟨mant₂, exp₂, hc₂, hm₂, he₂, hwhole, hint⟩ := exists_whole (by omega : 0 < k) (by omega)
    rw [(apply_whole (toFloat_of_ofInt hint)).1]
    intro heq
    have hmost : (k : ℚ) ≤ 1000 := by exact_mod_cast hk'
    have hsize : |exact negative mant₁ exp₁ + exact false mant₂ exp₂| ≤ 1010 := by
      have hadd := abs_add_le (exact negative mant₁ exp₁) (exact false mant₂ exp₂)
      rw [abs_exact, abs_exact, hwhole] at hadd
      linarith
    have hsized := add_sized hc₁ hc₂ hm₁ hm₂ he₁ he₂ negative false rfl
      (by norm_num : (10 : Int) ≤ 1000) (hsize.trans_lt (by norm_num))
    rw [Number.float.inj (Except.ok.inj heq)] at hsized
    obtain ⟨-, -, -, hle⟩ := hsized.near hc hm hr
    linarith

/-- The difference of a mantissa and an exponent is far above a number with so small an exponent,
    unless it has the other sign. -/
theorem apply_sub_ne (ha : IsMantissa negative a) (hk : 10 ≤ k) (hk' : k ≤ 1000)
    (hc : Canonical mant exp) (hm : 0 < mant) (hr : Rounds mant exp r) (hsmall : r ≤ 1) :
    Operation.sub.apply a (.int k) ≠ .ok (.float (finite negative mant exp)) := by
  rcases ha with ⟨j, rfl⟩ | ⟨mant₁, exp₁, hc₁, hm₁, he₁, hten, rfl⟩
  · exact checkedNumber_int_ne (j - k) _
  · obtain ⟨mant₂, exp₂, hc₂, hm₂, he₂, hwhole, hint⟩ := exists_whole (by omega : 0 < k) (by omega)
    rw [(apply_whole (toFloat_of_ofInt hint)).2]
    intro heq
    have hleast : (10 : ℚ) ≤ k := by exact_mod_cast hk
    have hmost : (k : ℚ) ≤ 1000 := by exact_mod_cast hk'
    have hexponent : exact false mant₂ exp₂ = k := hwhole
    have hsize : |exact negative mant₁ exp₁ - k| ≤ 1010 := by
      have hsub := abs_sub (exact negative mant₁ exp₁) (k : ℚ)
      rw [abs_exact, Nat.abs_cast] at hsub
      linarith
    have hsized := sub_sized hc₁ hc₂ hm₁ hm₂ he₁ he₂ negative false (by rw [hexponent])
      (by norm_num : (10 : Int) ≤ 1000) (hsize.trans_lt (by norm_num))
    rw [Number.float.inj (Except.ok.inj heq)] at hsized
    obtain ⟨hsign, hne, hlt, -⟩ := hsized.near hc hm hr
    cases negative with
    | false =>
      have hle : exact false mant₁ exp₁ ≤ 10 := hten
      refine of_decide_eq_false hsign.symm (lt_of_le_of_ne ?_ hne)
      linarith
    | true =>
      have hpos := magnitude_nonneg mant₁ exp₁
      have hvalue : exact true mant₁ exp₁ = -magnitude mant₁ exp₁ := rfl
      rw [hvalue, abs_of_neg (by linarith)] at hlt
      linarith

end

/-! ## Texts with an exponent -/

theorem lead_bounds {d : Decimal} (hdigits : 0 < d.digits) :
    (10 : ℚ) ^ lead d ≤ d.value ∧ d.value < 10 ^ (lead d + 1) := by
  obtain ⟨hlow, hhigh⟩ := toDigits_bounds hdigits
  have hlen := Nat.length_toDigits_pos (b := 10) (n := d.digits)
  have hten := ten_zpow_pos d.exp
  unfold lead Decimal.value
  obtain ⟨k, hk⟩ : ∃ k, (Nat.toDigits 10 d.digits).length = k + 1 :=
    ⟨_, (Nat.sub_add_cancel hlen).symm⟩
  rw [hk] at hlow hhigh ⊢
  rw [Nat.add_sub_cancel] at hlow
  have hlow' : (10 : ℚ) ^ k ≤ d.digits := by exact_mod_cast hlow
  have hhigh' : (d.digits : ℚ) < 10 ^ (k + 1) := by exact_mod_cast hhigh
  constructor
  · rw [show d.exp + (k + 1 : Nat) - 1 = k + d.exp by push_cast; ring, zpow_add₀ (by norm_num),
      zpow_natCast]
    gcongr
  · rw [show d.exp + (k + 1 : Nat) - 1 + 1 = (k + 1 : Nat) + d.exp by push_cast; ring,
      zpow_add₀ (by norm_num), zpow_natCast]
    gcongr

/-- The sign of an exponent and its digits. -/
def signedDigits (e : Int) : List Char :=
  (if e < 0 then '-' else '+') :: (twoDigits e.natAbs).toList

/-- The exponent without its letter. -/
theorem filter_exponentText (e : Int) :
    (exponentText e).toList.filter isArithmetic = signedDigits e := by
  have hdigits : ∀ c ∈ (twoDigits e.natAbs).toList, isArithmetic c := by
    intro c hc
    refine isArithmetic_of_isDigit ?_
    unfold twoDigits at hc
    split_ifs at hc
    · simp only [String.toList_append, List.mem_append, Nat.toString_eq_repr, Nat.toList_repr] at hc
      rcases hc with hc | hc
      · rw [List.mem_singleton.1 hc]
        rfl
      · exact toDigits_isDigit _ c hc
    · rw [Nat.toString_eq_repr, Nat.toList_repr] at hc
      exact toDigits_isDigit _ c hc
  unfold exponentText signedDigits
  rw [String.toList_append, List.filter_append, List.filter_eq_self.2 hdigits]
  split_ifs <;> rfl

/-- A whole number may not start with a zero. -/
theorem scan_leadingZero {c : Char} (hc : c ∈ ['5', '6', '7', '8', '9']) (fuel : Nat) (s : State)
    (out : List Token) : scan (fuel + 1) false s ['0', c] out = none := by
  simp only [List.mem_cons, List.not_mem_nil, or_false] at hc
  rcases hc with rfl | rfl | rfl | rfl | rfl <;> rfl

theorem ofText?_leadingZero {f : Formula Numeral} (hf : f.depth = 0) {c : Char}
    (hc : c ∈ ['5', '6', '7', '8', '9']) :
    Expr.ofText? Text.noNames (String.ofList (f.chars Numeral.chars ++ ['-', '0', c])) = none := by
  have hrest : ∀ d ∈ ['-', '0', c], isArithmetic d := by
    simp only [List.mem_cons, List.not_mem_nil, or_false] at hc ⊢
    rcases hc with rfl | rfl | rfl | rfl | rfl <;> rintro d (rfl | rfl | rfl) <;> decide
  obtain ⟨k, hk⟩ := f.exists_scan hrest
  have hleads : Leads ['0', c] := .cons (by decide) [c]
  have htokens : tokens? (f.chars Numeral.chars ++ ['-', '0', c]) = none := by
    rw [hk, f.scan_chars _ ⟨[], []⟩ [] (.cons (by decide)) (by simp [hf])]
    exact (scan_sign (k + 3) _ _ (by decide) hleads).trans (scan_leadingZero hc _ _ _)
  unfold Expr.ofText?
  rw [String.toList_ofList, htokens]
  rfl

section

variable {f : Formula Numeral} {t : String} {e : Int}

/-- With a small exponent below zero, what is left is no formula. -/
theorem calculate_leadingZero (hf : f.depth = 0)
    (ht : t.toList.filter isArithmetic = f.chars Numeral.chars ++ signedDigits e)
    (hlow : -10 < e) (hhigh : e < -4) :
    calculate t = .error (.malformedArithmetic (Text.trim (sanitize t))) := by
  obtain ⟨c, hc, hdigits⟩ : ∃ c ∈ ['5', '6', '7', '8', '9'], signedDigits e = ['-', '0', c] := by
    interval_cases e <;> exact ⟨_, by decide, rfl⟩
  have hhead : (f.chars Numeral.chars ++ ['-', '0', c]).head? ≠ some ' ' := by
    rw [List.head?_append_of_ne_nil _ f.chars_ne_nil]
    exact f.head?_chars
  have hlast : (f.chars Numeral.chars ++ ['-', '0', c]).getLast? ≠ some ' ' := by
    simp only [List.mem_cons, List.not_mem_nil, or_false] at hc
    rcases hc with rfl | rfl | rfl | rfl | rfl <;> simp
  have htext : t.toList.filter isArithmetic =
      blanks 0 ++ (f.chars Numeral.chars ++ ['-', '0', c] ++ blanks 0) := by
    rw [ht, hdigits]
    exact (List.append_nil _).symm
  rw [calculate_of_sanitize htext hhead hlast (by simp), ofText?_leadingZero hf hc]
  rfl

/-- With an exponent of two digits or more, what is left is an operation. -/
theorem calculate_signedDigits (hlevel : f.level = 6) (hf : f.Ordered) (hdepth : f.depth = 0)
    {a : Number} (hvalue : f.value Numeral.value = .ok a)
    (ht : t.toList.filter isArithmetic = f.chars Numeral.chars ++ signedDigits e)
    (hlow : 10 ≤ e.natAbs) (hhigh : e.natAbs < 1000) (op : Operation)
    (hop : op.sign = if e < 0 then '-' else '+') : calculate t = op.apply a (.int e.natAbs) := by
  have hsize : (Nat.toDigits 10 e.natAbs).length ≤ 3 :=
    (Nat.length_toDigits_le_iff (by norm_num) (by norm_num)).2 (by omega)
  let exponent : Numeral := wholeNumeral e.natAbs (hsize.trans (by decide))
  have hexponent : exponent.chars = (twoDigits e.natAbs).toList := by
    rw [wholeNumeral_chars, twoDigits, if_neg (Nat.not_lt.2 hlow)]
  let g : Formula Numeral := .binary op 0 0 f (.leaf exponent)
  have hbounds := op.level_bounds
  have hg : g.Ordered :=
    ⟨hf, trivial, by omega, Nat.lt_succ_of_le hbounds.2⟩
  have htext : t.toList.filter isArithmetic =
      blanks 0 ++ (g.chars Numeral.chars ++ blanks 0) := by
    rw [ht, signedDigits, ← hop, ← hexponent]
    exact (List.append_nil _).symm
  have hshallow : g.depth ≤ 200 := by
    change max f.depth 0 ≤ 200
    omega
  rw [Formula.calculate_chars hg htext, if_pos hshallow]
  change (f.value Numeral.value).bind _ = _
  rw [hvalue]
  change op.apply a exponent.value = _
  rw [wholeNumeral_value]

end

section

variable {negative : Bool} {mant : Nat} {exp : Int}

theorem lead_shortest (hc : Canonical mant exp) (hm : 0 < mant) :
    -360 ≤ lead (shortest mant exp) ∧ lead (shortest mant exp) < 342 ∧
      (Nat.toDigits 10 (shortest mant exp).digits).length ≤ 1000 := by
  obtain ⟨hr, hexp⟩ := shortest_rounds hc hm
  have hdigits := digits_pos_of_rounds hm hr
  have hlen := Nat.length_toDigits_pos (b := 10) (n := (shortest mant exp).digits)
  have hlt : (10 : ℚ) ^ lead (shortest mant exp) < 10 ^ (342 : Int) := by
    calc (10 : ℚ) ^ lead (shortest mant exp) ≤ (shortest mant exp).value := (lead_bounds hdigits).1
      _ < 2 ^ (exp + 53) := lt_zpow_of_rounds hc.rounded hr
      _ ≤ 2 ^ (3 * 342 : Int) := zpow_le_zpow_right₀ (by norm_num) (by linarith [hc.exp_le])
      _ = 8 ^ (342 : Int) := by rw [zpow_mul]; norm_num
      _ ≤ 10 ^ (342 : Int) := zpow_le_zpow_left₀ (by norm_num) (by norm_num) (by norm_num)
  have hlead := (zpow_lt_zpow_iff_right₀ (by norm_num : (1 : ℚ) < 10)).1 hlt
  unfold lead at *
  omega

/-- **A text with an exponent is not calculated to its number.** -/
theorem calculate_exponent (hc : Canonical mant exp) (hm : 0 < mant)
    (hfar : ¬(-4 ≤ lead (shortest mant exp) ∧ lead (shortest mant exp) < 16)) {t : String}
    (ht : t.toList = (if negative then ['-'] else []) ++
      ((shortest mant exp).text Data.floatLayout).toList) :
    calculate t ≠ .ok (.float (finite negative mant exp)) := by
  obtain ⟨hr, -⟩ := shortest_rounds hc hm
  have hdigits := digits_pos_of_rounds hm hr
  obtain ⟨hlow, hhigh⟩ := lead_bounds hdigits
  obtain ⟨hleast, hmost, hlength⟩ := lead_shortest hc hm
  obtain ⟨numeral, hchars, hmantissa⟩ := exists_mantissaNumeral hdigits hlength
  obtain ⟨a, hvalue, ha⟩ := hmantissa negative
  have hclean : t.toList.filter isArithmetic = (Operand.ofNumeral negative numeral).chars
      Numeral.chars ++ signedDigits (lead (shortest mant exp)) := by
    rw [ht, toList_exponential hfar, ← hchars, List.filter_append, List.filter_append,
      List.filter_eq_self.2 numeral.chars_arithmetic, filter_exponentText, ← List.append_assoc]
    cases negative <;> rfl
  generalize lead (shortest mant exp) = e at *
  have hread (hten : 10 ≤ e.natAbs) := calculate_signedDigits (Operand.level_ofNumeral _ _)
    (Operand.ordered_ofNumeral _ _) (Operand.depth_ofNumeral _ _) hvalue hclean hten (by omega)
  rcases lt_or_ge e (-4) with hsmall | hlarge
  · rcases lt_or_ge (-10) e with hmid | hten
    · rw [calculate_leadingZero (Operand.depth_ofNumeral _ _) hclean hmid hsmall]
      nofun
    · rw [hread (by omega) .sub (if_pos (by omega)).symm]
      refine apply_sub_ne ha (by omega) (by omega) hc hm hr (hhigh.le.trans ?_)
      exact zpow_le_one_of_nonpos₀ (by norm_num) (by omega)
  · rw [hread (by omega) .add (if_neg (by omega)).symm]
    refine apply_add_ne ha (by omega) (by omega) hc hm hr (le_trans ?_ hlow)
    exact zpow_le_zpow_right₀ (by norm_num) (by omega : (16 : Int) ≤ e)

end

/-! ## Texts of numbers -/

end Script

namespace Number

open Script

section

variable {n : Number} {negative : Bool} {numeral : Numeral} {t : String}

theorem WrittenAs.positional (h : n.WrittenAs negative numeral) : n.Positional := by
  obtain ⟨t, ht, hchars⟩ := h.text
  refine ⟨t, ht, ?_⟩
  rw [hchars]
  intro c hc
  rcases List.mem_append.1 hc with hc | hc
  · cases negative with
    | false => cases hc
    | true =>
      rw [List.mem_singleton.1 hc]
      decide
  · exact numeral.chars_arithmetic c hc

/-- The text of a number that is written as a numeral is calculated to it. -/
theorem WrittenAs.calculate (h : n.WrittenAs negative numeral) (ht : n.written = .ok t) :
    calculate t = .ok n := by
  obtain ⟨t', ht', hchars⟩ := h.text
  obtain rfl : t = t' := Except.ok.inj (ht.symm.trans ht')
  have hplain : ∀ c ∈ t.toList, isArithmetic c := by
    obtain ⟨t', ht', hplain⟩ := h.positional
    obtain rfl : t = t' := Except.ok.inj (ht.symm.trans ht')
    exact hplain
  have htext : t.toList.filter isArithmetic = blanks 0 ++
      ((Operand.ofNumeral negative numeral).chars Numeral.chars ++ blanks 0) := by
    rw [List.filter_eq_self.2 hplain, hchars]
    cases negative <;> exact (List.append_nil _).symm
  have hvalue : (Operand.ofNumeral negative numeral).value Numeral.value = .ok n := by
    rw [h.value]
    cases negative <;> rfl
  rw [Formula.calculate_chars (Operand.ordered_ofNumeral _ _) htext, Operand.depth_ofNumeral,
    if_pos (by decide), hvalue]

/-- A finite double has a positional text just if its leading digit is near the point. -/
theorem float_positional {x : Float} {mant : Nat} {exp : Int}
    (hx : parts x = .finite negative mant exp) : (float x).Positional ↔ NearPoint mant exp := by
  refine ⟨fun h => h.nearPoint hx, fun hnear => ?_⟩
  obtain ⟨numeral, h⟩ := float_writtenAs hx hnear
  exact h.positional

/-- **Which texts of numbers are calculated to their number:** the positional ones. -/
theorem calculate_written (ht : n.written = .ok t) : Script.calculate t = .ok n ↔ n.Positional := by
  refine ⟨fun hvalue => ?_, fun hpositional => ?_⟩
  · cases n with
    | int n => exact (int_writtenAs ht).positional
    | float x =>
      obtain rfl := Except.ok.inj ht
      cases hx : parts x with
      | nan =>
        unfold floatText at hvalue
        rw [hx] at hvalue
        cases hvalue
      | infinite negative =>
        unfold floatText at hvalue
        rw [hx] at hvalue
        cases negative <;> cases hvalue
      | finite negative mant exp =>
        by_cases hnear : NearPoint mant exp
        · exact (float_positional hx).2 hnear
        · obtain ⟨hm, hfar⟩ := Classical.not_imp.1 hnear
          obtain ⟨hc, rfl⟩ := eq_finite_of_parts hx
          have htext := toList_floatText hx
          rw [magnitudeText, if_neg hm.ne'] at htext
          exact absurd hvalue (calculate_exponent hc hm hfar htext)
  · obtain ⟨negative, numeral, h⟩ := hpositional.exists_numeral
    exact h.calculate ht

end

end Number

end Rulebook
