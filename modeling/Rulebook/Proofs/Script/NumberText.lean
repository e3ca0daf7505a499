/-
  The texts of numbers.

  A number whose text holds only what formulas may hold is written as a numeral, with a minus before
  it if it is negative; the numeral reads back as its magnitude (`Positional.exists_numeral`).
  Doubles are written so where their text has no exponent, and whole numbers where they have no more
  digits than a text may have.
-/
import Rulebook.Proofs.Number.Bits
import Rulebook.Proofs.Number.Shortest
import Rulebook.Proofs.Script.Numeral
import Rulebook.Proofs.Texts
import Rulebook.Script.Arithmetic

namespace Rulebook

open Binary64 Decimal Reading

namespace Script

/-! ## Digits -/

theorem toDigits_isDigit (n : Nat) : ∀ c ∈ Nat.toDigits 10 n, c.isDigit :=
  fun _ hc => Nat.isDigit_of_mem_toDigits (by norm_num) (by norm_num) hc

theorem decimalOf_toDigits (n : Nat) : decimalOf (Nat.toDigits 10 n) = n :=
  Nat.ofDigitChars_ten_toDigits

theorem decimalOf_append_zeros (cs : List Char) (k : Nat) :
    decimalOf (cs ++ List.replicate k '0') = decimalOf cs * 10 ^ k := by
  change Nat.ofDigitChars 10 (cs ++ List.replicate k '0') 0 = _
  rw [Nat.ofDigitChars_append, Nat.ofDigitChars_replicate_zero, Nat.mul_comm]
  rfl

theorem decimalOf_zeros_append (k : Nat) (cs : List Char) :
    decimalOf (List.replicate k '0' ++ cs) = decimalOf cs := by
  change Nat.ofDigitChars 10 (List.replicate k '0' ++ cs) 0 = _
  rw [Nat.ofDigitChars_append, Nat.ofDigitChars_replicate_zero, Nat.mul_zero]
  rfl

/-- Only zero is written with a zero in front. -/
theorem toDigits_head {n : Nat} (h : (Nat.toDigits 10 n).head? = some '0') : n = 0 := by
  induction n using Nat.strongRecOn with
  | _ n ih =>
    rw [Nat.toDigits_eq_if (by norm_num)] at h
    by_cases hn : n < 10
    · rw [if_pos hn] at h
      have hchar : n.digitChar = '0' := Option.some.inj h
      rw [← decimalOf_toDigits n, Nat.toDigits_of_lt_base hn, hchar]
      rfl
    · rw [if_neg hn, List.head?_append_of_ne_nil _ Nat.toDigits_ne_nil] at h
      have hzero := ih (n / 10) (by omega) h
      omega

theorem toDigits_bounds {n : Nat} (hn : 0 < n) :
    10 ^ ((Nat.toDigits 10 n).length - 1) ≤ n ∧ n < 10 ^ (Nat.toDigits 10 n).length := by
  have hpos := Nat.length_toDigits_pos (b := 10) (n := n)
  refine ⟨?_, (Nat.length_toDigits_le_iff (by norm_num) hpos).1 le_rfl⟩
  rcases Nat.eq_or_lt_of_le hpos with hone | hmore
  · rw [← hone]
    exact hn
  · by_contra hlt
    have h := (Nat.length_toDigits_le_iff (by norm_num) (by omega)).2 (Nat.not_le.1 hlt)
    omega

/-! ## Whole numbers -/

/-- The numeral of a whole number. -/
def wholeNumeral (n : Nat) (h : (Nat.toDigits 10 n).length ≤ maxDigits) : Numeral where
  whole := Nat.toDigits 10 n
  fraction := none
  whole_digits := toDigits_isDigit n
  fraction_digits := nofun
  ne_nil := by simp
  no_leading_zero _ hhead := by
    rw [toDigits_head hhead]
    simp
  length_le _ := h

theorem wholeNumeral_chars (n : Nat) (h : (Nat.toDigits 10 n).length ≤ maxDigits) :
    (wholeNumeral n h).chars = (toString n).toList := by
  simp [Numeral.chars, wholeNumeral]

theorem wholeNumeral_value (n : Nat) (h : (Nat.toDigits 10 n).length ≤ maxDigits) :
    (wholeNumeral n h).value = .int n := by
  simp [Numeral.value, wholeNumeral, decimalOf_toDigits]

/-! ## Doubles -/

/-- A number whose leading digit is near the point is in the range of doubles. -/
theorem roughSize_bounds {digits k : Nat} {e : Int} (hlow : 10 ^ k ≤ digits)
    (hhigh : digits < 10 ^ (k + 1)) (he : -1000 ≤ e) (hlead : -4 ≤ e + k) (hlead' : e + k < 16) :
    -360 ≤ roughSize digits e ∧ roughSize digits e ≤ 330 := by
  have hpos : digits ≠ 0 := (lt_of_lt_of_le (Nat.pow_pos (by norm_num)) hlow).ne'
  have hlog : 3 * k ≤ digits.log2 := by
    rw [Nat.le_log2 hpos, Nat.pow_mul]
    exact le_trans (Nat.pow_le_pow_left (by norm_num) k) hlow
  have hlog' : digits.log2 < 4 * (k + 1) := by
    rw [Nat.log2_lt hpos, Nat.pow_mul]
    exact lt_of_lt_of_le hhigh (Nat.pow_le_pow_left (by norm_num) (k + 1))
  unfold roughSize
  omega

/-- The numeral of digits around a point. -/
def pointNumeral (whole fraction : List Char) (hwhole : ∀ c ∈ whole, c.isDigit)
    (hfraction : ∀ c ∈ fraction, c.isDigit) (hne : whole ≠ []) : Numeral where
  whole
  fraction := some fraction
  whole_digits := hwhole
  fraction_digits ds hds := by
    obtain rfl := Option.some.inj hds
    exact hfraction
  ne_nil := by simp [hne]
  no_leading_zero := nofun
  length_le := nofun

/-- The power of ten of the leading digit of a decimal. -/
def lead (d : Decimal) : Int :=
  d.exp + (Nat.toDigits 10 d.digits).length - 1

theorem text_eq (d : Decimal) :
    d.text Data.floatLayout =
      if -4 ≤ lead d ∧ lead d < 16 then
        if 0 ≤ d.exp then d.digits.repr ++ zeros d.exp.toNat ++ ".0"
        else withPoint d.digits (-d.exp).toNat
      else
        match Nat.toDigits 10 d.digits with
        | [c] => c.toString ++ exponentText (lead d)
        | c :: rest => String.ofList (c :: '.' :: rest) ++ exponentText (lead d)
        | [] => "" := by
  unfold Decimal.text
  simp only [Nat.toString_eq_repr, Nat.toList_repr]
  rfl

theorem mem_exponentText (e : Int) : 'e' ∈ (exponentText e).toList := by
  unfold exponentText
  split_ifs <;> simp

/-- A text that is not positional has an exponent. -/
theorem mem_text_of_exponent {d : Decimal} (h : ¬(-4 ≤ lead d ∧ lead d < 16)) :
    'e' ∈ (d.text Data.floatLayout).toList := by
  have hmem := mem_exponentText (lead d)
  rw [text_eq, if_neg h]
  split
  · simp [hmem]
  · simp [hmem]
  · next hnil => exact absurd hnil Nat.toDigits_ne_nil

theorem repr_withPoint (digits : Nat) {places : Nat} (hplaces : 0 < places) :
    ∃ whole fraction : List Char, (withPoint digits places).toList = whole ++ '.' :: fraction ∧
      whole ≠ [] ∧ fraction.length = places ∧ decimalOf (whole ++ fraction) = digits ∧
      ∀ c ∈ whole ++ fraction, c.isDigit := by
  have hlen := Nat.length_toDigits_pos (b := 10) (n := digits)
  unfold withPoint
  simp only [Nat.toString_eq_repr, Nat.toList_repr]
  rw [if_neg hplaces.ne']
  generalize hcs : List.replicate (places + 1 - (Nat.toDigits 10 digits).length) '0' ++
    Nat.toDigits 10 digits = cs
  have hlength : places < cs.length := by
    rw [← hcs, List.length_append, List.length_replicate]
    omega
  refine ⟨cs.take (cs.length - places), cs.drop (cs.length - places), String.toList_ofList, ?_, ?_,
    ?_, ?_⟩
  · intro hnil
    have h := congrArg List.length hnil
    rw [List.length_take, List.length_nil] at h
    omega
  · rw [List.length_drop]
    omega
  · rw [List.take_append_drop, ← hcs, decimalOf_zeros_append, decimalOf_toDigits]
  · rw [List.take_append_drop, ← hcs]
    intro c hc
    rcases List.mem_append.1 hc with hc | hc
    · rw [List.eq_of_mem_replicate hc]
      rfl
    · exact toDigits_isDigit digits c hc

/-- A decimal whose leading digit is near the point is written as a numeral of its value. -/
theorem exists_numeral {d : Decimal} (hdigits : 0 < d.digits) (hexp : -360 ≤ d.exp)
    (hlead : -4 ≤ lead d ∧ lead d < 16) :
    ∃ (n : Numeral) (digits : Nat) (e : Int), n.chars = (d.text Data.floatLayout).toList ∧
      n.value = .float (ofDecimal false digits e) ∧ (digits : ℚ) * 10 ^ e = d.value ∧
      -360 ≤ roughSize digits e ∧ roughSize digits e ≤ 330 := by
  obtain ⟨hlow, hhigh⟩ := toDigits_bounds hdigits
  have hlen := Nat.length_toDigits_pos (b := 10) (n := d.digits)
  obtain ⟨k, hk⟩ : ∃ k, (Nat.toDigits 10 d.digits).length = k + 1 :=
    ⟨_, (Nat.sub_add_cancel hlen).symm⟩
  rw [text_eq, if_pos hlead]
  unfold lead at hlead
  rw [hk] at hlow hhigh hlead
  rw [Nat.add_sub_cancel] at hlow
  by_cases he : 0 ≤ d.exp
  · obtain ⟨j, hj⟩ := Int.eq_ofNat_of_zero_le he
    have hwhole : ∀ c ∈ Nat.toDigits 10 d.digits ++ List.replicate j '0', c.isDigit := by
      intro c hc
      rcases List.mem_append.1 hc with hc | hc
      · exact toDigits_isDigit _ c hc
      · rw [List.eq_of_mem_replicate hc]
        rfl
    refine ⟨pointNumeral (Nat.toDigits 10 d.digits ++ List.replicate j '0') ['0'] hwhole (by simp)
      (by simp), d.digits * 10 ^ (j + 1), -1, ?_, ?_, ?_, ?_⟩
    · rw [if_pos he, hj, Int.toNat_natCast]
      simp [Numeral.chars, pointNumeral, zeros]
    · unfold Numeral.value pointNumeral
      dsimp only
      rw [List.append_assoc, ← List.replicate_succ', decimalOf_append_zeros, decimalOf_toDigits]
      rfl
    · rw [value, hj]
      push_cast
      rw [zpow_natCast, zpow_neg_one, pow_succ]
      ring
    · have hlow' : 10 ^ (k + (j + 1)) ≤ d.digits * 10 ^ (j + 1) := by
        rw [pow_add]
        exact Nat.mul_le_mul_right _ hlow
      have hhigh' : d.digits * 10 ^ (j + 1) < 10 ^ (k + (j + 1) + 1) := by
        rw [Nat.add_right_comm, pow_add 10 (k + 1)]
        exact Nat.mul_lt_mul_of_pos_right hhigh (by positivity)
      exact roughSize_bounds hlow' hhigh' (by norm_num) (by push_cast; omega) (by push_cast; omega)
  · obtain ⟨j, hj⟩ := Int.eq_ofNat_of_zero_le (by omega : 0 ≤ -d.exp)
    obtain ⟨whole, fraction, htext, hne, hlength, hvalue, hds⟩ :=
      repr_withPoint d.digits (by omega : 0 < j)
    refine ⟨pointNumeral whole fraction (fun c hc => hds c (by simp [hc]))
      (fun c hc => hds c (by simp [hc])) hne, d.digits, d.exp, ?_, ?_, rfl, ?_⟩
    · rw [if_neg he, hj, Int.toNat_natCast, htext]
      rfl
    · unfold Numeral.value pointNumeral
      dsimp only
      rw [hvalue, hlength, show (-j : Int) = d.exp by omega]
    · exact roughSize_bounds hlow hhigh (by omega) (by omega) (by omega)

/-! ## Numbers -/

end Script

namespace Number

open Script

/-- The text of a number. -/
def written : Number → Except Fault String
  | int n => Data.intText n
  | float x => .ok (floatText Data.floatLayout x)

/-- Whether a number is written with the characters of formulas only. -/
def Positional (n : Number) : Prop :=
  ∃ t, n.written = .ok t ∧ ∀ c ∈ t.toList, isArithmetic c

/-- A numeral and whether a minus stands before it. -/
structure WrittenAs (n : Number) (negative : Bool) (numeral : Numeral) : Prop where
  text : ∃ t, n.written = .ok t ∧ t.toList = (if negative then ['-'] else []) ++ numeral.chars
  value : n = if negative then numeral.value.neg else numeral.value

/-- A whole number that has a text has no more digits than that may have. -/
theorem int_written {n : Int} {t : String} (h : (int n).written = .ok t) :
    (Nat.toDigits 10 n.natAbs).length ≤ maxDigits ∧ t = toString n := by
  change Data.intText n = .ok t at h
  have hshort : Data.Short n := Data.intText_iff.1 ⟨t, h⟩
  have hlength {k : Nat} (hk : 0 < k) (hn : n.natAbs < Nat.pow 10 k) :
      (Nat.toDigits 10 n.natAbs).length ≤ k :=
    (Nat.length_toDigits_le_iff (by norm_num) hk).2 hn
  unfold Data.intText at h
  split_ifs at h
  refine ⟨?_, (Except.ok.inj h).symm⟩
  exact hlength (by decide) hshort

theorem int_writtenAs {n : Int} {t : String} (h : (int n).written = .ok t) :
    (int n).WrittenAs (decide (n < 0)) (wholeNumeral n.natAbs (int_written h).1) where
  text := by
    have ht := (int_written h).2
    refine ⟨t, h, ?_⟩
    rw [wholeNumeral_chars, ht, Int.toString_eq_repr, Int.repr_eq_if]
    by_cases hn : n < 0
    · have habs : (-n).toNat = n.natAbs := by omega
      simp [hn, Int.not_le.2 hn, habs]
    · have habs : n.toNat = n.natAbs := by omega
      simp [hn, Int.not_lt.1 hn, habs]
  value := by
    rw [wholeNumeral_value]
    by_cases hn : n < 0
    · rw [if_pos (by simpa using hn), neg]
      congr 1
      omega
    · rw [if_neg (by simpa using hn)]
      congr 1
      omega

/-- The numeral of the double zero. -/
def zeroNumeral : Numeral :=
  pointNumeral ['0'] ['0'] (by simp) (by simp) (by simp)

/-- The text of the magnitude of a finite double. -/
def magnitudeText (mant : Nat) (exp : Int) : String :=
  if mant = 0 then "0.0" else (shortest mant exp).text Data.floatLayout

/-- Whether a finite double is written without an exponent: it is zero, or its leading digit is near
    the point. -/
def NearPoint (mant : Nat) (exp : Int) : Prop :=
  0 < mant → -4 ≤ lead (shortest mant exp) ∧ lead (shortest mant exp) < 16

theorem mem_magnitudeText {mant : Nat} {exp : Int} (h : ¬NearPoint mant exp) :
    'e' ∈ (magnitudeText mant exp).toList := by
  obtain ⟨hm, hfar⟩ := Classical.not_imp.1 h
  unfold magnitudeText
  rw [if_neg hm.ne']
  exact mem_text_of_exponent hfar

theorem magnitude_numeral {mant : Nat} {exp : Int} (hc : Canonical mant exp)
    (hnear : NearPoint mant exp) :
    ∃ numeral : Numeral, numeral.chars = (magnitudeText mant exp).toList ∧
      numeral.value = .float (finite false mant exp) := by
  unfold magnitudeText
  rcases Nat.eq_zero_or_pos mant with rfl | hm
  · obtain rfl : exp = -1074 := hc.normal.resolve_left (by norm_num)
    refine ⟨zeroNumeral, rfl, ?_⟩
    rw [← ofBits_word hc]
    rfl
  · rw [if_neg hm.ne']
    obtain ⟨hr, hexp⟩ := shortest_rounds hc hm
    obtain ⟨numeral, digits, e, hchars, hvalue, hdecimal, hsize, hsize'⟩ :=
      Script.exists_numeral (digits_pos_of_rounds hm hr) hexp (hnear hm)
    refine ⟨numeral, hchars, ?_⟩
    rw [← hdecimal] at hr
    rw [hvalue, ofDecimal_of_rounds hc hm hr hsize hsize']

section

variable {x : Float} {negative : Bool} {mant : Nat} {exp : Int}

theorem toList_floatText (h : parts x = .finite negative mant exp) :
    (floatText Data.floatLayout x).toList =
      (if negative then ['-'] else []) ++ (magnitudeText mant exp).toList := by
  unfold floatText
  rw [h]
  cases negative <;> simp [magnitudeText]

theorem float_writtenAs (h : parts x = .finite negative mant exp) (hnear : NearPoint mant exp) :
    ∃ numeral, (float x).WrittenAs negative numeral := by
  obtain ⟨hc, hx⟩ := eq_finite_of_parts h
  obtain ⟨numeral, hchars, hvalue⟩ := magnitude_numeral hc hnear
  refine ⟨numeral, ⟨_, rfl, by rw [toList_floatText h, hchars]⟩, ?_⟩
  rw [hvalue, hx]
  cases negative with
  | false => rfl
  | true =>
    rw [if_pos rfl, neg, neg_finite hc]
    rfl

end

/-- What no formula may hold does not stand in a positional text. -/
theorem Positional.not_mem {n : Number} (h : n.Positional) {t : String} (ht : n.written = .ok t)
    {c : Char} (hc : isArithmetic c = false) : c ∉ t.toList := by
  obtain ⟨t', ht', hplain⟩ := h
  obtain rfl : t = t' := Except.ok.inj (ht.symm.trans ht')
  intro hmem
  rw [hplain c hmem] at hc
  cases hc

theorem Positional.nearPoint {x : Float} {negative : Bool} {mant : Nat} {exp : Int}
    (h : (float x).Positional) (hx : parts x = .finite negative mant exp) : NearPoint mant exp := by
  by_contra hfar
  refine h.not_mem rfl (by decide : isArithmetic 'e' = false) ?_
  rw [toList_floatText hx]
  exact List.mem_append_right _ (mem_magnitudeText hfar)

/-- **A number with a positional text is written as a numeral that reads back as it.** -/
theorem Positional.exists_numeral {n : Number} (h : n.Positional) :
    ∃ negative numeral, n.WrittenAs negative numeral := by
  cases n with
  | int n =>
    obtain ⟨t, ht, -⟩ := h
    exact ⟨_, _, int_writtenAs ht⟩
  | float x =>
    have hletter := h.not_mem rfl (by decide : isArithmetic 'n' = false)
    cases hx : parts x with
    | nan =>
      refine absurd ?_ hletter
      unfold floatText
      rw [hx]
      decide
    | infinite negative =>
      refine absurd ?_ hletter
      unfold floatText
      rw [hx]
      cases negative <;> decide
    | finite negative mant exp => exact ⟨negative, float_writtenAs hx (h.nearPoint hx)⟩

end Number

end Rulebook
