/-
  The bits of finite doubles.

  A finite double is the word of its sign, mantissa and power of two (`word`), and it is packed and
  unpacked without a change.

  * `pack_eq`: what is packed of a sign, a mantissa and a power of two;
  * `neg_finite`: with the other sign it is the opposite;
  * `eq_finite_of_parts`, `finite_injective`: the parts of a finite double make it up, and no others
    do.
-/
import Rulebook.Proofs.Number.Nearest

open Float.Model Float.Model.UnpackedFloat

namespace Rulebook.Binary64

/-! ## Fields of words -/

theorem unpackMantissa_toNat (b : BitVec 64) :
    (@unpackMantissa Format.binary64 b).toNat = b.toNat % 2 ^ 52 := by
  simp [unpackMantissa, BitVec.extractLsb_toNat]

theorem unpackExponent_toNat (b : BitVec 64) :
    (@unpackExponent Format.binary64 b).toNat = b.toNat / 2 ^ 52 % 2 ^ 11 := by
  simp [unpackExponent, BitVec.extractLsb_toNat, Nat.shiftRight_eq_div_pow]

theorem unpackSign_toNat (b : BitVec 64) :
    (@unpackSign Format.binary64 b).toNat = b.toNat / 2 ^ 63 := by
  have hb := b.isLt
  have hbit : (@unpackSign Format.binary64 b).toNat = (b.extractLsb 63 63).toNat := rfl
  rw [hbit, BitVec.extractLsb_toNat, Nat.shiftRight_eq_div_pow]
  norm_num
  omega

theorem packComponents_toNat (s : Sign) (e : BitVec 11) (m : BitVec 52) :
    (packComponents Format.binary64 s e m).toNat =
      s.toBitVec.toNat * 2 ^ 63 + e.toNat * 2 ^ 52 + m.toNat := by
  have he := e.isLt
  have hm := m.isLt
  unfold packComponents
  rw [BitVec.toNat_append, BitVec.toNat_append, ← Nat.shiftLeft_add_eq_or_of_lt hm,
    ← Nat.shiftLeft_add_eq_or_of_lt he, Nat.shiftLeft_eq, Nat.shiftLeft_eq]
  ring

/-! ## Finite doubles -/

/-- The sign bit in its place. -/
def signBit (negative : Bool) : Nat :=
  if negative then 2 ^ 63 else 0

/-- The word of a finite double. -/
def word (negative : Bool) (mant : Nat) (exp : Int) : Nat :=
  signBit negative +
    if mant < 2 ^ 52 then mant else (exp + 1075).toNat * 2 ^ 52 + (mant - 2 ^ 52)

/-- A sign. -/
def signOf (negative : Bool) : Sign :=
  if negative then .negative else .positive

/-- A finite double as it is computed with. -/
def unpacked (negative : Bool) (mant : Nat) (exp : Int) : UnpackedFloat :=
  if h : 0 < mant then .finite (signOf negative) mant exp h else .zero (signOf negative)

theorem signOf_toNat (negative : Bool) :
    (signOf negative).toBitVec.toNat * 2 ^ 63 = signBit negative := by
  cases negative <;> rfl

theorem unpacked_neg (negative : Bool) (mant : Nat) (exp : Int) :
    (unpacked negative mant exp).neg = unpacked (!negative) mant exp := by
  unfold unpacked
  by_cases h : 0 < mant
  · rw [dif_pos h, dif_pos h]
    cases negative <;> rfl
  · rw [dif_neg h, dif_neg h]
    cases negative <;> rfl

section

variable {mant : Nat} {exp : Int}

theorem log2_of_normal (hlow : 2 ^ 52 ≤ mant) (hhigh : mant < 2 ^ 53) : mant.log2 = 52 := by
  have hne : mant ≠ 0 := by omega
  have h1 := (Nat.log2_lt hne).2 hhigh
  have h2 := (Nat.le_log2 hne).2 hlow
  omega

theorem word_packed (hc : Canonical mant exp) (negative : Bool) :
    (UnpackedFloat.pack Format.binary64 (unpacked negative mant exp)).toNat =
      word negative mant exp := by
  obtain ⟨hlt, hle, hexp, hnormal⟩ := hc
  unfold unpacked word
  rcases Nat.eq_zero_or_pos mant with rfl | hpos
  · rw [dif_neg (lt_irrefl 0), if_pos (by norm_num)]
    cases negative <;> rfl
  · rw [dif_pos hpos]
    unfold UnpackedFloat.pack
    dsimp only
    by_cases hsub : mant < 2 ^ 52
    · obtain rfl : exp = -1074 := hnormal.resolve_left (by omega)
      have hlog : mant.log2 + 1 ≠ Format.binary64.mantissaBits := by
        have h := (Nat.log2_lt hpos.ne').2 hsub
        change mant.log2 + 1 ≠ 53
        omega
      rw [if_pos hsub, if_neg (by decide), if_neg hlog, packComponents_toNat, signOf_toNat,
        BitVec.toNat_ofNat, BitVec.toNat_ofNat, Nat.mod_eq_of_lt hsub]
      norm_num
    · have hlog : mant.log2 + 1 = Format.binary64.mantissaBits := by
        rw [log2_of_normal (Nat.not_lt.1 hsub) hlt]
        rfl
      have hfield : exp + (Format.binary64.exponentBias : Int) +
          (Format.binary64.mantissaBitsWithoutImplicit : Int) = exp + 1075 := by
        rw [add_assoc]
        rfl
      have hfits : ¬2 ^ Format.binary64.exponentBits ≤ (exp + 1075).toNat + 1 := by
        simp only
        omega
      rw [if_neg hsub, hfield, if_neg hfits, if_pos hlog, packComponents_toNat, signOf_toNat,
        BitVec.toNat_ofNat, BitVec.toNat_ofNat]
      norm_num
      omega

theorem signOf_ofBitVec {b : BitVec 1} {negative : Bool}
    (hb : b.toNat = if negative then 1 else 0) : Sign.ofBitVec b = signOf negative := by
  obtain rfl : b = if negative then 1#1 else 0#1 := by
    refine BitVec.eq_of_toNat_eq ?_
    cases negative <;> exact hb
  cases negative <;> rfl

theorem finite_congr {s : Sign} {m m' : Nat} {e e' : Int} {h : 0 < m} {h' : 0 < m'} (hm : m = m')
    (he : e = e') : UnpackedFloat.finite s m e h = .finite s m' e' h' := by
  subst hm he
  rfl

section

variable (hc : Canonical mant exp) {negative : Bool} {b : BitVec 64}
  (hb : b.toNat = word negative mant exp)

include hc hb

theorem unpackSign_of_word : Sign.ofBitVec (@unpackSign Format.binary64 b) = signOf negative := by
  obtain ⟨hlt, hle, hexp, hnormal⟩ := hc
  refine signOf_ofBitVec ?_
  rw [unpackSign_toNat, hb]
  unfold word signBit
  split_ifs <;> omega

/-- The bits of a finite double behind its sign. -/
theorem fields_of_word : b.toNat % 2 ^ 63 =
    if mant < 2 ^ 52 then mant else (exp + 1075).toNat * 2 ^ 52 + (mant - 2 ^ 52) := by
  obtain ⟨hlt, hle, hexp, hnormal⟩ := hc
  rw [hb]
  unfold word signBit
  split_ifs <;> omega

theorem unpackExponent_of_word : (@unpackExponent Format.binary64 b).toNat =
    if mant < 2 ^ 52 then 0 else (exp + 1075).toNat := by
  have hfields := fields_of_word hc hb
  obtain ⟨hlt, hle, hexp, hnormal⟩ := hc
  rw [unpackExponent_toNat]
  split_ifs at hfields ⊢ <;> omega

theorem unpackMantissa_of_word : (@unpackMantissa Format.binary64 b).toNat =
    if mant < 2 ^ 52 then mant else mant - 2 ^ 52 := by
  have hfields := fields_of_word hc hb
  obtain ⟨hlt, hle, hexp, hnormal⟩ := hc
  rw [unpackMantissa_toNat]
  split_ifs at hfields ⊢ <;> omega

theorem unpackExponent_ne : @unpackExponent Format.binary64 b ≠ -1#11 := by
  have hfield := unpackExponent_of_word hc hb
  obtain ⟨hlt, hle, hexp, hnormal⟩ := hc
  intro h
  rw [h] at hfield
  split_ifs at hfield
  · simp at hfield
  · simp at hfield
    omega

/-- A double below the normal ones. -/
theorem unpack_subnormal (hsub : mant < 2 ^ 52) :
    UnpackedFloat.unpack Format.binary64 b = unpacked negative mant exp := by
  obtain rfl : exp = -1074 := hc.normal.resolve_left (Nat.not_le.2 hsub)
  have hexponent := unpackExponent_of_word hc hb
  have hmant := unpackMantissa_of_word hc hb
  rw [if_pos hsub] at hexponent hmant
  have hzero : @unpackExponent Format.binary64 b = 0#11 := BitVec.eq_of_toNat_eq hexponent
  unfold UnpackedFloat.unpack unpacked
  dsimp only
  rw [if_neg (unpackExponent_ne hc hb), unpackSign_of_word hc hb, if_pos hzero]
  by_cases hpos : 0 < mant
  · have hne : @unpackMantissa Format.binary64 b ≠ 0#52 := by
      intro h
      rw [h] at hmant
      exact hpos.ne hmant
    rw [dif_neg hne, dif_pos hpos]
    exact finite_congr hmant (by rw [hzero]; rfl)
  · have heq : @unpackMantissa Format.binary64 b = 0#52 := by
      refine BitVec.eq_of_toNat_eq ?_
      rw [hmant]
      exact Nat.eq_zero_of_not_pos hpos
    rw [dif_pos heq, dif_neg hpos]

theorem unpack_normal (hnormal : 2 ^ 52 ≤ mant) :
    UnpackedFloat.unpack Format.binary64 b = unpacked negative mant exp := by
  have hexponent := unpackExponent_of_word hc hb
  have hfraction := unpackMantissa_of_word hc hb
  rw [if_neg (Nat.not_lt.2 hnormal)] at hexponent hfraction
  have hle := hc.le_exp
  have hmant : (1#1 ++ @unpackMantissa Format.binary64 b).toNat = mant := by
    have hlt := (@unpackMantissa Format.binary64 b).isLt
    rw [BitVec.toNat_append, ← Nat.shiftLeft_add_eq_or_of_lt hlt, hfraction, Nat.shiftLeft_eq]
    norm_num
    omega
  have hzero : @unpackExponent Format.binary64 b ≠ 0#11 := by
    intro h
    rw [h] at hexponent
    simp at hexponent
    omega
  have hpos : 0 < mant := by omega
  have hplace : ((exp + 1075).toNat : Int) - ((Format.binary64.exponentBias : Int) +
      (Format.binary64.mantissaBitsWithoutImplicit : Int)) = exp := by
    rw [show (Format.binary64.exponentBias : Int) +
      (Format.binary64.mantissaBitsWithoutImplicit : Int) = 1075 from rfl]
    omega
  unfold UnpackedFloat.unpack unpacked
  dsimp only
  rw [if_neg (unpackExponent_ne hc hb), unpackSign_of_word hc hb, if_neg hzero, dif_pos hpos]
  exact finite_congr hmant (by rw [hexponent, hplace])

/-- A word is unpacked to what it is the word of. -/
theorem unpack_of_word :
    UnpackedFloat.unpack Format.binary64 b = unpacked negative mant exp := by
  rcases Nat.lt_or_ge mant (2 ^ 52) with hsub | hnormal
  · exact unpack_subnormal hc hb hsub
  · exact unpack_normal hc hb hnormal

end

/-! ## Packing -/

/-- The finite double of a sign, a mantissa and a power of two. -/
def finite (negative : Bool) (mant : Nat) (exp : Int) : Float :=
  .ofModel (.pack (unpacked negative mant exp))

theorem ofBits_word (hc : Canonical mant exp) (negative : Bool) :
    Float.ofBits (UInt64.ofNat (word negative mant exp)) = finite negative mant exp := by
  have hlt : word negative mant exp < 2 ^ 64 := by
    rw [← word_packed hc]
    exact BitVec.isLt _
  have hb : (UInt64.ofNat (word negative mant exp)).toBitVec.toNat = word negative mant exp :=
    Nat.mod_eq_of_lt hlt
  unfold finite Float.ofBits Float.Model.ofBits
  rw [unpack_of_word hc hb]

theorem pack_eq (hc : Canonical mant exp) (negative : Bool) :
    pack negative mant exp = some (finite negative mant exp) := by
  have hexp : ¬971 < exp := Int.not_lt.2 hc.exp_le
  rw [← ofBits_word hc]
  unfold pack word
  dsimp only
  rw [if_neg hexp]
  by_cases hsub : mant < 2 ^ 52
  · rw [if_pos hsub]
    exact if_pos hsub
  · rw [if_neg hsub, ← Nat.add_assoc, ← Nat.shiftLeft_eq]
    exact if_neg hsub

theorem neg_finite (hc : Canonical mant exp) (negative : Bool) :
    -finite negative mant exp = finite (!negative) mant exp := by
  have hb := word_packed hc negative
  change Float.ofModel (.pack (UnpackedFloat.neg (UnpackedFloat.unpack Format.binary64
    (UnpackedFloat.pack Format.binary64 (unpacked negative mant exp))))) = _
  rw [unpack_of_word hc hb, unpacked_neg]
  rfl

theorem eq_finite_of_word {x : Float} (hc : Canonical mant exp) {negative : Bool}
    (hx : x.toBits.toNat = word negative mant exp) : x = finite negative mant exp := by
  obtain ⟨bits, hvalid⟩ := x
  unfold finite
  congr 1
  have hbits : bits = UInt64.ofBitVec (UnpackedFloat.pack Format.binary64
      (unpacked negative mant exp)) := by
    refine UInt64.toNat_inj.1 ?_
    exact hx.trans (word_packed hc negative).symm
  subst hbits
  rfl

theorem word_injective (hc : Canonical mant exp) {mant' : Nat} {exp' : Int}
    (hc' : Canonical mant' exp') {negative negative' : Bool}
    (h : word negative mant exp = word negative' mant' exp') :
    negative = negative' ∧ mant = mant' ∧ exp = exp' := by
  obtain ⟨hlt, hle, hexp, hnormal⟩ := hc
  obtain ⟨hlt', hle', hexp', hnormal'⟩ := hc'
  unfold word signBit at h
  cases negative <;> cases negative' <;> simp only [if_true, if_false, Bool.false_eq_true] at h <;>
    split_ifs at h <;> simp <;> omega

/-- A finite double has one sign, one mantissa and one power of two. -/
theorem finite_injective (hc : Canonical mant exp) {mant' : Nat} {exp' : Int}
    (hc' : Canonical mant' exp') {negative negative' : Bool}
    (h : finite negative mant exp = finite negative' mant' exp') :
    negative = negative' ∧ mant = mant' ∧ exp = exp' := by
  refine word_injective hc hc' ?_
  rw [← word_packed hc, ← word_packed hc']
  exact congrArg (fun x : Float => x.toBits.toNat) h

/-- A finite double in terms of its parts. -/
theorem eq_finite_of_parts {x : Float} {negative : Bool}
    (h : parts x = .finite negative mant exp) :
    Canonical mant exp ∧ x = finite negative mant exp := by
  have hlt : x.toBits.toNat < 2 ^ 64 := x.toBits.toNat_lt
  unfold parts at h
  simp only [Nat.shiftRight_eq_div_pow, Nat.pow_eq] at h
  split_ifs at h with hfield hfraction hzero
  · obtain ⟨rfl, rfl, rfl⟩ := Parts.finite.inj h
    have hc : Canonical (x.toBits.toNat % 2 ^ 52) (-1074) :=
      { mant_lt := by omega, le_exp := le_rfl, exp_le := by omega, normal := .inr rfl }
    refine ⟨hc, eq_finite_of_word hc ?_⟩
    unfold word signBit
    rw [if_pos (Nat.mod_lt _ (by norm_num))]
    simp only [decide_eq_true_eq]
    split_ifs <;> omega
  · obtain ⟨rfl, rfl, rfl⟩ := Parts.finite.inj h
    have hc : Canonical (x.toBits.toNat % 2 ^ 52 + 2 ^ 52)
        ((x.toBits.toNat / 2 ^ 52 % 2048 : Nat) - 1075) :=
      { mant_lt := by omega, le_exp := by omega, exp_le := by omega, normal := .inl (by omega) }
    refine ⟨hc, eq_finite_of_word hc ?_⟩
    unfold word signBit
    rw [if_neg (Nat.not_lt.2 (Nat.le_add_left (2 ^ 52) _))]
    simp only [decide_eq_true_eq]
    split_ifs <;> omega

end

end Rulebook.Binary64
