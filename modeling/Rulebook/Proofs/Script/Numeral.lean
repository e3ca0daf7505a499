/-
  Numerals: numbers that are written with digits and at most one point.

  * `number?_append`: a numeral is read as a whole, whatever may follow a number in a formula.
-/
import Rulebook.Number.Arithmetic
import Rulebook.Script.Literal

namespace Rulebook.Script

open Reading

/-! ## What follows -/

/-- Whether characters may follow an operand of a formula. -/
def Follows (cs : List Char) : Prop :=
  ∀ c ∈ cs.head?, c ∈ [' ', '+', '-', '*', '/', ')']

theorem Follows.nil : Follows [] := nofun

theorem Follows.cons {c : Char} {cs : List Char} (hc : c ∈ [' ', '+', '-', '*', '/', ')']) :
    Follows (c :: cs) := by
  rintro d hd
  obtain rfl := Option.some.inj hd
  exact hc

section

variable {c : Char} {cs : List Char}

theorem Follows.not_isDigit (h : Follows (c :: cs)) : c.isDigit = false := by
  have hc := h c rfl
  simp only [List.mem_cons, List.not_mem_nil, or_false] at hc
  rcases hc with rfl | rfl | rfl | rfl | rfl | rfl <;> rfl

theorem Follows.mayFollowNumber (h : Follows (c :: cs)) : mayFollowNumber (c :: cs) = true := by
  have hc := h c rfl
  simp only [List.mem_cons, List.not_mem_nil, or_false] at hc
  unfold Script.mayFollowNumber
  rcases hc with rfl | rfl | rfl | rfl | rfl | rfl <;> rfl

theorem Follows.ne (h : Follows (c :: cs)) {d : Char} (hd : d ∉ [' ', '+', '-', '*', '/', ')']) :
    c ≠ d := by
  rintro rfl
  exact hd (h c rfl)

end

/-! ## Numerals -/

/-- A number with its digits before the point, and those after it if there is a point. -/
structure Numeral where
  whole : List Char
  fraction : Option (List Char)
  whole_digits : ∀ c ∈ whole, c.isDigit
  fraction_digits : ∀ ds ∈ fraction, ∀ c ∈ ds, c.isDigit
  ne_nil : whole ++ fraction.getD [] ≠ []
  no_leading_zero : fraction = none → whole.head? = some '0' → ∀ c ∈ whole, c = '0'
  length_le : fraction = none → whole.length ≤ maxDigits

namespace Numeral

/-- The text of a numeral. -/
def chars (n : Numeral) : List Char :=
  n.whole ++ match n.fraction with
    | some ds => '.' :: ds
    | none => []

/-- The number that a numeral writes. -/
def value (n : Numeral) : Number :=
  match n.fraction with
  | some ds => .float (Binary64.ofDecimal false (decimalOf (n.whole ++ ds)) (-ds.length))
  | none => .int (decimalOf n.whole)

/-- The literal of a number. -/
def literal : Number → Constant
  | .int n => .int n
  | .float x => .float x

end Numeral

/-! ## Reading -/

/-- Digits are read up to what is no digit and no underscore. -/
theorem digitGroups?_append {ds rest : List Char} (hne : ds ≠ []) (hds : ∀ c ∈ ds, c.isDigit)
    (hrest : ∀ c ∈ rest.head?, c.isDigit = false ∧ c ≠ '_') :
    digitGroups? Char.isDigit (ds ++ rest) = some (ds, rest) := by
  have hstop : rest.takeWhile Char.isDigit = [] ∧ rest.dropWhile Char.isDigit = rest := by
    cases rest with
    | nil => exact ⟨rfl, rfl⟩
    | cons c cs =>
      have hc := (hrest c rfl).1
      exact ⟨List.takeWhile_cons_of_neg (by simp [hc]), List.dropWhile_cons_of_neg (by simp [hc])⟩
  have htake : (ds ++ rest).takeWhile Char.isDigit = ds := by
    rw [List.takeWhile_append_of_pos hds, hstop.1, List.append_nil]
  have hdrop : (ds ++ rest).dropWhile Char.isDigit = rest := by
    rw [List.dropWhile_append_of_pos hds, hstop.2]
  obtain ⟨d, ds', rfl⟩ := List.exists_cons_of_ne_nil hne
  have hd : d ≠ '_' := by
    rintro rfl
    exact absurd (hds '_' (by simp)) (by decide)
  have hgo : digitGroups?.go Char.isDigit (d :: ds' ++ rest).length (d :: ds' ++ rest) [] =
      some (d :: ds', rest) := by
    rw [List.cons_append, List.length_cons, ← List.cons_append]
    unfold digitGroups?.go
    rw [htake, hdrop]
    dsimp only
    rw [if_neg (by simp)]
    split
    · next c cs =>
      exact absurd rfl (hrest '_' rfl).2
    · rw [List.append_nil, List.reverse_reverse]
  unfold digitGroups?
  split
  · next cs hcs => exact absurd (List.cons.inj hcs).1 hd
  · exact hgo

/-- What follows a number is no exponent. -/
theorem exponent?_of_follows {rest : List Char} (h : Follows rest) :
    exponent? rest = some (none, rest) := by
  cases rest with
  | nil => rfl
  | cons c cs =>
    have he : ¬(c = 'e' ∨ c = 'E') := not_or.2 ⟨h.ne (by decide), h.ne (by decide)⟩
    exact if_neg he

/-- What is read of a number after the digits behind its point. -/
def ending (point : Bool) (whole fraction rest : List Char) : Option (Constant × List Char) :=
  (exponent? rest).bind fun (exponent, rest) =>
    match rest with
    | c :: more =>
      if c = 'j' ∨ c = 'J' then
        if mayFollowNumber more then some (.foreign, more) else none
      else if mayFollowNumber rest then
        decimalNumber?.finish point whole fraction exponent rest
      else none
    | [] => decimalNumber?.finish point whole fraction exponent rest

theorem ending_of_follows {rest : List Char} (h : Follows rest) (point : Bool)
    (whole fraction : List Char) :
    ending point whole fraction rest = decimalNumber?.finish point whole fraction none rest := by
  unfold ending
  rw [exponent?_of_follows h, Option.bind_some]
  cases rest with
  | nil => rfl
  | cons c cs =>
    have hj : ¬(c = 'j' ∨ c = 'J') := not_or.2 ⟨h.ne (by decide), h.ne (by decide)⟩
    dsimp only
    rw [if_neg hj, if_pos h.mayFollowNumber]

/-- What is read of a number after its first digits. -/
def afterWhole (whole rest : List Char) : Option (Constant × List Char) :=
  match rest with
  | '.' :: d :: more =>
    if d.isDigit then
      (digitGroups? Char.isDigit (d :: more)).bind fun (ds, rest) => ending true whole ds rest
    else ending true whole [] (d :: more)
  | ['.'] => ending true whole [] []
  | _ => ending false whole [] rest

theorem decimalNumber?_eq (cs : List Char) :
    decimalNumber? cs =
      (if cs.head? = some '.' then some ([], cs) else digitGroups? Char.isDigit cs).bind
        fun (whole, rest) => afterWhole whole rest := by
  unfold decimalNumber?
  by_cases h : cs.head? = some '.'
  · rw [if_pos h, if_pos h]
    rfl
  · rw [if_neg h, if_neg h]
    rfl

theorem markedBase?_eq_none {c : Char} (h : c.isDigit ∨ c = '.' ∨ Follows [c]) :
    markedBase? c = none := by
  unfold markedBase?
  split <;> first | rfl | skip
  all_goals
    rcases h with h | h | h
    · exact absurd h (by decide)
    · exact absurd h (by decide)
    · exact absurd (h _ rfl) (by decide)

namespace Numeral

variable (n : Numeral) {rest : List Char} (h : Follows rest)

theorem chars_plain : ∀ c ∈ n.chars, c.isDigit ∨ c = '.' := by
  intro c hc
  rcases List.mem_append.1 hc with hc | hc
  · exact .inl (n.whole_digits c hc)
  · split at hc
    · next ds hds =>
      rcases List.mem_cons.1 hc with hc | hc
      · exact .inr hc
      · exact .inl (n.fraction_digits ds hds c hc)
    · cases hc

theorem chars_ne_nil : n.chars ≠ [] := by
  have hne := n.ne_nil
  unfold chars
  intro hnil
  obtain ⟨hwhole, hfraction⟩ := List.append_eq_nil_iff.1 hnil
  split at hfraction
  · cases hfraction
  · next hnone => simp [hwhole, hnone] at hne

theorem number?_eq (h : Follows rest) :
    number? (n.chars ++ rest) = decimalNumber? (n.chars ++ rest) := by
  unfold number?
  split
  · next c cs hcs =>
    have hc : c.isDigit ∨ c = '.' ∨ Follows [c] := by
      obtain ⟨d, ds, hds⟩ := List.exists_cons_of_ne_nil n.chars_ne_nil
      rw [hds, List.cons_append] at hcs
      obtain ⟨-, hcs⟩ := List.cons.inj hcs
      cases ds with
      | nil =>
        obtain rfl : rest = c :: cs := hcs
        exact .inr (.inr (.cons (h c rfl)))
      | cons d' ds =>
        obtain ⟨rfl, -⟩ := List.cons.inj hcs
        rcases n.chars_plain d' (by simp [hds]) with hd | hd
        · exact .inl hd
        · exact .inr (.inl hd)
    rw [markedBase?_eq_none hc]
  · rfl

theorem finish_whole (hfraction : n.fraction = none) (rest : List Char) :
    decimalNumber?.finish false n.whole [] none rest = some (literal n.value, rest) := by
  have hzero : ¬(n.whole.head? = some '0' && n.whole.any (· != '0')) = true := by
    simp only [Bool.and_eq_true, decide_eq_true_eq, List.any_eq_true, bne_iff_ne, not_and]
    rintro hhead ⟨c, hc, hne⟩
    exact hne (n.no_leading_zero hfraction hhead c hc)
  have hlength : ¬maxDigits < n.whole.length := Nat.not_lt.2 (n.length_le hfraction)
  unfold decimalNumber?.finish value
  rw [hfraction, if_neg hzero, if_neg hlength]
  rfl

theorem finish_point {ds : List Char} (hfraction : n.fraction = some ds) (rest : List Char) :
    decimalNumber?.finish true n.whole ds none rest = some (literal n.value, rest) := by
  unfold decimalNumber?.finish value
  rw [hfraction]
  dsimp only
  rw [Option.getD_none, Int.zero_sub]
  rfl

/-- The digits before the point. -/
theorem whole_read {tail : List Char} (htail : ∀ c ∈ tail.head?, c.isDigit = false ∧ c ≠ '_')
    (hpoint : n.whole = [] → tail.head? = some '.') :
    (if (n.whole ++ tail).head? = some '.' then some ([], n.whole ++ tail)
      else digitGroups? Char.isDigit (n.whole ++ tail)) = some (n.whole, tail) := by
  by_cases hnil : n.whole = []
  · rw [hnil, List.nil_append, if_pos (hpoint hnil)]
  · have hhead : (n.whole ++ tail).head? ≠ some '.' := by
      obtain ⟨d, ds, hds⟩ := List.exists_cons_of_ne_nil hnil
      rw [hds]
      intro hd
      have hdigit := n.whole_digits '.' (by simp [hds, Option.some.inj hd])
      exact absurd hdigit (by decide)
    rw [if_neg hhead, digitGroups?_append hnil n.whole_digits htail]

/-- **A numeral is read as a whole.** -/
theorem number?_append (h : Follows rest) :
    number? (n.chars ++ rest) = some (literal n.value, rest) := by
  have hstop : ∀ c ∈ rest.head?, c.isDigit = false ∧ c ≠ '_' := by
    intro c hc
    obtain ⟨cs, rfl⟩ : ∃ cs, rest = c :: cs := by
      cases rest with
      | nil => cases hc
      | cons d ds => exact ⟨ds, by rw [Option.some.inj hc]⟩
    exact ⟨h.not_isDigit, h.ne (by decide)⟩
  rw [number?_eq n h, decimalNumber?_eq]
  rcases hfraction : n.fraction with - | ds
  · have hchars : n.chars = n.whole := by
      unfold chars
      rw [hfraction, List.append_nil]
    have hne : n.whole ≠ [] := hchars ▸ n.chars_ne_nil
    rw [hchars, n.whole_read hstop fun hnil => absurd hnil hne, Option.bind_some]
    unfold afterWhole
    dsimp only
    split
    · exact absurd (h '.' rfl) (by decide)
    · exact absurd (h '.' rfl) (by decide)
    · rw [ending_of_follows h, finish_whole n hfraction]
  · have hchars : n.chars = n.whole ++ '.' :: ds := by
      unfold chars
      rw [hfraction]
    have htail : ∀ c ∈ ('.' :: (ds ++ rest)).head?, c.isDigit = false ∧ c ≠ '_' := by
      rintro c hc
      obtain rfl := Option.some.inj hc
      decide
    have hend : ending true n.whole ds rest = some (literal n.value, rest) := by
      rw [ending_of_follows h, finish_point n hfraction]
    rw [hchars, List.append_assoc, List.cons_append, n.whole_read htail fun _ => rfl,
      Option.bind_some]
    cases ds with
    | nil =>
      cases rest with
      | nil => exact hend
      | cons c cs =>
        have hc : ¬c.isDigit = true := by simp [h.not_isDigit]
        exact (if_neg hc).trans hend
    | cons d ds =>
      have hd := n.fraction_digits _ hfraction d (by simp)
      have hread := digitGroups?_append (List.cons_ne_nil d ds)
        (n.fraction_digits _ hfraction) hstop
      refine (if_pos hd).trans ?_
      change (digitGroups? Char.isDigit (d :: ds ++ rest)).bind _ = _
      rw [hread]
      exact hend

end Numeral

end Rulebook.Script
