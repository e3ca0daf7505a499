/-
  Literals: the numbers that stand in a formula.

  A literal may be written in any way that numbers are written in.  Where it holds only characters
  of formulas, and underscores, it is a numeral once it is sanitized (`exists_numeral`).  The others
  have markers or exponents, which sanitizing tears apart.
-/
import Mathlib.Data.List.TakeWhile
import Mathlib.Tactic.SplitIfs
import Rulebook.Proofs.Script.Numeral
import Rulebook.Script.Arithmetic

namespace Rulebook.Script

open Reading

/-- A number as it is written. -/
structure Literal where
  chars : List Char
  value : Number
  starts : (∃ c cs, chars = c :: cs ∧ c.isDigit) ∨ ∃ c cs, chars = '.' :: c :: cs ∧ c.isDigit
  reads : number? chars = some (Numeral.literal value, [])

/-- Whether a character stays in a formula, or may be missed where it stood between digits. -/
def Spare (c : Char) : Prop :=
  isArithmetic c ∨ c = '_'

instance : DecidablePred Spare :=
  fun _ => inferInstanceAs (Decidable (_ ∨ _))

/-! ## What was read -/

theorem isArithmetic_of_isDigit {c : Char} (h : c.isDigit) : isArithmetic c := by
  simp [isArithmetic, h]

theorem filter_digits {ds : List Char} (h : ∀ c ∈ ds, c.isDigit) :
    ds.filter isArithmetic = ds :=
  List.filter_eq_self.2 fun c hc => isArithmetic_of_isDigit (h c hc)

theorem takeWhile_digits (cs : List Char) : ∀ c ∈ cs.takeWhile Char.isDigit, c.isDigit :=
  fun _ hc => List.mem_takeWhile_imp hc

theorem digitGroups?_go {fuel : Nat} {cs out ds rest : List Char}
    (hout : ∀ c ∈ out, c.isDigit) (h : digitGroups?.go Char.isDigit fuel cs out = some (ds, rest)) :
    ∃ pre, cs = pre ++ rest ∧ ds = out.reverse ++ pre.filter isArithmetic ∧ ds ≠ [] ∧
      ∀ c ∈ ds, c.isDigit := by
  induction fuel generalizing cs out with
  | zero =>
    unfold digitGroups?.go at h
    split at h
    · cases h
    · next hne =>
      obtain ⟨rfl, rfl⟩ := Prod.mk.inj (Option.some.inj h)
      refine ⟨[], rfl, by simp, by simpa using hne, fun c hc => hout c (by simpa using hc)⟩
  | succ fuel ih =>
    have hds := takeWhile_digits cs
    have hout' : ∀ c ∈ (cs.takeWhile Char.isDigit).reverse ++ out, c.isDigit := by
      intro c hc
      rcases List.mem_append.1 hc with hc | hc
      · exact hds c (List.mem_reverse.1 hc)
      · exact hout c hc
    have hcs := List.takeWhile_append_dropWhile (p := Char.isDigit) (l := cs)
    unfold digitGroups?.go at h
    dsimp only at h
    split at h
    · cases h
    · next hne =>
      split at h
      · next more hmore =>
        obtain ⟨pre, hpre, hread, hread'⟩ := ih hout' h
        refine ⟨cs.takeWhile Char.isDigit ++ '_' :: pre, ?_, ?_, hread'⟩
        · rw [List.append_assoc, List.cons_append, ← hpre, ← hmore, hcs]
        · have hscore : isArithmetic '_' = false := by decide
          rw [hread, List.filter_append, filter_digits hds,
            List.filter_cons_of_neg (by simp [hscore]), List.reverse_append, List.reverse_reverse, List.append_assoc]
      · obtain ⟨rfl, rfl⟩ := Prod.mk.inj (Option.some.inj h)
        refine ⟨cs.takeWhile Char.isDigit, hcs.symm, ?_, fun hnil => hne ?_,
          fun c hc => hout' c (List.mem_reverse.1 hc)⟩
        · rw [filter_digits hds, List.reverse_append, List.reverse_reverse]
        · have hnil' := List.append_eq_nil_iff.1 (List.reverse_eq_nil_iff.1 hnil)
          rw [List.reverse_eq_nil_iff.1 hnil'.1]
          rfl

theorem digitGroups?_eq_some {cs ds rest : List Char}
    (h : digitGroups? Char.isDigit cs = some (ds, rest)) :
    ∃ pre, cs = pre ++ rest ∧ ds = pre.filter isArithmetic ∧ ds ≠ [] ∧ ∀ c ∈ ds, c.isDigit := by
  unfold digitGroups? at h
  split at h
  · cases h
  · exact digitGroups?_go (by simp) h

/-- A number that goes up to the end has no mark behind its digits. -/
theorem ending_eq_some {point : Bool} {whole fraction rest : List Char} {n : Number}
    (hspare : ∀ c ∈ rest, Spare c)
    (h : ending point whole fraction rest = some (Numeral.literal n, [])) :
    rest = [] ∧
      decimalNumber?.finish point whole fraction none [] = some (Numeral.literal n, []) := by
  cases rest with
  | nil => exact ⟨rfl, h⟩
  | cons c cs =>
    have hne {d : Char} (hd : ¬Spare d) : c ≠ d := by
      rintro rfl
      exact hd (hspare c (by simp))
    have he : ¬(c = 'e' ∨ c = 'E') := not_or.2 ⟨hne (by decide), hne (by decide)⟩
    have hj : ¬(c = 'j' ∨ c = 'J') := not_or.2 ⟨hne (by decide), hne (by decide)⟩
    have hexponent : exponent? (c :: cs) = some (none, c :: cs) := if_neg he
    unfold ending at h
    rw [hexponent, Option.bind_some] at h
    dsimp only at h
    rw [if_neg hj] at h
    split at h
    · unfold decimalNumber?.finish at h
      split_ifs at h
      all_goals
        obtain ⟨-, hrest⟩ := Prod.mk.inj (Option.some.inj h)
        cases hrest
    · cases h

/-- What was read behind the first digits: nothing, or a point and the digits behind it. -/
theorem afterWhole_eq_some {whole rest : List Char} {n : Number} (hspare : ∀ c ∈ rest, Spare c)
    (h : afterWhole whole rest = some (Numeral.literal n, [])) :
    (rest = [] ∧
      decimalNumber?.finish false whole [] none [] = some (Numeral.literal n, [])) ∨
    ∃ pre ds, rest = '.' :: pre ∧ ds = pre.filter isArithmetic ∧ (∀ c ∈ ds, c.isDigit) ∧
      decimalNumber?.finish true whole ds none [] = some (Numeral.literal n, []) := by
  unfold afterWhole at h
  split at h
  · next d more =>
    have hmore : ∀ c ∈ d :: more, Spare c := fun c hc => hspare c (List.mem_cons_of_mem _ hc)
    split at h
    · obtain ⟨⟨ds, rest⟩, hread, hend⟩ := Option.bind_eq_some_iff.1 h
      obtain ⟨pre, hpre, rfl, -, hds⟩ := digitGroups?_eq_some hread
      have hrest : ∀ c ∈ rest, Spare c := fun c hc => hmore c (by simp [hpre, hc])
      obtain ⟨rfl, hfinish⟩ := ending_eq_some hrest hend
      exact .inr ⟨pre, _, by rw [hpre, List.append_nil], rfl, hds, hfinish⟩
    · cases (ending_eq_some hmore h).1
  · exact .inr ⟨[], [], rfl, rfl, by simp, (ending_eq_some (by simp) h).2⟩
  · exact .inl (ending_eq_some hspare h)

/-- The literal of a number is that of no other. -/
theorem Numeral.literal_injective : Function.Injective Numeral.literal := by
  intro a b h
  cases a <;> cases b <;> cases h <;> rfl

namespace Literal

variable (l : Literal) (h : ∀ c ∈ l.chars, Spare c)

include h

/-- No marker stands in the literal, so it is read as a decimal one. -/
theorem decimalNumber?_chars : decimalNumber? l.chars = some (Numeral.literal l.value, []) := by
  have hreads := l.reads
  unfold number? at hreads
  split at hreads
  · next c cs hcs =>
    split at hreads
    · next base hbase =>
      have hc : Spare c := h c (by simp [hcs])
      unfold markedBase? at hbase
      split at hbase
      all_goals first | exact absurd hc (by decide) | cases hbase
    · exact hreads
  · exact hreads

/-- The first digits of a literal. -/
theorem exists_whole : ∃ pre rest, l.chars = pre ++ rest ∧
    (∀ c ∈ pre.filter isArithmetic, c.isDigit) ∧ (pre.filter isArithmetic = [] → ∃ c cs,
      rest = '.' :: c :: cs ∧ c.isDigit) ∧
    afterWhole (pre.filter isArithmetic) rest = some (Numeral.literal l.value, []) := by
  have hreads := l.decimalNumber?_chars h
  rw [decimalNumber?_eq] at hreads
  obtain ⟨⟨whole, rest⟩, hwhole, hafter⟩ := Option.bind_eq_some_iff.1 hreads
  split at hwhole
  · next hhead =>
    obtain ⟨rfl, rfl⟩ := Prod.mk.inj (Option.some.inj hwhole)
    refine ⟨[], l.chars, rfl, by simp, fun _ => ?_, hafter⟩
    rcases l.starts with ⟨c, cs, hc, hdigit⟩ | ⟨c, cs, hc, hdigit⟩
    · obtain rfl : c = '.' := by simpa [hc] using hhead
      exact absurd hdigit (by decide)
    · exact ⟨c, cs, hc, hdigit⟩
  · obtain ⟨pre, hpre, rfl, hne, hdigits⟩ := digitGroups?_eq_some hwhole
    exact ⟨pre, rest, hpre, hdigits, fun hnil => absurd hnil hne, hafter⟩

/-- **A literal of characters of formulas is a numeral once it is sanitized.** -/
theorem exists_numeral :
    ∃ n : Numeral, n.chars = l.chars.filter isArithmetic ∧ n.value = l.value := by
  obtain ⟨pre, rest, hchars, hdigits, hpoint, hafter⟩ := l.exists_whole h
  have hspare : ∀ c ∈ rest, Spare c := fun c hc => h c (by simp [hchars, hc])
  rcases afterWhole_eq_some hspare hafter with ⟨rfl, hfinish⟩ | ⟨post, ds, rfl, hds, hds', hfinish⟩
  · have hguards := hfinish
    unfold decimalNumber?.finish at hguards
    rw [if_neg (by decide)] at hguards
    split_ifs at hguards with hzero hlength
    let n : Numeral :=
      { whole := pre.filter isArithmetic
        fraction := none
        whole_digits := hdigits
        fraction_digits := nofun
        ne_nil := by
          intro hnil
          obtain ⟨c, cs, hcs, -⟩ := hpoint (by simpa using hnil)
          cases hcs
        no_leading_zero := by
          intro _ hhead c hc
          by_contra hne
          refine hzero ?_
          rw [hhead, decide_eq_true rfl, Bool.true_and, List.any_eq_true]
          exact ⟨c, hc, by simpa using hne⟩
        length_le := fun _ => Nat.not_lt.1 hlength }
    have hread := (n.finish_whole rfl []).symm.trans hfinish
    refine ⟨n, ?_, Numeral.literal_injective (Prod.mk.inj (Option.some.inj hread)).1⟩
    simp [n, Numeral.chars, hchars]
  · let n : Numeral :=
      { whole := pre.filter isArithmetic
        fraction := some ds
        whole_digits := hdigits
        fraction_digits := by
          intro ds' hds''
          obtain rfl := Option.some.inj hds''
          exact hds'
        ne_nil := by
          intro hnil
          obtain ⟨hwhole, hfraction⟩ := List.append_eq_nil_iff.1 hnil
          obtain ⟨c, cs, hcs, hc⟩ := hpoint hwhole
          obtain rfl := (List.cons.inj hcs).2
          have hmem : c ∈ ds := by
            rw [hds]
            exact List.mem_filter.2 ⟨by simp, isArithmetic_of_isDigit hc⟩
          rw [show ds = [] from hfraction] at hmem
          cases hmem
        no_leading_zero := nofun
        length_le := nofun }
    have hread := (n.finish_point rfl []).symm.trans hfinish
    refine ⟨n, ?_, Numeral.literal_injective (Prod.mk.inj (Option.some.inj hread)).1⟩
    have hdot : isArithmetic '.' = true := by decide
    simp [n, Numeral.chars, hchars, hds, hdot]

end Literal

end Rulebook.Script
