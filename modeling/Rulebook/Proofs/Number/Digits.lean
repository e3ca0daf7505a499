/-
  Digits that are read as numbers.

  Some digits stand in no number: a superscript two is a digit and no decimal one.  A text of digits
  is read as a whole number exactly if all of them are decimal digits, of any script, and they are
  not too many.

  * `core_digits`, `digitRun_decimals`: what is read of such a text, and its run of digits;
  * `readInt_decimals`, `readInt_ne_ok`: its number, or that it has none.
-/
import Mathlib.Data.List.TakeWhile
import Mathlib.Tactic.IntervalCases
import Rulebook.Number.Reading

namespace Rulebook.Reading

open Text

/-! ## Characters -/

/-- The value of a decimal digit, of any script. -/
def valueOf (c : Char) : Nat :=
  (decimalValue? c).getD 0

/-- A decimal digit as the basic Latin one of its value. -/
def latin (c : Char) : Char :=
  match decimalValue? c with
  | some d => Char.ofNat ('0'.toNat + d)
  | none => c

theorem decimalValue?_of_isDecimal {c : Char} (hc : isDecimal c) :
    decimalValue? c = some (valueOf c) ∧ valueOf c < 10 := by
  unfold valueOf
  unfold isDecimal at hc
  unfold decimalValue?
  split_ifs at hc ⊢ with hlatin
  · obtain ⟨-, hhigh⟩ : 48 ≤ c.toNat ∧ c.toNat ≤ 57 := Char.isDigit_iff_toNat.1 hc
    refine ⟨rfl, ?_⟩
    change c.toNat - 48 < 10
    omega
  · have hodd : CodeSet.search decimals.changes c.toNat (decimals.changes.size.log2 + 2) 0
        decimals.changes.size % 2 = 1 := of_decide_eq_true hc
    dsimp only
    rw [if_pos hodd]
    exact ⟨rfl, Nat.mod_lt _ (by decide)⟩

theorem decimalValue?_eq_none {c : Char} (hc : ¬isDecimal c) : decimalValue? c = none := by
  unfold isDecimal at hc
  unfold decimalValue?
  split_ifs at hc ⊢ with hlatin
  · rfl
  · have heven : ¬CodeSet.search decimals.changes c.toNat (decimals.changes.size.log2 + 2) 0
        decimals.changes.size % 2 = 1 := fun h => hc (decide_eq_true h)
    dsimp only
    rw [if_neg heven]

/-- What the basic Latin digit of a decimal one is. -/
theorem latin_of_isDecimal {c : Char} (hc : isDecimal c) :
    digitValue? (latin c) = some (valueOf c) ∧ latin c ∉ ['_', '-', '+'] ∧
      markedBase? (latin c) = none := by
  obtain ⟨hvalue, hlt⟩ := decimalValue?_of_isDecimal hc
  unfold latin
  rw [hvalue]
  dsimp only
  generalize valueOf c = d at hlt ⊢
  interval_cases d <;> decide

/-- A digit that is no decimal one stays, and has no value. -/
theorem latin_of_not_isDecimal {c : Char} (hdigit : isDigit c) (hc : ¬isDecimal c) :
    latin c = c ∧ digitValue? c = none ∧ c ∉ ['_', '-', '+'] ∧ markedBase? c = none := by
  have hwide : ¬c.toNat < 128 := fun hlt => by
    unfold isDigit at hdigit
    unfold isDecimal at hc
    rw [if_pos hlt] at hdigit hc
    exact hc hdigit
  have hne (d : Char) (hd : d.toNat < 128) : c ≠ d := fun h => hwide (h ▸ hd)
  have hle (d : Char) (hd : d.toNat < 128) : ¬c ≤ d := fun h =>
    hwide (Nat.lt_of_le_of_lt (UInt32.le_iff_toNat_le.1 (Char.le_def.1 h)) hd)
  refine ⟨?_, ?_, ?_, ?_⟩
  · rw [latin, decimalValue?_eq_none hc]
  · have hlatin : c.isDigit = false := Bool.eq_false_iff.2 fun h => by
      have hhigh : c.toNat ≤ 57 := (Char.isDigit_iff_toNat.1 h).2
      omega
    rw [digitValue?, hlatin, if_neg (by decide), if_neg fun h => hle 'z' (by decide) h.2,
      if_neg fun h => hle 'Z' (by decide) h.2]
  · simp [hne]
  · unfold markedBase?
    split <;> first | rfl | exact absurd rfl (hne _ (by decide))

theorem not_isPadding {c : Char} (hc : isDigit c) : ¬isPadding c := fun hpadding => by
  have hblank : isBlank c := (Bool.and_eq_true _ _ ▸ hpadding).1
  have hdigits : ∀ n ∈ List.range' 9 5 ++ List.range' 28 5 ++ [0x85, 0xa0, 0x1680] ++
      List.range' 0x2000 11 ++ [0x2028, 0x2029, 0x202f, 0x205f, 0x3000],
      isDigit (Char.ofNat n) = false := by
    decide +kernel
  have hmem : c.toNat ∈ List.range' 9 5 ++ List.range' 28 5 ++ [0x85, 0xa0, 0x1680] ++
      List.range' 0x2000 11 ++ [0x2028, 0x2029, 0x202f, 0x205f, 0x3000] := by
    unfold isBlank at hblank
    simp only [Bool.or_eq_true, Bool.and_eq_true, decide_eq_true_eq, beq_iff_eq] at hblank
    simp only [List.mem_append, List.mem_range'_1, List.mem_cons, List.not_mem_nil, or_false]
    omega
  have hnot := hdigits _ hmem
  rw [Char.ofNat_toNat, hc] at hnot
  cases hnot

/-! ## Texts of digits -/

section

variable {cs : List Char}

theorem core_digits (hcs : ∀ c ∈ cs, isDigit c) : core (String.ofList cs) = cs.map latin := by
  have hdrop {cs : List Char} (hcs : ∀ c ∈ cs, isDigit c) : cs.dropWhile isPadding = cs := by
    cases cs with
    | nil => rfl
    | cons c cs => exact List.dropWhile_cons_of_neg (not_isPadding (hcs c (by simp)))
  have hreverse : ∀ c ∈ cs.reverse, isDigit c := fun c hc => hcs c (List.mem_reverse.1 hc)
  unfold core
  dsimp only
  rw [String.toList_ofList, hdrop hcs, hdrop hreverse, List.reverse_reverse]
  rfl

/-- Decimal digits go on with a run of digits. -/
theorem digitRun_decimals (hcs : ∀ c ∈ cs, isDecimal c) (rest : List Char) (ds : List Nat) :
    digitRun 10 (cs.map latin ++ rest) ds = digitRun 10 rest ((cs.map valueOf).reverse ++ ds) := by
  induction cs generalizing ds with
  | nil => rfl
  | cons c cs ih =>
    rw [List.forall_mem_cons] at hcs
    obtain ⟨hdigit, hplain, -⟩ := latin_of_isDecimal hcs.1
    have hgap : latin c ≠ '_' := fun h => hplain (by simp [h])
    rw [List.map_cons, List.cons_append, digitRun, hdigit]
    · dsimp only
      rw [if_pos (decimalValue?_of_isDecimal hcs.1).2, ih hcs.2]
      simp
    · exact fun _ _ h => absurd h hgap
    · exact fun h => absurd h hgap

/-- A digit that is no decimal one ends a run of digits. -/
theorem digitRun_of_not_isDecimal {c : Char} (hdigit : isDigit c) (hc : ¬isDecimal c)
    (rest : List Char) (ds : List Nat) : digitRun 10 (c :: rest) ds = some (ds.reverse, c :: rest) := by
  obtain ⟨-, hnone, hplain, -⟩ := latin_of_not_isDecimal hdigit hc
  have hgap : c ≠ '_' := fun h => hplain (by simp [h])
  rw [digitRun, hnone]
  · exact fun _ _ h => absurd h hgap
  · exact fun h => absurd h hgap

theorem sign_plain (hplain : ∀ c ∈ cs, c ∉ ['_', '-', '+'] ∧ markedBase? c = none) :
    sign cs = (false, cs) := by
  unfold sign
  split
  · exact absurd (by simp) (hplain '-' (by simp)).1
  · exact absurd (by simp) (hplain '+' (by simp)).1
  · rfl

theorem marked?_plain (base : Nat)
    (hplain : ∀ c ∈ cs, c ∉ ['_', '-', '+'] ∧ markedBase? c = none) : marked? base cs = none := by
  unfold marked?
  split
  · next c rest =>
    rw [(hplain c (by simp)).2]
  · rfl

/-- What is read of the characters of a number in base ten without sign and marker. -/
theorem readInt_eq {s : String} (hcore : core s = cs)
    (hplain : ∀ c ∈ cs, c ∉ ['_', '-', '+'] ∧ markedBase? c = none) :
    readInt s 10 =
      match digitRun 10 cs [] with
      | none => .error .malformed
      | some (ds, rest) =>
        if ds.isEmpty then .error .malformed
        else if maxDigits < ds.length then .error (.tooLong ds.length)
        else if !rest.isEmpty then .error .malformed
        else .ok ((ds.foldl (fun n d => 10 * n + d) 0 : Nat) : Int) := by
  unfold readInt
  rw [hcore, sign_plain hplain]
  dsimp only
  rw [marked?_plain 10 hplain]
  dsimp only [Option.getD]
  rw [ite_self]
  cases digitRun 10 cs [] with
  | none => rfl
  | some p =>
    obtain ⟨ds, rest⟩ := p
    have hten : isPowerOfTwo 10 = false := by decide
    simp only [hten, Bool.not_false, Bool.true_and, decide_eq_true_eq]
    by_cases hds : ds.isEmpty
    · rw [if_pos hds, if_pos hds]
      rfl
    rw [if_neg hds, if_neg hds]
    by_cases hlong : maxDigits < ds.length
    · rw [if_pos hlong, if_pos hlong]
      rfl
    rw [if_neg hlong, if_neg hlong]
    cases rest <;> rfl

/-- The characters of digits are neither signs nor markers. -/
theorem latin_plain (hcs : ∀ c ∈ cs, isDigit c) :
    ∀ c ∈ cs.map latin, c ∉ ['_', '-', '+'] ∧ markedBase? c = none := by
  intro c hc
  obtain ⟨d, hd, rfl⟩ := List.mem_map.1 hc
  by_cases hdecimal : isDecimal d
  · exact (latin_of_isDecimal hdecimal).2
  · obtain ⟨hsame, -, hplain⟩ := latin_of_not_isDecimal (hcs d hd) hdecimal
    rw [hsame]
    exact hplain

/-- The number that decimal digits write, of whatever scripts they are. -/
theorem readInt_decimals (hne : cs ≠ []) (hcs : ∀ c ∈ cs, isDigit c ∧ isDecimal c) :
    readInt (String.ofList cs) 10 =
      if maxDigits < cs.length then .error (.tooLong cs.length)
      else .ok (((cs.map valueOf).foldl (fun n d => 10 * n + d) 0 : Nat) : Int) := by
  have hrun : digitRun 10 (cs.map latin) [] = some (cs.map valueOf, []) := by
    have hrest := digitRun_decimals (fun c hc => (hcs c hc).2) [] []
    simpa [digitRun] using hrest
  have hdigit (c : Char) (hc : c ∈ cs) : isDigit c := (hcs c hc).1
  rw [readInt_eq (core_digits hdigit) (latin_plain hdigit), hrun]
  simp [hne]

/-- A digit that is no decimal one stands in no number. -/
theorem readInt_ne_ok (hdigit : ∀ c ∈ cs, isDigit c) (hodd : ¬∀ c ∈ cs, isDecimal c) (n : Int) :
    readInt (String.ofList cs) 10 ≠ .ok n := by
  have hsplit := List.takeWhile_append_dropWhile (p := isDecimal) (l := cs)
  have hbefore (c : Char) (hc : c ∈ cs.takeWhile isDecimal) : isDecimal c :=
    List.mem_takeWhile_imp hc
  cases hrest : cs.dropWhile isDecimal with
  | nil => exact absurd (List.dropWhile_eq_nil_iff.1 hrest) hodd
  | cons c rest =>
    have hc : ¬isDecimal c := by
      have hhead := List.head?_dropWhile_not isDecimal cs
      rw [hrest] at hhead
      simpa using hhead
    have hmem : c ∈ cs := by
      rw [← hsplit, hrest]
      simp
    obtain ⟨hsame, -⟩ := latin_of_not_isDecimal (hdigit c hmem) hc
    rw [readInt_eq (core_digits hdigit) (latin_plain hdigit), ← hsplit, hrest, List.map_append,
      digitRun_decimals hbefore, List.map_cons, hsame, digitRun_of_not_isDecimal (hdigit c hmem) hc]
    dsimp only
    split_ifs with _ _ hend
    · nofun
    · nofun
    · nofun
    · exact absurd rfl hend

end

end Rulebook.Reading
