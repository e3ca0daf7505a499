/-
  Sets of characters that have none in common.

  A set is stored as the ascending points at which membership changes.  A character is in it iff an
  odd number of these are at most its own code (`mem_iff`).  Two sets are disjoint if the ranges
  between their points can be laid side by side (`apart`), which is found out by merging the points.

  * `search_eq`: the search counts the points up to a character;
  * `disjoint_of_apart`: the ranges of two sets, side by side;
  * `Text.isDigit_of_isLetter`: no letter is a digit.
-/
import Mathlib.Algebra.Order.Ring.Nat
import Mathlib.Data.List.Chain
import Rulebook.Text.Digit
import Rulebook.Text.Letter

namespace Rulebook.CodeSet

/-! ## Ranks -/

/-- How many of some points are at most `c`. -/
def rank (points : List Nat) (c : Nat) : Nat :=
  points.countP (· ≤ c)

variable {points : List Nat} {a c i : Nat}

theorem rank_cons_of_le (h : a ≤ c) : rank (a :: points) c = rank points c + 1 :=
  List.countP_cons_of_pos (by simpa using h)

/-- No point is counted below the first one. -/
theorem rank_of_lt (hsorted : (a :: points).Pairwise (· < ·)) (h : c < a) :
    rank (a :: points) c = 0 := by
  refine List.countP_eq_zero.2 fun b hb => ?_
  rcases List.mem_cons.1 hb with rfl | hb
  · simpa using h
  · have := (List.pairwise_cons.1 hsorted).1 b hb
    simp
    omega

theorem rank_le_length : rank points c ≤ points.length :=
  List.countP_le_length

/-- The points up to `c` are those at the first `rank` places. -/
theorem getElem_le_iff (hsorted : points.Pairwise (· < ·)) (hi : i < points.length) :
    points[i] ≤ c ↔ i < rank points c := by
  induction points generalizing i with
  | nil => exact absurd hi (Nat.not_lt_zero i)
  | cons a points ih =>
    by_cases ha : a ≤ c
    · rw [rank_cons_of_le ha]
      cases i with
      | zero => exact iff_of_true ha (Nat.succ_pos _)
      | succ i =>
        have htail := ih (List.pairwise_cons.1 hsorted).2 (Nat.lt_of_succ_lt_succ hi)
        exact htail.trans Nat.succ_lt_succ_iff.symm
    · rw [rank_of_lt hsorted (Nat.not_le.1 ha)]
      refine iff_of_false (fun hle => ha ?_) (Nat.not_lt_zero i)
      cases i with
      | zero => exact hle
      | succ i =>
        have hlt : i < points.length := Nat.lt_of_succ_lt_succ hi
        have hmem : points[i] ∈ points := List.getElem_mem hlt
        exact Nat.le_of_lt (Nat.lt_of_lt_of_le ((List.pairwise_cons.1 hsorted).1 _ hmem) hle)

/-- The search finds the rank, if the gap can be halved often enough. -/
theorem search_eq {points : Array Nat} (hsorted : points.toList.Pairwise (· < ·)) (c fuel : Nat)
    {low high : Nat} (hlow : low ≤ rank points.toList c) (hhigh : rank points.toList c ≤ high)
    (hsize : high ≤ points.size) (hfuel : high - low < 2 ^ fuel) :
    search points c fuel low high = rank points.toList c := by
  induction fuel generalizing low high with
  | zero =>
    have hpow : 2 ^ 0 = 1 := rfl
    rw [search]
    omega
  | succ fuel ih =>
    by_cases hdone : high ≤ low
    · rw [search, if_pos hdone]
      omega
    · have hmid : (low + high) / 2 < points.size := by omega
      have hpow : 2 ^ (fuel + 1) = 2 * 2 ^ fuel := Nat.pow_succ'
      have hread : points.getD ((low + high) / 2) 0 ≤ c ↔
          (low + high) / 2 < rank points.toList c := by
        rw [← getElem_le_iff hsorted (by simpa using hmid)]
        simp [Array.getD, hmid]
      rw [search, if_neg hdone]
      by_cases h : points.getD ((low + high) / 2) 0 ≤ c
      · rw [if_pos h]
        exact ih (hread.1 h) hhigh hsize (by omega)
      · rw [if_neg h]
        exact ih hlow (Nat.not_lt.1 (mt hread.2 h)) (by omega) (by omega)

/-- A character is in a set if an odd number of the points are at most its own code. -/
theorem mem_iff {s : CodeSet} (hsorted : s.changes.toList.Pairwise (· < ·)) (c : Char) :
    s.mem c = true ↔ rank s.changes.toList c.toNat % 2 = 1 := by
  have hfuel : s.changes.size - 0 < 2 ^ (s.changes.size.log2 + 2) := by
    have hlog : s.changes.size < 2 ^ (s.changes.size.log2 + 1) := Nat.lt_log2_self
    have hpow : 2 ^ (s.changes.size.log2 + 2) = 2 * 2 ^ (s.changes.size.log2 + 1) :=
      Nat.pow_succ'
    omega
  have hlength : rank s.changes.toList c.toNat ≤ s.changes.size := rank_le_length
  rw [mem, search_eq hsorted c.toNat _ (Nat.zero_le _) hlength (Nat.le_refl _) hfuel,
    decide_eq_true_iff]

/-! ## Sets side by side -/

/-- Whether no range of one set meets a range of another; `fuel` is at least the number of their
    points. -/
def apart : Nat → List Nat → List Nat → Bool
  | fuel + 1, a :: b :: as, c :: d :: cs =>
    if b ≤ c then apart fuel as (c :: d :: cs)
    else if d ≤ a then apart fuel (a :: b :: as) cs
    else false
  | _, [], _ => true
  | _, _, [] => true
  | _, _, _ => false

/-- A range that lies before a set takes nothing from it. -/
theorem rank_odd_of_range {a b n : Nat} {as cs : List Nat} (hcs : cs.Pairwise (· < ·))
    (hab : a < b) (hb : ∀ c ∈ cs.head?, b ≤ c) (hodd : rank (a :: b :: as) n % 2 = 1)
    (hodd' : rank cs n % 2 = 1) : rank as n % 2 = 1 := by
  cases cs with
  | nil => exact absurd hodd' (by simp [rank])
  | cons c cs =>
    have hbc : b ≤ c := hb c rfl
    by_cases hn : c ≤ n
    · rw [rank_cons_of_le (by omega), rank_cons_of_le (by omega)] at hodd
      omega
    · rw [rank_of_lt hcs (Nat.not_le.1 hn)] at hodd'
      omega

theorem disjoint_of_apart {fuel : Nat} {as cs : List Nat} (has : as.Pairwise (· < ·))
    (hcs : cs.Pairwise (· < ·)) (h : apart fuel as cs = true) (n : Nat) :
    ¬(rank as n % 2 = 1 ∧ rank cs n % 2 = 1) := by
  rintro ⟨hodd, hodd'⟩
  induction fuel generalizing as cs with
  | zero =>
    cases as <;> cases cs <;> simp_all [apart, rank]
  | succ fuel ih =>
    unfold apart at h
    split at h
    · next f a b as c d cs hf =>
      obtain rfl := Nat.succ.inj hf
      have hab : a < b := (List.pairwise_cons.1 has).1 b List.mem_cons_self
      have hcd : c < d := (List.pairwise_cons.1 hcs).1 d List.mem_cons_self
      have has' : as.Pairwise (· < ·) := (List.pairwise_cons.1 (List.pairwise_cons.1 has).2).2
      have hcs' : cs.Pairwise (· < ·) := (List.pairwise_cons.1 (List.pairwise_cons.1 hcs).2).2
      split at h
      · next hbc =>
        exact ih has' hcs h (rank_odd_of_range hcs hab (by simpa using hbc) hodd hodd') hodd'
      · split at h
        · next hda =>
          exact ih has hcs' h hodd (rank_odd_of_range has hcd (by simpa using hda) hodd' hodd)
        · cases h
    · simp [rank] at hodd
    · simp [rank] at hodd'
    · cases h

end CodeSet

/-! ## Letters and digits -/

namespace Text

theorem letters_sorted : letters.changes.toList.Pairwise (· < ·) :=
  List.isChain_iff_pairwise.1 (by decide +kernel)

theorem digits_sorted : digits.changes.toList.Pairwise (· < ·) :=
  List.isChain_iff_pairwise.1 (by decide +kernel)

/-- No letter is a digit. -/
theorem isDigit_of_isLetter {c : Char} (h : isLetter c) : isDigit c = false := by
  unfold isLetter at h
  unfold isDigit
  split_ifs at h ⊢ with hlatin
  · have halpha : c.isAlpha = (decide (c.val ≥ 65 ∧ c.val ≤ 90) ||
        (decide (c.val ≥ 97) && decide (c.val ≤ 122))) := rfl
    have hdigit : c.isDigit = (decide (c.val ≥ 48) && decide (c.val ≤ 57)) := rfl
    rw [halpha] at h
    rw [hdigit]
    grind
  · have hapart : CodeSet.apart 2000 letters.changes.toList digits.changes.toList = true := by
      decide +kernel
    have hdisjoint := CodeSet.disjoint_of_apart letters_sorted digits_sorted hapart c.toNat
    rw [← CodeSet.mem_iff letters_sorted, ← CodeSet.mem_iff digits_sorted] at hdisjoint
    exact Bool.eq_false_iff.2 fun hdigit => hdisjoint ⟨h, hdigit⟩

end Text

end Rulebook
