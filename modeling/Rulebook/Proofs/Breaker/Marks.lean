/-
  What a breaker remembers of its calls.

  Who watches a breaker marks the calls that it lets through, the successes, the failures with their
  times and the resets.  A breaker is a function of these marks (`Describes`): its counts are those
  of the last successes and failures in a row, and it is open since its last opening, which is the
  failure that reaches the threshold or a later failure that a trial call was waited for.

  * `Describes.start?_eq_none_iff`: when a breaker blocks a call;
  * `Describes.passed`, `Describes.succeed`, `Describes.fail`, `Describes.finish`,
    `Describes.reset`: a breaker stays described by the marks, step by step.
-/
import Mathlib.Tactic.SplitIfs
import Rulebook.Breaker
import Rulebook.Proofs.Number.Differences

namespace Rulebook

/-- Quantities whose differences tell which one is the greater. -/
class Quantity.Lawful (τ : Type) [Quantity τ] : Prop where
  less_self (x : τ) : Quantity.less x x = false
  less_zero_sub (x y : τ) : Quantity.less Quantity.zero (Quantity.sub x y) = Quantity.less y x

instance : Quantity.Lawful Float :=
  ⟨Binary64.less_self, Binary64.less_zero_sub⟩

namespace Breaker

variable {τ : Type}

/-! ## Marks -/

/-- What is seen of a breaker and its calls. -/
inductive Mark (τ : Type) where
  /-- A call was let through. -/
  | passed
  /-- A call finished, and did not fail. -/
  | success
  /-- A call failed at this time. -/
  | failure (now : τ)
  | reset

namespace Mark

/-- The mark of a call that finishes. -/
def finished (now : τ) (success : Bool) : Mark τ :=
  if success then .success else .failure now

-- All lists of marks are in reverse, the last mark first.

/-- The failures since the last success or reset. -/
def failures : List (Mark τ) → Nat
  | [] | .success :: _ | .reset :: _ => 0
  | .passed :: past => failures past
  | .failure _ :: past => failures past + 1

/-- The successes since the last failure or reset. -/
def successes : List (Mark τ) → Nat
  | [] | .failure _ :: _ | .reset :: _ => 0
  | .passed :: past => successes past
  | .success :: past => successes past + 1

/-- Whether a call was let through, and none has finished since. -/
def awaits : List (Mark τ) → Bool
  | .passed :: _ => true
  | _ => false

/-- When the breaker opened last, if there was no success and no reset since. It opens at the `n`-th
    failure in a row, and at every later failure that is the first to come of a call let through. -/
def lastOpening (n : Nat) : List (Mark τ) → Option τ
  | [] | .success :: _ | .reset :: _ => none
  | .passed :: past => lastOpening n past
  | .failure now :: past =>
    match lastOpening n past with
    | none => if n ≤ failures past + 1 then some now else none
    | some t => some (if awaits past then now else t)

/-- Openings are told by the count of failures. -/
theorem lastOpening_eq_none_iff {n : Nat} (hn : 0 < n) (past : List (Mark τ)) :
    lastOpening n past = none ↔ failures past < n := by
  induction past with
  | nil => simpa [lastOpening, failures] using hn
  | cons m past ih =>
    cases m with
    | passed => exact ih
    | success => simpa [lastOpening, failures] using hn
    | reset => simpa [lastOpening, failures] using hn
    | failure now =>
      rw [lastOpening, failures]
      cases ho : lastOpening n past with
      | none =>
        dsimp only
        split_ifs with h <;> simp <;> omega
      | some t =>
        have := ih.not.1 (by simp [ho])
        simp
        omega

end Mark

open Mark

/-! ## Breakers that marks describe -/

/-- The status of a breaker, told by the marks. -/
def statusAfter (n : Nat) (past : List (Mark τ)) : Status :=
  match lastOpening n past with
  | none => .closed
  | some _ => if awaits past then .trial else .opened

/-- A breaker is what the marks say. -/
structure Describes (n : Nat) (past : List (Mark τ)) (b : Breaker τ) : Prop where
  failures : b.failures = Mark.failures past
  successes : b.successes = Mark.successes past
  status : b.status = statusAfter n past
  openedAt : ∀ t, lastOpening n past = some t → b.openedAt = t

variable {n : Nat} {past : List (Mark τ)} {b b' : Breaker τ} {s : Settings τ}

-- A case on the last opening first: `awaits` counts only after one.
theorem statusAfter_eq_closed_iff : statusAfter n past = .closed ↔ lastOpening n past = none := by
  cases ho : lastOpening n past with
  | none => simp [statusAfter, ho]
  | some t => cases ha : awaits past <;> simp [statusAfter, ho, ha]

theorem statusAfter_eq_opened_iff :
    statusAfter n past = .opened ↔ (∃ t, lastOpening n past = some t) ∧ awaits past = false := by
  cases ho : lastOpening n past with
  | none => simp [statusAfter, ho]
  | some t => cases ha : awaits past <;> simp [statusAfter, ho, ha]

theorem statusAfter_eq_trial_iff :
    statusAfter n past = .trial ↔ (∃ t, lastOpening n past = some t) ∧ awaits past = true := by
  cases ho : lastOpening n past with
  | none => simp [statusAfter, ho]
  | some t => cases ha : awaits past <;> simp [statusAfter, ho, ha]

theorem statusAfter_passed :
    statusAfter n (.passed :: past) = if statusAfter n past = .closed then .closed else .trial := by
  split_ifs with h
  · have hnone : lastOpening n past = none := statusAfter_eq_closed_iff.1 h
    exact statusAfter_eq_closed_iff.2 hnone
  · have ht := Option.ne_none_iff_exists'.1 (mt statusAfter_eq_closed_iff.2 h)
    exact statusAfter_eq_trial_iff.2 ⟨ht, rfl⟩

/-! ## Steps of a breaker -/

theorem reaches_iff (h : s.threshold = .int n) (k : Nat) : reaches s k = true ↔ n ≤ k := by
  have horder : (Number.int k).order (.int n) = some (compare (k : Int) n) := rfl
  unfold reaches
  rw [h, horder]
  rcases hc : compare (k : Int) n with _ | _ | _
  · rw [Int.compare_eq_lt] at hc
    simp
    omega
  · rw [compare_eq_iff_eq] at hc
    simp
    omega
  · rw [Int.compare_eq_gt] at hc
    simp
    omega

theorem start?_of_ne_opened [Quantity τ] (s : Settings τ) (now : τ) (h : b.status ≠ .opened) :
    b.start? s now = some b :=
  if_pos h

theorem less_retryAfter [Quantity τ] [Quantity.Lawful τ] {now : τ} (h : b.status = .opened) :
    Quantity.less Quantity.zero (b.retryAfter s now) =
      Quantity.less (Quantity.sub now b.openedAt) s.recovery := by
  rw [retryAfter, if_pos h, ← Quantity.Lawful.less_zero_sub s.recovery]
  dsimp only
  split_ifs with hleft
  · exact hleft.trans hleft.symm
  · rw [Quantity.Lawful.less_self, Bool.eq_false_of_not_eq_true hleft]

theorem fail_of_opens (h : b.status = .trial ∨ b.status = .closed ∧ reaches s (b.failures + 1))
    (now : τ) : b.fail s now =
      { status := .opened, failures := b.failures + 1, successes := 0, openedAt := now } :=
  if_pos h

theorem fail_of_not_opens
    (h : ¬ (b.status = .trial ∨ b.status = .closed ∧ reaches s (b.failures + 1))) (now : τ) :
    b.fail s now = { b with failures := b.failures + 1, successes := 0 } :=
  if_neg h

namespace Describes

/-! ## Finished calls -/

theorem succeed (h : Describes n past b) : Describes n (.success :: past) b.succeed where
  failures := rfl
  successes := congrArg (· + 1) h.successes
  status := rfl
  openedAt _ h := nomatch h

theorem opens (h : Describes n past b) {now : τ}
    (hlast : lastOpening n (.failure now :: past) = some now) :
    Describes n (.failure now :: past)
      { status := .opened, failures := b.failures + 1, successes := 0, openedAt := now } where
  failures := congrArg (· + 1) h.failures
  successes := rfl
  status := (statusAfter_eq_opened_iff.2 ⟨⟨now, hlast⟩, rfl⟩).symm
  openedAt _ ht := Option.some.inj (hlast.symm.trans ht)

theorem stays (h : Describes n past b) {now : τ} (hno : b.status ≠ .trial)
    (hlast : lastOpening n (.failure now :: past) = lastOpening n past) :
    Describes n (.failure now :: past) { b with failures := b.failures + 1, successes := 0 } where
  failures := congrArg (· + 1) h.failures
  successes := rfl
  status := by
    cases hstatus : b.status with
    | closed =>
      have hnone := statusAfter_eq_closed_iff.1 (h.status.symm.trans hstatus)
      exact (statusAfter_eq_closed_iff.2 (hlast.trans hnone)).symm
    | opened =>
      obtain ⟨⟨t, ht⟩, -⟩ := statusAfter_eq_opened_iff.1 (h.status.symm.trans hstatus)
      exact (statusAfter_eq_opened_iff.2 ⟨⟨t, hlast.trans ht⟩, rfl⟩).symm
    | trial => exact absurd hstatus hno
  openedAt t ht := h.openedAt t (hlast.symm.trans ht)

theorem fail (hs : s.threshold = .int n) (h : Describes n past b) (now : τ) :
    Describes n (.failure now :: past) (b.fail s now) := by
  have hreaches : reaches s (b.failures + 1) = true ↔ n ≤ Mark.failures past + 1 := by
    rw [reaches_iff hs, h.failures]
  cases ho : lastOpening n past with
  | none =>
    have hclosed : b.status = .closed := h.status.trans (statusAfter_eq_closed_iff.2 ho)
    by_cases hn : n ≤ Mark.failures past + 1
    · rw [fail_of_opens (.inr ⟨hclosed, hreaches.2 hn⟩)]
      exact h.opens (by simp only [lastOpening, ho, if_pos hn])
    · rw [fail_of_not_opens (by simp [hclosed, hreaches, hn])]
      exact h.stays (by simp [hclosed]) (by simp only [lastOpening, ho, if_neg hn])
  | some t =>
    cases ha : awaits past with
    | true =>
      have htrial := h.status.trans (statusAfter_eq_trial_iff.2 ⟨⟨t, ho⟩, ha⟩)
      rw [fail_of_opens (.inl htrial)]
      exact h.opens (by simp [lastOpening, ho, ha])
    | false =>
      have hopened := h.status.trans (statusAfter_eq_opened_iff.2 ⟨⟨t, ho⟩, ha⟩)
      rw [fail_of_not_opens (by simp [hopened])]
      exact h.stays (by simp [hopened]) (by simp [lastOpening, ho, ha])

theorem finish (hs : s.threshold = .int n) (h : Describes n past b) (now : τ) (success : Bool) :
    Describes n (.finished now success :: past) (b.finish s now success) := by
  cases success with
  | true => exact h.succeed
  | false => exact h.fail hs now

/-! ## Fresh breakers and calls that start -/

variable [Quantity τ]

theorem fresh : Describes n ([] : List (Mark τ)) fresh where
  failures := rfl
  successes := rfl
  status := rfl
  openedAt _ h := nomatch h

theorem reset : Describes n (.reset :: past) b.reset where
  failures := rfl
  successes := rfl
  status := rfl
  openedAt _ h := nomatch h

theorem passed {now : τ} (h : Describes n past b) (hb : b.start? s now = some b') :
    Describes n (.passed :: past) b' := by
  have hstatus := h.status
  by_cases hopen : b.status = .opened
  · rw [start?_of_open s now hopen] at hb
    split_ifs at hb
    cases hb
    refine ⟨h.failures, h.successes, ?_, h.openedAt⟩
    rw [statusAfter_passed, ← hstatus, hopen]
    rfl
  · rw [start?_of_ne_opened s now hopen] at hb
    cases hb
    refine ⟨h.failures, h.successes, ?_, h.openedAt⟩
    rw [statusAfter_passed, ← hstatus]
    cases hb' : b.status with
    | closed => rfl
    | opened => exact absurd hb' hopen
    | trial => rfl

/-- A breaker blocks the calls that start within the recovery time after its last opening, until it
    has let one through. -/
theorem start?_eq_none_iff [Quantity.Lawful τ] {now : τ} (h : Describes n past b) :
    b.start? s now = none ↔ ∃ t, lastOpening n past = some t ∧ awaits past = false ∧
      Quantity.less (Quantity.sub now t) s.recovery = true := by
  by_cases hopen : b.status = .opened
  · obtain ⟨⟨t, ht⟩, ha⟩ := statusAfter_eq_opened_iff.1 (h.status.symm.trans hopen)
    rw [start?_of_open s now hopen, less_retryAfter hopen, h.openedAt t ht, ht, ha]
    simp
  · rw [start?_of_ne_opened s now hopen]
    refine iff_of_false (by simp) ?_
    rintro ⟨t, ht, ha, -⟩
    exact hopen (h.status.trans (statusAfter_eq_opened_iff.2 ⟨⟨t, ht⟩, ha⟩))

end Describes

end Breaker

end Rulebook
