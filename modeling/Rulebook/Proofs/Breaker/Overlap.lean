/-
  Breakers whose calls overlap.

  A call starts, and is in flight until it finishes; in between, other calls start and finish, and
  the breaker may be reset.  After an opening the breaker blocks all calls for the recovery time, as
  long as no call that was let through before finishes without failing.  Then it lets a call through
  as a trial, and every call that starts before one of those in flight finishes; the first to finish
  decides, whichever it is.

  * `Traffic.kept_after`: what one step preserves;
  * `Traffic.run_blocked`: an open breaker lets no call through within the recovery time;
  * `Traffic.overlap_told`: what a breaker does with calls that overlap, after any steps.
-/
import Rulebook.Proofs.Breaker.Marks

namespace Rulebook.Breaker

variable {κ τ : Type}

/-! ## Steps -/

/-- A step of one of many calls. -/
inductive Step (κ τ : Type) where
  /-- A call starts, and is let through or blocked. -/
  | start (call : κ) (now : τ)
  /-- A call finishes that was let through. -/
  | finish (call : κ) (now : τ) (success : Bool)
  | reset

/-- A breaker, the calls that are in flight, those of them that were let through as trials and that
    nothing has decided yet, and the marks of all steps so far. -/
structure Traffic (κ τ : Type) where
  breaker : Breaker τ
  inFlight : List κ := []
  trials : List κ := []
  past : List (Mark τ) := []

theorem finish_ne_trial (s : Settings τ) (b : Breaker τ) (now : τ) (success : Bool) :
    (b.finish s now success).status ≠ .trial := by
  cases success with
  | true => simp [finish, succeed]
  | false =>
    change (b.fail s now).status ≠ .trial
    by_cases h : b.status = .trial ∨ b.status = .closed ∧ reaches s (b.failures + 1)
    · simp [fail_of_opens h]
    · rw [fail_of_not_opens h]
      exact fun htrial => h (.inl htrial)

namespace Traffic

open Mark (lastOpening awaits)

variable [Quantity τ] {s : Settings τ} {t : Traffic κ τ} {n : Nat} {k : κ} {now : τ} {b : Breaker τ}

/-- What every step preserves: the breaker is told by the marks, and waits for the trials. -/
structure Kept (n : Nat) (t : Traffic κ τ) : Prop where
  describes : Describes n t.past t.breaker
  trial : t.breaker.status = .trial ↔ t.trials ≠ []
  trials : t.trials.Sublist t.inFlight

theorem kept_fresh : Kept n ({ breaker := fresh } : Traffic κ τ) :=
  ⟨.fresh, by simp [fresh], List.nil_sublist _⟩

/-- A call that is let through leaves a closed breaker closed, and is a trial otherwise. -/
theorem Kept.status_of_start? (h : Kept n t) (hb : t.breaker.start? s now = some b) :
    b.status = if t.breaker.status = .closed then .closed else .trial := by
  rw [(h.describes.passed hb).status, statusAfter_passed, h.describes.status]

/-- While a trial is undecided, every call is let through, and the breaker does not change. -/
theorem Kept.start?_of_trials (h : Kept n t) (htrials : t.trials ≠ []) :
    t.breaker.start? s now = some t.breaker :=
  start?_of_ne_opened s now (by simp [h.trial.2 htrials])

variable [DecidableEq κ]

/-! ## Steps of many calls -/

/-- The calls after a step. -/
def after (s : Settings τ) (t : Traffic κ τ) : Step κ τ → Traffic κ τ
  | .start k now =>
    match t.breaker.start? s now with
    | none => t
    | some b =>
      { breaker := b, inFlight := k :: t.inFlight, past := .passed :: t.past,
        trials := if b.status = .trial then k :: t.trials else t.trials }
  | .finish k now success =>
    if k ∈ t.inFlight then
      { breaker := t.breaker.finish s now success, inFlight := t.inFlight.erase k,
        past := .finished now success :: t.past }
    else t
  | .reset => { t with breaker := t.breaker.reset, trials := [], past := .reset :: t.past }

/-- The calls after steps. -/
def run (s : Settings τ) (t : Traffic κ τ) (steps : List (Step κ τ)) : Traffic κ τ :=
  steps.foldl (after s) t

theorem after_start_of_none (h : t.breaker.start? s now = none) : t.after s (.start k now) = t := by
  simp only [after, h]

theorem after_start_of_some (h : t.breaker.start? s now = some b) :
    t.after s (.start k now) =
      { breaker := b, inFlight := k :: t.inFlight, past := .passed :: t.past,
        trials := if b.status = .trial then k :: t.trials else t.trials } := by
  simp only [after, h]

theorem after_finish (h : k ∈ t.inFlight) (success : Bool) :
    t.after s (.finish k now success) =
      { breaker := t.breaker.finish s now success, inFlight := t.inFlight.erase k,
        past := .finished now success :: t.past } :=
  if_pos h

theorem after_finish_of_not_mem (h : k ∉ t.inFlight) (success : Bool) :
    t.after s (.finish k now success) = t :=
  if_neg h

theorem kept_after (hs : s.threshold = .int n) (h : Kept n t) (step : Step κ τ) :
    Kept n (t.after s step) := by
  cases step with
  | start k now =>
    cases hb : t.breaker.start? s now with
    | none => rwa [after_start_of_none hb]
    | some b =>
      rw [after_start_of_some hb]
      refine ⟨h.describes.passed hb, ?_, ?_⟩ <;> dsimp only
      · split_ifs with htrial
        · simp [htrial]
        · have hstatus := h.status_of_start? hb
          split_ifs at hstatus with hclosed
          · exact iff_of_false htrial (h.trial.not.1 (by simp [hclosed]))
          · exact absurd hstatus htrial
      · split_ifs
        · exact h.trials.cons_cons k
        · exact h.trials.cons k
  | finish k now success =>
    by_cases hk : k ∈ t.inFlight
    · rw [after_finish hk]
      exact ⟨h.describes.finish hs now success,
        iff_of_false (finish_ne_trial s _ now success) (by simp), List.nil_sublist _⟩
    · rwa [after_finish_of_not_mem hk]
  | reset =>
    have hreset : Describes n (.reset :: t.past) t.breaker.reset := .reset
    exact ⟨hreset, by simp [after, Breaker.reset, fresh], List.nil_sublist _⟩

theorem kept_run (hs : s.threshold = .int n) (h : Kept n t) (steps : List (Step κ τ)) :
    Kept n (t.run s steps) := by
  induction steps generalizing t with
  | nil => exact h
  | cons step steps ih => exact ih (kept_after hs h step)

/-! ## Within the recovery time -/

/-- Steps within the recovery time after an opening: no call finishes without failing, and the
    breaker is not reset. -/
def Within (s : Settings τ) (openedAt : τ) : Step κ τ → Prop
  | .start _ now => Quantity.less (Quantity.sub now openedAt) s.recovery = true
  | .finish _ _ success => success = false
  | .reset => False

theorem after_within [Quantity.Lawful τ] {step : Step κ τ} (hopen : t.breaker.status = .opened)
    (h : Within s t.breaker.openedAt step) :
    let t' := t.after s step
    t'.breaker.status = .opened ∧ t'.breaker.openedAt = t.breaker.openedAt ∧
      t'.inFlight.Sublist t.inFlight := by
  cases step with
  | start k now =>
    have hnone : t.breaker.start? s now = none := by
      rw [start?_of_open s now hopen, less_retryAfter hopen]
      exact if_pos h
    rw [after_start_of_none hnone]
    exact ⟨hopen, rfl, List.Sublist.refl _⟩
  | finish k now success =>
    by_cases hk : k ∈ t.inFlight
    · rw [after_finish hk, show success = false from h]
      have hstill : t.breaker.finish s now false =
          { t.breaker with failures := t.breaker.failures + 1, successes := 0 } :=
        fail_of_not_opens (by simp [hopen]) now
      rw [hstill]
      exact ⟨hopen, rfl, List.erase_sublist⟩
    · rw [after_finish_of_not_mem hk]
      exact ⟨hopen, rfl, List.Sublist.refl _⟩
  | reset => exact h.elim

/-- An open breaker stays open, and lets no call through, for the recovery time. -/
theorem run_blocked [Quantity.Lawful τ] {steps : List (Step κ τ)}
    (hopen : t.breaker.status = .opened) (h : ∀ step ∈ steps, Within s t.breaker.openedAt step) :
    let t' := t.run s steps
    t'.breaker.status = .opened ∧ t'.breaker.openedAt = t.breaker.openedAt ∧
      t'.inFlight.Sublist t.inFlight := by
  induction steps generalizing t with
  | nil => exact ⟨hopen, rfl, List.Sublist.refl _⟩
  | cons step steps ih =>
    obtain ⟨hopen', hsince, hsub⟩ := after_within hopen (h step (List.mem_cons_self ..))
    obtain ⟨hopen'', hsince', hsub'⟩ := ih hopen' fun step' hmem => by
      rw [hsince]
      exact h step' (List.mem_cons_of_mem _ hmem)
    exact ⟨hopen'', hsince'.trans hsince, hsub'.trans hsub⟩

/-! ## After any steps -/

/-- What a breaker does with calls that overlap. -/
structure Told (n : Nat) (s : Settings τ) (t : Traffic κ τ) : Prop where
  /-- A call is blocked within the recovery time after the last opening, if the breaker has let no
      trial through and has not closed since. -/
  blocks (now : τ) : t.breaker.start? s now = none ↔ ∃ t₀, lastOpening n t.past = some t₀ ∧
    awaits t.past = false ∧ Quantity.less (Quantity.sub now t₀) s.recovery = true
  trial : t.breaker.status = .trial ↔ t.trials ≠ []
  trials : t.trials.Sublist t.inFlight
  /-- The first call after the recovery time is the only trial. -/
  first (k : κ) (now : τ) : t.trials = [] → (t.after s (.start k now)).trials.length ≤ 1
  /-- Until a trial is decided, every further call is one. -/
  joins (k : κ) (now : τ) : t.trials ≠ [] → (t.after s (.start k now)).trials = k :: t.trials
  /-- The next call to finish decides all trials. -/
  decides (k : κ) (now : τ) (success : Bool) : t.trials ≠ [] → k ∈ t.inFlight →
    let t' := t.after s (.finish k now success)
    t'.trials = [] ∧ t'.breaker.status = (if success then .closed else .opened) ∧
      (success = false → t'.breaker.openedAt = now)
  /-- No call is let through within the recovery time, as long as none finishes without failing and
      the breaker is not reset. -/
  within (steps : List (Step κ τ)) : t.breaker.status = .opened →
    (∀ step ∈ steps, Within s t.breaker.openedAt step) →
    (t.run s steps).breaker.status = .opened ∧ (t.run s steps).inFlight.Sublist t.inFlight

theorem Kept.told [Quantity.Lawful τ] (h : Kept n t) : Told n s t where
  blocks now := h.describes.start?_eq_none_iff
  trial := h.trial
  trials := h.trials
  first k now hnone := by
    cases hb : t.breaker.start? s now with
    | none => simp [after_start_of_none hb, hnone]
    | some b =>
      rw [after_start_of_some hb, hnone]
      dsimp only
      split_ifs <;> simp
  joins k now htrials := by
    rw [after_start_of_some (h.start?_of_trials htrials)]
    exact if_pos (h.trial.2 htrials)
  decides k now success htrials hk := by
    rw [after_finish hk]
    cases success with
    | true => exact ⟨rfl, rfl, nofun⟩
    | false =>
      have hopens : t.breaker.finish s now false =
          { status := .opened, failures := t.breaker.failures + 1, successes := 0,
            openedAt := now } :=
        fail_of_opens (.inl (h.trial.2 htrials)) now
      rw [hopens]
      exact ⟨rfl, rfl, fun _ => rfl⟩
  within steps hopen hwithin := by
    obtain ⟨hopen', -, hsub⟩ := run_blocked hopen hwithin
    exact ⟨hopen', hsub⟩

/-- **Breakers whose calls overlap.** After any steps of any calls, an open breaker lets no call
    through for the recovery time, as long as no call that was in flight finishes without failing
    and it is not reset. Then it lets one call through as a trial, and all those that start before
    it is decided. The next call to finish closes the breaker or opens it again. -/
theorem overlap_told [Quantity.Lawful τ] (hs : s.threshold = .int n) (steps : List (Step κ τ)) :
    Told n s (run s { breaker := fresh } steps) :=
  (kept_run hs kept_fresh steps).told

/-- A call is blocked just before the recovery time is over, and the next one is a trial. -/
theorem overlap_told_trial :
    let s : Settings Float := { threshold := .int 1, recovery := 60.0 }
    let t := run s { breaker := fresh } [.start "a" 0.0, .start "b" 1.0, .finish "a" 2.0 false,
      .start "c" 61.5, .start "d" 62.0]
    s.threshold = .int 1 ∧ t.breaker.status = .trial ∧ t.trials = ["d"] ∧
      t.inFlight = ["d", "b"] ∧ Told 1 s t := by
  intro s t
  have h : Told 1 s t := overlap_told rfl _
  exact ⟨rfl, by decide +kernel, by decide +kernel, by decide +kernel, h⟩

/-- A call that was in flight when the breaker opened, and does not fail, closes it at once. -/
example :
    let s : Settings Float := { threshold := .int 1, recovery := 60.0 }
    (run s { breaker := fresh } [.start "a" 0.0, .start "b" 1.0, .finish "a" 2.0 false,
      .finish "b" 3.0 true, .start "c" 4.0]).inFlight = ["c"] := by decide +kernel

/-- Two trials are in flight. -/
example :
    let s : Settings Float := { threshold := .int 1, recovery := 60.0 }
    (run s { breaker := fresh } [.start "a" 0.0, .finish "a" 1.0 false, .start "b" 61.0,
      .start "c" 62.0]).trials = ["c", "b"] := by decide +kernel

end Traffic

end Rulebook.Breaker
