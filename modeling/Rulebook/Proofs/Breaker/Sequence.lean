/-
  Breakers whose calls come one after the other.

  Calls start at any times, reach their target unless the breaker blocks them, and finish before the
  next one starts.  Then the failures in a row tell the state of the breaker: it is open since the
  last of them if there are as many as the threshold, or more.  Only a call that is cut off, and one
  at whose result the test of failures faults, leave no mark when they end; after such a trial the
  breaker keeps waiting.

  * `lastOpening_of_inTurn`: the last opening is the last failure;
  * `Guarded.kept_after`: what one event preserves;
  * `Guarded.run_told`: what the breaker is after any events, and what it does with the next call.
-/
import Rulebook.Proofs.Breaker.Marks

namespace Rulebook.Breaker

variable {τ ε α : Type}

/-! ## Marks of calls that do not overlap -/

namespace Mark

/-- The time of the last failure, if there was no success and no reset since. -/
def lastFailure : List (Mark τ) → Option τ
  | [] | .success :: _ | .reset :: _ => none
  | .passed :: past => lastFailure past
  | .failure now :: _ => some now

/-- Every call that finishes was let through just before. -/
def InTurn : List (Mark τ) → Prop
  | [] => True
  | .passed :: past | .reset :: past => InTurn past
  | .success :: past | .failure _ :: past => awaits past = true ∧ InTurn past

/-- If calls do not overlap, every failure that the breaker lets happen from the `n`-th in a row on
    opens it. -/
theorem lastOpening_of_inTurn {n : Nat} (hn : 0 < n) {past : List (Mark τ)} (h : InTurn past) :
    lastOpening n past = if n ≤ failures past then lastFailure past else none := by
  induction past with
  | nil => exact (if_neg (Nat.not_le.2 hn)).symm
  | cons m past ih =>
    cases m with
    | passed => exact ih h
    | success => exact (if_neg (Nat.not_le.2 hn)).symm
    | reset => exact (if_neg (Nat.not_le.2 hn)).symm
    | failure now =>
      obtain ⟨hawaits, -⟩ := h
      rw [lastOpening, failures, lastFailure]
      cases ho : lastOpening n past with
      | none => rfl
      | some t =>
        have hn' : ¬ failures past < n := (lastOpening_eq_none_iff hn past).not.1 (by simp [ho])
        rw [if_pos (by omega)]
        simp [hawaits]

end Mark

open Mark

/-! ## A guarded target -/

/-- What happens to a target. -/
inductive Event (τ ε α : Type) where
  /-- A call starts. If it is let through, the target returns or raises at the second time. -/
  | call (start finish : τ) (result : Except ε α)
  | reset

/-- A target behind a breaker: the breakers, the clock, and the marks of its calls. -/
structure Guarded (τ : Type) where
  breakers : Breakers τ
  now : τ
  past : List (Mark τ) := []

namespace Guarded

variable [Quantity τ] {g : Guarded τ} {name : String} {passes : ε → Bool}
  {isFailure : α → Except ε Bool} {start finish : τ} {result : Except ε α} {b : Breaker τ} {n : Nat}

/-- The breaker of the target. -/
def breaker (name : String) (g : Guarded τ) : Breaker τ :=
  g.breakers.get name

/-- Calls the target. It marks that the call was let through, and takes its time. -/
def call (name : String) (passes : ε → Bool) (isFailure : α → Except ε Bool) (start finish : τ)
    (result : Except ε α) (g : Guarded τ) : Breakers.Called τ ε α × Guarded τ :=
  Breakers.call breakers (fun bs g => { g with breakers := bs }) now name passes isFailure
    (fun g => (result, { g with now := finish, past := .passed :: g.past })) { g with now := start }

/-- Whether a result counts as a success, unless the call was cut off or the test of failures
    faults. -/
def success? (passes : ε → Bool) (isFailure : α → Except ε Bool) : Except ε α → Option Bool
  | .error e => if passes e then none else some false
  | .ok a =>
    match isFailure a with
    | .ok failed => some !failed
    | .error _ => none

/-- The marks of a call that was let through. -/
def marks (passes : ε → Bool) (isFailure : α → Except ε Bool) (finish : τ) (result : Except ε α) :
    List (Mark τ) :=
  ((success? passes isFailure result).map (Mark.finished finish)).toList ++ [.passed]

/-- The target after an event. -/
def after (name : String) (passes : ε → Bool) (isFailure : α → Except ε Bool) (g : Guarded τ) :
    Event τ ε α → Guarded τ
  | .call start finish result =>
    match g.call name passes isFailure start finish result with
    | (.blocked _, g) => g
    | (_, g) =>
      { g with
        past := ((success? passes isFailure result).map (Mark.finished finish)).toList ++ g.past }
  | .reset =>
    { g with breakers := g.breakers.update name Breaker.reset, past := .reset :: g.past }

/-- The target after events. -/
def run (name : String) (passes : ε → Bool) (isFailure : α → Except ε Bool) (g : Guarded τ)
    (events : List (Event τ ε α)) : Guarded τ :=
  events.foldl (after name passes isFailure) g

/-- Whether the breaker blocks a call. -/
def Blocks (name : String) (passes : ε → Bool) (isFailure : α → Except ε Bool) (g : Guarded τ)
    (start finish : τ) (result : Except ε α) : Prop :=
  ∃ wait, (g.call name passes isFailure start finish result).1 = .blocked wait

/-! ## One call -/

theorem call_of_none (h : (g.breaker name).start? g.breakers.settings start = none) :
    g.call name passes isFailure start finish result =
      (.blocked ((g.breaker name).retryAfter g.breakers.settings start),
        { g with now := start, breakers := g.breakers.put name (g.breaker name) }) := by
  unfold call Breakers.call
  unfold breaker at h
  dsimp only
  rw [h]
  rfl

/-- A call that is let through. -/
theorem call_of_some (passes : ε → Bool) (isFailure : α → Except ε Bool) (finish : τ)
    (result : Except ε α) (h : (g.breaker name).start? g.breakers.settings start = some b) :
    ∃ called g', g.call name passes isFailure start finish result = (called, g') ∧
      (∀ wait, called ≠ .blocked wait) ∧ g'.past = .passed :: g.past ∧
      g'.breakers.settings = g.breakers.settings ∧ g'.breaker name =
        (success? passes isFailure result).elim b (b.finish g.breakers.settings finish) := by
  have hget : (g.breakers.put name b).get name = b := Breakers.get_put_self _ _ _
  have hfinished (success : Bool) :
      ((g.breakers.put name b).update name fun b =>
        b.finish g.breakers.settings finish success).get name =
      b.finish g.breakers.settings finish success := by
    rw [Breakers.update, Breakers.get_put_self, hget]
  unfold breaker at h
  unfold call Breakers.call
  dsimp only
  rw [h]
  cases result with
  | error e =>
    unfold success?
    dsimp only
    cases passes e with
    | true => exact ⟨_, _, rfl, nofun, rfl, rfl, hget⟩
    | false => exact ⟨_, _, rfl, nofun, rfl, rfl, hfinished false⟩
  | ok a =>
    unfold success?
    dsimp only
    cases isFailure a with
    | ok failed => exact ⟨_, _, rfl, nofun, rfl, rfl, hfinished !failed⟩
    | error e => exact ⟨_, _, rfl, nofun, rfl, rfl, hget⟩

theorem blocks_iff : g.Blocks name passes isFailure start finish result ↔
    (g.breaker name).start? g.breakers.settings start = none := by
  unfold Blocks
  cases h : (g.breaker name).start? g.breakers.settings start with
  | none => simp [call_of_none h]
  | some b =>
    obtain ⟨called, g', hcall, hcalled, -⟩ := call_of_some passes isFailure finish result h
    simp [hcall, hcalled]

/-- A call that is blocked does not reach the target, and changes nothing at the breaker. -/
theorem after_of_blocked (h : g.Blocks name passes isFailure start finish result) :
    let g' := g.after name passes isFailure (.call start finish result)
    g'.past = g.past ∧ g'.breaker name = g.breaker name ∧
      g'.breakers.settings = g.breakers.settings := by
  intro g'
  have hg' : g' = { g with now := start, breakers := g.breakers.put name (g.breaker name) } := by
    simp only [g', after, call_of_none (blocks_iff.1 h)]
  rw [hg']
  exact ⟨rfl, Breakers.get_put_self _ _ _, rfl⟩

theorem after_of_start? (passes : ε → Bool) (isFailure : α → Except ε Bool) (finish : τ)
    (result : Except ε α) (h : (g.breaker name).start? g.breakers.settings start = some b) :
    let g' := g.after name passes isFailure (.call start finish result)
    g'.past = marks passes isFailure finish result ++ g.past ∧
      g'.breaker name =
        (success? passes isFailure result).elim b (b.finish g.breakers.settings finish) ∧
      g'.breakers.settings = g.breakers.settings := by
  intro g'
  -- as `called` blocks nothing, `simp` finds the second case of the match
  obtain ⟨called, g₁, hcall, hcalled, hpast, hsettings, hbreaker⟩ :=
    call_of_some passes isFailure finish result h
  have hg' : g' = { g₁ with past :=
      ((success? passes isFailure result).map (Mark.finished finish)).toList ++ g₁.past } := by
    simp only [g', after, hcall]
  rw [hg', hpast, marks]
  exact ⟨by simp, hbreaker, hsettings⟩

/-! ## Runs -/

/-- What every event preserves: the breaker is told by the marks of calls that do not overlap. -/
structure Kept (n : Nat) (name : String) (s : Settings τ) (g : Guarded τ) : Prop where
  describes : Describes n g.past (g.breaker name)
  inTurn : InTurn g.past
  settings : g.breakers.settings = s

variable {s : Settings τ}

theorem kept_fresh (now : τ) : Kept n name s { breakers := { settings := s }, now := now } :=
  ⟨.fresh, trivial, rfl⟩

theorem kept_after (hs : s.threshold = .int n) (h : Kept n name s g) (e : Event τ ε α) :
    Kept n name s (g.after name passes isFailure e) := by
  cases e with
  | call start finish result =>
    cases hstart : (g.breaker name).start? g.breakers.settings start with
    | none =>
      have hblocks : g.Blocks name passes isFailure start finish result := blocks_iff.2 hstart
      obtain ⟨hpast, hbreaker, hsettings⟩ := after_of_blocked hblocks
      exact ⟨by rw [hpast, hbreaker]; exact h.describes, hpast ▸ h.inTurn,
        hsettings.trans h.settings⟩
    | some b =>
      obtain ⟨hpast, hbreaker, hsettings⟩ := after_of_start? passes isFailure finish result hstart
      have hpassed := h.describes.passed hstart
      refine ⟨?_, ?_, hsettings.trans h.settings⟩
      · rw [hpast, hbreaker, marks]
        cases success? passes isFailure result with
        | none => exact hpassed
        | some success => exact hpassed.finish (h.settings ▸ hs) finish success
      · rw [hpast, marks]
        cases success? passes isFailure result with
        | none => exact h.inTurn
        | some success => cases success <;> exact ⟨rfl, h.inTurn⟩
  | reset =>
    refine ⟨?_, h.inTurn, h.settings⟩
    have hbreaker : (g.after name passes isFailure .reset).breaker name = (g.breaker name).reset :=
      Breakers.get_put_self _ _ _
    rw [hbreaker]
    exact .reset

theorem kept_run (hs : s.threshold = .int n) (h : Kept n name s g) (events : List (Event τ ε α)) :
    Kept n name s (g.run name passes isFailure events) := by
  induction events generalizing g with
  | nil => exact h
  | cons e events ih => exact ih (kept_after hs h e)

/-- How a call ends that is an event, if it is let through, tells whether it succeeded. -/
def Decided (passes : ε → Bool) (isFailure : α → Except ε Bool) : Event τ ε α → Prop
  | .call _ _ result => ∃ success, success? passes isFailure result = some success
  | .reset => True

/-- An event that is decided leaves no trial undecided. -/
theorem awaits_after (h : awaits g.past = false) {e : Event τ ε α}
    (he : Decided passes isFailure e) : awaits (g.after name passes isFailure e).past = false := by
  cases e with
  | reset => rfl
  | call start finish result =>
    cases hstart : (g.breaker name).start? g.breakers.settings start with
    | none => rw [(after_of_blocked (blocks_iff.2 hstart)).1, h]
    | some b =>
      obtain ⟨success, hsuccess⟩ := he
      rw [(after_of_start? passes isFailure finish result hstart).1, marks, hsuccess]
      cases success <;> rfl

theorem awaits_run (h : awaits g.past = false) {events : List (Event τ ε α)}
    (he : ∀ e ∈ events, Decided passes isFailure e) :
    awaits (g.run name passes isFailure events).past = false := by
  induction events generalizing g with
  | nil => exact h
  | cons e events ih =>
    obtain ⟨hnow, hrest⟩ := List.forall_mem_cons.1 he
    exact ih (awaits_after h hnow) hrest

/-- A breaker and its next call, told by the marks. -/
structure Told (n : Nat) (name : String) (passes : ε → Bool) (isFailure : α → Except ε Bool)
    (s : Settings τ) (g : Guarded τ) : Prop where
  failures : (g.breaker name).failures = Mark.failures g.past
  successes : (g.breaker name).successes = Mark.successes g.past
  closed : (g.breaker name).status = .closed ↔ Mark.failures g.past < n
  opened : (g.breaker name).status = .opened ↔ n ≤ Mark.failures g.past ∧ awaits g.past = false
  openedAt : (g.breaker name).status = .opened → lastFailure g.past = some (g.breaker name).openedAt
  /-- A call is blocked within the recovery time after the last opening. -/
  blocks (start finish : τ) (result : Except ε α) :
    g.Blocks name passes isFailure start finish result ↔ ∃ t,
      lastFailure g.past = some t ∧ n ≤ Mark.failures g.past ∧ awaits g.past = false ∧
        Quantity.less (Quantity.sub start t) s.recovery = true
  /-- A call that is blocked does not reach the target. -/
  blocked (start finish : τ) (result : Except ε α) :
    g.Blocks name passes isFailure start finish result →
    let g' := g.after name passes isFailure (.call start finish result)
    g'.past = g.past ∧ g'.breaker name = g.breaker name
  reached (start finish : τ) (result : Except ε α) :
    ¬g.Blocks name passes isFailure start finish result →
    (g.after name passes isFailure (.call start finish result)).past =
      marks passes isFailure finish result ++ g.past
  /-- A call that is let through opens the breaker if it is at least the `n`-th failure in a row. -/
  opens (start finish : τ) (result : Except ε α) :
    ¬g.Blocks name passes isFailure start finish result →
    (((g.after name passes isFailure (.call start finish result)).breaker name).status = .opened ↔
      success? passes isFailure result = some false ∧ n ≤ Mark.failures g.past + 1)

theorem Kept.opened_iff (hn : 0 < n) (h : Kept n name s g) : (g.breaker name).status = .opened ↔
    n ≤ Mark.failures g.past ∧ awaits g.past = false := by
  rw [h.describes.status, statusAfter_eq_opened_iff, ← Option.ne_none_iff_exists']
  rw [Ne, lastOpening_eq_none_iff hn, Nat.not_lt]

theorem Kept.told [Quantity.Lawful τ] (hn : 0 < n) (hs : s.threshold = .int n)
    (h : Kept n name s g) : Told n name passes isFailure s g where
  failures := h.describes.failures
  successes := h.describes.successes
  closed := by
    rw [h.describes.status, statusAfter_eq_closed_iff, lastOpening_eq_none_iff hn]
  opened := h.opened_iff hn
  openedAt hopen := by
    have hlast := lastOpening_of_inTurn hn h.inTurn
    rw [if_pos ((h.opened_iff hn).1 hopen).1] at hlast
    obtain ⟨⟨t, ht⟩, -⟩ := statusAfter_eq_opened_iff.1 (h.describes.status.symm.trans hopen)
    rw [h.describes.openedAt t ht, ← hlast, ht]
  blocks start finish result := by
    rw [blocks_iff, h.describes.start?_eq_none_iff, h.settings, lastOpening_of_inTurn hn h.inTurn]
    split_ifs with hfailures <;> simp [hfailures]
  blocked start finish result hb := by
    obtain ⟨hpast, hbreaker, -⟩ := after_of_blocked hb
    exact ⟨hpast, hbreaker⟩
  reached start finish result hb := by
    obtain ⟨b, hstart⟩ := Option.ne_none_iff_exists'.1 (mt blocks_iff.2 hb)
    exact (after_of_start? passes isFailure finish result hstart).1
  opens start finish result hb := by
    obtain ⟨b, hstart⟩ := Option.ne_none_iff_exists'.1 (mt blocks_iff.2 hb)
    rw [(kept_after hs h (.call start finish result)).opened_iff hn,
      (after_of_start? passes isFailure finish result hstart).1, marks]
    cases success? passes isFailure result with
    | none => simp [awaits]
    | some success =>
      cases success with
      | true => simp [Mark.finished, Mark.failures, hn.ne']
      | false => simp [Mark.finished, Mark.failures, awaits]

/-- **Breakers whose calls come one after the other.** After any calls and resets, at any times and
    with any results, the counts of a breaker are those of the last failures and successes in a row.
    It is closed until the threshold is reached. From then on it is open since the last failure, and
    blocks the calls that start before the recovery time is over, unless a trial is undecided, which
    needs a call that is cut off or a test of failures that faults. -/
theorem run_told [Quantity.Lawful τ] (hn : 0 < n) (hs : s.threshold = .int n) (now : τ)
    (events : List (Event τ ε α)) :
    let g := run name passes isFailure { breakers := { settings := s }, now := now } events
    Told n name passes isFailure s g ∧
      ((∀ e ∈ events, Decided passes isFailure e) →
        awaits g.past = false ∧ (g.breaker name).status ≠ .trial) := by
  intro g
  have hkept : Kept n name s g := kept_run hs (kept_fresh now) events
  refine ⟨hkept.told hn hs, fun hdecided => ?_⟩
  have hawaits : awaits g.past = false := awaits_run rfl hdecided
  refine ⟨hawaits, fun htrial => ?_⟩
  have := (statusAfter_eq_trial_iff.1 (hkept.describes.status.symm.trans htrial)).2
  exact Bool.noConfusion (hawaits.symm.trans this)

/-- Two failures open a breaker, and a trial that fails after the recovery time opens it again. -/
theorem run_told_reopened :
    let s : Settings Float := { threshold := .int 2, recovery := 60.0 }
    let passes : Unit → Bool := fun _ => false
    let isFailure : Nat → Except Unit Bool := fun status => .ok (500 ≤ status)
    let g := run "host" passes isFailure { breakers := { settings := s }, now := 0.0 }
      [.call 1.0 2.0 (.error ()), .call 3.0 5.0 (.ok 503), .call 64.0 64.5 (.ok 200),
        .call 65.0 66.0 (.ok 500)]
    s.threshold = .int 2 ∧ (g.breaker "host").failures = 3 ∧ (g.breaker "host").status = .opened ∧
      Told 2 "host" passes isFailure s g ∧ awaits g.past = false := by
  intro s passes isFailure g
  have h : Told 2 "host" passes isFailure s g ∧ (_ → _) := run_told (by decide) rfl 0.0 _
  refine ⟨rfl, by decide +kernel, by decide +kernel, h.1, (h.2 ?_).1⟩
  simp only [List.forall_mem_cons]
  exact ⟨⟨_, rfl⟩, ⟨_, rfl⟩, ⟨_, rfl⟩, ⟨_, rfl⟩, List.forall_mem_nil _⟩

/-- A trial that is cut off stays undecided. -/
example :
    let g := run "host" id (fun _ : Unit => .ok false)
      { breakers := { settings := { threshold := .int 1, recovery := (0.0 : Float) } }, now := 0.0 }
      [.call 1.0 2.0 (.error false), .call 3.0 4.0 (.error true)]
    (g.breaker "host").status = .trial := by decide +kernel

end Guarded

end Rulebook.Breaker
