/-
  Circuit breakers.

  A `Breaker` counts the failures in a row of one target.  When they reach the threshold it opens
  and blocks calls for the recovery time; the first call after that is a trial, which closes the
  breaker or opens it again.  A call has two steps, `start?` and `finish`, so that calls may overlap.
  `Breakers` keeps one breaker per target, made on first use.

  * `start?_of_closed`, `start?_of_open`: which calls are let through;
  * `finish_success`, `failures_finish`: what a finished call leaves.
-/
import Rulebook.Data.Conversion
import Rulebook.Keyed
import Rulebook.Number.Quantity

namespace Rulebook

/-! ## One breaker -/

/-- What a breaker does with the next call. -/
inductive Breaker.Status where
  /-- Lets it through. -/
  | closed
  /-- Blocks it until the recovery time is over. -/
  | opened
  /-- Waits for a trial call to finish. -/
  | trial
  deriving DecidableEq, Repr

/-- When a breaker opens, and for how long. -/
structure Breaker.Settings (τ : Type) where
  threshold : Number := .int 5
  recovery : τ

/-- A breaker. -/
structure Breaker (τ : Type) where
  status : Breaker.Status := .closed
  failures : Nat := 0
  successes : Nat := 0
  openedAt : τ

namespace Breaker

variable {τ : Type}

/-- Whether a count of failures reaches the threshold. -/
def reaches (s : Settings τ) (failures : Nat) : Bool :=
  match (Number.int failures).order s.threshold with
  | some .lt => false
  | some _ => true
  | none => false

/-- Counts a success, which closes the breaker. -/
def succeed (b : Breaker τ) : Breaker τ :=
  { b with status := .closed, failures := 0, successes := b.successes + 1 }

/-- Counts a failure, which may open the breaker. -/
def fail (s : Settings τ) (b : Breaker τ) (now : τ) : Breaker τ :=
  let b := { b with failures := b.failures + 1, successes := 0 }
  if b.status = .trial ∨ (b.status = .closed ∧ reaches s b.failures) then
    { b with status := .opened, openedAt := now }
  else b

/-- Finishes a call. -/
def finish (s : Settings τ) (b : Breaker τ) (now : τ) (success : Bool) : Breaker τ :=
  if success then b.succeed else b.fail s now

theorem finish_success (s : Settings τ) (b : Breaker τ) (now : τ) :
    (b.finish s now true).status = .closed ∧ (b.finish s now true).failures = 0 :=
  ⟨rfl, rfl⟩

theorem failures_finish (s : Settings τ) (b : Breaker τ) (now : τ) :
    (b.finish s now false).failures = b.failures + 1 := by
  simp only [finish, fail]
  split <;> simp_all [apply_ite]

variable [Quantity τ]

/-- A breaker that no call has gone through. -/
def fresh : Breaker τ := { openedAt := Quantity.zero }

/-- The time until an open breaker lets a trial call through. -/
def retryAfter (s : Settings τ) (b : Breaker τ) (now : τ) : τ :=
  if b.status = .opened then
    let left := Quantity.sub s.recovery (Quantity.sub now b.openedAt)
    if Quantity.less Quantity.zero left then left else Quantity.zero
  else Quantity.zero

/-- Starts a call, unless the breaker blocks it. -/
def start? (s : Settings τ) (b : Breaker τ) (now : τ) : Option (Breaker τ) :=
  if b.status ≠ .opened then some b
  else if Quantity.less Quantity.zero (b.retryAfter s now) then none
  else some { b with status := .trial }

/-- The breaker closed, its past forgotten. -/
def reset (_ : Breaker τ) : Breaker τ := fresh

theorem start?_of_closed (s : Settings τ) {b : Breaker τ} (now : τ) (h : b.status = .closed) :
    b.start? s now = some b := by
  simp [start?, h]

theorem start?_of_open (s : Settings τ) {b : Breaker τ} (now : τ) (h : b.status = .opened) :
    b.start? s now =
      if Quantity.less Quantity.zero (b.retryAfter s now) then none
      else some { b with status := .trial } := by
  simp [start?, h]

/-- What a caller is told whose call is blocked. -/
def blockedMessage (name : String) : String :=
  "Circuit breaker '" ++ name ++ "' is OPEN - blocking call"

/-- The name of a status in reports. -/
def Status.name : Status → String
  | closed => "closed"
  | opened => "open"
  | trial => "half_open"

/-- The decimal places of times in reports. -/
def reportPlaces : Int := 3

/-- The time until a trial call, as it is reported. -/
def reportedWait (s : Settings Float) (b : Breaker Float) (now : Float) : Float :=
  let wait := b.retryAfter s now
  (roundFloat wait reportPlaces).getD wait

end Breaker

/-! ## Breakers by target -/

/-- The breakers of several targets, in the order of their first use. -/
structure Breakers (τ : Type) where
  settings : Breaker.Settings τ
  byTarget : Keyed String (Breaker τ) := {}

namespace Breakers

variable {τ : Type} [Quantity τ]

/-- The breaker of a target. -/
def get (bs : Breakers τ) (name : String) : Breaker τ :=
  (bs.byTarget.get? name).getD Breaker.fresh

/-- Keeps the breaker of a target. -/
def put (bs : Breakers τ) (name : String) (b : Breaker τ) : Breakers τ :=
  { bs with byTarget := bs.byTarget.put name b }

/-- Changes the breaker of a target. -/
def update (bs : Breakers τ) (name : String) (f : Breaker τ → Breaker τ) : Breakers τ :=
  bs.put name (f (bs.get name))

/-- The targets that are cut off, in the order of their names. -/
def openCircuits (bs : Breakers τ) : List String :=
  ((bs.byTarget.entries.filter fun e => e.2.status = .opened).map (·.1)).mergeSort fun s t => s ≤ t

/-- All breakers closed. -/
def resetAll (bs : Breakers τ) : Breakers τ :=
  { bs with byTarget := bs.byTarget.map Breaker.reset }

theorem get_put_self (bs : Breakers τ) (name : String) (b : Breaker τ) :
    (bs.put name b).get name = b := by
  simp [get, put, Keyed.get?_put_self]

theorem get_put_of_ne (bs : Breakers τ) {name other : String} (b : Breaker τ) (h : other ≠ name) :
    (bs.put name b).get other = bs.get other := by
  simp [get, put, Keyed.get?_put_of_ne _ b h]

/-- How a call through a breaker went. -/
inductive Called (τ ε α : Type) where
  /-- The breaker blocked it. -/
  | blocked (retryAfter : τ)
  | returned (a : α)
  | raised (e : ε)

/-- Calls a target, unless its breaker blocks the call. The target works on a state that holds the
    breakers and the clock. A call fails if the target raises, or if `isFailure` holds of what it
    returns; a fault of that test leaves the breaker as it is, and so does an error that `passes`. -/
def call {σ ε α : Type} (breakers : σ → Breakers τ) (keep : Breakers τ → σ → σ) (now : σ → τ)
    (name : String) (passes : ε → Bool) (isFailure : α → Except ε Bool)
    (target : σ → Except ε α × σ) (s : σ) : Called τ ε α × σ :=
  let bs := breakers s
  let b := bs.get name
  match b.start? bs.settings (now s) with
  | none => (.blocked (b.retryAfter bs.settings (now s)), keep (bs.put name b) s)
  | some b =>
    let (r, s) := target (keep (bs.put name b) s)
    let finished (success : Bool) : σ :=
      let bs := breakers s
      keep (bs.update name fun b => b.finish bs.settings (now s) success) s
    match r with
    | .error e => (.raised e, if passes e then s else finished false)
    | .ok a =>
      match isFailure a with
      | .ok failed => (.returned a, finished !failed)
      | .error e => (.raised e, s)

end Breakers

end Rulebook
