/-
  Trying again after failures.

  A `Backoff` says how often a task is tried and how long to wait between two attempts.
  `Backoff.run` tries a task on a state that holds the clock; it gives up after the last attempt
  that is allowed, and earlier if the next wait would reach the deadline.
-/
import Rulebook.Number.Arithmetic

namespace Rulebook

namespace Number

/-- The greater of two numbers, the first if neither is. -/
def max (a b : Number) : Number :=
  if b.order a = some .gt then b else a

/-- The lesser of two numbers, the first if neither is. -/
def min (a b : Number) : Number :=
  if b.order a = some .lt then b else a

/-- The least count that is not below a number; `none` if there is none. -/
def ceilCount? : Number → Option Nat
  | int n => some n.toNat
  | float x =>
    match Binary64.parts x with
    | .finite n m e => some (Binary64.ceil (.finite n m e)).toNat
    | .infinite true => some 0
    | _ => none

end Number

/-- How waits grow. -/
inductive Backoff.Growth where
  | exponential | linear | constant
  deriving DecidableEq, Repr

/-- How often a task is tried, and how long to wait in between. -/
structure Backoff where
  attempts : Number := .int 3
  base : Number := .float 1.0
  most : Number := .float 60.0
  factor : Number := .float 2.0
  growth : Backoff.Growth := .exponential

namespace Backoff

/-- The growth of a name; any other name means that waits do not grow. -/
def Growth.ofName : String → Growth
  | "exponential" => exponential
  | "linear" => linear
  | _ => constant

/-- The number of attempts: at least one. -/
def allowed (b : Backoff) : Number :=
  Number.max (.int 1) b.attempts

/-- The wait after an attempt, counted from one. -/
def delay (b : Backoff) (attempt : Int) : Except Fault Number := do
  let grown ←
    match b.growth with
    | .exponential => do b.base.mul (← b.factor.pow (.int (attempt - 1)))
    | .linear => b.base.mul (.int attempt)
    | .constant => .ok b.base
  return Number.max (.float 0.0) (Number.min grown b.most)

/-- How a task ended. -/
inductive Ended (ε α : Type) where
  | returned (a : α)
  /-- The task raised what is not tried again. -/
  | raised (e : ε)
  /-- No further attempt was allowed. -/
  | gaveUp (attempts : Nat) (last : ε)
  /-- A wait could not be computed. -/
  | fault (f : Fault)

/-- What is told of a task that was given up. -/
def gaveUpMessage (name : String) (attempts : Nat) (last : String) : String :=
  s!"{name} failed after {attempts} attempts: {last}"

/-- A task on a state with a clock. -/
structure Task (σ ε α : Type) where
  call : σ → Except ε α × σ
  /-- Whether a failure is worth another attempt. -/
  again : ε → Bool
  now : σ → Number
  /-- Waits; whatever ends the wait early ends the task. -/
  sleep : Number → σ → Except ε Unit × σ
  deadline : Option Number

/-- Whether a wait from now on reaches the deadline. -/
def outOfTime (deadline : Option Number) (now delay : Number) : Except Fault Bool :=
  match deadline with
  | none => .ok false
  | some d => do
    let t ← now.add delay
    match t.order d with
    | some .lt => return false
    | some _ => return true
    | none => return false

/-- Tries a task, with `left` more attempts after this one, `before` attempts being over. -/
def tries {σ ε α : Type} (b : Backoff) (t : Task σ ε α) : Nat → Nat → σ → Ended ε α × σ
  | left, before, s =>
    match t.call s with
    | (.ok a, s) => (.returned a, s)
    | (.error e, s) =>
      if !t.again e then (.raised e, s)
      else
        let wait : Except Fault (Number × Bool) := do
          let delay ← b.delay (before + 1)
          return (delay, ← outOfTime t.deadline (t.now s) delay)
        match wait, left with
        | .error f, _ => (.fault f, s)
        | .ok (_, _), 0 => (.gaveUp (before + 1) e, s)
        | .ok (delay, late), left + 1 =>
          if late then (.gaveUp (before + 1) e, s)
          else
            match t.sleep delay s with
            | (.error e, s) => (.raised e, s)
            | (.ok (), s) => tries b t left (before + 1) s

/-- Stands for the number of attempts that has no bound. -/
def endless : Nat := Nat.pow 2 64

/-- Tries a task as often as is allowed. -/
def run {σ ε α : Type} (b : Backoff) (t : Task σ ε α) (s : σ) : Ended ε α × σ :=
  tries b t ((b.allowed.ceilCount?.getD endless) - 1) 0 s

end Backoff

end Rulebook
