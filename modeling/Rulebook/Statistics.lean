/-
  Statistics of rules and actions.

  Every execution of a rule and of an action is counted under its id or type; means are kept up to
  date from the last mean and the number of executions.  A bounded feed holds the newest errors.
  Records are made on the first execution and cleared by `reset` only.

  * `recordRule`, `recordAction`: one execution;
  * `popular`, `unhealthy`, `recentErrors`: what dashboards ask for, of equal rank those first that
    were recorded first.
-/
import Rulebook.Keyed
import Rulebook.Number.Quantity
import Rulebook.Number.Word
import Rulebook.RuleError

namespace Rulebook

/-! ## Records -/

/-- What executions have in common: how many there were, how many failed, and how long they took. -/
structure Record (τ : Type) where
  executions : Nat := 0
  errors : Nat := 0
  /-- The part of the executions that succeeded. -/
  rate : τ
  /-- The mean time of an execution, in milliseconds. -/
  mean : τ

namespace Record

variable {τ : Type} [Quantity τ]

/-- No execution. -/
def fresh : Record τ := { rate := Quantity.ofNat 1, mean := Quantity.zero }

/-- One more execution. -/
def add (r : Record τ) (time : τ) (success : Bool) : Record τ :=
  let n := r.executions + 1
  let errors := if success then r.errors else r.errors + 1
  { executions := n
    errors
    rate := Quantity.share (n - errors) n
    mean := Quantity.nextMean r.mean n time }

theorem executions_add (r : Record τ) (time : τ) (success : Bool) :
    (r.add time success).executions = r.executions + 1 := rfl

end Record

/-- The statistics of a rule. -/
structure RuleStatistics (τ : Type) extends Record τ where
  rule : String
  matchCount : Nat := 0
  lastExecuted : Option Instant := none
  lastMatched : Option Instant := none

/-- The statistics of an action type. -/
structure ActionStatistics (τ : Type) extends Record τ where
  type : String

/-! ## All statistics -/

/-- The statistics of an engine. -/
structure Statistics (τ : Type) where
  /-- The most errors that the feed holds. -/
  errorLimit : Nat
  rules : Keyed String (RuleStatistics τ) := {}
  actions : Keyed String (ActionStatistics τ) := {}
  /-- The newest errors, the oldest of them first. -/
  feed : List RuleError := []
  categories : Tally String := {}
  hours : Tally String := {}
  total : Record τ

namespace Statistics

variable {τ : Type} [Quantity τ]

/-- Statistics without any execution, for a feed of a given length. -/
def empty (errorLimit : Int) : Except Fault (Statistics τ) :=
  if errorLimit < 0 then .error .negativeBound
  else if Word.largest < errorLimit then .error (.machineInteger "ssize_t")
  else .ok { errorLimit := errorLimit.toNat, total := Record.fresh }

/-- All statistics cleared. -/
def reset (s : Statistics τ) : Statistics τ :=
  { errorLimit := s.errorLimit, total := Record.fresh }

/-- The statistics of a rule. -/
def rule (s : Statistics τ) (id : String) : RuleStatistics τ :=
  (s.rules.get? id).getD { Record.fresh with rule := id }

/-- The statistics of an action type. -/
def action (s : Statistics τ) (type : String) : ActionStatistics τ :=
  (s.actions.get? type).getD { Record.fresh with type }

/-- Adds an error to the feed; if it is full, its oldest error goes. -/
def report (s : Statistics τ) (e : RuleError) : Statistics τ :=
  let feed := s.feed ++ [e]
  { s with feed := feed.drop (feed.length - s.errorLimit) }

/-- The hour of an instant. -/
def hourText (now : Instant) : String :=
  Instant.padded 2 now.fields.hour

/-- Records an execution of a rule. -/
def recordRule (s : Statistics τ) (now : Instant) (id : String) (time : τ)
    (matched success : Bool) (category : Option String) (error : Option RuleError) :
    Statistics τ :=
  let r := s.rule id
  let r : RuleStatistics τ :=
    { r with
      toRecord := r.toRecord.add time success
      lastExecuted := some now
      matchCount := if matched then r.matchCount + 1 else r.matchCount
      lastMatched := if matched then some now else r.lastMatched }
  let s := { s with
    rules := s.rules.put id r
    total := s.total.add time success
    categories :=
      match category with
      | none | some "" => s.categories
      | some c => s.categories.add c
    hours := s.hours.add (hourText now) }
  match error with
  | some e => s.report e
  | none => if success then s else s.report (.ruleFailed id)

/-- Records an execution of an action. -/
def recordAction (s : Statistics τ) (type : String) (time : τ) (success : Bool)
    (error : Option String) : Statistics τ :=
  let a := s.action type
  let s := { s with
    actions := s.actions.put type { a with toRecord := a.toRecord.add time success } }
  match success, error with
  | true, _ | _, none | _, some "" => s
  | false, some e => s.report (.actionFailed type e)

/-! ## What dashboards ask for -/

/-- How many rules or errors a list has unless it is told. -/
def usualLimit : Int := 10

/-- How often rules have to be executed before they can count as unhealthy, unless it is told. -/
def usualExecutions : Int := 10

/-- The part of executions that has to succeed in a healthy rule, unless it is told. -/
def usualRate : τ := Quantity.share 9 10

/-- The rules with the most executions, at most `limit` of them. -/
def popular (s : Statistics τ) (limit : Int) : List (RuleStatistics τ) :=
  (s.rules.values.mergeSort fun a b => b.executions ≤ a.executions).take limit.toNat

/-- The newest errors, the newest first, at most `limit` of them. -/
def recentErrors (s : Statistics τ) (limit : Int) : List RuleError :=
  s.feed.reverse.take limit.toNat

/-- The rules with enough executions of which too few succeeded, the worst first. -/
def unhealthy (s : Statistics τ) (leastRate : τ) (leastExecutions : Int) :
    List (RuleStatistics τ) :=
  (s.rules.values.filter fun r =>
    leastExecutions ≤ r.executions && Quantity.less r.rate leastRate).mergeSort
      fun a b => !Quantity.less b.rate a.rate

/-- The part of all executions of rules that failed. -/
def errorRate (s : Statistics τ) : τ :=
  if s.total.executions = 0 then Quantity.zero
  else Quantity.share s.total.errors s.total.executions

/-- The instant some seconds before another. -/
def secondsBefore (now : Instant) (seconds : Int) : Except Fault Instant :=
  let days := seconds.fdiv 86400
  if !Word.fitsHalf days then .error (.machineInteger "int")
  else if Duration.maxDays < days.natAbs then .error (.spanOutOfRange days)
  else
    let t := { now with wall := now.wall - seconds * Instant.microsPerSecond }
    if Instant.inRange t.wall then .ok t else .error .dateOutOfRange

/-- The number of rules that were executed since an instant. -/
def activeSince (s : Statistics τ) (since : Instant) : Nat :=
  s.rules.values.countP fun r =>
    match r.lastExecuted with
    | some t => since.universal ≤ t.universal
    | none => false

end Statistics

end Rulebook
