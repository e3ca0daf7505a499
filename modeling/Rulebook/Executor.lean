/-
  Running actions.

  An action is run by the handler of its type, within a time of its own.  Actions of a batch run one
  after the other in ascending order; an action whose guard fails is skipped, and one that fails
  leaves an error in its place and does not keep the others from running.

  * `Executor.execute`: one action, with the errors that it may end in;
  * `Executor.settle`: one action of a batch, which always comes to a result and is recorded;
  * `Executor.runBatch`: a batch, its results in the places of its actions.
-/
import Rulebook.Action
import Rulebook.Handler.Standard
import Rulebook.Log.Context
import Rulebook.Metrics
import Rulebook.Sorting
import Rulebook.Statistics

namespace Rulebook

/-! ## Results and state -/

/-- The result of an action of a batch. -/
structure ActionResult where
  actionId : Data
  actionType : String
  success : Bool
  result : Value := .null
  error : Option String := none
  skipped : Bool := false

/-- How an action ended. -/
def ActionResult.status (r : ActionResult) : ActionStatus :=
  if r.skipped then .skipped else if r.success then .success else .failure

/-- What runs work on and what they leave. -/
structure EngineState where
  surroundings : Surroundings
  statistics : Statistics Float
  /-- What is collected for monitoring, if anything is. -/
  metrics : Option (Metrics Float)
  /-- The time of day. -/
  clock : Instant

namespace EngineState

/-- The heap. -/
def heap (s : EngineState) : Heap :=
  s.surroundings.heap

/-- Keeps a heap. -/
def setHeap (s : EngineState) (h : Heap) : EngineState :=
  { s with surroundings := { s.surroundings with heap := h } }

/-- What is known for the log. -/
def log (s : EngineState) : LogContext :=
  s.surroundings.log

/-- Keeps a log context. -/
def setLog (s : EngineState) (log : LogContext) : EngineState :=
  { s with surroundings := { s.surroundings with log } }

/-- Runs something within a scope of the log context, whose bindings are taken back after it. -/
def within {α : Type} (bindings : List (LogKey × Data)) (body : EngineState → α × EngineState)
    (s : EngineState) : α × EngineState :=
  let (log, saved) := s.log.enter bindings []
  let (a, s) := body (s.setLog log)
  (a, s.setLog (s.log.leave saved))

end EngineState

/-! ## Executors -/

/-- Handlers by type and the settings that they run under. -/
structure Executor where
  config : Config
  handlers : Keyed String Handler

namespace Executor

/-- The handler of a type is set or replaced. -/
def register (x : Executor) (type : String) (handler : Handler) : Executor :=
  { x with handlers := x.handlers.put type handler }

/-! ## One action -/

/-- The time that an action may take, in milliseconds: a number above zero among its parameters,
    else the one that is set. -/
def timeLimit (x : Executor) (parameters : Details) : Except Fault Float :=
  let usual := (Number.int x.config.actionTimeout).toFloat
  match parameters.parameter "timeout" with
  | .int n => if n ≤ 0 then usual else (Number.int n).toFloat
  | .float t => if t ≤ 0.0 then usual else .ok t
  | _ => usual

/-- The error that a fault of a handler is told as. -/
def faultError (a : Action) (f : Fault) : EngineError :=
  let message := if f.kind = .timeout ∧ f.message = "" then FaultKind.timeout.name else f.message
  .handler (a.type ++ " failed: " ++ message)
    (.of [("action_id", a.id), ("error_type", .text f.kind.name)])

/-- What is told of how a handler ended. -/
def settled (a : Action) (milliseconds : Float) : Except Act.Stop Value → Except Failure Value
  | .ok v => .ok v
  | .error .cut =>
    .error (.engine (.timedOut milliseconds
      (.of [("action_id", a.id), ("action_type", .text a.type)])))
  | .error (.failed (.engine e)) => .error (.engine e)
  | .error (.failed (.fault f)) => .error (.engine (faultError a f))

/-- The result of doing something, and the surroundings after it. -/
def outcome {α : Type} (act : Act α) (s : Surroundings) : Except Act.Stop α × Surroundings :=
  match act s with
  | .ok a s => (.ok a, s)
  | .error e s => (.error e, s)

/-- Does something that has a time of so many seconds. It is cut off where it waits when they are
    over, and with none of them it is not even started. What it binds for the log is its own. -/
def inTime {α : Type} (seconds : Float) (act : Float → Act α) (s : Surroundings) :
    Except Act.Stop α × Surroundings :=
  if seconds ≤ 0.0 then (.error .cut, s)
  else
    let deadline := s.now + seconds
    let (r, after) := outcome (act deadline) { s with limit := some deadline }
    (r, { after with limit := s.limit, log := s.log })

/-- Runs an action. -/
def execute (x : Executor) (a : Action) (c : Context) (s : Surroundings) :
    Except Failure Value × Surroundings :=
  match x.handlers.get? a.type with
  | none => (.error (.engine (.unknownActionType a.type (.of [("action_id", a.id)]))), s)
  | some handler =>
    match handler.check a.parameters s with
    | .error e s => (.error e, s)
    | .ok () s =>
      match x.timeLimit a.parameters with
      | .error f => (.error (.fault f), s)
      | .ok milliseconds =>
        let (r, s) := inTime (milliseconds / 1000.0) (handler.run a.parameters c) s
        (settled a milliseconds r, s)

/-! ## Guards -/

/-- The seconds that a guard may take. -/
def guardTime (x : Executor) : Except Fault Float :=
  (Number.int x.config.guardTimeout).toFloat.map (· / 1000.0)

/-- The fault that a batch ends in at an action, if it does: an action with a guard needs the time of
    guards, and that may be too large for a double. -/
def guardFault? (x : Executor) (a : Action) : Option Fault :=
  if a.guard.truth then
    match x.guardTime with
    | .ok _ => none
    | .error f => some f
  else none

/-- Whether the guard of an action holds within so many seconds, and the heap after it. A guard that
    cannot be evaluated does not hold. -/
def guardHolds (a : Action) (c : Context) (seconds : Float) (s : Surroundings) : Bool × Heap :=
  match c.names s.heap with
  | .error _ => (false, s.heap)
  | .ok (names, h) =>
    let (source, h) := h.load a.guard
    let scope : Script.Scope :=
      { names, budget := Script.guardBudget, deadline := s.lastStep seconds
        charNames := s.charNames }
    match Script.guardHolds h scope source with
    | (.ok b, h) => (b, h)
    | (.error _, h) => (false, h)

/-- Whether an action is run, and the heap after its guard. -/
def mayRun (x : Executor) (a : Action) (c : Context) (s : Surroundings) : Bool × Heap :=
  if a.guard.truth then
    match x.guardTime with
    | .ok seconds => guardHolds a c seconds s
    -- no batch comes to such a guard, see `guardFault?`
    | .error _ => (false, s.heap)
  else (true, s.heap)

/-! ## Batches -/

/-- The result of an action that was skipped. -/
def skipped (a : Action) : ActionResult :=
  { actionId := a.id, actionType := a.type, success := true, skipped := true }

/-- What a failure counts as. -/
def failureCode : Failure → String
  | .engine e => e.code
  | .fault f => f.kind.name

/-- What is told of a failure. -/
def failureText : Failure → String
  | .engine e => e.message
  | .fault f => if f.message = "" then f.kind.name else f.message

/-- The result of an action that was run. -/
def resultOf (a : Action) : Except Failure Value → ActionResult
  | .ok v => { actionId := a.id, actionType := a.type, success := true, result := v }
  | .error e =>
    { actionId := a.id, actionType := a.type, success := false, error := some (failureText e) }

/-- Records the result of an action. Errors that someone else reports stay out of the feed. -/
def record (report : Bool) (r : ActionResult) (s : EngineState) : EngineState :=
  let s := { s with metrics := s.metrics.map fun m => m.recordAction r.actionType r.status.name 0.0 }
  if r.skipped then s
  else
    let error := if report then r.error else none
    { s with statistics := s.statistics.recordAction r.actionType 0.0 r.success error }

/-- Counts a failure. -/
def countFailure (s : EngineState) : Except Failure Value → EngineState
  | .ok _ => s
  | .error e => { s with metrics := s.metrics.map fun m => m.recordError (failureCode e) none }

/-- Brings an action of a batch to its result. -/
def settle (x : Executor) (report : Bool) (c : Context) (a : Action) (s : EngineState) :
    ActionResult × EngineState :=
  match x.mayRun a c s.surroundings with
  | (false, h) => (skipped a, record report (skipped a) (s.setHeap h))
  | (true, h) =>
    let (r, around) := x.execute a c (s.setHeap h).surroundings
    let s := countFailure { s with surroundings := around } r
    (resultOf a r, record report (resultOf a r) s)

/-- Brings actions to their results, one after the other. -/
def settleAll (x : Executor) (report : Bool) (c : Context) :
    List (Nat × Action) → EngineState → Except Fault (List (Nat × ActionResult)) × EngineState
  | [], s => (.ok [], s)
  | (i, a) :: rest, s =>
    match x.guardFault? a with
    | some f => (.error f, s)
    | none =>
      let (r, s) := x.settle report c a s
      let (rs, s) := settleAll x report c rest s
      (rs.map ((i, r) :: ·), s)

/-- The actions of a batch with their places, in the order in which they run. -/
def ordered (actions : List Action) : Except Fault (List (Nat × Action)) :=
  Sorting.sort (fun a b => Data.compareBy .lt a.2.order b.2.order)
    ((List.range actions.length).zip actions)

/-- Results in the order of their places. -/
def inPlace (n : Nat) (results : List (Nat × ActionResult)) : List ActionResult :=
  (List.range n).filterMap fun i => results.lookup i

/-- What a context binds while a batch runs. -/
def bindings (c : Context) (h : Heap) : List (LogKey × Data) :=
  [(.correlation, h.plain c.correlationId), (.user, h.plain c.userId), (.entity, h.plain c.entityId)]

/-- Runs a batch of actions; a fault means that their orders cannot be compared, or that there is no
    time for guards. -/
def runBatch (x : Executor) (report : Bool) (c : Context) (actions : List Action)
    (s : EngineState) : Except Fault (List ActionResult) × EngineState :=
  match ordered actions with
  | .error f => (.error f, s)
  | .ok inOrder =>
    let (results, s) := s.within (bindings c s.heap) (x.settleAll report c inOrder)
    (results.map (inPlace actions.length), s)

end Executor

end Rulebook
