/-
  The service: rules and groups that are kept, the engine that runs them, and what is known of its
  runs.

  Each operation gives its answer and the service after it.  An operation that fails may have done
  part of its work, and the service after it says so.
-/
import Rulebook.Engine
import Rulebook.Group.Edit
import Rulebook.Statistics.Summary

namespace Rulebook

/-- A service. -/
structure Service where
  engine : Engine
  rules : Keyed String Rule := {}
  groups : GroupStore := {}
  state : EngineState

namespace Service

/-- The name of the service. -/
def name : String := "rules"

/-- The version of the service. -/
def version : String := "1.0.0"

/-- The answer of an operation and the service after it. -/
abbrev Answer (α : Type) := Except Failure α × Service

/-- A service that nothing was asked of. -/
def fresh (config : Config) (handlers : Keyed String Handler) (surroundings : Surroundings)
    (clock : Instant) : Except Fault Service := do
  let statistics ← Statistics.empty config.errorLimit
  return {
    engine := { executor := { config, handlers }, tests := standardTests }
    state := {
      surroundings, statistics, clock
      metrics := if config.metrics then some (Metrics.fresh name) else none } }

/-- The settings. -/
def config (s : Service) : Config :=
  s.engine.executor.config

/-! ## Rules -/

/-- Keeps a rule. -/
def saveRule (s : Service) (r : Rule) : Service :=
  { s with rules := s.rules.put r.id r }

/-- Removes a rule, and tells whether it was there. -/
def deleteRule (s : Service) (id : String) : Bool × Service :=
  (s.rules.contains id, { s with rules := s.rules.erase id })

/-! ## Groups -/

/-- What groups are checked against. -/
def groupRules (s : Service) : GroupRules where
  config := s.config
  known := s.rules.contains

/-- Tells the monitoring how many groups there are. -/
def publishGroups (s : Service) : Service :=
  { s with state := { s.state with
      metrics := s.state.metrics.map fun m => m.setGroups (Float.ofNat s.groups.size) } }

/-- Does something with the groups. What it leaves of them is kept, also if it fails. -/
def withGroups {α : Type} (s : Service) (operation : GroupStore.Operation α) : Answer α :=
  match operation s.groups with
  | .ok a groups => (.ok a, { s with groups })
  | .error e groups => (.error e, { s with groups })

/-- Tells the monitoring of the groups if an operation on them did not fail. -/
def published {α : Type} : Answer α → Answer α
  | (.ok a, s) => (.ok a, s.publishGroups)
  | (.error e, s) => (.error e, s)

/-- An operation on the groups changes nothing else. -/
theorem withGroups_snd {α : Type} (s : Service) (operation : GroupStore.Operation α) :
    ∃ groups, (s.withGroups operation).2 = { s with groups } := by
  unfold withGroups
  split
  · exact ⟨_, rfl⟩
  · exact ⟨_, rfl⟩

theorem published_snd {α : Type} (a : Answer α) :
    (published a).2 = a.2 ∨ (published a).2 = a.2.publishGroups := by
  rcases a with ⟨e | a, s⟩
  · exact .inl rfl
  · exact .inr rfl

/-- Makes a group. -/
def createGroup (s : Service) (id : String) (draft : Submission GroupDraft) : Answer Group :=
  published (s.withGroups (GroupStore.create s.groupRules id s.state.clock draft))

/-- Changes a group. -/
def editGroup (s : Service) (id : String) (e : GroupEdit) : Answer Group :=
  s.withGroups (GroupStore.edit s.groupRules id e)

/-- Removes a group. -/
def deleteGroup (s : Service) (id : String) : Answer Unit :=
  published (s.withGroups (GroupStore.delete id))

/-- Saves a group as it is. -/
def storeGroup (s : Service) (g : Group) (expected : Option Int) : Answer Group :=
  s.withGroups (GroupStore.save g expected)

/-! ## Runs -/

/-- The service after a run. -/
def after {α : Type} (s : Service) (r : α × EngineState) : α × Service :=
  (r.1, { s with state := r.2 })

/-- Runs a group. -/
def runGroup (s : Service) (id : String) (c : Context) : Answer GroupResult :=
  match s.groups.require id with
  | .error e => (.error (.engine e), s)
  | .ok g => s.after (s.engine.runGroup c s.rules g s.state)

/-- Runs rules that are given. -/
def runRules (s : Service) (rules : List Rule) (mode : Data) (c : Context) : Answer GroupResult :=
  s.after (s.engine.runRules c mode none rules s.state)

/-- Runs a batch of actions. -/
def runActions (s : Service) (actions : List Action) (report : Bool) (c : Context) :
    Answer (List ActionResult) :=
  let (r, s) := s.after (s.engine.executor.runBatch report c actions s.state)
  (r.mapError Failure.fault, s)

/-- Runs an action alone; nothing is recorded of it. -/
def runAction (s : Service) (a : Action) (c : Context) : Answer Value :=
  let (r, surroundings) := s.engine.executor.execute a c s.state.surroundings
  (r, { s with state := { s.state with surroundings } })

/-! ## Extensions -/

/-- Sets or replaces the handler of a type. -/
def register (s : Service) (type : String) (handler : Handler) : Service :=
  { s with engine := { s.engine with executor := s.engine.executor.register type handler } }

/-- Sets or replaces a test of conditions. -/
def registerTest (s : Service) (name : String) (test : Test) : Service :=
  { s with engine := { s.engine with tests := s.engine.tests.register name test } }

/-- The types of actions that have handlers. -/
def actionTypes (s : Service) : List String :=
  s.engine.executor.handlers.keys

/-! ## Health -/

/-- How the service is. -/
structure Health where
  groups : Nat
  actionTypes : List String
  executions : Nat
  errorRate : Float
  /-- The services that are cut off. -/
  openCircuits : List String

/-- Whether everything works. -/
def Health.status (h : Health) : String :=
  if h.openCircuits.isEmpty then "ok" else "degraded"

/-- The services that the handler for calls cuts off; other handlers of that type cut off none. -/
def openCircuits (s : Service) : List String :=
  match s.engine.executor.handlers.get? Handler.callServiceType with
  | some h => if h.cutsOff then s.state.surroundings.breakers.openCircuits else []
  | none => []

/-- The summary of all statistics. -/
def summary (s : Service) : Except Fault (StatisticsSummary Float) :=
  s.state.statistics.summary s.config s.state.clock

/-- How the service is; a fault means that there is no summary of its statistics. -/
def health (s : Service) : Except Fault Health := do
  let summary ← s.summary
  return { groups := s.groups.size
           actionTypes := s.actionTypes
           executions := summary.total.executions
           errorRate := summary.errorRate
           openCircuits := s.openCircuits }

end Service

end Rulebook
