/-
  Running rules.

  The enabled rules of a group run in ascending order of their priorities, equal ones in the order
  in which they are given.  A rule whose conditions hold runs its actions, and what it writes is
  seen by the rules after it.  The mode tells how far the run goes and when the group matches.

  * `Engine.finishRule`: the actions of a rule and the record of it;
  * `Engine.runEach`, `Engine.runFirst`: all rules, or those up to the first that matches;
  * `Engine.runRules`, `Engine.runGroup`: rules that are given, or those that a group names.
-/
import Rulebook.Group.Check
import Rulebook.Rule

namespace Rulebook

/-- What came of a group. -/
structure GroupResult where
  group : Option String
  mode : Mode
  matched : Bool
  rules : List RuleResult
  errors : List RuleError

/-- The results of all actions. -/
def GroupResult.actions (r : GroupResult) : List ActionResult :=
  r.rules.flatMap (·.actions)

/-- What runs rules: an executor for their actions and the tests of their conditions. -/
structure Engine where
  executor : Executor
  tests : Tests

namespace Engine

/-! ## One rule -/

/-- Records what came of a rule. -/
def record (rule : Rule) (r : RuleResult) (s : EngineState) : EngineState :=
  { s with
    statistics := s.statistics.recordRule s.clock rule.id 0.0 r.matched r.success rule.category r.error
    metrics := s.metrics.map fun m => m.recordRule r.matched r.success 0.0 }

/-- Runs the actions of a rule if it matched, and records what came of it. -/
def finishRule (x : Engine) (c : Context) (rule : Rule) (matched : Bool) (s : EngineState) :
    Except Fault RuleResult × EngineState :=
  let (actions, s) :=
    if matched && !rule.actions.isEmpty then x.executor.runBatch false c rule.actions s
    else (.ok [], s)
  match actions with
  | .error f => (.error f, s)
  | .ok actions =>
    let r := RuleResult.ofActions rule matched actions
    (.ok r, record rule r s)

/-- Runs a rule. -/
def runRule (x : Engine) (c : Context) (rule : Rule) (s : EngineState) :
    Except Fault RuleResult × EngineState :=
  let (matched, surroundings) := rule.holds x.tests c s.surroundings
  x.finishRule c rule matched { s with surroundings }

/-! ## Several rules -/

/-- Runs rules, one after the other. -/
def runEach (x : Engine) (c : Context) :
    List Rule → EngineState → Except Fault (List RuleResult) × EngineState
  | [], s => (.ok [], s)
  | rule :: rules, s =>
    match x.runRule c rule s with
    | (.error f, s) => (.error f, s)
    | (.ok r, s) =>
      match runEach x c rules s with
      | (.error f, s) => (.error f, s)
      | (.ok rs, s) => (.ok (r :: rs), s)

/-- Runs rules up to the first that matches. -/
def runFirst (x : Engine) (c : Context) :
    List Rule → EngineState → Except Fault (List RuleResult) × EngineState
  | [], s => (.ok [], s)
  | rule :: rules, s =>
    match x.runRule c rule s with
    | (.error f, s) => (.error f, s)
    | (.ok r, s) =>
      if r.matched then (.ok [r], s)
      else
        match runFirst x c rules s with
        | (.error f, s) => (.error f, s)
        | (.ok rs, s) => (.ok (r :: rs), s)

/-- Runs rules as a mode asks. -/
def runBy (x : Engine) (c : Context) (mode : Mode) (rules : List Rule) :
    EngineState → Except Fault (List RuleResult) × EngineState :=
  match mode with
  | .all | .any => x.runEach c rules
  | .firstMatch => x.runFirst c rules

/-- Whether rules with the given results match together. -/
def matchedBy (mode : Mode) (results : List RuleResult) : Bool :=
  match mode with
  | .all => !results.isEmpty && results.all (·.matched)
  | .any | .firstMatch => results.any (·.matched)

/-- The enabled rules in ascending order of their priorities. -/
def ordered (rules : List Rule) : Except Fault (List Rule) :=
  Sorting.sort (fun a b => Data.compareBy .lt a.priority b.priority) (rules.filter (·.enabled))

/-- What a run of a group binds. -/
def bindings (c : Context) (group : Option String) (h : Heap) : List (LogKey × Data) :=
  [(.correlation, h.plain c.correlationId),
    (.group, match group with | some id => .text id | none => .null)]

/-- What came of a group whose rules came to results. -/
def resultOf (group : Option String) (mode : Mode) (results : List RuleResult) : GroupResult where
  group := group
  mode := mode
  matched := matchedBy mode results
  rules := results
  errors := results.filterMap (·.error)

/-- Runs rules in a mode. -/
def runIn (x : Engine) (c : Context) (mode : Mode) (group : Option String) (rules : List Rule)
    (s : EngineState) : Except Fault GroupResult × EngineState :=
  match ordered rules with
  | .error f => (.error f, s)
  | .ok inOrder =>
    let (results, s) := s.within (bindings c group s.heap) (x.runBy c mode inOrder)
    (results.map (resultOf group mode), s)

/-! ## Modes and groups as they are given -/

/-- The error about a mode that there is not. -/
def invalidMode (mode : String) : EngineError where
  kind := .validation
  message := Group.invalidMode mode
  details := .of [("errors", .list [Finding.data
    { code := "INVALID_EXECUTION_MODE", message := Group.invalidMode mode
      field := some "executionMode" }])]

/-- The mode that data names. -/
def readMode (mode : Data) : Except Failure Mode :=
  match Mode.ofData? mode with
  | some m => .ok m
  | none =>
    match mode.asText with
    | .ok text => .error (.engine (invalidMode text))
    | .error f => .error (.fault f)

/-- Runs rules in the mode that data names. -/
def runRules (x : Engine) (c : Context) (mode : Data) (group : Option String) (rules : List Rule)
    (s : EngineState) : Except Failure GroupResult × EngineState :=
  match readMode mode with
  | .error e => (.error e, s)
  | .ok m =>
    let (r, s) := x.runIn c m group rules s
    (r.mapError Failure.fault, s)

/-- The rules of ids, and reports about the ids that have none. -/
def resolveMembers (rules : Keyed String Rule) : List String → List Rule × List RuleError
  | [] => ([], [])
  | id :: ids =>
    let (found, missing) := resolveMembers rules ids
    match rules.get? id with
    | some rule => (rule :: found, missing)
    | none => (found, .ruleNotFound id :: missing)

/-- Runs the rules that a group names. -/
def runGroup (x : Engine) (c : Context) (rules : Keyed String Rule) (g : Group) (s : EngineState) :
    Except Failure GroupResult × EngineState :=
  match g.members with
  | none => (.error (.fault (.notIterable "NoneType")), s)
  | some ids =>
    let (found, missing) := resolveMembers rules ids
    match x.runRules c g.mode (some g.id) found s with
    | (.ok r, s) => (.ok { r with errors := missing ++ r.errors }, s)
    | (.error e, s) => (.error e, s)

end Engine

end Rulebook
