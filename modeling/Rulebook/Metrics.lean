/-
  Metrics: counters and histograms that a monitoring system collects.

  Counters carry labels; a histogram counts observations by bucket and sums them up.
  `Metrics.samples` lists everything as named samples; labelled metrics have a sample only once
  they were used.

  Counters, histograms and their samples follow what is documented of prometheus_client: the default
  bounds of buckets, buckets that are cumulative in the samples, the endings of the names of a
  histogram's samples, and the label of a bucket's bound.
-/
import Rulebook.Keyed
import Rulebook.Number.Quantity

namespace Rulebook

/-! ## Histograms -/

/-- The bounds of buckets, in thousandths, and their names. The last bucket has no bound. -/
def Histogram.bounds : List (Nat × String) :=
  [(5, "0.005"), (10, "0.01"), (25, "0.025"), (50, "0.05"), (75, "0.075"), (100, "0.1"),
    (250, "0.25"), (500, "0.5"), (750, "0.75"), (1000, "1.0"), (2500, "2.5"), (5000, "5.0"),
    (7500, "7.5"), (10000, "10.0")]

/-- The name of the last bucket. -/
def Histogram.unbounded : String := "+Inf"

/-- Observations by bucket, and their sum. -/
structure Histogram (τ : Type) where
  /-- How many observations fell into each bucket. -/
  buckets : Tally String := {}
  sum : τ

namespace Histogram

variable {τ : Type} [Quantity τ]

/-- No observation. -/
def empty : Histogram τ := { sum := Quantity.zero }

/-- The first bucket that an observation fits into; none for what has no order. -/
def bucket? (x : τ) : Option String :=
  match bounds.find? fun b => Quantity.atMost x (Quantity.share b.1 1000) with
  | some b => some b.2
  | none => if Quantity.atMost x x then some unbounded else none

/-- One more observation. -/
def observe (h : Histogram τ) (x : τ) : Histogram τ :=
  { buckets := match bucket? x with | some b => h.buckets.add b | none => h.buckets
    sum := Quantity.add h.sum x }

/-- The number of observations in buckets. -/
def count (h : Histogram τ) : Nat :=
  h.buckets.total

/-- How many observations fell into each bucket or one before it, from `before` on. -/
def cumulative (h : Histogram τ) : Nat → List String → List (String × Nat)
  | _, [] => []
  | before, b :: bs =>
    let n := before + h.buckets.count b
    (b, n) :: cumulative h n bs

end Histogram

/-! ## Collectors -/

/-- How an execution of an action ended. -/
inductive ActionStatus where
  | success | failure | skipped
  deriving DecidableEq, Repr

/-- The name of an outcome. -/
def ActionStatus.name : ActionStatus → String
  | success => "success"
  | failure => "failure"
  | skipped => "skipped"

/-- What is collected of a service. -/
structure Metrics (τ : Type) where
  service : String
  /-- Errors by type and service. -/
  errors : Tally (String × String) := {}
  /-- Executions of rules by whether they matched and succeeded. -/
  rules : Tally (Bool × Bool) := {}
  /-- The times of rules, in seconds. -/
  ruleTimes : Histogram τ
  /-- Executions of actions by type and outcome. -/
  actions : Tally (String × String) := {}
  /-- The times of actions by type, in seconds. -/
  actionTimes : Keyed String (Histogram τ) := {}
  /-- The number of groups. -/
  groups : τ

/-- A sample: its name, its labels and its value. -/
structure Sample (τ : Type) where
  name : String
  labels : List (String × String)
  value : τ

namespace Metrics

variable {τ : Type} [Quantity τ]

/-- A collector that nothing was told to. -/
def fresh (service : String) : Metrics τ where
  service := service
  ruleTimes := Histogram.empty
  groups := Quantity.zero

/-- One more execution of a rule. -/
def recordRule (m : Metrics τ) (matched success : Bool) (time : τ) : Metrics τ :=
  { m with rules := m.rules.add (matched, success), ruleTimes := m.ruleTimes.observe time }

/-- The times of an action type. -/
def timesOf (m : Metrics τ) (type : String) : Histogram τ :=
  (m.actionTimes.get? type).getD Histogram.empty

/-- One more execution of an action, by the name of its outcome; one that was skipped takes no
    time. -/
def recordAction (m : Metrics τ) (type status : String) (time : τ) : Metrics τ :=
  { m with
    actions := m.actions.add (type, status)
    actionTimes :=
      if status = ActionStatus.skipped.name then m.actionTimes
      else m.actionTimes.put type ((m.timesOf type).observe time) }

/-- One more error, of this service if no other is named. -/
def recordError (m : Metrics τ) (type : String) (service : Option String) : Metrics τ :=
  let service :=
    match service with
    | none | some "" => m.service
    | some s => s
  { m with errors := m.errors.add (type, service) }

/-- The number of groups that there are now. -/
def setGroups (m : Metrics τ) (count : τ) : Metrics τ :=
  { m with groups := count }

/-! ## Samples -/

/-- The names of the metrics. -/
def names : List String :=
  ["service_info", "errors_total", "rule_executions_total", "rule_execution_duration_seconds",
    "action_executions_total", "action_execution_duration_seconds", "rule_groups_total"]

/-- The samples of a histogram. -/
def histogramSamples (name : String) (labels : List (String × String)) (h : Histogram τ) :
    List (Sample τ) :=
  (h.cumulative 0 (Histogram.bounds.map (·.2) ++ [Histogram.unbounded])).map
      (fun b => ⟨name ++ "_bucket", labels ++ [("le", b.1)], Quantity.ofNat b.2⟩) ++
    [⟨name ++ "_count", labels, Quantity.ofNat h.count⟩, ⟨name ++ "_sum", labels, h.sum⟩]

/-- The samples of a counter with labels. -/
def tallySamples {κ : Type} (name : String) (labels : κ → List (String × String)) (t : Tally κ) :
    List (Sample τ) :=
  t.entries.map fun e => ⟨name, labels e.1, Quantity.ofNat e.2⟩

/-- A truth value as a label. -/
def truthLabel (b : Bool) : String :=
  if b then "true" else "false"

/-- All samples. -/
def samples (m : Metrics τ) : List (Sample τ) :=
  [⟨"service_info", [("service", m.service), ("version", "1.0.0")], Quantity.ofNat 1⟩] ++
    tallySamples "errors_total" (fun e => [("error_type", e.1), ("service", e.2)]) m.errors ++
    tallySamples "rule_executions_total"
      (fun e => [("matched", truthLabel e.1), ("success", truthLabel e.2)]) m.rules ++
    histogramSamples "rule_execution_duration_seconds" [] m.ruleTimes ++
    tallySamples "action_executions_total" (fun e => [("action_type", e.1), ("status", e.2)])
      m.actions ++
    m.actionTimes.entries.flatMap
      (fun e => histogramSamples "action_execution_duration_seconds" [("action_type", e.1)] e.2) ++
    [⟨"rule_groups_total", [], m.groups⟩]

end Metrics

end Rulebook
