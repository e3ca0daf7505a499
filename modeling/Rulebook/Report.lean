/-
  Reports: what the service knows and gives back, as plain data by name.

  Results of actions may be lists and mappings that others hold too, so their reports show them as
  they are at the time of the report.
-/
import Rulebook.Service
import Rulebook.Trace

namespace Rulebook

/-- Data by name. -/
def Data.named (entries : List (String × Data)) : Data :=
  .mapping (Details.of entries)

/-- The report of something that may be absent. -/
def Data.ofOption {α : Type} (f : α → Data) : Option α → Data
  | some a => f a
  | none => .null

/-- Texts by name. -/
def Data.textsByName (entries : List (String × String)) : Data :=
  named (entries.map fun e => (e.1, .text e.2))

/-- A number as data. -/
def Number.toData : Number → Data
  | .int n => .int n
  | .float x => .float x

/-! ## Errors and statistics -/

/-- The report of an error. -/
def RuleError.toData (e : RuleError) : Data :=
  .named [("code", .text e.code), ("message", .text e.message), ("rule_id", e.ruleId),
    ("action_id", e.actionId), ("recoverable", .bool e.recoverable),
    ("details", .mapping e.details)]

/-- The name of mean times in reports. -/
def meanTimeName : String := "average_execution_time"

/-- What reports of records have in common. -/
def Record.entries (r : Record Float) : List (String × Data) :=
  [("execution_count", .int r.executions), ("error_count", .int r.errors),
    ("success_rate", .float r.rate), (meanTimeName, .float r.mean)]

/-- The report of the statistics of a rule. -/
def RuleStatistics.toData (r : RuleStatistics Float) : Data :=
  .named (r.toRecord.entries ++ [("rule_id", .text r.rule), ("match_count", .int r.matchCount),
    ("executed", .bool r.lastExecuted.isSome), ("matched", .bool r.lastMatched.isSome)])

/-- The report of the statistics of a type of actions. -/
def ActionStatistics.toData (a : ActionStatistics Float) : Data :=
  .named (("action_type", .text a.type) :: a.toRecord.entries)

/-- The report of a summary. -/
def StatisticsSummary.toData (s : StatisticsSummary Float) : Data :=
  .named [("total_executions", .int s.total.executions), ("total_rules", .int s.rules),
    ("active_rules", .int s.active), ("error_rate", .float s.errorRate),
    ("popular_rules", .list (s.popular.map RuleStatistics.toData)),
    ("recent_errors", .list (s.recentErrors.map RuleError.toData)),
    ("execution_by_category", .named (s.categories.entries.map fun e => (e.1, .int e.2))),
    ("hour_total", .int s.hours.total),
    ("execution_by_action_type", .named (s.actions.entries.map fun e => (e.1, e.2.toData))),
    (meanTimeName, .float s.total.mean)]

/-! ## Runs -/

/-- The report of a result of an action. -/
def ActionResult.toData (h : Heap) (r : ActionResult) : Data :=
  .named [("action_id", r.actionId), ("action_type", .text r.actionType),
    ("success", .bool r.success), ("result", h.plain r.result),
    ("error", .ofOption .text r.error), ("skipped", .bool r.skipped)]

/-- The report of what came of a rule. -/
def RuleResult.toData (h : Heap) (r : RuleResult) : Data :=
  .named [("rule_id", .text r.rule), ("rule_name", .text r.name), ("matched", .bool r.matched),
    ("success", .bool r.success), ("actions", .list (r.actions.map (ActionResult.toData h))),
    ("error", .ofOption RuleError.toData r.error)]

/-- The report of what came of a group. -/
def GroupResult.entries (h : Heap) (r : GroupResult) : List (String × Data) :=
  [("group_id", .ofOption .text r.group), ("mode", .text r.mode.name), ("matched", .bool r.matched),
    ("rule_results", .list (r.rules.map (RuleResult.toData h))),
    ("action_ids", .list (r.actions.map (·.actionId))),
    ("errors", .list (r.errors.map RuleError.toData))]

/-! ## Groups -/

/-- The report of a group. -/
def Group.toData (g : Group) : Data :=
  .named [("id", .text g.id), ("name", g.name), ("execution_mode", g.mode),
    ("rule_ids", .ofOption (fun ids => .list (ids.map .text)) g.members),
    ("description", g.description), ("metadata", .mapping g.metadata), ("version", .int g.version)]

/-- The report of a check. -/
def Findings.toData (f : Findings) : Data :=
  .named [("is_valid", .bool f.isValid), ("errors", .list (f.errors.map Finding.data)),
    ("warnings", .list (f.warnings.map Finding.data))]

/-! ## Services -/

/-- The report of a breaker. -/
def Breaker.toData (settings : Breaker.Settings Float) (now : Float) (name : String)
    (b : Breaker Float) : Data :=
  .named [("name", .text name), ("state", .text b.status.name), ("failure_count", .int b.failures),
    ("success_count", .int b.successes), ("failure_threshold", settings.threshold.toData),
    ("recovery_timeout", .float settings.recovery),
    ("retry_after", .float (b.reportedWait settings now))]

/-- The report of all breakers. -/
def Breakers.toData (bs : Breakers Float) (now : Float) : Data :=
  .named (bs.byTarget.entries.map fun e => (e.1, e.2.toData bs.settings now e.1))

/-- The report of a request. -/
def Http.Request.toData (r : Http.Request) : Data :=
  .named [("method", .text r.method), ("url", .text r.url.text),
    ("headers", .textsByName r.headers.entries), ("body", .text r.body)]

/-- The report of how the service is. -/
def Service.Health.toData (h : Service.Health) : Data :=
  .named [("service", .text Service.name), ("status", .text h.status),
    ("version", .text Service.version), ("rule_groups", .int h.groups),
    ("action_types", .list (h.actionTypes.map .text)), ("total_executions", .int h.executions),
    ("error_rate", .float h.errorRate), ("open_circuits", .list (h.openCircuits.map .text))]

/-! ## Monitoring -/

/-- The report of those samples of metrics whose names are wanted, in the order of names and then of
    the texts of labels. -/
def Metrics.toData (m : Metrics Float) (wanted : String → Bool) : Data :=
  let rows := (m.samples.filter fun s => wanted s.name).map fun s =>
    let labels := Data.textsByName (s.labels.mergeSort fun a b => a.1 ≤ b.1)
    let key := (Json.write Json.inText labels).toOption.getD ""
    (s.name, key, Data.list [.text s.name, labels, .float s.value])
  .list ((rows.mergeSort fun a b => if a.1 == b.1 then a.2.1 ≤ b.2.1 else a.1 ≤ b.1).map (·.2.2))

/-- The report of what a span got. -/
def TraceNote.toData : TraceNote → Data
  | .start name => .list [.text "start", .text name]
  | .attribute k v => .list [.text "attribute", .text k, v]
  | .event name values => .list [.text "event", .text name, .textsByName values]
  | .status name description => .list [.text "status", .text name, .text description]

end Rulebook
