/-
  Settings.

  A `Config` is read from the environment and from settings that are given directly, which go
  before the environment.  Times ending in a name of milliseconds are whole numbers of them, the
  others are seconds.  Given settings that are none of the fields are kept as they are.
-/
import Rulebook.Schema

namespace Rulebook

/-- The settings of an engine. -/
structure Config where
  env : String := "local"
  logLevel : String := "info"
  tracing : Bool := false
  metrics : Bool := true
  /-- The time that an action may take, in milliseconds. -/
  actionTimeout : Int := 5000
  /-- The time that a guard may take, in milliseconds. -/
  guardTimeout : Int := 50
  /-- The time that a script may take, in milliseconds. -/
  scriptTimeout : Int := 1000
  /-- The steps that a script may take. -/
  scriptSteps : Int := 10000
  /-- The length from which on the name of a group is warned of. -/
  longName : Int := 100
  /-- The number of rules from which on a group is warned of. -/
  manyRules : Int := 50
  /-- How many rules the list of popular ones has. -/
  popularLimit : Int := 10
  /-- How many errors the list of recent ones has. -/
  errorLimit : Int := 50
  /-- For how many seconds a rule counts as active after it ran. -/
  activeWindow : Int := 3600
  /-- How often a call of a service is tried. -/
  callAttempts : Int := 2
  /-- The first wait between two attempts, in seconds. -/
  callBaseDelay : Float := 0.1
  /-- How many calls must fail in a row before a host is cut off. -/
  callFailureThreshold : Int := 5
  /-- For how many seconds a host is cut off. -/
  callRecovery : Float := 30.0
  /-- Settings that are none of the fields. -/
  extras : List (Data × Data) := []

namespace Config

open Schema

/-- The names of the fields. -/
def names : List String :=
  ["env", "log_level", "enable_tracing", "enable_metrics", "default_action_timeout_ms",
    "guard_timeout_ms", "script_timeout_ms", "script_max_steps", "group_name_warning_length",
    "group_size_warning", "popular_rules_limit", "recent_errors_limit",
    "active_rule_window_seconds", "call_api_max_attempts", "call_api_retry_base_delay",
    "call_api_failure_threshold", "call_api_recovery_timeout"]

/-- What the names of settings begin with in the environment. -/
def environmentMark : String := "rules_"

/-- The setting of a name in the environment; capitals make no difference, and of several the last
    counts. -/
def inEnvironment? (environment : List (String × String)) (name : String) : Option Data :=
  (environment.reverse.find? fun e => Text.lower e.1 == environmentMark ++ name).map (.text ·.2)

/-- The settings of an environment and those given directly. -/
def read (environment : List (String × String)) (overrides : List (Data × Data)) :
    Except (List Issue) Config :=
  let setting {α : Type} (name : String) (check : Check α) (absent : α) : Form α :=
    field [name] ((Data.entry? overrides name).or (inEnvironment? environment name)) check absent
  let positive := single (wholeFrom 1)
  Form.read do
    let env ← setting "env" (single text) "local"
    let logLevel ← setting "log_level" (single text) "info"
    let tracing ← setting "enable_tracing" (single truth) false
    let metrics ← setting "enable_metrics" (single truth) true
    let actionTimeout ← setting "default_action_timeout_ms" positive 5000
    let guardTimeout ← setting "guard_timeout_ms" positive 50
    let scriptTimeout ← setting "script_timeout_ms" positive 1000
    let scriptSteps ← setting "script_max_steps" positive 10000
    let longName ← setting "group_name_warning_length" (single whole) 100
    let manyRules ← setting "group_size_warning" (single whole) 50
    let popularLimit ← setting "popular_rules_limit" (single whole) 10
    let errorLimit ← setting "recent_errors_limit" (single whole) 50
    let activeWindow ← setting "active_rule_window_seconds" (single whole) 3600
    let callAttempts ← setting "call_api_max_attempts" positive 2
    let callBaseDelay ← setting "call_api_retry_base_delay" (single numberFromZero) 0.1
    let callFailureThreshold ← setting "call_api_failure_threshold" positive 5
    let callRecovery ← setting "call_api_recovery_timeout" (single number) 30.0
    return { env, logLevel, tracing, metrics, actionTimeout, guardTimeout, scriptTimeout,
             scriptSteps, longName, manyRules, popularLimit, errorLimit, activeWindow,
             callAttempts, callBaseDelay, callFailureThreshold, callRecovery
             extras := overrides.filter fun e =>
               match e.1 with
               | .text s => !names.contains s
               | _ => true }

/-- All settings by name. -/
def entries (c : Config) : List (Data × Data) :=
  ([("env", .text c.env), ("log_level", .text c.logLevel), ("enable_tracing", .bool c.tracing),
    ("enable_metrics", .bool c.metrics), ("default_action_timeout_ms", .int c.actionTimeout),
    ("guard_timeout_ms", .int c.guardTimeout), ("script_timeout_ms", .int c.scriptTimeout),
    ("script_max_steps", .int c.scriptSteps), ("group_name_warning_length", .int c.longName),
    ("group_size_warning", .int c.manyRules), ("popular_rules_limit", .int c.popularLimit),
    ("recent_errors_limit", .int c.errorLimit), ("active_rule_window_seconds", .int c.activeWindow),
    ("call_api_max_attempts", .int c.callAttempts),
    ("call_api_retry_base_delay", .float c.callBaseDelay),
    ("call_api_failure_threshold", .int c.callFailureThreshold),
    ("call_api_recovery_timeout", .float c.callRecovery)].map
      fun (e : String × Data) => (Data.text e.1, e.2)) ++ c.extras

end Config

end Rulebook
