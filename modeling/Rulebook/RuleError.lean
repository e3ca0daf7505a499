/-
  Reports of what went wrong with rules and actions.

  A `RuleError` goes into the feed of recent errors and into the result of a run.
-/
import Rulebook.EngineError

namespace Rulebook

/-- A report of what went wrong. -/
structure RuleError where
  code : String
  message : String
  ruleId : Data := .null
  actionId : Data := .null
  recoverable : Bool := true
  details : Details := []

namespace RuleError

/-- A member of a group is no rule. -/
def ruleNotFound (rule : String) : RuleError where
  code := "RULE_NOT_FOUND"
  message := s!"Rule with id {rule} not found"
  ruleId := .text rule

/-- A rule did not succeed, and nothing else is known of it. -/
def ruleFailed (rule : String) : RuleError where
  code := "RULE_EXECUTION_FAILED"
  message := s!"Rule {rule} execution failed"
  ruleId := .text rule

/-- An action of a type did not succeed. -/
def actionFailed (type message : String) : RuleError where
  code := "ACTION_FAILED"
  message := message
  details := .of [("action_type", .text type)]

/-- Actions of a rule did not succeed: the first of them with its error, and the others. -/
def actionsFailed (rule name : String) (action : Data) (message : String) (others : List Data) :
    RuleError where
  code := "ACTION_FAILED"
  message := s!"{others.length + 1} action(s) failed in rule {name}: {message}"
  ruleId := .text rule
  actionId := action
  details := .of [("failed_actions", .list (action :: others))]

end RuleError

end Rulebook
