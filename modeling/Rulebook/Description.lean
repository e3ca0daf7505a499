/-
  Descriptions: rules, groups and errors as plain data, and what is read from them.

  A description names what it gives, and what it leaves out is as usual.  A text that is no text is
  as good as left out, so that only the actions of a rule can be at fault.
-/
import Rulebook.Group.Basic
import Rulebook.Rule

namespace Rulebook.Description

/-! ## Parts of a description -/

/-- A part, or what stands for it if it is left out. -/
def part (d : Data) (name : String) (absent : Data := .null) : Data :=
  (d.field? name).getD absent

/-- A text. -/
def text? (d : Data) (name : String) : Option String :=
  match d.field? name with
  | some (.text s) => some s
  | _ => none

/-- Entries. -/
def entries (d : Data) (name : String) : List (Data × Data) :=
  match d.field? name with
  | some (.mapping es) => es
  | _ => []

/-- Items. -/
def items (d : Data) (name : String) : List Data :=
  ((d.field? name).bind Data.items?).getD []

/-! ## What is described -/

/-- The condition that is described. -/
def condition (d : Data) : Condition where
  field := part d "field"
  operator := (text? d "operator").getD ""
  value := part d "value"
  negate := (part d "negate").truth

/-- The action that is described; `fresh` is its id if none is given. -/
def action (fresh : String) (d : Data) : Except Fault Action := do
  Action.ofEntries fresh (← d.toEntries)

/-- The rule that is described; `fresh` is the id of actions that have none. -/
def rule (fresh : String) (d : Data) : Except Fault Rule := do
  let id := (text? d "id").getD ""
  let actions ← (items d "actions").mapM (action fresh)
  return { id
           name := (text? d "name").getD id
           conditions := (items d "conditions").map condition
           actions
           combination := .ofData (part d "logical_operator" (.text "AND"))
           priority := part d "priority" (.int 0)
           enabled := (part d "enabled" (.bool true)).truth
           category := text? d "category" }

/-- The group that is described, made at a time. -/
def group (created : Instant) (d : Data) : Group where
  id := (text? d "id").getD "g"
  name := part d "name"
  mode := part d "execution_mode"
  members :=
    match part d "rule_ids" (.list []) with
    | .null => none
    | ids => some (((Data.items? ids).getD []).filterMap fun | .text s => some s | _ => none)
  description := part d "description"
  metadata := entries d "metadata"
  version :=
    match part d "version" with
    | .int n => n
    | _ => 0
  created

/-- The error that is described. -/
def ruleError (d : Data) : RuleError where
  code := (text? d "code").getD ""
  message := (text? d "message").getD ""
  ruleId := part d "rule_id"
  actionId := part d "action_id"
  recoverable :=
    match part d "recoverable" with
    | .bool b => b
    | _ => true
  details := entries d "details"

end Rulebook.Description
