/-
  Checking groups.

  A check collects everything that is wrong with a group and everything that is unwise about it.
  Only the former makes a group invalid.

  * `Group.check`: the findings, in a fixed order;
  * `Group.invalid`: the error that tells of them.
-/
import Rulebook.Config
import Rulebook.Group.Basic
import Rulebook.Group.Mode

namespace Rulebook

/-! ## Findings -/

/-- How much a finding matters. -/
inductive Finding.Severity where
  | error | warning
  deriving DecidableEq, Repr

/-- Something that is wrong or unwise. -/
structure Finding where
  code : String
  message : String
  field : Option String
  severity : Finding.Severity := .error
  deriving DecidableEq, Repr

namespace Finding

/-- The name of a severity. -/
def Severity.name : Severity → String
  | error => "error"
  | warning => "warning"

/-- A finding as data. -/
def data (f : Finding) : Data :=
  .mapping (Details.of [("code", .text f.code), ("message", .text f.message),
    ("field", match f.field with | some s => .text s | none => .null),
    ("severity", .text f.severity.name)])

/-- A field that is not as it should be. -/
def invalidField (field : Option String) (message : String) : Finding :=
  ⟨"INVALID_FIELD", message, field, .error⟩

/-- An issue of a form. -/
def ofIssue (i : Issue) : Finding :=
  invalidField (some (String.intercalate "." i.location)) i.flaw.message

end Finding

/-- All that was found. -/
structure Findings where
  errors : List Finding
  warnings : List Finding := []
  deriving DecidableEq, Repr

namespace Findings

/-- Whether nothing is wrong. -/
def isValid (f : Findings) : Bool :=
  f.errors.isEmpty

/-- The error that tells of everything that is wrong. -/
def error (f : Findings) : EngineError where
  kind := .validation
  message := "Invalid rule group: " ++ String.intercalate ", " (f.errors.map (·.message))
  details := .of [("errors", .list (f.errors.map Finding.data)),
    ("warnings", .list (f.warnings.map Finding.data))]

end Findings

namespace Group

/-! ## Single checks -/

/-- Whether data is a text that is not blank. -/
def isName : Data → Bool
  | .text s => !(Text.trim s).isEmpty
  | _ => false

/-- What is wrong with a name. -/
def nameErrors (name : Data) : List Finding :=
  if isName name then []
  else [{ code := "MISSING_NAME", message := "Group name is required", field := some "name" }]

/-- The names of all modes. -/
def modeNames : String :=
  String.intercalate ", " (Mode.values.map Mode.name)

/-- What is told of a mode that there is not. -/
def invalidMode (mode : String) : String :=
  "Invalid execution mode: " ++ mode

/-- What is wrong with a mode. -/
def modeErrors (mode : Data) : Except Fault (List Finding) :=
  let absent : Finding :=
    { code := "MISSING_EXECUTION_MODE", message := "Group execution mode is required"
      field := some "executionMode" }
  match mode with
  | .null | .text "" => .ok [absent]
  | _ =>
    match Mode.ofData? mode with
    | some _ => .ok []
    | none => do
      return [{ code := "INVALID_EXECUTION_MODE"
                message := invalidMode (← mode.asText) ++ "; expected one of " ++ modeNames
                field := some "executionMode" }]

/-- What is told of a rule that there is not. -/
def ruleMissing (id : String) : String :=
  s!"Rule with id {id} not found"

/-- The members that are no rules, each once. -/
def missingErrors (known : String → Bool) (members : List String) : List Finding :=
  (members.eraseDups.filter fun id => !known id).map fun id =>
    { code := "RULE_NOT_FOUND", message := ruleMissing id, field := some "ruleIds" }

/-- The ids that come again, each once, given those that came before and those that came again. -/
def repeatedFrom : List String → List String → List String → List String
  | _, again, [] => again
  | seen, again, id :: ids =>
    repeatedFrom (id :: seen)
      (if seen.contains id && !again.contains id then again ++ [id] else again) ids

/-- The ids that come more than once, in the order in which they come again. -/
def repeated (members : List String) : List String :=
  repeatedFrom [] [] members

/-- The members that are named more than once. -/
def repeatedErrors (members : List String) : List Finding :=
  match repeated members with
  | [] => []
  | ids =>
    [{ code := "DUPLICATE_RULE_IDS"
       message := "Duplicate rule IDs: " ++ String.intercalate ", " ids
       field := some "ruleIds" }]

/-- What is unwise about a name. -/
def nameWarnings (config : Config) : Data → List Finding
  | .text s =>
    if config.longName < s.length then
      [{ code := "LONG_NAME"
         message := s!"Group name is very long (> {config.longName} characters)"
         field := some "name", severity := .warning }]
    else []
  | _ => []

/-- What is unwise about the members. -/
def memberWarnings (config : Config) (members : List String) : List Finding :=
  if config.manyRules < members.length then
    [{ code := "MANY_RULES"
       message := s!"Group has many rules (> {config.manyRules}), " ++
         "consider splitting into smaller groups"
       field := some "ruleIds", severity := .warning }]
  else []

/-! ## The whole check -/

/-- Everything that is wrong or unwise about a group; `known` tells which rules there are. -/
def check (config : Config) (known : String → Bool) (g : Group) : Except Fault Findings := do
  let members := g.members.getD []
  return { errors := nameErrors g.name ++ (← modeErrors g.mode) ++ missingErrors known members ++
             repeatedErrors members
           warnings := nameWarnings config g.name ++ memberWarnings config members }

/-- A valid group with its mode in the usual spelling, or the error that tells what is wrong. -/
def checked (config : Config) (known : String → Bool) (g : Group) : Except Failure Group :=
  match g.check config known with
  | .error f => .error (.fault f)
  | .ok findings =>
    if findings.isValid then
      .ok { g with mode := match Mode.ofData? g.mode with | some m => .text m.name | none => .null }
    else .error (.engine findings.error)

end Group

end Rulebook
