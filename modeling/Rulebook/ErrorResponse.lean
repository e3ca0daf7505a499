/-
  Responses that tell of errors.

  An `ErrorForm` is an error as its raiser wrote it, before anything is known of the types of its
  parts; `ErrorForm.ofArguments` fills one in for a kind of error.  `ErrorForm.response` checks the
  parts and adds the trace that the error belongs to.
-/
import Rulebook.EngineError
import Rulebook.Schema
import Rulebook.Span

namespace Rulebook

/-! ## Forms -/

/-- The parts of an error, of any type. -/
structure ErrorForm where
  code : Data
  message : Data
  details : Data

/-- What kinds of errors are made from. -/
inductive ErrorTemplate where
  /-- Code, message and details. -/
  | general
  /-- Message and details. -/
  | worded (kind : ErrorKind) (message : String)
  /-- An action type, and more details. -/
  | unknownActionType
  /-- A parameter, an action type, and more details. -/
  | missingParameter
  /-- A time in milliseconds, and more details. -/
  | timeout

namespace ErrorTemplate

/-- The names of the arguments that are required. -/
def required : ErrorTemplate → List String
  | general => ["code", "message"]
  | worded .. => []
  | unknownActionType => ["action_type"]
  | missingParameter => ["parameter", "action_type"]
  | timeout => ["timeout_ms"]

/-- The most arguments. -/
def most : ErrorTemplate → Nat
  | general => 3
  | worded .. => 2
  | unknownActionType => 2
  | missingParameter => 3
  | timeout => 2

end ErrorTemplate

namespace ErrorForm

/-- Names in quotes, joined as in a sentence. -/
def enumeration : List String → String
  | [] => ""
  | [a] => "'" ++ a ++ "'"
  | [a, b] => "'" ++ a ++ "' and '" ++ b ++ "'"
  | a :: rest => "'" ++ a ++ "', " ++ enumeration rest

/-- Why a number of arguments does not fit, if it does not. -/
def countFault? (name : String) (t : ErrorTemplate) (args : List Data) : Option Fault :=
  let missing := t.required.drop args.length
  if t.most < args.length then
    some (.argumentCount
      (s!"{name}.__init__() takes from {t.required.length + 1} to {t.most + 1} " ++
        s!"positional arguments but {args.length + 1} were given"))
  else if missing.isEmpty then none
  else
    let noun := if missing.length = 1 then "argument" else "arguments"
    some (.argumentCount
      (s!"{name}.__init__() missing {missing.length} required positional {noun}: " ++
        enumeration missing))

/-- Details, or none where nothing is given. -/
def given (d : Data) : Data :=
  if d.truth then d else .mapping []

/-- Details over the entries that a kind of error brings. -/
def merged (base : List (String × Data)) (more : Data) : Except Fault Data :=
  match given more with
  | .mapping es => .ok (.mapping ((Details.of base).over es))
  | d => .error (.notMapping d.typeName)

/-- A time in a message. -/
def timeText (d : Data) : Except Fault String :=
  match d.number?, d with
  | some n, _ => n.toFloat.map generalText
  | none, .text _ => .error (.formatCode "g" "str")
  | none, .instant _ => .ok "g"
  | none, d => .error (.formatSpecification d.typeName)

/-- The parts of an error from its arguments. -/
def ofArguments (name : String) (t : ErrorTemplate) (args : List Data) :
    Except Fault ErrorForm := do
  if let some f := countFault? name t args then throw f
  let argument (n : Nat) : Data := (args[n]?).getD .null
  match t with
  | .general => return ⟨argument 0, argument 1, given (argument 2)⟩
  | .worded kind message =>
    return ⟨.text kind.code, (args[0]?).getD (.text message), given (argument 1)⟩
  | .unknownActionType =>
    let message ← (argument 0).asText
    return ⟨.text ErrorKind.unknownActionType.code, .text (EngineError.unknownTypeMessage message),
      ← merged [("action_type", argument 0)] (argument 1)⟩
  | .missingParameter =>
    let message := EngineError.missingMessage (← (argument 0).asText) (← (argument 1).asText)
    return ⟨.text ErrorKind.missingParameter.code, .text message,
      ← merged [("parameter", argument 0), ("action_type", argument 1)] (argument 2)⟩
  | .timeout =>
    let message := EngineError.timeoutMessage (← timeText (argument 0))
    return ⟨.text ErrorKind.timeout.code, .text message,
      ← merged [("timeout_ms", argument 0)] (argument 1)⟩

end ErrorForm

/-! ## Responses -/

/-- What is answered about an error. -/
structure ErrorResponse where
  trace : Option String
  code : String
  message : String
  details : Details

/-- The response about an error that belongs to a span. -/
def ErrorForm.response (f : ErrorForm) (span : Option Span) : Except (List Issue) ErrorResponse :=
  Schema.Form.read do
    let code ← Schema.field ["code"] (some f.code) (Schema.single Schema.text) ""
    let message ← Schema.field ["message"] (some f.message) (Schema.single Schema.text) ""
    let details ← Schema.field ["details"] (some f.details) Schema.entries []
    return ⟨span.bind Span.trace?, code, message, details⟩

/-- The parts of an error of the engine. -/
def EngineError.form (e : EngineError) : ErrorForm :=
  ⟨.text e.code, .text e.message, .mapping e.details⟩

end Rulebook
