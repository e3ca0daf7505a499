/-
  Errors of the engine.

  An `EngineError` has a kind, which gives its code, a message, and details for whoever handles it.
  The engine raises it where a rule, a group or an action is at fault.  A `Failure` is whatever ends
  an operation: such an error, or a fault of an operation on data.

  * `EngineError.code`: the code of each kind;
  * `EngineError.unknownActionType`, `missingParameter`, `timedOut`: the errors that are worded by
    their kind.
-/
import Rulebook.Data.Conversion

namespace Rulebook

/-- The entries of a mapping of details. -/
abbrev Details := List (Data × Data)

/-- Details by name. -/
def Details.of (entries : List (String × Data)) : Details :=
  entries.map fun e => (.text e.1, e.2)

/-- Details with others over them. -/
def Details.over (base more : Details) : Details :=
  more.foldl (fun es e => Data.insertEntry es e.1 e.2) base

/-! ## Errors -/

/-- The kinds of errors of the engine. -/
inductive ErrorKind where
  | validation
  | notFound
  | conflict
  | unknownActionType
  | missingParameter
  | timeout
  | handler
  /-- An error that its raiser gives a code. -/
  | coded (code : String)
  deriving DecidableEq, Repr

/-- The code of a kind. -/
def ErrorKind.code : ErrorKind → String
  | validation => "VALIDATION_ERROR"
  | notFound => "NOT_FOUND"
  | conflict => "CONFLICT"
  | unknownActionType => "UNKNOWN_ACTION_TYPE"
  | missingParameter => "MISSING_PARAMETER"
  | timeout => "TIMEOUT"
  | handler => "HANDLER_ERROR"
  | coded code => code

/-- An error of the engine. -/
structure EngineError where
  kind : ErrorKind
  message : String
  details : Details := []

namespace EngineError

/-- The code of an error. -/
def code (e : EngineError) : String :=
  e.kind.code

/-- The message about an action type that has no handler. -/
def unknownTypeMessage (type : String) : String :=
  s!"Unknown action type: {type}"

/-- The message about a parameter that is absent. -/
def missingMessage (parameter type : String) : String :=
  "Missing required parameter \"" ++ parameter ++ "\" for action type \"" ++ type ++ "\""

/-- The message about a handler that took too long; the time is in milliseconds. -/
def timeoutMessage (milliseconds : String) : String :=
  s!"Operation timed out after {milliseconds}ms"

/-- No handler has the type of an action. -/
def unknownActionType (type : String) (more : Details) : EngineError where
  kind := .unknownActionType
  message := unknownTypeMessage type
  details := (Details.of [("action_type", .text type)]).over more

/-- A parameter that a handler requires is absent. -/
def missingParameter (parameter type : String) : EngineError where
  kind := .missingParameter
  message := missingMessage parameter type
  details := .of [("parameter", .text parameter), ("action_type", .text type)]

/-- A handler took too long. -/
def timedOut (milliseconds : Float) (more : Details) : EngineError where
  kind := .timeout
  message := timeoutMessage (generalText milliseconds)
  details := (Details.of [("timeout_ms", .float milliseconds)]).over more

/-- A handler failed. -/
def handler (message : String) (details : Details := []) : EngineError :=
  ⟨.handler, message, details⟩

end EngineError

/-! ## Failures -/

/-- What ends an operation early. -/
inductive Failure where
  | fault (f : Fault)
  | engine (e : EngineError)

namespace Failure

/-- A failure in words. -/
def message : Failure → String
  | fault f => f.message
  | engine e => e.message

/-- The operation, its faults as failures. -/
def lift {α : Type} : Except Fault α → Except Failure α
  | .ok a => .ok a
  | .error f => .error (.fault f)

end Failure

end Rulebook
