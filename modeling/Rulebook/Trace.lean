/-
  Traces: what a span is told while an operation runs.

  A span gets attributes and events; values that it cannot hold are written out, and absent ones are
  left out.  `Trace.run` runs steps inside a span; a failure is noted in the span and ends the run.
-/
import Rulebook.EngineError

namespace Rulebook

/-- What a span is told. -/
inductive TraceNote where
  | start (name : String)
  | attribute (key : String) (value : Data)
  | event (name : String) (values : List (String × String))
  | status (name description : String)

namespace Trace

/-- A value as an attribute holds it. -/
def attributeValue : Data → Except Fault Data
  | .text s => .ok (.text s)
  | .bool b => .ok (.bool b)
  | .int n => .ok (.int n)
  | .float x => .ok (.float x)
  | d => d.asText.map .text

/-- The notes of attributes. -/
def attributes : List (String × Data) → Except Fault (List TraceNote)
  | [] => .ok []
  | (_, .null) :: rest => attributes rest
  | (k, d) :: rest => do
    let v ← attributeValue d
    return .attribute k v :: (← attributes rest)

/-- The values of an event, written out. -/
def eventValues : List (String × Data) → Except Fault (List (String × String))
  | [] => .ok []
  | (_, .null) :: rest => eventValues rest
  | (k, d) :: rest => do
    let s ← d.asText
    return (k, s) :: (← eventValues rest)

/-- A step inside a span. -/
inductive Step where
  | attributes (values : List (String × Data))
  | event (name : String) (values : List (String × Data))
  | fail (f : Failure)

/-- What a step tells a span. -/
def Step.notes : Step → Except Failure (List TraceNote)
  | .attributes values => Failure.lift (Trace.attributes values)
  | .event name values => do return [.event name (← Failure.lift (eventValues values))]
  | .fail f => .error f

/-- What a failure tells a span. -/
def failureNotes (f : Failure) : List TraceNote :=
  [.attribute "error" (.bool true), .attribute "error.message" (.text f.message),
    .status "ERROR" f.message]

/-- What steps tell a span, and the failure that ended them. -/
def steps (recording : Bool) : List Step → List TraceNote × Option Failure
  | [] => ([], none)
  | s :: rest =>
    match s with
    | .fail f => (failureNotes f, some f)
    | s =>
      if !recording then steps recording rest
      else
        match s.notes with
        | .error f => (failureNotes f, some f)
        | .ok notes =>
          let (more, ended) := steps recording rest
          (notes ++ more, ended)

/-- What an operation with attributes and steps tells its span. -/
def run (name : String) (values : List (String × Data)) (recording : Bool) (body : List Step) :
    List TraceNote × Option Failure :=
  match attributes values with
  | .error f => ([.start name], some (.fault f))
  | .ok notes =>
    let (more, ended) := steps recording body
    (.start name :: notes ++ more, ended)

end Trace

end Rulebook
