/-
  Spans: what a tracer knows of an operation in progress.

  Reports name the current span by its two ids, in hexadecimal; an id of zero is none, and a span
  that does not record is not named at all.
-/
import Rulebook.Text.Quoted

namespace Rulebook

/-- A span. -/
structure Span where
  traceId : Nat
  spanId : Nat
  recording : Bool := true
  deriving DecidableEq, Repr

namespace Span

/-- An id in hexadecimal, unless it is zero. -/
def idText? (width id : Nat) : Option String :=
  if id = 0 then none else some (String.ofList (Text.hexPadded width id))

/-- The id of the trace, if reports name it. -/
def trace? (s : Span) : Option String :=
  if s.recording then idText? 32 s.traceId else none

/-- The id of the span, if reports name it. -/
def span? (s : Span) : Option String :=
  if s.recording then idText? 16 s.spanId else none

theorem trace?_of_not_recording {s : Span} (h : s.recording = false) : s.trace? = none := by
  simp [trace?, h]

end Span

end Rulebook
