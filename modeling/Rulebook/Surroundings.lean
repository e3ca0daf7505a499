/-
  What actions and the tests of conditions find around them.

  `Surroundings` are the heap that holds the entity, the services that answer requests and the
  breakers in front of them, the log context, a clock, and a journal of what was asked for.

  Time goes on where something waits: for an answer, for the next attempt, for what runs beside it.
  The clock is told as what it shows after so many waits, so nothing is assumed about how long they
  are.  What is in progress may have a limit; the first wait that ends after it is where it is cut
  off.

  * `Surroundings.now`, `Surroundings.later`: the time, and the time after a wait;
  * `Surroundings.isCut`: whether the limit is over.
-/
import Rulebook.Breaker
import Rulebook.Heap
import Rulebook.Http.Request
import Rulebook.Log.Context
import Rulebook.Text.Names

namespace Rulebook

/-- A change that a database is asked for. -/
structure DatabaseUpdate where
  table : Data
  operation : Data
  /-- Which rows are changed. -/
  rows : Data
  /-- What they are changed to. -/
  fields : Data

/-- What actions and tests find around them. -/
structure Surroundings where
  heap : Heap := {}
  /-- The breakers of the services. -/
  breakers : Breakers Float
  /-- What the clock shows after so many waits, in seconds. -/
  clock : Nat → Float
  /-- How many waits are over. -/
  waited : Nat := 0
  /-- The time up to which what is in progress may take, if it has one. -/
  limit : Option Float := none
  /-- The step at which a computation of so many seconds is stopped, if it is. -/
  lastStep : Float → Option Nat := fun _ => none
  /-- The characters that texts may give by name. -/
  charNames : Text.CharNames := Text.noNames
  /-- What is known for the log. -/
  log : LogContext := {}
  /-- What comes of the next requests, in order; the last one comes again and again. -/
  replies : List Http.Reply
  /-- The requests that were sent. -/
  requests : List Http.Request := []
  /-- The waits between attempts, in seconds. -/
  waits : List Number := []
  /-- The changes that the database was asked for. -/
  updates : List DatabaseUpdate := []

namespace Surroundings

/-- What the clock shows, in seconds. -/
def now (s : Surroundings) : Float :=
  s.clock s.waited

/-- The surroundings after a wait. -/
def later (s : Surroundings) : Surroundings :=
  { s with waited := s.waited + 1 }

/-- Whether the time of what is in progress is over; a limit that is no number is over at once. -/
def isCut (s : Surroundings) : Bool :=
  match s.limit with
  | none => false
  | some t => !(s.now ≤ t)

/-- What comes of the next request. -/
def nextReply (s : Surroundings) : Http.Reply :=
  s.replies.headD (.broken true "")

/-- The surroundings after a request, which takes the next reply unless it is the last one. -/
def sent (s : Surroundings) (r : Http.Request) : Surroundings :=
  { s with
    requests := s.requests ++ [r]
    replies := if s.replies.tail.isEmpty then s.replies else s.replies.tail }

end Surroundings

end Rulebook
