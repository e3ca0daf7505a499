/-
  The state of a run and how a run ends.

  A run works on a `Machine`: the heap, the local names, the number of steps taken and the lines
  logged.  It ends with a value or with a `Stop`; the machine is there in both cases.  Every form
  that is evaluated takes a step first (`tick`), which the budget or the deadline may refuse.
-/
import Rulebook.Heap
import Rulebook.Script.Error
import Rulebook.Text.Names

namespace Rulebook.Script

/-- What a run works on. -/
structure Machine where
  heap : Heap
  locals : List (String × Value) := []
  steps : Nat := 0
  log : List String := []

/-- The functions that a run may call. -/
inductive Function where
  | abs | all | any | bool | ceil | float | floor | int | len | list | max | min | range | round
  | sorted | sqrt | str | sum | fromJson | toJson
  /-- Writes a line of the log. -/
  | log
  /-- A function from outside, which reads its arguments as data and gives data. -/
  | host (read : List Data → Except Fault Data)

/-- What a run may use: the names it may read, the functions that it may call beside those that are
    always there, how many steps it may take, and the step from which on its deadline is past. -/
structure Scope where
  names : Entries
  functions : List (String × Function) := []
  budget : Int := 10000
  deadline : Option Nat := none
  /-- The characters that texts may give by name. -/
  charNames : Text.CharNames := Text.noNames

/-- Why a run ends without a value. -/
inductive Stop where
  /-- The expression or script is refused. -/
  | error (e : Error)
  /-- The deadline has passed. -/
  | timedOut
  /-- An operation has no result. -/
  | fault (f : Fault)
  /-- The innermost loop is left. -/
  | leaveLoop
  /-- The innermost loop goes on with its next item. -/
  | nextItem
  /-- The script returns. -/
  | finish (v : Value)

/-- A computation on the machine. -/
abbrev Run := EStateM Stop Machine

/-- How many steps lie between two looks at the deadline. -/
def deadlineInterval : Nat := 64

namespace Run

variable {α : Type}

/-- Refuses the expression or script. -/
def refuse (e : Error) : Run α :=
  throw (.error e)

/-- The result of an operation, or its fault as it is. -/
def ofExcept : Except Fault α → Run α
  | .ok a => pure a
  | .error f => throw (.fault f)

/-- The result of an operation, or a stop made of its fault. -/
def orElse (stop : Fault → Stop) : Except Fault α → Run α
  | .ok a => pure a
  | .error f => throw (stop f)

/-- The heap. -/
def heap : Run Heap := do
  return (← get).heap

/-- Keeps the heap that an operation leaves. -/
def keeping (p : α × Heap) : Run α := do
  modify fun m => { m with heap := p.2 }
  return p.1

/-- Takes a step. -/
def tick (s : Scope) : Run Unit := do
  modify fun m => { m with steps := m.steps + 1 }
  let steps := (← get).steps
  if s.budget < steps then refuse (.budget s.budget)
  match s.deadline with
  | some past => if steps % deadlineInterval = 0 ∧ past ≤ steps then throw .timedOut
  | none => pure ()

/-- The value of a name: a local one first. -/
def lookUp (s : Scope) (name : String) : Run Value := do
  match (← get).locals.lookup name with
  | some v => return v
  | none =>
    match s.names.field? name with
    | some v => return v
    | none => refuse (.undefinedName name)

end Run

/-- Sets a local name: in its place if it is there, else at the end. -/
def setLocal (locals : List (String × Value)) (name : String) (v : Value) :
    List (String × Value) :=
  if locals.any fun e => e.1 == name then
    locals.map fun e => if e.1 == name then (name, v) else e
  else locals ++ [(name, v)]

/-- Binds a local name. -/
def Run.bind (name : String) (v : Value) : Run Unit :=
  modify fun m => { m with locals := setLocal m.locals name v }

end Rulebook.Script
