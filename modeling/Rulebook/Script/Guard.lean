/-
  Guards and scripts as callers run them.

  A guard is an expression that counts as true or false.  A script runs on a deep copy of its names:
  whatever it writes, it writes into the copy.
-/
import Rulebook.Copy
import Rulebook.Script.Evaluate

namespace Rulebook.Script

/-- The number of steps that a guard may take. -/
def guardBudget : Int := 1000

/-- Whether a guard holds, and the heap after it. -/
def guardHolds (h : Heap) (s : Scope) (source : Value) : Except Stop Bool × Heap :=
  match evaluate s source { heap := h } with
  | .ok v m => (.ok (m.heap.truth v), m.heap)
  | .error stop m => (.error stop, m.heap)

/-- How a script ended, what it logged, and the heap after it. -/
structure Outcome where
  result : Except Stop Data
  log : List String
  heap : Heap

/-- Runs a script on its names as they are. -/
def runInPlace (h : Heap) (s : Scope) (source : Value) : Outcome :=
  match run s source { heap := h } with
  | .ok v m => ⟨.ok (m.heap.plain v), m.log, m.heap⟩
  | .error stop m => ⟨.error stop, m.log, m.heap⟩

/-- Runs a script on a deep copy of its names. -/
def runScript (h : Heap) (s : Scope) (source : Value) : Outcome :=
  let (names, h) := h.copyEntries s.names
  runInPlace h { s with names } source

end Rulebook.Script
