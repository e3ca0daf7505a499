/-
  Handlers: what carries out the actions of one type.

  A handler checks the parameters of an action and runs it.  It may do anything to its surroundings,
  and it stops where it fails or is cut off.

  * `Act.wait`: where an action may be cut off;
  * `Act.resolve`: the value of a parameter that may hold placeholders;
  * `Handler.requiring`: a handler whose only check is that parameters are there.
-/
import Rulebook.EngineError
import Rulebook.Surroundings
import Rulebook.Template.Resolve

namespace Rulebook

/-! ## What actions do -/

/-- Why an action stopped before it had a result. -/
inductive Act.Stop where
  | failed (e : Failure)
  /-- Its time was over while it waited. -/
  | cut

/-- What actions do: they work on their surroundings and may stop early. -/
abbrev Act := EStateM Act.Stop Surroundings

namespace Act

variable {α : Type}

/-- Fails. -/
def fail (e : Failure) : Act α :=
  throw (.failed e)

/-- The result of an operation on data, or its fault. -/
def lift : Except Fault α → Act α
  | .ok a => pure a
  | .error f => fail (.fault f)

/-- Fails with an error of the handler. -/
def refuse (message : String) (details : Details := []) : Act α :=
  fail (.engine (.handler message details))

/-- Waits, if it is not cut off while it does. -/
def wait : Act Unit := fun s =>
  if s.later.isCut then .error .cut s.later else .ok () s.later

/-- The heap. -/
def heap : Act Heap := do
  return (← get).heap

/-- Keeps a heap. -/
def setHeap (h : Heap) : Act Unit :=
  modify fun s => { s with heap := h }

/-- Keeps the heap that comes with a result. -/
def keeping (p : α × Heap) : Act α := do
  setHeap p.2
  return p.1

/-- Puts data on the heap. -/
def load (d : Data) : Act Value := do
  keeping ((← heap).load d)

/-- The value of data that may hold placeholders. -/
def resolve (c : Context) (d : Data) : Act Value := do
  keeping (← lift (Template.resolve { context := c } (← heap) d))

/-- A new mapping with the given entries, as the result of an action. -/
def give (entries : List (String × Value)) : Act Value := do
  keeping ((← heap).newMapping (entries.map fun e => (.text e.1, e.2)))

end Act

/-! ## Handlers -/

/-- A handler. -/
structure Handler where
  /-- Checks the parameters of an action. -/
  check : Details → EStateM Failure Surroundings Unit
  /-- Runs an action with its parameters, given the time by which it has to be done. -/
  run : Details → Context → Float → Act Value
  /-- Whether it cuts off services that fail. -/
  cutsOff : Bool := false

namespace Handler

/-- Checks that parameters are there; the first that is absent is told. -/
def checkPresent (type : String) (required : List String) (parameters : Details) :
    Except Failure Unit :=
  match required.find? fun name => (Data.entry? parameters name).isNone with
  | some name => .error (.engine (.missingParameter name type))
  | none => .ok ()

/-- The handler of a type whose only check is that parameters are there. -/
def requiring (type : String) (required : List String)
    (run : Details → Context → Float → Act Value) : Handler where
  check := fun ps => ofExcept (checkPresent type required ps)
  run := run

theorem checkPresent_eq_ok_iff (type : String) (required : List String) (parameters : Details) :
    checkPresent type required parameters = .ok () ↔
      ∀ name ∈ required, (Data.entry? parameters name).isSome := by
  simp only [checkPresent]
  split
  · next name h =>
    have := List.find?_some h
    have hm := List.mem_of_find?_eq_some h
    simp only [reduceCtorEq, false_iff]
    intro hall
    have := hall name hm
    simp_all
  · next h =>
    simp only [true_iff]
    intro name hm
    have := List.find?_eq_none.1 h name hm
    simpa [Option.isSome_iff_ne_none] using this

end Handler

/-! ## Parameters and stamps -/

/-- The value of a parameter, or what stands for it if it is absent. -/
def Details.parameter (ps : Details) (name : String) (absent : Data := .null) :
    Data :=
  (Data.entry? ps name).getD absent

/-- What marks the results of actions: fresh ids by what they are ids of, and the time. -/
structure Stamps where
  id : String → String
  time : String

/-- A fresh id, as a value. -/
def Stamps.idOf (s : Stamps) (kind : String) : Value :=
  .text (s.id kind)

/-- The time, as a value. -/
def Stamps.timeOf (s : Stamps) : Value :=
  .text s.time

end Rulebook
