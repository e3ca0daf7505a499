/-
  The context of log lines: what is known of the run in progress.

  Four variables are bound for a time.  `enter` binds some of them and keeps what they were bound to
  before; `leave` gives those bindings back, whatever happened in between.

  * `get_set_self`, `get_set_of_ne`: setting binds one variable;
  * `leave_enter`: leaving a scope at once gives the context back.
-/
import Rulebook.Data.Conversion

namespace Rulebook

/-- The variables of a log context. -/
inductive LogKey where
  | correlation | user | entity | group
  deriving DecidableEq, Repr

namespace LogKey

/-- The name of a variable. -/
def name : LogKey → String
  | correlation => "correlation_id"
  | user => "user_id"
  | entity => "entity_id"
  | group => "group_id"

/-- All variables. -/
def values : List LogKey := [correlation, user, entity, group]

/-- The variable of a name. -/
def ofName? (s : String) : Option LogKey :=
  values.find? fun k => k.name == s

end LogKey

/-- What the variables are bound to; `null` is no binding. -/
structure LogContext where
  correlation : Data := .null
  user : Data := .null
  entity : Data := .null
  group : Data := .null

namespace LogContext

/-- What a variable is bound to. -/
def get (c : LogContext) : LogKey → Data
  | .correlation => c.correlation
  | .user => c.user
  | .entity => c.entity
  | .group => c.group

/-- Binds a variable. -/
def set (c : LogContext) (k : LogKey) (d : Data) : LogContext :=
  match k with
  | .correlation => { c with correlation := d }
  | .user => { c with user := d }
  | .entity => { c with entity := d }
  | .group => { c with group := d }

theorem get_set_self (c : LogContext) (k : LogKey) (d : Data) : (c.set k d).get k = d := by
  cases k <;> rfl

theorem get_set_of_ne (c : LogContext) {k l : LogKey} (d : Data) (h : l ≠ k) :
    (c.set k d).get l = c.get l := by
  cases k <;> cases l <;> first | rfl | exact absurd rfl h

theorem set_get (c : LogContext) (k : LogKey) : c.set k (c.get k) = c := by
  cases k <;> rfl

theorem set_set (c : LogContext) (k : LogKey) (d e : Data) : (c.set k d).set k e = c.set k e := by
  cases k <;> rfl

/-- No binding at all. -/
def clear (_ : LogContext) : LogContext := {}

/-! ## Scopes -/

/-- The bindings that a scope gives back when it is left, the last one first. -/
abbrev Saved := List (LogKey × Data)

/-- Binds variables to all data but `null`, one after the other. -/
def enter (c : LogContext) : List (LogKey × Data) → Saved → LogContext × Saved
  | [], saved => (c, saved)
  | (_, .null) :: rest, saved => enter c rest saved
  | (k, d) :: rest, saved => enter (c.set k d) rest ((k, c.get k) :: saved)

/-- Gives bindings back. -/
def leave (c : LogContext) (saved : Saved) : LogContext :=
  saved.foldl (fun c e => c.set e.1 e.2) c

theorem leave_enter (c : LogContext) (values : List (LogKey × Data)) (saved : Saved) :
    (c.enter values saved).1.leave (c.enter values saved).2 = c.leave saved := by
  induction values generalizing c saved with
  | nil => rfl
  | cons e rest ih =>
    obtain ⟨k, d⟩ := e
    cases d <;> simp only [enter] <;> rw [ih] <;> simp [leave, set_set, set_get]

/-- Data by variable, unless a name is none of a variable. -/
def named (values : List (String × Data)) : Except Fault (List (LogKey × Data)) :=
  match (values.filter fun e => (LogKey.ofName? e.1).isNone).map (·.1) with
  | [] => .ok (values.filterMap fun e => (LogKey.ofName? e.1).map fun k => (k, e.2))
  | unknown =>
    let sorted := unknown.mergeSort fun s t => s ≤ t
    .error (.unknownLogKeys
      ("[" ++ String.intercalate ", " (sorted.map Text.quoted) ++ "]"))

/-- Opens a scope. -/
def openScope (c : LogContext) (values : List (String × Data)) :
    Except Fault (LogContext × Saved) :=
  (named values).map fun es => c.enter es []

/-! ## Binding for good -/

/-- Binds the correlation to what is given for it, `fresh` if nothing is, and the others to what is
    given for them and counts as true. -/
def bind (c : LogContext) (fresh : String) (values : List (String × Data)) :
    Except Fault (Data × LogContext) :=
  match values.find? fun e => (LogKey.ofName? e.1).isNone with
  | some e => .error (.unexpectedArgument "set_correlation_context" e.1)
  | none =>
    let given (k : LogKey) : Data := (values.lookup k.name).getD .null
    let correlation :=
      match given .correlation with
      | .null => .text fresh
      | d => d
    let c := c.set .correlation correlation
    .ok (correlation, [LogKey.user, .entity, .group].foldl
      (fun c k => if (given k).truth then c.set k (given k) else c) c)

end LogContext

end Rulebook
