/-
  How the rules of a group are combined.

  * `ofData?`: the mode that data names, in capitals or not and with blanks around it or not.
-/
import Rulebook.Data.Basic
import Rulebook.Text.Blank
import Rulebook.Text.CaseMap

namespace Rulebook

/-- How the rules of a group are combined. -/
inductive Mode where
  /-- All matching rules run, and the group matches if every rule does. -/
  | all
  /-- All matching rules run, and the group matches if some rule does. -/
  | any
  /-- Only the first matching rule runs. -/
  | firstMatch
  deriving DecidableEq, Repr

namespace Mode

/-- The name of a mode. -/
def name : Mode → String
  | all => "ALL"
  | any => "ANY"
  | firstMatch => "FIRST_MATCH"

/-- All modes. -/
def values : List Mode := [all, any, firstMatch]

/-- The mode of a name. -/
def ofName? (s : String) : Option Mode :=
  values.find? fun m => m.name == Text.upper (Text.trim s)

/-- The mode that data names. -/
def ofData? : Data → Option Mode
  | .text s => ofName? s
  | _ => none

theorem ofName?_name (m : Mode) : ofName? m.name = some m := by
  cases m <;> decide +kernel

theorem ofName?_empty : ofName? "" = none := by
  decide +kernel

end Mode

end Rulebook
