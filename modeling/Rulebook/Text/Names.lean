/-
  Characters by name.

  Every character has at most one name.  The table of names belongs to the host, so whatever reads
  names is given the table.
-/

namespace Rulebook.Text

/-- The characters that have names, by their names in letters of either case. -/
abbrev CharNames := String → Option Char

/-- The table without a name. -/
def noNames : CharNames := fun _ => none

end Rulebook.Text
