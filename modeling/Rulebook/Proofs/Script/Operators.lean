/-
  Operators and functions leave all objects as they are.

  What an operator, a subscript or a call gives is a scalar, a value that was there, or a new list
  or mapping: the heap after it extends the heap before (`Grows`).

  * `binary_grows`, `subscript?_grows`: operators and subscripts;
  * `pure?_grows`: calls of all functions but the log and the range.
-/
import Rulebook.Proofs.Extension
import Rulebook.Script.Functions

namespace Rulebook.Script

/-- A yield, if there is one, comes with a heap that extends another. -/
def Grows (h : Heap) (y : Yield) : Prop :=
  ∀ p, y = .ok p → h.Extends p.2

namespace Grows

variable {h : Heap} {α : Type}

theorem error (f : Fault) : Grows h (.error f) := nofun

theorem ok {p : Value × Heap} (hp : h.Extends p.2) : Grows h (.ok p) := fun q hq => by
  cases hq
  exact hp

theorem map {r : Except Fault α} {f : α → Value × Heap} (hf : ∀ a, h.Extends (f a).2) :
    Grows h (r.map f) := fun p hp => by
  obtain ⟨a, -, rfl⟩ := exceptMap_eq_ok.1 hp
  exact hf a

theorem bind {r : Except Fault α} {f : α → Yield} (hf : ∀ a, Grows h (f a)) :
    Grows h (r >>= f) := fun p hp => by
  obtain ⟨a, -, ha⟩ := exceptBind_eq_ok.1 hp
  exact hf a p ha

/-- A value without a new object. -/
theorem same {r : Except Fault α} (f : α → Value) : Grows h (r.map fun a => (f a, h)) :=
  map fun _ => .refl h

end Grows

/-! ## Operators -/

namespace Operator

variable {h : Heap} {op : BinaryOp} {v w : Value} {y : Yield}

theorem joined_grows (hy : joined h v w = some y) : Grows h y := by
  unfold joined at hy
  split at hy <;> cases hy
  · exact .ok (.refl h)
  · exact .error _
  · exact .ok (.refl h)
  · exact .error _
  · exact .ok (.newList h _)
  · exact .error _

theorem repeatSequence_grows (hy : repeatSequence h v w = some y) : Grows h y := by
  unfold repeatSequence at hy
  cases v <;> cases hy
  all_goals
    dsimp only
    split
    · split
      · first | exact .ok (.refl h) | exact .ok (.newList h _)
      · exact .error _
    · exact .error _

theorem onOthers_grows : Grows h (onOthers h op v w) := by
  unfold onOthers
  split
  · exact .same _
  · split
    · cases hj : joined h v w with
      | none => exact .error _
      | some y => exact joined_grows hj
    · split
      · next r hr => exact repeatSequence_grows hr
      · cases hr : repeatSequence h w v with
        | none => exact .error _
        | some y => exact repeatSequence_grows hr
    · exact .same _
    · exact .error _

theorem binary_grows : Grows h (binary h op v w) := by
  unfold binary
  split
  · split
    · exact .same _
    · exact .error _
  · exact onOthers_grows

theorem subscript?_grows (hy : subscript? h v w = some y) : Grows h y := by
  unfold subscript? at hy
  cases v <;> cases hy
  · refine .map fun r => ?_
    cases r <;> exact .refl h
  · refine .map fun r => ?_
    cases r <;> exact .refl h
  · refine .map fun r => ?_
    cases r
    · exact .refl h
    · exact .newList h _
  · split
    · exact .error _
    · split
      · exact .ok (.refl h)
      · exact .bind fun _ => .error _

end Operator

/-! ## Functions -/

namespace Function

variable {h : Heap} {f : Function} {vs : List Value}

theorem total_grows (h₀ : Heap) (start : Value) (he : h₀.Extends h) :
    Grows h₀ (total h start vs) := by
  unfold total
  induction vs generalizing h start with
  | nil => exact .ok he
  | cons v vs ih =>
    rw [List.foldlM_cons]
    intro p hp
    obtain ⟨⟨w, h'⟩, hw, hp⟩ := exceptBind_eq_ok.1 hp
    exact ih w (he.trans (Operator.binary_grows _ hw)) p hp

theorem pure?_grows : Grows h (pure? h f vs) := by
  unfold pure?
  split
  all_goals first
    | exact .error _
    | exact .ok (.refl h)
    | exact .same _
    | skip
  · exact .ok (.newList h [])
  · exact .map fun _ => .newList h _
  · exact .map fun _ => .newList h _
  · exact .bind fun ws => total_grows h _ (.refl h)
  · refine .bind fun ws => ?_
    split
    · exact .error _
    · exact total_grows h _ (.refl h)
  · unfold readJson
    split
    · exact .map fun d => Heap.load_extends h d
    · exact .error _
  · exact .map fun d => Heap.load_extends h d

end Function

end Rulebook.Script
