/-
  Deep copies.

  A copy of values has a new object for every object that is met from them, and refers to the new
  objects where the values refer to the old ones.  What was shared is shared again, and what held
  itself holds itself again; the old objects stay as they are.
-/
import Rulebook.Heap

namespace Rulebook

/-! ## References -/

mutual

/-- The references in a value. -/
def Value.refs : Value → List Ref
  | .tuple vs => Value.allRefs vs
  | .slice a b c => a.refs ++ b.refs ++ c.refs
  | .list r => [r]
  | .mapping r => [r]
  | _ => []

/-- The references in several values. -/
def Value.allRefs : List Value → List Ref
  | [] => []
  | v :: vs => v.refs ++ Value.allRefs vs

end

/-- The references in entries. -/
def Entries.refs (es : Entries) : List Ref :=
  es.flatMap fun e => e.1.refs ++ e.2.refs

/-- The references in an object. -/
def Cell.refs : Cell → List Ref
  | .list vs => vs.flatMap Value.refs
  | .mapping es => es.flatMap fun e => e.1.refs ++ e.2.refs

/-- The references in the object of a reference. -/
def Heap.held (h : Heap) (r : Ref) : List Ref :=
  match h.read? r with
  | some c => c.refs
  | none => []

/-! ## Renaming -/

mutual

/-- A value with other references. -/
def Value.rename (f : Ref → Ref) : Value → Value
  | .null => .null
  | .bool b => .bool b
  | .int n => .int n
  | .float x => .float x
  | .text s => .text s
  | .instant t => .instant t
  | .duration d => .duration d
  | .tuple vs => .tuple (Value.renameAll f vs)
  | .slice a b c => .slice (a.rename f) (b.rename f) (c.rename f)
  | .list r => .list (f r)
  | .mapping r => .mapping (f r)

/-- Several values with other references. -/
def Value.renameAll (f : Ref → Ref) : List Value → List Value
  | [] => []
  | v :: vs => v.rename f :: Value.renameAll f vs

end

/-- Entries with other references. -/
def Entries.rename (f : Ref → Ref) (es : Entries) : Entries :=
  es.map fun e => (e.1.rename f, e.2.rename f)

/-- An object with other references. -/
def Cell.rename (f : Ref → Ref) : Cell → Cell
  | .list vs => .list (Value.renameAll f vs)
  | .mapping es => .mapping (Entries.rename f es)

/-! ## Copies -/

namespace Heap

/-- How many objects are not among those seen. -/
def unseen (h : Heap) (seen : List Ref) : Nat :=
  ((List.range h.cells.size).filter fun r => !seen.contains r).length

theorem unseen_cons_lt {h : Heap} {seen : List Ref} {r : Ref} (hr : r < h.cells.size)
    (hseen : seen.contains r = false) : h.unseen (r :: seen) < h.unseen seen := by
  have hfilter : (List.range h.cells.size).filter (fun s => !(r :: seen).contains s) =
      ((List.range h.cells.size).filter fun s => !seen.contains s).filter (· != r) := by
    rw [List.filter_filter]
    refine List.filter_congr fun s _ => ?_
    rw [List.contains_cons, Bool.not_or, bne]
  unfold unseen
  rw [hfilter, List.length_filter_lt_length_iff_exists]
  exact ⟨r, List.mem_filter.2 ⟨List.mem_range.2 hr, by rw [hseen]; rfl⟩, by simp⟩

/-- The objects that are met from references on, each once, after those that were seen before. -/
def reached (h : Heap) (seen : List Ref) : List Ref → List Ref
  | [] => seen
  | r :: todo =>
    if _ : r < h.cells.size ∧ seen.contains r = false then
      h.reached (r :: seen) (h.held r ++ todo)
    else h.reached seen todo
termination_by todo => (h.unseen seen, todo.length)
decreasing_by
  · next hr => exact Prod.Lex.left _ _ (unseen_cons_lt hr.1 hr.2)
  · exact Prod.Lex.right _ (Nat.lt_succ_self _)

/-- Where the copy of an object is, if these objects are copied to the end of the heap.  References
    past the end stay there. -/
def copyOf (h : Heap) (rs : List Ref) (r : Ref) : Ref :=
  if r < h.cells.size then h.cells.size + rs.idxOf r else r + rs.length

/-- The heap with copies of these objects at its end. -/
def withCopies (h : Heap) (rs : List Ref) : Heap :=
  ⟨h.cells ++ ((rs.filterMap h.read?).map (Cell.rename (h.copyOf rs))).toArray⟩

/-- A deep copy of entries. -/
def copyEntries (h : Heap) (es : Entries) : Entries × Heap :=
  let rs := h.reached [] es.refs
  (es.rename (h.copyOf rs), h.withCopies rs)

end Heap

end Rulebook
