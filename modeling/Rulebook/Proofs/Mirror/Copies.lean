/-
  Deep copies mirror what they copy.

  What is met from references on is a whole: it holds each object once and, with an object, all
  objects that it holds.  Gathered on a heap of their own, such objects are mirrored twice, by
  themselves where they are and by their copies at the end of the heap.

  * `reached_whole`, `mem_reached`: what is met;
  * `gathered_mirrors_objects`, `gathered_mirrors_copies`: the two mirrors.
-/
import Mathlib.Data.List.Nodup
import Rulebook.Proofs.Mirror.Basic

namespace Rulebook.Heap

variable {h : Heap} {seen todo rs : List Ref}

/-! ## What is met -/

theorem seen_subset_reached : seen ⊆ h.reached seen todo := by
  fun_induction reached h seen todo with
  | case1 => exact List.Subset.refl _
  | case2 seen r todo hr ih => exact List.Subset.trans (List.subset_cons_self r seen) ih
  | case3 seen r todo hr ih => exact ih

/-- **An object of the heap is met** if its turn comes. -/
theorem mem_reached {r : Ref} (hr : r ∈ todo) (hlt : r < h.cells.size) :
    r ∈ h.reached seen todo := by
  fun_induction reached h seen todo with
  | case1 => cases hr
  | case2 seen s todo hs ih =>
    rcases List.mem_cons.1 hr with rfl | hr
    · exact seen_subset_reached (List.mem_cons_self ..)
    · exact ih (List.mem_append_right _ hr)
  | case3 seen s todo hs ih =>
    rcases List.mem_cons.1 hr with rfl | hr
    · have hseen : seen.contains r = true := by
        by_contra hnot
        exact hs ⟨hlt, Bool.not_eq_true _ ▸ hnot⟩
      exact seen_subset_reached (List.contains_iff_mem.1 hseen)
    · exact ih hr

/-- Objects of a heap, each once, with all objects that they hold. -/
structure Whole (h : Heap) (rs : List Ref) : Prop where
  nodup : rs.Nodup
  lt : ∀ r ∈ rs, r < h.cells.size
  closed : ∀ r ∈ rs, ∀ t ∈ h.held r, t < h.cells.size → t ∈ rs

theorem reached_whole_of (hnodup : seen.Nodup) (hlt : ∀ r ∈ seen, r < h.cells.size)
    (hheld : ∀ r ∈ seen, ∀ t ∈ h.held r, t < h.cells.size → t ∈ seen ∨ t ∈ todo) :
    h.Whole (h.reached seen todo) := by
  fun_induction reached h seen todo with
  | case1 seen =>
    exact ⟨hnodup, hlt, fun r hr t ht htlt => (hheld r hr t ht htlt).resolve_right nofun⟩
  | case2 seen s todo hs ih =>
    have hfresh : s ∉ seen := fun hmem => by
      rw [← List.contains_iff_mem, hs.2] at hmem
      cases hmem
    refine ih (List.nodup_cons.2 ⟨hfresh, hnodup⟩) ?_ fun r hr t ht htlt => ?_
    · exact List.forall_mem_cons.2 ⟨hs.1, hlt⟩
    · rcases List.mem_cons.1 hr with rfl | hr
      · exact .inr (List.mem_append_left _ ht)
      · rcases hheld r hr t ht htlt with hseen | htodo
        · exact .inl (List.mem_cons_of_mem s hseen)
        · rcases List.mem_cons.1 htodo with rfl | htodo
          · exact .inl (List.mem_cons_self ..)
          · exact .inr (List.mem_append_right _ htodo)
  | case3 seen s todo hs ih =>
    refine ih hnodup hlt fun r hr t ht htlt => ?_
    rcases hheld r hr t ht htlt with hseen | htodo
    · exact .inl hseen
    · rcases List.mem_cons.1 htodo with rfl | htodo
      · left
        by_contra hnot
        exact hs ⟨htlt, by simpa using hnot⟩
      · exact .inr htodo

/-- **What is met from references on is a whole.** -/
theorem reached_whole (h : Heap) (todo : List Ref) : h.Whole (h.reached [] todo) :=
  reached_whole_of List.nodup_nil nofun nofun

/-! ## Objects on a heap of their own -/

/-- Where an object is among those that are gathered. -/
def placeOf (h : Heap) (rs : List Ref) (r : Ref) : Ref :=
  if r < h.cells.size then rs.idxOf r else rs.length + (r - h.cells.size)

/-- Which object is at a place among those that are gathered. -/
def objectAt (h : Heap) (rs : List Ref) (i : Ref) : Ref :=
  if hi : i < rs.length then rs[i] else h.cells.size + (i - rs.length)

/-- These objects on a heap of their own. -/
def gathered (h : Heap) (rs : List Ref) : Heap :=
  ⟨((rs.filterMap h.read?).map (Cell.rename (h.placeOf rs))).toArray⟩

/-- The copies are where the gathered objects are, after those of the heap. -/
theorem copyOf_eq (h : Heap) (rs : List Ref) :
    h.copyOf rs = (h.cells.size + ·) ∘ h.placeOf rs := by
  funext r
  unfold copyOf placeOf
  dsimp only [Function.comp_apply]
  split_ifs with hr
  · rfl
  · rw [Nat.add_left_comm, Nat.add_sub_cancel' (Nat.not_lt.1 hr), Nat.add_comm]

theorem getElem?_filterMap_read (hlt : ∀ r ∈ rs, r < h.cells.size) (i : Nat) :
    (rs.filterMap h.read?)[i]? = rs[i]?.bind h.read? := by
  induction rs generalizing i with
  | nil => rfl
  | cons r rs ih =>
    obtain ⟨hr, hrs⟩ := List.forall_mem_cons.1 hlt
    have hread : h.read? r = some h.cells[r] := Array.getElem?_eq_getElem hr
    rw [List.filterMap_cons_some hread]
    cases i with
    | zero => exact hread.symm
    | succ i => exact ih hrs i

theorem length_filterMap_read (hlt : ∀ r ∈ rs, r < h.cells.size) :
    (rs.filterMap h.read?).length = rs.length := by
  induction rs with
  | nil => rfl
  | cons r rs ih =>
    obtain ⟨hr, hrs⟩ := List.forall_mem_cons.1 hlt
    have hread : h.read? r = some h.cells[r] := Array.getElem?_eq_getElem hr
    rw [List.filterMap_cons_some hread, List.length_cons, List.length_cons, ih hrs]

namespace Whole

theorem objectAt_placeOf {r : Ref} (hr : r < h.cells.size → r ∈ rs) :
    h.objectAt rs (h.placeOf rs r) = r := by
  unfold objectAt placeOf
  split_ifs with hlt hplace hplace
  · exact List.getElem_idxOf hplace
  · exact absurd (List.idxOf_lt_length_of_mem (hr hlt)) hplace
  · exact absurd hplace (Nat.not_lt.2 (Nat.le_add_right _ _))
  · rw [Nat.add_sub_cancel_left, Nat.add_sub_cancel' (Nat.not_lt.1 hlt)]

variable (w : h.Whole rs)

include w

theorem objectAt_injective : Function.Injective (h.objectAt rs) := by
  intro i j hij
  have hnew (i k : Nat) (hi : i < rs.length) : rs[i] ≠ h.cells.size + k := fun heq =>
    Nat.not_lt.2 (Nat.le_add_right _ k) (heq ▸ w.lt _ (List.getElem_mem hi))
  unfold objectAt at hij
  split_ifs at hij with hi hj hj
  · exact (List.Nodup.getElem_inj_iff w.nodup).1 hij
  · exact absurd hij (hnew i _ hi)
  · exact absurd hij.symm (hnew j _ hj)
  · have hsame := Nat.add_left_cancel hij
    rw [← Nat.sub_add_cancel (Nat.not_lt.1 hi), hsame, Nat.sub_add_cancel (Nat.not_lt.1 hj)]

theorem size_gathered : (h.gathered rs).cells.size = rs.length := by
  rw [gathered, List.size_toArray, List.length_map, length_filterMap_read w.lt]

theorem size_withCopies : (h.withCopies rs).cells.size = h.cells.size + rs.length := by
  simp only [withCopies, Array.size_append, List.size_toArray, List.length_map,
    length_filterMap_read w.lt]

theorem read_gathered (i : Ref) :
    (h.gathered rs).read? i = (rs[i]?.bind h.read?).map (Cell.rename (h.placeOf rs)) := by
  rw [gathered, read?, List.getElem?_toArray, List.getElem?_map, getElem?_filterMap_read w.lt]

/-- **Gathered objects are mirrored where they are.** -/
theorem gathered_mirrors_objects : Mirrors (h.objectAt rs) h (h.gathered rs) h where
  read i := by
    rw [w.read_gathered, Option.map_map]
    unfold objectAt
    split_ifs with hi
    · rw [List.getElem?_eq_getElem hi, Option.bind_some]
      cases hc : h.read? rs[i] with
      | none => rfl
      | some c =>
        have hself : (c.rename (h.placeOf rs)).rename (h.objectAt rs) = c := by
          rw [Cell.rename_rename]
          refine Cell.rename_eq_self fun t ht => objectAt_placeOf fun htlt => ?_
          refine w.closed _ (List.getElem_mem hi) t ?_ htlt
          rwa [held, hc]
        exact congrArg some hself.symm
    · rw [List.getElem?_eq_none (Nat.not_lt.1 hi)]
      exact Array.getElem?_eq_none (Nat.le_add_right _ _)
  next i := by
    rw [w.size_gathered, objectAt, dif_neg (Nat.not_lt.2 (Nat.le_add_right _ _)),
      Nat.add_sub_cancel_left]
  size_le := by
    have hsub : rs ⊆ List.range h.cells.size := fun r hr => List.mem_range.2 (w.lt r hr)
    have hle := (w.nodup.subperm hsub).length_le
    rwa [List.length_range, ← w.size_gathered] at hle
  aside _ _ := rfl

/-- **Gathered objects are mirrored by their copies.** -/
theorem gathered_mirrors_copies :
    Mirrors (h.cells.size + ·) h (h.gathered rs) (h.withCopies rs) where
  read i := by
    rw [w.read_gathered, Option.map_map, read?, withCopies,
      Array.getElem?_append_right (Nat.le_add_right _ _), Nat.add_sub_cancel_left,
      List.getElem?_toArray, List.getElem?_map, getElem?_filterMap_read w.lt]
    congr 1
    funext c
    rw [copyOf_eq, Function.comp_apply, Cell.rename_rename]
  next i := by
    rw [w.size_gathered, w.size_withCopies, Nat.add_assoc]
  size_le := by
    rw [w.size_gathered, w.size_withCopies]
    exact Nat.le_add_left _ _
  aside r hr := by
    have hlt : r < h.cells.size := by
      by_contra hge
      exact hr (r - h.cells.size) (Nat.add_sub_cancel' (Nat.not_lt.1 hge))
    rw [read?, withCopies, Array.getElem?_append_left hlt]
    rfl

end Whole

end Rulebook.Heap
