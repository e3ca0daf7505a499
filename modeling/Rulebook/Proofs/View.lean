/-
  What a value stands for depends on the objects below it.

  The references of a value name its objects, and these hold references to further ones.  Two heaps
  `AgreeOn` some objects if those are the same in both and hold no others; a value that only refers
  to such objects stands for the same data in both heaps.

  * `Value.plain_congr`, `Cell.plain_congr`: a value, or an object, and its references;
  * `Heap.plainRef_fuel`: objects, however much fuel there is;
  * `Heap.AgreeOn.plain_eq`: values in two heaps.
-/
import Mathlib.Data.List.Basic
import Mathlib.Data.List.Perm.Subperm
import Mathlib.Tactic.SplitIfs
import Rulebook.Copy

namespace Rulebook

/-! ## References -/

theorem Value.allRefs_eq (vs : List Value) : Value.allRefs vs = vs.flatMap Value.refs := by
  induction vs with
  | nil => rfl
  | cons v vs ih => rw [Value.allRefs, ih, List.flatMap_cons]

mutual

theorem Value.plain_congr {f g : Ref → Data} :
    ∀ v : Value, (∀ r ∈ v.refs, f r = g r) → v.plain f = v.plain g
  | .null, _ | .bool _, _ | .int _, _ | .float _, _ | .text _, _ | .instant _, _
  | .duration _, _ => rfl
  | .tuple vs, h => congrArg Data.tuple (Value.plainAll_congr vs h)
  | .slice a b c, h => by
    simp only [Value.refs, List.forall_mem_append] at h
    rw [Value.plain, Value.plain, plain_congr a h.1.1, plain_congr b h.1.2, plain_congr c h.2]
  | .list r, h => h r (by simp [Value.refs])
  | .mapping r, h => h r (by simp [Value.refs])

theorem Value.plainAll_congr {f g : Ref → Data} :
    ∀ vs : List Value, (∀ r ∈ Value.allRefs vs, f r = g r) →
      Value.plainAll f vs = Value.plainAll g vs
  | [], _ => rfl
  | v :: vs, h => by
    simp only [Value.allRefs, List.forall_mem_append] at h
    rw [Value.plainAll, Value.plainAll, plain_congr v h.1, plainAll_congr vs h.2]

end

/-! ## Objects -/

namespace Cell

/-- The plain data of an object, by what its references stand for. -/
def plain (g : Ref → Data) : Cell → Data
  | .list vs => .list (vs.map (Value.plain g))
  | .mapping es => .mapping (es.map fun e => (e.1.plain g, e.2.plain g))

/-- What an object stands for within itself. -/
def knot : Cell → Data
  | .list _ => .cycle false
  | .mapping _ => .cycle true

theorem plain_congr {f g : Ref → Data} (c : Cell) (h : ∀ r ∈ c.refs, f r = g r) :
    c.plain f = c.plain g := by
  cases c with
  | list vs =>
    refine congrArg Data.list (List.map_congr_left fun v hv => ?_)
    exact Value.plain_congr v fun r hr => h r (List.mem_flatMap.2 ⟨v, hv, hr⟩)
  | mapping es =>
    refine congrArg Data.mapping (List.map_congr_left fun e he => ?_)
    have hrefs : ∀ r ∈ e.1.refs ++ e.2.refs, f r = g r := fun r hr =>
      h r (List.mem_flatMap.2 ⟨e, he, hr⟩)
    rw [List.forall_mem_append] at hrefs
    rw [Value.plain_congr e.1 hrefs.1, Value.plain_congr e.2 hrefs.2]

end Cell

namespace Heap

/-! ## Agreement -/

/-- Two heaps have some objects in common, and these hold references to each other only. -/
def AgreeOn (h h' : Heap) (P : Ref → Prop) : Prop :=
  ∀ r, P r → ∃ c, h.read? r = some c ∧ h'.read? r = some c ∧ ∀ s ∈ c.refs, P s

theorem lt_of_read {h : Heap} {r : Ref} {c : Cell} (hr : h.read? r = some c) :
    r < h.cells.size :=
  (Array.getElem?_eq_some_iff.1 hr).1

/-- A path through objects that meets none twice is no longer than there are objects. -/
theorem path_length_le {path : List Ref} {n : Nat} (hnodup : path.Nodup)
    (hpath : ∀ s ∈ path, s < n) : path.length ≤ n := by
  have hsub : path ⊆ List.range n := fun s hs => List.mem_range.2 (hpath s hs)
  simpa using (List.subperm_of_subset hnodup hsub).length_le

theorem plainRef_succ (h : Heap) (fuel : Nat) (path : List Ref) (r : Ref) :
    h.plainRef (fuel + 1) path r =
      match h.read? r with
      | some c => if r ∈ path then c.knot else c.plain (h.plainRef fuel (r :: path))
      | none => .null := by
  rw [plainRef]
  rcases h.read? r with - | ⟨vs | es⟩
  · rfl
  · simp [Cell.knot, Cell.plain]
  · simp [Cell.knot, Cell.plain]

/-- The plain data of an object is the same whatever the fuel is, if that is enough for all paths. -/
theorem plainRef_fuel (h : Heap) (fuel fuel' : Nat) (path : List Ref) (r : Ref)
    (hnodup : path.Nodup) (hpath : ∀ s ∈ path, s < h.cells.size)
    (hf : h.cells.size + 1 ≤ fuel + path.length) (hf' : h.cells.size + 1 ≤ fuel' + path.length) :
    h.plainRef fuel' path r = h.plainRef fuel path r := by
  have hlen := path_length_le hnodup hpath
  induction fuel generalizing fuel' path r with
  | zero => omega
  | succ fuel ih =>
    obtain ⟨fuel', rfl⟩ := Nat.exists_eq_add_one_of_ne_zero (n := fuel') (by omega)
    rw [plainRef_succ, plainRef_succ]
    cases hread : h.read? r with
    | none => rfl
    | some c =>
      dsimp only
      split_ifs with hmem
      · rfl
      · refine c.plain_congr fun s _ => ?_
        have hnodup' : (r :: path).Nodup := List.nodup_cons.2 ⟨hmem, hnodup⟩
        have hpath' : ∀ t ∈ r :: path, t < h.cells.size :=
          List.forall_mem_cons.2 ⟨lt_of_read hread, hpath⟩
        exact ih fuel' (r :: path) s hnodup' hpath' (by simp only [List.length_cons]; omega)
          (by simp only [List.length_cons]; omega) (path_length_le hnodup' hpath')

/-- The plain data of an object is the same in heaps that agree on it. -/
theorem AgreeOn.plainRef_eq {h h' : Heap} {P : Ref → Prop} (ha : h.AgreeOn h' P) (fuel : Nat)
    (path : List Ref) (r : Ref) (hr : P r) : h'.plainRef fuel path r = h.plainRef fuel path r := by
  induction fuel generalizing path r with
  | zero =>
    obtain ⟨c, hread, hread', -⟩ := ha r hr
    rw [plainRef, plainRef, hread, hread']
  | succ fuel ih =>
    obtain ⟨c, hread, hread', hrefs⟩ := ha r hr
    rw [plainRef_succ, plainRef_succ, hread, hread']
    dsimp only
    rw [c.plain_congr fun s hs => ih (r :: path) s (hrefs s hs)]

/-- A value stands for the same in heaps that agree on what it refers to. -/
theorem AgreeOn.plain_eq {h h' : Heap} {P : Ref → Prop} (ha : h.AgreeOn h' P)
    (hsize : h.cells.size ≤ h'.cells.size) {v : Value} (hv : ∀ r ∈ v.refs, P r) :
    h'.plain v = h.plain v :=
  Value.plain_congr v fun r hr => by
    rw [ha.plainRef_eq _ _ r (hv r hr)]
    exact plainRef_fuel h _ _ [] r List.nodup_nil nofun (by simp) (by simpa using hsize)

end Heap

end Rulebook
