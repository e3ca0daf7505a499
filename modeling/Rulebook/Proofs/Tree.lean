/-
  Objects that form a tree.

  From some references on, one meets the objects that they name, the objects that those hold, and so
  on.  They form a `Tree` if none is met twice and none is missing: nothing is shared, and nothing
  holds itself.

  * `Tree.of_held`, `Tree.of_leaf`: the tree of an object from those of its parts;
  * `Tree.held`, `Tree.apart`, `Tree.not_reaches`: the parts of a tree are trees of their own;
  * `Tree.agreeOn`: heaps that read the objects of a tree alike agree on them.
-/
import Mathlib.Data.List.Flatten
import Mathlib.Data.List.Nodup
import Mathlib.Data.List.Pairwise
import Rulebook.Proofs.View

namespace Rulebook.Heap

/-! ## Meeting objects -/

/-- The objects that are met from references on, down to a depth, each as often as it is met. -/
def met (h : Heap) : Nat → List Ref → List Ref
  | 0, _ => []
  | n + 1, rs => rs.flatMap fun r => r :: h.met n (h.held r)

/-- An object is met from references on. -/
def Reaches (h : Heap) (rs : List Ref) (s : Ref) : Prop :=
  ∃ n, s ∈ h.met n rs

/-- From references on, no object is met twice and none is missing. -/
structure Tree (h : Heap) (rs : List Ref) : Prop where
  once : ∀ n, (h.met n rs).Nodup
  live : ∀ s, h.Reaches rs s → s < h.cells.size

variable {h h' : Heap} {r s t : Ref} {rs ss : List Ref}

theorem met_flatMap {α : Type} (h : Heap) (n : Nat) (l : List α) (f : α → List Ref) :
    h.met n (l.flatMap f) = l.flatMap fun a => h.met n (f a) := by
  cases n with
  | zero => simp [met]
  | succ n => simp only [met, List.flatMap_assoc]

theorem met_succ_sublist (h : Heap) (n : Nat) (rs : List Ref) :
    (h.met n rs).Sublist (h.met (n + 1) rs) := by
  induction n generalizing rs with
  | zero => exact List.nil_sublist _
  | succ n ih => exact List.Sublist.flatMap_right rs fun r _ => (ih (h.held r)).cons_cons r

theorem met_sublist (h : Heap) {n m : Nat} (hn : n ≤ m) (hrs : rs.Sublist ss) :
    (h.met n rs).Sublist (h.met m ss) := by
  have hmono : (h.met n ss).Sublist (h.met m ss) := by
    induction hn with
    | refl => exact .refl _
    | step _ ih => exact ih.trans (met_succ_sublist h _ ss)
  refine .trans ?_ hmono
  cases n with
  | zero => exact .refl _
  | succ n => exact hrs.flatMap _

/-- What is met from the references in an object on is met from the object on. -/
theorem met_held_sublist (h : Heap) (n : Nat) (hr : r ∈ rs) :
    (h.met n (h.held r)).Sublist (h.met (n + 1) rs) := by
  have hone : (h.met n (h.held r)).Sublist (h.met (n + 1) [r]) := by simp [met]
  exact hone.trans (met_sublist h (Nat.le_refl _) (List.singleton_sublist.2 hr))

namespace Reaches

theorem of_mem (hr : r ∈ rs) : h.Reaches rs r :=
  ⟨1, List.mem_flatMap.2 ⟨r, hr, List.mem_cons_self⟩⟩

theorem mono (hs : h.Reaches rs s) (hrs : rs.Sublist ss) : h.Reaches ss s := by
  obtain ⟨n, hn⟩ := hs
  exact ⟨n, (met_sublist h (Nat.le_refl _) hrs).subset hn⟩

theorem of_held (hr : r ∈ rs) (hs : h.Reaches (h.held r) s) : h.Reaches rs s := by
  obtain ⟨n, hn⟩ := hs
  exact ⟨n + 1, (met_held_sublist h n hr).subset hn⟩

theorem step (hs : h.Reaches rs s) (ht : t ∈ h.held s) : h.Reaches rs t := by
  obtain ⟨n, hn⟩ := hs
  induction n generalizing rs with
  | zero => exact absurd hn (by simp [met])
  | succ n ih =>
    obtain ⟨r, hr, hsr⟩ := List.mem_flatMap.1 hn
    rcases List.mem_cons.1 hsr with rfl | hsr
    · exact of_held hr (of_mem ht)
    · exact of_held hr (ih hsr)

theorem not_nil (h : Heap) (s : Ref) : ¬h.Reaches [] s := by
  rintro ⟨n, hn⟩
  cases n <;> simp [met] at hn

/-- From an object on one meets itself and what is met from the references in it on. -/
theorem singleton_iff : h.Reaches [r] s ↔ s = r ∨ h.Reaches (h.held r) s := by
  constructor
  · rintro ⟨n, hn⟩
    cases n with
    | zero => exact absurd hn (by simp [met])
    | succ n =>
      simp only [met, List.flatMap_cons, List.flatMap_nil, List.append_nil, List.mem_cons] at hn
      exact hn.imp_right fun hn => ⟨n, hn⟩
  · rintro (rfl | hs)
    · exact of_mem (List.mem_singleton_self s)
    · exact of_held (List.mem_singleton_self r) hs

end Reaches

/-! ## Trees -/

namespace Tree

theorem nil (h : Heap) : h.Tree [] where
  once n := by cases n <;> simp [met]
  live s hs := absurd hs (Reaches.not_nil h s)

/-- An object that is not below itself has a tree if the references in it have one. -/
theorem of_held (hlt : r < h.cells.size) (tree : h.Tree (h.held r))
    (hnot : ¬h.Reaches (h.held r) r) : h.Tree [r] where
  once n := by
    cases n with
    | zero => simp [met]
    | succ n => simpa [met] using ⟨fun hr => hnot ⟨n, hr⟩, tree.once n⟩
  live s hs := (Reaches.singleton_iff.1 hs).elim (fun h => h ▸ hlt) (tree.live s)

theorem of_leaf (hlt : r < h.cells.size) (hheld : h.held r = []) : h.Tree [r] :=
  of_held hlt (hheld ▸ nil h) (hheld ▸ Reaches.not_nil h r)

theorem sublist (tree : h.Tree ss) (hrs : rs.Sublist ss) : h.Tree rs where
  once n := (tree.once n).sublist (met_sublist h (Nat.le_refl _) hrs)
  live s hs := tree.live s (hs.mono hrs)

theorem held (tree : h.Tree rs) (hr : r ∈ rs) : h.Tree (h.held r) where
  once n := (tree.once (n + 1)).sublist (met_held_sublist h n hr)
  live s hs := tree.live s (hs.of_held hr)

/-- An object of a tree does not hold itself, at whatever depth. -/
theorem not_reaches (tree : h.Tree rs) (hr : r ∈ rs) : ¬h.Reaches (h.held r) r := by
  rintro ⟨n, hn⟩
  have honce := (tree.sublist (List.singleton_sublist.2 hr)).once (n + 1)
  simp only [met, List.flatMap_cons, List.flatMap_nil, List.append_nil] at honce
  exact (List.nodup_cons.1 honce).1 hn

/-- Objects that are met from two parts of a tree on are not the same. -/
theorem apart {α : Type} {l : List α} {f : α → List Ref} (tree : h.Tree (l.flatMap f)) {a b : α}
    (ha : a ∈ l) (hb : b ∈ l) (hne : a ≠ b) (hs : h.Reaches (f a) s) : ¬h.Reaches (f b) s := by
  rintro ⟨m, hm⟩
  obtain ⟨n, hn⟩ := hs
  have honce := tree.once (max n m)
  rw [met_flatMap, List.nodup_flatMap] at honce
  have hsymm : Std.Symm fun a b => List.Disjoint (h.met (max n m) (f a)) (h.met (max n m) (f b)) :=
    ⟨fun _ _ => List.disjoint_symm⟩
  exact honce.2.forall ha hb hne ((met_sublist h (Nat.le_max_left n m) (.refl _)).subset hn)
    ((met_sublist h (Nat.le_max_right n m) (.refl _)).subset hm)

/-- A heap agrees with another on the objects of a tree if it reads them the same. -/
theorem agreeOn (tree : h.Tree rs) (heq : ∀ s, h.Reaches rs s → h'.read? s = h.read? s) :
    h.AgreeOn h' (h.Reaches rs) := fun s hs => by
  have hlt := tree.live s hs
  have hread : h.read? s = some h.cells[s] := Array.getElem?_eq_getElem hlt
  refine ⟨_, hread, (heq s hs).trans hread, fun t ht => hs.step ?_⟩
  rwa [Heap.held, hread]

end Tree

end Rulebook.Heap
