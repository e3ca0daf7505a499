/-
  Comparisons of values come to an end.

  A path through pairs of objects that meets no pair twice is no longer than there are pairs, so that
  the bound on such paths is never what ends a comparison: it ends because it is done, or because
  it meets a pair again.

  * `Heap.comparing_fuel`: comparisons of objects, however much fuel there is;
  * `Heap.equal_endless`, `Heap.compareBy_endless`: the faults that they end with.
-/
import Mathlib.Data.List.ProdSigma
import Rulebook.Heap.Comparison
import Rulebook.Proofs.Faults
import Rulebook.Proofs.View

namespace Rulebook

namespace Heap

/-! ## Fuel -/

/-- A path through pairs that meets none twice is no longer than there are pairs. -/
theorem pairs_length_le {path : List (Ref × Ref)} {n : Nat} (hnodup : path.Nodup)
    (hpath : ∀ p ∈ path, p.1 < n ∧ p.2 < n) : path.length ≤ n * n := by
  have hsub : path ⊆ List.range n ×ˢ List.range n := fun p hp =>
    List.mem_product.2 ⟨List.mem_range.2 (hpath p hp).1, List.mem_range.2 (hpath p hp).2⟩
  simpa [List.length_product] using (List.subperm_of_subset hnodup hsub).length_le

/-- Two objects compare the same whatever the fuel is, if that is enough for all paths. -/
theorem comparing_fuel (h : Heap)
    (cells : (Ref → Ref → Except Fault Bool) → Cell → Cell → Except Fault Bool)
    (fuel fuel' : Nat) (path : List (Ref × Ref)) (hnodup : path.Nodup)
    (hpath : ∀ p ∈ path, p.1 < h.cells.size ∧ p.2 < h.cells.size)
    (hf : h.pairBound ≤ fuel + path.length) (hf' : h.pairBound ≤ fuel' + path.length) :
    h.comparing cells fuel' path = h.comparing cells fuel path := by
  have hlen := pairs_length_le hnodup hpath
  unfold pairBound at hf hf'
  induction fuel generalizing fuel' path with
  | zero => omega
  | succ fuel ih =>
    obtain ⟨fuel', rfl⟩ := Nat.exists_eq_add_one_of_ne_zero (n := fuel') (by omega)
    funext r s
    rw [comparing, comparing]
    split_ifs with hmem
    · rfl
    · cases hr : h.read? r with
      | none => rfl
      | some c =>
        cases hs : h.read? s with
        | none => rfl
        | some d =>
          have hnodup' : ((r, s) :: path).Nodup := List.nodup_cons.2 ⟨hmem, hnodup⟩
          have hpath' : ∀ p ∈ (r, s) :: path, p.1 < h.cells.size ∧ p.2 < h.cells.size :=
            List.forall_mem_cons.2 ⟨⟨lt_of_read hr, lt_of_read hs⟩, hpath⟩
          dsimp only
          rw [ih fuel' ((r, s) :: path) hnodup' hpath' (by simp only [List.length_cons]; omega)
            (by simp only [List.length_cons]; omega) (pairs_length_le hnodup' hpath')]

end Heap

/-! ## Faults -/

/-- An operation has a result, or its fault is of one of some kinds, or it compares without end. -/
def FaultsInOrEndless {α : Type} (ks : List FaultKind) (r : Except Fault α) : Prop :=
  FaultsAre (fun f => f.kind ∈ ks ∨ f = .endlessComparison) r

theorem FaultsInOrEndless.mono {α : Type} {ks ls : List FaultKind} {r : Except Fault α}
    (h : FaultsInOrEndless ks r) (hks : ks ⊆ ls) : FaultsInOrEndless ls r :=
  h.imp fun _ hf => hf.imp_left fun hf => hks hf

variable {objects : Ref → Ref → Except Fault Bool}

theorem Value.equalBy_endless (hobjects : ∀ r s, FaultsInOrEndless [] (objects r s)) (v w : Value) :
    FaultsInOrEndless [] (v.equalBy objects w) := by
  induction v, w using equalBy.induct
    (motive_2 := fun vs ws => FaultsInOrEndless [] (allEqualBy objects vs ws)) with
  | case1 r | case3 r =>
    rw [equalBy, if_pos rfl]
    exact .ok _
  | case2 r s hne | case4 r s hne =>
    rw [equalBy, if_neg hne]
    exact hobjects r s
  | case5 vs ws ih =>
    rw [equalBy]
    exact ih.bind fun _ => .ok _
  | case6 a b c a' b' c' iha ihb ihc =>
    rw [equalBy]
    exact iha.bind fun _ => .ite (.ok _) (ihb.bind fun _ => .ite (.ok _) ihc)
  | case7 v w =>
    rw [equalBy]
    · exact .ok _
    all_goals assumption
  | case8 v vs w ws ih ihs =>
    rw [allEqualBy]
    exact ih.bind fun _ => .ite ihs (.ok _)
  | case9 vs ws =>
    rw [allEqualBy]
    · exact .ok _
    all_goals assumption

theorem Value.allEqualBy_endless (hobjects : ∀ r s, FaultsInOrEndless [] (objects r s))
    (vs ws : List Value) : FaultsInOrEndless [] (allEqualBy objects vs ws) := by
  induction vs generalizing ws with
  | nil => exact .ok _
  | cons v vs ih =>
    cases ws with
    | nil => exact .ok _
    | cons w ws => exact (equalBy_endless hobjects v w).bind fun _ => .ite (ih ws) (.ok _)

theorem Entries.withinBy_endless (hobjects : ∀ r s, FaultsInOrEndless [] (objects r s))
    (fs es : Entries) : FaultsInOrEndless [] (withinBy objects fs es) := by
  induction es with
  | nil => exact .ok _
  | cons e es ih =>
    rw [withinBy]
    split
    · exact .ok _
    · exact (Value.equalBy_endless hobjects _ _).bind fun _ => .ite ih (.ok _)

theorem Cell.equalBy_endless (hobjects : ∀ r s, FaultsInOrEndless [] (objects r s)) (c d : Cell) :
    FaultsInOrEndless [] (c.equalBy objects d) := by
  unfold equalBy
  split
  · exact .ite (Value.allEqualBy_endless hobjects _ _) (.ok _)
  · exact .ite (Entries.withinBy_endless hobjects _ _) (.ok _)
  · exact .ok _

theorem Value.compareBy_endless {equal : Value → Value → Except Fault Bool} {op : Data.Comparison}
    (hequal : ∀ v w, FaultsInOrEndless [] (equal v w))
    (hobjects : ∀ r s, FaultsInOrEndless [.type] (objects r s)) (v w : Value) :
    FaultsInOrEndless [.type] (v.compareBy equal objects op w) := by
  induction v, w using compareBy.induct
    (motive_2 := fun vs ws => FaultsInOrEndless [.type] (compareItemsBy equal objects op vs ws)) with
  | case1 r s =>
    rw [compareBy]
    exact hobjects r s
  | case2 vs ws ih =>
    rw [compareBy]
    exact ih
  | case3 v w _ _ hobject =>
    rw [compareBy, if_pos hobject]
    · exact .expected rfl
    all_goals assumption
  | case4 v w _ _ hobject =>
    rw [compareBy, if_neg hobject]
    · exact (Data.faultsIn_compareBy op _ _).orOthers (List.Subset.refl _)
    all_goals assumption
  | case5 | case6 | case7 =>
    rw [compareItemsBy]
    exact .ok _
  | case8 v vs w ws ihs ih =>
    rw [compareItemsBy]
    exact FaultsAre.bind ((hequal v w).imp fun _ hf => .inr (hf.resolve_left nofun))
      fun _ => .ite ihs ih

theorem Value.compareItemsBy_endless {equal : Value → Value → Except Fault Bool}
    {op : Data.Comparison} (hequal : ∀ v w, FaultsInOrEndless [] (equal v w))
    (hobjects : ∀ r s, FaultsInOrEndless [.type] (objects r s)) (vs ws : List Value) :
    FaultsInOrEndless [.type] (compareItemsBy equal objects op vs ws) := by
  have htuples : FaultsInOrEndless [.type] (compareBy equal objects op (.tuple vs) (.tuple ws)) :=
    compareBy_endless hequal hobjects (.tuple vs) (.tuple ws)
  rwa [compareBy] at htuples

theorem Cell.compareBy_endless {equal : Value → Value → Except Fault Bool} {op : Data.Comparison}
    (hequal : ∀ v w, FaultsInOrEndless [] (equal v w))
    (hobjects : ∀ r s, FaultsInOrEndless [.type] (objects r s)) (c d : Cell) :
    FaultsInOrEndless [.type] (c.compareBy equal op objects d) := by
  unfold compareBy
  split
  · exact Value.compareItemsBy_endless hequal hobjects _ _
  · exact .expected rfl

namespace Heap

variable {ks : List FaultKind}

theorem comparing_endless (h : Heap)
    {cells : (Ref → Ref → Except Fault Bool) → Cell → Cell → Except Fault Bool}
    (hcells : ∀ objects, (∀ r s, FaultsInOrEndless ks (objects r s)) →
      ∀ c d, FaultsInOrEndless ks (cells objects c d))
    (fuel : Nat) (path : List (Ref × Ref)) (r s : Ref) :
    FaultsInOrEndless ks (h.comparing cells fuel path r s) := by
  induction fuel generalizing path r s with
  | zero => exact .of_error (.inr rfl)
  | succ fuel ih =>
    rw [comparing]
    refine .ite (.of_error (.inr rfl)) ?_
    split
    · exact hcells _ (ih _) _ _
    · exact .ok _

theorem equal_endless (h : Heap) (v w : Value) : FaultsInOrEndless [] (h.equal v w) :=
  Value.equalBy_endless (h.comparing_endless (fun _ ho => Cell.equalBy_endless ho) _ _) v w

theorem compareBy_endless (h : Heap) (op : Data.Comparison) (v w : Value) :
    FaultsInOrEndless [.type] (h.compareBy op v w) :=
  Value.compareBy_endless h.equal_endless
    (h.comparing_endless (fun _ ho => Cell.compareBy_endless h.equal_endless ho) _ _) v w

end Heap

end Rulebook
