/-
  Comparisons on mirrored heaps.

  A comparison follows the references of two values in step.  In a heap that mirrors another, the
  images of two values lead to the images of the objects that the values lead to, and to a pair of
  objects again just where those are met again.  So the images compare as the values do.

  * `Heap.Mirrors.comparing`: two objects;
  * `Heap.Mirrors.equal`, `Heap.Mirrors.compareBy`: two values.
-/
import Mathlib.Data.Prod.Basic
import Rulebook.Proofs.Comparison
import Rulebook.Proofs.Mirror.Basic

namespace Rulebook

variable {ρ : Ref → Ref} {f g : Ref → Ref → Except Fault Bool}
  {eq eq' : Value → Value → Except Fault Bool} {op : Data.Comparison}

/-! ## Parts of values -/

namespace Value

theorem isObject_rename (ρ : Ref → Ref) (v : Value) : (v.rename ρ).isObject = v.isObject := by
  cases v <;> rfl

/-! A value is of the shape of its image. -/

theorem of_rename_list {v : Value} {r : Ref} (h : v.rename ρ = .list r) : ∃ s, v = .list s := by
  cases v <;> cases h
  exact ⟨_, rfl⟩

theorem of_rename_mapping {v : Value} {r : Ref} (h : v.rename ρ = .mapping r) :
    ∃ s, v = .mapping s := by
  cases v <;> cases h
  exact ⟨_, rfl⟩

theorem of_rename_tuple {v : Value} {vs : List Value} (h : v.rename ρ = .tuple vs) :
    ∃ ws, v = .tuple ws := by
  cases v <;> cases h
  exact ⟨_, rfl⟩

theorem of_rename_slice {v a b c : Value} (h : v.rename ρ = .slice a b c) :
    ∃ a b c, v = .slice a b c := by
  cases v <;> cases h
  exact ⟨_, _, _, rfl⟩

/-! What is done with values is done with their images. -/

theorem equalBy_rename (hρ : Function.Injective ρ) (hfg : ∀ r s, g (ρ r) (ρ s) = f r s)
    (v w : Value) : (v.rename ρ).equalBy g (w.rename ρ) = v.equalBy f w := by
  induction v, w using equalBy.induct
    (motive_2 := fun vs ws =>
      allEqualBy g (renameAll ρ vs) (renameAll ρ ws) = allEqualBy f vs ws) with
  | case1 r | case3 r => simp only [rename, equalBy, if_true]
  | case2 r s hne | case4 r s hne => simp only [rename, equalBy, hρ.eq_iff, hne, if_false, hfg]
  | case5 vs ws ih =>
    have hlength (us : List Value) : (renameAll ρ us).length = us.length := by
      rw [renameAll_eq, List.length_map]
    simp only [rename, equalBy, ih, hlength]
  | case6 a b c a' b' c' iha ihb ihc => simp only [rename, equalBy, iha, ihb, ihc]
  | case7 v w hlists hmappings htuples hslices =>
    rw [equalBy, equalBy, isObject_rename, isObject_rename, plainNull_rename, plainNull_rename]
    · exact hlists
    · exact hmappings
    · exact htuples
    · exact hslices
    · intro r s hv hw
      obtain ⟨r, rfl⟩ := of_rename_list hv
      obtain ⟨s, rfl⟩ := of_rename_list hw
      exact hlists r s rfl rfl
    · intro r s hv hw
      obtain ⟨r, rfl⟩ := of_rename_mapping hv
      obtain ⟨s, rfl⟩ := of_rename_mapping hw
      exact hmappings r s rfl rfl
    · intro vs ws hv hw
      obtain ⟨vs, rfl⟩ := of_rename_tuple hv
      obtain ⟨ws, rfl⟩ := of_rename_tuple hw
      exact htuples vs ws rfl rfl
    · intro a b c a' b' c' hv hw
      obtain ⟨a, b, c, rfl⟩ := of_rename_slice hv
      obtain ⟨a', b', c', rfl⟩ := of_rename_slice hw
      exact hslices a b c a' b' c' rfl rfl
  | case8 v vs w ws ih ihs => simp only [renameAll, allEqualBy, ih, ihs]
  | case9 vs ws hcons =>
    cases vs with
    | nil => simp only [renameAll, allEqualBy]
    | cons v vs =>
      cases ws with
      | nil => simp only [renameAll, allEqualBy]
      | cons w ws => exact (hcons v vs w ws rfl rfl).elim

theorem compareBy_rename (heq : ∀ v w, eq' (v.rename ρ) (w.rename ρ) = eq v w)
    (hfg : ∀ r s, g (ρ r) (ρ s) = f r s) (v w : Value) :
    (v.rename ρ).compareBy eq' g op (w.rename ρ) = v.compareBy eq f op w := by
  induction v, w using compareBy.induct
    (motive_2 := fun vs ws => compareItemsBy eq' g op (renameAll ρ vs) (renameAll ρ ws) =
      compareItemsBy eq f op vs ws) with
  | case1 r s => simp only [rename, compareBy, hfg]
  | case2 vs ws ih => simpa only [rename, compareBy] using ih
  | case3 v w hlists htuples hobject | case4 v w hlists htuples hobject =>
    rw [compareBy, compareBy, isObject_rename, isObject_rename, typeName_rename, typeName_rename,
      plainNull_rename, plainNull_rename]
    · exact hlists
    · exact htuples
    · intro r s hv hw
      obtain ⟨r, rfl⟩ := of_rename_list hv
      obtain ⟨s, rfl⟩ := of_rename_list hw
      exact hlists r s rfl rfl
    · intro vs ws hv hw
      obtain ⟨vs, rfl⟩ := of_rename_tuple hv
      obtain ⟨ws, rfl⟩ := of_rename_tuple hw
      exact htuples vs ws rfl rfl
  | case5 | case6 | case7 => simp only [renameAll, compareItemsBy]
  | case8 v vs w ws ihs ih => simp only [renameAll, compareItemsBy, heq, ihs, ih]

theorem allEqualBy_rename (hρ : Function.Injective ρ) (hfg : ∀ r s, g (ρ r) (ρ s) = f r s)
    (vs ws : List Value) :
    allEqualBy g (renameAll ρ vs) (renameAll ρ ws) = allEqualBy f vs ws := by
  induction vs generalizing ws with
  | nil => rfl
  | cons v vs ih =>
    cases ws with
    | nil => rfl
    | cons w ws => simp only [renameAll, allEqualBy, equalBy_rename hρ hfg v w, ih]

theorem compareItemsBy_rename (heq : ∀ v w, eq' (v.rename ρ) (w.rename ρ) = eq v w)
    (hfg : ∀ r s, g (ρ r) (ρ s) = f r s) (vs ws : List Value) :
    compareItemsBy eq' g op (renameAll ρ vs) (renameAll ρ ws) = compareItemsBy eq f op vs ws := by
  have htuples : (tuple (renameAll ρ vs)).compareBy eq' g op (tuple (renameAll ρ ws)) = _ :=
    compareBy_rename heq hfg (.tuple vs) (.tuple ws)
  simpa only [rename, compareBy] using htuples

end Value

theorem Entries.withinBy_rename (hρ : Function.Injective ρ) (hfg : ∀ r s, g (ρ r) (ρ s) = f r s)
    (fs es : Entries) : withinBy g (rename ρ fs) (rename ρ es) = withinBy f fs es := by
  induction es with
  | nil => rfl
  | cons e es ih =>
    rw [rename_cons, withinBy, withinBy, get?_rename]
    cases fs.get? e.1 with
    | none => rfl
    | some v =>
      dsimp only [Option.map_some]
      rw [Value.equalBy_rename hρ hfg, ih]

namespace Cell

theorem equalBy_rename (hρ : Function.Injective ρ) (hfg : ∀ r s, g (ρ r) (ρ s) = f r s)
    (c d : Cell) : (c.rename ρ).equalBy g (d.rename ρ) = c.equalBy f d := by
  cases c <;> cases d
  · simp only [rename, equalBy, Value.allEqualBy_rename hρ hfg]
    simp only [Value.renameAll_eq, List.length_map]
  · rfl
  · rfl
  · simp only [rename, equalBy, Entries.withinBy_rename hρ hfg]
    simp only [Entries.rename, List.length_map]

theorem compareBy_rename (heq : ∀ v w, eq' (v.rename ρ) (w.rename ρ) = eq v w)
    (hfg : ∀ r s, g (ρ r) (ρ s) = f r s) (c d : Cell) :
    (c.rename ρ).compareBy eq' op g (d.rename ρ) = c.compareBy eq op f d := by
  cases c <;> cases d
  · simp only [rename, compareBy, Value.compareItemsBy_rename heq hfg]
  all_goals rfl

end Cell

/-! ## Mirrored heaps -/

namespace Heap.Mirrors

variable {base h h' : Heap}
  {cells cells' : (Ref → Ref → Except Fault Bool) → Cell → Cell → Except Fault Bool}

/-- The images of two objects compare as these do, if what is done with objects allows it. -/
theorem comparing (hρ : Function.Injective ρ) (m : Mirrors ρ base h h')
    (hcells : ∀ f g, (∀ r s, g (ρ r) (ρ s) = f r s) →
      ∀ c d, cells' g (c.rename ρ) (d.rename ρ) = cells f c d)
    (fuel : Nat) (path : List (Ref × Ref)) (r s : Ref) :
    h'.comparing cells' fuel (path.map (Prod.map ρ ρ)) (ρ r) (ρ s) =
      h.comparing cells fuel path r s := by
  induction fuel generalizing path r s with
  | zero => rfl
  | succ fuel ih =>
    have hmem : (ρ r, ρ s) ∈ path.map (Prod.map ρ ρ) ↔ (r, s) ∈ path :=
      List.mem_map_of_injective (f := Prod.map ρ ρ) (a := (r, s)) (hρ.prodMap hρ)
    rw [Heap.comparing, Heap.comparing, m.read r, m.read s]
    simp only [hmem]
    cases h.read? r with
    | none => rfl
    | some c =>
      cases h.read? s with
      | none => rfl
      | some d =>
        have hnext := hcells _ _ (ih ((r, s) :: path)) c d
        exact congrArg (if (r, s) ∈ path then _ else ·) hnext

/-- Two objects and their images compare alike, each in its own heap. -/
theorem comparing_bound (hρ : Function.Injective ρ) (m : Mirrors ρ base h h')
    (hcells : ∀ f g, (∀ r s, g (ρ r) (ρ s) = f r s) →
      ∀ c d, cells' g (c.rename ρ) (d.rename ρ) = cells f c d) (r s : Ref) :
    h'.comparing cells' h'.pairBound [] (ρ r) (ρ s) = h.comparing cells h.pairBound [] r s := by
  have hbound : h.pairBound ≤ h'.pairBound :=
    Nat.add_le_add_right (Nat.mul_le_mul m.size_le m.size_le) 1
  refine (m.comparing hρ hcells h'.pairBound [] r s).trans ?_
  rw [comparing_fuel h cells h.pairBound h'.pairBound [] List.nodup_nil nofun (by simp)
    (by simpa using hbound)]

/-- The images of two values are equal just if the values are. -/
theorem equal (hρ : Function.Injective ρ) (m : Mirrors ρ base h h') (v w : Value) :
    h'.equal (v.rename ρ) (w.rename ρ) = h.equal v w :=
  Value.equalBy_rename hρ (m.comparing_bound hρ fun _ _ hfg => Cell.equalBy_rename hρ hfg) v w

theorem compareBy (hρ : Function.Injective ρ) (m : Mirrors ρ base h h') (op : Data.Comparison)
    (v w : Value) : h'.compareBy op (v.rename ρ) (w.rename ρ) = h.compareBy op v w :=
  Value.compareBy_rename (m.equal hρ)
    (m.comparing_bound hρ fun _ _ hfg => Cell.compareBy_rename (m.equal hρ) hfg) v w

end Heap.Mirrors

end Rulebook
