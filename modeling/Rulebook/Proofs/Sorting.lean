/-
  Sorting is stable.

  `Stable rank xs ys` says that `ys` is `xs` in ascending order of rank, items of one rank as they
  stand in `xs`.  This settles `ys`, and the short and the long way of `sort` both give it: runs,
  insertions and merges each keep what was before in front among items of one rank.

  * `sort_stable`: a comparison that goes by rank never fails, and the sorted list is stable;
  * `Stable.perm`, `Stable.pairwise_places`: it has the same items, by rank and then by place;
  * `Stable.eq_of_perm`: with distinct ranks it depends on the items only;
  * `sort_arranges`: a comparison that goes by no rank at least gives the same items in some order;
  * `sort_map`: images are sorted as their items are.
-/
import Mathlib.Algebra.Order.Group.Int
import Mathlib.Algebra.Order.Group.Nat
import Mathlib.Data.List.InsertIdx
import Mathlib.Data.List.Pairwise
import Mathlib.Tactic.SplitIfs
import Rulebook.Sorting

namespace Rulebook.Sorting

variable {α β γ ε : Type}

/-! ## Stable order -/

/-- A list in ascending order of rank, with the items of every rank as they stand in another. -/
structure Stable (rank : α → Int) (xs ys : List α) : Prop where
  sorted : ys.Pairwise fun a b => rank a ≤ rank b
  kept : ∀ k, (ys.filter fun a => rank a = k) = xs.filter fun a => rank a = k

namespace Stable

variable {rank : α → Int} {xs ys zs ws : List α}

theorem refl (h : xs.Pairwise fun a b => rank a ≤ rank b) : Stable rank xs xs :=
  ⟨h, fun _ => rfl⟩

theorem perm (h : Stable rank xs ys) : ys.Perm xs := by
  classical
  refine List.perm_iff_count.2 fun a => ?_
  rw [← List.count_filter (p := fun b => rank b = rank a) (by simp), h.kept,
    List.count_filter (by simp)]

theorem mem_iff (h : Stable rank xs ys) {a : α} : a ∈ ys ↔ a ∈ xs :=
  h.perm.mem_iff

/-- Items that stand in ascending places stay so among those of one rank. -/
theorem pairwise_places {place : α → Nat} (h : Stable rank xs ys)
    (hp : xs.Pairwise fun a b => place a < place b) :
    ys.Pairwise fun a b => rank a < rank b ∨ rank a = rank b ∧ place a < place b := by
  rw [List.pairwise_iff_forall_sublist]
  intro a b hab
  have hle : rank a ≤ rank b := List.pairwise_iff_forall_sublist.1 h.sorted hab
  rcases lt_or_eq_of_le hle with hlt | heq
  · exact Or.inl hlt
  · refine Or.inr ⟨heq, List.pairwise_iff_forall_sublist.1 hp ?_⟩
    have := hab.filter fun c => rank c = rank b
    rw [h.kept, List.filter_cons_of_pos (by simp [heq]), List.filter_cons_of_pos (by simp)] at this
    exact this.trans List.filter_sublist

/-- With distinct ranks, the sorted list depends on the items only. -/
theorem eq_of_perm (h : Stable rank xs ys) (h' : Stable rank zs ws) (hp : xs.Perm zs)
    (hd : xs.Pairwise fun a b => rank a ≠ rank b) : ys = ws := by
  have hyw : ys.Perm ws := (h.perm.trans hp).trans h'.perm.symm
  have hinj : ∀ a ∈ xs, ∀ b ∈ xs, rank a = rank b → a = b := fun a ha b hb hab => by
    have : Std.Symm fun a b => rank a ≠ rank b := ⟨fun _ _ h => h.symm⟩
    by_contra hne
    exact hd.forall ha hb hne hab
  exact hyw.eq_of_pairwise (fun a b ha hb hab hba =>
    hinj a (h.mem_iff.1 ha) b (h.mem_iff.1 (hyw.mem_iff.2 hb)) (le_antisymm hab hba))
    h.sorted h'.sorted

end Stable

/-! ## Comparing by rank -/

/-- Whether a comparison goes by rank among the items of a kind. -/
def ByRank (less : α → α → Except ε Bool) (rank : α → Int) (P : α → Prop) : Prop :=
  ∀ x y, P x → P y → less x y = .ok (decide (rank x < rank y))

section

variable {less : α → α → Except ε Bool} {rank : α → Int} {P : α → Prop}

/-! ## Runs -/

theorem filter_reverse_of_strict {xs : List α} (h : xs.Pairwise fun a b => rank a < rank b)
    (k : Int) : (xs.reverse.filter fun a => rank a = k) = xs.filter fun a => rank a = k := by
  rw [List.filter_reverse]
  have hs : (xs.filter fun a => rank a = k).Pairwise fun _ _ => False :=
    (List.pairwise_filter.2 (h.imp fun hab ha hb => by
      simp only [decide_eq_true_eq] at ha hb
      omega))
  match hf : xs.filter fun a => rank a = k with
  | [] => rfl
  | [a] => rfl
  | a :: b :: rest =>
    rw [hf] at hs
    exact absurd ((List.pairwise_cons.1 hs).1 b (by simp)) id

theorem descending_spec (hl : ByRank less rank P) {last : α} {t xs : List α} (hP : P last)
    (hxs : ∀ x ∈ xs, P x) (ht : (last :: t).Pairwise fun a b => rank a < rank b) :
    ∃ pre post, descending less last (last :: t) xs = .ok (pre.reverse ++ last :: t, post) ∧
      xs = pre ++ post ∧ (pre.reverse ++ last :: t).Pairwise fun a b => rank a < rank b := by
  induction xs generalizing last t with
  | nil => exact ⟨[], [], rfl, rfl, ht⟩
  | cons x xs ih =>
    have hx := hxs x (by simp)
    simp only [descending, hl x last hx hP]
    by_cases hlt : rank x < rank last
    · have ht' : (x :: last :: t).Pairwise fun a b => rank a < rank b :=
        List.pairwise_cons.2 ⟨fun a ha => by
          rcases List.mem_cons.1 ha with rfl | ha
          · exact hlt
          · exact hlt.trans ((List.pairwise_cons.1 ht).1 a ha), ht⟩
      obtain ⟨pre, post, h1, h2, h3⟩ := ih hx (fun y hy => hxs y (by simp [hy])) ht'
      refine ⟨x :: pre, post, ?_, by rw [h2]; rfl, by simpa using h3⟩
      simpa [hlt, bind, Except.bind] using h1
    · exact ⟨[], x :: xs, by simp [hlt, bind, Except.bind, pure, Except.pure], rfl, ht⟩

theorem ascending_spec (hl : ByRank less rank P) {last : α} {t xs : List α} (hP : P last)
    (hxs : ∀ x ∈ xs, P x) (ht : (t.reverse ++ [last]).Pairwise fun a b => rank a ≤ rank b) :
    ∃ pre post, ascending less last (last :: t) xs = .ok (t.reverse ++ last :: pre, post) ∧
      xs = pre ++ post ∧ (t.reverse ++ last :: pre).Pairwise fun a b => rank a ≤ rank b := by
  induction xs generalizing last t with
  | nil => exact ⟨[], [], by simp [ascending], rfl, ht⟩
  | cons x xs ih =>
    have hx := hxs x (by simp)
    simp only [ascending, hl x last hx hP]
    by_cases hlt : rank x < rank last
    · exact ⟨[], x :: xs, by simp [hlt, bind, Except.bind, pure, Except.pure], rfl, ht⟩
    · have ht' : ((last :: t).reverse ++ [x]).Pairwise fun a b => rank a ≤ rank b := by
        rw [List.reverse_cons]
        refine List.pairwise_append.2 ⟨ht, by simp, fun a ha b hb => ?_⟩
        obtain rfl := List.mem_singleton.1 hb
        rcases List.mem_append.1 ha with ha' | ha'
        · have := (List.pairwise_append.1 ht).2.2 a ha' last (by simp)
          omega
        · obtain rfl := List.mem_singleton.1 ha'
          omega
      obtain ⟨pre, post, h1, h2, h3⟩ := ih hx (fun y hy => hxs y (by simp [hy])) ht'
      refine ⟨x :: pre, post, ?_, by rw [h2]; rfl, by simpa using h3⟩
      simpa [hlt, bind, Except.bind] using h1

theorem firstRun_spec (hl : ByRank less rank P) {xs : List α} (hxs : ∀ x ∈ xs, P x) :
    ∃ pre post run, firstRun less xs = .ok (run, post) ∧ xs = pre ++ post ∧ Stable rank pre run := by
  match xs with
  | [] => exact ⟨[], [], [], rfl, rfl, .refl (by simp)⟩
  | [x] => exact ⟨[x], [], [x], rfl, rfl, .refl (by simp)⟩
  | x :: y :: rest =>
    have hx := hxs x (by simp)
    have hy := hxs y (by simp)
    have hrest : ∀ z ∈ rest, P z := fun z hz => hxs z (by simp [hz])
    simp only [firstRun, hl y x hy hx]
    by_cases hlt : rank y < rank x
    · obtain ⟨pre, post, h1, h2, h3⟩ := descending_spec hl hy hrest (t := [x]) (by simpa using hlt)
      refine ⟨x :: y :: pre, post, pre.reverse ++ [y, x], ?_, by rw [h2]; rfl, ?_⟩
      · simpa [hlt, bind, Except.bind] using h1
      · refine ⟨h3.imp fun h => h.le, fun k => ?_⟩
        rw [← filter_reverse_of_strict h3 k]
        simp
    · obtain ⟨pre, post, h1, h2, h3⟩ := ascending_spec hl hy hrest (t := [x]) (by simpa using hlt)
      refine ⟨x :: y :: pre, post, x :: y :: pre, ?_, by rw [h2]; rfl, .refl h3⟩
      simpa [hlt, bind, Except.bind] using h1

/-! ## Insertion -/

theorem position_spec (hl : ByRank less rank P) {sorted : Array α} {x : α} (hx : P x)
    (hs : ∀ y ∈ sorted, P y)
    (ho : ∀ i j (hj : j < sorted.size) (hij : i < j), rank sorted[i] ≤ rank sorted[j]) :
    ∀ (fuel low high : Nat), high ≤ sorted.size → low ≤ high → high - low < fuel →
      (∀ i (_ : i < low) (_ : i < sorted.size), rank sorted[i] ≤ rank x) →
      (∀ i (_ : high ≤ i) (_ : i < sorted.size), rank x < rank sorted[i]) →
      ∃ p, position less sorted x fuel low high = .ok p ∧ p ≤ sorted.size ∧
        (∀ i (_ : i < p) (_ : i < sorted.size), rank sorted[i] ≤ rank x) ∧
        ∀ i (_ : p ≤ i) (_ : i < sorted.size), rank x < rank sorted[i]
  | 0, _, _, _, _, hf, _, _ => by omega
  | fuel + 1, low, high, hh, hlh, hf, hlow, hhigh => by
    rw [position]
    split_ifs with hd
    · exact ⟨low, rfl, by omega, hlow, fun i hi hi' => hhigh i (by omega) hi'⟩
    · have hm : low + (high - low) / 2 < sorted.size := by omega
      simp only [Array.getElem?_eq_getElem hm, hl x _ hx (hs _ (Array.getElem_mem hm))]
      by_cases hlt : rank x < rank sorted[low + (high - low) / 2]
      · simp only [hlt, decide_true, bind, Except.bind, if_true]
        refine position_spec hl hx hs ho fuel low _ hm.le (by omega) (by omega) hlow
          fun i hi hi' => ?_
        rcases Nat.lt_or_eq_of_le hi with hi | rfl
        · exact hlt.trans_le (ho _ i hi' hi)
        · exact hlt
      · simp only [hlt, decide_false, bind, Except.bind, Bool.false_eq_true, if_false]
        refine position_spec hl hx hs ho fuel _ high hh (by omega) (by omega)
          (fun i hi hi' => ?_) hhigh
        rcases Nat.lt_or_eq_of_le (Nat.le_of_lt_succ hi) with hi | rfl
        · exact (ho i _ hm hi).trans (by omega)
        · omega

/-- An item put behind those that are not above it, as the last one of the list before. -/
theorem stable_insert {seen front back : List α} {x : α} (h : Stable rank seen (front ++ back))
    (hf : ∀ a ∈ front, rank a ≤ rank x) (hb : ∀ a ∈ back, rank x < rank a) :
    Stable rank (seen ++ [x]) (front ++ x :: back) := by
  obtain ⟨h1, h2, h3⟩ := List.pairwise_append.1 h.sorted
  refine ⟨List.pairwise_append.2 ⟨h1, List.pairwise_cons.2 ⟨fun a ha => (hb a ha).le, h2⟩,
    fun a ha b hbx => ?_⟩, fun k => ?_⟩
  · rcases List.mem_cons.1 hbx with rfl | hbx
    · exact hf a ha
    · exact h3 a ha b hbx
  · have hk := h.kept k
    rw [List.filter_append] at hk
    rw [List.filter_append, List.filter_append, ← hk]
    by_cases hx : rank x = k
    · have : (back.filter fun a => rank a = k) = [] :=
        List.filter_eq_nil_iff.2 fun a ha => by have := hb a ha; simp; omega
      simp [hx, this]
    · simp [hx]

theorem insertIdx_eq_append (xs : List α) (x : α) {i : Nat} (h : i ≤ xs.length) :
    xs.insertIdx i x = xs.take i ++ x :: xs.drop i := by
  induction i generalizing xs with
  | zero => simp
  | succ i ih =>
    match xs with
    | y :: ys => simpa using ih ys (by simpa using h)

theorem insertAll_spec (hl : ByRank less rank P) {sorted : Array α} {seen xs : List α}
    (hs : ∀ y ∈ sorted, P y) (hxs : ∀ x ∈ xs, P x) (h : Stable rank seen sorted.toList) :
    ∃ ys, insertAll less sorted xs = .ok ys ∧ Stable rank (seen ++ xs) ys := by
  induction xs generalizing sorted seen with
  | nil => exact ⟨sorted.toList, rfl, by simpa using h⟩
  | cons x xs ih =>
    have hx := hxs x (by simp)
    have ho : ∀ i j (hj : j < sorted.size) (hij : i < j), rank sorted[i] ≤ rank sorted[j] :=
      fun i j hj hij => by
        have := List.pairwise_iff_getElem.1 h.sorted i j (by simp; omega) (by simpa using hj) hij
        simpa using this
    obtain ⟨p, hp, hle, hlow, hhigh⟩ := position_spec hl hx hs ho (sorted.size + 1) 0 sorted.size
      le_rfl (Nat.zero_le _) (by omega) (by omega) (by omega)
    have hins : (sorted.insertIdxIfInBounds p x).toList =
        sorted.toList.take p ++ x :: sorted.toList.drop p := by
      rw [Array.insertIdxIfInBounds, dif_pos hle, Array.toList_insertIdx,
        insertIdx_eq_append _ _ (by simpa using hle)]
    have hst : Stable rank (seen ++ [x]) (sorted.insertIdxIfInBounds p x).toList := by
      rw [hins]
      refine stable_insert (by rwa [List.take_append_drop]) (fun a ha => ?_) fun a ha => ?_
      · obtain ⟨i, hi, rfl⟩ := List.mem_iff_getElem.1 ha
        simp only [List.length_take, Array.length_toList, lt_min_iff] at hi
        simpa using hlow i hi.1 hi.2
      · obtain ⟨i, hi, rfl⟩ := List.mem_iff_getElem.1 ha
        simp only [List.length_drop, Array.length_toList] at hi
        simpa using hhigh (p + i) (by omega) (by omega)
    have hs' : ∀ y ∈ sorted.insertIdxIfInBounds p x, P y := fun y hy => by
      rw [← Array.mem_toList_iff, hins] at hy
      rcases List.mem_append.1 hy with hy | hy
      · exact hs y (Array.mem_toList_iff.1 (List.mem_of_mem_take hy))
      · rcases List.mem_cons.1 hy with rfl | hy
        · exact hx
        · exact hs y (Array.mem_toList_iff.1 (List.mem_of_mem_drop hy))
    obtain ⟨ys, h1, h2⟩ := ih hs' (fun y hy => hxs y (by simp [hy])) hst
    refine ⟨ys, ?_, by simpa using h2⟩
    simpa [insertAll, hp, bind, Except.bind] using h1

theorem sortShort_spec (hl : ByRank less rank P) {xs : List α} (hxs : ∀ x ∈ xs, P x) :
    ∃ ys, sortShort less xs = .ok ys ∧ Stable rank xs ys := by
  obtain ⟨pre, post, run, h1, rfl, h2⟩ := firstRun_spec hl hxs
  have hrun : ∀ y ∈ run.toArray, P y := fun y hy => hxs y (by
    simp [h2.mem_iff.1 (List.mem_toArray.1 hy)])
  have hpost : ∀ y ∈ post, P y := fun y hy => hxs y (by simp [hy])
  have hst : Stable rank pre run.toArray.toList := by simpa using h2
  obtain ⟨ys, h3, h4⟩ := insertAll_spec hl hrun hpost hst
  exact ⟨ys, by simpa [sortShort, h1, bind, Except.bind] using h3, h4⟩

/-! ## Merging -/

theorem merge_spec (hl : ByRank less rank P) (fuel : Nat) (xs ys out : List α)
    (hxs : ∀ x ∈ xs, P x) (hys : ∀ y ∈ ys, P y) (hf : xs.length + ys.length ≤ fuel)
    (hx : xs.Pairwise fun a b => rank a ≤ rank b) (hy : ys.Pairwise fun a b => rank a ≤ rank b) :
    ∃ zs, merge less fuel xs ys out = .ok (out.reverse ++ zs) ∧ Stable rank (xs ++ ys) zs := by
  induction fuel generalizing xs ys out with
  | zero =>
    obtain rfl : xs = [] := List.eq_nil_of_length_eq_zero (by omega)
    obtain rfl : ys = [] := List.eq_nil_of_length_eq_zero (by simpa using hf)
    exact ⟨[], by simp [merge], .refl (by simp)⟩
  | succ fuel ih =>
    match xs, ys with
    | [], ys => exact ⟨ys, by simp [merge], .refl (by simpa using hy)⟩
    | x :: xs, [] => exact ⟨x :: xs, by simp [merge], by simpa using Stable.refl hx⟩
    | x :: xs, y :: ys =>
      have hPx := hxs x (by simp)
      have hPy := hys y (by simp)
      obtain ⟨hx1, hx2⟩ := List.pairwise_cons.1 hx
      obtain ⟨hy1, hy2⟩ := List.pairwise_cons.1 hy
      simp only [List.length_cons] at hf
      simp only [merge, hl y x hPy hPx]
      by_cases hlt : rank y < rank x
      · obtain ⟨zs, h1, h2⟩ := ih (x :: xs) ys (y :: out) hxs (fun z hz => hys z (by simp [hz]))
          (by simp only [List.length_cons]; omega) hx hy2
        refine ⟨y :: zs, ?_, ?_⟩
        · simpa [hlt, bind, Except.bind] using h1
        · -- no item before `y` has its rank
          have hno : ∀ a ∈ x :: xs, rank y < rank a := fun a ha => by
            rcases List.mem_cons.1 ha with rfl | ha
            · exact hlt
            · exact hlt.trans_le (hx1 a ha)
          refine ⟨List.pairwise_cons.2 ⟨fun a ha => ?_, h2.sorted⟩, fun k => ?_⟩
          · rcases List.mem_append.1 (h2.mem_iff.1 ha) with ha | ha
            · exact (hno a ha).le
            · exact hy1 a ha
          · rw [List.filter_append, List.filter_cons, h2.kept, List.filter_append]
            by_cases hk : rank y = k
            · have hnil : ((x :: xs).filter fun a => rank a = k) = [] :=
                List.filter_eq_nil_iff.2 fun a ha => by have := hno a ha; simp; omega
              rw [hnil]
              simp [hk]
            · simp [hk]
      · obtain ⟨zs, h1, h2⟩ := ih xs (y :: ys) (x :: out) (fun z hz => hxs z (by simp [hz])) hys
          (by simp only [List.length_cons]; omega) hx2 hy
        refine ⟨x :: zs, ?_, ⟨List.pairwise_cons.2 ⟨fun a ha => ?_, h2.sorted⟩, fun k => ?_⟩⟩
        · simpa [hlt, bind, Except.bind] using h1
        · rcases List.mem_append.1 (h2.mem_iff.1 ha) with ha | ha
          · exact hx1 a ha
          · rcases List.mem_cons.1 ha with rfl | ha
            · omega
            · have := hy1 a ha
              omega
        · rw [List.filter_cons, h2.kept, List.cons_append, List.filter_cons]

/-! ## Whole lists -/

theorem sortWith_spec (hl : ByRank less rank P) (fuel : Nat) {xs : List α} (hxs : ∀ x ∈ xs, P x) :
    ∃ ys, sortWith less fuel xs = .ok ys ∧ Stable rank xs ys := by
  induction fuel generalizing xs with
  | zero => exact sortShort_spec hl hxs
  | succ fuel ih =>
    rw [sortWith]
    split_ifs with hlen
    · exact sortShort_spec hl hxs
    · obtain ⟨left, hl1, hl2⟩ := ih fun x hx => hxs x (List.mem_of_mem_take (i := xs.length / 2) hx)
      obtain ⟨right, hr1, hr2⟩ := ih fun x hx => hxs x (List.mem_of_mem_drop (i := xs.length / 2) hx)
      have hsize : left.length + right.length ≤ xs.length := by
        rw [hl2.perm.length_eq, hr2.perm.length_eq, List.length_take, List.length_drop]
        omega
      obtain ⟨zs, h1, h2⟩ := merge_spec hl xs.length left right []
        (fun x hx => hxs x (List.mem_of_mem_take (hl2.mem_iff.1 hx)))
        (fun x hx => hxs x (List.mem_of_mem_drop (hr2.mem_iff.1 hx))) hsize hl2.sorted hr2.sorted
      refine ⟨zs, by simpa [hl1, hr1, bind, Except.bind] using h1, h2.sorted, fun k => ?_⟩
      rw [h2.kept, List.filter_append, hl2.kept, hr2.kept, ← List.filter_append,
        List.take_append_drop]

/-- **A list is sorted stably** by a comparison that goes by rank, and never without a result. -/
theorem sort_stable (hl : ByRank less rank P) {xs : List α} (hxs : ∀ x ∈ xs, P x) :
    ∃ ys, sort less xs = .ok ys ∧ Stable rank xs ys :=
  sortWith_spec hl xs.length hxs

end

/-! ## Any comparison -/

/-- What comes of arranging items: the same items in some order, or a fault of the comparison. -/
def Arranges (less : α → α → Except ε Bool) (items : β → List α) (xs : List α) (r : Except ε β) :
    Prop :=
  match r with
  | .ok b => (items b).Perm xs
  | .error e => ∃ x y, less x y = .error e

section

variable {less : α → α → Except ε Bool} {items : β → List α} {xs : List α}

namespace Arranges

theorem ask {x y : α} {f : Bool → Except ε β} (h : ∀ b, Arranges less items xs (f b)) :
    Arranges less items xs (less x y >>= f) := by
  cases hless : less x y with
  | ok b => exact h b
  | error e => exact ⟨x, y, hless⟩

theorem bind {items' : γ → List α} {ys : List α} {r : Except ε β} {f : β → Except ε γ}
    (hr : Arranges less items xs r)
    (hf : ∀ b, (items b).Perm xs → Arranges less items' ys (f b)) :
    Arranges less items' ys (r >>= f) := by
  cases r with
  | ok b => exact hf b hr
  | error e => exact hr

theorem perm {zs : List α} {r : Except ε β} (hr : Arranges less items xs r) (h : xs.Perm zs) :
    Arranges less items zs r := by
  cases r with
  | ok b => exact List.Perm.trans hr h
  | error e => exact hr

end Arranges

/-- A run and the items after it. -/
def runAndRest (p : List α × List α) : List α :=
  p.1 ++ p.2

theorem descending_arranges (last : α) (run xs : List α) :
    Arranges less runAndRest (run ++ xs) (descending less last run xs) := by
  induction xs generalizing last run with
  | nil => exact .refl _
  | cons x xs ih =>
    refine .ask fun b => ?_
    cases b with
    | true => exact (ih x (x :: run)).perm List.perm_middle.symm
    | false => exact List.Perm.refl (run ++ x :: xs)

theorem ascending_arranges (last : α) (run xs : List α) :
    Arranges less runAndRest (run ++ xs) (ascending less last run xs) := by
  have hreverse (ys : List α) : (run.reverse ++ ys).Perm (run ++ ys) :=
    run.reverse_perm.append_right ys
  induction xs generalizing last run with
  | nil => exact hreverse []
  | cons x xs ih =>
    refine .ask fun b => ?_
    cases b with
    | true => exact hreverse (x :: xs)
    | false =>
      exact (ih x (x :: run) fun ys => (x :: run).reverse_perm.append_right ys).perm
        List.perm_middle.symm

theorem firstRun_arranges : ∀ xs : List α, Arranges less runAndRest xs (firstRun less xs)
  | [] => .refl _
  | [_] => .refl _
  | x :: y :: rest => by
    have hswap : (y :: x :: rest).Perm (x :: y :: rest) := .swap x y rest
    refine .ask fun b => ?_
    cases b with
    | true => exact (descending_arranges y [y, x] rest).perm hswap
    | false => exact (ascending_arranges y [y, x] rest).perm hswap

/-- A place is found in the list, or the comparison has a fault. -/
theorem position_le (sorted : Array α) (x : α) (fuel low high : Nat) (hlow : low ≤ sorted.size)
    (hhigh : high ≤ sorted.size) :
    match position less sorted x fuel low high with
    | .ok i => i ≤ sorted.size
    | .error e => ∃ a b, less a b = .error e := by
  induction fuel generalizing low high with
  | zero => exact hlow
  | succ fuel ih =>
    unfold position
    split_ifs with hend
    · exact hlow
    · dsimp only
      cases hy : sorted[low + (high - low) / 2]? with
      | none => exact hlow
      | some y =>
        dsimp only
        cases hless : less x y with
        | error e => exact ⟨x, y, hless⟩
        | ok b =>
          cases b with
          | true => exact ih _ _ hlow (by omega)
          | false => exact ih _ _ (by omega) hhigh

theorem insertAll_arranges (sorted : Array α) (xs : List α) :
    Arranges less id (sorted.toList ++ xs) (insertAll less sorted xs) := by
  induction xs generalizing sorted with
  | nil => exact (List.append_nil _).symm ▸ List.Perm.refl _
  | cons x xs ih =>
    have hplace := @position_le α ε less sorted x (sorted.size + 1) 0 sorted.size
      (Nat.zero_le _) le_rfl
    unfold insertAll
    cases hp : position less sorted x (sorted.size + 1) 0 sorted.size with
    | error e =>
      rw [hp] at hplace
      exact hplace
    | ok i =>
      rw [hp] at hplace
      have hinsert : (sorted.insertIdxIfInBounds i x).toList.Perm (x :: sorted.toList) := by
        rw [Array.insertIdxIfInBounds, dif_pos hplace, Array.toList_insertIdx]
        exact List.perm_insertIdx _ _ hplace
      exact (ih _).perm ((hinsert.append_right xs).trans List.perm_middle.symm)

theorem sortShort_arranges (xs : List α) : Arranges less id xs (sortShort less xs) :=
  (firstRun_arranges xs).bind fun p hp => (insertAll_arranges p.1.toArray p.2).perm hp

theorem merge_arranges (fuel : Nat) (xs ys out : List α) :
    Arranges less id (out ++ (xs ++ ys)) (merge less fuel xs ys out) := by
  have hreverse (out zs : List α) : (out.reverse ++ zs).Perm (out ++ zs) :=
    out.reverse_perm.append_right zs
  induction fuel generalizing xs ys out with
  | zero =>
    have hall := hreverse out (xs ++ ys)
    rw [← List.append_assoc] at hall
    exact hall
  | succ fuel ih =>
    cases xs with
    | nil => exact hreverse out ys
    | cons x xs =>
      cases ys with
      | nil =>
        rw [List.append_nil]
        exact hreverse out (x :: xs)
      | cons y ys =>
        refine .ask fun b => ?_
        cases b with
        | true =>
          refine (ih (x :: xs) ys (y :: out)).perm ?_
          exact List.perm_middle.symm.trans (.append_left out List.perm_middle.symm)
        | false => exact (ih xs (y :: ys) (x :: out)).perm List.perm_middle.symm

theorem sortWith_arranges (fuel : Nat) (xs : List α) :
    Arranges less id xs (sortWith less fuel xs) := by
  induction fuel generalizing xs with
  | zero => exact sortShort_arranges xs
  | succ fuel ih =>
    rw [sortWith]
    split_ifs
    · exact sortShort_arranges xs
    · refine (ih _).bind fun left hleft => (ih _).bind fun right hright => ?_
      have hhalves := hleft.append hright
      rw [List.take_append_drop] at hhalves
      exact (merge_arranges xs.length left right []).perm hhalves

/-- **A sorted list has the same items**, whatever the comparison is; there is no other fault than
    those of the comparison. -/
theorem sort_arranges (xs : List α) : Arranges less id xs (sort less xs) :=
  sortWith_arranges xs.length xs

end

/-! ## Images -/

section

variable {less : α → α → Except ε Bool} {less' : β → β → Except ε Bool} {g : α → β}
  (hless : ∀ a b, less' (g a) (g b) = less a b)

include hless

theorem descending_map (last : α) (run xs : List α) :
    descending less' (g last) (run.map g) (xs.map g) =
      (descending less last run xs).map (Prod.map (List.map g) (List.map g)) := by
  induction xs generalizing last run with
  | nil => rfl
  | cons x xs ih =>
    rw [List.map_cons, descending, descending, hless]
    rcases less x last with e | (_ | _)
    · rfl
    · rfl
    · exact ih x (x :: run)

theorem ascending_map (last : α) (run xs : List α) :
    ascending less' (g last) (run.map g) (xs.map g) =
      (ascending less last run xs).map (Prod.map (List.map g) (List.map g)) := by
  induction xs generalizing last run with
  | nil => exact congrArg (fun ys => Except.ok (ys, [])) List.map_reverse.symm
  | cons x xs ih =>
    rw [List.map_cons, ascending, ascending, hless]
    rcases less x last with e | (_ | _)
    · rfl
    · exact ih x (x :: run)
    · exact congrArg (fun ys => Except.ok (ys, g x :: xs.map g)) List.map_reverse.symm

theorem firstRun_map : ∀ xs : List α,
    firstRun less' (xs.map g) = (firstRun less xs).map (Prod.map (List.map g) (List.map g))
  | [] => rfl
  | [_] => rfl
  | x :: y :: rest => by
    rw [List.map_cons, List.map_cons, firstRun, firstRun, hless]
    rcases less y x with e | (_ | _)
    · rfl
    · exact ascending_map hless y [y, x] rest
    · exact descending_map hless y [y, x] rest

theorem position_map (sorted : Array α) (x : α) (fuel low high : Nat) :
    position less' (sorted.map g) (g x) fuel low high = position less sorted x fuel low high := by
  induction fuel generalizing low high with
  | zero => rfl
  | succ fuel ih =>
    simp only [position, Array.getElem?_map]
    cases sorted[low + (high - low) / 2]? with
    | none => rfl
    | some y => simp only [Option.map_some, hless, ih]

theorem insertAll_map (sorted : Array α) (xs : List α) :
    insertAll less' (sorted.map g) (xs.map g) = (insertAll less sorted xs).map (List.map g) := by
  induction xs generalizing sorted with
  | nil => exact congrArg Except.ok Array.toList_map
  | cons x xs ih =>
    rw [List.map_cons, insertAll, insertAll, Array.size_map, position_map hless]
    cases position less sorted x (sorted.size + 1) 0 sorted.size with
    | error e => rfl
    | ok i =>
      have hinsert : (sorted.map g).insertIdxIfInBounds i (g x) =
          (sorted.insertIdxIfInBounds i x).map g := by
        simp only [Array.insertIdxIfInBounds, Array.size_map]
        split_ifs
        · refine Array.toList_inj.1 ?_
          simp only [Array.toList_insertIdx, Array.toList_map, List.map_insertIdx]
        · rfl
      change insertAll less' ((sorted.map g).insertIdxIfInBounds i (g x)) (xs.map g) = _
      rw [hinsert]
      exact ih _

theorem sortShort_map (xs : List α) :
    sortShort less' (xs.map g) = (sortShort less xs).map (List.map g) := by
  rw [sortShort, sortShort, firstRun_map hless]
  cases firstRun less xs with
  | error e => rfl
  | ok p =>
    change insertAll less' (p.1.map g).toArray (p.2.map g) = _
    rw [← List.map_toArray]
    exact insertAll_map hless p.1.toArray p.2

theorem merge_map (fuel : Nat) (xs ys out : List α) :
    merge less' fuel (xs.map g) (ys.map g) (out.map g) =
      (merge less fuel xs ys out).map (List.map g) := by
  induction fuel generalizing xs ys out with
  | zero =>
    simp only [merge, Except.map, List.map_append, List.map_reverse]
  | succ fuel ih =>
    cases xs with
    | nil => simp only [List.map_nil, merge, Except.map, List.map_append, List.map_reverse]
    | cons x xs =>
      cases ys with
      | nil =>
        simp only [List.map_cons, List.map_nil, merge, Except.map, List.map_append,
          List.map_reverse]
      | cons y ys =>
        rw [List.map_cons, List.map_cons, merge, merge, hless]
        rcases less y x with e | (_ | _)
        · rfl
        · exact ih xs (y :: ys) (x :: out)
        · exact ih (x :: xs) ys (y :: out)

theorem sortWith_map (fuel : Nat) (xs : List α) :
    sortWith less' fuel (xs.map g) = (sortWith less fuel xs).map (List.map g) := by
  induction fuel generalizing xs with
  | zero => exact sortShort_map hless xs
  | succ fuel ih =>
    rw [sortWith, sortWith, List.length_map]
    split_ifs
    · exact sortShort_map hless xs
    · simp only [← List.map_take, ← List.map_drop, ih]
      cases sortWith less fuel (xs.take (xs.length / 2)) with
      | error e => rfl
      | ok left =>
        cases sortWith less fuel (xs.drop (xs.length / 2)) with
        | error e => rfl
        | ok right => exact merge_map hless xs.length left right []

/-- **Sorting images gives the images of the sorted items**, if the comparison does not tell items
    from their images. -/
theorem sort_map (xs : List α) : sort less' (xs.map g) = (sort less xs).map (List.map g) := by
  rw [sort, sort, List.length_map]
  exact sortWith_map hless xs.length xs

end

end Rulebook.Sorting
