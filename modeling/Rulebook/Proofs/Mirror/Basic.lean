/-
  Heaps that mirror each other.

  A heap mirrors another under an injective renaming of references if it has, at the new references,
  the same objects with renamed references.  New objects come next in both, so the renaming stays
  the same while both heaps grow; objects of the second heap that are no images stay as they were.

  * `Value.sameKey_rename`, `Entries.insert_rename`: renamed values and entries;
  * `Heap.Mirrors.plain`: a value and its image stand for the same data;
  * `Heap.Mirrors.alloc`, `Heap.Mirrors.write`, `Heap.Mirrors.load`: heaps that change in step.
-/
import Mathlib.Logic.Function.Basic
import Rulebook.Proofs.View

namespace Rulebook

/-! ## Renamed values -/

namespace Value

variable (ρ : Ref → Ref)

theorem renameAll_eq (vs : List Value) : renameAll ρ vs = vs.map (rename ρ) := by
  induction vs with
  | nil => rfl
  | cons v vs ih => rw [renameAll, ih, List.map_cons]

theorem number?_rename (v : Value) : (v.rename ρ).number? = v.number? := by
  cases v <;> rfl

theorem rename_ofNumber (n : Number) : (ofNumber n).rename ρ = ofNumber n := by
  cases n <;> rfl

theorem typeName_rename (v : Value) : (v.rename ρ).typeName = v.typeName := by
  cases v <;> rfl

mutual

theorem unhashable?_rename : ∀ v : Value, (v.rename ρ).unhashable? = v.unhashable?
  | .null | .bool _ | .int _ | .float _ | .text _ | .instant _ | .duration _ | .slice ..
  | .list _ | .mapping _ => by simp only [rename, unhashable?]
  | .tuple vs => by
    simp only [rename, unhashable?]
    exact unhashableAmong?_rename vs

theorem unhashableAmong?_rename :
    ∀ vs : List Value, unhashableAmong? (renameAll ρ vs) = unhashableAmong? vs
  | [] => rfl
  | v :: vs => by
    simp only [renameAll, unhashableAmong?, unhashable?_rename v, unhashableAmong?_rename vs]

end

mutual

theorem plain_rename (g : Ref → Data) : ∀ v : Value, (v.rename ρ).plain g = v.plain (g ∘ ρ)
  | .null | .bool _ | .int _ | .float _ | .text _ | .instant _ | .duration _ | .list _
  | .mapping _ => rfl
  | .tuple vs => congrArg Data.tuple (plainAll_rename g vs)
  | .slice a b c => by
    simp only [rename, plain, plain_rename g a, plain_rename g b, plain_rename g c]

theorem plainAll_rename (g : Ref → Data) :
    ∀ vs : List Value, plainAll g (renameAll ρ vs) = plainAll (g ∘ ρ) vs
  | [] => rfl
  | v :: vs => by simp only [renameAll, plainAll, plain_rename g v, plainAll_rename g vs]

end

mutual

theorem rename_rename (f g : Ref → Ref) : ∀ v : Value, (v.rename f).rename g = v.rename (g ∘ f)
  | .null | .bool _ | .int _ | .float _ | .text _ | .instant _ | .duration _ | .list _
  | .mapping _ => rfl
  | .tuple vs => congrArg Value.tuple (renameAll_renameAll f g vs)
  | .slice a b c => by
    simp only [rename, rename_rename f g a, rename_rename f g b, rename_rename f g c]

theorem renameAll_renameAll (f g : Ref → Ref) :
    ∀ vs : List Value, renameAll g (renameAll f vs) = renameAll (g ∘ f) vs
  | [] => rfl
  | v :: vs => by simp only [renameAll, rename_rename f g v, renameAll_renameAll f g vs]

end

mutual

/-- A renaming that keeps the references of a value keeps the value. -/
theorem rename_eq_self {f : Ref → Ref} :
    ∀ v : Value, (∀ r ∈ v.refs, f r = r) → v.rename f = v
  | .null, _ | .bool _, _ | .int _, _ | .float _, _ | .text _, _ | .instant _, _
  | .duration _, _ => rfl
  | .list r, h => congrArg Value.list (h r (List.mem_singleton_self r))
  | .mapping r, h => congrArg Value.mapping (h r (List.mem_singleton_self r))
  | .tuple vs, h => congrArg Value.tuple (renameAll_eq_self vs h)
  | .slice a b c, h => by
    rw [refs, List.forall_mem_append, List.forall_mem_append] at h
    simp only [rename, rename_eq_self a h.1.1, rename_eq_self b h.1.2, rename_eq_self c h.2]

theorem renameAll_eq_self {f : Ref → Ref} :
    ∀ vs : List Value, (∀ r ∈ allRefs vs, f r = r) → renameAll f vs = vs
  | [], _ => rfl
  | v :: vs, h => by
    rw [allRefs, List.forall_mem_append] at h
    simp only [renameAll, rename_eq_self v h.1, renameAll_eq_self vs h.2]

end

theorem plainNull_rename (v : Value) :
    ((v.rename ρ).plain fun _ => .null) = v.plain fun _ => .null :=
  plain_rename ρ _ v

theorem sameKey_rename (v w : Value) : (v.rename ρ).sameKey (w.rename ρ) = v.sameKey w := by
  have hplain : (((v.rename ρ).plain fun _ => .null).equal ((w.rename ρ).plain fun _ => .null)) =
      (v.plain fun _ => .null).equal (w.plain fun _ => .null) := by
    rw [plainNull_rename, plainNull_rename]
  cases v with
  | text s =>
    cases w with
    | text t => rfl
    | _ => exact hplain
  | _ => exact hplain

end Value

namespace Entries

variable (ρ : Ref → Ref)

theorem rename_cons (e : Value × Value) (es : Entries) :
    rename ρ (e :: es) = (e.1.rename ρ, e.2.rename ρ) :: rename ρ es :=
  rfl

theorem get?_rename (es : Entries) (k : Value) :
    (rename ρ es).get? (k.rename ρ) = (es.get? k).map (Value.rename ρ) := by
  induction es with
  | nil => rfl
  | cons e es ih =>
    simp only [get?, rename_cons, List.find?_cons, Value.sameKey_rename] at ih ⊢
    cases e.1.sameKey k
    · exact ih
    · rfl

theorem field?_rename (es : Entries) (name : String) :
    (rename ρ es).field? name = (es.field? name).map (Value.rename ρ) :=
  get?_rename ρ es (.text name)

theorem insert_rename (es : Entries) (k v : Value) :
    (rename ρ es).insert (k.rename ρ) (v.rename ρ) = rename ρ (es.insert k v) := by
  have hany : ((rename ρ es).any fun e => e.1.sameKey (k.rename ρ)) = es.any fun e => e.1.sameKey k := by
    simp only [rename, List.any_map, Function.comp_def, Value.sameKey_rename]
  unfold insert
  rw [hany]
  split
  · simp only [rename, List.map_map]
    refine List.map_congr_left fun e _ => ?_
    simp only [Function.comp_apply, Value.sameKey_rename]
    split <;> rfl
  · simp only [rename, List.map_append, List.map_cons, List.map_nil]

theorem merge_rename (es fs : Entries) :
    (rename ρ es).merge (rename ρ fs) = rename ρ (es.merge fs) := by
  unfold merge
  induction fs generalizing es with
  | nil => rfl
  | cons e fs ih => rw [rename_cons, List.foldl_cons, List.foldl_cons, insert_rename, ih]

theorem rename_rename (f g : Ref → Ref) (es : Entries) :
    rename g (rename f es) = rename (g ∘ f) es := by
  simp only [rename, List.map_map, Function.comp_def, Value.rename_rename]

theorem rename_eq_self {f : Ref → Ref} {es : Entries} (h : ∀ r ∈ es.refs, f r = r) :
    rename f es = es := by
  refine (List.map_congr_left fun e he => ?_).trans es.map_id
  have hrefs : ∀ r ∈ e.1.refs ++ e.2.refs, f r = r := fun r hr =>
    h r (List.mem_flatMap.2 ⟨e, he, hr⟩)
  rw [List.forall_mem_append] at hrefs
  rw [Value.rename_eq_self e.1 hrefs.1, Value.rename_eq_self e.2 hrefs.2]
  rfl

theorem ofList_rename (es : List (Value × Value)) :
    ofList (rename ρ es) = rename ρ (ofList es) :=
  merge_rename ρ [] es

end Entries

namespace Cell

variable (ρ : Ref → Ref)

theorem plain_rename (g : Ref → Data) (c : Cell) : (c.rename ρ).plain g = c.plain (g ∘ ρ) := by
  cases c with
  | list vs =>
    simp only [rename, plain, Value.renameAll_eq, List.map_map, Function.comp_def,
      Value.plain_rename]
  | mapping es =>
    simp only [rename, plain, Entries.rename, List.map_map, Function.comp_def, Value.plain_rename]

theorem rename_rename (f g : Ref → Ref) (c : Cell) :
    (c.rename f).rename g = c.rename (g ∘ f) := by
  cases c with
  | list vs => exact congrArg Cell.list (Value.renameAll_renameAll f g vs)
  | mapping es => exact congrArg Cell.mapping (Entries.rename_rename f g es)

theorem rename_eq_self {f : Ref → Ref} {c : Cell} (h : ∀ r ∈ c.refs, f r = r) :
    c.rename f = c := by
  cases c with
  | list vs =>
    refine congrArg Cell.list ?_
    rw [Value.renameAll_eq]
    refine (List.map_congr_left fun v hv => ?_).trans vs.map_id
    exact Value.rename_eq_self v fun r hr => h r (List.mem_flatMap.2 ⟨v, hv, hr⟩)
  | mapping es => exact congrArg Cell.mapping (Entries.rename_eq_self h)

theorem knot_rename (c : Cell) : (c.rename ρ).knot = c.knot := by
  cases c <;> rfl

end Cell

/-! ## Mirrored heaps -/

namespace Heap

theorem read?_alloc (h : Heap) (c : Cell) (r : Ref) :
    (h.alloc c).2.read? r = if r = h.cells.size then some c else h.read? r := by
  simp only [read?, alloc, Array.getElem?_push]

theorem read?_write (h : Heap) (r s : Ref) (c : Cell) (hr : r < h.cells.size) :
    (h.write r c).read? s = if r = s then some c else h.read? s := by
  split_ifs with hs
  · rw [← hs, read_write_self h c hr]
  · exact read_write_of_ne h c hs

/-- A heap has the objects of another at renamed references, and beside them those of a base. -/
structure Mirrors (ρ : Ref → Ref) (base h h' : Heap) : Prop where
  read : ∀ r, h'.read? (ρ r) = (h.read? r).map (Cell.rename ρ)
  next : ∀ i, ρ (h.cells.size + i) = h'.cells.size + i
  size_le : h.cells.size ≤ h'.cells.size
  aside : ∀ r, (∀ s, ρ s ≠ r) → h'.read? r = base.read? r

namespace Mirrors

variable {ρ : Ref → Ref} {base h h' : Heap}

theorem items (m : Mirrors ρ base h h') (r : Ref) : h'.items (ρ r) = (h.items r).map (Value.rename ρ) := by
  unfold Heap.items
  rw [m.read r]
  cases h.read? r with
  | none => rfl
  | some c =>
    cases c with
    | list vs => exact Value.renameAll_eq ρ vs
    | mapping es => rfl

theorem entries (m : Mirrors ρ base h h') (r : Ref) : h'.entries (ρ r) = (h.entries r).rename ρ := by
  unfold Heap.entries
  rw [m.read r]
  cases h.read? r with
  | none => rfl
  | some c => cases c <;> rfl

theorem plainRef (hρ : Function.Injective ρ) (m : Mirrors ρ base h h') (fuel : Nat)
    (path : List Ref) (r : Ref) :
    h'.plainRef fuel (path.map ρ) (ρ r) = h.plainRef fuel path r := by
  induction fuel generalizing path r with
  | zero =>
    rw [Heap.plainRef, Heap.plainRef, m.read r]
    rcases h.read? r with - | ⟨vs | es⟩ <;> rfl
  | succ fuel ih =>
    rw [plainRef_succ, plainRef_succ, m.read r]
    cases h.read? r with
    | none => rfl
    | some c =>
      have hnext : h'.plainRef fuel (ρ r :: path.map ρ) ∘ ρ = h.plainRef fuel (r :: path) :=
        funext (ih (r :: path))
      dsimp only [Option.map_some]
      simp only [List.mem_map_of_injective hρ, Cell.plain_rename, hnext, Cell.knot_rename]

/-- A value and its image stand for the same data. -/
theorem plain (hρ : Function.Injective ρ) (m : Mirrors ρ base h h') (v : Value) :
    h'.plain (v.rename ρ) = h.plain v := by
  unfold Heap.plain
  rw [Value.plain_rename]
  refine Value.plain_congr v fun r _ => ?_
  change h'.plainRef _ ([].map ρ) (ρ r) = _
  rw [m.plainRef hρ]
  exact plainRef_fuel h _ _ [] r List.nodup_nil nofun (by simp) (by simpa using m.size_le)

theorem truth (m : Mirrors ρ base h h') (v : Value) : h'.truth (v.rename ρ) = h.truth v := by
  cases v with
  | list r => simp only [Value.rename, Heap.truth, m.items r, List.isEmpty_map]
  | mapping r => simp only [Value.rename, Heap.truth, m.entries r, Entries.rename, List.isEmpty_map]
  | tuple vs => exact congrArg Data.truth (Value.plainNull_rename ρ (.tuple vs))
  | slice a b c => exact congrArg Data.truth (Value.plainNull_rename ρ (.slice a b c))
  | _ => rfl

section

variable (hρ : Function.Injective ρ) (m : Mirrors ρ base h h')

include hρ m

theorem asText (v : Value) : h'.asText (v.rename ρ) = h.asText v := by
  unfold Heap.asText
  rw [m.plain hρ]

theorem listing (v : Value) : h'.listing (v.rename ρ) = h.listing v := by
  unfold Heap.listing
  rw [m.plain hρ]

/-- A new object comes next in both heaps. -/
theorem alloc (c : Cell) :
    (h'.alloc (c.rename ρ)).1 = ρ (h.alloc c).1 ∧
      Mirrors ρ base (h.alloc c).2 (h'.alloc (c.rename ρ)).2 := by
  have hnew : ρ h.cells.size = h'.cells.size := m.next 0
  refine ⟨hnew.symm, ?_, ?_, ?_, ?_⟩
  · intro r
    simp only [read?_alloc, ← hnew, hρ.eq_iff]
    split_ifs
    · rfl
    · exact m.read r
  · intro i
    have hnext := m.next (1 + i)
    simp only [Heap.alloc, Array.size_push]
    rw [Nat.add_assoc, hnext, Nat.add_assoc]
  · simpa [Heap.alloc] using m.size_le
  · intro r hr
    rw [read?_alloc, if_neg fun heq => hr _ (hnew.trans heq.symm)]
    exact m.aside r hr

theorem write (r : Ref) (c : Cell) :
    Mirrors ρ base (h.write r c) (h'.write (ρ r) (c.rename ρ)) := by
  by_cases hr : r < h.cells.size
  · have hr' : ρ r < h'.cells.size := by
      have hread := m.read r
      rw [show h.read? r = some h.cells[r] from Array.getElem?_eq_getElem hr] at hread
      exact lt_of_read hread
    refine ⟨fun s => ?_, fun i => ?_, ?_, fun s hs => ?_⟩
    · simp only [read?_write _ _ _ _ hr, read?_write _ _ _ _ hr', hρ.eq_iff]
      split_ifs
      · rfl
      · exact m.read s
    · simpa [Heap.write] using m.next i
    · simpa [Heap.write] using m.size_le
    · rw [read_write_of_ne h' _ (hs r)]
      exact m.aside s hs
  · have hr' : ¬ρ r < h'.cells.size := by
      have hnext := m.next (r - h.cells.size)
      rw [Nat.add_sub_cancel' (Nat.not_lt.1 hr)] at hnext
      exact hnext ▸ Nat.not_lt.2 (Nat.le_add_right _ _)
    have hsame (g : Heap) {s : Ref} (d : Cell) (hs : ¬s < g.cells.size) : g.write s d = g := by
      simp [Heap.write, Array.setIfInBounds, hs]
    rwa [hsame h c hr, hsame h' _ hr']

end

/-- A value and a heap, and their images. -/
def Both (ρ : Ref → Ref) (base : Heap) (p p' : Value × Heap) : Prop :=
  p'.1 = p.1.rename ρ ∧ Mirrors ρ base p.2 p'.2

section

variable (hρ : Function.Injective ρ) (m : Mirrors ρ base h h')

include hρ m

theorem newList (vs : List Value) :
    Both ρ base (h.newList vs) (h'.newList (vs.map (Value.rename ρ))) := by
  obtain ⟨hnew, hmirrors⟩ := m.alloc hρ (.list vs)
  rw [Cell.rename, Value.renameAll_eq] at hnew hmirrors
  exact ⟨congrArg Value.list hnew, hmirrors⟩

theorem newMapping (es : Entries) :
    Both ρ base (h.newMapping es) (h'.newMapping (es.rename ρ)) := by
  obtain ⟨hnew, hmirrors⟩ := m.alloc hρ (.mapping es)
  exact ⟨congrArg Value.mapping hnew, hmirrors⟩

end

mutual

theorem load (hρ : Function.Injective ρ) {h h' : Heap} (m : Mirrors ρ base h h') :
    ∀ d, Both ρ base (h.load d) (h'.load d)
  | .null | .bool _ | .int _ | .float _ | .text _ | .instant _ | .duration _ | .cycle _ =>
    ⟨rfl, m⟩
  | .tuple items => by
    obtain ⟨hvs, m'⟩ := m.loadAll hρ items
    exact ⟨congrArg Value.tuple (hvs.trans (Value.renameAll_eq ρ _).symm), m'⟩
  | .slice a b c => by
    obtain ⟨ha, m₁⟩ := m.load hρ a
    obtain ⟨hb, m₂⟩ := m₁.load hρ b
    obtain ⟨hc, m₃⟩ := m₂.load hρ c
    exact ⟨congr (congrArg₂ Value.slice ha hb) hc, m₃⟩
  | .list items => by
    obtain ⟨hvs, m'⟩ := m.loadAll hρ items
    have hnew := m'.newList hρ (h.loadAll items).1
    rw [← hvs] at hnew
    exact hnew
  | .mapping entries => by
    obtain ⟨hes, m'⟩ := m.loadEntries hρ entries
    have hnew := m'.newMapping hρ (Entries.ofList (h.loadEntries entries).1)
    rw [← Entries.ofList_rename, ← hes] at hnew
    exact hnew

theorem loadAll (hρ : Function.Injective ρ) {h h' : Heap} (m : Mirrors ρ base h h') :
    ∀ ds, (h'.loadAll ds).1 = (h.loadAll ds).1.map (Value.rename ρ) ∧
      Mirrors ρ base (h.loadAll ds).2 (h'.loadAll ds).2
  | [] => ⟨rfl, m⟩
  | d :: ds => by
    obtain ⟨hv, m₁⟩ := m.load hρ d
    obtain ⟨hvs, m₂⟩ := m₁.loadAll hρ ds
    exact ⟨congrArg₂ List.cons hv hvs, m₂⟩

theorem loadEntries (hρ : Function.Injective ρ) {h h' : Heap} (m : Mirrors ρ base h h') :
    ∀ es, (h'.loadEntries es).1 = Entries.rename ρ (h.loadEntries es).1 ∧
      Mirrors ρ base (h.loadEntries es).2 (h'.loadEntries es).2
  | [] => ⟨rfl, m⟩
  | (k, d) :: es => by
    obtain ⟨hk, m₁⟩ := m.load hρ k
    obtain ⟨hv, m₂⟩ := m₁.load hρ d
    obtain ⟨hes, m₃⟩ := m₂.loadEntries hρ es
    exact ⟨congrArg₂ List.cons (congrArg₂ Prod.mk hk hv) hes, m₃⟩

end

end Mirrors

end Heap

end Rulebook
