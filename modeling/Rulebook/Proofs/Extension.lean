/-
  What stays of a heap.

  A heap `Extends` another if every object of that one is in it unchanged.  Reading, resolving and
  loading only ever extend the heap; so do operators, which make new objects at most.  The plain
  data of a value is the same in an extended heap, if no reference of the first one dangles.

  * `Extends.alloc`, `load_extends`, `resolve_extends`: new objects, loaded data, templates;
  * `Extends.plain_eq`: what a value stands for, in the heap and in one that extends it.
-/
import Rulebook.Proofs.Preservation
import Rulebook.Proofs.View
import Rulebook.Template.Resolve

namespace Rulebook

/-! ## Extension -/

namespace Heap

/-- Every object of a heap is in another one unchanged. -/
def Extends (h h' : Heap) : Prop :=
  ∀ r c, h.read? r = some c → h'.read? r = some c

namespace Extends

variable {h h' h'' : Heap}

theorem refl (h : Heap) : h.Extends h :=
  fun _ _ hr => hr

theorem trans (h₁ : h.Extends h') (h₂ : h'.Extends h'') : h.Extends h'' :=
  fun r c hr => h₂ r c (h₁ r c hr)

theorem alloc (h : Heap) (c : Cell) : h.Extends (h.alloc c).2 := fun r d hr => by
  obtain ⟨hlt, -⟩ := Array.getElem?_eq_some_iff.1 hr
  rw [read_alloc_of_lt h c hlt, hr]

theorem newList (h : Heap) (vs : List Value) : h.Extends (h.newList vs).2 :=
  alloc h (.list vs)

theorem newMapping (h : Heap) (es : Entries) : h.Extends (h.newMapping es).2 :=
  alloc h (.mapping es)

theorem size_le (he : h.Extends h') : h.cells.size ≤ h'.cells.size := by
  by_contra hlt
  have hsize : h'.cells.size < h.cells.size := by omega
  have hr : h.read? h'.cells.size = some h.cells[h'.cells.size] :=
    Array.getElem?_eq_getElem hsize
  obtain ⟨hlt', -⟩ := Array.getElem?_eq_some_iff.1 (he _ _ hr)
  omega

end Extends

/-! ## Loading -/

mutual

theorem load_extends (h : Heap) : ∀ d, h.Extends (h.load d).2
  | .null | .bool _ | .int _ | .float _ | .text _ | .instant _ | .duration _ | .cycle _ =>
    .refl h
  | .tuple items => loadAll_extends h items
  | .slice a b c =>
    ((load_extends h a).trans (load_extends _ b)).trans (load_extends _ c)
  | .list items => (loadAll_extends h items).trans (.newList _ _)
  | .mapping entries => (loadEntries_extends h entries).trans (.newMapping _ _)

theorem loadAll_extends (h : Heap) : ∀ ds, h.Extends (h.loadAll ds).2
  | [] => .refl h
  | d :: ds => (load_extends h d).trans (loadAll_extends _ ds)

theorem loadEntries_extends (h : Heap) : ∀ es, h.Extends (h.loadEntries es).2
  | [] => .refl h
  | (k, d) :: es =>
    ((load_extends h k).trans (load_extends _ d)).trans (loadEntries_extends _ es)

end

end Heap

/-! ## Templates -/

namespace Template

mutual

theorem resolve_extends (s : Sources) : ∀ (h : Heap) d {p}, resolve s h d = .ok p → h.Extends p.2
  | h, .text t, p, hp => by
    obtain ⟨v, -, hv⟩ := exceptBind_eq_ok.1 hp
    cases hv
    exact .refl h
  | h, .list items, p, hp => by
    obtain ⟨⟨vs, h'⟩, hvs, hv⟩ := exceptBind_eq_ok.1 hp
    cases hv
    exact (resolveAll_extends s h items hvs).trans (.newList h' vs)
  | h, .tuple items, p, hp => by
    obtain ⟨⟨vs, h'⟩, hvs, hv⟩ := exceptBind_eq_ok.1 hp
    cases hv
    exact resolveAll_extends s h items hvs
  | h, .mapping entries, p, hp => by
    obtain ⟨⟨es, h'⟩, hes, hv⟩ := exceptBind_eq_ok.1 hp
    cases hv
    exact (resolveEntries_extends s h entries hes).trans (.newMapping h' es)
  | h, .null, p, hp | h, .bool _, p, hp | h, .int _, p, hp | h, .float _, p, hp
  | h, .instant _, p, hp | h, .duration _, p, hp | h, .slice .., p, hp | h, .cycle _, p, hp => by
    cases hp
    exact Heap.load_extends h _

theorem resolveAll_extends (s : Sources) : ∀ (h : Heap) ds {p}, resolveAll s h ds = .ok p →
    h.Extends p.2
  | h, [], p, hp => by
    cases hp
    exact .refl h
  | h, d :: ds, p, hp => by
    obtain ⟨⟨v, h₁⟩, hv, hp⟩ := exceptBind_eq_ok.1 hp
    obtain ⟨⟨vs, h₂⟩, hvs, hp⟩ := exceptBind_eq_ok.1 hp
    have hext := (resolve_extends s h d hv).trans (resolveAll_extends s h₁ ds hvs)
    cases hp
    exact hext

theorem resolveEntries_extends (s : Sources) : ∀ (h : Heap) es {p},
    resolveEntries s h es = .ok p → h.Extends p.2
  | h, [], p, hp => by
    cases hp
    exact .refl h
  | h, (k, d) :: es, p, hp => by
    obtain ⟨⟨v, h₁⟩, hv, hp⟩ := exceptBind_eq_ok.1 hp
    obtain ⟨⟨vs, h₂⟩, hvs, hp⟩ := exceptBind_eq_ok.1 hp
    have hext := ((Heap.load_extends h k).trans (resolve_extends s _ d hv)).trans
      (resolveEntries_extends s h₁ es hvs)
    cases hp
    exact hext

end

end Template

theorem Context.names_extends (c : Context) (h : Heap) {p : Entries × Heap}
    (hp : c.names h = .ok p) : h.Extends p.2 := by
  obtain ⟨⟨es, h'⟩, hf, hn⟩ := exceptBind_eq_ok.1 hp
  cases hn
  unfold Context.fields at hf
  split at hf
  · cases hf
    exact .refl h
  · obtain ⟨es', -, he⟩ := exceptMap_eq_ok.1 hf
    have := Heap.loadEntries_extends h es'
    rwa [he] at this

/-! ## The view -/

mutual

/-- All references in a value are below a bound. -/
def Value.Within (n : Nat) : Value → Prop
  | .tuple vs => Value.AllWithin n vs
  | .slice a b c => a.Within n ∧ b.Within n ∧ c.Within n
  | .list r => r < n
  | .mapping r => r < n
  | _ => True

/-- All references in several values are below a bound. -/
def Value.AllWithin (n : Nat) : List Value → Prop
  | [] => True
  | v :: vs => v.Within n ∧ Value.AllWithin n vs

end

mutual

theorem Value.within_iff {n : Nat} : ∀ v : Value, v.Within n ↔ ∀ r ∈ v.refs, r < n
  | .null | .bool _ | .int _ | .float _ | .text _ | .instant _ | .duration _ => by
    simp [Value.Within, Value.refs]
  | .tuple vs => Value.allWithin_iff_refs vs
  | .slice a b c => by
    rw [Value.Within, within_iff a, within_iff b, within_iff c, Value.refs,
      List.forall_mem_append, List.forall_mem_append, and_assoc]
  | .list r | .mapping r => by simp [Value.Within, Value.refs]

theorem Value.allWithin_iff_refs {n : Nat} :
    ∀ vs : List Value, Value.AllWithin n vs ↔ ∀ r ∈ Value.allRefs vs, r < n
  | [] => by simp [Value.AllWithin, Value.allRefs]
  | v :: vs => by
    rw [Value.AllWithin, Value.allRefs, List.forall_mem_append, within_iff v, allWithin_iff_refs vs]

end

/-- All references in an object are below a bound. -/
def Cell.Within (n : Nat) : Cell → Prop
  | .list vs => ∀ v ∈ vs, v.Within n
  | .mapping es => ∀ e ∈ es, e.1.Within n ∧ e.2.Within n

theorem Cell.Within.refs_lt {n : Nat} {c : Cell} (h : c.Within n) : ∀ r ∈ c.refs, r < n := by
  intro r hr
  cases c with
  | list vs =>
    obtain ⟨v, hv, hr⟩ := List.mem_flatMap.1 hr
    exact (Value.within_iff v).1 (h v hv) r hr
  | mapping es =>
    obtain ⟨e, he, hr⟩ := List.mem_flatMap.1 hr
    rcases List.mem_append.1 hr with hr | hr
    · exact (Value.within_iff _).1 (h e he).1 r hr
    · exact (Value.within_iff _).1 (h e he).2 r hr

namespace Heap

/-- No reference in an object dangles. -/
def Closed (h : Heap) : Prop :=
  ∀ r c, h.read? r = some c → c.Within h.cells.size

theorem Extends.agreeOn {h h' : Heap} (he : h.Extends h') (hc : h.Closed) :
    h.AgreeOn h' (· < h.cells.size) := fun r hr => by
  have hread : h.read? r = some h.cells[r] := Array.getElem?_eq_getElem hr
  exact ⟨_, hread, he r _ hread, (hc r _ hread).refs_lt⟩

/-- A value of a closed heap stands for the same in a heap that extends it. -/
theorem Extends.plain_eq {h h' : Heap} (he : h.Extends h') (hc : h.Closed) {v : Value}
    (hv : v.Within h.cells.size) : h'.plain v = h.plain v :=
  (he.agreeOn hc).plain_eq he.size_le ((Value.within_iff _).1 hv)

end Heap

/-! ## Entries -/

/-- What holds of both parts of all entries, and of a new entry, holds when that one is written. -/
theorem Entries.forall_insert {P : Value → Prop} {es : Entries} {k v : Value}
    (h : ∀ e ∈ es, P e.1 ∧ P e.2) (hk : P k) (hv : P v) :
    ∀ e ∈ es.insert k v, P e.1 ∧ P e.2 := by
  unfold Entries.insert
  split
  · intro e he
    obtain ⟨e', he', rfl⟩ := List.mem_map.1 he
    split
    · exact ⟨(h e' he').1, hv⟩
    · exact h e' he'
  · intro e he
    rcases List.mem_append.1 he with he | he
    · exact h e he
    · obtain rfl := List.mem_singleton.1 he
      exact ⟨hk, hv⟩

end Rulebook
