/-
  Paths that cannot be read.

  Reading along a path fails at one kind of place only: in a list or tuple, at a segment of digits
  that is no number, because not all of them are decimal digits or there are too many.

  * `Path.readWhole_iff`: the segments that count items;
  * `Heap.follow_iff`, `Sources.lookUp_iff`: the paths that can be read;
  * `Sources.lookUp_congr`: reading in a heap and in one that extends it.
-/
import Rulebook.Proofs.Confinement
import Rulebook.Proofs.Extension
import Rulebook.Proofs.Number.Digits
import Rulebook.Proofs.Texts

namespace Rulebook

/-! ## Segments -/

namespace Path

/-- A segment counts items: all its digits are decimal ones, and there are not too many. -/
def Counts (segment : String) : Prop :=
  (∀ c ∈ segment.toList, Text.isDecimal c) ∧ segment.toList.length ≤ Reading.maxDigits

/-- A segment of digits is read as a number exactly if it counts. -/
theorem readWhole_iff {segment : String} (hindex : isIndex segment) :
    Succeeds (Data.readWhole segment 10) ↔ Counts segment := by
  simp only [isIndex, Bool.and_eq_true, Bool.not_eq_true', List.all_eq_true,
    String.isEmpty_eq_false_iff] at hindex
  obtain ⟨hne, hdigit⟩ := hindex
  have hread : Succeeds (Data.readWhole segment 10) ↔
      Succeeds (Reading.readInt (String.ofList segment.toList) 10) := by
    rw [String.ofList_toList, Data.readWhole]
    split <;> simp_all
  rw [hread]
  by_cases hdecimal : ∀ c ∈ segment.toList, Text.isDecimal c
  · have hchars : segment.toList ≠ [] := fun h => hne (String.toList_eq_nil_iff.1 h)
    rw [Reading.readInt_decimals hchars fun c hc => ⟨hdigit c hc, hdecimal c hc⟩, Counts,
      and_iff_right hdecimal]
    split_ifs with hlong
    · simp [hlong]
    · simp [Nat.not_lt.1 hlong]
  · refine iff_of_false ?_ fun h => hdecimal h.1
    rintro ⟨n, hn⟩
    exact Reading.readInt_ne_ok hdigit hdecimal n hn

/-- A segment is written in digits, and is no number. -/
def Miscounts (segment : String) : Prop :=
  isIndex segment ∧ ¬Counts segment

theorem itemAt_iff {α : Type} {items : List α} {segment : String} :
    Succeeds (itemAt items segment) ↔ ¬Miscounts segment := by
  unfold itemAt Miscounts
  split
  · next hindex => rw [Succeeds.bind_pure_iff, readWhole_iff hindex, and_iff_right hindex, not_not]
  · next hindex => exact iff_of_true (.ok _) fun h => hindex h.1

end Path

/-! ## Paths -/

namespace Heap

variable {h h' : Heap} {v w : Value} {path : List String}

/-- A path stumbles below a value: in a list or tuple, it goes on with digits that are no number. -/
def Stumbles (h : Heap) (v : Value) (path : List String) : Prop :=
  ∃ before segment after w, path = before ++ segment :: after ∧
    h.follow v before = .ok (some w) ∧ w.HasItems ∧ Path.Miscounts segment

theorem child?_iff {segment : String} :
    Succeeds (h.child? v segment) ↔ ¬(v.HasItems ∧ Path.Miscounts segment) := by
  cases v with
  | list r => exact Path.itemAt_iff.trans (not_congr (iff_of_eq (true_and _)).symm)
  | tuple vs => exact Path.itemAt_iff.trans (not_congr (iff_of_eq (true_and _)).symm)
  | _ => exact iff_of_true (.ok _) fun hbad => hbad.1

/-- A path stumbles at its first segment, or below what that leads to. -/
theorem stumbles_cons {segment : String} {rest : List String} :
    h.Stumbles v (segment :: rest) ↔ (v.HasItems ∧ Path.Miscounts segment) ∨
      ∃ w, h.child? v segment = .ok (some w) ∧ h.Stumbles w rest := by
  constructor
  · rintro ⟨before, bad, after, w, heq, hw, hbad⟩
    cases before with
    | nil =>
      obtain ⟨rfl, rfl⟩ := List.cons.inj heq
      cases hw
      exact .inl hbad
    | cons first before =>
      obtain ⟨rfl, rfl⟩ := List.cons.inj heq
      rw [follow] at hw
      split at hw
      · next u hu => exact .inr ⟨u, hu, before, bad, after, w, rfl, hw, hbad⟩
      · cases hw
      · cases hw
  · rintro (hbad | ⟨u, hu, before, bad, after, w, rfl, hw, hbad⟩)
    · exact ⟨[], segment, rest, v, rfl, rfl, hbad⟩
    · refine ⟨segment :: before, bad, after, w, rfl, ?_, hbad⟩
      rw [follow, hu]
      exact hw

/-- A path can be read exactly if it does not stumble. -/
theorem follow_iff : Succeeds (h.follow v path) ↔ ¬h.Stumbles v path := by
  induction path generalizing v with
  | nil =>
    refine iff_of_true (.ok _) ?_
    rintro ⟨before, segment, after, w, heq, -⟩
    exact List.append_ne_nil_of_right_ne_nil before (List.cons_ne_nil _ _) heq.symm
  | cons segment rest ih =>
    rw [stumbles_cons, not_or, ← child?_iff, follow]
    cases hchild : h.child? v segment with
    | error f => simp
    | ok found =>
      cases found with
      | none => simp
      | some w => simp [ih]

/-! ### Extended heaps -/

/-- What is below a value of a closed heap is within it. -/
theorem Closed.reaches_lt (hc : h.Closed) {rs : List Ref} (hrs : ∀ r ∈ rs, r < h.cells.size)
    {t : Ref} (ht : h.Reaches rs t) : t < h.cells.size := by
  obtain ⟨n, hn⟩ := ht
  induction n generalizing rs with
  | zero => exact absurd hn (by simp [met])
  | succ n ih =>
    obtain ⟨r, hr, ht⟩ := List.mem_flatMap.1 hn
    rcases List.mem_cons.1 ht with rfl | ht
    · exact hrs t hr
    · refine ih (fun s hs => ?_) ht
      have hlt := hrs r hr
      have hread : h.read? r = some h.cells[r] := Array.getElem?_eq_getElem hlt
      rw [held, hread] at hs
      exact (hc r _ hread).refs_lt s hs

theorem Extends.read_eq (he : h.Extends h') {t : Ref} (ht : t < h.cells.size) :
    h'.read? t = h.read? t := by
  have hread : h.read? t = some h.cells[t] := Array.getElem?_eq_getElem ht
  rw [hread, he t _ hread]

/-- A path leads to the same value in an extended heap. -/
theorem Extends.follow_eq (he : h.Extends h') (hc : h.Closed) (hv : v.Within h.cells.size)
    (path : List String) : h'.follow v path = h.follow v path :=
  (follow_congr (fun _ ht =>
    he.read_eq (hc.reaches_lt ((Value.within_iff v).1 hv) ht)) path).1

theorem Closed.within_of_follow (hc : h.Closed) (hv : v.Within h.cells.size)
    (hw : h.follow v path = .ok (some w)) : w.Within h.cells.size :=
  (Value.within_iff w).2 fun r hr => hc.reaches_lt ((Value.within_iff v).1 hv)
    ((follow_congr (fun _ _ => rfl) path).2 w hw r (.of_mem hr))

end Heap

/-! ## Sources -/

namespace Template.Sources

variable {s : Sources} {h h' : Heap} {path : List String} {v : Value}

/-- Where a path starts, and how it goes on from there. -/
def origin (s : Sources) : List String → Option (Value × List String)
  | [] => none
  | head :: rest =>
    match s.extra.field? head with
    | some v => some (v, rest)
    | none =>
      match s.context.roots.lookup head with
      | some v => some (v, rest)
      | none => some (s.context.entity, head :: rest)

theorem lookUp_eq (s : Sources) (h : Heap) (path : List String) :
    s.lookUp h path = match s.origin path with
      | some (v, rest) => h.follow v rest
      | none => .ok none := by
  cases path with
  | nil => rfl
  | cons head rest =>
    rw [lookUp, origin]
    cases s.extra.field? head with
    | some v => rfl
    | none => cases s.context.roots.lookup head <;> rfl

/-- A path stumbles below the value that it starts from. -/
def Stumbles (s : Sources) (h : Heap) (path : List String) : Prop :=
  ∃ v rest, s.origin path = some (v, rest) ∧ h.Stumbles v rest

/-- A path can be read exactly if it does not stumble. -/
theorem lookUp_iff : Succeeds (s.lookUp h path) ↔ ¬s.Stumbles h path := by
  rw [lookUp_eq, Stumbles]
  cases s.origin path with
  | none => simp
  | some p =>
    obtain ⟨v, rest⟩ := p
    simp [Heap.follow_iff]

/-- All values that paths start from are within a bound. -/
structure Within (s : Sources) (n : Nat) : Prop where
  extra : ∀ e ∈ s.extra, e.2.Within n
  roots : ∀ p ∈ s.context.roots, p.2.Within n

theorem Within.origin {n : Nat} (hs : s.Within n) {rest : List String}
    (ho : s.origin path = some (v, rest)) : v.Within n := by
  cases path with
  | nil => cases ho
  | cons head tail =>
    rw [Sources.origin] at ho
    split at ho
    · next w hw =>
      cases ho
      exact hs.extra _ (Entries.mem_of_field? hw)
    · split at ho
      · next w hw =>
        cases ho
        obtain ⟨before, after, heq, -⟩ := List.lookup_eq_some_iff.1 hw
        exact hs.roots (head, v) (by simp [heq])
      · cases ho
        exact hs.roots ("entity", s.context.entity) (by simp [Context.roots])

/-- A path leads to the same value in an extended heap. -/
theorem lookUp_congr (he : h.Extends h') (hc : h.Closed) (hs : s.Within h.cells.size)
    (path : List String) : s.lookUp h' path = s.lookUp h path := by
  rw [lookUp_eq, lookUp_eq]
  cases ho : s.origin path with
  | none => rfl
  | some p => exact he.follow_eq hc (hs.origin ho) p.2

theorem Within.lookUp (hs : s.Within h.cells.size) (hc : h.Closed)
    (hv : s.lookUp h path = .ok (some v)) : v.Within h.cells.size := by
  rw [lookUp_eq] at hv
  cases ho : s.origin path with
  | none => rw [ho] at hv; cases hv
  | some p =>
    rw [ho] at hv
    exact hc.within_of_follow (hs.origin ho) hv

end Template.Sources

end Rulebook
