/-
  Values by key, in the order in which the keys came.

  Putting a value under a key that is there replaces the value in its place; a new key goes to the
  end.

  * `get?_put_self`, `get?_put_of_ne`: a `put` changes the value of one key;
  * `keys_put_of_mem`, `keys_put_of_not_mem`: what it does to the order;
  * `get?_erase_self`, `get?_erase_of_ne`: an `erase` removes one key;
  * `get?_put_eq_some_iff`, `get?_erase_eq_some_iff`: which values there are after them;
  * `get?_eq_some_iff`: which there are, by the entries.
-/

namespace Rulebook

/-- Values by key, in the order in which the keys came. -/
structure Keyed (κ α : Type) where
  entries : List (κ × α) := []

namespace Keyed

variable {κ α : Type} [DecidableEq κ]

/-- The value of a key in a list of entries. -/
def find? (k : κ) : List (κ × α) → Option α
  | [] => none
  | e :: es => if e.1 = k then some e.2 else find? k es

/-- A list of entries with the value of a key replaced, or with the key at the end. -/
def insert (k : κ) (a : α) : List (κ × α) → List (κ × α)
  | [] => [(k, a)]
  | e :: es => if e.1 = k then (k, a) :: es else e :: insert k a es

/-- The value of a key. -/
def get? (m : Keyed κ α) (k : κ) : Option α :=
  find? k m.entries

/-- Puts a value under a key. -/
def put (m : Keyed κ α) (k : κ) (a : α) : Keyed κ α :=
  ⟨insert k a m.entries⟩

/-- Removes a key. -/
def erase (m : Keyed κ α) (k : κ) : Keyed κ α :=
  ⟨m.entries.filter fun e => e.1 ≠ k⟩

/-- The keys in their order. -/
def keys (m : Keyed κ α) : List κ :=
  m.entries.map (·.1)

/-- The values in the order of their keys. -/
def values (m : Keyed κ α) : List α :=
  m.entries.map (·.2)

/-- The number of keys. -/
def size (m : Keyed κ α) : Nat :=
  m.entries.length

/-- Whether a key is there. -/
def contains (m : Keyed κ α) (k : κ) : Bool :=
  (m.get? k).isSome

/-- All values changed. -/
def map (m : Keyed κ α) (f : α → α) : Keyed κ α :=
  ⟨m.entries.map fun e => (e.1, f e.2)⟩

/-! ## What operations do to the values -/

theorem find?_insert_self (k : κ) (a : α) (es : List (κ × α)) :
    find? k (insert k a es) = some a := by
  induction es with
  | nil => simp [insert, find?]
  | cons e es ih =>
    simp only [insert]
    split
    · simp [find?]
    · next h => simp [find?, h, ih]

theorem find?_insert_of_ne {k l : κ} (a : α) (es : List (κ × α)) (h : l ≠ k) :
    find? l (insert k a es) = find? l es := by
  induction es with
  | nil => simp [insert, find?, h.symm]
  | cons e es ih =>
    simp only [insert]
    split
    · next he => simp [find?, he, h.symm]
    · simp [find?, ih]

theorem get?_put_self (m : Keyed κ α) (k : κ) (a : α) : (m.put k a).get? k = some a :=
  find?_insert_self k a m.entries

theorem get?_put_of_ne (m : Keyed κ α) {k l : κ} (a : α) (h : l ≠ k) :
    (m.put k a).get? l = m.get? l :=
  find?_insert_of_ne a m.entries h

theorem get?_erase_self (m : Keyed κ α) (k : κ) : (m.erase k).get? k = none := by
  simp only [get?, erase]
  induction m.entries with
  | nil => rfl
  | cons e es ih =>
    by_cases h : e.1 = k
    · simpa [List.filter, h] using ih
    · simpa [List.filter, h, find?] using ih

theorem get?_erase_of_ne (m : Keyed κ α) {k l : κ} (h : l ≠ k) :
    (m.erase k).get? l = m.get? l := by
  simp only [get?, erase]
  induction m.entries with
  | nil => rfl
  | cons e es ih =>
    by_cases he : e.1 = k
    · simpa [List.filter, he, find?, h.symm] using ih
    · simp only [List.filter, he, ne_eq, not_false_eq_true, decide_true, find?]
      split
      · rfl
      · exact ih

theorem get?_put_eq_some_iff {m : Keyed κ α} {k l : κ} {a b : α} :
    (m.put k a).get? l = some b ↔ l = k ∧ a = b ∨ l ≠ k ∧ m.get? l = some b := by
  by_cases h : l = k
  · subst h
    simp [get?_put_self]
  · simp [get?_put_of_ne m a h, h]

theorem get?_erase_eq_some_iff {m : Keyed κ α} {k l : κ} {b : α} :
    (m.erase k).get? l = some b ↔ l ≠ k ∧ m.get? l = some b := by
  by_cases h : l = k
  · subst h
    simp [get?_erase_self]
  · simp [get?_erase_of_ne m h, h]

/-- To remove a key that is not there changes nothing. -/
theorem erase_of_not_mem (m : Keyed κ α) {k : κ} (h : k ∉ m.keys) : m.erase k = m := by
  have hkeep : m.entries.filter (fun e => e.1 ≠ k) = m.entries :=
    List.filter_eq_self.2 fun e he => by
      simpa using fun heq => h (List.mem_map.2 ⟨e, he, heq⟩)
  rw [erase, hkeep]

theorem find?_isSome_iff (k : κ) (es : List (κ × α)) :
    (find? k es).isSome ↔ k ∈ es.map (·.1) := by
  induction es with
  | nil => simp [find?]
  | cons e es ih =>
    simp only [find?, List.map_cons, List.mem_cons]
    split
    · next h => simp [h]
    · next h => simp [ih, Ne.symm h]

theorem contains_iff (m : Keyed κ α) (k : κ) : m.contains k = true ↔ k ∈ m.keys :=
  find?_isSome_iff k m.entries

theorem get?_map (m : Keyed κ α) (f : α → α) (k : κ) : (m.map f).get? k = (m.get? k).map f := by
  simp only [get?, map]
  induction m.entries with
  | nil => rfl
  | cons e es ih =>
    simp only [List.map_cons, find?]
    split
    · rfl
    · exact ih

/-- With every key there once, the values are those of the entries. -/
theorem get?_eq_some_iff {m : Keyed κ α} (h : m.keys.Nodup) {k : κ} {a : α} :
    m.get? k = some a ↔ (k, a) ∈ m.entries := by
  obtain ⟨es⟩ := m
  simp only [get?, keys] at h ⊢
  induction es with
  | nil => simp [find?]
  | cons e es ih =>
    rw [List.map_cons, List.nodup_cons] at h
    rw [find?, List.mem_cons]
    split
    · next he =>
      subst he
      have hnot : (e.1, a) ∉ es := fun hmem => h.1 (List.mem_map.2 ⟨_, hmem, rfl⟩)
      simp [hnot, Prod.ext_iff, eq_comm]
    · next he =>
      have hne : (k, a) ≠ e := fun heq => he (heq ▸ rfl)
      simp [hne, ih h.2]

/-! ## What operations do to the order -/

theorem map_insert_of_mem {k : κ} (a : α) {es : List (κ × α)} (h : k ∈ es.map (·.1)) :
    (insert k a es).map (·.1) = es.map (·.1) := by
  induction es with
  | nil => simp at h
  | cons e es ih =>
    simp only [insert]
    split
    · next he => simp [he]
    · next he =>
      rw [List.map_cons, List.mem_cons] at h
      rw [List.map_cons, List.map_cons, ih (h.resolve_left (Ne.symm he))]

theorem map_insert_of_not_mem {k : κ} (a : α) {es : List (κ × α)} (h : k ∉ es.map (·.1)) :
    (insert k a es).map (·.1) = es.map (·.1) ++ [k] := by
  induction es with
  | nil => rfl
  | cons e es ih =>
    rw [List.map_cons, List.mem_cons, not_or] at h
    rw [insert, if_neg (Ne.symm h.1), List.map_cons, List.map_cons, ih h.2, List.cons_append]

theorem keys_put_of_mem (m : Keyed κ α) {k : κ} (a : α) (h : k ∈ m.keys) :
    (m.put k a).keys = m.keys :=
  map_insert_of_mem a h

theorem keys_put_of_not_mem (m : Keyed κ α) {k : κ} (a : α) (h : k ∉ m.keys) :
    (m.put k a).keys = m.keys ++ [k] :=
  map_insert_of_not_mem a h

theorem nodup_put (m : Keyed κ α) (k : κ) (a : α) (h : m.keys.Nodup) : (m.put k a).keys.Nodup := by
  by_cases hk : k ∈ m.keys
  · rwa [keys_put_of_mem m a hk]
  · rw [keys_put_of_not_mem m a hk]
    exact List.nodup_append.2 ⟨h, by simp, fun x hx y hy => by
      rintro rfl
      exact hk (by simpa using (List.mem_singleton.1 hy) ▸ hx)⟩

theorem nodup_erase (m : Keyed κ α) (k : κ) (h : m.keys.Nodup) : (m.erase k).keys.Nodup :=
  h.sublist (List.filter_sublist.map _)

end Keyed

/-! ## Counts -/

/-- Counts by key, in the order in which the keys were first counted. -/
abbrev Tally (κ : Type) := Keyed κ Nat

namespace Tally

variable {κ : Type} [DecidableEq κ]

/-- The count of a key. -/
def count (t : Tally κ) (k : κ) : Nat :=
  (t.get? k).getD 0

/-- Counts a key once more. -/
def add (t : Tally κ) (k : κ) : Tally κ :=
  t.put k (t.count k + 1)

/-- The sum of all counts. -/
def total (t : Tally κ) : Nat :=
  t.entries.foldr (fun e n => e.2 + n) 0

theorem count_add_self (t : Tally κ) (k : κ) : (t.add k).count k = t.count k + 1 := by
  simp [count, add, Keyed.get?_put_self]

theorem count_add_of_ne (t : Tally κ) {k l : κ} (h : l ≠ k) : (t.add k).count l = t.count l := by
  simp [count, add, Keyed.get?_put_of_ne t _ h]

theorem total_add (t : Tally κ) (k : κ) : (t.add k).total = t.total + 1 := by
  simp only [total, add, count, Keyed.get?, Keyed.put]
  induction t.entries with
  | nil => simp [Keyed.insert, Keyed.find?]
  | cons e es ih =>
    by_cases h : e.1 = k
    · simp [Keyed.insert, Keyed.find?, h]
      omega
    · simp only [Keyed.insert, Keyed.find?, h, if_false, List.foldr_cons]
      omega

end Tally

end Rulebook
