/-
  Which data has a text.

  A whole number of more than 4300 digits is not written out.  Nothing else keeps data from a
  listing; a JSON text also wants every key to be a text, a number, a truth value or null, and has
  no form for slices and for data that holds itself.

  * `Succeeds.bind_iff`: computations that have a result;
  * `Data.listing_iff`, `Data.asText_iff`: listings and sentences;
  * `Json.write_iff`: JSON texts.
-/
import Rulebook.Json.Writer
import Rulebook.Number.Reading

namespace Rulebook

/-! ## Computations that have a result -/

/-- A computation has a result. -/
def Succeeds {ε α : Type} (x : Except ε α) : Prop :=
  ∃ a, x = .ok a

namespace Succeeds

variable {ε α β : Type}

@[simp] theorem ok (a : α) : Succeeds (.ok a : Except ε α) :=
  ⟨a, rfl⟩

@[simp] theorem pure (a : α) : Succeeds (Pure.pure a : Except ε α) :=
  ⟨a, rfl⟩

@[simp] theorem not_error (e : ε) : ¬Succeeds (.error e : Except ε α) :=
  nofun

/-- A sequence has a result if its parts have, and whether the second one has does not depend on
    the result of the first. -/
theorem bind_iff {x : Except ε α} {f : α → Except ε β} {P : Prop}
    (hf : ∀ a, x = .ok a → (Succeeds (f a) ↔ P)) : Succeeds (x >>= f) ↔ Succeeds x ∧ P := by
  cases x with
  | error e => exact iff_of_false (not_error e) fun h => not_error e h.1
  | ok a => exact (hf a rfl).trans (and_iff_right (ok a)).symm

theorem bind_pure_iff {x : Except ε α} {f : α → β} :
    (Succeeds do return f (← x)) ↔ Succeeds x :=
  (bind_iff fun _ _ => iff_true_intro (pure _)).trans (iff_of_eq (and_true _))

end Succeeds

/-! ## Listings -/

namespace Data

/-- A whole number is written out: it has no more digits than one that is read may have. -/
def Short (n : Int) : Prop :=
  n.natAbs < Nat.pow 10 Reading.maxDigits

/-- A number of `140 * k` binary digits has at most `43 * k` decimal ones. -/
theorem short_of_log2_lt {n : Int} {k : Nat} (hk : k ≠ 0) (hlog : n.natAbs.log2 < 140 * k)
    (hdigits : 43 * k ≤ Reading.maxDigits) : Short n :=
  calc
    n.natAbs < 2 ^ (n.natAbs.log2 + 1) := Nat.lt_log2_self
    _ ≤ 2 ^ (140 * k) := Nat.pow_le_pow_right (by decide) hlog
    _ = (2 ^ 140) ^ k := Nat.pow_mul 2 140 k
    _ < (10 ^ 43) ^ k := Nat.pow_lt_pow_left (by decide) hk
    _ = 10 ^ (43 * k) := (Nat.pow_mul 10 43 k).symm
    _ ≤ Nat.pow 10 Reading.maxDigits := Nat.pow_le_pow_right (by decide) hdigits

theorem intText_iff {n : Int} : Succeeds (intText n) ↔ Short n := by
  have hbits : n.natAbs.log2 < 14000 → Short n := fun hlog =>
    short_of_log2_lt (k := 100) (by decide) hlog (by decide)
  have hshort : Short n ↔ n.natAbs < Nat.pow 10 4300 := by
    unfold Short Reading.maxDigits
    generalize 4300 = k
    exact Iff.rfl
  unfold intText
  split
  · next h => exact iff_of_true (.ok _) (h.elim hbits hshort.2)
  · next h => exact iff_of_false (Succeeds.not_error _) fun hn => h (.inr (hshort.1 hn))

mutual

/-- All whole numbers in data are short. -/
def Listable : Data → Prop
  | .int n => Short n
  | .tuple items => AllListable items
  | .slice a b c => Listable a ∧ Listable b ∧ Listable c
  | .list items => AllListable items
  | .mapping entries => EntriesListable entries
  | _ => True

/-- All whole numbers in several data are short. -/
def AllListable : List Data → Prop
  | [] => True
  | d :: ds => Listable d ∧ AllListable ds

/-- All whole numbers in the entries of a mapping are short. -/
def EntriesListable : List (Data × Data) → Prop
  | [] => True
  | (k, v) :: es => Listable k ∧ Listable v ∧ EntriesListable es

end

mutual

theorem listing_iff : ∀ d : Data, Succeeds (listing d) ↔ Listable d
  | .null | .bool _ | .float _ | .text _ | .instant _ | .duration _ | .cycle _ =>
    iff_of_true (.ok _) trivial
  | .int n => intText_iff
  | .tuple [] => iff_of_true (.ok _) trivial
  | .tuple [x] => by
    rw [listing, Succeeds.bind_pure_iff, listing_iff x, Listable, AllListable, AllListable,
      and_true]
  | .tuple (x :: y :: items) => by
    rw [listing, Succeeds.bind_pure_iff, listings_iff (x :: y :: items), Listable]
    simp
  | .slice a b c => by
    rw [listing, Succeeds.bind_iff fun _ _ => Succeeds.bind_iff fun _ _ => Succeeds.bind_pure_iff,
      listing_iff a, listing_iff b, listing_iff c, Listable]
  | .list items => by rw [listing, Succeeds.bind_pure_iff, listings_iff items, Listable]
  | .mapping entries => by
    rw [listing, Succeeds.bind_pure_iff, entryListings_iff entries, Listable]

theorem listings_iff : ∀ ds : List Data, Succeeds (listings ds) ↔ AllListable ds
  | [] => iff_of_true (.ok _) trivial
  | d :: ds => by
    rw [listings, Succeeds.bind_iff fun _ _ => Succeeds.bind_pure_iff, listing_iff d,
      listings_iff ds, AllListable]

theorem entryListings_iff : ∀ es : List (Data × Data),
    Succeeds (entryListings es) ↔ EntriesListable es
  | [] => iff_of_true (.ok _) trivial
  | (k, v) :: es => by
    rw [entryListings,
      Succeeds.bind_iff fun _ _ => Succeeds.bind_iff fun _ _ => Succeeds.bind_pure_iff,
      listing_iff k, listing_iff v, entryListings_iff es, EntriesListable]

end

theorem asText_iff (d : Data) : Succeeds d.asText ↔ d.Listable := by
  cases d with
  | text s => exact iff_of_true (.ok _) trivial
  | instant t => exact iff_of_true (.ok _) trivial
  | duration n => exact iff_of_true (.ok _) trivial
  | _ => exact listing_iff _

end Data

/-! ## JSON texts -/

namespace Json

open Data (Short intText_iff)

/-- Data can be a key: it is a text, a number, a truth value or null. -/
def IsKey : Data → Prop
  | .text _ | .float _ | .bool _ | .null => True
  | .int n => Short n
  | _ => False

mutual

/-- Data has a JSON text: its whole numbers are short, its keys can be keys, it holds no slices and
    does not hold itself. -/
def Writable : Data → Prop
  | .int n => Short n
  | .list items => AllWritable items
  | .tuple items => AllWritable items
  | .mapping entries => EntriesWritable entries
  | .cycle _ | .slice .. => False
  | _ => True

/-- Several data have JSON texts. -/
def AllWritable : List Data → Prop
  | [] => True
  | d :: ds => Writable d ∧ AllWritable ds

/-- The entries of a mapping have JSON texts. -/
def EntriesWritable : List (Data × Data) → Prop
  | [] => True
  | (k, v) :: es => IsKey k ∧ Writable v ∧ EntriesWritable es

end

theorem key_iff (d : Data) : Succeeds (key inText d) ↔ IsKey d := by
  cases d with
  | text s => exact iff_of_true (.ok _) trivial
  | float x => exact iff_of_true (.ok _) trivial
  | bool b => exact iff_of_true (.ok _) trivial
  | null => exact iff_of_true (.ok _) trivial
  | int n => exact intText_iff
  | _ => exact iff_of_false (Succeeds.not_error _) id

mutual

theorem write_iff : ∀ d : Data, Succeeds (write inText d) ↔ Writable d
  | .null | .bool _ | .float _ | .text _ | .instant _ | .duration _ => iff_of_true (.ok _) trivial
  | .int n => intText_iff
  | .list items => by rw [write, Succeeds.bind_pure_iff, writeAll_iff items, Writable]
  | .tuple items => by rw [write, Succeeds.bind_pure_iff, writeAll_iff items, Writable]
  | .mapping entries => by rw [write, Succeeds.bind_pure_iff, writeEntries_iff entries, Writable]
  | .cycle _ | .slice .. => iff_of_false (Succeeds.not_error _) id

theorem writeAll_iff : ∀ ds : List Data, Succeeds (writeAll inText ds) ↔ AllWritable ds
  | [] => iff_of_true (.ok _) trivial
  | d :: ds => by
    rw [writeAll, Succeeds.bind_iff fun _ _ => Succeeds.bind_pure_iff, write_iff d,
      writeAll_iff ds, AllWritable]

theorem writeEntries_iff : ∀ es : List (Data × Data),
    Succeeds (writeEntries inText es) ↔ EntriesWritable es
  | [] => iff_of_true (.ok _) trivial
  | (k, v) :: es => by
    rw [writeEntries,
      Succeeds.bind_iff fun _ _ => Succeeds.bind_iff fun _ _ => Succeeds.bind_pure_iff,
      key_iff k, write_iff v, writeEntries_iff es, EntriesWritable]

end

end Json

end Rulebook
