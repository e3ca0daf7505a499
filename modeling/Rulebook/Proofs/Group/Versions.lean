/-
  What the version of a group tells.

  Groups are read, saved and deleted in any order, with or without an expected version.  A caller
  that was told a version may later save the group if that is still its version.  Versions count the
  saves since a group was last not there, so that this holds if nothing was done to the group in
  between, or if it was deleted and then saved just as often as the version says.

  * `StoreStep.version?_after`: what one step does to the version of a group;
  * `StoreStep.version?_run`: what any steps do to it;
  * `StoreStep.save_accepted_iff`: when a save that expects what a caller was told is accepted.
-/
import Mathlib.Tactic.SplitIfs
import Rulebook.Group.Basic

namespace Rulebook

/-! ## Steps -/

/-- A step at the groups that are stored. -/
inductive StoreStep where
  | get (id : String)
  | list
  | save (g : Group) (expected : Option Int)
  | delete (id : String)

/-- What a step may do to a group. -/
inductive StoreChange where
  | saved | deleted
  deriving DecidableEq, Repr

namespace StoreStep

variable {store : GroupStore} {id : String} {v : Int}

/-- The groups after a step. -/
def after (store : GroupStore) : StoreStep → GroupStore
  | .get _ | .list => store
  | .save g expected =>
    match GroupStore.save g expected store with
    | .ok _ store | .error _ store => store
  | .delete id => (store.remove id).2

/-- What a step does to the group of an id, if it does anything. -/
def change? (id : String) (store : GroupStore) : StoreStep → Option StoreChange
  | .get _ | .list => none
  | .save g expected =>
    match GroupStore.save g expected store with
    | .ok .. => if g.id = id then some .saved else none
    | .error .. => none
  | .delete id' => if id' = id ∧ store.contains id' then some .deleted else none

/-- The version of the group of an id that a step tells to who takes it. -/
def told? (id : String) (store : GroupStore) : StoreStep → Option Int
  | .get id' => if id' = id then (store.get? id').map (·.version) else none
  | .save g expected =>
    match GroupStore.save g expected store with
    | .ok saved _ => if g.id = id then some saved.version else none
    | .error .. => none
  | .list | .delete _ => none

/-- The groups after steps. -/
def run (store : GroupStore) (steps : List StoreStep) : GroupStore :=
  steps.foldl after store

/-- What steps do to the group of an id, in their order. -/
def changes (id : String) : GroupStore → List StoreStep → List StoreChange
  | _, [] => []
  | store, s :: steps => (s.change? id store).toList ++ changes id (s.after store) steps

/-! ## Versions -/

/-- The version of a group after a change. -/
def nextVersion (version : Option Int) : StoreChange → Option Int
  | .saved => some (version.getD 0 + 1)
  | .deleted => none

theorem version?_put (store : GroupStore) (g : Group) (id : String) :
    GroupStore.version? (store.put g.id (store.next g)) id =
      if g.id = id then some ((store.version? id).getD 0 + 1) else store.version? id := by
  unfold GroupStore.version?
  split_ifs with h
  · subst h
    rw [Keyed.get?_put_self]
    rfl
  · rw [Keyed.get?_put_of_ne _ _ (Ne.symm h)]

theorem version?_erase (store : GroupStore) (id' id : String) :
    GroupStore.version? (store.erase id') id = if id' = id then none else store.version? id := by
  unfold GroupStore.version?
  split_ifs with h
  · rw [h, Keyed.get?_erase_self]
    rfl
  · rw [Keyed.get?_erase_of_ne _ (Ne.symm h)]

/-- The version of a group changes with what is done to the group, and with nothing else. -/
theorem version?_after (s : StoreStep) (store : GroupStore) (id : String) :
    (s.after store).version? id =
      (s.change? id store).toList.foldl nextVersion (store.version? id) := by
  cases s with
  | get => rfl
  | list => rfl
  | save g expected =>
    rw [after, change?]
    rcases store.save_cases g expected with ⟨-, hs⟩ | ⟨n, -, -, hs⟩ <;> rw [hs]
    · dsimp only
      rw [version?_put]
      split_ifs <;> rfl
    · rfl
  | delete id' =>
    rw [after, change?, GroupStore.remove, version?_erase]
    by_cases hid : id' = id
    · subst hid
      by_cases hthere : store.contains id' = true
      · rw [if_pos rfl, if_pos ⟨rfl, hthere⟩]
        rfl
      · have hnone : store.version? id' = none := by
          rw [GroupStore.version?, Option.not_isSome_iff_eq_none.1 hthere]
          rfl
        rw [if_pos rfl, if_neg fun h => hthere h.2, hnone]
        rfl
    · rw [if_neg hid, if_neg fun h => hid h.1]
      rfl

theorem version?_run (store : GroupStore) (steps : List StoreStep) (id : String) :
    (run store steps).version? id =
      (changes id store steps).foldl nextVersion (store.version? id) := by
  induction steps generalizing store with
  | nil => rfl
  | cons s steps ih =>
    rw [changes, List.foldl_append, ← version?_after]
    exact ih (s.after store)

/-- Who takes a step is told the version that there is after it. -/
theorem version?_of_told {s : StoreStep} (h : s.told? id store = some v) :
    (s.after store).version? id = some v := by
  cases s with
  | get id' =>
    rw [told?] at h
    split_ifs at h with hid
    subst hid
    exact h
  | list => cases h
  | save g expected =>
    rw [told?] at h
    rw [after]
    rcases store.save_cases g expected with ⟨-, hs⟩ | ⟨n, -, -, hs⟩ <;> rw [hs] at h ⊢
    · dsimp only at h ⊢
      split_ifs at h with hid
      subst hid
      rw [GroupStore.version?, Keyed.get?_put_self]
      exact h
    · cases h
  | delete => cases h

/-! ## Histories of a group -/

/-- What is done to a group are saves only, or saves after the last time that it was deleted. -/
theorem eq_saves_or (cs : List StoreChange) :
    ∃ n, cs = List.replicate n .saved ∨
      ∃ before, cs = before ++ .deleted :: List.replicate n .saved := by
  induction cs with
  | nil => exact ⟨0, .inl rfl⟩
  | cons c cs ih =>
    obtain ⟨n, rfl | ⟨before, rfl⟩⟩ := ih
    · cases c with
      | saved => exact ⟨n + 1, .inl rfl⟩
      | deleted => exact ⟨n, .inr ⟨[], rfl⟩⟩
    · exact ⟨n, .inr ⟨c :: before, rfl⟩⟩

theorem foldl_saves (n : Nat) (version : Option Int) :
    (List.replicate n StoreChange.saved).foldl nextVersion version =
      if n = 0 then version else some (version.getD 0 + n) := by
  induction n generalizing version with
  | zero => rfl
  | succ n ih =>
    rw [List.replicate_succ, List.foldl_cons, ih, if_neg n.succ_ne_zero]
    unfold nextVersion
    split_ifs with hn
    · subst hn
      rfl
    · rw [Option.getD_some]
      push_cast
      exact congrArg some (by omega)

/-- A group is back at a version if nothing was done to it, or if it was deleted and then saved as
    often as the version says. -/
theorem foldl_eq_iff (cs : List StoreChange) (v : Int) :
    cs.foldl nextVersion (some v) = some v ↔
      cs = [] ∨ ∃ before n, 0 < n ∧ cs = before ++ .deleted :: List.replicate n .saved ∧ v = n := by
  constructor
  · intro h
    obtain ⟨n, rfl | ⟨before, rfl⟩⟩ := eq_saves_or cs
    · rw [foldl_saves] at h
      split_ifs at h with hn
      · exact .inl (by rw [hn]; rfl)
      · have := Option.some.inj h
        rw [Option.getD_some] at this
        omega
    · rw [List.foldl_append, List.foldl_cons, foldl_saves] at h
      split_ifs at h with hn
      · cases h
      · refine .inr ⟨before, n, by omega, rfl, ?_⟩
        have := Option.some.inj h
        simp only [nextVersion, Option.getD_none] at this
        omega
  · rintro (rfl | ⟨before, n, hn, rfl, rfl⟩)
    · rfl
    · rw [List.foldl_append, List.foldl_cons, foldl_saves, if_neg (by omega)]
      simp [nextVersion]

theorem save_eq_ok_iff_version {g : Group} :
    (∃ saved after, GroupStore.save g (some v) store = .ok saved after) ↔
      store.version? g.id = some v := by
  constructor
  · rintro ⟨saved, after, h⟩
    exact (GroupStore.save_eq_ok_iff.1 h).1 v rfl
  · intro h
    exact ⟨_, _, GroupStore.save_eq_ok_iff.2 ⟨fun n hn => Option.some.inj hn ▸ h, rfl, rfl⟩⟩

/-- **What an expected version detects.** A caller is told the version of a group by a read or a
    save, any steps are taken, and then the group is saved with that version expected. The save is
    accepted if and only if nothing was saved or deleted under the id in between, or the group was
    deleted in between and since then saved exactly as often as the version says. -/
theorem save_accepted_iff {earlier : StoreStep} {steps : List StoreStep} {g : Group}
    (told : earlier.told? g.id store = some v) :
    (∃ saved after, GroupStore.save g (some v) (run (earlier.after store) steps) =
        .ok saved after) ↔
      changes g.id (earlier.after store) steps = [] ∨
        ∃ before n, 0 < n ∧ changes g.id (earlier.after store) steps =
          before ++ .deleted :: List.replicate n .saved ∧ v = n := by
  rw [save_eq_ok_iff_version, version?_run, version?_of_told told]
  exact foldl_eq_iff _ v

theorem save_accepted_iff_read :
    let g : Group := { id := "g", created := ⟨0, 0⟩ }
    let store : GroupStore := run {} [.save g none, .save g (some 1)]
    let steps : List StoreStep := [.save g (some 1), .save { g with id := "h" } none, .list]
    (StoreStep.get "g").told? "g" store = some 2 ∧
      changes "g" store steps = [] ∧
      ∃ saved after, GroupStore.save g (some 2) (run store steps) = .ok saved after := by
  intro g store steps
  have told : (StoreStep.get "g").told? "g" store = some 2 := by decide +kernel
  have none : changes "g" store steps = [] := by decide +kernel
  exact ⟨told, none, (save_accepted_iff (g := g) told).2 (.inl none)⟩

/-- A group that was deleted and stored again is saved over by who knew it from before. -/
theorem save_accepted_restored :
    let g : Group := { id := "g", created := ⟨0, 0⟩ }
    let store : GroupStore := (StoreStep.save g none).after {}
    let steps : List StoreStep := [.delete "g", .save g none]
    (StoreStep.save g none).told? "g" {} = some 1 ∧
      changes "g" store steps = [.deleted, .saved] ∧
      ∃ saved after, GroupStore.save g (some 1) (run store steps) = .ok saved after := by
  intro g store steps
  exact ⟨by decide +kernel, by decide +kernel, _, _, rfl⟩

end StoreStep

end Rulebook
