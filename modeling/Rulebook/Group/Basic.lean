/-
  Groups of rules and where they are kept.

  A group names its rules and how they are combined.  It is kept with a version, which goes up by
  one with every save; a save may ask for the version that it was made from, and is refused if
  another save came in between.

  * `GroupStore.save`: the save and its refusal;
  * `save_cases`: what a save does, and that one which is refused changes nothing;
  * `save_eq_ok_iff`: when a save is accepted.
-/
import Rulebook.EngineError
import Rulebook.Keyed

namespace Rulebook

/-- A group of rules as it is given; whether it makes sense is checked apart from it. -/
structure Group where
  id : String
  name : Data := .null
  mode : Data := .null
  /-- The ids of the rules, if any are given. -/
  members : Option (List String) := some []
  description : Data := .null
  metadata : Details := []
  version : Int := 0
  /-- When the group was made. -/
  created : Instant

namespace Group

/-- The error about a group that is not there. -/
def notFound (id : String) : EngineError where
  kind := .notFound
  message := s!"Rule group with id {id} not found"
  details := .of [("group_id", .text id)]

/-- The error about a save that another one came before. -/
def conflict (id : String) (expected : Int) (current : Option Int) : EngineError where
  kind := .conflict
  message := s!"Rule group {id} was modified concurrently"
  details := .of [("group_id", .text id), ("expected_version", .int expected),
    ("current_version", match current with | some n => .int n | none => .null)]

end Group

/-- Groups by id, in the order in which they were first saved. -/
abbrev GroupStore := Keyed String Group

namespace GroupStore

/-- The version under which a group is kept. -/
def version? (store : GroupStore) (id : String) : Option Int :=
  (store.get? id).map (·.version)

/-- A group with the version that it is saved under. -/
def next (store : GroupStore) (g : Group) : Group :=
  { g with version := (store.version? g.id).getD 0 + 1 }

/-- An operation on the groups that are stored. Where it fails, too, it leaves groups behind, which
    may be other ones than before. -/
abbrev Operation := EStateM Failure GroupStore

/-- Refuses to go on if a version is expected that is not the one that is kept. -/
def expect (id : String) : Option Int → Operation Unit
  | none => return
  | some n => do
    let current := (← get).version? id
    unless current = some n do throw (.engine (Group.conflict id n current))

/-- Saves a group. If a version is expected, it has to be the one that is kept. -/
def save (g : Group) (expected : Option Int) : Operation Group := do
  expect g.id expected
  let stored := (← get).next g
  modify (·.put g.id stored)
  return stored

/-- Removes a group, and tells whether it was there. -/
def remove (store : GroupStore) (id : String) : Bool × GroupStore :=
  (store.contains id, store.erase id)

/-- The group of an id. -/
def require (store : GroupStore) (id : String) : Except EngineError Group :=
  match store.get? id with
  | some g => .ok g
  | none => .error (Group.notFound id)

theorem expect_some (store : GroupStore) (id : String) (n : Int) :
    expect id (some n) store = if store.version? id = some n then .ok () store
      else .error (.engine (Group.conflict id n (store.version? id))) store := by
  change (if store.version? id = some n then pure () else throw _ : Operation Unit) store = _
  split <;> rfl

/-- A save is made over what is kept, or it is refused and nothing changes. -/
theorem save_cases (store : GroupStore) (g : Group) (expected : Option Int) :
    ((∀ n, expected = some n → store.version? g.id = some n) ∧
      save g expected store = .ok (store.next g) (store.put g.id (store.next g))) ∨
    ∃ n, expected = some n ∧ store.version? g.id ≠ some n ∧
      save g expected store =
        .error (.engine (Group.conflict g.id n (store.version? g.id))) store := by
  cases expected with
  | none => exact .inl ⟨nofun, rfl⟩
  | some n =>
    by_cases hn : store.version? g.id = some n
    · refine .inl ⟨fun _ h => Option.some.inj h ▸ hn, ?_⟩
      simp only [save, bind, EStateM.bind, expect_some, if_pos hn]
      rfl
    · refine .inr ⟨n, rfl, hn, ?_⟩
      simp only [save, bind, EStateM.bind, expect_some, if_neg hn]

theorem save_eq_ok_iff {store after : GroupStore} {g h : Group} {expected : Option Int} :
    save g expected store = .ok h after ↔
      (∀ n, expected = some n → store.version? g.id = some n) ∧
        h = store.next g ∧ after = store.put g.id h := by
  rcases save_cases store g expected with ⟨hversion, hsave⟩ | ⟨n, rfl, hversion, hsave⟩ <;>
    rw [hsave]
  · simp only [EStateM.Result.ok.injEq]
    constructor
    · rintro ⟨rfl, rfl⟩; exact ⟨hversion, rfl, rfl⟩
    · rintro ⟨-, rfl, rfl⟩; exact ⟨rfl, rfl⟩
  · simp [hversion]

end GroupStore

end Rulebook
