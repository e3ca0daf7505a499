/-
  Edits of groups that come in between each other.

  Any number of clients make, edit and delete groups.  An edit reads a group, and later it saves
  what it made of it; in between, others may take any steps.  A client that holds a group which is
  still the one that is stored saves over it, and any other is refused, so that all is as if the
  operations that saved something had been done at once, one after the other.

  * `Coherent`: what the groups that clients hold have to do with those that are stored;
  * `step_coherent`: what one step preserves;
  * `run_serial`: what holds after any steps.
-/
import Mathlib.Logic.Function.Basic
import Rulebook.Proofs.Group.Edits

namespace Rulebook

/-! ## Operations that are done at once -/

/-- An operation on groups that is done at once. -/
inductive GroupOp where
  | create (rules : GroupRules) (id : String) (now : Instant) (draft : Submission GroupDraft)
  | edit (rules : GroupRules) (id : String) (e : GroupEdit)
  | delete (id : String)

namespace GroupOp

/-- Does an operation; it may answer with a group. -/
def run : GroupOp → GroupStore.Operation (Option Group)
  | .create rules id now draft => some <$> GroupStore.create rules id now draft
  | .edit rules id e => some <$> GroupStore.edit rules id e
  | .delete id => (fun () => none) <$> GroupStore.delete id

theorem map_of_ok {α : Type} {operation : GroupStore.Operation α} {store after : GroupStore} {a : α}
    {f : α → Option Group} (h : operation store = .ok a after) :
    (f <$> operation) store = .ok (f a) after := by
  simp only [Functor.map, EStateM.map, h]

/-- Operations succeed one after the other, with the answers that stand with them. -/
inductive Replays (start : GroupStore) : List (GroupOp × Option Group) → GroupStore → Prop where
  | nil : Replays start [] start
  | snoc {log : List (GroupOp × Option Group)} {store after : GroupStore} {op : GroupOp}
      {answer : Option Group} (before : Replays start log store)
      (last : op.run store = .ok answer after) : Replays start (log ++ [(op, answer)]) after

end GroupOp

/-! ## Steps of clients -/

/-- A step of a client. Edits take two, and what they check in between may be of any time. -/
inductive ClientStep (κ : Type) where
  /-- Makes a group under a new id. -/
  | create (rules : GroupRules) (id : String) (now : Instant) (draft : Submission GroupDraft)
  /-- A client reads a group that it wants to edit. -/
  | read (client : κ) (id : String) (e : GroupEdit)
  /-- A client works out what becomes of the group that it read, and saves it. -/
  | save (client : κ) (rules : GroupRules)
  | delete (id : String)

/-- The ids that a step takes for new groups. -/
def ClientStep.newIds {κ : Type} : ClientStep κ → List String
  | .create _ id _ _ => [id]
  | _ => []

/-- The groups that are stored, the groups that clients have read and want to edit, and the
    operations that changed what is stored, with their answers. -/
structure Interleaving (κ : Type) where
  store : GroupStore := {}
  held : κ → Option (Group × GroupEdit) := fun _ => none
  log : List (GroupOp × Option Group) := []

namespace Interleaving

variable {κ : Type} {t : Interleaving κ} {future : List String} {id : String}

/-! ## What clients hold -/

/-- What clients hold is not newer than what is stored, and it is that if it has its version. What
    was deleted is not there, and no id that is yet to come was used. -/
structure Coherent (t : Interleaving κ) (future : List String) : Prop where
  keyed : ∀ id g, t.store.get? id = some g → g.id = id
  unused : ∀ id ∈ future, t.store.get? id = none
  held_used : ∀ k read e, t.held k = some (read, e) → read.id ∉ future
  held_old : ∀ k read e, t.held k = some (read, e) → ∀ g, t.store.get? read.id = some g →
    read.version ≤ g.version ∧ (read.version = g.version → read = g)
  deleted_used : ∀ id, (.delete id, none) ∈ t.log → id ∉ future
  deleted_gone : ∀ id, (.delete id, none) ∈ t.log → t.store.get? id = none
  replays : GroupOp.Replays {} t.log t.store

namespace Coherent

theorem used (coherent : t.Coherent future) {g : Group} (hg : t.store.get? id = some g) :
    id ∉ future := fun hid => by
  rw [coherent.unused id hid] at hg
  cases hg

theorem weaken (coherent : t.Coherent (id :: future)) : t.Coherent future where
  keyed := coherent.keyed
  unused id' h := coherent.unused id' (List.mem_cons_of_mem _ h)
  held_used k read e h hr := coherent.held_used k read e h (List.mem_cons_of_mem _ hr)
  held_old := coherent.held_old
  deleted_used id' h hr := coherent.deleted_used id' h (List.mem_cons_of_mem _ hr)
  deleted_gone := coherent.deleted_gone
  replays := coherent.replays

/-- A group may be stored under an id that was not deleted, if it is newer than what clients hold
    of that id. -/
theorem put (coherent : t.Coherent future) {g : Group} {op : GroupOp} {answer : Option Group}
    (hid : id ∉ future) (hg : g.id = id) (hdeleted : (.delete id, none) ∉ t.log)
    (hnewer : ∀ k read e, t.held k = some (read, e) → read.id = id → read.version < g.version)
    (hop : op.run t.store = .ok answer (t.store.put id g)) (hno : ∀ id', op ≠ .delete id') :
    Coherent { t with store := t.store.put id g, log := t.log ++ [(op, answer)] } future := by
  have hlog (id' : String) (h : (GroupOp.delete id', none) ∈ t.log ++ [(op, answer)]) :
      (GroupOp.delete id', none) ∈ t.log := by
    simpa [(hno id').symm] using h
  exact
    { keyed := fun id' g' h => by
        rcases Keyed.get?_put_eq_some_iff.1 h with ⟨rfl, rfl⟩ | ⟨-, h⟩
        · exact hg
        · exact coherent.keyed id' g' h
      unused := fun id' h => by
        rw [Keyed.get?_put_of_ne _ _ (ne_of_mem_of_not_mem h hid)]
        exact coherent.unused id' h
      held_used := coherent.held_used
      held_old := fun k read e h g' hg' => by
        rcases Keyed.get?_put_eq_some_iff.1 hg' with ⟨heq, rfl⟩ | ⟨-, hg'⟩
        · have hlt := hnewer k read e h heq
          exact ⟨Int.le_of_lt hlt, fun hv => absurd hv (Int.ne_of_lt hlt)⟩
        · exact coherent.held_old k read e h g' hg'
      deleted_used := fun id' h => coherent.deleted_used id' (hlog id' h)
      deleted_gone := fun id' h => by
        have hne : id' ≠ id := fun heq => hdeleted (heq ▸ hlog id' h)
        rw [Keyed.get?_put_of_ne _ _ hne]
        exact coherent.deleted_gone id' (hlog id' h)
      replays := coherent.replays.snoc hop }

end Coherent

/-! ## One step -/

variable [DecidableEq κ]

/-- Takes a step. -/
def step (t : Interleaving κ) : ClientStep κ → Interleaving κ
  | .create rules id now draft =>
    match GroupStore.create rules id now draft t.store with
    | .ok g store => { t with store, log := t.log ++ [(.create rules id now draft, some g)] }
    | .error _ store => { t with store }
  | .read client id e =>
    { t with held := Function.update t.held client ((t.store.get? id).map fun g => (g, e)) }
  | .save client rules =>
    match t.held client with
    | none => t
    | some (read, e) =>
      let t := { t with held := Function.update t.held client none }
      match GroupStore.finish rules read e t.store with
      | .error _ store => { t with store }
      | .ok g store =>
        if e.saves read then { t with store, log := t.log ++ [(.edit rules read.id e, some g)] }
        else { t with store }
  | .delete id =>
    match GroupStore.delete id t.store with
    | .ok () store => { t with store, log := t.log ++ [(.delete id, none)] }
    | .error _ store => { t with store }

/-- Takes steps one after the other. -/
def run (t : Interleaving κ) (steps : List (ClientStep κ)) : Interleaving κ :=
  steps.foldl step t

/-- A client may hold any group that is stored, or none. -/
theorem Coherent.hold (coherent : t.Coherent future) (client : κ) {o : Option (Group × GroupEdit)}
    (ho : ∀ read e, o = some (read, e) → t.store.get? read.id = some read) :
    Coherent { t with held := Function.update t.held client o } future where
  keyed := coherent.keyed
  unused := coherent.unused
  held_used k read e h := by
    by_cases heq : k = client
    · subst heq
      exact coherent.used (ho read e (by simpa using h))
    · exact coherent.held_used k read e (by simpa [heq] using h)
  held_old k read e h g hg := by
    by_cases heq : k = client
    · subst heq
      obtain rfl : read = g :=
        Option.some.inj ((ho read e (by simpa using h)).symm.trans hg)
      exact ⟨Int.le_refl _, fun _ => rfl⟩
    · exact coherent.held_old k read e (by simpa [heq] using h) g hg
  deleted_used := coherent.deleted_used
  deleted_gone := coherent.deleted_gone
  replays := coherent.replays

theorem step_create_coherent {rules : GroupRules} {now : Instant} {draft : Submission GroupDraft}
    (coherent : t.Coherent (id :: future)) (hid : id ∉ future) :
    (t.step (.create rules id now draft)).Coherent future := by
  rw [step]
  cases hc : GroupStore.create rules id now draft t.store with
  | error f store =>
    obtain rfl := GroupStore.create_whole rules id now draft _ _ _ hc
    exact coherent.weaken
  | ok g store =>
    obtain ⟨-, -, hg, -, -, rfl⟩ := GroupStore.create_cases hc
    have hop : (GroupOp.create rules id now draft).run t.store =
        .ok (some g) (t.store.put id g) :=
      GroupOp.map_of_ok hc
    refine coherent.weaken.put hid hg (fun h => ?_) (fun k read e h heq => ?_) hop nofun
    · exact coherent.deleted_used id h List.mem_cons_self
    · exact absurd (heq ▸ List.mem_cons_self) (coherent.held_used k read e h)

theorem step_save_coherent {client : κ} {rules : GroupRules} (coherent : t.Coherent future) :
    (t.step (.save client rules)).Coherent future := by
  rw [step]
  split
  · exact coherent
  next read e hheld =>
  have released := coherent.hold client (o := none) fun _ _ h => by cases h
  dsimp only
  split
  · next f store hfinish =>
    obtain rfl := GroupStore.finish_whole rules read e _ _ _ hfinish
    exact released
  next g store hfinish =>
  rcases GroupStore.finish_cases hfinish with ⟨hno, -, rfl⟩ | ⟨r, hyes, happly, hversion, rfl, rfl⟩
  · rw [hno]
    exact released
  rw [if_pos hyes]
  obtain ⟨g, hg, hgv⟩ := Option.map_eq_some_iff.1 hversion
  obtain ⟨-, hsame⟩ := coherent.held_old client read e hheld g hg
  obtain rfl : read = g := hsame hgv.symm
  have hop : (GroupOp.edit rules read.id e).run t.store = .ok
      (some { r with version := read.version + 1 })
        (t.store.put read.id { r with version := read.version + 1 }) := by
    refine GroupOp.map_of_ok ?_
    rw [GroupStore.edit_eq, hg]
    exact hfinish
  have hid : ({ r with version := read.version + 1 } : Group).id = read.id :=
    (GroupEdit.apply_keeps happly).1
  refine released.put (coherent.used hg) hid (fun h => ?_) (fun k read' e' h heq => ?_) hop nofun
  · exact absurd (hg.symm.trans (coherent.deleted_gone _ h)) (by simp)
  · by_cases hk : k = client
    · simp [hk] at h
    · have hold := coherent.held_old k read' e' (by simpa [hk] using h) read (heq ▸ hg)
      exact Int.lt_add_one_of_le hold.1

theorem step_delete_coherent (coherent : t.Coherent future) :
    (t.step (.delete id)).Coherent future := by
  rw [step]
  cases hd : GroupStore.delete id t.store with
  | error f store =>
    obtain rfl := GroupStore.delete_whole id _ _ _ hd
    exact coherent
  | ok u store =>
    obtain ⟨hthere, rfl⟩ := GroupStore.delete_eq_ok_iff.1 hd
    obtain ⟨g, hg⟩ := Option.isSome_iff_exists.1 hthere
    have hget {id' : String} {g' : Group} (h : (t.store.erase id).get? id' = some g') :
        t.store.get? id' = some g' :=
      (Keyed.get?_erase_eq_some_iff.1 h).2
    have hnone {id' : String} (h : t.store.get? id' = none) :
        (t.store.erase id).get? id' = none :=
      Option.eq_none_iff_forall_ne_some.2 fun g' hg' => by
        rw [hget hg'] at h
        cases h
    have hlog (id' : String)
        (h : (GroupOp.delete id', none) ∈ t.log ++ [(GroupOp.delete id, none)]) :
        (GroupOp.delete id', none) ∈ t.log ∨ id' = id := by
      simpa using h
    exact
      { keyed := fun id' g' h => coherent.keyed id' g' (hget h)
        unused := fun id' h => hnone (coherent.unused id' h)
        held_used := coherent.held_used
        held_old := fun k read e h g' hg' => coherent.held_old k read e h g' (hget hg')
        deleted_used := fun id' h => by
          rcases hlog id' h with hold | rfl
          · exact coherent.deleted_used id' hold
          · exact coherent.used hg
        deleted_gone := fun id' h => by
          rcases hlog id' h with hold | rfl
          · exact hnone (coherent.deleted_gone id' hold)
          · exact Keyed.get?_erase_self _ _
        replays := coherent.replays.snoc (GroupOp.map_of_ok hd) }

theorem step_coherent {s : ClientStep κ} (coherent : t.Coherent (s.newIds ++ future))
    (fresh : (s.newIds ++ future).Nodup) : (t.step s).Coherent future := by
  cases s with
  | create rules id now draft => exact step_create_coherent coherent (List.nodup_cons.1 fresh).1
  | read client id e =>
    refine Coherent.hold coherent client fun read e' h => ?_
    obtain ⟨g, hg, heq⟩ := Option.map_eq_some_iff.1 h
    cases heq
    rwa [coherent.keyed id read hg]
  | save client rules => exact step_save_coherent coherent
  | delete id => exact step_delete_coherent coherent

/-! ## All steps -/

theorem run_coherent {steps : List (ClientStep κ)}
    (coherent : t.Coherent (steps.flatMap ClientStep.newIds))
    (fresh : (steps.flatMap ClientStep.newIds).Nodup) : (t.run steps).Coherent [] := by
  induction steps generalizing t with
  | nil => exact coherent
  | cons s steps ih =>
    rw [List.flatMap_cons] at coherent fresh
    exact ih (step_coherent coherent fresh) (List.nodup_append.1 fresh).2.1

/-- The step that saves what an edit makes of the group that a client holds: it saves, over just
    that group and under the next version, or there is a conflict and nothing changes. -/
inductive SaveOutcome (t : Interleaving κ) (client : κ) (rules : GroupRules) (read : Group)
    (e : GroupEdit) (r : Group) : Prop where
  | saved (current : t.store.get? read.id = some read)
      (answer : GroupStore.finish rules read e t.store = .ok { r with version := read.version + 1 }
        (t.store.put read.id { r with version := read.version + 1 }))
      (stored : (t.step (.save client rules)).store =
        t.store.put read.id { r with version := read.version + 1 })
  | refused (stale : t.store.get? read.id ≠ some read)
      (answer : GroupStore.finish rules read e t.store =
        .error (.engine (Group.conflict read.id read.version (t.store.version? read.id))) t.store)
      (unchanged : (t.step (.save client rules)).store = t.store)

/-- No save is lost: one is made over just the group that was read or not at all, what was deleted
    stays so, and what is stored comes of doing the operations at once that saved or deleted
    something, in the order in which they did so. -/
structure Serial (t : Interleaving κ) : Prop where
  save : ∀ client rules read e r, t.held client = some (read, e) →
    e.apply rules read = .ok (some r) → SaveOutcome t client rules read e r
  deleted : ∀ id, (.delete id, none) ∈ t.log → t.store.get? id = none
  replays : GroupOp.Replays {} t.log t.store

theorem Coherent.saveOutcome (coherent : t.Coherent future) {client : κ} {rules : GroupRules}
    {read r : Group} {e : GroupEdit} (hheld : t.held client = some (read, e))
    (happly : e.apply rules read = .ok (some r)) : SaveOutcome t client rules read e r := by
  obtain ⟨hid, -⟩ := GroupEdit.apply_keeps happly
  have hfinish : GroupStore.finish rules read e t.store =
      GroupStore.save r (some read.version) t.store := by
    rw [GroupStore.finish, happly]
  have hsaves : e.saves read = true := GroupEdit.saves_of_apply happly
  rcases t.store.save_cases r (some read.version) with ⟨hversion, hs⟩ | ⟨n, hn, hversion, hs⟩ <;>
    rw [hs] at hfinish
  · have hv : t.store.version? read.id = some read.version := hid ▸ hversion _ rfl
    obtain ⟨g, hg, hgv⟩ := Option.map_eq_some_iff.1 hv
    obtain rfl : read = g := (coherent.held_old client read e hheld g hg).2 hgv.symm
    have hnext : t.store.next r = { r with version := read.version + 1 } := by
      rw [GroupStore.next, hid, hv]
      rfl
    rw [hid, hnext] at hfinish
    exact .saved hg hfinish (by simp only [step, hheld, hfinish, hsaves, if_true])
  · cases hn
    rw [hid] at hversion hfinish
    refine .refused (fun hg => hversion ?_) hfinish ?_
    · rw [GroupStore.version?, hg]
      rfl
    · simp only [step, hheld, hfinish]

/-- **No update is lost.** Whatever steps clients take, in any order, if new groups get new ids: a
    save succeeds if and only if the group that it was made from is stored, and raises its version
    by one; otherwise there is a conflict, and nothing changes. No deleted group comes back, and
    what is stored comes of the operations that succeeded, done at once and in the order of their
    saves. -/
theorem run_serial {steps : List (ClientStep κ)}
    (fresh : (steps.flatMap ClientStep.newIds).Nodup) : (run {} steps : Interleaving κ).Serial := by
  have empty : Coherent ({} : Interleaving κ) (steps.flatMap ClientStep.newIds) :=
    { keyed := nofun
      unused := fun _ _ => rfl
      held_used := fun _ _ _ h => by cases h
      held_old := fun _ _ _ h => by cases h
      deleted_used := nofun
      deleted_gone := nofun
      replays := .nil }
  have coherent := run_coherent empty fresh
  exact
    { save := fun _ _ _ _ _ hheld happly => coherent.saveOutcome hheld happly
      deleted := coherent.deleted_gone
      replays := coherent.replays }

theorem run_serial_two :
    let rules : GroupRules := { config := {}, known := fun _ => true }
    let draft : GroupDraft := { name := some "Group", mode := .text "ALL", members := ["a", "b"] }
    let steps : List (ClientStep Bool) :=
      [.create rules "g" ⟨0, 0⟩ (.form draft), .read true "g" (.removeRule "a"),
        .read false "g" (.removeRule "b"), .save true rules, .save false rules]
    let t : Interleaving Bool := run {} steps
    (steps.flatMap ClientStep.newIds).Nodup ∧ t.Serial ∧ t.store.version? "g" = some 2 := by
  intro rules draft steps t
  have fresh : (steps.flatMap ClientStep.newIds).Nodup := by decide
  exact ⟨fresh, run_serial fresh, by decide +kernel⟩

end Interleaving

end Rulebook
