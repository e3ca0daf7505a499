/-
  What the groups of a service have gone through.

  A service is followed through calls that make, edit and delete groups and that save and delete
  rules, succeeding or not.  Beside it, the answers are counted: when a group was made, how often it
  was saved since, and whether a rule was ever deleted.  Every group that is kept is valid and
  stands as the count says.

  * `GroupHistory.step_sound`: what one call preserves;
  * `GroupHistory.run_accounts`: what holds of every group after any calls.
-/
import Rulebook.Proofs.Group.Edits
import Rulebook.Service

namespace Rulebook

/-! ## Answers of the service -/

namespace Service

variable {s s' : Service} {id : String} {g : Group}

/-- With an operation that is done wholly or not at all, the groups change only if it succeeds, and
    nothing else does. -/
theorem withGroups_cases {α : Type} (s : Service) {operation : GroupStore.Operation α}
    (whole : GroupStore.Whole operation) :
    (∃ f, s.withGroups operation = (.error f, s)) ∨
      ∃ a groups, s.withGroups operation = (.ok a, { s with groups }) ∧
        operation s.groups = .ok a groups := by
  unfold withGroups
  cases ho : operation s.groups with
  | ok a groups => exact .inr ⟨a, groups, rfl, rfl⟩
  | error f groups =>
    obtain rfl := whole _ _ _ ho
    exact .inl ⟨f, rfl⟩

theorem createGroup_cases (s : Service) (id : String) (draft : Submission GroupDraft) :
    (∃ f, s.createGroup id draft = (.error f, s)) ∨
      ∃ g s', s.createGroup id draft = (.ok g, s') ∧ s'.rules = s.rules ∧
        GroupStore.create s.groupRules id s.state.clock draft s.groups = .ok g s'.groups := by
  unfold createGroup
  obtain ⟨f, h⟩ | ⟨g, groups, h, hgroups⟩ :=
    s.withGroups_cases (GroupStore.create_whole s.groupRules id s.state.clock draft) <;> rw [h]
  · exact .inl ⟨f, rfl⟩
  · exact .inr ⟨g, _, rfl, rfl, hgroups⟩

theorem editGroup_cases (s : Service) (id : String) (e : GroupEdit) :
    (∃ f, s.editGroup id e = (.error f, s)) ∨
      ∃ g s', s.editGroup id e = (.ok g, s') ∧ s'.rules = s.rules ∧
        GroupStore.edit s.groupRules id e s.groups = .ok g s'.groups := by
  unfold editGroup
  obtain ⟨f, h⟩ | ⟨g, groups, h, hgroups⟩ :=
    s.withGroups_cases (GroupStore.edit_whole s.groupRules id e) <;> rw [h]
  · exact .inl ⟨f, rfl⟩
  · exact .inr ⟨g, _, rfl, rfl, hgroups⟩

theorem deleteGroup_cases (s : Service) (id : String) :
    (∃ f, s.deleteGroup id = (.error f, s)) ∨
      ∃ s', s.deleteGroup id = (.ok (), s') ∧ s'.rules = s.rules ∧
        s'.groups = s.groups.erase id := by
  unfold deleteGroup
  obtain ⟨f, h⟩ | ⟨u, groups, h, hgroups⟩ :=
    s.withGroups_cases (GroupStore.delete_whole id) <;> rw [h]
  · exact .inl ⟨f, rfl⟩
  · exact .inr ⟨_, rfl, rfl, (GroupStore.delete_eq_ok_iff.1 hgroups).2⟩

end Service

/-! ## Histories -/

/-- A call that may have to do with groups. -/
inductive GroupCall where
  /-- Makes a group under a new id. -/
  | create (id : String) (draft : Submission GroupDraft)
  | edit (id : String) (e : GroupEdit)
  | delete (id : String)
  | saveRule (r : Rule)
  | deleteRule (id : String)
  /-- Anything that leaves rules and groups as they are, such as a run. -/
  | other (engine : Engine) (state : EngineState)

/-- The ids that a call takes for new groups. -/
def GroupCall.newIds : GroupCall → List String
  | .create id _ => [id]
  | _ => []

/-- When a group was made, and how often it was saved since. -/
structure Origin where
  created : Instant
  saves : Nat := 0

/-- A service, and what is known of it from its answers. -/
structure GroupHistory where
  service : Service
  /-- The origins of the groups that were made and not deleted. -/
  origins : Keyed String Origin := {}
  /-- Whether a rule was deleted. -/
  ruleDeleted : Bool := false

namespace GroupHistory

/-- Whether an edit of the group of an id has something to save. -/
def saves (h : GroupHistory) (id : String) (e : GroupEdit) : Bool :=
  (h.service.groups.get? id).any e.saves

/-- The origins with one more save of a group. -/
def counted (h : GroupHistory) (id : String) : Keyed String Origin :=
  match h.origins.get? id with
  | some o => h.origins.put id { o with saves := o.saves + 1 }
  | none => h.origins

/-- Makes a call and counts its answer. -/
def step (h : GroupHistory) : GroupCall → GroupHistory
  | .create id draft =>
    match h.service.createGroup id draft with
    | (.ok _, s) =>
      { h with service := s, origins := h.origins.put id { created := h.service.state.clock } }
    | (.error _, s) => { h with service := s }
  | .edit id e =>
    match h.service.editGroup id e with
    | (.ok _, s) =>
      { h with service := s, origins := if h.saves id e then h.counted id else h.origins }
    | (.error _, s) => { h with service := s }
  | .delete id =>
    match h.service.deleteGroup id with
    | (.ok (), s) => { h with service := s, origins := h.origins.erase id }
    | (.error _, s) => { h with service := s }
  | .saveRule r => { h with service := h.service.saveRule r }
  | .deleteRule id =>
    let (found, s) := h.service.deleteRule id
    { h with service := s, ruleDeleted := h.ruleDeleted || found }
  | .other engine state => { h with service := { h.service with engine, state } }

/-- Makes calls one after the other. -/
def run (h : GroupHistory) (calls : List GroupCall) : GroupHistory :=
  calls.foldl step h

/-- A group that is kept under an id is valid, has the id and the time that it was made with and a
    version that counts its saves, and if no rule was deleted, its members are rules. -/
structure Accounts (h : GroupHistory) (id : String) (g : Group) : Prop where
  valid : g.Valid
  sameId : g.id = id
  origin : ∃ o, h.origins.get? id = some o ∧ g.created = o.created ∧ g.version = 1 + o.saves
  resolves : h.ruleDeleted = false → g.Resolves h.service.rules.contains

/-- All groups that are kept are accounted for, and none has an id that is yet to come. -/
structure Sound (h : GroupHistory) (future : List String) : Prop where
  accounts : ∀ id g, h.service.groups.get? id = some g → h.Accounts id g
  unused : ∀ id ∈ future, h.service.groups.get? id = none

variable {h h' : GroupHistory} {id : String} {g : Group} {future : List String}

/-! ## One call -/

/-- A group is accounted for as long as its origin stays and no rule goes. -/
theorem Accounts.mono (ha : h.Accounts id g) (ho : h'.origins.get? id = h.origins.get? id)
    (hr : h'.ruleDeleted = false → h.ruleDeleted = false ∧
      ∀ r, h.service.rules.contains r = true → h'.service.rules.contains r = true) :
    h'.Accounts id g where
  valid := ha.valid
  sameId := ha.sameId
  origin := ho ▸ ha.origin
  resolves hno := fun ids hids r hr' =>
    (hr hno).2 r (ha.resolves (hr hno).1 ids hids r hr')

theorem Sound.keep (sound : h.Sound future) (hg : h'.service.groups = h.service.groups)
    (ho : h'.origins = h.origins)
    (hr : h'.ruleDeleted = false → h.ruleDeleted = false ∧
      ∀ r, h.service.rules.contains r = true → h'.service.rules.contains r = true) :
    h'.Sound future where
  accounts id g hid := (sound.accounts id g (hg ▸ hid)).mono (by rw [ho]) hr
  unused := hg ▸ sound.unused

/-- A call that saves one group keeps what is known of the others. -/
theorem Sound.put (sound : h.Sound future) (hid : id ∉ future)
    (hg : h'.service.groups = h.service.groups.put id g)
    (ho : ∀ id', id' ≠ id → h'.origins.get? id' = h.origins.get? id')
    (hr : h'.service.rules = h.service.rules) (hd : h'.ruleDeleted = h.ruleDeleted)
    (ha : h'.Accounts id g) : h'.Sound future where
  accounts id' g' hg' := by
    rcases Keyed.get?_put_eq_some_iff.1 (hg ▸ hg') with ⟨rfl, rfl⟩ | ⟨hne, hg'⟩
    · exact ha
    · exact (sound.accounts id' g' hg').mono (ho id' hne) fun hno =>
        ⟨hd ▸ hno, fun r hr' => hr ▸ hr'⟩
  unused id' hid' := by
    have hne : id' ≠ id := fun heq => hid (heq ▸ hid')
    rw [hg, Keyed.get?_put_of_ne _ _ hne]
    exact sound.unused id' hid'

theorem step_create_sound {draft : Submission GroupDraft} (sound : h.Sound (id :: future))
    (hid : id ∉ future) : (h.step (.create id draft)).Sound future := by
  have sound' : h.Sound future :=
    ⟨sound.accounts, fun id' h' => sound.unused id' (List.mem_cons_of_mem _ h')⟩
  rw [step]
  rcases h.service.createGroup_cases id draft with ⟨f, hc⟩ | ⟨g, s', hc, hrules, hcreate⟩ <;>
    rw [hc]
  · exact sound'
  · obtain ⟨hvalid, hresolves, hgid, hcreated, hversion, hgroups⟩ :=
      GroupStore.create_cases hcreate
    have hnone : h.service.groups.version? id = none := by
      rw [GroupStore.version?, sound.unused id List.mem_cons_self]
      rfl
    refine sound'.put hid hgroups (fun id' hne => Keyed.get?_put_of_ne _ _ hne) hrules rfl
      { valid := hvalid
        sameId := hgid
        origin := ⟨{ created := h.service.state.clock }, Keyed.get?_put_self _ _ _, hcreated, by
          simp [hversion, hnone]⟩
        resolves := fun _ => ?_ }
    rw [hrules]
    exact hresolves

theorem step_edit_sound {e : GroupEdit} (sound : h.Sound future) :
    (h.step (.edit id e)).Sound future := by
  rw [step]
  rcases h.service.editGroup_cases id e with ⟨f, hc⟩ | ⟨g', s', hc, hrules, hedit⟩ <;> rw [hc]
  · exact sound
  rw [GroupStore.edit_eq] at hedit
  cases hg : h.service.groups.get? id with
  | none => rw [hg] at hedit; cases hedit
  | some g =>
    rw [hg] at hedit
    have ha := sound.accounts id g hg
    have hsaves : h.saves id e = e.saves g := by rw [saves, hg]; rfl
    rcases GroupStore.finish_cases hedit with ⟨hno, -, hgroups⟩ |
      ⟨r, hyes, happly, -, rfl, hgroups⟩
    · simp only [hsaves, hno]
      exact sound.keep hgroups rfl fun hd => ⟨hd, fun r hr => hrules ▸ hr⟩
    · obtain ⟨o, ho, hcreated, hversion⟩ := ha.origin
      obtain ⟨hrid, hrcreated⟩ := GroupEdit.apply_keeps happly
      have hvalid := GroupEdit.apply_valid ha.valid happly
      have hresolves : h.ruleDeleted = false → r.Resolves h.service.rules.contains := fun hd =>
        GroupEdit.apply_resolves (show g.Resolves h.service.groupRules.known from ha.resolves hd)
          happly
      have hcounted : h.counted id = h.origins.put id { o with saves := o.saves + 1 } := by
        rw [counted, ho]
      simp only [hsaves, hyes, hcounted, if_true]
      rw [ha.sameId] at hgroups
      refine sound.put (fun hid => ?_) hgroups (fun id' hne => Keyed.get?_put_of_ne _ _ hne) hrules
        rfl
        { valid := ⟨hvalid.name, hvalid.mode, hvalid.members⟩
          sameId := hrid.trans ha.sameId
          origin := ⟨{ o with saves := o.saves + 1 }, Keyed.get?_put_self _ _ _,
            hrcreated.trans hcreated, ?_⟩
          resolves := fun hd => ?_ }
      · exact absurd (hg.symm.trans (sound.unused id hid)) (by simp)
      · simp only [hversion]
        push_cast
        omega
      · rw [hrules]
        exact hresolves hd

theorem step_delete_sound (sound : h.Sound future) : (h.step (.delete id)).Sound future := by
  rw [step]
  rcases h.service.deleteGroup_cases id with ⟨f, hc⟩ | ⟨s', hc, hrules, hgroups⟩ <;> rw [hc]
  · exact sound
  refine ⟨fun id' g hg => ?_, fun id' hid' => ?_⟩
  · obtain ⟨hne, hg⟩ := Keyed.get?_erase_eq_some_iff.1 (hgroups ▸ hg)
    exact (sound.accounts id' g hg).mono (Keyed.get?_erase_of_ne _ hne) fun hd =>
      ⟨hd, fun r hr => hrules ▸ hr⟩
  · rw [hgroups]
    by_cases heq : id' = id
    · rw [heq, Keyed.get?_erase_self]
    · rw [Keyed.get?_erase_of_ne _ heq]
      exact sound.unused id' hid'

theorem step_sound {call : GroupCall} (sound : h.Sound (call.newIds ++ future))
    (fresh : (call.newIds ++ future).Nodup) : (h.step call).Sound future := by
  cases call with
  | create id draft => exact step_create_sound sound (List.nodup_cons.1 fresh).1
  | edit id e => exact step_edit_sound sound
  | delete id => exact step_delete_sound sound
  | saveRule r =>
    refine sound.keep rfl rfl fun hd => ⟨hd, fun id hid => ?_⟩
    by_cases heq : id = r.id
    · simp [step, Service.saveRule, heq, Keyed.contains, Keyed.get?_put_self]
    · simpa [step, Service.saveRule, Keyed.contains, Keyed.get?_put_of_ne _ _ heq] using hid
  | deleteRule id =>
    refine sound.keep rfl rfl fun hd => ?_
    obtain ⟨hd, hfound⟩ := Bool.or_eq_false_iff.1 hd
    refine ⟨hd, fun id' hid' => ?_⟩
    have heq : id' ≠ id := fun heq => absurd (hfound.symm.trans (heq ▸ hid')) (by simp)
    simpa [step, Service.deleteRule, Keyed.contains, Keyed.get?_erase_of_ne _ heq] using hid'
  | other engine state => exact sound.keep rfl rfl fun hd => ⟨hd, fun r hr => hr⟩

/-! ## All calls -/

theorem run_sound {calls : List GroupCall} (sound : h.Sound (calls.flatMap GroupCall.newIds))
    (fresh : (calls.flatMap GroupCall.newIds).Nodup) : (h.run calls).Sound [] := by
  induction calls generalizing h with
  | nil => exact sound
  | cons call calls ih =>
    rw [List.flatMap_cons] at sound fresh
    exact ih (step_sound sound fresh) (List.nodup_append.1 fresh).2.1

/-- **Groups are always accounted for.** Whatever calls are made of a service that has no groups,
    if new groups get new ids, then every group that is kept is valid, has the id and the time that
    it was made with and a version of one more than the saves since, and its members are rules
    unless some rule was deleted. -/
theorem run_accounts {s : Service} (empty : s.groups = {}) {calls : List GroupCall}
    (fresh : (calls.flatMap GroupCall.newIds).Nodup) {id : String} {g : Group}
    (stored : (run { service := s } calls).service.groups.get? id = some g) :
    (run { service := s } calls).Accounts id g := by
  have hnone : ∀ id, s.groups.get? id = none := fun id => by
    rw [empty]
    rfl
  refine (run_sound ⟨fun id g hg => ?_, fun id _ => hnone id⟩ fresh).accounts id g stored
  exact absurd (hg.symm.trans (hnone id)) (by simp)

theorem run_accounts_removed :
    let s : Service :=
      { engine := { executor := { config := {}, handlers := {} }, tests := {} }
        state :=
          { surroundings :=
              { breakers := { settings := { recovery := 30.0 } }, clock := fun _ => 0.0, replies := [] }
            statistics := { errorLimit := 5, total := Record.fresh }
            metrics := none, clock := ⟨0, 0⟩ } }
    let draft : GroupDraft := { name := some "Group", mode := .text " any ", members := ["a"] }
    let calls : List GroupCall :=
      [.saveRule { id := "a", name := "Rule" }, .create "g" (.form draft),
        .edit "g" (.addRule "b"), .edit "g" (.removeRule "a")]
    s.groups = {} ∧ (calls.flatMap GroupCall.newIds).Nodup ∧
      ∃ g, (run { service := s } calls).service.groups.get? "g" = some g ∧ g.version = 2 ∧
        (run { service := s } calls).Accounts "g" g := by
  intro s draft calls
  have fresh : (calls.flatMap GroupCall.newIds).Nodup := by decide
  have hversion :
      ((run { service := s } calls).service.groups.get? "g").map (·.version) = some 2 := by
    decide +kernel
  obtain ⟨g, hg, hv⟩ := Option.map_eq_some_iff.1 hversion
  exact ⟨rfl, fresh, g, hg, hv, run_accounts rfl fresh hg⟩

end GroupHistory

end Rulebook
