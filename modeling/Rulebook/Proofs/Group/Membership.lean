/-
  The members of a group are a set in order of insertion.

  Rules are put into a stored group and taken out of it, one call after the other.  Its members are
  then those of a set on which the same is done, and its version has gone up by one for each call
  that changed the set; every call answers with the group as it is stored then, or with the error
  about a rule that is not there.

  * `RuleSet`: rules in order of insertion, each once;
  * `Membership`: such a set, and how often it has changed;
  * `memberCall_follows`, `memberCalls_follow`: one call, and all.
-/
import Rulebook.Proofs.Group.Edits

namespace Rulebook

/-- Rules in the order in which they were put in, each once. -/
@[ext]
structure RuleSet where
  ids : List String
  nodup : ids.Nodup
  deriving DecidableEq

namespace RuleSet

/-- The set with a rule, which comes last if it is new. -/
def insert (s : RuleSet) (id : String) : RuleSet :=
  if h : id ∈ s.ids then s
  else ⟨s.ids ++ [id], List.nodup_append.2 ⟨s.nodup, by simp, by grind⟩⟩

/-- The set without a rule. -/
def erase (s : RuleSet) (id : String) : RuleSet :=
  ⟨s.ids.erase id, s.nodup.erase id⟩

variable {s : RuleSet} {id : String}

theorem insert_of_mem (h : id ∈ s.ids) : s.insert id = s :=
  dif_pos h

theorem ids_insert (h : id ∉ s.ids) : (s.insert id).ids = s.ids ++ [id] := by
  rw [insert, dif_neg h]

theorem erase_of_not_mem (h : id ∉ s.ids) : s.erase id = s :=
  RuleSet.ext (List.erase_of_not_mem h)

theorem ids_erase (s : RuleSet) (id : String) : (s.erase id).ids = s.ids.filter (· != id) :=
  s.nodup.erase_eq_filter id

theorem erase_ne (h : id ∈ s.ids) : s.erase id ≠ s := fun heq =>
  s.nodup.not_mem_erase (congrArg RuleSet.ids heq ▸ h)

theorem insert_ne (h : id ∉ s.ids) : s.insert id ≠ s := fun heq =>
  h (heq ▸ ids_insert h ▸ List.mem_append_right s.ids (List.mem_singleton_self id))

end RuleSet

/-! ## Calls -/

/-- A call that puts a rule into a group or takes one out; the rules there are may be others at each
    call. -/
inductive MemberCall where
  | add (rules : GroupRules) (id : String)
  | remove (rules : GroupRules) (id : String)

namespace MemberCall

/-- What groups are checked against at a call. -/
def rules : MemberCall → GroupRules
  | add rules _ | remove rules _ => rules

/-- The edit that a call makes. -/
def edit : MemberCall → GroupEdit
  | add _ id => .addRule id
  | remove _ id => .removeRule id

/-- The error of a call: only a rule that there is can be put in. -/
def error? : MemberCall → Option Failure
  | add rules id => if rules.known id then none else some (.engine (ruleNotFound id))
  | remove _ _ => none

/-- What a call makes of a set. -/
def alter (s : RuleSet) : MemberCall → RuleSet
  | add rules id => if rules.known id then s.insert id else s
  | remove _ id => s.erase id

end MemberCall

/-- Makes a call: its answer, and the groups after it. -/
def GroupStore.memberCall (store : GroupStore) (id : String) (c : MemberCall) :
    Except Failure Group × GroupStore :=
  match GroupStore.edit c.rules id c.edit store with
  | .ok g after => (.ok g, after)
  | .error f after => (.error f, after)

/-- Makes calls one after the other. -/
def GroupStore.memberCalls (store : GroupStore) (id : String) :
    List MemberCall → List (Except Failure Group) × GroupStore
  | [] => ([], store)
  | c :: cs =>
    let (answer, after) := store.memberCall id c
    let (answers, last) := after.memberCalls id cs
    (answer :: answers, last)

/-! ## What is to become of the members -/

/-- The members of a group, and how often they have changed. -/
structure Membership where
  members : RuleSet
  changes : Nat := 0

namespace Membership

/-- The members after a call, with one more change if the call made one. -/
def step (m : Membership) (c : MemberCall) : Membership where
  members := c.alter m.members
  changes := if c.alter m.members = m.members then m.changes else m.changes + 1

/-- The group that has such members and so many more saves. -/
def on (m : Membership) (g : Group) : Group :=
  { g with members := some m.members.ids, version := g.version + m.changes }

/-- What a call answers. -/
def answer (g : Group) (m : Membership) (c : MemberCall) : Except Failure Group :=
  match c.error? with
  | some f => .error f
  | none => .ok ((m.step c).on g)

/-- What calls answer. -/
def answers (g : Group) : Membership → List MemberCall → List (Except Failure Group)
  | _, [] => []
  | m, c :: cs => m.answer g c :: (m.step c).answers g cs

end Membership

/-! ## Calls do that -/

section

variable {store : GroupStore} {g : Group} {s : RuleSet} {m : Membership}

/-- What a call makes of a group with a set of members. -/
theorem MemberCall.apply_edit (hg : g.members = some s.ids) (c : MemberCall) :
    c.edit.apply c.rules g =
      match c.error? with
      | some f => .error f
      | none => .ok (if c.alter s = s then none
          else some { g with members := some (c.alter s).ids }) := by
  cases c with
  | add rules id =>
    simp only [edit, MemberCall.rules, GroupEdit.apply, error?, alter, hg]
    by_cases hknown : rules.known id = true
    · by_cases hid : id ∈ s.ids
      · simp [hknown, hid, RuleSet.insert_of_mem]
      · simp [hknown, hid, RuleSet.insert_ne, RuleSet.ids_insert]
    · simp [hknown]
  | remove rules id =>
    simp only [edit, GroupEdit.apply, error?, alter, hg, RuleSet.ids_erase]
    by_cases hid : id ∈ s.ids
    · simp [hid, RuleSet.erase_ne]
    · simp [hid, RuleSet.erase_of_not_mem]

theorem MemberCall.alter_of_error {c : MemberCall} {f : Failure} (h : c.error? = some f) :
    c.alter s = s := by
  cases c with
  | add rules id =>
    simp only [error?] at h
    split at h
    · cases h
    · next hknown => exact if_neg hknown
  | remove => cases h

/-- A call that changes nothing leaves the members as they are, and the number of changes. -/
theorem Membership.step_of_alter {c : MemberCall} (h : c.alter m.members = m.members) :
    m.step c = m := by
  rw [step, if_pos h, h]

/-- What becomes of the group that was read is stored with the next version. -/
theorem GroupStore.save_read {r : Group} (hv : store.version? g.id = some g.version)
    (hid : r.id = g.id) :
    GroupStore.save r (some g.version) store = .ok { r with version := g.version + 1 }
      (store.put g.id { r with version := g.version + 1 }) := by
  refine save_eq_ok_iff.2 ⟨fun n hn => Option.some.inj hn ▸ hid ▸ hv, ?_, by rw [hid]⟩
  rw [next, hid, hv]
  rfl

/-- A call that changes nothing stores nothing. -/
theorem memberCall_of_same {c : MemberCall} (hg : store.get? g.id = some (m.on g))
    (h : c.alter m.members = m.members) :
    store.memberCall g.id c = (m.answer g c, store) := by
  rw [GroupStore.memberCall, GroupStore.edit_eq, hg]
  dsimp only
  rw [GroupStore.finish, MemberCall.apply_edit (g := m.on g) (s := m.members) rfl, if_pos h,
    Membership.answer, Membership.step_of_alter h]
  cases c.error? <;> rfl

/-- A call that changes the members stores the group with the next version. -/
theorem memberCall_of_changed {c : MemberCall} (hg : store.get? g.id = some (m.on g))
    (h : c.alter m.members ≠ m.members) :
    store.memberCall g.id c = (m.answer g c, store.put g.id ((m.step c).on g)) := by
  have he : c.error? = none := by
    rw [Option.eq_none_iff_forall_ne_some]
    exact fun f hf => h (MemberCall.alter_of_error hf)
  have hv : store.version? (m.on g).id = some (m.on g).version := congrArg _ hg
  have hstep : (m.step c).on g = { m.on g with
      members := some (c.alter m.members).ids, version := (m.on g).version + 1 } := by
    simp only [Membership.on, Membership.step, if_neg h, Int.natCast_add, Int.add_assoc]
    rfl
  have hid : ({ m.on g with members := some (c.alter m.members).ids } : Group).id =
      (m.on g).id := rfl
  rw [GroupStore.memberCall, GroupStore.edit_eq, hg]
  dsimp only
  rw [GroupStore.finish, MemberCall.apply_edit (g := m.on g) (s := m.members) rfl, if_neg h,
    Membership.answer, he, hstep]
  dsimp only
  rw [GroupStore.save_read hv hid]
  rfl

/-- **One call does to a stored group what it does to its members as a set.** -/
theorem memberCall_follows (hg : store.get? g.id = some (m.on g)) (c : MemberCall) :
    (store.memberCall g.id c).1 = m.answer g c ∧
      (store.memberCall g.id c).2.get? g.id = some ((m.step c).on g) ∧
      ∀ id, id ≠ g.id → (store.memberCall g.id c).2.get? id = store.get? id := by
  by_cases h : c.alter m.members = m.members
  · rw [memberCall_of_same hg h, Membership.step_of_alter h]
    exact ⟨rfl, hg, fun _ _ => rfl⟩
  · rw [memberCall_of_changed hg h]
    exact ⟨rfl, store.get?_put_self _ _, fun _ hid => store.get?_put_of_ne _ hid⟩

/-- Calls one after the other do to a stored group what they do to its members as a set. -/
theorem memberCalls_follow (hg : store.get? g.id = some (m.on g)) (calls : List MemberCall) :
    (store.memberCalls g.id calls).1 = m.answers g calls ∧
      (store.memberCalls g.id calls).2.get? g.id = some ((calls.foldl Membership.step m).on g) ∧
      ∀ id, id ≠ g.id → (store.memberCalls g.id calls).2.get? id = store.get? id := by
  induction calls generalizing store m with
  | nil => exact ⟨rfl, hg, fun _ _ => rfl⟩
  | cons c cs ih =>
    obtain ⟨hanswer, hstored, hothers⟩ := memberCall_follows hg c
    obtain ⟨hanswers, hlast, hothers'⟩ := ih hstored
    refine ⟨?_, hlast, fun id hid => (hothers' id hid).trans (hothers id hid)⟩
    exact congrArg₂ List.cons hanswer hanswers

/-- **A stored group is a set of rules in order of insertion.** After calls that put rules into a
    group and take rules out, its members are those of a set on which the same is done, its version
    has gone up by one for each change of that set, and nothing else of it has changed; the answers
    are what the set says. -/
theorem memberCalls_agree {store : GroupStore} {g : Group} {ids : List String}
    (hg : store.get? g.id = some g) (hids : g.members = some ids) (distinct : ids.Nodup)
    (calls : List MemberCall) :
    let first : Membership := { members := ⟨ids, distinct⟩ }
    let last := calls.foldl Membership.step first
    (store.memberCalls g.id calls).1 = first.answers g calls ∧
      (store.memberCalls g.id calls).2.get? g.id =
        some { g with members := some last.members.ids, version := g.version + last.changes } ∧
      ∀ id, id ≠ g.id → (store.memberCalls g.id calls).2.get? id = store.get? id := by
  intro first last
  have hfirst : g = first.on g := by
    obtain ⟨_, _, _, _, _, _, version, _⟩ := g
    obtain rfl := hids
    exact congrArg (Group.mk _ _ _ _ _ _ · _) (Int.add_zero version).symm
  exact memberCalls_follow (hg.trans (congrArg some hfirst)) calls

theorem memberCalls_agree_five :
    let rules : GroupRules := { config := {}, known := fun id => id != "x" }
    let g : Group := { id := "g", members := some ["a", "b"], version := 1, created := ⟨0, 0⟩ }
    let store : GroupStore := ({} : GroupStore).put "g" g
    let calls : List MemberCall :=
      [.add rules "a", .add rules "c", .add rules "x", .remove rules "b", .remove rules "x"]
    store.get? g.id = some g ∧ ["a", "b"].Nodup ∧
      (store.memberCalls g.id calls).2.get? g.id =
        some { g with members := some ["a", "c"], version := 3 } ∧
      (store.memberCalls g.id calls).1[2]? = some (.error (.engine (ruleNotFound "x"))) := by
  intro rules g store calls
  have hg : store.get? g.id = some g := rfl
  have distinct : ["a", "b"].Nodup := by decide
  obtain ⟨hanswers, hstored, -⟩ := memberCalls_agree hg rfl distinct calls
  have hlast : calls.foldl Membership.step { members := ⟨["a", "b"], distinct⟩ } =
      ⟨⟨["a", "c"], by decide⟩, 2⟩ := rfl
  rw [hanswers, hstored, hlast]
  exact ⟨hg, distinct, rfl, rfl⟩

end

end Rulebook
