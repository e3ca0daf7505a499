/-
  What the check of a group asks for, and what edits make of a group.

  A group is accepted if it has a name and a mode and names rules that there are, each once.  Edits
  make accepted groups of accepted ones, though two of the three make no check of the whole group,
  and what they save has the id and the time of what they read.

  * `Group.checked_eq_ok_iff`: which groups the check accepts;
  * `GroupEdit.apply_cases`: what an edit can make of a group, and `apply_valid`, `apply_resolves`;
  * `GroupStore.Whole`: an operation that changes nothing if it fails, as each of them is;
  * `GroupStore.finish_cases`, `edit_eq`, `create_cases`, `delete_eq`: what is saved.
-/
import Mathlib.Data.List.Nodup
import Rulebook.Group.Edit
import Rulebook.Proofs.Preservation

namespace Rulebook

namespace Group

/-- A group has a name and a mode in its usual spelling, and names no rule twice. -/
structure Valid (g : Group) : Prop where
  name : isName g.name = true
  mode : ∃ m : Mode, g.mode = .text m.name
  members : ∃ ids, g.members = some ids ∧ ids.Nodup

/-- The members of a group are rules that there are. -/
def Resolves (known : String → Bool) (g : Group) : Prop :=
  ∀ ids, g.members = some ids → ∀ id ∈ ids, known id = true

/-! ## The check -/

theorem nameErrors_eq_nil_iff {name : Data} : nameErrors name = [] ↔ isName name = true := by
  unfold nameErrors
  split <;> simp_all

theorem modeErrors_eq_nil_iff {mode : Data} :
    modeErrors mode = .ok [] ↔ ∃ m, Mode.ofData? mode = some m := by
  unfold modeErrors
  split
  · simp [Mode.ofData?]
  · simp [Mode.ofData?, Mode.ofName?_empty]
  · cases Mode.ofData? mode with
    | some m => simp
    | none => cases mode.asText <;> simp [Except.bind, bind, pure, Except.pure]

theorem missingErrors_eq_nil_iff {known : String → Bool} {ids : List String} :
    missingErrors known ids = [] ↔ ∀ id ∈ ids, known id = true := by
  simp [missingErrors, List.filter_eq_nil_iff]

theorem repeatedFrom_eq_nil_iff {seen again ids : List String} :
    repeatedFrom seen again ids = [] ↔ again = [] ∧ ids.Nodup ∧ ∀ id ∈ ids, id ∉ seen := by
  induction ids generalizing seen again with
  | nil => simp [repeatedFrom]
  | cons id ids ih =>
    rw [repeatedFrom, ih, List.nodup_cons]
    by_cases hseen : id ∈ seen
    · refine iff_of_false (fun h => ?_) fun h => h.2.2 id List.mem_cons_self hseen
      by_cases hid : id ∈ again
      · exact List.ne_nil_of_mem hid (by simpa [hseen, hid] using h.1)
      · exact absurd h.1 (by simp [hseen, hid])
    · simp only [List.contains_eq_mem, hseen, decide_false, Bool.false_and, Bool.false_eq_true,
        if_false, List.mem_cons, not_or, forall_eq_or_imp, not_false_eq_true, true_and]
      constructor
      · rintro ⟨hagain, hnodup, hnew⟩
        exact ⟨hagain, ⟨fun hid => (hnew id hid).1 rfl, hnodup⟩, fun a ha => (hnew a ha).2⟩
      · rintro ⟨hagain, ⟨hid, hnodup⟩, hnew⟩
        exact ⟨hagain, hnodup, fun a ha => ⟨fun heq => hid (heq ▸ ha), hnew a ha⟩⟩

theorem repeatedErrors_eq_nil_iff {ids : List String} : repeatedErrors ids = [] ↔ ids.Nodup := by
  have hrepeated : repeated ids = [] ↔ ids.Nodup := by simp [repeated, repeatedFrom_eq_nil_iff]
  rw [← hrepeated, repeatedErrors]
  split <;> simp_all

theorem check_eq {config : Config} {known : String → Bool} {g : Group} :
    g.check config known = (modeErrors g.mode).map fun es =>
      { errors := nameErrors g.name ++ es ++ missingErrors known (g.members.getD []) ++
          repeatedErrors (g.members.getD [])
        warnings := nameWarnings config g.name ++ memberWarnings config (g.members.getD []) } := by
  unfold check
  cases modeErrors g.mode <;> rfl

/-- Which groups the check accepts, and what it makes of them. -/
theorem checked_eq_ok_iff {config : Config} {known : String → Bool} {g g' : Group} :
    g.checked config known = .ok g' ↔
      isName g.name = true ∧
        (∃ m, Mode.ofData? g.mode = some m ∧ g' = { g with mode := .text m.name }) ∧
        (g.members.getD []).Nodup ∧ ∀ id ∈ g.members.getD [], known id = true := by
  rw [← nameErrors_eq_nil_iff, ← missingErrors_eq_nil_iff, ← repeatedErrors_eq_nil_iff, checked,
    check_eq]
  by_cases hmode : ∃ m, Mode.ofData? g.mode = some m
  · obtain ⟨m, hm⟩ := hmode
    rw [modeErrors_eq_nil_iff.2 ⟨m, hm⟩]
    simp only [Except.map, Findings.isValid, List.isEmpty_iff, List.append_eq_nil_iff, and_true]
    split
    · next hvalid => simp [hvalid, hm, eq_comm]
    · next hvalid => exact iff_of_false nofun fun h => hvalid ⟨⟨h.1, h.2.2.2⟩, h.2.2.1⟩
  · refine iff_of_false (fun h => ?_) fun h => hmode (h.2.1.imp fun _ => And.left)
    cases he : modeErrors g.mode with
    | error f => rw [he] at h; cases h
    | ok es =>
      have hes : es ≠ [] := fun hnil => hmode (modeErrors_eq_nil_iff.1 (hnil ▸ he))
      simp [he, Except.map, Findings.isValid, hes] at h

theorem Valid.of_checked {config : Config} {known : String → Bool} {g g' : Group}
    {ids : List String} (hids : g.members = some ids) (h : g.checked config known = .ok g') :
    g'.Valid ∧ g'.Resolves known ∧ g'.id = g.id ∧ g'.created = g.created := by
  obtain ⟨hname, ⟨m, -, rfl⟩, hnodup, hknown⟩ := checked_eq_ok_iff.1 h
  rw [hids] at hnodup hknown
  refine ⟨⟨hname, ⟨m, rfl⟩, ids, hids, hnodup⟩, fun ids' hids' => ?_, rfl, rfl⟩
  obtain rfl : ids = ids' := Option.some.inj (hids.symm.trans hids')
  exact hknown

theorem merge_eq_ok {g merged : Group} {c : GroupChanges} (h : g.merge c = .ok merged) :
    merged.id = g.id ∧ merged.created = g.created ∧ ∃ ids, merged.members = some ids := by
  unfold merge at h
  split at h
  · cases h
  · next ids _ =>
    cases h
    exact ⟨rfl, rfl, ids, rfl⟩

end Group

/-! ## Edits -/

namespace GroupEdit

/-- Whether an edit of a group has something to save. -/
def saves (g : Group) : GroupEdit → Bool
  | .update _ => true
  | .addRule id => !(g.members.getD []).contains id
  | .removeRule id => (g.members.getD []).contains id

variable {rules : GroupRules} {g r : Group} {e : GroupEdit}

/-- What comes of an edit that does not fail. -/
theorem apply_cases {o : Option Group} (h : e.apply rules g = .ok o) :
    (∃ changes c merged r, e = .update changes ∧ g.merge c = .ok merged ∧
        merged.checked rules.config rules.known = .ok r ∧ o = some r) ∨
      (∃ id ids, e = .addRule id ∧ rules.known id = true ∧ g.members = some ids ∧
        o = if id ∈ ids then none else some { g with members := some (ids ++ [id]) }) ∨
      ∃ id ids, e = .removeRule id ∧ g.members = some ids ∧
        o = if id ∈ ids then some { g with members := some (ids.filter (· != id)) } else none := by
  cases e with
  | update changes =>
    simp only [apply] at h
    split at h
    · cases h
    · next c _ =>
      split at h
      · cases h
      · next merged hmerge =>
        cases hc : merged.checked rules.config rules.known with
        | error f => rw [hc] at h; cases h
        | ok r =>
          rw [hc] at h
          exact .inl ⟨changes, c, merged, r, rfl, hmerge, hc, (Except.ok.inj h).symm⟩
  | addRule id =>
    simp only [apply] at h
    split at h
    · cases h
    · next hknown =>
      split at h
      · cases h
      · next ids hids =>
        exact .inr (.inl ⟨id, ids, rfl, by simpa using hknown, hids, by simpa using h.symm⟩)
  | removeRule id =>
    simp only [apply] at h
    split at h
    · cases h
    · next ids hids => exact .inr (.inr ⟨id, ids, rfl, hids, by simpa using h.symm⟩)

theorem saves_of_apply {o : Option Group} (h : e.apply rules g = .ok o) :
    e.saves g = o.isSome := by
  rcases apply_cases h with ⟨changes, c, merged, r, rfl, -, -, rfl⟩ | ⟨id, ids, rfl, -, hids, rfl⟩ |
    ⟨id, ids, rfl, hids, rfl⟩
  · rfl
  · by_cases hid : id ∈ ids <;> simp [saves, hids, hid]
  · by_cases hid : id ∈ ids <;> simp [saves, hids, hid]

theorem apply_keeps (h : e.apply rules g = .ok (some r)) : r.id = g.id ∧ r.created = g.created := by
  rcases apply_cases h with ⟨changes, c, merged, r, rfl, hm, hc, ⟨⟩⟩ | ⟨id, ids, rfl, -, -, ho⟩ |
    ⟨id, ids, rfl, -, ho⟩
  · obtain ⟨hid, hcreated, ids, hids⟩ := Group.merge_eq_ok hm
    obtain ⟨-, -, hid', hcreated'⟩ := Group.Valid.of_checked hids hc
    exact ⟨hid'.trans hid, hcreated'.trans hcreated⟩
  · split at ho <;> cases ho
    exact ⟨rfl, rfl⟩
  · split at ho <;> cases ho
    exact ⟨rfl, rfl⟩

/-- Edits make valid groups of valid ones. -/
theorem apply_valid (hg : g.Valid) (h : e.apply rules g = .ok (some r)) : r.Valid := by
  obtain ⟨ids₀, hids₀, hnodup⟩ := hg.members
  rcases apply_cases h with ⟨changes, c, merged, r, rfl, hm, hc, ⟨⟩⟩ | ⟨id, ids, rfl, -, hids, ho⟩ |
    ⟨id, ids, rfl, hids, ho⟩
  · obtain ⟨-, -, ids, hids⟩ := Group.merge_eq_ok hm
    exact (Group.Valid.of_checked hids hc).1
  · obtain rfl : ids₀ = ids := Option.some.inj (hids₀.symm.trans hids)
    split at ho <;> cases ho
    next hid => exact ⟨hg.name, hg.mode, _, rfl, List.nodup_append.2 ⟨hnodup, by simp, by grind⟩⟩
  · obtain rfl : ids₀ = ids := Option.some.inj (hids₀.symm.trans hids)
    split at ho <;> cases ho
    exact ⟨hg.name, hg.mode, _, rfl, hnodup.filter _⟩

/-- Edits of groups whose members are rules keep to rules. -/
theorem apply_resolves (hg : g.Resolves rules.known) (h : e.apply rules g = .ok (some r)) :
    r.Resolves rules.known := by
  rcases apply_cases h with ⟨changes, c, merged, r, rfl, hm, hc, ⟨⟩⟩ |
    ⟨id, ids, rfl, hknown, hids, ho⟩ | ⟨id, ids, rfl, hids, ho⟩
  · obtain ⟨-, -, ids, hids⟩ := Group.merge_eq_ok hm
    exact (Group.Valid.of_checked hids hc).2.1
  · split at ho <;> cases ho
    rintro _ ⟨⟩ id' hid'
    rcases List.mem_append.1 hid' with hold | hnew
    · exact hg ids hids id' hold
    · rw [List.mem_singleton.1 hnew]
      exact hknown
  · split at ho <;> cases ho
    rintro _ ⟨⟩ id' hid'
    exact hg ids hids id' (List.mem_filter.1 hid').1

end GroupEdit

/-! ## Saves -/

namespace GroupStore

variable {rules : GroupRules} {store after : GroupStore} {g g' : Group} {e : GroupEdit}

/-- An operation that fails leaves the groups as they were. -/
def Whole {α : Type} (operation : Operation α) : Prop :=
  ∀ store f after, operation store = .error f after → after = store

theorem save_whole (g : Group) (expected : Option Int) : Whole (save g expected) := by
  intro store f after h
  rcases save_cases store g expected with ⟨-, hs⟩ | ⟨n, -, -, hs⟩ <;> cases hs.symm.trans h
  rfl

theorem finish_whole (rules : GroupRules) (read : Group) (e : GroupEdit) :
    Whole (finish rules read e) := by
  intro store f after h
  rw [finish] at h
  cases he : e.apply rules read with
  | error f' => rw [he] at h; cases h; rfl
  | ok o =>
    rw [he] at h
    cases o with
    | none => cases h
    | some g => exact save_whole _ _ store f after h

theorem edit_eq (rules : GroupRules) (store : GroupStore) (id : String) (e : GroupEdit) :
    edit rules id e store =
      match store.get? id with
      | none => .error (.engine (Group.notFound id)) store
      | some g => finish rules g e store := by
  rw [edit, bind_of_ok (rfl : (get : Operation GroupStore) store = .ok store store)]
  cases hg : store.get? id with
  | none =>
    rw [show store.require id = .error (Group.notFound id) by rw [require, hg]]
    rfl
  | some g => rw [show store.require id = .ok g by rw [require, hg]]

theorem edit_whole (rules : GroupRules) (id : String) (e : GroupEdit) :
    Whole (edit rules id e) := by
  intro store f after h
  rw [edit_eq] at h
  split at h
  · cases h; rfl
  · exact finish_whole rules _ e store f after h

theorem create_whole (rules : GroupRules) (id : String) (now : Instant)
    (draft : Submission GroupDraft) : Whole (create rules id now draft) := by
  intro store f after h
  rw [create] at h
  cases hd : draft.read GroupDraft.read with
  | error e => rw [hd] at h; cases h; rfl
  | ok d =>
    rw [hd] at h
    dsimp only at h
    cases hc : (Group.ofDraft id now d).checked rules.config rules.known with
    | error f' => rw [hc] at h; cases h; rfl
    | ok g =>
      rw [hc] at h
      exact save_whole _ _ store f after h

/-- A group is removed, or there is none and nothing changes. -/
theorem delete_eq (store : GroupStore) (id : String) :
    delete id store = if store.contains id then .ok () (store.erase id)
      else .error (.engine (Group.notFound id)) store := by
  change (if store.contains id then pure () else throw _ : Operation Unit) (store.erase id) = _
  split
  · rfl
  · next hthere =>
    rw [Keyed.erase_of_not_mem store fun h => hthere ((Keyed.contains_iff store id).2 h)]
    rfl

theorem delete_whole (id : String) : Whole (delete id) := by
  intro store f after h
  rw [delete_eq] at h
  split at h <;> cases h
  rfl

theorem delete_eq_ok_iff {id : String} :
    delete id store = .ok () after ↔ store.contains id = true ∧ after = store.erase id := by
  rw [delete_eq]
  split <;> simp [*, eq_comm]

/-- What comes of the second step of an edit that does not fail. -/
theorem finish_cases (h : finish rules g e store = .ok g' after) :
    (e.saves g = false ∧ g' = g ∧ after = store) ∨
      ∃ r, e.saves g = true ∧ e.apply rules g = .ok (some r) ∧
        store.version? g.id = some g.version ∧ g' = { r with version := g.version + 1 } ∧
        after = store.put g.id g' := by
  rw [finish] at h
  cases he : e.apply rules g with
  | error f => rw [he] at h; cases h
  | ok o =>
    have hsaves := GroupEdit.saves_of_apply he
    rw [he] at h
    cases o with
    | none =>
      cases h
      exact .inl ⟨hsaves, rfl, rfl⟩
    | some r =>
      obtain ⟨hid, -⟩ := GroupEdit.apply_keeps he
      obtain ⟨hversion, rfl, rfl⟩ := save_eq_ok_iff.1 h
      have hv : store.version? g.id = some g.version := hid ▸ hversion _ rfl
      refine .inr ⟨r, hsaves, rfl, hv, ?_, by rw [hid]⟩
      rw [next, hid, hv]
      rfl

/-- What comes of making a group. -/
theorem create_cases {id : String} {now : Instant} {draft : Submission GroupDraft}
    (h : create rules id now draft store = .ok g' after) :
    g'.Valid ∧ g'.Resolves rules.known ∧ g'.id = id ∧ g'.created = now ∧
      g'.version = (store.version? id).getD 0 + 1 ∧ after = store.put id g' := by
  rw [create] at h
  cases hd : draft.read GroupDraft.read with
  | error e => rw [hd] at h; cases h
  | ok d =>
    rw [hd] at h
    dsimp only at h
    cases hc : (Group.ofDraft id now d).checked rules.config rules.known with
    | error f => rw [hc] at h; cases h
    | ok g =>
      obtain ⟨hvalid, hresolves, hid, hcreated⟩ := Group.Valid.of_checked rfl hc
      have hid : g.id = id := hid
      rw [hc] at h
      cases h
      exact ⟨⟨hvalid.name, hvalid.mode, hvalid.members⟩, hresolves, hid, hcreated,
        by rw [next, hid], by rw [hid]⟩

end GroupStore

end Rulebook
