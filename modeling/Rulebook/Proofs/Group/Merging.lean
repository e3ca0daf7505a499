/-
  What an update makes of a group.

  The data of an update may give a field, give nothing instead of it, or not give it.  A field that
  is given replaces what the group has; nothing instead of a description clears it, nothing instead
  of members or metadata leaves them; and what is not given stays.  The mode is saved under its
  usual name, whether it is given or not, so that the only thing that an update may change without
  being told is the spelling of a mode that was stored without a check.

  * `GroupChanges.Readable`, `read_iff`: the data that can be read, and as which changes;
  * `Group.Takes`, `merge_iff`: a group with changes over it;
  * `edit_update_iff`: when an update succeeds, and with what;
  * `update_merges`: all of it, for every group that any steps have stored.
-/
import Rulebook.Proofs.Forms
import Rulebook.Proofs.Group.Edits
import Rulebook.Proofs.Group.Versions

namespace Rulebook

open Schema

/-! ## What data gives for a field -/

/-- What data gives for a field, and what is read of it, by what values it may be written as. -/
inductive Supplies {α : Type} (Writes : Data → α → Prop) :
    Option Data → Option (Option α) → Prop
  | absent : Supplies Writes none none
  | null : Supplies Writes (some .null) (some none)
  | value {d : Data} {a : α} : Writes d a → Supplies Writes (some d) (some (some a))

/-- A field that need not be given and may be null is read as its check reads it. -/
theorem Supplies.read_iff {α : Type} {Writes : Data → α → Prop} {check : Check α}
    (htelling : Telling check) {place : List String}
    (hcheck : ∀ d a, check place d = .ok a ↔ Writes d a) (hnull : ∀ a, ¬Writes .null a)
    {o : Option Data} {x : Option (Option α)} :
    (field place o (given (optional check)) none).read = .ok x ↔ Supplies Writes o x := by
  have heq (place : List String) (d : Data) :
      given (optional check) place d = (optional check place d).map some := rfl
  have hgiven : Telling (given (optional check)) := fun place d h => by
    rw [heq] at h
    cases hd : optional check place d with
    | ok a => rw [hd] at h; cases h
    | error issues =>
      rw [hd] at h
      cases h
      exact htelling.optional place d hd
  have hoptional (d : Data) (r : Option α) : optional check place d = .ok r ↔
      (d = .null ∧ r = none) ∨ ∃ a, check place d = .ok a ∧ r = some a :=
    optional_iff fun a ha => hnull a ((hcheck .null a).1 ha)
  rw [Form.read_field_iff hgiven]
  constructor
  · intro h
    cases o with
    | none => exact h ▸ .absent
    | some d =>
      change given (optional check) place d = .ok x at h
      rw [heq] at h
      cases hd : optional check place d with
      | error issues => rw [hd] at h; cases h
      | ok r =>
        rw [hd] at h
        cases h
        obtain ⟨rfl, rfl⟩ | ⟨a, ha, rfl⟩ := (hoptional d r).1 hd
        · exact .null
        · exact .value ((hcheck d a).1 ha)
  · rintro (_ | _ | ha)
    · rfl
    · rfl
    · exact congrArg (Except.map some) ((hoptional _ _).2 (.inr ⟨_, (hcheck _ _).2 ha, rfl⟩))

/-- Something can be read if the field is absent, null or written as a value. -/
theorem Supplies.exists_iff {α : Type} {Writes : Data → α → Prop} {o : Option Data} :
    (∃ x, Supplies Writes o x) ↔ ∀ d, o = some d → d = .null ∨ ∃ a, Writes d a := by
  constructor
  · rintro ⟨x, _ | _ | ha⟩ d hd
    · cases hd
    · exact .inl (Option.some.inj hd).symm
    · exact .inr ⟨_, Option.some.inj hd ▸ ha⟩
  · intro h
    cases o with
    | none => exact ⟨_, .absent⟩
    | some d =>
      obtain rfl | ⟨a, ha⟩ := h d rfl
      · exact ⟨_, .null⟩
      · exact ⟨_, .value ha⟩

/-- A value that is given replaces another one, which stays if none is given. -/
theorem Supplies.replaces_iff {α : Type} {Writes : Data → α → Prop} {o : Option Data}
    {x : Option (Option α)} (h : Supplies Writes o x) (hnull : ∀ a, ¬Writes .null a)
    (hone : ∀ d a b, Writes d a → Writes d b → a = b) (old new : Option α) :
    ((∀ d a, o = some d → Writes d a → new = some a) ∧
        (o = none ∨ o = some .null → new = old)) ↔ new = x.join.or old := by
  cases h with
  | absent => simp
  | null =>
    refine ⟨fun h => h.2 (.inr rfl), fun h => ⟨fun d a hd ha => ?_, fun _ => h⟩⟩
    cases hd
    exact absurd ha (hnull a)
  | @value d a ha =>
    have hd : d ≠ .null := fun hd => hnull a (hd ▸ ha)
    constructor
    · rintro ⟨hgiven, -⟩
      exact hgiven d a rfl ha
    · rintro rfl
      refine ⟨fun e b he hb => ?_, by simp [hd]⟩
      cases he
      exact congrArg some (hone d a b ha hb)

namespace GroupChanges

/-- Data that writes a list of texts. -/
def WritesTexts (d : Data) (ids : List String) : Prop :=
  d = .list (ids.map .text) ∨ d = .tuple (ids.map .text)

theorem WritesTexts.unique {d : Data} {ids ids' : List String} (h : WritesTexts d ids)
    (h' : WritesTexts d ids') : ids = ids' := by
  have hinj : Function.Injective (List.map Data.text) :=
    List.map_injective_iff.2 fun _ _ => Data.text.inj
  rcases h with rfl | rfl
  · exact hinj (Data.list.inj (h'.resolve_right nofun))
  · exact hinj (Data.tuple.inj (h'.resolve_left nofun))

/-- Data that writes entries whose keys are texts. -/
def WritesEntries (d : Data) (fields : Details) : Prop :=
  d = .mapping fields ∧ ∀ e ∈ fields, ∃ k, e.1 = .text k

/-- What an update gives for each field of a group, and the changes that are read of it. -/
structure Reads (es : List (Data × Data)) (c : GroupChanges) : Prop where
  name : Supplies (fun d s => d = .text s) (Data.entry? es "name") c.name
  mode : c.mode = entryOf es "executionMode" "execution_mode"
  members : Supplies WritesTexts (entryOf es "ruleIds" "rule_ids") c.members
  description : Supplies (fun d s => d = .text s) (Data.entry? es "description") c.description
  metadata : Supplies WritesEntries (Data.entry? es "metadata") c.metadata

theorem read_anything_iff {place : List String} {o x : Option Data} :
    (field place o (given anything) none).read = .ok x ↔ x = o := by
  have htelling : Telling (given anything) := fun _ _ h => by cases h
  rw [Form.read_field_iff htelling]
  cases o with
  | none => exact Iff.rfl
  | some d => exact ⟨fun h => (Except.ok.inj h).symm, fun h => by rw [h]; rfl⟩

/-- Data is read as the changes that it gives. -/
theorem read_iff {es : List (Data × Data)} {c : GroupChanges} :
    GroupChanges.read es = .ok c ↔ Reads es c := by
  have hsingle (place : List String) (o : Option Data) (x) :
      (field place o (given (optional (single text))) none).read = .ok x ↔
        Supplies (fun d s => d = .text s) o x :=
    Supplies.read_iff .single (fun _ _ => single_text_iff) nofun
  have hmembers (place : List String) (o : Option Data) (x) :
      (field place o (given (optional texts)) none).read = .ok x ↔ Supplies WritesTexts o x :=
    Supplies.read_iff .texts (fun _ _ => texts_iff) (by simp)
  have hmetadata (place : List String) (o : Option Data) (x) :
      (field place o (given (optional entries)) none).read = .ok x ↔ Supplies WritesEntries o x :=
    Supplies.read_iff .entries (fun _ _ => entries_iff) (by simp)
  have keeps {α : Type} (place o) (check : Check α) (absent : α) {next : α → Form GroupChanges}
      (hnext : ∀ a, (next a).Keeps) : (field place o check absent >>= next).Keeps :=
    (Form.Keeps.field place o check absent).bind hnext
  have hfields : GroupChanges.read es = .ok c ↔
      ∃ name, Supplies (fun d s => d = .text s) (Data.entry? es "name") name ∧
      ∃ mode, mode = entryOf es "executionMode" "execution_mode" ∧
      ∃ members, Supplies WritesTexts (entryOf es "ruleIds" "rule_ids") members ∧
      ∃ description, Supplies (fun d s => d = .text s) (Data.entry? es "description") description ∧
      ∃ metadata, Supplies WritesEntries (Data.entry? es "metadata") metadata ∧
        GroupChanges.mk name mode members description metadata = c := by
    refine (Form.read_bind_iff fun _ => keeps _ _ _ _ fun _ => keeps _ _ _ _ fun _ =>
      keeps _ _ _ _ fun _ => keeps _ _ _ _ fun _ => .pure _).trans ?_
    refine exists_congr fun name => and_congr (hsingle _ _ name) ?_
    refine (Form.read_bind_iff fun _ => keeps _ _ _ _ fun _ => keeps _ _ _ _ fun _ =>
      keeps _ _ _ _ fun _ => .pure _).trans ?_
    refine exists_congr fun mode => and_congr read_anything_iff ?_
    refine (Form.read_bind_iff fun _ => keeps _ _ _ _ fun _ => keeps _ _ _ _ fun _ =>
      .pure _).trans ?_
    refine exists_congr fun members => and_congr (hmembers _ _ members) ?_
    refine (Form.read_bind_iff fun _ => keeps _ _ _ _ fun _ => .pure _).trans ?_
    refine exists_congr fun description => and_congr (hsingle _ _ description) ?_
    refine (Form.read_bind_iff fun _ => .pure _).trans ?_
    exact exists_congr fun metadata => and_congr (hmetadata _ _ metadata) Form.read_pure_iff
  rw [hfields]
  constructor
  · rintro ⟨name, hn, mode, rfl, members, hm, description, hd, metadata, he, rfl⟩
    exact ⟨hn, rfl, hm, hd, he⟩
  · rintro ⟨hn, hmode, hm, hd, he⟩
    exact ⟨_, hn, _, hmode, _, hm, _, hd, _, he, rfl⟩

/-- Data from which changes can be read: its fields are absent, null or of their kinds. -/
structure Readable (es : List (Data × Data)) : Prop where
  name : ∀ d, Data.entry? es "name" = some d → d = .null ∨ ∃ s, d = .text s
  members : ∀ d, entryOf es "ruleIds" "rule_ids" = some d → d = .null ∨ ∃ ids, WritesTexts d ids
  description : ∀ d, Data.entry? es "description" = some d → d = .null ∨ ∃ s, d = .text s
  metadata : ∀ d, Data.entry? es "metadata" = some d → d = .null ∨ ∃ fs, WritesEntries d fs

theorem exists_read_iff {es : List (Data × Data)} :
    (∃ c, GroupChanges.read es = .ok c) ↔ Readable es := by
  simp only [read_iff]
  constructor
  · rintro ⟨c, hc⟩
    exact ⟨Supplies.exists_iff.1 ⟨_, hc.name⟩, Supplies.exists_iff.1 ⟨_, hc.members⟩,
      Supplies.exists_iff.1 ⟨_, hc.description⟩, Supplies.exists_iff.1 ⟨_, hc.metadata⟩⟩
  · intro h
    obtain ⟨name, hname⟩ := Supplies.exists_iff.2 h.name
    obtain ⟨members, hmembers⟩ := Supplies.exists_iff.2 h.members
    obtain ⟨description, hdescription⟩ := Supplies.exists_iff.2 h.description
    obtain ⟨metadata, hmetadata⟩ := Supplies.exists_iff.2 h.metadata
    exact ⟨{ name, mode := _, members, description, metadata },
      hname, rfl, hmembers, hdescription, hmetadata⟩

end GroupChanges

/-! ## Groups with changes over them -/

namespace Group

open GroupChanges

/-- A group takes over from data what the data gives for its fields, and keeps the rest; of its mode
    and its version nothing is said. -/
structure Takes (es : List (Data × Data)) (g r : Group) : Prop where
  id : r.id = g.id
  created : r.created = g.created
  name : r.name = (Data.entry? es "name").getD g.name
  description : r.description = (Data.entry? es "description").getD g.description
  members : ∀ d ids, entryOf es "ruleIds" "rule_ids" = some d → WritesTexts d ids →
    r.members = some ids
  membersKept : entryOf es "ruleIds" "rule_ids" = none ∨
      entryOf es "ruleIds" "rule_ids" = some .null →
    r.members = g.members
  metadata : ∀ d fs, Data.entry? es "metadata" = some d → WritesEntries d fs → r.metadata = fs
  metadataKept : Data.entry? es "metadata" = none ∨ Data.entry? es "metadata" = some .null →
    r.metadata = g.metadata

variable {es : List (Data × Data)} {c : GroupChanges} {g r : Group}

theorem Takes.remade (h : g.Takes es r) (mode : Data) (version : Int) :
    g.Takes es { r with mode, version } :=
  ⟨h.id, h.created, h.name, h.description, h.members, h.membersKept, h.metadata, h.metadataKept⟩

/-- What is read of a text or null stands for it. -/
theorem map_textOrNull_of_gives {o : Option Data} {x : Option (Option String)}
    (h : Supplies (fun d s => d = .text s) o x) : x.map textOrNull = o := by
  cases h with
  | absent => rfl
  | null => rfl
  | value hs => exact congrArg some hs.symm

/-- What a merge makes of each field. -/
theorem merge_eq_ok_iff : g.merge c = .ok r ↔
    r.id = g.id ∧ r.created = g.created ∧ r.version = g.version ∧
      r.name = (c.name.map textOrNull).getD g.name ∧ r.mode = c.mode.getD g.mode ∧
      r.description = (c.description.map textOrNull).getD g.description ∧
      r.metadata = (c.metadata.join).getD g.metadata ∧
      r.members = (c.members.join).or g.members ∧ ∃ ids, r.members = some ids := by
  have hmerge : g.merge c =
      ((c.members.join).or g.members).elim (.error (.notIterable "NoneType")) fun members =>
        .ok { g with
          name := (c.name.map textOrNull).getD g.name
          mode := c.mode.getD g.mode
          members := some members
          description := (c.description.map textOrNull).getD g.description
          metadata := (c.metadata.join).getD g.metadata } := by
    unfold merge
    cases (c.members.join).or g.members <;> cases c.name <;> cases c.description <;> rfl
  rw [hmerge]
  obtain ⟨id, name, mode, members, description, metadata, version, created⟩ := r
  cases (c.members.join).or g.members with
  | none => simp +contextual
  | some ids =>
    simp only [Option.elim_some, Except.ok.injEq, Group.mk.injEq]
    constructor
    · rintro ⟨rfl, rfl, rfl, rfl, rfl, rfl, rfl, rfl⟩
      exact ⟨rfl, rfl, rfl, rfl, rfl, rfl, rfl, rfl, _, rfl⟩
    · rintro ⟨rfl, rfl, rfl, rfl, rfl, rfl, rfl, rfl, -⟩
      exact ⟨rfl, rfl, rfl, rfl, rfl, rfl, rfl, rfl⟩

/-- A merge with changes that are read takes over what is given. -/
theorem merge_iff (hc : Reads es c) : g.merge c = .ok r ↔
    Takes es g r ∧ r.mode = (entryOf es "executionMode" "execution_mode").getD g.mode ∧
      r.version = g.version ∧ ∃ ids, r.members = some ids := by
  have hmembers := hc.members.replaces_iff (by simp [WritesTexts])
    (fun _ _ _ => WritesTexts.unique) g.members r.members
  have hmetadata := hc.metadata.replaces_iff (by simp [WritesEntries])
    (fun _ _ _ h h' => Data.mapping.inj (h.1.symm.trans h'.1)) (some g.metadata) (some r.metadata)
  rw [Option.or_some] at hmetadata
  simp only [Option.some.injEq] at hmetadata
  rw [merge_eq_ok_iff, hc.mode, map_textOrNull_of_gives hc.name,
    map_textOrNull_of_gives hc.description, ← hmembers, ← hmetadata]
  constructor
  · rintro ⟨hid, hcreated, hversion, hname, hmode, hdescription, ⟨hgiven, hkept⟩,
      ⟨hids, hidsKept⟩, hsome⟩
    exact ⟨⟨hid, hcreated, hname, hdescription, hids, hidsKept, hgiven, hkept⟩, hmode, hversion,
      hsome⟩
  · rintro ⟨h, hmode, hversion, hsome⟩
    exact ⟨h.id, h.created, hversion, h.name, hmode, h.description, ⟨h.metadata, h.metadataKept⟩,
      ⟨h.members, h.membersKept⟩, hsome⟩

/-- A group is accepted exactly if the check finds it valid. -/
theorem exists_checked_iff {config : Config} {known : String → Bool} :
    (∃ r, g.checked config known = .ok r) ↔
      ∃ found, g.check config known = .ok found ∧ found.isValid = true := by
  unfold checked
  cases g.check config known with
  | error f => simp
  | ok found => cases hvalid : found.isValid <;> simp [hvalid]

/-- A mode that is written in its usual spelling stays. -/
theorem mode_eq_of_name {mode : Data} {m : Mode} (h : Mode.ofData? mode = some m)
    (hname : ∃ m' : Mode, mode = .text m'.name) : .text m.name = mode := by
  obtain ⟨m', rfl⟩ := hname
  obtain rfl : m' = m := Option.some.inj ((Mode.ofName?_name m').symm.trans h)
  rfl

end Group

/-! ## Updates of stored groups -/

namespace StoreStep

/-- Groups are stored under their own ids. -/
def Named (store : GroupStore) : Prop :=
  ∀ id g, store.get? id = some g → g.id = id

theorem Named.after {store : GroupStore} (h : Named store) (s : StoreStep) :
    Named (s.after store) := by
  intro id g hg
  cases s with
  | get => exact h id g hg
  | list => exact h id g hg
  | save g₀ expected =>
    rw [StoreStep.after] at hg
    rcases store.save_cases g₀ expected with ⟨-, hs⟩ | ⟨n, -, -, hs⟩ <;> rw [hs] at hg
    · obtain ⟨rfl, rfl⟩ | ⟨-, hg⟩ := Keyed.get?_put_eq_some_iff.1 hg
      · rfl
      · exact h id g hg
    · exact h id g hg
  | delete id' => exact h id g (Keyed.get?_erase_eq_some_iff.1 hg).2

theorem Named.run {store : GroupStore} (h : Named store) (steps : List StoreStep) :
    Named (run store steps) := by
  induction steps generalizing store with
  | nil => exact h
  | cons s steps ih => exact ih (h.after s)

end StoreStep

namespace GroupStore

open GroupChanges

variable {rules : GroupRules} {store after : GroupStore} {id : String} {g g' : Group}

/-- An update works out a merged group and has it checked. -/
theorem apply_update_iff {changes : Submission GroupChanges} {o : Option Group} :
    (GroupEdit.update changes).apply rules g = .ok o ↔
      ∃ c merged r, changes.read GroupChanges.read = .ok c ∧ g.merge c = .ok merged ∧
        merged.checked rules.config rules.known = .ok r ∧ o = some r := by
  rw [GroupEdit.apply]
  cases changes.read GroupChanges.read with
  | error e => simp
  | ok c =>
    cases hm : g.merge c with
    | error f => simp [hm]
    | ok merged =>
      cases hc : merged.checked rules.config rules.known <;> simp [hm, hc, Except.map, eq_comm]

/-- An update of a group that is stored under its own id succeeds if its data is read, merged and
    checked, and saves what comes out with the next version. -/
theorem edit_update_iff (named : StoreStep.Named store) {changes : Submission GroupChanges} :
    edit rules id (.update changes) store = .ok g' after ↔
      ∃ g c merged r, store.get? id = some g ∧ changes.read GroupChanges.read = .ok c ∧
        g.merge c = .ok merged ∧ merged.checked rules.config rules.known = .ok r ∧
        g' = { r with version := g.version + 1 } ∧ after = store.put id g' := by
  rw [edit_eq]
  cases hg : store.get? id with
  | none => simp
  | some g =>
    obtain rfl := named id g hg
    constructor
    · intro h
      obtain ⟨hsaves, -⟩ | ⟨r, -, ha, -, rfl, rfl⟩ := finish_cases h
      · cases hsaves
      · obtain ⟨c, merged, r', hc, hm, hr, heq⟩ := apply_update_iff.1 ha
        cases heq
        exact ⟨g, c, merged, r, rfl, hc, hm, hr, rfl, rfl⟩
    · rintro ⟨_, c, merged, r, ⟨⟩, hc, hm, hr, rfl, rfl⟩
      have ha := apply_update_iff.2 ⟨c, merged, r, hc, hm, hr, rfl⟩
      have hid : r.id = g.id := (GroupEdit.apply_keeps ha).1
      have hversion : store.version? r.id = some g.version := by
        rw [version?, hid, hg]
        rfl
      have hnext : store.next r = { r with version := g.version + 1 } := by
        rw [next, hversion]
        rfl
      have hsave : save r (some g.version) store =
          .ok { r with version := g.version + 1 }
            (store.put g.id { r with version := g.version + 1 }) :=
        save_eq_ok_iff.2 ⟨fun n hn => by cases hn; exact hversion, hnext.symm, by rw [hid]⟩
      dsimp only [finish]
      rw [ha]
      exact hsave

/-- **An update merges, and touches nothing else.** Whatever was stored, an update of the group of
    an id succeeds if and only if the group is there, the data can be read, and the group with the
    data over it has its members and passes the check.  The group then stored has what the data
    gives, `null` for a description included, and the rest of what it had, with its mode under the
    usual name, which changes no mode that is written so already, and with the next version.  All
    other groups stay as they are, and so does the order.  Changes that were read beforehand do the
    same as their data. -/
theorem update_merges (rules : GroupRules) (steps : List StoreStep) (id : String) (d : Data) :
    let store := StoreStep.run {} steps
    let update := fun changes => edit rules id (.update changes) store
    ((∃ g' after, update (.data d) = .ok g' after) ↔
      ∃ g es r, store.get? id = some g ∧ d.toEntries = .ok es ∧ Readable es ∧ g.Takes es r ∧
        r.mode = (entryOf es "executionMode" "execution_mode").getD g.mode ∧
        (∃ ids, r.members = some ids) ∧
        ∃ found, r.check rules.config rules.known = .ok found ∧ found.isValid = true) ∧
    (∀ g' after, update (.data d) = .ok g' after →
      ∃ g es, store.get? id = some g ∧ d.toEntries = .ok es ∧ after.get? id = some g' ∧
        g.Takes es g' ∧
        (∃ m, Mode.ofData? ((entryOf es "executionMode" "execution_mode").getD g.mode) = some m ∧
          g'.mode = .text m.name) ∧
        (entryOf es "executionMode" "execution_mode" = none →
          (∃ m : Mode, g.mode = .text m.name) → g'.mode = g.mode) ∧
        g'.version = g.version + 1 ∧
        (∀ other, other ≠ id → after.get? other = store.get? other) ∧ after.keys = store.keys) ∧
    ∀ c, (Submission.data d).read GroupChanges.read = .ok c →
      update (.form c) = update (.data d) := by
  intro store update
  have named : StoreStep.Named store := StoreStep.Named.run (fun _ _ h => by cases h) steps
  have hread {c : GroupChanges} : (Submission.data d).read GroupChanges.read = .ok c ↔
      ∃ es, d.toEntries = .ok es ∧ Reads es c := by
    rw [Submission.read]
    cases d.toEntries with
    | error f => simp
    | ok es =>
      simp only [Except.ok.injEq, exists_eq_left', ← GroupChanges.read_iff]
      cases GroupChanges.read es <;> simp
  refine ⟨⟨?_, ?_⟩, ?_, ?_⟩
  · rintro ⟨g', after, h⟩
    obtain ⟨g, c, merged, r, hg, hc, hm, hr, -, -⟩ := (edit_update_iff named).1 h
    obtain ⟨es, hes, hc⟩ := hread.1 hc
    obtain ⟨htakes, hmode, -, hids⟩ := (Group.merge_iff hc).1 hm
    exact ⟨g, es, merged, hg, hes, exists_read_iff.1 ⟨c, read_iff.2 hc⟩, htakes, hmode, hids,
      Group.exists_checked_iff.1 ⟨r, hr⟩⟩
  · rintro ⟨g, es, r, hg, hes, hreadable, htakes, hmode, hids, hvalid⟩
    obtain ⟨c, hc⟩ := exists_read_iff.2 hreadable
    have hc := read_iff.1 hc
    -- of all groups with these fields, the merge gives the one that has the version too
    have hm : g.merge c = .ok { r with version := g.version } :=
      (Group.merge_iff hc).2 ⟨htakes.remade r.mode g.version, hmode, rfl, hids⟩
    obtain ⟨r', hr'⟩ :=
      (Group.exists_checked_iff (g := { r with version := g.version })).2 hvalid
    exact ⟨_, _, (edit_update_iff named).2
      ⟨g, c, _, r', hg, hread.2 ⟨es, hes, hc⟩, hm, hr', rfl, rfl⟩⟩
  · intro g' after h
    obtain ⟨g, c, merged, r, hg, hc, hm, hr, rfl, rfl⟩ := (edit_update_iff named).1 h
    obtain ⟨es, hes, hc⟩ := hread.1 hc
    obtain ⟨htakes, hmode, -, -⟩ := (Group.merge_iff hc).1 hm
    obtain ⟨-, ⟨m, hm, rfl⟩, -⟩ := Group.checked_eq_ok_iff.1 hr
    rw [hmode] at hm
    have hkey : id ∈ store.keys := (Keyed.contains_iff store id).1 (by rw [Keyed.contains, hg]; rfl)
    exact ⟨g, es, hg, hes, Keyed.get?_put_self store id _, htakes.remade _ _, ⟨m, hm, rfl⟩,
      fun hnone hname => Group.mode_eq_of_name (by rwa [hnone] at hm) hname, rfl,
      fun other hother => Keyed.get?_put_of_ne store _ hother, Keyed.keys_put_of_mem store _ hkey⟩
  · intro c hc
    have happly (g : Group) : (GroupEdit.update (.form c)).apply rules g =
        (GroupEdit.update (.data d)).apply rules g := by
      simp only [GroupEdit.apply, hc]
      rfl
    simp only [update, edit_eq, finish, happly]

/-- A mode that was stored in another spelling is saved in its usual one, though no mode is
    given. -/
theorem update_respells_mode :
    let g : Group := { id := "g", name := .text "G", mode := .text " any ", created := ⟨0, 0⟩ }
    let store := StoreStep.run {} [.save g none]
    let es : List (Data × Data) := [(.text "name", .text "N")]
    entryOf es "executionMode" "execution_mode" = none ∧
      ∃ g' after, edit { config := {}, known := fun _ => false } "g"
          (.update (.data (.mapping es))) store = .ok g' after ∧
        g'.mode = .text "ANY" ∧ g'.mode ≠ g.mode := by
  intro g store es
  have named : StoreStep.Named store := StoreStep.Named.run (fun _ _ h => by cases h) [.save g none]
  have hany : Mode.ofData? (.text " any ") = some .any := by decide +kernel
  have hname : Group.isName (.text "N") = true := by decide +kernel
  refine ⟨rfl, { g with name := .text "N", mode := .text "ANY", version := 2 }, _,
    (edit_update_iff named).2 ⟨{ g with version := 1 }, { name := some (some "N") },
      { g with name := .text "N", version := 1 },
      { g with name := .text "N", mode := .text "ANY", version := 1 }, rfl, rfl, rfl, ?_, rfl, rfl⟩,
    rfl, by simp [g]⟩
  exact Group.checked_eq_ok_iff.2 ⟨hname, ⟨.any, hany, rfl⟩, by simp [g], by simp [g]⟩

end GroupStore

end Rulebook
