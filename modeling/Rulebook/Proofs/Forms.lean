/-
  What forms read.

  A form goes through its fields and collects issues; an issue that was collected stays.  So a form
  reads something exactly if every field is absent or passes its check, as no check fails without
  an issue.

  * `Form.read_bind_iff`, `Form.read_pure_iff`: a form reads field by field;
  * `Form.read_field_iff`: what a field comes to;
  * `Form.Yields`: what is known of a form once its fields are read;
  * `texts_iff`, `entries_iff`, `optional_iff`, `single_text_iff`: what checks read.
-/
import Rulebook.Schema

namespace Rulebook.Schema

variable {α β : Type}

/-! ## Issues -/

/-- A result, unless there are issues. -/
def unlessFlawed : α × List Issue → Except (List Issue) α
  | (a, []) => .ok a
  | (_, issues) => .error issues

theorem unlessFlawed_eq_ok_iff {p : α × List Issue} {a : α} :
    unlessFlawed p = .ok a ↔ p = (a, []) := by
  obtain ⟨b, _ | ⟨i, is⟩⟩ := p <;> simp [unlessFlawed]

theorem unlessFlawed_ne (p : α × List Issue) : unlessFlawed p ≠ .error [] := by
  obtain ⟨b, _ | ⟨i, is⟩⟩ := p <;> simp [unlessFlawed]

/-! ## Forms -/

namespace Form

/-- A form keeps the issues that there were before it. -/
def Keeps (form : Form α) : Prop :=
  ∀ issues, issues <+: (form.run issues).2

theorem Keeps.pure (a : α) : Keeps (pure a : Form α) :=
  fun issues => List.prefix_refl issues

theorem Keeps.field (place : List String) (given : Option Data) (check : Check α) (absent : α) :
    Keeps (field place given check absent) := by
  intro issues
  unfold Schema.field
  split
  · exact List.prefix_refl issues
  · split
    · exact List.prefix_refl issues
    · exact List.prefix_append issues _

theorem Keeps.bind {form : Form α} {next : α → Form β} (hform : Keeps form)
    (hnext : ∀ a, Keeps (next a)) : Keeps (form >>= next) := fun issues =>
  (hform issues).trans (hnext (form.run issues).1 (form.run issues).2)

theorem read_iff {form : Form α} {a : α} : form.read = .ok a ↔ form.run [] = (a, []) :=
  unlessFlawed_eq_ok_iff (p := form.run [])

/-- A form reads something if both its parts do. -/
theorem read_bind_iff {form : Form α} {next : α → Form β} (hnext : ∀ a, Keeps (next a)) {b : β} :
    (form >>= next).read = .ok b ↔ ∃ a, form.read = .ok a ∧ (next a).read = .ok b := by
  simp only [read_iff]
  constructor
  · intro hb
    have hrun : (next (form.run []).1).run (form.run []).2 = (b, []) := hb
    -- issues of the first part would be among those of the whole
    have hnone : (form.run []).2 = [] := by
      have hprefix := hnext (form.run []).1 (form.run []).2
      rw [hrun] at hprefix
      exact List.prefix_nil.1 hprefix
    rw [hnone] at hrun
    exact ⟨_, Prod.ext rfl hnone, hrun⟩
  · rintro ⟨a, ha, hb⟩
    change (next (form.run []).1).run (form.run []).2 = (b, [])
    rw [ha]
    exact hb

theorem read_pure_iff {a b : α} : (pure a : Form α).read = .ok b ↔ a = b := by
  rw [read_iff]
  exact ⟨fun h => congrArg Prod.fst h, fun h => Prod.ext h rfl⟩

/-- What a form reads has a property, given what was read before it. -/
structure Yields (before : Prop) (form : Form α) (P : α → Prop) : Prop where
  keeps : Keeps form
  reads (a : α) : before → form.read = .ok a → P a

variable {before : Prop} {P : α → Prop}

theorem Yields.bind {form : Form α} {next : α → Form β} {Q : β → Prop}
    (hform : Yields before form P) (hnext : ∀ a, Yields (before ∧ P a) (next a) Q) :
    Yields before (form >>= next) Q where
  keeps := hform.keeps.bind fun a => (hnext a).keeps
  reads b hbefore hb := by
    obtain ⟨a, ha, hb⟩ := (read_bind_iff fun a => (hnext a).keeps).1 hb
    exact (hnext a).reads b ⟨hbefore, hform.reads a hbefore ha⟩ hb

theorem Yields.of_read {form : Form α} {a : α} (hform : Yields True form P)
    (h : form.read = .ok a) : P a :=
  hform.reads a trivial h

theorem Yields.pure {a : α} (h : before → P a) : Yields before (Pure.pure a : Form α) P where
  keeps := .pure a
  reads _ hbefore hb := read_pure_iff.1 hb ▸ h hbefore

end Form

/-- A check that fails tells an issue. -/
def Telling (check : Check α) : Prop :=
  ∀ place d, check place d ≠ .error []

/-- A field is absent, or passes its check. -/
theorem Form.read_field_iff {check : Check α} (htelling : Telling check) {place : List String}
    {given : Option Data} {absent a : α} :
    (field place given check absent).read = .ok a ↔
      match given with
      | none => a = absent
      | some d => check place d = .ok a := by
  rw [Form.read_iff]
  unfold field
  cases given with
  | none => exact ⟨fun h => (congrArg Prod.fst h).symm, fun h => Prod.ext h.symm rfl⟩
  | some d =>
    dsimp only
    cases hcheck : check place d with
    | ok b =>
      rw [Except.ok.injEq]
      exact ⟨fun h => congrArg Prod.fst h, fun h => Prod.ext h rfl⟩
    | error issues =>
      refine iff_of_false (fun h => ?_) nofun
      have hissues : [] ++ issues = [] := congrArg Prod.snd h
      exact htelling place d (hissues ▸ hcheck)

theorem Form.Yields.field {check : Check α} (htelling : Telling check) {place : List String}
    {given : Option Data} {absent : α} {before : Prop} {P : α → Prop} (habsent : P absent)
    (hcheck : ∀ d a, check place d = .ok a → P a) :
    Yields before (field place given check absent) P where
  keeps := .field place given check absent
  reads a _ ha := by
    have hread := (Form.read_field_iff htelling).1 ha
    cases given with
    | none => exact hread ▸ habsent
    | some d => exact hcheck d a hread

/-! ## Checks -/

variable {place : List String} {d : Data}

theorem Telling.single {check : Data → Except Flaw α} : Telling (single check) := by
  intro place d h
  unfold Schema.single at h
  cases hcheck : check d <;> rw [hcheck] at h <;> cases h

theorem Telling.optional {check : Check α} (h : Telling check) : Telling (optional check) := by
  intro place d hd
  unfold Schema.optional at hd
  split at hd
  · cases hd
  · cases hcheck : check place d with
    | ok a => rw [hcheck] at hd; cases hd
    | error issues =>
      rw [hcheck] at hd
      cases hd
      exact h place d hcheck

/-- The items of a list or tuple are read one by one. -/
theorem texts_listed (place : List String) (ds : List Data) :
    texts place (.list ds) = unlessFlawed (textsFrom place 0 ds) ∧
      texts place (.tuple ds) = unlessFlawed (textsFrom place 0 ds) := by
  simp only [texts]
  rcases textsFrom place 0 ds with ⟨ss, _ | ⟨i, is⟩⟩
  · exact ⟨rfl, rfl⟩
  · exact ⟨rfl, rfl⟩

theorem Telling.texts : Telling texts := fun place d h => by
  cases d with
  | list ds => exact unlessFlawed_ne _ ((texts_listed place ds).1.symm.trans h)
  | tuple ds => exact unlessFlawed_ne _ ((texts_listed place ds).2.symm.trans h)
  | _ => cases h

theorem Telling.entries : Telling entries := fun place d h => by
  unfold Schema.entries at h
  split at h
  · split at h
    · cases h
    · next hissues => exact hissues (Except.error.inj h)
  · cases h

theorem single_wholeFrom {least n : Int} (h : single (wholeFrom least) place d = .ok n) :
    least ≤ n := by
  unfold single at h
  cases hcheck : wholeFrom least d with
  | error flaw => rw [hcheck] at h; cases h
  | ok m =>
    rw [hcheck] at h
    cases h
    unfold wholeFrom at hcheck
    cases hwhole : whole d with
    | error flaw => rw [hwhole] at hcheck; cases hcheck
    | ok k =>
      rw [hwhole] at hcheck
      change (if k < least then Except.error (Flaw.tooSmall least) else Except.ok k) = _ at hcheck
      split at hcheck
      next => cases hcheck
      next hless =>
        cases hcheck
        omega

theorem single_text_iff {s : String} : single text place d = .ok s ↔ d = .text s := by
  cases d with
  | text t => exact ⟨fun h => congrArg Data.text (Except.ok.inj h), fun h => by cases h; rfl⟩
  | _ => exact iff_of_false nofun nofun

/-- Absent data, or what the check reads. -/
theorem optional_iff {check : Check α} (hnull : ∀ a, check place .null ≠ .ok a) {o : Option α} :
    optional check place d = .ok o ↔
      (d = .null ∧ o = none) ∨ ∃ a, check place d = .ok a ∧ o = some a := by
  by_cases hd : d = .null
  · subst hd
    simp [optional, hnull, eq_comm]
  · have hcheck : optional check place d = (check place d).map some := by
      cases d <;> first | rfl | exact absurd rfl hd
    rw [hcheck]
    cases check place d <;> simp [Except.map, hd, eq_comm]

theorem textsFrom_iff {n : Nat} {ds : List Data} {ss : List String} :
    textsFrom place n ds = (ss, []) ↔ ds = ss.map .text := by
  induction ds generalizing n ss with
  | nil => simp [textsFrom, eq_comm]
  | cons d ds ih =>
    rcases hrest : textsFrom place (n + 1) ds with ⟨more, issues⟩
    simp only [textsFrom, hrest]
    cases d with
    | text s =>
      cases ss with
      | nil => simp [text]
      | cons t ss =>
        have hds : more = ss ∧ issues = [] ↔ ds = ss.map .text := by
          rw [← ih (n := n + 1), hrest, Prod.mk.injEq]
        simp [text, ← hds, and_assoc]
    | _ =>
      refine iff_of_false ?_ ?_
      · simp [text]
      · cases ss <;> simp

theorem texts_iff {ss : List String} :
    texts place d = .ok ss ↔ d = .list (ss.map .text) ∨ d = .tuple (ss.map .text) := by
  cases d with
  | list ds => rw [(texts_listed place ds).1, unlessFlawed_eq_ok_iff, textsFrom_iff]; simp
  | tuple ds => rw [(texts_listed place ds).2, unlessFlawed_eq_ok_iff, textsFrom_iff]; simp
  | _ => simp [texts]

theorem entries_iff {es : List (Data × Data)} :
    entries place d = .ok es ↔ d = .mapping es ∧ ∀ e ∈ es, ∃ k, e.1 = .text k := by
  cases d with
  | mapping fs =>
    rw [Data.mapping.injEq, entries]
    split
    · next hnil =>
      have htexts : ∀ e ∈ fs, ∃ k, e.1 = .text k := fun e he => by
        have hnone := List.filterMap_eq_nil_iff.1 hnil e he
        cases hkey : e.1 with
        | text k => exact ⟨k, rfl⟩
        | _ => rw [hkey] at hnone; cases hnone
      rw [Except.ok.injEq]
      exact ⟨fun h => ⟨h, h ▸ htexts⟩, And.left⟩
    · next hissues =>
      refine iff_of_false nofun fun h => hissues (List.filterMap_eq_nil_iff.2 fun e he => ?_)
      obtain ⟨k, hk⟩ := h.2 e (h.1 ▸ he)
      rw [hk]
  | _ => simp [entries]

end Rulebook.Schema
