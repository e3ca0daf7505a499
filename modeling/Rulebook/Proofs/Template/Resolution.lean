/-
  When templates resolve, and what to.

  Resolving data fails only in a text, and there for two reasons: the path of a placeholder
  stumbles, or the value that it leads to has no text and has to be written into a longer one.  In a
  text for which neither is so, a placeholder whose path leads nowhere stays as it is written.

  * `render_eq`: a value is written by its type and the data that it stands for;
  * `Filled`: what a text becomes; `resolveText_eq_ok_iff`: that this is what it becomes;
  * `resolveText_self`: a text whose placeholders lead nowhere stays as it is;
  * `Usable`, `exists_filled_iff`: the texts that become something;
  * `Resolved`: what data becomes, text by text;
  * `resolve_spec`: which data resolves, and that it becomes that.
-/
import Rulebook.Proofs.Template.Paths

namespace Rulebook.Template

variable {s : Sources} {h h₀ h' : Heap} {v : Value}

/-! ## Values in texts -/

/-- A value can be written into a text. -/
def Renderable (h : Heap) : Value → Prop
  | .list r => Json.Writable (h.plain (.list r))
  | .mapping r => Json.Writable (h.plain (.mapping r))
  | v => (h.plain v).Listable

theorem render_iff : Succeeds (render h v) ↔ Renderable h v := by
  cases v with
  | null => exact iff_of_true (.ok _) trivial
  | instant t => exact iff_of_true (.ok _) trivial
  | list r => exact Json.write_iff _
  | mapping r => exact Json.write_iff _
  | _ =>
    simp only [render, Renderable]
    exact Data.asText_iff _

/-- Data of a type inside a longer text. -/
def renderData (type : String) (d : Data) : Except Fault String :=
  if type ∈ ["list", "dict"] then Json.write Json.inText d
  else
    match d with
    | .null => .ok ""
    | .instant t => .ok t.iso
    | d => d.asText

/-- A value is written by its type and the data that it stands for. -/
theorem render_eq (h : Heap) (v : Value) : render h v = renderData v.typeName (h.plain v) := by
  cases v <;> rfl

theorem render_congr (he : h.Extends h') (hc : h.Closed) (hv : v.Within h.cells.size) :
    render h' v = render h v := by
  rw [render_eq, render_eq, he.plain_eq hc hv]

/-! ## Texts -/

/-- Pieces are written out as a text: literal spans as they are, placeholders as they are written if
    their path leads nowhere, else as the value that it leads to. -/
inductive Written (s : Sources) (h : Heap) : List Piece → String → Prop
  | nil : Written s h [] ""
  | literal (span : List Char) {ps : List Piece} {t : String} : Written s h ps t →
      Written s h (.literal span :: ps) (String.ofList span ++ t)
  | verbatim {span : List Char} {path : List String} {ps : List Piece} {t : String} :
      s.lookUp h path = .ok none → Written s h ps t →
      Written s h (.placeholder span path :: ps) (String.ofList span ++ t)
  | value {span : List Char} {path : List String} {v : Value} {x : String} {ps : List Piece}
      {t : String} : s.lookUp h path = .ok (some v) → render h v = .ok x → Written s h ps t →
      Written s h (.placeholder span path :: ps) (x ++ t)

/-- A text is one placeholder, and its path leads to a value. -/
def Stands (s : Sources) (h : Heap) (ps : List Piece) (v : Value) : Prop :=
  ∃ span path, ps = [.placeholder span path] ∧ s.lookUp h path = .ok (some v)

/-- What a text becomes: the value itself if it is one placeholder, else the text that its pieces
    are written out as. -/
inductive Filled (s : Sources) (h : Heap) (ps : List Piece) : Value → Prop
  | value {v : Value} : Stands s h ps v → Filled s h ps v
  | text {t : String} : (∀ v, ¬Stands s h ps v) → Written s h ps t → Filled s h ps (.text t)

/-- No path of a placeholder stumbles, and what it leads to can be written into the text unless the
    placeholder is all of it. -/
structure Usable (s : Sources) (h : Heap) (ps : List Piece) : Prop where
  read : ∀ span path, .placeholder span path ∈ ps → ¬s.Stumbles h path
  written : ∀ span path v, .placeholder span path ∈ ps → s.lookUp h path = .ok (some v) →
    Renderable h v ∨ ps = [.placeholder span path]

theorem exists_written_iff {ps : List Piece} : (∃ t, Written s h ps t) ↔
    ∀ span path, .placeholder span path ∈ ps →
      ¬s.Stumbles h path ∧ ∀ v, s.lookUp h path = .ok (some v) → Renderable h v := by
  induction ps with
  | nil => exact iff_of_true ⟨_, .nil⟩ (by simp)
  | cons p ps ih =>
    constructor
    · rintro ⟨t, ht⟩ span path hmem
      cases ht with
      | literal _ ht =>
        obtain hmem : Piece.placeholder span path ∈ ps := by simpa using hmem
        exact ih.1 ⟨_, ht⟩ span path hmem
      | verbatim hnone ht =>
        rcases List.mem_cons.1 hmem with heq | hmem
        · cases heq
          exact ⟨s.lookUp_iff.1 ⟨_, hnone⟩, fun v hv => nomatch hnone.symm.trans hv⟩
        · exact ih.1 ⟨_, ht⟩ span path hmem
      | value hsome hx ht =>
        rcases List.mem_cons.1 hmem with heq | hmem
        · cases heq
          refine ⟨s.lookUp_iff.1 ⟨_, hsome⟩, fun v hv => ?_⟩
          cases hsome.symm.trans hv
          exact render_iff.1 ⟨_, hx⟩
        · exact ih.1 ⟨_, ht⟩ span path hmem
    · intro hall
      obtain ⟨t, ht⟩ := ih.2 fun span path hmem => hall span path (List.mem_cons_of_mem p hmem)
      cases p with
      | literal span => exact ⟨_, .literal span ht⟩
      | placeholder span path =>
        obtain ⟨hread, hwritten⟩ := hall span path List.mem_cons_self
        obtain ⟨found, hfound⟩ := s.lookUp_iff.2 hread
        cases found with
        | none => exact ⟨_, .verbatim hfound ht⟩
        | some v =>
          obtain ⟨x, hx⟩ := render_iff.2 (hwritten v hfound)
          exact ⟨_, .value hfound hx ht⟩

/-- The texts that become something. -/
theorem exists_filled_iff {ps : List Piece} : (∃ v, Filled s h ps v) ↔ Usable s h ps := by
  constructor
  · rintro ⟨v, ⟨span, path, rfl, hv⟩ | ⟨-, ht⟩⟩
    · have hmem {span' path'} (hp : Piece.placeholder span' path' ∈ [Piece.placeholder span path]) :
          span' = span ∧ path' = path := by simpa using hp
      refine ⟨fun span' path' hp => ?_, fun span' path' w hp _ => ?_⟩
      · obtain ⟨-, rfl⟩ := hmem hp
        exact s.lookUp_iff.1 ⟨_, hv⟩
      · obtain ⟨rfl, rfl⟩ := hmem hp
        exact .inr rfl
    · have hall := exists_written_iff.1 ⟨_, ht⟩
      exact ⟨fun span path hp => (hall span path hp).1,
        fun span path v hp hv => .inl ((hall span path hp).2 v hv)⟩
  · intro husable
    by_cases hone : ∃ v, Stands s h ps v
    · obtain ⟨v, hv⟩ := hone
      exact ⟨v, .value hv⟩
    · rw [not_exists] at hone
      have hall : ∃ t, Written s h ps t := exists_written_iff.2 fun span path hp => by
        refine ⟨husable.read span path hp, fun v hv => ?_⟩
        refine (husable.written span path v hp hv).resolve_right fun heq => ?_
        exact hone v ⟨span, path, heq, hv⟩
      obtain ⟨t, ht⟩ := hall
      exact ⟨_, .text hone ht⟩

/-! ## Resolving texts -/

theorem part_of_none {span : List Char} {path : List String} (hp : s.lookUp h path = .ok none) :
    s.part h (.placeholder span path) = .ok (.literal span) := by
  rw [Sources.part, hp]
  rfl

theorem part_of_some {span : List Char} {path : List String}
    (hp : s.lookUp h path = .ok (some v)) : s.part h (.placeholder span path) = .ok (.value v) := by
  rw [Sources.part, hp]
  rfl

/-- A part with a value comes from a placeholder whose path leads to it. -/
theorem part_eq_value {p : Piece} (hp : s.part h p = .ok (.value v)) :
    ∃ span path, p = .placeholder span path ∧ s.lookUp h path = .ok (some v) := by
  cases p with
  | literal span => cases hp
  | placeholder span path =>
    obtain ⟨found, hfound, hpart⟩ := exceptMap_eq_ok.1 hp
    cases found with
    | none => cases hpart
    | some w =>
      cases hpart
      exact ⟨span, path, rfl, hfound⟩

theorem mapM_part_iff {ps : List Piece} :
    ps.mapM (s.part h) = .ok [.value v] ↔ Stands s h ps v := by
  constructor
  · intro hparts
    cases ps with
    | nil => cases hparts
    | cons p ps =>
      obtain ⟨part, rest, hp, hps, heq⟩ := mapM_cons_eq_ok.1 hparts
      obtain ⟨rfl, rfl⟩ := List.cons.inj heq
      obtain ⟨span, path, rfl, hv⟩ := part_eq_value hp
      cases ps with
      | nil => exact ⟨span, path, rfl, hv⟩
      | cons q ps =>
        obtain ⟨_, _, -, -, heq⟩ := mapM_cons_eq_ok.1 hps
        cases heq
  · rintro ⟨span, path, rfl, hv⟩
    exact mapM_cons_eq_ok.2 ⟨.value v, [], part_of_some hv, rfl, rfl⟩

/-- Pieces that are written out are looked up, and their parts have the texts that are joined. -/
theorem Written.exists_parts {ps : List Piece} {t : String} (ht : Written s h ps t) :
    ∃ parts ts, ps.mapM (s.part h) = .ok parts ∧ parts.mapM (Part.text h) = .ok ts ∧
      String.join ts = t := by
  induction ht with
  | nil => exact ⟨[], [], rfl, rfl, rfl⟩
  | literal span _ ih =>
    obtain ⟨parts, ts, hparts, hts, rfl⟩ := ih
    exact ⟨_, _, mapM_cons_eq_ok.2 ⟨.literal span, parts, rfl, hparts, rfl⟩,
      mapM_cons_eq_ok.2 ⟨_, ts, rfl, hts, rfl⟩, String.join_cons⟩
  | verbatim hnone _ ih =>
    obtain ⟨parts, ts, hparts, hts, rfl⟩ := ih
    exact ⟨_, _, mapM_cons_eq_ok.2 ⟨_, parts, part_of_none hnone, hparts, rfl⟩,
      mapM_cons_eq_ok.2 ⟨_, ts, rfl, hts, rfl⟩, String.join_cons⟩
  | value hsome hx _ ih =>
    obtain ⟨parts, ts, hparts, hts, rfl⟩ := ih
    exact ⟨_, _, mapM_cons_eq_ok.2 ⟨_, parts, part_of_some hsome, hparts, rfl⟩,
      mapM_cons_eq_ok.2 ⟨_, ts, hx, hts, rfl⟩, String.join_cons⟩

/-- Pieces that can be looked up are written out as the texts of their parts. -/
theorem written_of_parts {ps : List Piece} {parts : List Part} {ts : List String}
    (hparts : ps.mapM (s.part h) = .ok parts) (hts : parts.mapM (Part.text h) = .ok ts) :
    Written s h ps (String.join ts) := by
  induction ps generalizing parts ts with
  | nil =>
    cases hparts
    cases hts
    exact .nil
  | cons p ps ih =>
    obtain ⟨part, rest, hp, hps, rfl⟩ := mapM_cons_eq_ok.1 hparts
    obtain ⟨x, xs, hx, hxs, rfl⟩ := mapM_cons_eq_ok.1 hts
    rw [String.join_cons]
    cases p with
    | literal span =>
      cases hp
      cases hx
      exact .literal span (ih hps hxs)
    | placeholder span path =>
      obtain ⟨found, hfound, hpart⟩ := exceptMap_eq_ok.1 hp
      cases found with
      | none =>
        cases hpart
        cases hx
        exact .verbatim hfound (ih hps hxs)
      | some v =>
        cases hpart
        exact .value hfound hx (ih hps hxs)

/-- What a text resolves to is what it becomes. -/
theorem resolveText_eq_ok_iff {t : String} :
    resolveText s h t = .ok v ↔ Filled s h (Piece.scan t.toList) v := by
  rw [resolveText, exceptBind_eq_ok]
  constructor
  · rintro ⟨parts, hparts, hv⟩
    unfold ofParts at hv
    split at hv
    · next w =>
      cases hv
      exact .value (mapM_part_iff.1 hparts)
    · next hmany =>
      obtain ⟨ts, hts, hv⟩ := exceptBind_eq_ok.1 hv
      cases hv
      refine .text (fun w hw => ?_) (written_of_parts hparts hts)
      exact hmany w (Except.ok.inj (hparts.symm.trans (mapM_part_iff.2 hw)))
  · rintro (hv | ⟨hmany, ht⟩)
    · exact ⟨_, mapM_part_iff.2 hv, rfl⟩
    · obtain ⟨parts, ts, hparts, hts, rfl⟩ := ht.exists_parts
      refine ⟨parts, hparts, ?_⟩
      unfold ofParts
      split
      · next w => exact absurd (mapM_part_iff.1 hparts) (hmany w)
      · rw [hts]
        rfl

theorem written_self {ps : List Piece}
    (hnone : ∀ span path, .placeholder span path ∈ ps → s.lookUp h path = .ok none) :
    Written s h ps (String.ofList (ps.flatMap Piece.span)) := by
  induction ps with
  | nil => exact .nil
  | cons p ps ih =>
    have hrest := ih fun span path hp => hnone span path (List.mem_cons_of_mem p hp)
    rw [List.flatMap_cons, String.ofList_append]
    cases p with
    | literal span => exact .literal span hrest
    | placeholder span path => exact .verbatim (hnone span path List.mem_cons_self) hrest

/-- A text whose placeholders lead nowhere stays as it is. -/
theorem resolveText_self {t : String} (hnone : ∀ span path,
    .placeholder span path ∈ Piece.scan t.toList → s.lookUp h path = .ok none) :
    resolveText s h t = .ok (.text t) := by
  have hwritten := written_self hnone
  rw [Piece.concat_scan, String.ofList_toList] at hwritten
  refine resolveText_eq_ok_iff.2 (.text ?_ hwritten)
  rintro v ⟨span, path, heq, hv⟩
  have hlost := hnone span path (heq ▸ List.mem_singleton_self _)
  cases hlost.symm.trans hv

/-- What is written out depends on what paths lead to, and on the texts of that. -/
theorem Written.imp {ps : List Piece} {t : String}
    (hread : ∀ path o, s.lookUp h path = .ok o → s.lookUp h' path = .ok o)
    (htext : ∀ path v x, s.lookUp h path = .ok (some v) → render h v = .ok x → render h' v = .ok x)
    (ht : Written s h ps t) : Written s h' ps t := by
  induction ht with
  | nil => exact .nil
  | literal span _ ih => exact .literal span ih
  | verbatim hnone _ ih => exact .verbatim (hread _ _ hnone) ih
  | value hsome hx _ ih => exact .value (hread _ _ hsome) (htext _ _ _ hsome hx) ih

/-- A text becomes the same in an extended heap. -/
theorem filled_congr (he : h.Extends h') (hc : h.Closed) (hs : s.Within h.cells.size)
    {ps : List Piece} : Filled s h' ps v ↔ Filled s h ps v := by
  have hread (path : List String) : s.lookUp h' path = s.lookUp h path := s.lookUp_congr he hc hs path
  have hstands (w : Value) : Stands s h' ps w ↔ Stands s h ps w := by simp only [Stands, hread]
  have htext {path : List String} {w : Value} (hw : s.lookUp h path = .ok (some w)) :
      render h' w = render h w := render_congr he hc (hs.lookUp hc hw)
  have hwritten (t : String) : Written s h' ps t ↔ Written s h ps t := by
    refine ⟨.imp (fun path o ho => (hread path).symm.trans ho) fun path w x hw hx => ?_,
      .imp (fun path o ho => (hread path).trans ho) fun path w x hw hx => (htext hw).trans hx⟩
    exact (htext ((hread path).symm.trans hw)).symm.trans hx
  constructor
  · rintro (hv | ⟨hmany, ht⟩)
    · exact .value ((hstands _).1 hv)
    · exact .text (fun w hw => hmany w ((hstands w).2 hw)) ((hwritten _).1 ht)
  · rintro (hv | ⟨hmany, ht⟩)
    · exact .value ((hstands _).2 hv)
    · exact .text (fun w hw => hmany w ((hstands w).1 hw)) ((hwritten _).2 ht)

/-! ## Resolving data -/

mutual

/-- The texts that are resolved in data: all but those in keys. -/
def texts : Data → List String
  | .text t => [t]
  | .list items => allTexts items
  | .tuple items => allTexts items
  | .mapping entries => entryTexts entries
  | _ => []

/-- The texts that are resolved in several data. -/
def allTexts : List Data → List String
  | [] => []
  | d :: ds => texts d ++ allTexts ds

/-- The texts that are resolved in the entries of a mapping. -/
def entryTexts : List (Data × Data) → List String
  | [] => []
  | (_, d) :: es => texts d ++ entryTexts es

end

/-- A value is plain data as it is put on a heap. -/
def Loaded (h : Heap) (d : Data) (v : Value) : Prop :=
  ∃ g : Heap, (g.load d).1 = v ∧ (g.load d).2.Extends h

mutual

/-- What data becomes: lists, tuples and mappings of what their parts become, with the keys as they
    are; texts what they become on the heap `h₀` that they are resolved on; all else stays. -/
def Resolved (s : Sources) (h₀ h : Heap) : Data → Value → Prop
  | .text t, v => Filled s h₀ (Piece.scan t.toList) v
  | .list items, v => ∃ r vs, v = .list r ∧ h.read? r = some (.list vs) ∧ AllResolved s h₀ h items vs
  | .tuple items, v => ∃ vs, v = .tuple vs ∧ AllResolved s h₀ h items vs
  | .mapping entries, v => ∃ r es, v = .mapping r ∧ h.read? r = some (.mapping es) ∧
      EntriesResolved s h₀ h entries es
  | d, v => Loaded h d v

/-- What several data become. -/
def AllResolved (s : Sources) (h₀ h : Heap) : List Data → List Value → Prop
  | [], vs => vs = []
  | d :: ds, vs => ∃ w ws, vs = w :: ws ∧ Resolved s h₀ h d w ∧ AllResolved s h₀ h ds ws

/-- What the entries of a mapping become. -/
def EntriesResolved (s : Sources) (h₀ h : Heap) : List (Data × Data) → Entries → Prop
  | [], fs => fs = []
  | (k, d) :: es, fs => ∃ kv w gs, fs = (kv, w) :: gs ∧ Loaded h k kv ∧ Resolved s h₀ h d w ∧
      EntriesResolved s h₀ h es gs

end

theorem Loaded.mono {d : Data} (hd : Loaded h d v) (he : h.Extends h') : Loaded h' d v := by
  obtain ⟨g, hv, hg⟩ := hd
  exact ⟨g, hv, hg.trans he⟩

mutual

theorem Resolved.mono (he : h.Extends h') : ∀ (d : Data) {v : Value},
    Resolved s h₀ h d v → Resolved s h₀ h' d v
  | .text t, v, hd => hd
  | .list items, v, hd => by
    obtain ⟨r, vs, rfl, hr, hvs⟩ := hd
    exact ⟨r, vs, rfl, he r _ hr, AllResolved.mono he items hvs⟩
  | .tuple items, v, hd => by
    obtain ⟨vs, rfl, hvs⟩ := hd
    exact ⟨vs, rfl, AllResolved.mono he items hvs⟩
  | .mapping entries, v, hd => by
    obtain ⟨r, es, rfl, hr, hes⟩ := hd
    exact ⟨r, es, rfl, he r _ hr, EntriesResolved.mono he entries hes⟩
  | .null, v, hd | .bool _, v, hd | .int _, v, hd | .float _, v, hd | .instant _, v, hd
  | .duration _, v, hd | .slice .., v, hd | .cycle _, v, hd => Loaded.mono hd he

theorem AllResolved.mono (he : h.Extends h') : ∀ (ds : List Data) {vs : List Value},
    AllResolved s h₀ h ds vs → AllResolved s h₀ h' ds vs
  | [], vs, hds => hds
  | d :: ds, vs, hds => by
    obtain ⟨w, ws, rfl, hw, hws⟩ := hds
    exact ⟨w, ws, rfl, Resolved.mono he d hw, AllResolved.mono he ds hws⟩

theorem EntriesResolved.mono (he : h.Extends h') : ∀ (es : List (Data × Data)) {fs : Entries},
    EntriesResolved s h₀ h es fs → EntriesResolved s h₀ h' es fs
  | [], fs, hes => hes
  | (k, d) :: es, fs, hes => by
    obtain ⟨kv, w, gs, rfl, hk, hw, hgs⟩ := hes
    exact ⟨kv, w, gs, rfl, hk.mono he, Resolved.mono he d hw, EntriesResolved.mono he es hgs⟩

end

mutual

/-- The data that resolves. -/
theorem resolve_iff (hc : h₀.Closed) (hs : s.Within h₀.cells.size) :
    ∀ {h : Heap}, h₀.Extends h → ∀ d : Data,
    Succeeds (resolve s h d) ↔ ∀ t ∈ texts d, Usable s h₀ (Piece.scan t.toList)
  | h, he, .text t => by
    rw [resolve, Succeeds.bind_pure_iff, texts, List.forall_mem_singleton, ← exists_filled_iff]
    exact exists_congr fun v => resolveText_eq_ok_iff.trans (filled_congr he hc hs)
  | h, he, .list items => by
    rw [resolve, Succeeds.bind_pure_iff, resolveAll_iff hc hs he items, texts]
  | h, he, .tuple items => by
    rw [resolve, Succeeds.bind_pure_iff, resolveAll_iff hc hs he items, texts]
  | h, he, .mapping entries => by
    rw [resolve, Succeeds.bind_pure_iff, resolveEntries_iff hc hs he entries, texts]
  | _, _, .null | _, _, .bool _ | _, _, .int _ | _, _, .float _ | _, _, .instant _
  | _, _, .duration _ | _, _, .slice .. | _, _, .cycle _ =>
    iff_of_true (.ok _) nofun

theorem resolveAll_iff (hc : h₀.Closed) (hs : s.Within h₀.cells.size) :
    ∀ {h : Heap}, h₀.Extends h → ∀ ds : List Data,
    Succeeds (resolveAll s h ds) ↔ ∀ t ∈ allTexts ds, Usable s h₀ (Piece.scan t.toList)
  | _, _, [] => iff_of_true (.ok _) nofun
  | h, he, d :: ds => by
    rw [resolveAll, allTexts, List.forall_mem_append, ← resolve_iff hc hs he d]
    refine Succeeds.bind_iff fun p hp => ?_
    exact Succeeds.bind_pure_iff.trans
      (resolveAll_iff hc hs (he.trans (resolve_extends s h d hp)) ds)

theorem resolveEntries_iff (hc : h₀.Closed) (hs : s.Within h₀.cells.size) :
    ∀ {h : Heap}, h₀.Extends h → ∀ es : List (Data × Data),
    Succeeds (resolveEntries s h es) ↔ ∀ t ∈ entryTexts es, Usable s h₀ (Piece.scan t.toList)
  | _, _, [] => iff_of_true (.ok _) nofun
  | h, he, (k, d) :: es => by
    have hk := he.trans (Heap.load_extends h k)
    rw [resolveEntries, entryTexts, List.forall_mem_append, ← resolve_iff hc hs hk d]
    refine Succeeds.bind_iff (x := resolve s (h.load k).2 d) fun p hp => ?_
    exact Succeeds.bind_pure_iff.trans
      (resolveEntries_iff hc hs (hk.trans (resolve_extends s _ d hp)) es)

end

mutual

/-- Data that resolves becomes what its texts make of it. -/
theorem resolved_of_resolve (hc : h₀.Closed) (hs : s.Within h₀.cells.size) :
    ∀ {h : Heap}, h₀.Extends h → ∀ (d : Data) {p : Value × Heap},
    resolve s h d = .ok p → Resolved s h₀ p.2 d p.1
  | h, he, .text t, p, hp => by
    obtain ⟨v, hv, hp⟩ := exceptBind_eq_ok.1 hp
    cases hp
    exact (filled_congr he hc hs).1 (resolveText_eq_ok_iff.1 hv)
  | h, he, .list items, p, hp => by
    obtain ⟨⟨vs, h₁⟩, hvs, hp⟩ := exceptBind_eq_ok.1 hp
    cases hp
    exact ⟨_, vs, rfl, by simp [Heap.newList, Heap.alloc, Heap.read?],
      (allResolved_of_resolveAll hc hs he items hvs).mono (.newList h₁ vs)⟩
  | h, he, .tuple items, p, hp => by
    obtain ⟨⟨vs, h₁⟩, hvs, hp⟩ := exceptBind_eq_ok.1 hp
    cases hp
    exact ⟨vs, rfl, allResolved_of_resolveAll hc hs he items hvs⟩
  | h, he, .mapping entries, p, hp => by
    obtain ⟨⟨es, h₁⟩, hes, hp⟩ := exceptBind_eq_ok.1 hp
    cases hp
    exact ⟨_, es, rfl, by simp [Heap.newMapping, Heap.alloc, Heap.read?],
      (entriesResolved_of_resolveEntries hc hs he entries hes).mono (.newMapping h₁ es)⟩
  | h, _, .null, p, hp | h, _, .bool _, p, hp | h, _, .int _, p, hp | h, _, .float _, p, hp
  | h, _, .instant _, p, hp | h, _, .duration _, p, hp | h, _, .slice .., p, hp
  | h, _, .cycle _, p, hp => by
    cases hp
    exact ⟨h, rfl, .refl _⟩

theorem allResolved_of_resolveAll (hc : h₀.Closed) (hs : s.Within h₀.cells.size) :
    ∀ {h : Heap}, h₀.Extends h → ∀ (ds : List Data) {p : List Value × Heap},
      resolveAll s h ds = .ok p → AllResolved s h₀ p.2 ds p.1
  | h, he, [], p, hp => by
    cases hp
    rfl
  | h, he, d :: ds, p, hp => by
    obtain ⟨⟨v, h₁⟩, hv, hp⟩ := exceptBind_eq_ok.1 hp
    obtain ⟨⟨vs, h₂⟩, hvs, hp⟩ := exceptBind_eq_ok.1 hp
    cases hp
    have he₁ : h.Extends h₁ := resolve_extends s h d hv
    have he₂ : h₁.Extends h₂ := resolveAll_extends s h₁ ds hvs
    exact ⟨v, vs, rfl, (resolved_of_resolve hc hs he d hv).mono he₂,
      allResolved_of_resolveAll hc hs (he.trans he₁) ds hvs⟩

theorem entriesResolved_of_resolveEntries (hc : h₀.Closed) (hs : s.Within h₀.cells.size) :
    ∀ {h : Heap}, h₀.Extends h → ∀ (es : List (Data × Data)) {p : Entries × Heap},
      resolveEntries s h es = .ok p → EntriesResolved s h₀ p.2 es p.1
  | h, he, [], p, hp => by
    cases hp
    rfl
  | h, he, (k, d) :: es, p, hp => by
    obtain ⟨⟨v, h₁⟩, hv, hp⟩ := exceptBind_eq_ok.1 hp
    obtain ⟨⟨fs, h₂⟩, hfs, hp⟩ := exceptBind_eq_ok.1 hp
    cases hp
    have hk : h₀.Extends (h.load k).2 := he.trans (Heap.load_extends h k)
    have he₁ : (h.load k).2.Extends h₁ := resolve_extends s _ d hv
    have he₂ : h₁.Extends h₂ := resolveEntries_extends s h₁ es hfs
    exact ⟨(h.load k).1, v, fs, rfl, ⟨h, rfl, he₁.trans he₂⟩,
      (resolved_of_resolve hc hs hk d hv).mono he₂,
      entriesResolved_of_resolveEntries hc hs (hk.trans he₁) es hfs⟩

end

/-- **Which data resolves, and what to.** Data resolves exactly if all its texts are usable; it then
    becomes what its texts make of it, on a heap with all objects that were there before. -/
theorem resolve_spec {h : Heap} (hc : h.Closed) {s : Sources} (hs : s.Within h.cells.size)
    (d : Data) :
    (Succeeds (resolve s h d) ↔ ∀ t ∈ texts d, Usable s h (Piece.scan t.toList)) ∧
      ∀ v h', resolve s h d = .ok (v, h') → h.Extends h' ∧ Resolved s h h' d v :=
  ⟨resolve_iff hc hs (.refl h) d, fun _ _ hp =>
    ⟨resolve_extends s h d hp, resolved_of_resolve hc hs (.refl h) d hp⟩⟩

theorem resolve_spec_superscript :
    let h : Heap := ⟨#[.mapping [(.text "items", .list 1)], .list [.int 1]]⟩
    let s : Sources := { context := ⟨.null, .null, .null, .null, .null, .mapping 0⟩ }
    h.Closed ∧ s.Within h.cells.size ∧ ¬Succeeds (resolve s h (.text "\x7b\x7bitems.²\x7d\x7d")) := by
  intro h s
  have hclosed : h.Closed := fun r c hr => by
    rcases r with _ | _ | r
    · cases hr
      simp [h, Cell.Within, Value.Within]
    · cases hr
      simp [h, Cell.Within, Value.Within]
    · cases hr
  have hwithin : s.Within h.cells.size := by
    constructor <;> simp [s, h, Context.roots, Context.identifiers, Value.Within]
  refine ⟨hclosed, hwithin, fun hsucceeds => ?_⟩
  have husable := (resolve_spec hclosed hwithin _).1.1 hsucceeds _ (List.mem_singleton_self _)
  obtain ⟨span, hscan⟩ : ∃ span, Piece.scan "\x7b\x7bitems.²\x7d\x7d".toList =
      [.placeholder span ["items", "²"]] := by
    have hbody : bodyAfter? "items.²\x7d\x7d".toList =
        some (["items".toList, "²".toList], []) := by decide +kernel
    obtain ⟨span, hscan⟩ := scan_placeholder hbody
    refine ⟨span, hscan.trans ?_⟩
    rw [Piece.scan]
    rfl
  rw [hscan] at husable
  have hmiscounts : Path.Miscounts "²" := by
    refine ⟨by decide +kernel, fun hcounts => ?_⟩
    exact absurd (hcounts.1 '²' (by decide)) (by decide +kernel)
  refine husable.read span _ (List.mem_singleton_self _) ⟨.mapping 0, _, rfl, ?_⟩
  exact ⟨["items"], "²", [], .list 1, rfl, rfl, trivial, hmiscounts⟩

end Rulebook.Template
