/-
  Batches that set fields of an entity without shared parts.

  An entity whose lists and mappings each stand at one place can be drawn with every mark once.  A
  batch then is a fold of updates of this drawing.  Once an action has stored a mapping in another
  field, that stands at two places; as long as no action writes into such a mapping, each update is
  one of plain data, which may as well store a copy (`Unshared`).

  * `Heap.Solid`, `Solid.exists_draws`: such an entity has a drawing;
  * `Draws.proper`, `redraw_proper`: drawings of entities are proper, and stay so;
  * `redrawn_plain`: the fold of updates of plain data;
  * `runBatch_shows`: what a batch leaves.
-/
import Rulebook.Proofs.Update.Copies

namespace Rulebook

/-! ## Entities -/

namespace Heap

/-- A value that is a finite tree of parts: no slices, and mappings with keys that are no objects,
    no text twice. -/
inductive Solid (h : Heap) : Value → Prop
  | scalar {v : Value} (hv : v.Scalar) : Solid h v
  | tuple {vs : List Value} (hs : ∀ v ∈ vs, Solid h v) : Solid h (.tuple vs)
  | list {r : Ref} {vs : List Value} (hr : h.read? r = some (.list vs))
      (hs : ∀ v ∈ vs, Solid h v) : Solid h (.list r)
  | mapping {r : Ref} {es : Entries} (hr : h.read? r = some (.mapping es))
      (hk : ∀ e ∈ es, e.1.refs = [])
      (honce : (es.map fun e => e.1.plain fun _ => .null).Pairwise Data.Apart)
      (hs : ∀ e ∈ es, Solid h e.2) : Solid h (.mapping r)

variable {h : Heap} {refs : List Ref} {d : Drawing} {v : Value} {r : Ref}

/-- Parts that are each related to something are so together; what these have is in what is met
    from the parts on. -/
theorem exists_parts {α β : Type} {R : β → α → Prop} {f : β → List Nat} {g : α → List Ref}
    {l : List α} (hl : ∀ a ∈ l, ∃ b n, R b a ∧ (f b).Sublist (h.met n (g a))) :
    ∃ bs n, List.Forall₂ R bs l ∧ (bs.flatMap f).Sublist (h.met n (l.flatMap g)) := by
  induction l with
  | nil => exact ⟨[], 0, .nil, .refl _⟩
  | cons a l ih =>
    obtain ⟨⟨b, n, hb, hsub⟩, hl⟩ := List.forall_mem_cons.1 hl
    obtain ⟨bs, m, hbs, hsubs⟩ := ih hl
    refine ⟨b :: bs, max n m, .cons hb hbs, ?_⟩
    have happend (xs ys : List Ref) : h.met (max n m) (xs ++ ys) =
        h.met (max n m) xs ++ h.met (max n m) ys := by
      simpa using h.met_flatMap (max n m) [xs, ys] id
    rw [List.flatMap_cons, List.flatMap_cons, happend]
    exact (hsub.trans (met_sublist h (Nat.le_max_left n m) (.refl _))).append
      (hsubs.trans (met_sublist h (Nat.le_max_right n m) (.refl _)))

/-- What is met from an object on: it, and what is met from its parts on. -/
theorem met_succ_singleton (h : Heap) (n : Nat) {c : Cell} (hr : h.read? r = some c) :
    h.met (n + 1) [r] = r :: h.met n c.refs := by
  simp [met, held, hr]

/-- A value can be drawn, with the references of its mappings as marks, each as often as it is
    met. -/
theorem Solid.exists_draws (hv : h.Solid v) : ∃ d n,
    h.Draws (List.range h.cells.size) d v ∧ d.marks.Sublist (h.met n v.refs) := by
  induction hv with
  | scalar hv => exact ⟨_, 0, .leaf hv, .refl _⟩
  | tuple _ ih =>
    obtain ⟨ds, n, hds, hsub⟩ := exists_parts ih
    refine ⟨.tuple ds, n, .tuple hds, ?_⟩
    rwa [Drawing.marks, Drawing.marksAll_eq, Value.refs, Value.allRefs_eq]
  | list hr _ ih =>
    obtain ⟨ds, n, hds, hsub⟩ := exists_parts ih
    refine ⟨.list ds, n + 1, .list hr hds, ?_⟩
    rw [Drawing.marks, Drawing.marksAll_eq, Value.refs, met_succ_singleton h n hr]
    exact hsub.cons _
  | @mapping r es hr hk _ _ ih =>
    have hentry : ∀ e ∈ es, ∃ (d : Data × Drawing) (n : Nat),
        h.DrawsEntry (List.range h.cells.size) d e ∧
          d.2.marks.Sublist (h.met n (e.1.refs ++ e.2.refs)) := fun e he => by
      obtain ⟨d, n, hd, hsub⟩ := ih e he
      refine ⟨(e.1.plain fun _ => .null, d), n, ⟨⟨hk e he, rfl⟩, hd⟩, ?_⟩
      rwa [hk e he, List.nil_append]
    obtain ⟨ds, n, hds, hsub⟩ := exists_parts hentry
    have hi : (List.range h.cells.size)[r]? = some r := List.getElem?_range (lt_of_read hr)
    refine ⟨.mapping r ds, n + 1, .of_entries hi hr hds, ?_⟩
    rw [Drawing.marks, Drawing.marksEntries_eq, Value.refs, met_succ_singleton h n hr]
    exact hsub.cons_cons r

/-- A value without shared parts can be drawn with every mark once. -/
theorem Solid.exists_draws_once (hv : h.Solid v) (htree : h.Tree v.refs) :
    ∃ refs d, h.Table refs ∧ h.Draws refs d v ∧ d.marks.Nodup := by
  obtain ⟨d, n, hd, hsub⟩ := hv.exists_draws
  exact ⟨_, d, ⟨List.nodup_range, fun r => List.mem_range.1⟩, hd, (htree.once n).sublist hsub⟩

/-- A drawing of a value is proper. -/
theorem Draws.proper (hd : h.Draws refs d v) (hv : h.Solid v) : d.Proper := by
  induction hd using Draws.parts with
  | leaf v hscalar => exact .leaf hscalar
  | tuple ds vs _ ih =>
    refine .tuple fun d hmem => ?_
    obtain ⟨v, hmem, -, hproper⟩ := exists_of_mem_right ih.flip hmem
    cases hv with
    | scalar hv => exact hv.elim
    | tuple hs => exact hproper (hs v hmem)
  | list r ds vs hr _ ih =>
    refine .list fun d hmem => ?_
    obtain ⟨v, hmem, -, hproper⟩ := exists_of_mem_right ih.flip hmem
    cases hv with
    | scalar hv => exact hv.elim
    | list hr' hs =>
      cases hr.symm.trans hr'
      exact hproper (hs v hmem)
  | mapping i r ds es _ hr _ ih =>
    cases hv with
    | scalar hv => exact hv.elim
    | mapping hr' _ honce hs =>
      cases hr.symm.trans hr'
      have hkeys : ds.map (·.1) = es.map fun e => e.1.plain fun _ => .null :=
        (map_eq_of_forall₂ (ih.imp fun _ _ he => he.1.2)).symm
      refine .mapping (hkeys ▸ honce) fun d hmem => ?_
      obtain ⟨e, hmem, -, -, hproper⟩ := exists_of_mem_right ih.flip hmem
      exact hproper (hs e hmem)

end Heap

/-! ## Proper drawings stay proper -/

namespace Drawing

variable {d x : Drawing} {es : List (Data × Drawing)} {i : Nat} {name : String}

namespace Proper

theorem insert (hd : (Drawing.mapping i es).Proper) (hx : x.Proper) (name : String) :
    (Drawing.mapping i (Drawing.insert es name x)).Proper := by
  obtain ⟨honce, hs⟩ : (es.map (·.1)).Pairwise Data.Apart ∧ ∀ e ∈ es, e.2.Proper := by
    cases hd with
    | mapping honce hs => exact ⟨honce, hs⟩
  unfold Drawing.insert
  split_ifs with hany
  · refine .mapping ?_ fun e he => ?_
    · rw [List.map_map]
      refine (congrArg _ (List.map_congr_left fun e _ => ?_)).mpr honce
      rw [Function.comp_apply]
      split_ifs <;> rfl
    · obtain ⟨e, hmem, rfl⟩ := List.mem_map.1 he
      split_ifs
      · exact hx
      · exact hs e hmem
  · refine .mapping ?_ ?_
    · rw [List.map_append]
      refine List.pairwise_append.2 ⟨honce, List.pairwise_singleton _ _, ?_⟩
      rintro k hk l hl s rfl hs
      cases List.mem_singleton.1 hl
      cases hs
      obtain ⟨e, he, hkey⟩ := List.mem_map.1 hk
      exact hany (List.any_eq_true.2 ⟨e, he, Data.equal_text_iff.2 hkey⟩)
    · exact List.forall_mem_append.2 ⟨hs, List.forall_mem_singleton.2 hx⟩

theorem change (hd : d.Proper) (hx : x.Proper) (i : Nat) (name : String) :
    (d.change i name x).Proper := by
  induction hd with
  | leaf hv => exact .leaf hv
  | tuple _ ih =>
    rw [Drawing.change, changeAll_eq]
    exact .tuple (List.forall_mem_map.2 ih)
  | list _ ih =>
    rw [Drawing.change, changeAll_eq]
    exact .list (List.forall_mem_map.2 ih)
  | @mapping j es honce _ ih =>
    have hchanged : (Drawing.mapping j (changeEntries es i name x)).Proper := by
      rw [changeEntries_eq]
      refine .mapping ?_ (List.forall_mem_map.2 ih)
      rwa [List.map_map]
    rw [Drawing.change]
    split_ifs
    · exact hchanged.insert hx name
    · exact hchanged

theorem nested (hx : x.Proper) (next : Nat) (path : List String) :
    (nested next path x).Proper := by
  induction path generalizing next with
  | nil => exact hx
  | cons name path ih =>
    exact .mapping (List.pairwise_singleton _ _) (List.forall_mem_singleton.2 (ih _))

theorem put {s : Sketch} (hd : d.Proper) (hs : s.drawing.Proper) (path : List String) :
    (d.put path s).drawing.Proper := by
  unfold Drawing.put
  split
  · exact hd.change (hs.nested _ _) _ _
  · exact hd

theorem follow (hd : d.Proper) {path : List String} (hx : d.follow path = .ok (some x)) :
    x.Proper := by
  induction path generalizing d with
  | nil =>
    cases hx
    exact hd
  | cons s rest ih =>
    rw [Drawing.follow] at hx
    split at hx
    · next e he => exact ih (hd.child he) hx
    · cases hx
    · cases hx

theorem lookUp {names : List (String × Data)} (hd : d.Proper)
    (hnames : ∀ p ∈ names, (Drawing.leaf p.2).Proper) {path : List String}
    (hx : Drawing.lookUp names d path = .ok (some x)) :
    x.Proper := by
  cases path with
  | nil => cases hx
  | cons head rest =>
    rw [Drawing.lookUp] at hx
    split at hx
    · next e he =>
      refine Proper.follow ?_ hx
      rcases List.mem_append.1 (mem_of_lookup he) with hmem | hmem
      · obtain ⟨p, hp, heq⟩ := List.mem_map.1 hmem
        cases heq
        exact hnames p hp
      · cases List.mem_singleton.1 hmem
        exact hd
    · exact hd.follow hx

end Proper

theorem exists_of_mem_newAll {ds : List Data} {next : Nat} (hx : x ∈ (newAll next ds).1) :
    ∃ d ∈ ds, ∃ n, x = (new n d).drawing := by
  induction ds generalizing next with
  | nil => cases hx
  | cons d ds ih =>
    rcases List.mem_cons.1 hx with rfl | hx
    · exact ⟨d, List.mem_cons_self, next, rfl⟩
    · obtain ⟨d', hd', hx⟩ := ih hx
      exact ⟨d', List.mem_cons_of_mem _ hd', hx⟩

theorem exists_of_mem_newEntries {ds : List (Data × Data)} {e : Data × Drawing} {next : Nat}
    (he : e ∈ (newEntries next ds).1) : ∃ d ∈ ds, ∃ n, e.2 = (new n d.2).drawing := by
  induction ds generalizing next with
  | nil => cases he
  | cons d ds ih =>
    rcases List.mem_cons.1 he with rfl | he
    · exact ⟨d, List.mem_cons_self, next, rfl⟩
    · obtain ⟨d', hd', he⟩ := ih he
      exact ⟨d', List.mem_cons_of_mem _ hd', he⟩

theorem newEntries_keys (next : Nat) (ds : List (Data × Data)) :
    (newEntries next ds).1.map (·.1) = ds.map (·.1) := by
  induction ds generalizing next with
  | nil => rfl
  | cons d ds ih => exact congrArg (List.cons d.1) (ih _)

/-- A literal is drawn properly. -/
theorem new_proper {value : Data} (hv : value.Solid) (next : Nat) :
    (new next value).drawing.Proper := by
  induction hv generalizing next with
  | scalar hv =>
    rw [new_scalar hv]
    exact .leaf hv
  | tuple _ ih =>
    refine .tuple fun x hx => ?_
    obtain ⟨d, hd, n, rfl⟩ := exists_of_mem_newAll hx
    exact ih d hd n
  | list _ ih =>
    refine .list fun x hx => ?_
    obtain ⟨d, hd, n, rfl⟩ := exists_of_mem_newAll hx
    exact ih d hd n
  | mapping _ honce _ ih =>
    refine .mapping (by rwa [newEntries_keys]) fun e he => ?_
    obtain ⟨d, hd, n, hn⟩ := exists_of_mem_newEntries he
    exact hn ▸ ih d hd n

end Drawing

namespace Action

/-- An action that is carried out writes what its value denotes. -/
theorem exists_put_of_redraw {a : Action} {names : List (String × Data)} {x : Executor}
    {s s' : Sketch} (h : a.redraw? x names s = some s') :
    ∃ path value, (Details.parameter a.parameters "value").drawn names s = .ok value ∧
      s' = s.drawing.put (Path.split path) value := by
  unfold redraw? at h
  split at h
  · split_ifs at h
    unfold Details.redraw? at h
    split at h
    · next path _ =>
      split_ifs at h
      split at h
      · next value _ hvalue _ =>
        cases h
        exact ⟨path, value, hvalue, rfl⟩
      · cases h
    · cases h
  · cases h

end Action

section

variable {names : List (String × Data)} (hnames : ∀ p ∈ names, (Drawing.leaf p.2).Proper)

include hnames

/-- What the value of an action denotes is proper. -/
theorem Data.drawn_proper {value : Data} {s x : Sketch} (hv : value.Settable)
    (hs : s.drawing.Proper) (hx : value.drawn names s = .ok x) : x.drawing.Proper := by
  cases hv with
  | literal hd =>
    rw [Template.drawn_literal hd] at hx
    cases hx
    exact Drawing.new_proper hd.solid s.next
  | @placeholder t path ht =>
    rw [Template.drawn_placeholder ht] at hx
    cases hfound : Drawing.lookUp names s.drawing path with
    | error f =>
      rw [hfound] at hx
      cases hx
    | ok found =>
      rw [hfound] at hx
      cases hx
      cases found with
      | none => exact .leaf (v := .text t) trivial
      | some d => exact hs.lookUp hnames hfound

namespace Action

variable {a : Action} {s : Sketch}

/-- An action that sets a field leaves a proper mapping. -/
theorem redraw_proper (x : Executor) (ha : a.SetsField) {i : Nat} {es : List (Data × Drawing)}
    (hd : s.drawing = .mapping i es) (hproper : s.drawing.Proper) :
    (a.redraw x names s).drawing.Proper ∧
      ∃ es', (a.redraw x names s).drawing = .mapping i es' := by
  unfold redraw
  cases hredraw : a.redraw? x names s with
  | none => exact ⟨hproper, es, hd⟩
  | some s' =>
    obtain ⟨path, value, hvalue, rfl⟩ := exists_put_of_redraw hredraw
    refine ⟨hproper.put (Data.drawn_proper hnames ha.value hproper hvalue) _, ?_⟩
    rw [Option.getD_some, hd, Drawing.put]
    split
    · exact ⟨_, rfl⟩
    · exact ⟨es, rfl⟩

end Action

end

/-! ## Batches -/

/-- The mapping that an action changes stands at one place. -/
def Action.Unshared (a : Action) (s : Sketch) : Prop :=
  ∀ path mark key rest, Details.parameter a.parameters "field" = .text path →
    s.drawing.locate? (Path.split path) = some (mark, key, rest) →
      s.drawing.marks.count mark ≤ 1

/-- The mapping that an action changes stands at one place, for each action at its turn. -/
def Unshared (x : Executor) (names : List (String × Data)) : List Action → Sketch → Prop
  | [], _ => True
  | a :: rest, s => a.Unshared s ∧ Unshared x names rest (a.redraw x names s)

namespace Executor

/-- Actions that change mappings at one place, one after the other, are updates of plain data. -/
theorem redrawn_plain (x : Executor) {names : List (String × Data)}
    (hnames : ∀ p ∈ names, (Drawing.leaf p.2).Proper) {actions : List Action} {s : Sketch} {i : Nat}
    {es : List (Data × Drawing)} (hset : ∀ a ∈ actions, a.SetsField)
    (hd : s.drawing = .mapping i es) (hproper : s.drawing.Proper)
    (honce : Unshared x names actions s) :
    (x.redrawn names actions s).drawing.plain =
      actions.foldl (fun d a => (a.update? x names d).getD d) s.drawing.plain := by
  induction actions generalizing s es with
  | nil => rfl
  | cons a rest ih =>
    obtain ⟨ha, hset⟩ := List.forall_mem_cons.1 hset
    obtain ⟨hproper', es', hd'⟩ := Action.redraw_proper hnames x ha hd hproper
    have hfirst : (a.redraw x names s).drawing.plain =
        (a.update? x names s.drawing.plain).getD s.drawing.plain := by
      rw [← a.redraw_plain x hd hproper hnames honce.1, Action.redraw]
      cases a.redraw? x names s <;> rfl
    rw [redrawn, List.foldl_cons, List.foldl_cons, ← hfirst]
    exact ih hset hd' hproper' honce.2

theorem mem_of_mem_ran {x : Executor} {report : Bool} {c : Context} {actions : List Action}
    {state : EngineState} {a : Action} (ha : a ∈ x.ran report c actions state) : a ∈ actions := by
  obtain ⟨p, hp, rfl⟩ := List.mem_map.1 ha
  exact (List.of_mem_zip (List.mem_filter.1 hp).1).1

/-- **What a batch leaves that sets fields.** An entity without shared parts can be drawn with every
    mark once. If no action stores a mapping within itself, the batch comes to its end and leaves
    the fold of the updates of the drawing, in the order of execution, over the actions that are not
    skipped: a placeholder stores the very object that it leads to, so a later write into this shows
    at all of its places. If no action writes into a mapping that stands at several places, the
    entity is the fold of the updates of plain data, which store copies. -/
theorem runBatch_shows (x : Executor) (report : Bool) (c : Context) (state : EngineState) {e : Ref}
    {actions : List Action} {turns : List (Nat × Action)}
    (hx : x.handlers.get? Handler.setFieldType = some Handler.setField)
    (hentity : c.entity = .mapping e) (hids : ∀ p ∈ c.identifiers, p.2.Scalar)
    (hsolid : state.heap.Solid c.entity) (htree : state.heap.Tree [e])
    (hset : ∀ a ∈ actions, a.SetsField) (htimed : ∀ a ∈ actions, x.guardFault? a = none)
    (hturns : ordered actions = .ok turns) :
    let ran := x.ran report c (turns.map (·.2)) (state.entered (bindings c state.heap))
    (∃ refs d, state.heap.Table refs ∧ state.heap.Draws refs d c.entity ∧ d.marks.Nodup) ∧
      ∀ refs d, state.heap.Table refs → state.heap.Draws refs d c.entity →
        Untangled x c.identities ran ⟨d, refs.length⟩ →
          (∃ results, (x.runBatch report c actions state).1 = .ok results) ∧
          (x.runBatch report c actions state).2.heap.plain c.entity =
            (x.redrawn c.identities ran ⟨d, refs.length⟩).drawing.plain ∧
          (Unshared x c.identities ran ⟨d, refs.length⟩ →
            (x.runBatch report c actions state).2.heap.plain c.entity =
              ran.foldl (fun d a => (a.update? x c.identities d).getD d)
                (state.heap.plain c.entity)) := by
  intro ran
  have hroot : c.entity.refs = [e] := by rw [hentity, Value.refs]
  refine ⟨hsolid.exists_draws_once (hroot ▸ htree), fun refs d htable hd huntangled => ?_⟩
  obtain ⟨hresults, -, hplain⟩ := runBatch_draws x report c state hx hentity hids htable hd hset
    htimed hturns huntangled
  refine ⟨hresults, hplain, fun honce => hplain.trans ?_⟩
  have hnames : ∀ p ∈ c.identities, (Drawing.leaf p.2).Proper := fun p hp => by
    obtain ⟨q, hq, rfl⟩ := List.mem_map.1 hp
    exact .leaf (hids q hq)
  have hran : ∀ a ∈ ran, a.SetsField := fun a ha =>
    hset a ((ordered_snd_perm hturns).mem_iff.1 (mem_of_mem_ran ha))
  obtain ⟨i, ds, es, rfl, -⟩ := Heap.Draws.exists_entries (hentity ▸ hd)
  rw [redrawn_plain x hnames hran rfl (hd.proper hsolid) honce, hd.plain_eq]

end Executor

/-! ## A customer, a copy and a note -/

namespace Customer

/-- Writes outside the customer. -/
def annotate : Action :=
  setting "note.text" "b" 2

/-- The fields that the batch leaves: the customer once more, and a note. -/
def annotated : List (Data × Drawing) :=
  [(.text "copy", customer "a"), (.text "note", .mapping 2 [(.text "text", .leaf (.text "b"))])]

theorem solid : heap.Solid context.entity := by
  have hentity : heap.read? 0 = some (.mapping [(.text "customer", .mapping 1)]) := rfl
  have hcustomer : heap.read? 1 = some (.mapping [(.text "name", .text "a")]) := rfl
  refine .mapping hentity (by simp [Value.refs]) (by simp) (List.forall_mem_singleton.2 ?_)
  exact .mapping hcustomer (by simp [Value.refs]) (by simp)
    (List.forall_mem_singleton.2 (.scalar trivial))

theorem redraw_annotate : annotate.redraw executor context.identities
    ⟨entity "a" [(.text "copy", customer "a")], 2⟩ = ⟨entity "a" annotated, 3⟩ := by
  have hfield : "note.text".isEmpty = false := rfl
  have hx : (Data.text "b").drawn context.identities
      ⟨entity "a" [(.text "copy", customer "a")], 2⟩ = .ok ⟨.leaf (.text "b"), 2⟩ :=
    Template.drawn_literal literal_b _ _
  have hfound : (entity "a" [(.text "copy", customer "a")]).follow
      (Path.split "note.text") = .ok none := rfl
  have hlocate : (entity "a" [(.text "copy", customer "a")]).locate?
      (Path.split "note.text") = some (0, "note", ["text"]) := rfl
  rw [annotate, redraw_setting 2 hfield hx hfound, Drawing.put, hlocate]
  rfl

/-- A customer is stored in another field, and a note is written: as if the customer had been
    copied. -/
theorem annotate_shows :
    executor.handlers.get? Handler.setFieldType = some Handler.setField ∧
      (∀ p ∈ context.identifiers, p.2.Scalar) ∧ heap.Solid context.entity ∧ heap.Tree [0] ∧
      (∀ a ∈ [share, annotate], a.SetsField) ∧
      (∀ a ∈ [share, annotate], executor.guardFault? a = none) ∧
      Executor.ordered [share, annotate] = .ok [(0, share), (1, annotate)] ∧
      heap.Table [0, 1] ∧ heap.Draws [0, 1] (entity "a" []) context.entity ∧
      Untangled executor context.identities [share, annotate] ⟨entity "a" [], 2⟩ ∧
      Unshared executor context.identities [share, annotate] ⟨entity "a" [], 2⟩ ∧
      (executor.runBatch true context [share, annotate] state).2.heap.plain context.entity =
        (entity "a" annotated).plain ∧
      (entity "a" annotated).plain = [share, annotate].foldl
        (fun d a => (a.update? executor context.identities d).getD d)
        (heap.plain context.entity) := by
  have hset : ∀ a ∈ [share, annotate], a.SetsField := by
    refine List.forall_mem_cons.2 ⟨share_setsField, List.forall_mem_singleton.2 ?_⟩
    exact ⟨rfl, .literal literal_b⟩
  have hids : ∀ p ∈ context.identifiers, p.2.Scalar := by
    simp [context, Context.identifiers, Value.Scalar]
  have hturns : Executor.ordered [share, annotate] = .ok [(0, share), (1, annotate)] := rfl
  have htimed : ∀ a ∈ [share, annotate], executor.guardFault? a = none := fun a _ =>
    timesGuards.guardFault?_eq_none a
  have hran : executor.ran true context [share, annotate]
      (state.entered (Executor.bindings context state.heap)) = [share, annotate] :=
    executor.ran_of_unguarded true context
      (by simp [share, annotate, setting, Data.truth]) _
  have huntangled : Untangled executor context.identities [share, annotate] ⟨entity "a" [], 2⟩ :=
    ⟨untangled.1, Action.untangled_of_literal (a := annotate) literal_b _ _, trivial⟩
  have hunshared : Unshared executor context.identities [share, annotate]
      ⟨entity "a" [], 2⟩ := by
    refine ⟨?_, ?_, trivial⟩
    · rintro path mark key rest hfield hlocate
      cases hfield
      have hlocate : some (0, "copy", []) = some (mark, key, rest) := hlocate
      cases hlocate
      decide
    · rw [redraw_share]
      rintro path mark key rest hfield hlocate
      cases hfield
      have hlocate : some (0, "note", ["text"]) = some (mark, key, rest) := hlocate
      cases hlocate
      decide
  have hredrawn : executor.redrawn context.identities [share, annotate] ⟨entity "a" [], 2⟩ =
      ⟨entity "a" annotated, 3⟩ := by
    rw [Executor.redrawn, List.foldl_cons, List.foldl_cons, List.foldl_nil, redraw_share,
      redraw_annotate]
  obtain ⟨-, hshows⟩ := Executor.runBatch_shows executor true context state (e := 0) rfl rfl hids
    solid tree hset htimed hturns
  obtain ⟨-, hplain, hcopies⟩ := hshows [0, 1] (entity "a" []) table draws (by
    rw [List.map_cons, List.map_cons, List.map_nil, hran]
    exact huntangled)
  rw [List.map_cons, List.map_cons, List.map_nil, hran] at hplain hcopies
  have hplain := hplain.trans (congrArg (fun s => s.drawing.plain) hredrawn)
  exact ⟨rfl, hids, solid, tree, hset, htimed, hturns, table, draws, huntangled, hunshared, hplain,
    hplain.symm.trans (hcopies hunshared)⟩

end Customer

end Rulebook
