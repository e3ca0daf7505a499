/-
  Writing along a path, as an update of drawings.

  A write changes one mapping that is there, the last one on its path, and makes new ones below it.
  The change shows wherever that mapping stands, so it is a change of every drawing: the mapping of
  one mark gets an entry, at all of its places.

  * `Heap.Table`: the objects that marks are of;
  * `Draws.change`: an entry is written into one mapping;
  * `writePath_draws`: a write changes all drawings;
  * `Draws.put`: what a value is drawn as that is written to.
-/
import Rulebook.Proofs.Update.Drawings

namespace Rulebook

theorem Data.equal_text_iff {d : Data} {name : String} :
    d.equal (.text name) = true ↔ d = .text name := by
  cases d <;> simp [equal, equalNumber]

namespace Drawing

variable {i j : Nat} {name s : String} {rest : List String} {x y : Drawing}
  {es fs : List (Data × Drawing)}

theorem field?_cons (e : Data × Drawing) (es : List (Data × Drawing)) (name : String) :
    field? (e :: es) name = if e.1.equal (.text name) then some e.2 else field? es name := by
  unfold field?
  rw [List.find?_cons]
  cases e.1.equal (.text name) <;> rfl

theorem locate?_of_mapping (hfield : field? es name = some (mapping j fs)) (hrest : rest ≠ []) :
    (mapping i es).locate? (name :: rest) = (mapping j fs).locate? rest := by
  cases rest with
  | nil => exact absurd rfl hrest
  | cons s rest => simp only [locate?, hfield]

theorem locate?_of_not (hno : ¬(rest ≠ [] ∧ ∃ j fs, field? es name = some (mapping j fs))) :
    (mapping i es).locate? (name :: rest) = some (i, name, rest) := by
  cases rest with
  | nil => simp only [locate?]
  | cons s rest =>
    simp only [locate?]
    split
    · next hfield => exact absurd ⟨List.cons_ne_nil s rest, _, _, hfield⟩ hno
    · rfl

theorem locate?_of_ne (hno : ∀ j fs, field? es name ≠ some (mapping j fs)) :
    (mapping i es).locate? (name :: rest) = some (i, name, rest) :=
  locate?_of_not fun ⟨_, j, fs, hfield⟩ => hno j fs hfield

/-- A path in a mapping leads to a mapping that a write changes. -/
theorem exists_locate (i : Nat) (es : List (Data × Drawing)) {path : List String}
    (hpath : path ≠ []) :
    ∃ mark key rest, (mapping i es).locate? path = some (mark, key, rest) := by
  induction path generalizing i es with
  | nil => exact absurd rfl hpath
  | cons name path ih =>
    by_cases hmapping : path ≠ [] ∧ ∃ j fs, field? es name = some (mapping j fs)
    · obtain ⟨hne, j, fs, hfield⟩ := hmapping
      rw [locate?_of_mapping hfield hne]
      exact ih j fs hne
    · exact ⟨i, name, path, locate?_of_not hmapping⟩

theorem mem_marks_of_field (hfield : field? es name = some x) (hi : i ∈ x.marks) :
    i ∈ marksEntries es := by
  obtain ⟨e, he, rfl⟩ := Option.map_eq_some_iff.1 hfield
  rw [marksEntries_eq]
  exact List.mem_flatMap.2 ⟨e, List.mem_of_find?_eq_some he, hi⟩

/-- The mapping that a write changes is drawn. -/
theorem mem_marks_of_locate {d : Drawing} {path : List String} {mark : Nat} {key : String}
    (hlocate : d.locate? path = some (mark, key, rest)) : mark ∈ d.marks := by
  induction path generalizing d with
  | nil => cases d <;> cases hlocate
  | cons name path ih =>
    cases d with
    | mapping i es =>
      by_cases hmapping : path ≠ [] ∧ ∃ j fs, field? es name = some (mapping j fs)
      · obtain ⟨hne, j, fs, hfield⟩ := hmapping
        rw [locate?_of_mapping hfield hne] at hlocate
        exact List.mem_cons_of_mem _ (mem_marks_of_field hfield (ih hlocate))
      · rw [locate?_of_not hmapping] at hlocate
        cases hlocate
        exact List.mem_cons_self
    | _ => cases hlocate

theorem changeEntries_insert : changeEntries (insert es name x) i s y =
    insert (changeEntries es i s y) name (x.change i s y) := by
  have hany : ((changeEntries es i s y).any fun e => e.1.equal (.text name)) =
      es.any fun e => e.1.equal (.text name) := by
    rw [changeEntries_eq, List.any_map]
    rfl
  unfold insert
  rw [hany]
  split_ifs
  · simp only [changeEntries_eq, List.map_map]
    refine List.map_congr_left fun e _ => ?_
    simp only [Function.comp_apply]
    split_ifs <;> rfl
  · simp only [changeEntries_eq, List.map_append, List.map_cons, List.map_nil]

end Drawing

namespace Heap

variable {h h' : Heap} {refs refs' : List Ref} {d x : Drawing} {v w : Value} {r : Ref}
  {i : Nat} {name : String} {ds : List (Data × Drawing)} {es : Entries}

/-! ## Tables -/

/-- The objects that marks are of: all different, and none missing. -/
structure Table (h : Heap) (refs : List Ref) : Prop where
  nodup : refs.Nodup
  live : ∀ r ∈ refs, r < h.cells.size

/-- A table with more objects, so many that a mark is the first that is free. -/
structure Continues (h : Heap) (refs refs' : List Ref) (next : Nat) : Prop where
  table : h.Table refs'
  starts : refs <+: refs'
  free : refs'.length = next

namespace Table

theorem mono (ht : h.Table refs) (hsize : h.cells.size ≤ h'.cells.size) : h'.Table refs :=
  ⟨ht.nodup, fun r hr => Nat.lt_of_lt_of_le (ht.live r hr) hsize⟩

theorem refl (ht : h.Table refs) : h.Continues refs refs refs.length :=
  ⟨ht, List.prefix_rfl, rfl⟩

/-- A new object gets the next mark. -/
theorem snoc (ht : h.Table refs) (hr : h.cells.size ≤ r) (hr' : r < h'.cells.size) :
    h'.Continues refs (refs ++ [r]) (refs.length + 1) where
  table := by
    refine ⟨List.nodup_append.2 ⟨ht.nodup, List.nodup_singleton r, fun s hs t ht' => ?_⟩, ?_⟩
    · rw [List.mem_singleton.1 ht']
      exact Nat.ne_of_lt (Nat.lt_of_lt_of_le (ht.live s hs) hr)
    · intro s hs
      rcases List.mem_append.1 hs with hs | hs
      · exact Nat.lt_trans (Nat.lt_of_lt_of_le (ht.live s hs) hr) hr'
      · rwa [List.mem_singleton.1 hs]
  starts := List.prefix_append refs [r]
  free := by simp

/-- An object has one mark. -/
theorem mark_unique (ht : h.Table refs) {j : Nat} (hi : refs[i]? = some r)
    (hj : refs[j]? = some r) : i = j :=
  (List.getElem?_inj (List.getElem?_eq_some_iff.1 hi).1 ht.nodup).1 (hi.trans hj.symm)

end Table

namespace Continues

variable {next : Nat}

theorem trans {refs'' : List Ref} {next' : Nat} (hc : h.Continues refs refs' next)
    (hc' : h'.Continues refs' refs'' next') : h'.Continues refs refs'' next' :=
  ⟨hc'.table, hc.starts.trans hc'.starts, hc'.free⟩

theorem mono (hc : h.Continues refs refs' next) (hsize : h.cells.size ≤ h'.cells.size) :
    h'.Continues refs refs' next :=
  ⟨hc.table.mono hsize, hc.starts, hc.free⟩

end Continues

/-- A mark of a drawing is in the table. -/
theorem Draws.lt_of_mem_marks (hs : h.Draws refs d v) (hi : i ∈ d.marks) : i < refs.length := by
  induction hs using parts with
  | leaf v hv => cases hi
  | tuple ds vs hs ih =>
    rw [Drawing.marks, Drawing.marksAll_eq] at hi
    obtain ⟨d, hd, hi⟩ := List.mem_flatMap.1 hi
    obtain ⟨v, -, -, hlt⟩ := exists_of_mem_right ih.flip hd
    exact hlt hi
  | list r ds vs hr hs ih =>
    rw [Drawing.marks, Drawing.marksAll_eq] at hi
    obtain ⟨d, hd, hi⟩ := List.mem_flatMap.1 hi
    obtain ⟨v, -, -, hlt⟩ := exists_of_mem_right ih.flip hd
    exact hlt hi
  | mapping j r ds es hj hr hs ih =>
    rw [Drawing.marks, Drawing.marksEntries_eq] at hi
    rcases List.mem_cons.1 hi with rfl | hi
    · exact (List.getElem?_eq_some_iff.1 hj).1
    · obtain ⟨d, hd, hi⟩ := List.mem_flatMap.1 hi
      obtain ⟨e, -, -, -, hlt⟩ := exists_of_mem_right ih.flip hd
      exact hlt hi

/-! ## Entries -/

/-- What a field is drawn as. -/
theorem field?_draws (hs : List.Forall₂ (h.DrawsEntry refs) ds es) (name : String) :
    (es.field? name = none ∧ Drawing.field? ds name = none) ∨
      ∃ v d, es.field? name = some v ∧ Drawing.field? ds name = some d ∧ h.Draws refs d v := by
  induction hs with
  | nil => exact .inl ⟨rfl, rfl⟩
  | @cons d e ds es hd _ ih =>
    rw [Entries.field?_cons, Drawing.field?_cons]
    by_cases hkey : e.1 = .text name
    · rw [if_pos (Value.sameKey_text_iff.2 hkey),
        if_pos (Data.equal_text_iff.2 (hd.key.text_iff.1 hkey))]
      exact .inr ⟨_, _, rfl, rfl, hd.value⟩
    · rw [if_neg fun h => hkey (Value.sameKey_text_iff.1 h),
        if_neg fun h => hkey (hd.key.text_iff.2 (Data.equal_text_iff.1 h))]
      exact ih

theorem insert_draws (hs : List.Forall₂ (h.DrawsEntry refs) ds es) (hx : h.Draws refs x v)
    (name : String) : List.Forall₂ (h.DrawsEntry refs) (Drawing.insert ds name x)
      (es.insert (.text name) v) := by
  have hsame {d : Data × Drawing} {e : Value × Value} (hd : h.DrawsEntry refs d e) :
      d.1.equal (.text name) = e.1.sameKey (.text name) := by
    rw [Bool.eq_iff_iff, Data.equal_text_iff, Value.sameKey_text_iff, hd.key.text_iff]
  have hany : (ds.any fun d => d.1.equal (.text name)) =
      es.any fun e => e.1.sameKey (.text name) := by
    induction hs with
    | nil => rfl
    | cons hd _ ih => rw [List.any_cons, List.any_cons, ih, hsame hd]
  unfold Drawing.insert Entries.insert
  rw [hany]
  split_ifs
  · rw [List.forall₂_map_left_iff, List.forall₂_map_right_iff]
    refine hs.imp fun d e hd => ?_
    rw [hsame hd]
    split_ifs
    · exact ⟨hd.key, hx⟩
    · exact hd
  · exact List.rel_append hs (.cons ⟨⟨rfl, rfl⟩, hx⟩ .nil)

/-! ## Changes -/

namespace Draws

/-- **An entry that is written into a mapping shows at all of its places.** -/
theorem change (htable : h'.Table refs) (hi : refs[i]? = some r)
    (hr : h.read? r = some (.mapping es))
    (hr' : h'.read? r = some (.mapping (es.insert (.text name) w)))
    (hrest : ∀ t, t < h.cells.size → t ≠ r → h'.read? t = h.read? t) (hx : h'.Draws refs x w)
    (hs : h.Draws refs d v) : h'.Draws refs (d.change i name x) v := by
  induction hs using parts with
  | leaf v hv => exact .leaf hv
  | tuple ds vs _ ih =>
    rw [Drawing.change, Drawing.changeAll_eq]
    refine .tuple ?_
    rw [List.forall₂_map_left_iff]
    exact ih.imp fun _ _ ⟨_, hd⟩ => hd
  | list s ds vs hs _ ih =>
    have hne : s ≠ r := by
      rintro rfl
      cases hs.symm.trans hr
    rw [Drawing.change, Drawing.changeAll_eq]
    refine .list ((hrest s (lt_of_read hs) hne).trans hs) ?_
    rw [List.forall₂_map_left_iff]
    exact ih.imp fun _ _ ⟨_, hd⟩ => hd
  | mapping j s ds es' hj hs _ ih =>
    have hentries : List.Forall₂ (h'.DrawsEntry refs) (Drawing.changeEntries ds i name x) es' := by
      rw [Drawing.changeEntries_eq, List.forall₂_map_left_iff]
      exact ih.imp fun _ _ ⟨hkey, _, hd⟩ => ⟨hkey, hd⟩
    rw [Drawing.change]
    split_ifs with heq
    · subst heq
      obtain rfl : s = r := Option.some.inj (hj.symm.trans hi)
      obtain rfl : es' = es := Cell.mapping.inj (Option.some.inj (hs.symm.trans hr))
      exact .of_entries hj hr' (insert_draws hentries hx name)
    · have hne : s ≠ r := by
        rintro rfl
        exact heq (htable.mark_unique hj hi)
      exact .of_entries hj ((hrest s (lt_of_read hs) hne).trans hs) hentries

/-- Writing a new mapping into another and then an entry into it is writing it with the entry. -/
theorem change_change (hs : h.Draws refs d v) {n : Nat} (hn : refs.length ≤ n) (s : String)
    (y : Drawing) : (d.change i name (.mapping n [])).change n s y =
      d.change i name (.mapping n [(.text s, y)]) := by
  induction hs using parts with
  | leaf v hv => rfl
  | tuple ds vs _ ih =>
    simp only [Drawing.change, Drawing.changeAll_eq, List.map_map]
    refine congrArg Drawing.tuple (List.map_congr_left fun d hd => ?_)
    obtain ⟨v, -, -, hv⟩ := exists_of_mem_right ih.flip hd
    exact hv
  | list r ds vs _ _ ih =>
    simp only [Drawing.change, Drawing.changeAll_eq, List.map_map]
    refine congrArg Drawing.list (List.map_congr_left fun d hd => ?_)
    obtain ⟨v, -, -, hv⟩ := exists_of_mem_right ih.flip hd
    exact hv
  | mapping j r ds es hj _ _ ih =>
    have hne : j ≠ n := Nat.ne_of_lt (Nat.lt_of_lt_of_le (List.getElem?_eq_some_iff.1 hj).1 hn)
    have hparts : Drawing.changeEntries (Drawing.changeEntries ds i name (.mapping n [])) n s y =
        Drawing.changeEntries ds i name (.mapping n [(.text s, y)]) := by
      simp only [Drawing.changeEntries_eq, List.map_map]
      refine List.map_congr_left fun d hd => ?_
      obtain ⟨e, -, -, -, he⟩ := exists_of_mem_right ih.flip hd
      exact congrArg (Prod.mk d.1) he
    have hnew : (Drawing.mapping n []).change n s y = .mapping n [(.text s, y)] := by
      rw [Drawing.change, if_pos rfl]
      rfl
    simp only [Drawing.change, if_neg hne]
    split_ifs
    · rw [Drawing.changeEntries_insert, hparts, hnew]
    · rw [hparts]

end Draws

/-! ## Writes -/

/-- A write goes into the mapping that it starts from, goes on in one that is there, or in a new
    one. -/
theorem writePath_cases (h : Heap) (r : Ref) (name : String) (rest : List String) (v : Value) :
    (rest = [] ∧ h.writePath r (name :: rest) v = h.writeField r name v) ∨
      (∃ r', (h.entries r).field? name = some (.mapping r') ∧ rest ≠ [] ∧
        h.writePath r (name :: rest) v = h.writePath r' rest v) ∨
      (∀ r', (h.entries r).field? name ≠ some (.mapping r')) ∧ rest ≠ [] ∧
        h.writePath r (name :: rest) v = (h.opened r name).writePath h.cells.size rest v := by
  cases rest with
  | nil => exact .inl ⟨rfl, rfl⟩
  | cons s rest =>
    rw [writePath_cons (List.cons_ne_nil s rest)]
    rcases subMapping_cases h r name with ⟨r', hr', hsub⟩ | ⟨hno, hsub⟩ <;> rw [hsub]
    · exact .inr (.inl ⟨r', hr', List.cons_ne_nil s rest, rfl⟩)
    · exact .inr (.inr ⟨hno, List.cons_ne_nil s rest, rfl⟩)

theorem read_opened_self (hr : h.read? r = some (.mapping es)) :
    (h.opened r name).read? r =
      some (.mapping (es.insert (.text name) (.mapping h.cells.size))) := by
  have hlt := lt_of_read hr
  have hlt' : r < (h.alloc (.mapping [])).2.cells.size := by
    simpa [alloc] using Nat.lt_succ_of_lt hlt
  rw [← entries_of_read hr, ← entries_congr (read_alloc_of_lt h (.mapping []) hlt)]
  exact read_write_self _ _ hlt'

section

variable (htable : h.Table refs) (hi : refs[i]? = some r) (hr : h.read? r = some (.mapping es))

include htable hi hr

/-- What does not hold a mapping is drawn the same when that is changed. -/
theorem Draws.of_not_mem_marks (hs : h.Draws refs d v) (hmark : i ∉ d.marks)
    (hpre : refs <+: refs') (hrest : ∀ t, t < h.cells.size → t ≠ r → h'.read? t = h.read? t) :
    h'.Draws refs' d v := by
  refine hs.congr hpre fun t ht => hrest t (hs.lt_of_reaches ht) ?_
  rintro rfl
  obtain ⟨j, hj, hjt⟩ := hs.mem_marks ht hr
  exact hmark (htable.mark_unique hi hjt ▸ hj)

/-- A value that is written into a field. -/
theorem writeField_draws (name : String) (hx : h.Draws refs x v) (hmark : i ∉ x.marks) :
    (h.writeField r name v).Table refs ∧ ∀ d w, h.Draws refs d w →
      (h.writeField r name v).Draws refs (d.change i name x) w := by
  have hlt := lt_of_read hr
  have htable' : (h.writeField r name v).Table refs :=
    htable.mono (Nat.le_of_eq size_writeField.symm)
  have hrest (t : Ref) (_ : t < h.cells.size) (hne : t ≠ r) :
      (h.writeField r name v).read? t = h.read? t := read_writeField_of_ne hne
  have hx' := hx.of_not_mem_marks htable hi hr hmark List.prefix_rfl hrest
  have hwritten : (h.writeField r name v).read? r =
      some (.mapping (es.insert (.text name) v)) := by
    rw [← entries_of_read hr]
    exact read_write_self h _ hlt
  exact ⟨htable', fun d w hd => Draws.change htable' hi hr hwritten hrest hx' hd⟩

/-- A new mapping in a field, with the next mark. -/
theorem opened_draws (name : String) :
    (h.opened r name).Continues refs (refs ++ [h.cells.size]) (refs.length + 1) ∧
      (h.opened r name).Draws (refs ++ [h.cells.size]) (.mapping refs.length [])
        (.mapping h.cells.size) ∧
      ∀ d w, h.Draws refs d w → (h.opened r name).Draws (refs ++ [h.cells.size])
        (d.change i name (.mapping refs.length [])) w := by
  have hlt := lt_of_read hr
  have hcontinues : (h.opened r name).Continues refs (refs ++ [h.cells.size])
      (refs.length + 1) :=
    htable.snoc (Nat.le_refl _) (by rw [size_opened]; exact Nat.lt_succ_self _)
  have hempty : (h.opened r name).Draws (refs ++ [h.cells.size]) (.mapping refs.length [])
      (.mapping h.cells.size) :=
    .of_entries List.getElem?_concat_length (read_opened_new hlt) .nil
  have hi' : (refs ++ [h.cells.size])[i]? = some r := by
    rw [List.getElem?_append_left (List.getElem?_eq_some_iff.1 hi).1, hi]
  refine ⟨hcontinues, hempty, fun d w hd => ?_⟩
  exact Draws.change hcontinues.table hi' hr (read_opened_self hr)
    (fun t ht hne => read_opened_of_ne ht hne) hempty (hd.congr hcontinues.starts fun _ _ => rfl)

end

/-- What is no mapping is none in a drawing. -/
theorem field?_ne_mapping (hs : List.Forall₂ (h.DrawsEntry refs) ds es)
    (hno : ∀ r', es.field? name ≠ some (.mapping r')) (j : Nat) (fs : List (Data × Drawing)) :
    Drawing.field? ds name ≠ some (.mapping j fs) := by
  rcases field?_draws hs name with ⟨-, hnone⟩ | ⟨w, d', hw, hfield, hd'⟩
  · rw [hnone]
    nofun
  · rintro hmapping
    cases hfield.symm.trans hmapping
    cases hd' with
    | mapping => exact hno _ hw

/-- **A write along a path changes all drawings alike**, if the value that it stores does not hold
    the mapping that is changed. -/
theorem writePath_draws {path : List String} {mark : Nat} {key : String} {rest : List String}
    (htable : h.Table refs) (hd : h.Draws refs (.mapping i ds) (.mapping r))
    (hx : h.Draws refs x v)
    (hlocate : (Drawing.mapping i ds).locate? path = some (mark, key, rest))
    (hmark : mark ∉ x.marks) :
    ∃ refs', (h.writePath r path v).Continues refs refs' (refs.length + rest.length) ∧
      ∀ d w, h.Draws refs d w → (h.writePath r path v).Draws refs'
        (d.change mark key (Drawing.nested refs.length rest x)) w := by
  induction path generalizing h refs r i ds mark key rest with
  | nil => cases hlocate
  | cons name path ih =>
    obtain ⟨i', ds', es, heq, hi, hr, hs⟩ := hd.exists_entries
    cases heq
    have hentries := entries_of_read hr
    rcases writePath_cases h r name path v with
      ⟨rfl, heq⟩ | ⟨r', hr', hpath, heq⟩ | ⟨hno, hpath, heq⟩ <;> rw [heq]
    · -- the value is written into this mapping
      obtain ⟨rfl, rfl, rfl⟩ : i = mark ∧ name = key ∧ [] = rest := by
        simpa [Drawing.locate?] using hlocate
      obtain ⟨htable', hdraws⟩ := writeField_draws htable hi hr name hx hmark
      exact ⟨refs, htable'.refl, hdraws⟩
    · -- the write goes on in a mapping that is there
      rw [hentries] at hr'
      rcases field?_draws hs name with ⟨hnone, -⟩ | ⟨w, d', hw, hfield, hd'⟩
      · cases hnone.symm.trans hr'
      cases hw.symm.trans hr'
      obtain ⟨j, fs, -, rfl, -⟩ := hd'.exists_entries
      rw [Drawing.locate?_of_mapping hfield hpath] at hlocate
      exact ih htable hd' hx hlocate hmark
    · -- the write goes on in a new mapping
      obtain ⟨s, path, rfl⟩ := List.exists_cons_of_ne_nil hpath
      rw [Drawing.locate?_of_ne (field?_ne_mapping hs fun r' => hentries ▸ hno r')] at hlocate
      obtain ⟨rfl, rfl, rfl⟩ : i = mark ∧ name = key ∧ s :: path = rest := by
        simpa using hlocate
      obtain ⟨hcontinues, hempty, hopened⟩ := opened_draws htable hi hr name
      have hx' := hx.of_not_mem_marks htable hi hr hmark hcontinues.starts
        fun t ht hne => read_opened_of_ne (s := name) ht hne
      have hfresh : refs.length ∉ x.marks := fun hmem =>
        Nat.lt_irrefl _ (hx.lt_of_mem_marks hmem)
      obtain ⟨refs', hcontinues', hdraws⟩ := ih hcontinues.table hempty hx'
        (Drawing.locate?_of_ne nofun) hfresh
      rw [hcontinues.free] at hcontinues' hdraws
      refine ⟨refs', ?_, fun d w hd => ?_⟩
      · rw [List.length_cons, Nat.add_comm path.length, ← Nat.add_assoc]
        exact hcontinues.trans hcontinues'
      · rw [Drawing.nested, ← hd.change_change (Nat.le_refl _)]
        exact hdraws _ w (hopened d w hd)

/-- **A write along a path is one in the drawing.** -/
theorem Draws.put {path : List String} {s : Sketch} (htable : h.Table refs)
    (hd : h.Draws refs d (.mapping r)) (hx : h.Draws refs s.drawing v)
    (hnext : refs.length = s.next) (hpath : path ≠ [])
    (hmark : ∀ i name rest, d.locate? path = some (i, name, rest) → i ∉ s.drawing.marks) :
    ∃ refs', (h.writePath r path v).Continues refs refs' (d.put path s).next ∧
      (h.writePath r path v).Draws refs' (d.put path s).drawing (.mapping r) := by
  obtain ⟨i, ds, es, rfl, -⟩ := hd.exists_entries
  obtain ⟨mark, key, rest, hlocate⟩ := Drawing.exists_locate i ds hpath
  obtain ⟨refs', hcontinues, hdraws⟩ :=
    writePath_draws htable hd hx hlocate (hmark _ _ _ hlocate)
  rw [Drawing.put, hlocate, ← hnext]
  exact ⟨refs', hcontinues, hdraws _ _ hd⟩

end Heap

end Rulebook
