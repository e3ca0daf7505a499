/-
  The laws of reading and writing along paths.

  What is written at the end of a path is read there, whatever stood in the way.  Of two writes to
  one path the second alone counts, down to the order of entries, and writing what a path through
  mappings leads to already changes nothing.  The mappings on the way stay if they are there, and
  are new otherwise.

  * `Entries.insert_insert`, `Entries.insert_of_field?`: the laws of one entry;
  * `follow_writePath_self`, `writePath_writePath`, `writePath_self`: those of a path;
  * `follow_start`, `exists_fresh`: the mappings on the way;
  * `setPath_laws`: all of them, for a dotted text.
-/
import Rulebook.Proofs.Confinement

namespace Rulebook

/-! ## Entries -/

namespace Entries

variable {es : Entries} {s : String} {v : Value}

/-- A key that is there keeps its place. -/
theorem insert_of_mem (h : es.any fun e => e.1.sameKey (.text s)) (v : Value) :
    es.insert (.text s) v = es.map fun e => if e.1.sameKey (.text s) then (e.1, v) else e :=
  if_pos h

/-- A new key comes last. -/
theorem insert_of_not_mem (h : ¬es.any fun e => e.1.sameKey (.text s)) (v : Value) :
    es.insert (.text s) v = es ++ [(.text s, v)] :=
  if_neg h

theorem map_of_not_mem (h : ¬es.any fun e => e.1.sameKey (.text s)) (v : Value) :
    (es.map fun e => if e.1.sameKey (.text s) then (e.1, v) else e) = es := by
  rw [Bool.not_eq_true, List.any_eq_false] at h
  exact (List.map_congr_left fun e he => if_neg (h e he)).trans (List.map_id es)

theorem any_of_field? (hs : es.field? s = some v) : es.any fun e => e.1.sameKey (.text s) :=
  List.any_eq_true.2 ⟨_, mem_of_field? hs, Value.sameKey_text_iff.2 rfl⟩

/-- Of two writes to one entry the second counts. -/
theorem insert_insert (es : Entries) (s : String) (v w : Value) :
    (es.insert (.text s) v).insert (.text s) w = es.insert (.text s) w := by
  rw [insert_of_mem (any_of_field? (field?_insert_self es s v))]
  by_cases h : es.any fun e => e.1.sameKey (.text s)
  · rw [insert_of_mem h, insert_of_mem h, List.map_map]
    refine List.map_congr_left fun e _ => ?_
    simp only [Function.comp_apply]
    split <;> simp_all
  · rw [insert_of_not_mem h, insert_of_not_mem h, List.map_append, map_of_not_mem h]
    simp [Value.sameKey]

/-- Writing what an entry holds already changes nothing. -/
theorem insert_of_field? (distinct : es.Distinct) (hs : es.field? s = some v) :
    es.insert (.text s) v = es := by
  rw [insert_of_mem (any_of_field? hs)]
  induction es with
  | nil => rfl
  | cons e es ih =>
    obtain ⟨hhead, htail⟩ := List.pairwise_cons.1 distinct
    rw [field?_cons] at hs
    by_cases he : e.1.sameKey (.text s) = true
    · -- no entry behind the one that is read has its key
      have hothers : ¬es.any fun f => f.1.sameKey (.text s) := by
        rw [Bool.not_eq_true, List.any_eq_false]
        intro f hf hkey
        have hapart := hhead f hf
        rw [Value.sameKey_text_iff.1 hkey, he] at hapart
        cases hapart
      rw [if_pos he] at hs
      rw [List.map_cons, map_of_not_mem hothers, if_pos he, ← Option.some.inj hs]
    · rw [if_neg he] at hs
      rw [List.map_cons, ih htail hs, if_neg he]

end Entries

namespace Heap

variable {h : Heap} {r : Ref} {v w : Value} {s : String} {path start : List String}

/-! ## One step -/

theorem write_write (h : Heap) (r : Ref) (c d : Cell) : (h.write r c).write r d = h.write r d := by
  simp [write]

theorem writeField_writeField (hr : r < h.cells.size) :
    (h.writeField r s v).writeField r s w = h.writeField r s w := by
  rw [writeField, entries_writeField hr, Entries.insert_insert, writeField, write_write]
  rfl

theorem write_of_read {c : Cell} (hread : h.read? r = some c) : h.write r c = h := by
  obtain ⟨hlt, rfl⟩ := Array.getElem?_eq_some_iff.1 hread
  simp [write, Array.setIfInBounds_def, hlt]

theorem writeField_of_field? (distinct : (h.entries r).Distinct)
    (hs : (h.entries r).field? s = some v) : h.writeField r s v = h := by
  rw [writeField, Entries.insert_of_field? distinct hs]
  unfold entries at hs ⊢
  split at hs
  · next es hread => rw [write_of_read hread]
  · cases hs

/-- A write goes on in the mapping that its first segment leads to. -/
theorem writePath_of_field? {r' : Ref} (hs : (h.entries r).field? s = some (.mapping r'))
    (hpath : path ≠ []) : h.writePath r (s :: path) v = h.writePath r' path v := by
  rw [writePath_cons hpath, subMapping, hs]

/-- A write goes on in a new mapping if its first segment leads to none. -/
theorem writePath_of_no_mapping (hno : ∀ r', (h.entries r).field? s ≠ some (.mapping r'))
    (hpath : path ≠ []) :
    h.writePath r (s :: path) v = (h.opened r s).writePath h.cells.size path v := by
  rw [writePath_cons hpath]
  rcases subMapping_cases h r s with ⟨r', hr', -⟩ | ⟨-, heq⟩
  · exact absurd hr' (hno r')
  · rw [heq]

/-! ## The laws -/

/-- What is written is read. -/
theorem follow_writePath_self (tree : h.Tree [r]) (hpath : path ≠ []) (v : Value) :
    (h.writePath r path v).follow (.mapping r) path = .ok (some v) := by
  induction path generalizing h r with
  | nil => exact absurd rfl hpath
  | cons s rest ih =>
    rw [follow_mapping_cons]
    rcases entries_writePath tree s rest v with
      ⟨rfl, hentries⟩ | ⟨hrest, ⟨r', hr', heq, hentries⟩ | ⟨-, heq, hentries⟩⟩ <;> rw [hentries]
    · rw [Entries.field?_insert_self]
      rfl
    · rw [hr', heq]
      exact ih (tree.subMapping hr') hrest
    · rw [Entries.field?_insert_self, heq]
      exact ih (tree_empty (read_opened_new tree.root_lt)) hrest

/-- Of two writes to one path the second counts. -/
theorem writePath_writePath (tree : h.Tree [r]) (path : List String) (v w : Value) :
    (h.writePath r path v).writePath r path w = h.writePath r path w := by
  induction path generalizing h r with
  | nil => rfl
  | cons s rest ih =>
    rcases entries_writePath tree s rest v with
      ⟨rfl, -⟩ | ⟨hrest, ⟨r', hr', heq, hentries⟩ | ⟨hno, heq, hentries⟩⟩
    · exact writeField_writeField tree.root_lt
    · rw [writePath_of_field? (hentries ▸ hr') hrest, heq, writePath_of_field? hr' hrest]
      exact ih (tree.subMapping hr')
    · have hs : ((h.writePath r (s :: rest) v).entries r).field? s =
          some (.mapping h.cells.size) := by
        rw [hentries, Entries.field?_insert_self]
      rw [writePath_of_field? hs hrest, heq, writePath_of_no_mapping hno hrest]
      exact ih (tree_empty (read_opened_new tree.root_lt))

/-- A path leads through mappings to a mapping. -/
def ThroughMappings (h : Heap) (r : Ref) (path : List String) : Prop :=
  ∀ start, start <+: path → ∃ t, h.follow (.mapping r) start = .ok (some (.mapping t))

theorem throughMappings_nil : h.ThroughMappings r [] := fun start hstart =>
  ⟨r, by rw [List.prefix_nil.1 hstart]; rfl⟩

theorem throughMappings_cons :
    h.ThroughMappings r (s :: path) ↔
      ∃ r', (h.entries r).field? s = some (.mapping r') ∧ h.ThroughMappings r' path := by
  constructor
  · intro hthrough
    obtain ⟨r', hr'⟩ := hthrough [s] ⟨path, rfl⟩
    have hs : (h.entries r).field? s = some (.mapping r') := by
      rw [follow_mapping_cons] at hr'
      cases hs : (h.entries r).field? s with
      | none => rw [hs] at hr'; cases hr'
      | some u => rw [hs] at hr'; exact Except.ok.inj hr'
    refine ⟨r', hs, fun start hstart => ?_⟩
    obtain ⟨t, ht⟩ := hthrough (s :: start) (List.cons_prefix_cons.2 ⟨rfl, hstart⟩)
    rw [follow_mapping_cons, hs] at ht
    exact ⟨t, ht⟩
  · rintro ⟨r', hr', hthrough⟩ start hstart
    cases start with
    | nil => exact ⟨r, rfl⟩
    | cons s' start =>
      obtain ⟨rfl, hrest⟩ := List.cons_prefix_cons.1 hstart
      rw [follow_mapping_cons, hr']
      exact hthrough start hrest

/-- Writing what a path through mappings leads to changes nothing. -/
theorem writePath_self (distinct : ∀ t, h.Reaches [r] t → (h.entries t).Distinct)
    (hthrough : h.ThroughMappings r path.dropLast)
    (hv : h.follow (.mapping r) path = .ok (some v)) : h.writePath r path v = h := by
  induction path generalizing r with
  | nil => rfl
  | cons s rest ih =>
    rw [follow_mapping_cons] at hv
    cases rest with
    | nil =>
      refine writeField_of_field? (distinct r (.of_mem (List.mem_singleton_self r))) ?_
      cases hs : (h.entries r).field? s with
      | none => rw [hs] at hv; cases hv
      | some u => rw [hs] at hv; exact Except.ok.inj hv
    | cons s' rest =>
      rw [List.dropLast_cons_of_ne_nil (List.cons_ne_nil s' rest), throughMappings_cons] at hthrough
      obtain ⟨r', hr', hthrough⟩ := hthrough
      rw [hr'] at hv
      rw [writePath_of_field? hr' (List.cons_ne_nil s' rest)]
      exact ih (fun t ht => distinct t (reaches_of_field? hr' ht)) hthrough hv

/-! ## The mappings on the way -/

theorem exists_cons_of_prefix_dropLast {rest : List String} (hstart : start <+: (s :: rest).dropLast)
    (hne : start ≠ []) : ∃ start', start = s :: start' ∧ rest ≠ [] ∧ start' <+: rest.dropLast := by
  obtain ⟨s', start', rfl⟩ := List.exists_cons_of_ne_nil hne
  cases rest with
  | nil => exact absurd (List.prefix_nil.1 hstart) hne
  | cons u rest =>
    rw [List.dropLast_cons_of_ne_nil (List.cons_ne_nil u rest), List.cons_prefix_cons] at hstart
    obtain ⟨rfl, hstart⟩ := hstart
    exact ⟨start', rfl, List.cons_ne_nil u rest, hstart⟩

/-- The mappings on the way of a write stay. -/
theorem follow_start (tree : h.Tree [r]) (hstart : start <+: path.dropLast)
    (hthrough : h.ThroughMappings r start) (v : Value) :
    (h.writePath r path v).follow (.mapping r) start = h.follow (.mapping r) start := by
  induction path generalizing r start with
  | nil => rfl
  | cons s rest ih =>
    by_cases hne : start = []
    · rw [hne]
      rfl
    obtain ⟨start, rfl, hrest, hstart⟩ := exists_cons_of_prefix_dropLast hstart hne
    obtain ⟨r', hr', hthrough⟩ := throughMappings_cons.1 hthrough
    have hkept : ((h.writePath r (s :: rest) v).entries r).field? s = some (.mapping r') := by
      rcases entries_writePath tree s rest v with ⟨hnil, -⟩ | ⟨-, ⟨-, -, -, he⟩ | ⟨hno, -⟩⟩
      · exact absurd hnil hrest
      · rw [he, hr']
      · exact absurd hr' (hno r')
    rw [follow_mapping_cons, follow_mapping_cons, hkept, hr', writePath_of_field? hr' hrest]
    exact ih (tree.subMapping hr') hstart hthrough

/-- Where a write finds no mapping on its way there is a new one after it, which holds what comes
    next on the way and nothing else. -/
theorem exists_fresh (tree : h.Tree [r]) (hstart : start <+: path.dropLast)
    (hnot : ¬h.ThroughMappings r start) (v : Value) :
    ∃ t s u, (h.writePath r path v).follow (.mapping r) start = .ok (some (.mapping t)) ∧
      h.cells.size ≤ t ∧ start ++ [s] <+: path ∧
      (h.writePath r path v).entries t = [(.text s, u)] := by
  induction path generalizing h r start with
  | nil => exact absurd (List.prefix_nil.1 hstart ▸ throughMappings_nil) hnot
  | cons s rest ih =>
    obtain ⟨start, rfl, hrest, hstart⟩ :=
      exists_cons_of_prefix_dropLast hstart fun hnil => hnot (hnil ▸ throughMappings_nil)
    simp only [List.cons_append, List.cons_prefix_cons, true_and, follow_mapping_cons]
    rcases entries_writePath tree s rest v with
      ⟨hnil, -⟩ | ⟨-, ⟨r', hr', heq, hentries⟩ | ⟨hno, heq, hentries⟩⟩
    · exact absurd hnil hrest
    · rw [hentries, hr', heq]
      exact ih (tree.subMapping hr') hstart fun h' => hnot (throughMappings_cons.2 ⟨r', hr', h'⟩)
    · rw [hentries, Entries.field?_insert_self, heq]
      have hnew := read_opened_new (s := s) tree.root_lt
      obtain ⟨s', rest, rfl⟩ := List.exists_cons_of_ne_nil hrest
      cases start with
      | nil =>
        -- the first new mapping
        refine ⟨h.cells.size, s', ?_⟩
        rcases entries_writePath (tree_empty hnew) s' rest v with
          ⟨-, he⟩ | ⟨-, ⟨r', hr', -⟩ | ⟨-, -, he⟩⟩
        · exact ⟨_, rfl, Nat.le_refl _, by simp, he.trans (by rw [entries_of_read hnew]; rfl)⟩
        · rw [entries_of_read hnew] at hr'
          cases hr'
        · exact ⟨_, rfl, Nat.le_refl _, by simp, he.trans (by rw [entries_of_read hnew]; rfl)⟩
      | cons u start =>
        have hnone : ¬(h.opened r s).ThroughMappings h.cells.size (u :: start) := fun h' => by
          obtain ⟨r', hr', -⟩ := throughMappings_cons.1 h'
          rw [entries_of_read hnew] at hr'
          cases hr'
        obtain ⟨t, s'', w, hfollow, hle, hpath, he⟩ := ih (tree_empty hnew) hstart hnone
        refine ⟨t, s'', w, hfollow, ?_, hpath, he⟩
        rw [size_opened] at hle
        omega

/-! ## Dotted texts -/

/-- **Reading and writing along a path obey the laws of a lens.** In an entity whose objects form a
    tree, a write succeeds along every path, whatever lies on its way, and what it wrote is read
    there.  A second write to the path leaves the heap as if it were the only one.  If the path leads
    through mappings to a value, writing that value leaves the heap as it is.  The mappings on the
    way stay; where there is none, a new one is put, which holds the next part of the way alone. -/
theorem setPath_laws {h : Heap} {r : Ref} (tree : h.Tree [r])
    (distinct : ∀ t, h.Reaches [r] t → (h.entries t).Distinct) (p : String) (v w : Value) :
    ∃ h', h.setPath (.mapping r) (Path.split p) v = .ok h' ∧
      h'.follow (.mapping r) (Path.split p) = .ok (some v) ∧
      h'.setPath (.mapping r) (Path.split p) w = h.setPath (.mapping r) (Path.split p) w ∧
      (h.ThroughMappings r (Path.split p).dropLast →
        h.follow (.mapping r) (Path.split p) = .ok (some v) → h' = h) ∧
      ∀ start, start <+: (Path.split p).dropLast →
        (h.ThroughMappings r start → h'.follow (.mapping r) start = h.follow (.mapping r) start) ∧
        (¬h.ThroughMappings r start →
          ∃ t s u, h'.follow (.mapping r) start = .ok (some (.mapping t)) ∧ h.cells.size ≤ t ∧
            start ++ [s] <+: Path.split p ∧ h'.entries t = [(.text s, u)]) :=
  ⟨h.writePath r (Path.split p) v, rfl, follow_writePath_self tree (Path.split_ne_nil p) v,
    congrArg Except.ok (writePath_writePath tree (Path.split p) v w),
    fun hthrough hv => writePath_self distinct hthrough hv, fun _ hstart =>
    ⟨fun hthrough => follow_start tree hstart hthrough v,
      fun hnot => exists_fresh tree hstart hnot v⟩⟩

theorem setPath_laws_customer :
    let h : Heap := ⟨#[.mapping [(.text "address", .mapping 1), (.text "total", .int 3)],
      .mapping [(.text "city", .text "Bonn")]]⟩
    h.Tree [0] ∧ (∀ t, h.Reaches [0] t → (h.entries t).Distinct) ∧
      h.setPath (.mapping 0) (Path.split "address.city") (.text "Bonn") = .ok h ∧
      ∃ h' t u, h.setPath (.mapping 0) (Path.split "total.net") (.int 2) = .ok h' ∧
        h'.follow (.mapping 0) ["total", "net"] = .ok (some (.int 2)) ∧
        h'.follow (.mapping 0) ["total"] = .ok (some (.mapping t)) ∧
        2 ≤ t ∧ h'.entries t = [(.text "net", u)] := by
  intro h
  have held_root : h.held 0 = [1] := by simp [h, held, read?, Cell.refs, Value.refs]
  have held_address : h.held 1 = [] := by simp [h, held, read?, Cell.refs, Value.refs]
  have reaches (t : Ref) (ht : h.Reaches [0] t) : t = 0 ∨ t = 1 := by
    simpa [Reaches.singleton_iff, held_root, held_address, Reaches.not_nil] using ht
  have tree : h.Tree [0] := by
    refine .of_held (by simp [h]) (held_root ▸ .of_leaf (by simp [h]) held_address) ?_
    simp [held_root, Reaches.singleton_iff, held_address, Reaches.not_nil]
  have distinct (t : Ref) (ht : h.Reaches [0] t) : (h.entries t).Distinct := by
    rcases reaches t ht with rfl | rfl <;>
      simp [h, entries, read?, Entries.Distinct, Value.sameKey]
  have haddress : Path.split "address.city" = ["address", "city"] := by decide
  have htotal : Path.split "total.net" = ["total", "net"] := by decide
  refine ⟨tree, distinct, ?_, ?_⟩
  · obtain ⟨h', hset, -, -, hself, -⟩ := setPath_laws tree distinct "address.city" (.text "Bonn") .null
    rw [haddress] at hself hset ⊢
    rw [hset, hself (throughMappings_cons.2 ⟨1, rfl, throughMappings_nil⟩) rfl]
  · obtain ⟨h', hset, hread, -, -, hway⟩ := setPath_laws tree distinct "total.net" (.int 2) .null
    rw [htotal] at hway hread
    have hnot : ¬h.ThroughMappings 0 ["total"] := fun hthrough => by
      obtain ⟨r', hr', -⟩ := throughMappings_cons.1 hthrough
      cases hr'
    obtain ⟨t, s, u, hfollow, hle, hs, hentries⟩ := (hway ["total"] (by decide)).2 hnot
    obtain rfl : s = "net" := by simpa using hs
    exact ⟨h', t, u, hset, hread, hfollow, hle, hentries⟩

end Heap

end Rulebook
