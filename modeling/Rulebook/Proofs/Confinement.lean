/-
  Writing along a path changes what the path addresses.

  A write goes down through mappings; where it meets none, it puts a new one.  In an entity whose
  objects form a tree, a path that goes another way at some segment leads to what it led to before,
  and that stands for the same data, unless both paths run through a list or tuple together: the
  write puts a mapping in its place, and no other path leads anywhere through it any more.

  * `field?_insert_self`, `field?_insert_of_ne`: entries of mappings;
  * `follow_congr`: reading in heaps that agree;
  * `read_writePath`, `entries_writePath`: what a write changes;
  * `follow_writePath`, `setPath_confined`: what other paths lead to.
-/
import Rulebook.Path
import Rulebook.Proofs.Tree

namespace Rulebook

/-! ## Entries -/

theorem Value.sameKey_text_iff {k : Value} {s : String} :
    k.sameKey (.text s) = true ↔ k = .text s := by
  cases k <;> simp [Value.sameKey, Value.plain, Data.equal, Data.equalNumber]

/-- A value is a list or tuple. -/
def Value.HasItems : Value → Prop
  | .list _ | .tuple _ => True
  | _ => False

namespace Entries

/-- No two entries of a mapping have the same key. -/
def Distinct (es : Entries) : Prop :=
  es.Pairwise fun a b => a.1.sameKey b.1 = false

variable {es : Entries} {s t : String} {v w : Value}

theorem mem_of_field? (h : es.field? s = some v) : (.text s, v) ∈ es := by
  obtain ⟨e, he, rfl⟩ := Option.map_eq_some_iff.1 h
  have hkey := List.find?_some he
  rw [← Value.sameKey_text_iff.1 hkey]
  exact List.mem_of_find?_eq_some he

theorem field?_cons (e : Value × Value) (es : Entries) (s : String) :
    field? (e :: es) s = if e.1.sameKey (.text s) then some e.2 else field? es s := by
  simp only [field?, get?, List.find?_cons]
  split <;> simp_all

theorem field?_append_of_none {es : Entries} (h : (es.any fun e => e.1.sameKey (.text s)) = false)
    (fs : Entries) : field? (es ++ fs) s = field? fs s := by
  induction es with
  | nil => rfl
  | cons e es ih =>
    simp only [List.any_cons, Bool.or_eq_false_iff] at h
    rw [List.cons_append, field?_cons, h.1, ih h.2]
    rfl

theorem field?_insert_self (es : Entries) (s : String) (v : Value) :
    (es.insert (.text s) v).field? s = some v := by
  unfold insert
  split
  · next h =>
    induction es with
    | nil => simp at h
    | cons e es ih =>
      by_cases he : e.1.sameKey (.text s) = true
      · simp [field?_cons, he]
      · simp only [List.any_cons, he, Bool.false_or] at h
        simpa [field?_cons, he] using ih h
  · next h =>
    rw [field?_append_of_none (by simpa using h), field?_cons]
    simp [Value.sameKey]

theorem field?_insert_of_ne (es : Entries) (v : Value) (h : t ≠ s) :
    (es.insert (.text s) v).field? t = es.field? t := by
  unfold insert
  split
  · next hany =>
    clear hany
    induction es with
    | nil => rfl
    | cons e es ih =>
      rw [List.map_cons, field?_cons, field?_cons, ih]
      split
      · next he =>
        have he := Value.sameKey_text_iff.1 he
        simp [he, Value.sameKey, h.symm]
      · rfl
  · next hany =>
    clear hany
    induction es with
    | nil => simp [field?, get?, Value.sameKey, h.symm]
    | cons e es ih => rw [List.cons_append, field?_cons, field?_cons, ih]

end Entries

namespace Heap

variable {h h' : Heap} {r : Ref} {v w : Value} {s : String} {path : List String}

/-! ## Reading -/

theorem entries_of_read {es : Entries} (hread : h.read? r = some (.mapping es)) :
    h.entries r = es := by
  rw [entries, hread]

theorem entries_congr (hread : h'.read? r = h.read? r) : h'.entries r = h.entries r := by
  rw [entries, entries, hread]

theorem items_congr (hread : h'.read? r = h.read? r) : h'.items r = h.items r := by
  rw [items, items, hread]

theorem refs_sublist_of_mem {vs : List Value} (hv : v ∈ vs) :
    v.refs.Sublist (vs.flatMap Value.refs) := by
  simpa using (List.singleton_sublist.2 hv).flatMap Value.refs

theorem mem_of_itemAt {α : Type} {items : List α} {a : α}
    (ha : Path.itemAt items s = .ok (some a)) : a ∈ items := by
  unfold Path.itemAt at ha
  split at ha
  · cases hn : Data.readWhole s 10 with
    | error f => rw [hn] at ha; cases ha
    | ok n =>
      rw [hn] at ha
      exact List.mem_of_getElem? (Except.ok.inj ha)
  · cases ha

/-- An entry of a mapping holds what its object holds. -/
theorem refs_sublist_of_entry {e : Value × Value} (he : e ∈ h.entries r) :
    (e.1.refs ++ e.2.refs).Sublist (h.held r) := by
  unfold entries at he
  split at he
  · next es hread =>
    rw [held, hread]
    simpa [Cell.refs] using
      (List.singleton_sublist.2 he).flatMap fun e : Value × Value => e.1.refs ++ e.2.refs
  · exact absurd he (by simp)

theorem refs_sublist_of_item (hw : w ∈ h.items r) : w.refs.Sublist (h.held r) := by
  unfold items at hw
  split at hw
  · next vs hread =>
    rw [held, hread]
    exact refs_sublist_of_mem hw
  · exact absurd hw (by simp)

/-- What a segment leads to lies in the value itself or in an object that it refers to. -/
theorem refs_of_child? (hw : h.child? v s = .ok (some w)) :
    w.refs.Sublist v.refs ∨ ∃ r ∈ v.refs, w.refs.Sublist (h.held r) := by
  cases v with
  | mapping r =>
    have he := refs_sublist_of_entry (Entries.mem_of_field? (Except.ok.inj hw))
    exact .inr ⟨r, by simp [Value.refs], (List.sublist_append_right _ _).trans he⟩
  | list r => exact .inr ⟨r, by simp [Value.refs], refs_sublist_of_item (mem_of_itemAt hw)⟩
  | tuple vs =>
    refine .inl ?_
    rw [Value.refs, Value.allRefs_eq]
    exact refs_sublist_of_mem (mem_of_itemAt hw)
  | _ => cases hw

theorem child?_congr (heq : ∀ r ∈ v.refs, h'.read? r = h.read? r) (s : String) :
    h'.child? v s = h.child? v s := by
  cases v with
  | mapping r => rw [child?, child?, entries_congr (heq r (by simp [Value.refs]))]
  | list r => rw [child?, child?, items_congr (heq r (by simp [Value.refs]))]
  | _ => rfl

/-- A path leads to the same value in heaps that read all objects below it alike, and that value
    lies below it. -/
theorem follow_congr (heq : ∀ t, h.Reaches v.refs t → h'.read? t = h.read? t)
    (path : List String) : h'.follow v path = h.follow v path ∧
      ∀ w, h.follow v path = .ok (some w) → ∀ t, h.Reaches w.refs t → h.Reaches v.refs t := by
  induction path generalizing v with
  | nil =>
    refine ⟨rfl, fun w hw t ht => ?_⟩
    cases hw
    exact ht
  | cons s rest ih =>
    rw [follow, follow, child?_congr (fun r hr => heq r (.of_mem hr))]
    cases hc : h.child? v s with
    | error f => exact ⟨rfl, nofun⟩
    | ok o =>
      cases o with
      | none => exact ⟨rfl, nofun⟩
      | some u =>
        have hsub : ∀ t, h.Reaches u.refs t → h.Reaches v.refs t := fun t ht => by
          rcases refs_of_child? hc with hs | ⟨r, hr, hs⟩
          · exact ht.mono hs
          · exact .of_held hr (ht.mono hs)
        obtain ⟨hfollow, hbelow⟩ := ih fun t ht => heq t (hsub t ht)
        exact ⟨hfollow, fun w hw t ht => hsub t (hbelow w hw t ht)⟩

/-- What a path leads to in a tree is a tree. -/
theorem Tree.of_follow (tree : h.Tree v.refs) (hw : h.follow v path = .ok (some w)) :
    h.Tree w.refs := by
  induction path generalizing v with
  | nil =>
    cases hw
    exact tree
  | cons s rest ih =>
    rw [follow] at hw
    cases hc : h.child? v s with
    | error f => rw [hc] at hw; cases hw
    | ok o =>
      cases o with
      | none => rw [hc] at hw; cases hw
      | some u =>
        rw [hc] at hw
        rcases refs_of_child? hc with hs | ⟨r, hr, hs⟩
        · exact ih (tree.sublist hs) hw
        · exact ih ((tree.held hr).sublist hs) hw

/-! ## Writing -/

section Writing

variable {t : Ref}

theorem read_writeField_of_ne (hne : t ≠ r) : (h.writeField r s v).read? t = h.read? t :=
  read_write_of_ne h _ hne.symm

theorem entries_writeField (hr : r < h.cells.size) :
    (h.writeField r s v).entries r = (h.entries r).insert (.text s) v :=
  entries_of_read (read_write_self h _ hr)

theorem size_writeField : (h.writeField r s v).cells.size = h.cells.size := by
  simp [writeField, write]

/-- The heap with a new mapping in a field. -/
def opened (h : Heap) (r : Ref) (s : String) : Heap :=
  (h.alloc (.mapping [])).2.writeField r s (.mapping h.cells.size)

/-- The mapping of a segment is there, or it is a new one. -/
theorem subMapping_cases (h : Heap) (r : Ref) (s : String) :
    (∃ r', (h.entries r).field? s = some (.mapping r') ∧ h.subMapping r s = (r', h)) ∨
      (∀ r', (h.entries r).field? s ≠ some (.mapping r')) ∧
        h.subMapping r s = (h.cells.size, h.opened r s) := by
  unfold subMapping
  split
  · next r' hr' => exact .inl ⟨r', hr', rfl⟩
  · next hno => exact .inr ⟨hno, rfl⟩

theorem size_opened : (h.opened r s).cells.size = h.cells.size + 1 := by
  simp [opened, size_writeField, alloc]

theorem read_opened_of_ne (hlt : t < h.cells.size) (hne : t ≠ r) :
    (h.opened r s).read? t = h.read? t :=
  (read_writeField_of_ne hne).trans (read_alloc_of_lt h _ hlt)

theorem read_opened_new (hr : r < h.cells.size) :
    (h.opened r s).read? h.cells.size = some (.mapping []) := by
  refine (read_writeField_of_ne (Nat.ne_of_gt hr)).trans ?_
  simp [read?, alloc]

theorem entries_opened (hr : r < h.cells.size) :
    (h.opened r s).entries r = (h.entries r).insert (.text s) (.mapping h.cells.size) := by
  have hr' : r < (h.alloc (.mapping [])).2.cells.size := by
    simpa [alloc] using Nat.lt_succ_of_lt hr
  rw [opened, entries_writeField hr', entries_congr (read_alloc_of_lt h _ hr)]

theorem held_empty (hread : h.read? r = some (.mapping [])) : h.held r = [] := by
  rw [held, hread]
  rfl

/-- From an empty mapping on nothing is met but itself. -/
theorem eq_of_reaches_empty (hread : h.read? r = some (.mapping [])) (ht : h.Reaches [r] t) :
    t = r := by
  rw [Reaches.singleton_iff, held_empty hread] at ht
  exact ht.resolve_right (Reaches.not_nil h t)

theorem tree_empty (hread : h.read? r = some (.mapping [])) : h.Tree [r] :=
  .of_leaf (lt_of_read hread) (held_empty hread)

theorem mem_held_of_field? {r' : Ref} (hs : (h.entries r).field? s = some (.mapping r')) :
    r' ∈ h.held r :=
  (refs_sublist_of_entry (Entries.mem_of_field? hs)).subset (by simp [Value.refs])

theorem Tree.subMapping {r' : Ref} (tree : h.Tree [r])
    (hs : (h.entries r).field? s = some (.mapping r')) : h.Tree [r'] :=
  (tree.held (List.mem_singleton_self r)).sublist
    (List.singleton_sublist.2 (mem_held_of_field? hs))

theorem reaches_of_field? {r' : Ref} (hs : (h.entries r).field? s = some (.mapping r'))
    (ht : h.Reaches [r'] t) : h.Reaches [r] t :=
  .of_held (List.mem_singleton_self r) (ht.mono (List.singleton_sublist.2 (mem_held_of_field? hs)))

theorem Tree.root_lt (tree : h.Tree [r]) : r < h.cells.size :=
  tree.live r (.of_mem (List.mem_singleton_self r))

theorem writePath_cons {rest : List String} (hne : rest ≠ []) :
    h.writePath r (s :: rest) v =
      (h.subMapping r s).2.writePath (h.subMapping r s).1 rest v := by
  cases rest with
  | nil => exact absurd rfl hne
  | cons s' rest => rfl

theorem size_le_writePath (h : Heap) (r : Ref) (path : List String) (v : Value) :
    h.cells.size ≤ (h.writePath r path v).cells.size := by
  induction path generalizing h r with
  | nil => exact Nat.le_refl _
  | cons s rest ih =>
    cases rest with
    | nil => exact Nat.le_of_eq size_writeField.symm
    | cons s' rest =>
      rw [writePath_cons (by simp)]
      rcases subMapping_cases h r s with ⟨r', -, hsub⟩ | ⟨-, hsub⟩ <;> rw [hsub]
      · exact ih h r'
      · exact Nat.le_trans (by rw [size_opened]; omega) (ih (h.opened r s) h.cells.size)

/-- A write changes the mapping that it starts from and what lies below its first segment. -/
theorem read_writePath {rest : List String} (tree : h.Tree [r]) (hlt : t < h.cells.size)
    (hne : t ≠ r) (hsub : ∀ r', (h.entries r).field? s = some (.mapping r') → ¬h.Reaches [r'] t) :
    (h.writePath r (s :: rest) v).read? t = h.read? t := by
  induction rest generalizing h r s with
  | nil => exact read_writeField_of_ne hne
  | cons s' rest ih =>
    rw [writePath_cons (by simp)]
    rcases subMapping_cases h r s with ⟨r', hr', heq⟩ | ⟨-, heq⟩ <;> rw [heq]
    · have hnot := hsub r' hr'
      refine ih (tree.subMapping hr') hlt ?_ fun r'' hr'' ht => hnot (reaches_of_field? hr'' ht)
      rintro rfl
      exact hnot (.of_mem (by simp))
    · have hnew := read_opened_new (s := s) tree.root_lt
      refine (ih (tree_empty hnew) (size_opened ▸ Nat.lt_succ_of_lt hlt) (Nat.ne_of_lt hlt)
        fun r'' hr'' => ?_).trans (read_opened_of_ne hlt hne)
      rw [entries_of_read hnew] at hr''
      cases hr''

/-- A write changes nothing that is not below the mapping that it starts from. -/
theorem read_writePath_of_not_reaches (tree : h.Tree [r]) (hlt : t < h.cells.size)
    (ht : ¬h.Reaches [r] t) : (h.writePath r path v).read? t = h.read? t := by
  cases path with
  | nil => rfl
  | cons s rest =>
    refine read_writePath tree hlt ?_ fun r' hr' h' => ht (reaches_of_field? hr' h')
    rintro rfl
    exact ht (.of_mem (by simp))

/-- What a write does to the entries of the mapping that it starts from. -/
theorem entries_writePath (tree : h.Tree [r]) (s : String) (rest : List String) (v : Value) :
    (rest = [] ∧ (h.writePath r (s :: rest) v).entries r = (h.entries r).insert (.text s) v) ∨
      rest ≠ [] ∧ ((∃ r', (h.entries r).field? s = some (.mapping r') ∧
          h.writePath r (s :: rest) v = h.writePath r' rest v ∧
          (h.writePath r (s :: rest) v).entries r = h.entries r) ∨
        (∀ r', (h.entries r).field? s ≠ some (.mapping r')) ∧
          h.writePath r (s :: rest) v = (h.opened r s).writePath h.cells.size rest v ∧
          (h.writePath r (s :: rest) v).entries r =
            (h.entries r).insert (.text s) (.mapping h.cells.size)) := by
  by_cases hrest : rest = []
  · subst hrest
    exact .inl ⟨rfl, entries_writeField tree.root_lt⟩
  refine .inr ⟨hrest, ?_⟩
  rw [writePath_cons hrest]
  rcases subMapping_cases h r s with ⟨r', hr', heq⟩ | ⟨hno, heq⟩ <;> rw [heq]
  · refine .inl ⟨r', hr', rfl, entries_congr ?_⟩
    refine read_writePath_of_not_reaches (tree.subMapping hr') tree.root_lt fun ht => ?_
    exact tree.not_reaches (by simp) (ht.mono (List.singleton_sublist.2 (mem_held_of_field? hr')))
  · have hnew := read_opened_new (s := s) tree.root_lt
    refine .inr ⟨hno, rfl, ?_⟩
    rw [entries_congr, entries_opened tree.root_lt]
    refine read_writePath_of_not_reaches (tree_empty hnew)
      (size_opened ▸ Nat.lt_succ_of_lt tree.root_lt) fun ht => ?_
    exact absurd (eq_of_reaches_empty hnew ht) (Nat.ne_of_lt tree.root_lt)

theorem field?_writePath_of_ne (tree : h.Tree [r]) {s' : String} (hne : s' ≠ s)
    (rest : List String) (v : Value) :
    ((h.writePath r (s :: rest) v).entries r).field? s' = (h.entries r).field? s' := by
  rcases entries_writePath tree s rest v with ⟨-, he⟩ | ⟨-, ⟨-, -, -, he⟩ | ⟨-, -, he⟩⟩ <;> rw [he]
  · exact Entries.field?_insert_of_ne _ _ hne
  · exact Entries.field?_insert_of_ne _ _ hne

end Writing

/-! ## Other paths -/

/-- Two paths run through a list or tuple together. -/
def ShareItems (h : Heap) (v : Value) (p q : List String) : Prop :=
  ∃ start w, start <+: p ∧ start <+: q ∧ h.follow v start = .ok (some w) ∧ w.HasItems

/-- What a path leads to is as it was: it leads to the same value, and the objects below that are
    the same. -/
def Kept (h h' : Heap) (v : Value) (q : List String) : Prop :=
  h'.follow v q = h.follow v q ∧
    ∀ w, h.follow v q = .ok (some w) → ∀ t, h.Reaches w.refs t → h'.read? t = h.read? t

theorem held_of_field? (hs : (h.entries r).field? s = some w) :
    h.held r = (h.entries r).flatMap fun e => e.1.refs ++ e.2.refs := by
  unfold entries at hs ⊢
  split at hs
  · next es hread => rw [held, hread]; rfl
  · cases hs

/-- No object is below two fields of a tree. -/
theorem Tree.fields_apart (tree : h.Tree [r]) {s' : String} (hne : s' ≠ s) {t : Ref}
    (hv : (h.entries r).field? s = some v) (hw : (h.entries r).field? s' = some w)
    (ht : h.Reaches w.refs t) : ¬h.Reaches v.refs t := by
  have hheld := tree.held (List.mem_singleton_self r)
  rw [held_of_field? hv] at hheld
  have hentries : ((.text s', w) : Value × Value) ≠ (.text s, v) := fun heq =>
    hne (Value.text.inj (congrArg Prod.fst heq))
  exact fun htv => hheld.apart (Entries.mem_of_field? hw) (Entries.mem_of_field? hv) hentries
    (ht.mono (List.sublist_append_right _ _)) (htv.mono (List.sublist_append_right _ _))

theorem follow_mapping_cons (h : Heap) (r : Ref) (s : String) (q : List String) :
    h.follow (.mapping r) (s :: q) =
      match (h.entries r).field? s with
      | some w => h.follow w q
      | none => .ok none := by
  rw [follow, child?]
  cases (h.entries r).field? s <;> rfl

theorem not_shareItems_of_ne {s' : String} {p q : List String} (hne : s' ≠ s) :
    ¬h.ShareItems (.mapping r) (s :: p) (s' :: q) := by
  rintro ⟨start, w, hp, hq, hw, hitems⟩
  cases start with
  | nil =>
    cases hw
    exact hitems
  | cons u start =>
    rw [List.cons_prefix_cons] at hp hq
    exact hne (hq.1.symm.trans hp.1)

theorem shareItems_cons {p q : List String} (hs : (h.entries r).field? s = some w)
    (hshare : h.ShareItems w p q) : h.ShareItems (.mapping r) (s :: p) (s :: q) := by
  obtain ⟨start, u, hp, hq, hu, hitems⟩ := hshare
  refine ⟨s :: start, u, List.cons_prefix_cons.2 ⟨rfl, hp⟩, List.cons_prefix_cons.2 ⟨rfl, hq⟩, ?_,
    hitems⟩
  rw [follow_mapping_cons, hs]
  exact hu

theorem shareItems_of_cons {p q : List String}
    (hshare : h.ShareItems (.mapping r) (s :: p) (s :: q)) :
    ∃ w, (h.entries r).field? s = some w ∧ h.ShareItems w p q := by
  obtain ⟨start, u, hp, hq, hu, hitems⟩ := hshare
  cases start with
  | nil =>
    cases hu
    exact hitems.elim
  | cons s' start =>
    rw [List.cons_prefix_cons] at hp hq
    obtain ⟨rfl, hp⟩ := hp
    rw [follow_mapping_cons] at hu
    cases hs : (h.entries r).field? s' with
    | none => rw [hs] at hu; cases hu
    | some w =>
      rw [hs] at hu
      exact ⟨w, rfl, start, u, hp, hq.2, hu, hitems⟩

/-- A write keeps what paths lead to that start with another segment. -/
theorem kept_of_ne (tree : h.Tree [r]) {s' : String} (hne : s' ≠ s) (rest q : List String)
    (v : Value) : h.Kept (h.writePath r (s :: rest) v) (.mapping r) (s' :: q) := by
  rw [Kept, follow_mapping_cons, follow_mapping_cons, field?_writePath_of_ne tree hne]
  cases hw : (h.entries r).field? s' with
  | none => exact ⟨rfl, nofun⟩
  | some w =>
    have hheld : ∀ t, h.Reaches w.refs t → h.Reaches (h.held r) t := fun t ht => by
      have he := refs_sublist_of_entry (Entries.mem_of_field? hw)
      exact ht.mono ((List.sublist_append_right _ _).trans he)
    have hread : ∀ t, h.Reaches w.refs t →
        (h.writePath r (s :: rest) v).read? t = h.read? t := fun t ht => by
      have hroot : t ≠ r := by
        rintro rfl
        exact tree.not_reaches (List.mem_singleton_self t) (hheld t ht)
      exact read_writePath tree
        ((tree.held (List.mem_singleton_self r)).live t (hheld t ht)) hroot
        fun r' hr' hr't => tree.fields_apart hne hr' hw ht hr't
    obtain ⟨hfollow, hbelow⟩ := follow_congr hread q
    exact ⟨hfollow, fun u hu t ht => hread t (hbelow u hu t ht)⟩

/-- What is neither a mapping nor a list or tuple has no parts. -/
theorem follow_of_scalar {q : List String} (hq : q ≠ []) (hm : ∀ r, w ≠ .mapping r)
    (hi : ¬w.HasItems) : h.follow w q = .ok none := by
  obtain ⟨s, q, rfl⟩ := List.exists_cons_of_ne_nil hq
  cases w with
  | mapping r => exact absurd rfl (hm r)
  | list r => exact absurd trivial hi
  | tuple vs => exact absurd trivial hi
  | _ => rfl

/-- What a path leads to after a write along another one, neither starting with the other. -/
theorem follow_writePath {p q : List String} (tree : h.Tree [r]) (hp : ¬p <+: q) (hq : ¬q <+: p)
    (v : Value) :
    (h.ShareItems (.mapping r) p q →
      (h.writePath r p v).follow (.mapping r) q = .ok none) ∧
    (¬h.ShareItems (.mapping r) p q → h.Kept (h.writePath r p v) (.mapping r) q) := by
  induction p generalizing h r q with
  | nil => exact absurd List.nil_prefix hp
  | cons s rest ih =>
    obtain ⟨s', q, rfl⟩ : ∃ s' q', q = s' :: q' :=
      List.exists_cons_of_ne_nil fun hnil => hq (hnil ▸ List.nil_prefix)
    by_cases hne : s' = s
    swap
    · exact ⟨fun hshare => absurd hshare (not_shareItems_of_ne hne), fun _ =>
        kept_of_ne tree hne rest q v⟩
    subst hne
    rw [List.cons_prefix_cons, and_iff_right rfl] at hp hq
    have hq' : q ≠ [] := fun hnil => hq (hnil ▸ List.nil_prefix)
    rcases entries_writePath tree s' rest v with
      ⟨rfl, -⟩ | ⟨-, ⟨r', hr', heq, hentries⟩ | ⟨hno, heq, hentries⟩⟩
    · exact absurd List.nil_prefix hp
    · -- the write goes on in the mapping that is there
      obtain ⟨hlost, hkept⟩ := ih (tree.subMapping hr') hp hq
      rw [Kept, follow_mapping_cons, follow_mapping_cons, hentries, hr', heq]
      refine ⟨fun hshare => ?_, fun hshare => hkept fun h' => hshare (shareItems_cons hr' h')⟩
      obtain ⟨w, hw, hshare⟩ := shareItems_of_cons hshare
      obtain rfl : Value.mapping r' = w := Option.some.inj (hr'.symm.trans hw)
      exact hlost hshare
    · -- the write goes on in a new mapping, through which no other path leads anywhere
      have hnew := read_opened_new (s := s') tree.root_lt
      have hempty (q : List String) (hq : q ≠ []) :
          (h.opened r s').follow (.mapping h.cells.size) q = .ok none := by
        obtain ⟨u, q, rfl⟩ := List.exists_cons_of_ne_nil hq
        rw [follow_mapping_cons, entries_of_read hnew]
        rfl
      have hlost : (h.writePath r (s' :: rest) v).follow (.mapping r) (s' :: q) = .ok none := by
        rw [follow_mapping_cons, hentries, Entries.field?_insert_self, heq]
        refine ((ih (tree_empty hnew) hp hq).2 ?_).1.trans (hempty q hq')
        rintro ⟨start, w, -, -, hw, hitems⟩
        by_cases hstart : start = []
        · subst hstart
          cases hw
          exact hitems
        · rw [hempty start hstart] at hw
          cases hw
      refine ⟨fun _ => hlost, fun hshare => ?_⟩
      rw [Kept, hlost, follow_mapping_cons]
      cases hw : (h.entries r).field? s' with
      | none => exact ⟨rfl, nofun⟩
      | some w =>
        have hscalar : h.follow w q = .ok none :=
          follow_of_scalar hq' (fun r' hr' => hno r' (hr' ▸ hw)) fun hitems =>
            hshare (shareItems_cons hw ⟨[], w, List.nil_prefix, List.nil_prefix, rfl, hitems⟩)
        exact ⟨hscalar.symm, fun u hu => nomatch hscalar.symm.trans hu⟩

/-- **A write is confined to what its path addresses.** In an entity whose objects form a tree, a
    path that neither starts with the one written to nor is a start of it leads to what it led to
    before, and that stands for the same data; but if both run through a list or tuple together, it
    leads nowhere after the write. -/
theorem setPath_confined {h : Heap} {r : Ref} (tree : h.Tree [r]) (p : String) {q : List String}
    (hp : ¬Path.split p <+: q) (hq : ¬q <+: Path.split p) (v : Value) :
    ∃ h', h.setPath (.mapping r) (Path.split p) v = .ok h' ∧
      (h.ShareItems (.mapping r) (Path.split p) q → h'.follow (.mapping r) q = .ok none) ∧
      (¬h.ShareItems (.mapping r) (Path.split p) q →
        h'.follow (.mapping r) q = h.follow (.mapping r) q ∧
        ∀ w, h.follow (.mapping r) q = .ok (some w) → h'.plain w = h.plain w) := by
  obtain ⟨hlost, hkept⟩ := follow_writePath tree hp hq v
  refine ⟨_, rfl, hlost, fun hshare => ?_⟩
  obtain ⟨hfollow, hread⟩ := hkept hshare
  refine ⟨hfollow, fun w hw => ?_⟩
  have htree : h.Tree w.refs := tree.of_follow hw
  exact (htree.agreeOn (hread w hw)).plain_eq (size_le_writePath h r _ v) fun t ht => .of_mem ht

theorem setPath_confined_items :
    let h : Heap := ⟨#[.mapping [(.text "items", .list 1), (.text "total", .int 3)],
      .list [.int 1, .int 2]]⟩
    h.Tree [0] ∧ h.follow (.mapping 0) ["items", "1"] = .ok (some (.int 2)) ∧
      ∃ h', h.setPath (.mapping 0) (Path.split "items.0") (.int 9) = .ok h' ∧
        h'.follow (.mapping 0) ["items", "1"] = .ok none := by
  intro h
  have held_root : h.held 0 = [1] := by simp [h, held, read?, Cell.refs, Value.refs]
  have held_list : h.held 1 = [] := by simp [h, held, read?, Cell.refs, Value.refs]
  have tree : h.Tree [0] := by
    refine .of_held (by simp [h]) (held_root ▸ .of_leaf (by simp [h]) held_list) ?_
    simp [held_root, Reaches.singleton_iff, held_list, Reaches.not_nil]
  have hsplit : Path.split "items.0" = ["items", "0"] := by decide
  obtain ⟨h', hset, hlost, -⟩ := setPath_confined tree "items.0" (q := ["items", "1"])
    (by rw [hsplit]; decide) (by rw [hsplit]; decide) (.int 9)
  refine ⟨tree, rfl, h', hset, hlost ⟨["items"], .list 1, ?_, by decide, rfl, trivial⟩⟩
  rw [hsplit]
  decide

end Heap

end Rulebook
