/-
  Drawings: plain data in which mappings are told apart.

  A mapping may stand at several places of a value, and a change of it shows at all of them.  Plain
  data does not tell such a mapping from equal ones.  In a drawing every mapping has a mark, the
  same at all of its places.  `Heap.Draws h refs d v` says part by part that the value `v` is as
  drawn, where mark `i` is of the object `refs[i]`; no list or mapping then holds itself.

  * `Drawing.put`: writing along a path, at all places of the mapping that is changed;
  * `Draws.parts`: induction along the parts of a value that is drawn;
  * `Draws.lt_of_reaches`, `Draws.mem_marks`: the objects below such a value;
  * `Draws.congr`, `Draws.of_extends`: heaps with the same objects;
  * `Draws.plain_eq`: the plain data of a drawing is what the value stands for.
-/
import Mathlib.Data.List.Forall2
import Rulebook.Proofs.Template.Paths

namespace Rulebook

/-! ## Lists side by side -/

section

variable {α β : Type} {R S : α → β → Prop} {xs : List α} {ys : List β}

theorem forall₂_imp_mem (h : List.Forall₂ R xs ys)
    (himp : ∀ x y, x ∈ xs → y ∈ ys → R x y → S x y) : List.Forall₂ S xs ys := by
  induction h with
  | nil => exact .nil
  | cons hxy _ ih =>
    exact .cons (himp _ _ List.mem_cons_self List.mem_cons_self hxy) (ih fun x y hx hy =>
      himp x y (List.mem_cons_of_mem _ hx) (List.mem_cons_of_mem _ hy))

theorem exists_of_mem_right (h : List.Forall₂ R xs ys) {y : β} (hy : y ∈ ys) :
    ∃ x ∈ xs, R x y := by
  induction h with
  | nil => cases hy
  | cons hxy _ ih =>
    rcases List.mem_cons.1 hy with rfl | hy
    · exact ⟨_, List.mem_cons_self, hxy⟩
    · obtain ⟨x, hx, hxy⟩ := ih hy
      exact ⟨x, List.mem_cons_of_mem _ hx, hxy⟩

theorem forall₂_pairs {α' β' : Type} {R' : α' → β' → Prop} {ps : List (α × α')}
    {qs : List (β × β')} (h : List.Forall₂ R (ps.map (·.1)) (qs.map (·.1)))
    (h' : List.Forall₂ R' (ps.map (·.2)) (qs.map (·.2))) :
    List.Forall₂ (fun p q => R p.1 q.1 ∧ R' p.2 q.2) ps qs := by
  rw [List.forall₂_map_left_iff, List.forall₂_map_right_iff] at h h'
  induction h with
  | nil => exact .nil
  | cons hr _ ih =>
    cases h' with
    | cons hr' hrest => exact .cons ⟨hr, hr'⟩ (ih hrest)

/-- Lists that are related to one list look the same if related items do. -/
theorem forall₂_map_eq {γ : Type} {f : α → γ} {zs : List α} (h : List.Forall₂ R xs ys)
    (h' : List.Forall₂ S zs ys) (hunique : ∀ x y z, R x y → S z y → f z = f x) :
    zs.map f = xs.map f := by
  induction h generalizing zs with
  | nil => cases h'; rfl
  | cons hxy _ ih =>
    cases h' with
    | cons hzy hrest => rw [List.map_cons, List.map_cons, hunique _ _ _ hxy hzy, ih hrest]

theorem map_eq_of_forall₂ {γ : Type} {f : α → γ} {g : β → γ}
    (h : List.Forall₂ (fun x y => g y = f x) xs ys) : ys.map g = xs.map f := by
  induction h with
  | nil => rfl
  | cons hxy _ ih => rw [List.map_cons, List.map_cons, hxy, ih]

end

/-! ## Drawings -/

/-- Plain data whose mappings have marks. -/
inductive Drawing where
  | leaf (d : Data)
  | tuple (parts : List Drawing)
  | list (parts : List Drawing)
  | mapping (mark : Nat) (entries : List (Data × Drawing))

namespace Drawing

mutual

/-- The plain data of a drawing. -/
def plain : Drawing → Data
  | leaf d => d
  | tuple ds => .tuple (plainAll ds)
  | list ds => .list (plainAll ds)
  | mapping _ es => .mapping (plainEntries es)

/-- The plain data of several drawings. -/
def plainAll : List Drawing → List Data
  | [] => []
  | d :: ds => d.plain :: plainAll ds

/-- The plain data of entries. -/
def plainEntries : List (Data × Drawing) → List (Data × Data)
  | [] => []
  | (k, d) :: es => (k, d.plain) :: plainEntries es

end

mutual

/-- The marks of a drawing. -/
def marks : Drawing → List Nat
  | leaf _ => []
  | tuple ds => marksAll ds
  | list ds => marksAll ds
  | mapping i es => i :: marksEntries es

/-- The marks of several drawings. -/
def marksAll : List Drawing → List Nat
  | [] => []
  | d :: ds => d.marks ++ marksAll ds

/-- The marks of entries. -/
def marksEntries : List (Data × Drawing) → List Nat
  | [] => []
  | (_, d) :: es => d.marks ++ marksEntries es

end

/-- The value of a text key. -/
def field? (es : List (Data × Drawing)) (name : String) : Option Drawing :=
  (es.find? fun e => e.1.equal (.text name)).map (·.2)

/-- Entries with one more, or with another value for a key. -/
def insert (es : List (Data × Drawing)) (name : String) (x : Drawing) : List (Data × Drawing) :=
  if es.any fun e => e.1.equal (.text name) then
    es.map fun e => if e.1.equal (.text name) then (e.1, x) else e
  else es ++ [(.text name, x)]

mutual

/-- A drawing with an entry written into the mapping of a mark, at all of its places. -/
def change : Drawing → Nat → String → Drawing → Drawing
  | leaf d, _, _, _ => leaf d
  | tuple ds, i, name, x => tuple (changeAll ds i name x)
  | list ds, i, name, x => list (changeAll ds i name x)
  | mapping j es, i, name, x =>
    mapping j (if j = i then insert (changeEntries es i name x) name x
      else changeEntries es i name x)

/-- Several drawings with an entry written into the mapping of a mark. -/
def changeAll : List Drawing → Nat → String → Drawing → List Drawing
  | [], _, _, _ => []
  | d :: ds, i, name, x => d.change i name x :: changeAll ds i name x

/-- Entries with one written into the mapping of a mark. -/
def changeEntries :
    List (Data × Drawing) → Nat → String → Drawing → List (Data × Drawing)
  | [], _, _, _ => []
  | (k, d) :: es, i, name, x => (k, d.change i name x) :: changeEntries es i name x

end

/-- Where a write along a path changes a drawing: the mark of the last mapping on the path that is
    there, the key that is written, and the rest of the path. -/
def locate? : Drawing → List String → Option (Nat × String × List String)
  | mapping i es, name :: rest =>
    match rest, field? es name with
    | _ :: _, some (mapping j fs) => locate? (mapping j fs) rest
    | _, _ => some (i, name, rest)
  | _, _ => none

/-- A drawing inside new mappings, one for each name. -/
def nested (next : Nat) : List String → Drawing → Drawing
  | [], x => x
  | name :: rest, x => mapping next [(.text name, nested (next + 1) rest x)]

end Drawing

/-- A drawing, and the first mark that is free. -/
structure Sketch where
  drawing : Drawing
  next : Nat

/-- A drawing with another at the end of a path. The mapping that this changes has the new entry at
    all of its places; what is no mapping on the way becomes a new one. -/
def Drawing.put (d : Drawing) (path : List String) (x : Sketch) : Sketch :=
  match d.locate? path with
  | some (i, name, rest) =>
    ⟨d.change i name (nested x.next rest x.drawing), x.next + rest.length⟩
  | none => ⟨d, x.next⟩

namespace Drawing

variable (i : Nat) (name : String) (x : Drawing)

theorem plainAll_eq (ds : List Drawing) : plainAll ds = ds.map plain := by
  induction ds with
  | nil => rfl
  | cons d ds ih => rw [plainAll, ih, List.map_cons]

theorem plainEntries_eq (es : List (Data × Drawing)) :
    plainEntries es = es.map fun e => (e.1, e.2.plain) := by
  induction es with
  | nil => rfl
  | cons e es ih => rw [plainEntries, ih, List.map_cons]

theorem marksAll_eq (ds : List Drawing) : marksAll ds = ds.flatMap marks := by
  induction ds with
  | nil => rfl
  | cons d ds ih => rw [marksAll, ih, List.flatMap_cons]

theorem marksEntries_eq (es : List (Data × Drawing)) :
    marksEntries es = es.flatMap fun e => e.2.marks := by
  induction es with
  | nil => rfl
  | cons e es ih => rw [marksEntries, ih, List.flatMap_cons]

theorem changeAll_eq (ds : List Drawing) :
    changeAll ds i name x = ds.map fun d => d.change i name x := by
  induction ds with
  | nil => rfl
  | cons d ds ih => rw [changeAll, ih, List.map_cons]

theorem changeEntries_eq (es : List (Data × Drawing)) :
    changeEntries es i name x = es.map fun e => (e.1, e.2.change i name x) := by
  induction es with
  | nil => rfl
  | cons e es ih => rw [changeEntries, ih, List.map_cons]

end Drawing

/-! ## Drawn values -/

/-- A value without parts. -/
def Value.Scalar : Value → Prop
  | .tuple _ | .slice .. | .list _ | .mapping _ => False
  | _ => True

/-- A value is plain data and refers to no object. -/
def Value.Bare (d : Data) (v : Value) : Prop :=
  v.refs = [] ∧ v.plain (fun _ => .null) = d

theorem Value.plainAll_eq (f : Ref → Data) (vs : List Value) :
    Value.plainAll f vs = vs.map (Value.plain f) := by
  induction vs with
  | nil => rfl
  | cons v vs ih => rw [Value.plainAll, ih, List.map_cons]

theorem Value.Scalar.refs_eq {v : Value} (hv : v.Scalar) : v.refs = [] := by
  cases v
  case tuple | slice | list | mapping => exact hv.elim
  all_goals rfl

theorem Value.Bare.text_iff {k : Data} {v : Value} (h : v.Bare k) {s : String} :
    v = .text s ↔ k = .text s := by
  obtain ⟨hrefs, rfl⟩ := h
  cases v <;> simp_all [Value.plain, Value.refs]

namespace Heap

/-- A value is as drawn. Slices, which entities do not hold, are left out. -/
inductive Draws (h : Heap) (refs : List Ref) : Drawing → Value → Prop
  | leaf {v : Value} (hv : v.Scalar) : Draws h refs (.leaf (v.plain fun _ => .null)) v
  | tuple {ds : List Drawing} {vs : List Value} (hs : List.Forall₂ (Draws h refs) ds vs) :
      Draws h refs (.tuple ds) (.tuple vs)
  | list {r : Ref} {ds : List Drawing} {vs : List Value} (hr : h.read? r = some (.list vs))
      (hs : List.Forall₂ (Draws h refs) ds vs) : Draws h refs (.list ds) (.list r)
  | mapping {i : Nat} {r : Ref} {ds : List (Data × Drawing)} {es : Entries}
      (hi : refs[i]? = some r) (hr : h.read? r = some (.mapping es))
      (hk : List.Forall₂ Value.Bare (ds.map (·.1)) (es.map (·.1)))
      (hs : List.Forall₂ (Draws h refs) (ds.map (·.2)) (es.map (·.2))) :
      Draws h refs (.mapping i ds) (.mapping r)

/-- An entry of a mapping is as drawn. -/
structure DrawsEntry (h : Heap) (refs : List Ref) (d : Data × Drawing) (e : Value × Value) :
    Prop where
  key : e.1.Bare d.1
  value : h.Draws refs d.2 e.2

variable {h h' : Heap} {refs refs' : List Ref} {d d' : Drawing} {v w : Value} {r t : Ref}

namespace Draws

theorem of_entries {i : Nat} {ds : List (Data × Drawing)} {es : Entries}
    (hi : refs[i]? = some r) (hr : h.read? r = some (.mapping es))
    (hs : List.Forall₂ (h.DrawsEntry refs) ds es) :
    h.Draws refs (.mapping i ds) (.mapping r) := by
  refine .mapping hi hr ?_ ?_ <;> rw [List.forall₂_map_left_iff, List.forall₂_map_right_iff]
  · exact hs.imp fun _ _ he => he.key
  · exact hs.imp fun _ _ he => he.value

/-- What a mapping is drawn as. -/
theorem exists_entries (hs : h.Draws refs d (.mapping r)) :
    ∃ i ds es, d = .mapping i ds ∧ refs[i]? = some r ∧ h.read? r = some (.mapping es) ∧
      List.Forall₂ (h.DrawsEntry refs) ds es := by
  cases hs with
  | leaf hv => exact hv.elim
  | mapping hi hr hk hs =>
    exact ⟨_, _, _, rfl, hi, hr, (forall₂_pairs hk hs).imp fun _ _ he => ⟨he.1, he.2⟩⟩

/-- Induction along the parts of a value that is drawn. -/
theorem parts {motive : ∀ d v, h.Draws refs d v → Prop}
    (leaf : ∀ (v : Value) (hv : v.Scalar), motive _ v (.leaf hv))
    (tuple : ∀ ds vs (hs : List.Forall₂ (h.Draws refs) ds vs),
      List.Forall₂ (fun d v => ∃ hd : h.Draws refs d v, motive d v hd) ds vs →
        motive _ _ (.tuple hs))
    (list : ∀ r ds vs (hr : h.read? r = some (.list vs))
      (hs : List.Forall₂ (h.Draws refs) ds vs),
      List.Forall₂ (fun d v => ∃ hd : h.Draws refs d v, motive d v hd) ds vs →
        motive _ _ (.list hr hs))
    (mapping : ∀ i r ds es (hi : refs[i]? = some r) (hr : h.read? r = some (.mapping es))
      (hs : List.Forall₂ (h.DrawsEntry refs) ds es),
      List.Forall₂ (fun d e => e.1.Bare d.1 ∧ ∃ hd : h.Draws refs d.2 e.2, motive d.2 e.2 hd)
        ds es → motive _ _ (of_entries hi hr hs))
    (hs : h.Draws refs d v) : motive d v hs :=
  Draws.rec (motive_1 := motive)
    (motive_2 := fun ds vs _ =>
      List.Forall₂ (fun d v => ∃ hd : h.Draws refs d v, motive d v hd) ds vs)
    (fun hv => leaf _ hv) (fun hs ih => tuple _ _ hs ih) (fun hr hs ih => list _ _ _ hr hs ih)
    (fun {i r ds es} hi hr hk hs ih => mapping i r ds es hi hr
      ((forall₂_pairs hk hs).imp fun _ _ he => ⟨he.1, he.2⟩) (forall₂_pairs hk ih))
    .nil (fun hd _ hm ih => .cons ⟨hd, hm⟩ ih) hs

end Draws

/-! ## Objects below -/

theorem reaches_flatMap {α : Type} {l : List α} {f : α → List Ref} :
    h.Reaches (l.flatMap f) t ↔ ∃ a ∈ l, h.Reaches (f a) t := by
  simp only [Reaches, met_flatMap, List.mem_flatMap]
  constructor
  · rintro ⟨n, a, ha, hn⟩
    exact ⟨a, ha, n, hn⟩
  · rintro ⟨a, ha, n, hn⟩
    exact ⟨n, a, ha, hn⟩

namespace Draws

/-- An object below a value that is drawn is there; if it is a mapping, its mark is drawn. -/
theorem object_below (hs : h.Draws refs d v) (ht : h.Reaches v.refs t) :
    (∃ vs, h.read? t = some (.list vs)) ∨
      ∃ es, h.read? t = some (.mapping es) ∧ ∃ i ∈ d.marks, refs[i]? = some t := by
  induction hs using parts with
  | leaf v hv =>
    rw [hv.refs_eq] at ht
    exact absurd ht (Reaches.not_nil h t)
  | tuple ds vs _ ih =>
    rw [Value.refs, Value.allRefs_eq, reaches_flatMap] at ht
    obtain ⟨v, hv, ht⟩ := ht
    obtain ⟨d, hd, -, hbelow⟩ := exists_of_mem_right ih hv
    rw [Drawing.marks, Drawing.marksAll_eq]
    obtain hlist | ⟨es, hr, i, hi, hit⟩ := hbelow ht
    · exact .inl hlist
    · exact .inr ⟨es, hr, i, List.mem_flatMap.2 ⟨d, hd, hi⟩, hit⟩
  | list r ds vs hr _ ih =>
    rcases Reaches.singleton_iff.1 ht with rfl | ht
    · exact .inl ⟨vs, hr⟩
    · rw [held, hr] at ht
      obtain ⟨v, hv, ht⟩ := reaches_flatMap.1 ht
      obtain ⟨d, hd, -, hbelow⟩ := exists_of_mem_right ih hv
      rw [Drawing.marks, Drawing.marksAll_eq]
      obtain hlist | ⟨es, hr, i, hi, hit⟩ := hbelow ht
      · exact .inl hlist
      · exact .inr ⟨es, hr, i, List.mem_flatMap.2 ⟨d, hd, hi⟩, hit⟩
  | mapping i r ds es hi hr _ ih =>
    rcases Reaches.singleton_iff.1 ht with rfl | ht
    · exact .inr ⟨es, hr, i, List.mem_cons_self, hi⟩
    · rw [held, hr] at ht
      obtain ⟨e, he, ht⟩ := reaches_flatMap.1 ht
      obtain ⟨d, hd, hkey, -, hbelow⟩ := exists_of_mem_right ih he
      rw [hkey.1, List.nil_append] at ht
      rw [Drawing.marks, Drawing.marksEntries_eq]
      obtain hlist | ⟨es, hr, j, hj, hjt⟩ := hbelow ht
      · exact .inl hlist
      · exact .inr ⟨es, hr, j, List.mem_cons_of_mem _ (List.mem_flatMap.2 ⟨d, hd, hj⟩), hjt⟩

/-- No object below a value that is drawn is missing. -/
theorem lt_of_reaches (hs : h.Draws refs d v) (ht : h.Reaches v.refs t) : t < h.cells.size := by
  rcases hs.object_below ht with ⟨vs, hr⟩ | ⟨es, hr, -⟩ <;> exact lt_of_read hr

theorem mem_marks (hs : h.Draws refs d v) (ht : h.Reaches v.refs t) {es : Entries}
    (hr : h.read? t = some (.mapping es)) : ∃ i ∈ d.marks, refs[i]? = some t := by
  rcases hs.object_below ht with ⟨vs, hr'⟩ | ⟨-, -, hmark⟩
  · cases hr.symm.trans hr'
  · exact hmark

/-! ## Other heaps and tables -/

/-- A value is drawn the same in a heap that agrees on its objects, and with more marks. -/
theorem of_agreeOn {P : Ref → Prop} (ha : h.AgreeOn h' P) (hpre : refs <+: refs')
    (hs : h.Draws refs d v) (hv : ∀ r ∈ v.refs, P r) : h'.Draws refs' d v := by
  obtain ⟨more, rfl⟩ := hpre
  induction hs using parts with
  | leaf v hscalar => exact .leaf hscalar
  | tuple ds vs _ ih =>
    rw [Value.refs, Value.allRefs_eq] at hv
    refine .tuple (forall₂_imp_mem ih ?_)
    rintro d v - hmem ⟨-, hd⟩
    exact hd fun r hr => hv r (List.mem_flatMap.2 ⟨v, hmem, hr⟩)
  | list r ds vs hr _ ih =>
    obtain ⟨c, hc, hc', hrefs⟩ := ha r (hv r List.mem_cons_self)
    obtain rfl : .list vs = c := Option.some.inj (hr.symm.trans hc)
    refine .list hc' (forall₂_imp_mem ih ?_)
    rintro d v - hmem ⟨-, hd⟩
    exact hd fun r hr => hrefs r (List.mem_flatMap.2 ⟨v, hmem, hr⟩)
  | mapping i r ds es hi hr _ ih =>
    obtain ⟨c, hc, hc', hrefs⟩ := ha r (hv r List.mem_cons_self)
    obtain rfl : .mapping es = c := Option.some.inj (hr.symm.trans hc)
    have hi' : (refs ++ more)[i]? = some r := by
      rw [List.getElem?_append_left (List.getElem?_eq_some_iff.1 hi).1, hi]
    refine of_entries hi' hc' (forall₂_imp_mem ih ?_)
    rintro d e - hmem ⟨hkey, -, hd⟩
    exact ⟨hkey, hd fun r hr =>
      hrefs r (List.mem_flatMap.2 ⟨e, hmem, List.mem_append_right _ hr⟩)⟩

/-- A value is drawn the same where all objects below it are as they were. -/
theorem congr (hs : h.Draws refs d v) (hpre : refs <+: refs')
    (heq : ∀ t, h.Reaches v.refs t → h'.read? t = h.read? t) : h'.Draws refs' d v := by
  refine hs.of_agreeOn (P := h.Reaches v.refs) (fun t ht => ?_) hpre fun r hr => .of_mem hr
  have hlt := hs.lt_of_reaches ht
  have hread : h.read? t = some h.cells[t] := Array.getElem?_eq_getElem hlt
  refine ⟨_, hread, (heq t ht).trans hread, fun u hu => ht.step ?_⟩
  rwa [Heap.held, hread]

theorem of_extends (hs : h.Draws refs d v) (he : h.Extends h') (hpre : refs <+: refs') :
    h'.Draws refs' d v :=
  hs.congr hpre fun _ ht => he.read_eq (hs.lt_of_reaches ht)

/-! ## What is drawn -/

/-- All drawings of a value have the same plain data. -/
theorem plain_unique (hs : h.Draws refs d v) (hs' : h.Draws refs' d' v) : d'.plain = d.plain := by
  induction hs using parts generalizing d' with
  | leaf v hv =>
    cases hs' with
    | leaf => rfl
    | tuple | list | mapping => exact hv.elim
  | tuple ds vs _ ih =>
    cases hs' with
    | leaf hv => exact hv.elim
    | tuple hs' =>
      rw [Drawing.plain, Drawing.plain, Drawing.plainAll_eq, Drawing.plainAll_eq,
        forall₂_map_eq ih hs' fun _ _ _ ⟨_, hx⟩ hz => hx hz]
  | list r ds vs hr _ ih =>
    cases hs' with
    | leaf hv => exact hv.elim
    | list hr' hs' =>
      cases hr.symm.trans hr'
      rw [Drawing.plain, Drawing.plain, Drawing.plainAll_eq, Drawing.plainAll_eq,
        forall₂_map_eq ih hs' fun _ _ _ ⟨_, hx⟩ hz => hx hz]
  | mapping i r ds es hi hr _ ih =>
    obtain ⟨j, ds', es', rfl, -, hr', hs'⟩ := hs'.exists_entries
    cases hr.symm.trans hr'
    rw [Drawing.plain, Drawing.plain, Drawing.plainEntries_eq, Drawing.plainEntries_eq,
      forall₂_map_eq ih hs' fun d e d' ⟨hkey, _, hx⟩ hz =>
        congrArg₂ Prod.mk (hz.key.2.symm.trans hkey.2) (hx hz.value)]

end Draws

/-- An object is as drawn. -/
def DrawsObject (h : Heap) (refs : List Ref) (d : Drawing) (r : Ref) : Prop :=
  h.Draws refs d (.list r) ∨ h.Draws refs d (.mapping r)

theorem DrawsObject.plain_unique (hs : h.DrawsObject refs d r) (hs' : h.DrawsObject refs d' r) :
    d'.plain = d.plain := by
  have hkind {d d' : Drawing} (hlist : h.Draws refs d (.list r))
      (hmapping : h.Draws refs d' (.mapping r)) : False := by
    obtain ⟨i, ds, es, -, -, hr, -⟩ := hmapping.exists_entries
    cases hlist with
    | leaf hv => exact hv.elim
    | list hr' _ => cases hr.symm.trans hr'
  rcases hs with hs | hs <;> rcases hs' with hs' | hs'
  · exact hs.plain_unique hs'
  · exact (hkind hs hs').elim
  · exact (hkind hs' hs).elim
  · exact hs.plain_unique hs'

/-- All objects on a path are drawn as larger data. -/
def Inside (h : Heap) (refs path : List Ref) (d : Data) : Prop :=
  ∀ t ∈ path, ∀ d', h.DrawsObject refs d' t → sizeOf d < sizeOf d'.plain

/-- What an object stands for whose parts stand for what they are drawn as. -/
theorem DrawsObject.plainRef_eq {c : Cell} (hs : h.DrawsObject refs d r)
    (hr : h.read? r = some c) {fuel : Nat} {path : List Ref} (hpath : h.Inside refs path d.plain)
    (hfuel : sizeOf d.plain ≤ fuel)
    (hparts : ∀ k, (∀ e : Data, sizeOf e < sizeOf d.plain →
      sizeOf e ≤ k ∧ h.Inside refs (r :: path) e) →
      c.plain (h.plainRef k (r :: path)) = d.plain) : h.plainRef fuel path r = d.plain := by
  have hmem : r ∉ path := fun hr => Nat.lt_irrefl _ (hpath r hr d hs)
  have hpos : 0 < sizeOf d.plain := by cases d.plain <;> simp
  obtain ⟨k, rfl⟩ := Nat.exists_eq_add_one_of_ne_zero (n := fuel) (by omega)
  rw [plainRef_succ, hr]
  dsimp only
  rw [if_neg hmem]
  refine hparts k fun e he => ⟨by omega, fun t ht d' hd' => ?_⟩
  rcases List.mem_cons.1 ht with rfl | ht
  · rwa [hs.plain_unique hd']
  · exact Nat.lt_trans he (hpath t ht d' hd')

namespace Draws

/-- A value stands for what it is drawn as, inside objects that are drawn as larger data. -/
theorem plain_inside (hs : h.Draws refs d v) (fuel : Nat) (path : List Ref)
    (hpath : h.Inside refs path d.plain) (hfuel : sizeOf d.plain ≤ fuel) :
    v.plain (h.plainRef fuel path) = d.plain := by
  induction hs using parts generalizing fuel path with
  | leaf v hv => exact v.plain_congr (by rw [hv.refs_eq]; nofun)
  | tuple ds vs _ ih =>
    rw [Value.plain, Value.plainAll_eq]
    rw [Drawing.plain, Drawing.plainAll_eq] at hpath hfuel ⊢
    refine congrArg Data.tuple (map_eq_of_forall₂ (forall₂_imp_mem ih ?_))
    rintro d v hmem - ⟨-, hd⟩
    have hlt : sizeOf d.plain < sizeOf (Data.tuple (ds.map Drawing.plain)) := by
      have := List.sizeOf_lt_of_mem (List.mem_map_of_mem (f := Drawing.plain) hmem)
      simp only [Data.tuple.sizeOf_spec]
      omega
    exact hd _ _ (fun t ht d' hd' => Nat.lt_trans hlt (hpath t ht d' hd')) (by omega)
  | list r ds vs hr hs ih =>
    refine DrawsObject.plainRef_eq (.inl (.list hr hs)) hr hpath hfuel fun k hk => ?_
    rw [Drawing.plain, Drawing.plainAll_eq] at hk ⊢
    refine congrArg Data.list (map_eq_of_forall₂ (forall₂_imp_mem ih ?_))
    rintro d v hmem - ⟨-, hd⟩
    obtain ⟨hle, hinside⟩ := hk d.plain (by
      have := List.sizeOf_lt_of_mem (List.mem_map_of_mem (f := Drawing.plain) hmem)
      simp only [Data.list.sizeOf_spec]
      omega)
    exact hd _ _ hinside hle
  | mapping i r ds es hi hr hs ih =>
    refine DrawsObject.plainRef_eq (.inr (of_entries hi hr hs)) hr hpath hfuel fun k hk => ?_
    rw [Drawing.plain, Drawing.plainEntries_eq] at hk ⊢
    refine congrArg Data.mapping (map_eq_of_forall₂ (forall₂_imp_mem ih ?_))
    rintro ⟨key, d⟩ e hmem - ⟨hkey, -, hd⟩
    obtain ⟨hle, hinside⟩ := hk d.plain (by
      have := List.sizeOf_lt_of_mem
        (List.mem_map_of_mem (f := fun e : Data × Drawing => (e.1, e.2.plain)) hmem)
      simp only [Data.mapping.sizeOf_spec, Prod.mk.sizeOf_spec] at this ⊢
      omega)
    refine Prod.ext ?_ (hd _ _ hinside hle)
    exact (e.1.plain_congr (by rw [hkey.1]; nofun)).trans hkey.2

/-- **A value stands for the plain data of its drawing.** -/
theorem plain_eq (hs : h.Draws refs d v) : h.plain v = d.plain := by
  have henough := hs.plain_inside (h.cells.size + 1 + sizeOf d.plain) [] nofun (by omega)
  refine Eq.trans (v.plain_congr fun r _ => ?_) henough
  exact plainRef_fuel h _ _ [] r List.nodup_nil nofun (by simp) (by simp)

end Draws

end Heap

end Rulebook
