/-
  What placeholders and literals denote, as drawings.

  Reading along a path is a function of the drawing.  A placeholder denotes the part that its path
  leads to, with the marks that this has: the heap gives the very object, not a copy of it.  A
  literal denotes itself, with new marks for its mappings.

  * `Drawing.follow`, `Drawing.lookUp`, `Data.drawn`: reading drawings;
  * `Finds`, `Draws.follow`, `lookUp_finds`: reading values that are drawn;
  * `Template.becomesItself`: literals become new objects;
  * `Template.resolve_drawn`: what the value of an action becomes.
-/
import Rulebook.Proofs.Template.Resolution
import Rulebook.Proofs.Update.Writes

namespace Rulebook

/-! ## Reading drawings -/

namespace Drawing

/-- The part of a drawing that one segment leads to. -/
def child? : Drawing → String → Except Fault (Option Drawing)
  | .mapping _ es, s => .ok (field? es s)
  | .list ds, s => Path.itemAt ds s
  | .tuple ds, s => Path.itemAt ds s
  | .leaf _, _ => .ok none

/-- The part of a drawing that a path leads to, if it leads anywhere. -/
def follow : Drawing → List String → Except Fault (Option Drawing)
  | d, [] => .ok (some d)
  | d, s :: rest =>
    match d.child? s with
    | .ok (some e) => e.follow rest
    | .ok none => .ok none
    | .error f => .error f

/-- What a path leads to, from names on or from the entity. -/
def lookUp (names : List (String × Data)) (entity : Drawing) :
    List String → Except Fault (Option Drawing)
  | [] => .ok none
  | head :: rest =>
    match (names.map (fun p => (p.1, leaf p.2)) ++ [("entity", entity)]).lookup head with
    | some d => d.follow rest
    | none => entity.follow (head :: rest)

end Drawing

/-- The identifiers of a context as plain data. -/
def Context.identities (c : Context) : List (String × Data) :=
  c.identifiers.map fun p => (p.1, p.2.plain fun _ => .null)

namespace Heap

variable {h h' : Heap} {refs refs' : List Ref} {d : Drawing} {v : Value} {r t : Ref}

/-- A search in values finds what the search in drawings does. -/
inductive Finds (h : Heap) (refs : List Ref) :
    Except Fault (Option Drawing) → Except Fault (Option Value) → Prop
  | fault (f : Fault) : Finds h refs (.error f) (.error f)
  | nothing : Finds h refs (.ok none) (.ok none)
  | found {d : Drawing} {v : Value} (hs : h.Draws refs d v) :
      Finds h refs (.ok (some d)) (.ok (some v))

theorem itemAt_finds {ds : List Drawing} {vs : List Value}
    (hs : List.Forall₂ (h.Draws refs) ds vs) (s : String) :
    h.Finds refs (Path.itemAt ds s) (Path.itemAt vs s) := by
  have hitem (n : Nat) : h.Finds refs (.ok ds[n]?) (.ok vs[n]?) := by
    induction hs generalizing n with
    | nil => exact .nothing
    | cons hd _ ih =>
      cases n with
      | zero => exact .found hd
      | succ n => exact ih n
  unfold Path.itemAt
  split
  · cases Data.readWhole s 10 with
    | error f => exact .fault f
    | ok n => exact hitem n.toNat
  · exact .nothing

namespace Draws

theorem child? (hs : h.Draws refs d v) (s : String) :
    h.Finds refs (d.child? s) (h.child? v s) := by
  cases hs with
  | leaf hv =>
    cases v
    case tuple | slice | list | mapping => exact hv.elim
    all_goals exact .nothing
  | tuple hs => exact itemAt_finds hs s
  | list hr hs =>
    rw [Heap.child?, items, hr]
    exact itemAt_finds hs s
  | mapping hi hr hk hs =>
    obtain ⟨i, ds, es, heq, -, hr', hs⟩ := (Draws.mapping hi hr hk hs).exists_entries
    cases heq
    rw [Heap.child?, entries_of_read hr', Drawing.child?]
    rcases field?_draws hs s with ⟨hv, hd⟩ | ⟨w, e, hv, hd, hdraws⟩ <;> rw [hv, hd]
    · exact .nothing
    · exact .found hdraws

/-- A path leads to what is drawn as the drawing that it leads to. -/
theorem follow (hs : h.Draws refs d v) (path : List String) :
    h.Finds refs (d.follow path) (h.follow v path) := by
  induction path generalizing d v with
  | nil => exact .found hs
  | cons s rest ih =>
    rw [Drawing.follow, Heap.follow]
    have hchild := hs.child? s
    generalize d.child? s = found at hchild
    generalize h.child? v s = found' at hchild
    cases hchild with
    | fault f => exact .fault f
    | nothing => exact .nothing
    | found hs => exact ih hs

end Draws

/-! ### Contexts -/

theorem lookup_draws {ds : List (String × Drawing)} {vs : List (String × Value)}
    (hs : List.Forall₂ (fun d v => d.1 = v.1 ∧ h.Draws refs d.2 v.2) ds vs) (name : String) :
    (vs.lookup name = none ∧ ds.lookup name = none) ∨
      ∃ v d, vs.lookup name = some v ∧ ds.lookup name = some d ∧ h.Draws refs d v := by
  induction hs with
  | nil => exact .inl ⟨rfl, rfl⟩
  | @cons d v ds vs hd _ ih =>
    obtain ⟨key, d⟩ := d
    obtain ⟨key', v⟩ := v
    obtain ⟨rfl, hd⟩ := hd
    by_cases hname : name = key
    · subst hname
      exact .inr ⟨v, d, List.lookup_cons_self, List.lookup_cons_self, hd⟩
    · rw [List.lookup_cons, List.lookup_cons, beq_false_of_ne hname]
      exact ih

/-- A placeholder leads to what is drawn as the drawing that it leads to. -/
theorem lookUp_finds {c : Context} (hids : ∀ p ∈ c.identifiers, p.2.Scalar)
    (hs : h.Draws refs d c.entity) (path : List String) :
    h.Finds refs (Drawing.lookUp c.identities d path)
      (({ context := c } : Template.Sources).lookUp h path) := by
  cases path with
  | nil => exact .nothing
  | cons head rest =>
    have hroots : List.Forall₂ (fun d v => d.1 = v.1 ∧ h.Draws refs d.2 v.2)
        (c.identities.map (fun p => (p.1, Drawing.leaf p.2)) ++ [("entity", d)]) c.roots := by
      refine List.rel_append ?_ (.cons ⟨rfl, hs⟩ .nil)
      rw [Context.identities, List.forall₂_map_left_iff, List.forall₂_map_left_iff,
        List.forall₂_same]
      exact fun p hp => ⟨rfl, .leaf (hids p hp)⟩
    rw [Template.Sources.lookUp, Drawing.lookUp]
    rcases lookup_draws hroots head with ⟨hv, he⟩ | ⟨v, e, hv, he, hdraws⟩ <;> rw [he] <;>
      dsimp only [Entries.field?, Entries.get?, List.find?_nil, Option.map_none] <;> rw [hv]
    · exact hs.follow _
    · exact hdraws.follow _

end Heap

/-! ## Literals -/

namespace Drawing

mutual

/-- Data with new marks for its mappings. -/
def new (next : Nat) : Data → Sketch
  | .tuple ds => ⟨.tuple (newAll next ds).1, (newAll next ds).2⟩
  | .list ds => ⟨.list (newAll next ds).1, (newAll next ds).2⟩
  | .mapping es =>
    ⟨.mapping (newEntries next es).2 (newEntries next es).1, (newEntries next es).2 + 1⟩
  | d => ⟨.leaf d, next⟩

/-- Several data with new marks. -/
def newAll (next : Nat) : List Data → List Drawing × Nat
  | [] => ([], next)
  | d :: ds =>
    ((new next d).drawing :: (newAll (new next d).next ds).1, (newAll (new next d).next ds).2)

/-- Entries with new marks. -/
def newEntries (next : Nat) : List (Data × Data) → List (Data × Drawing) × Nat
  | [] => ([], next)
  | (k, d) :: es =>
    ((k, (new next d).drawing) :: (newEntries (new next d).next es).1,
      (newEntries (new next d).next es).2)

end

mutual

/-- New marks are free ones. -/
theorem le_of_new (next : Nat) : ∀ d, next ≤ (new next d).next ∧
    ∀ i ∈ (new next d).drawing.marks, next ≤ i
  | .null | .bool _ | .int _ | .float _ | .text _ | .instant _ | .duration _ | .slice ..
  | .cycle _ => ⟨Nat.le_refl _, nofun⟩
  | .tuple ds | .list ds => le_of_newAll next ds
  | .mapping es => by
    obtain ⟨hnext, hmarks⟩ := le_of_newEntries next es
    exact ⟨Nat.le_succ_of_le hnext, List.forall_mem_cons.2 ⟨hnext, hmarks⟩⟩

theorem le_of_newAll (next : Nat) : ∀ ds, next ≤ (newAll next ds).2 ∧
    ∀ i ∈ marksAll (newAll next ds).1, next ≤ i
  | [] => ⟨Nat.le_refl _, nofun⟩
  | d :: ds => by
    obtain ⟨hnext, hmarks⟩ := le_of_new next d
    obtain ⟨hnext', hmarks'⟩ := le_of_newAll (new next d).next ds
    exact ⟨Nat.le_trans hnext hnext', List.forall_mem_append.2
      ⟨hmarks, fun i hi => Nat.le_trans hnext (hmarks' i hi)⟩⟩

theorem le_of_newEntries (next : Nat) : ∀ es, next ≤ (newEntries next es).2 ∧
    ∀ i ∈ marksEntries (newEntries next es).1, next ≤ i
  | [] => ⟨Nat.le_refl _, nofun⟩
  | (_, d) :: es => by
    obtain ⟨hnext, hmarks⟩ := le_of_new next d
    obtain ⟨hnext', hmarks'⟩ := le_of_newEntries (new next d).next es
    exact ⟨Nat.le_trans hnext hnext', List.forall_mem_append.2
      ⟨hmarks, fun i hi => Nat.le_trans hnext (hmarks' i hi)⟩⟩

end

theorem new_scalar {v : Value} (hv : v.Scalar) (next : Nat) :
    new next (v.plain fun _ => .null) = ⟨.leaf (v.plain fun _ => .null), next⟩ := by
  cases v
  case tuple | slice | list | mapping => exact hv.elim
  all_goals rfl

end Drawing

/-- Two keys are not the same text. -/
def Data.Apart (k l : Data) : Prop :=
  ∀ s, k = .text s → l ≠ .text s

/-- Data that a value may be: no slices, nothing that holds itself, and keys that are no objects, no
    text twice. -/
inductive Data.Solid : Data → Prop
  | scalar {v : Value} (hv : v.Scalar) : Solid (v.plain fun _ => .null)
  | tuple {ds : List Data} (hs : ∀ d ∈ ds, Solid d) : Solid (.tuple ds)
  | list {ds : List Data} (hs : ∀ d ∈ ds, Solid d) : Solid (.list ds)
  | mapping {es : List (Data × Data)} (hk : ∀ e ∈ es, ∃ k : Value, k.Bare e.1)
      (honce : (es.map (·.1)).Pairwise Apart) (hs : ∀ e ∈ es, Solid e.2) : Solid (.mapping es)

/-- Data without placeholders. -/
structure Data.Literal (d : Data) : Prop where
  solid : d.Solid
  literal : ∀ t ∈ Template.texts d, ∀ span path,
    Template.Piece.placeholder span path ∉ Template.Piece.scan t.toList

namespace Heap

variable {h h' : Heap} {refs refs' : List Ref} {d : Drawing} {v : Value} {r t : Ref}

theorem read_newMapping (h : Heap) (es : Entries) :
    (h.newMapping es).2.read? h.cells.size = some (.mapping es) := by
  simp [newMapping, alloc, read?]

theorem read_newList (h : Heap) (vs : List Value) :
    (h.newList vs).2.read? h.cells.size = some (.list vs) := by
  simp [newList, alloc, read?]

mutual

/-- What refers to no object is loaded as it is. -/
theorem load_plain (h : Heap) : ∀ v : Value, v.refs = [] →
    h.load (v.plain fun _ => .null) = (v, h)
  | .null, _ | .bool _, _ | .int _, _ | .float _, _ | .text _, _ | .instant _, _
  | .duration _, _ => rfl
  | .tuple vs, hv => by
    rw [Value.plain, load, loadAll_plain h vs hv]
  | .slice a b c, hv => by
    simp only [Value.refs, List.append_eq_nil_iff] at hv
    rw [Value.plain, load, load_plain h a hv.1.1]
    simp only [load_plain h b hv.1.2, load_plain h c hv.2]
  | .list r, hv => by cases hv
  | .mapping r, hv => by cases hv

theorem loadAll_plain (h : Heap) : ∀ vs : List Value, Value.allRefs vs = [] →
    h.loadAll (Value.plainAll (fun _ => .null) vs) = (vs, h)
  | [], _ => rfl
  | v :: vs, hv => by
    simp only [Value.allRefs, List.append_eq_nil_iff] at hv
    rw [Value.plainAll, loadAll, load_plain h v hv.1]
    simp only [loadAll_plain h vs hv.2]

end

end Heap

namespace Template

variable {s : Sources} {h : Heap} {refs : List Ref}

theorem allTexts_eq (ds : List Data) : allTexts ds = ds.flatMap texts := by
  induction ds with
  | nil => rfl
  | cons d ds ih => rw [allTexts, ih, List.flatMap_cons]

theorem entryTexts_eq (ds : List (Data × Data)) :
    entryTexts ds = ds.flatMap fun d => texts d.2 := by
  induction ds with
  | nil => rfl
  | cons d ds ih => rw [entryTexts, ih, List.flatMap_cons]

/-- Data becomes a value that is drawn with new marks, whatever the heap is. -/
def BecomesItself (s : Sources) (d : Data) : Prop :=
  ∀ h refs, h.Table refs → ∃ p refs', resolve s h d = .ok p ∧
    p.2.Continues refs refs' (Drawing.new refs.length d).next ∧
    p.2.Draws refs' (Drawing.new refs.length d).drawing p.1

theorem resolveAll_itself {ds : List Data} (hds : ∀ d ∈ ds, BecomesItself s d)
    (htable : h.Table refs) : ∃ p refs', resolveAll s h ds = .ok p ∧
      p.2.Continues refs refs' (Drawing.newAll refs.length ds).2 ∧
      List.Forall₂ (p.2.Draws refs') (Drawing.newAll refs.length ds).1 p.1 := by
  induction ds generalizing h refs with
  | nil => exact ⟨_, refs, rfl, htable.refl, .nil⟩
  | cons d ds ih =>
    obtain ⟨hd, hds⟩ := List.forall_mem_cons.1 hds
    obtain ⟨⟨v, h₁⟩, refs₁, hv, hcontinues, hdraws⟩ := hd h refs htable
    obtain ⟨⟨vs, h₂⟩, refs₂, hvs, hcontinues', hall⟩ := ih hds hcontinues.table
    rw [hcontinues.free] at hcontinues' hall
    have he : h₁.Extends h₂ := resolveAll_extends s h₁ ds hvs
    refine ⟨(v :: vs, h₂), refs₂, ?_, hcontinues.trans hcontinues',
      .cons (hdraws.of_extends he hcontinues'.starts) hall⟩
    simp only [resolveAll, hv, hvs, bind, Except.bind, pure, Except.pure]

theorem resolveEntries_itself {ds : List (Data × Data)}
    (hds : ∀ d ∈ ds, (∃ k : Value, k.Bare d.1) ∧ BecomesItself s d.2)
    (htable : h.Table refs) : ∃ p refs', resolveEntries s h ds = .ok p ∧
      p.2.Continues refs refs' (Drawing.newEntries refs.length ds).2 ∧
      List.Forall₂ (p.2.DrawsEntry refs') (Drawing.newEntries refs.length ds).1 p.1 := by
  induction ds generalizing h refs with
  | nil => exact ⟨_, refs, rfl, htable.refl, .nil⟩
  | cons d ds ih =>
    obtain ⟨⟨⟨k, hk⟩, hd⟩, hds⟩ := List.forall_mem_cons.1 hds
    have hload : h.load d.1 = (k, h) := by
      rw [← hk.2]
      exact h.load_plain k hk.1
    obtain ⟨⟨v, h₁⟩, refs₁, hv, hcontinues, hdraws⟩ := hd h refs htable
    obtain ⟨⟨es, h₂⟩, refs₂, hes, hcontinues', hall⟩ := ih hds hcontinues.table
    rw [hcontinues.free] at hcontinues' hall
    have he : h₁.Extends h₂ := resolveEntries_extends s h₁ ds hes
    refine ⟨((k, v) :: es, h₂), refs₂, ?_, hcontinues.trans hcontinues',
      .cons ⟨hk, hdraws.of_extends he hcontinues'.starts⟩ hall⟩
    simp only [resolveEntries, hload, hv, hes, bind, Except.bind, pure, Except.pure]

/-- A text without placeholders stays. -/
theorem resolve_text {t : String}
    (hlit : ∀ span path, Piece.placeholder span path ∉ Piece.scan t.toList) :
    resolve s h (.text t) = .ok (.text t, h) := by
  have htext : resolveText s h t = .ok (.text t) :=
    resolveText_self fun span path hp => absurd hp (hlit span path)
  rw [resolve, htext]
  rfl

/-- **A literal becomes itself.** -/
theorem becomesItself {d : Data} (hd : d.Literal) : BecomesItself s d := by
  obtain ⟨hsolid, hlit⟩ := hd
  induction hsolid with
  | @scalar v hv =>
    intro h refs htable
    have hresolve : resolve s h (v.plain fun _ => .null) = .ok (v, h) := by
      cases v
      case tuple | slice | list | mapping => exact hv.elim
      case text t => exact resolve_text (hlit t (List.mem_singleton_self t))
      all_goals rfl
    rw [Drawing.new_scalar hv]
    exact ⟨(v, h), refs, hresolve, htable.refl, .leaf hv⟩
  | @tuple ds _ ih =>
    intro h refs htable
    rw [texts, allTexts_eq, List.forall_mem_flatMap] at hlit
    obtain ⟨p, refs', hp, hcontinues, hall⟩ := resolveAll_itself (s := s)
      (fun d hd => ih d hd (hlit d hd)) htable
    refine ⟨(.tuple p.1, p.2), refs', ?_, hcontinues, .tuple hall⟩
    simp only [resolve, hp, bind, Except.bind, pure, Except.pure]
  | @list ds _ ih =>
    intro h refs htable
    rw [texts, allTexts_eq, List.forall_mem_flatMap] at hlit
    obtain ⟨p, refs', hp, hcontinues, hall⟩ := resolveAll_itself (s := s)
      (fun d hd => ih d hd (hlit d hd)) htable
    have he : p.2.Extends (p.2.newList p.1).2 := .newList _ _
    refine ⟨p.2.newList p.1, refs', ?_, hcontinues.mono he.size_le,
      .list (p.2.read_newList p.1) (hall.imp fun _ _ hd => hd.of_extends he List.prefix_rfl)⟩
    simp only [resolve, hp, bind, Except.bind, pure, Except.pure]
  | @mapping es hk _ _ ih =>
    intro h refs htable
    rw [texts, entryTexts_eq, List.forall_mem_flatMap] at hlit
    obtain ⟨p, refs', hp, hcontinues, hall⟩ := resolveEntries_itself (s := s)
      (fun e he => ⟨hk e he, ih e he (hlit e he)⟩) htable
    have he : p.2.Extends (p.2.newMapping p.1).2 := .newMapping _ _
    have hsnoc : (p.2.newMapping p.1).2.Continues refs' (refs' ++ [p.2.cells.size])
        (refs'.length + 1) :=
      hcontinues.table.snoc (Nat.le_refl _) (Heap.lt_of_read (p.2.read_newMapping p.1))
    have hmark : (refs' ++ [p.2.cells.size])[(Drawing.newEntries refs.length es).2]? =
        some p.2.cells.size := by
      rw [← hcontinues.free]
      exact List.getElem?_concat_length
    rw [hcontinues.free] at hsnoc
    refine ⟨p.2.newMapping p.1, refs' ++ [p.2.cells.size], ?_, hcontinues.trans hsnoc,
      .of_entries hmark (p.2.read_newMapping p.1) (hall.imp fun _ _ hd =>
        ⟨hd.key, hd.value.of_extends he hsnoc.starts⟩)⟩
    simp only [resolve, hp, bind, Except.bind, pure, Except.pure]

end Template

/-! ## Values of actions -/

/-- The path of a text that is one placeholder. -/
def Template.whole? (t : String) : Option (List String) :=
  match Piece.scan t.toList with
  | [.placeholder _ path] => some path
  | _ => none

namespace Data

/-- What the value of an action denotes: a placeholder the part that its path leads to, or itself if
    that leads nowhere; all else itself, with new marks. -/
def drawn (value : Data) (names : List (String × Data)) (s : Sketch) : Except Fault Sketch :=
  match value with
  | .text t =>
    match Template.whole? t with
    | some path =>
      (Drawing.lookUp names s.drawing path).map fun found => ⟨found.getD (.leaf (.text t)), s.next⟩
    | none => .ok (Drawing.new s.next (.text t))
  | d => .ok (Drawing.new s.next d)

/-- The value of an action is one placeholder, which leads to a part. -/
def LeadsTo (value : Data) (names : List (String × Data)) (s : Sketch) (d : Drawing) : Prop :=
  ∃ t path, value = .text t ∧ Template.whole? t = some path ∧
    Drawing.lookUp names s.drawing path = .ok (some d)

/-- A literal or one placeholder. -/
inductive Settable : Data → Prop
  | literal {d : Data} (hd : d.Literal) : Settable d
  | placeholder {t : String} {path : List String} (ht : Template.whole? t = some path) :
      Settable (.text t)

end Data

namespace Template

variable {c : Context} {h : Heap} {refs : List Ref} {value : Data} {t : String}
  {path : List String}

theorem exists_scan_of_whole (ht : whole? t = some path) :
    ∃ span, Piece.scan t.toList = [.placeholder span path] := by
  unfold whole? at ht
  split at ht
  · next span path' hscan =>
    cases ht
    exact ⟨span, hscan⟩
  · cases ht

theorem drawn_literal (hd : value.Literal) (names : List (String × Data)) (s : Sketch) :
    value.drawn names s = .ok (Drawing.new s.next value) := by
  unfold Data.drawn
  split
  · next t =>
    split
    · next path ht =>
      obtain ⟨span, hscan⟩ := exists_scan_of_whole ht
      exact absurd (hscan ▸ List.mem_singleton_self _)
        (hd.literal t (List.mem_singleton_self t) span path)
    · rfl
  · rfl

theorem drawn_placeholder (ht : whole? t = some path) (names : List (String × Data))
    (s : Sketch) : (Data.text t).drawn names s =
      (Drawing.lookUp names s.drawing path).map fun found =>
        ⟨found.getD (.leaf (.text t)), s.next⟩ := by
  simp only [Data.drawn, ht]

/-- What the value of an action denotes has new marks, or it is a part that is there. -/
theorem mark_of_drawn {names : List (String × Data)} {s x : Sketch} (hv : value.Settable)
    (hx : value.drawn names s = .ok x) {i : Nat} (hi : i ∈ x.drawing.marks) :
    s.next ≤ i ∨ ∃ d, value.LeadsTo names s d ∧ i ∈ d.marks := by
  cases hv with
  | literal hd =>
    rw [drawn_literal hd] at hx
    cases hx
    exact .inl ((Drawing.le_of_new s.next value).2 i hi)
  | @placeholder t path ht =>
    rw [drawn_placeholder ht] at hx
    cases hfound : Drawing.lookUp names s.drawing path with
    | error f =>
      rw [hfound] at hx
      cases hx
    | ok found =>
      rw [hfound] at hx
      cases hx
      cases found with
      | none => cases hi
      | some d => exact .inr ⟨d, ⟨t, path, rfl, ht, hfound⟩, hi⟩

/-- What a text becomes that is one placeholder. -/
theorem resolve_placeholder (s : Sources) (ht : whole? t = some path) :
    resolve s h (.text t) =
      (s.lookUp h path).map fun found => (found.getD (.text t), h) := by
  obtain ⟨span, hscan⟩ := exists_scan_of_whole ht
  have htext : resolveText s h t = (s.lookUp h path).map (·.getD (.text t)) := by
    cases hfound : s.lookUp h path with
    | error f =>
      simp only [resolveText, hscan, List.mapM_cons, Sources.part, hfound, Except.map, bind,
        Except.bind]
    | ok found =>
      cases found with
      | none =>
        refine resolveText_self fun span' path' hp => ?_
        rw [hscan] at hp
        cases List.mem_singleton.1 hp
        exact hfound
      | some v => exact resolveText_eq_ok_iff.2 (.value ⟨span, path, hscan, hfound⟩)
  rw [resolve, htext]
  cases s.lookUp h path <;> rfl

/-- **What the value of an action becomes is drawn as what it denotes.** -/
theorem resolve_drawn {s : Sketch} (hids : ∀ p ∈ c.identifiers, p.2.Scalar)
    (htable : h.Table refs) (hnext : refs.length = s.next)
    (hs : h.Draws refs s.drawing c.entity) (hv : value.Settable) :
    (∃ f, value.drawn c.identities s = .error f ∧
        resolve { context := c } h value = .error f) ∨
      ∃ x p refs', value.drawn c.identities s = .ok x ∧
        resolve { context := c } h value = .ok p ∧ p.2.Continues refs refs' x.next ∧
        p.2.Draws refs' x.drawing p.1 := by
  cases hv with
  | literal hd =>
    obtain ⟨p, refs', hp, hcontinues, hdraws⟩ :=
      becomesItself (s := { context := c }) hd h refs htable
    rw [hnext] at hcontinues hdraws
    exact .inr ⟨_, p, refs', drawn_literal hd _ _, hp, hcontinues, hdraws⟩
  | @placeholder t path ht =>
    have hfinds := Heap.lookUp_finds hids hs path
    rw [drawn_placeholder ht, resolve_placeholder _ ht]
    generalize ({ context := c } : Sources).lookUp h path = found at hfinds
    generalize Drawing.lookUp c.identities s.drawing path = found' at hfinds
    have hcontinues : h.Continues refs refs s.next := hnext ▸ htable.refl
    cases hfinds with
    | fault f => exact .inl ⟨f, rfl, rfl⟩
    | nothing =>
      exact .inr ⟨_, _, refs, rfl, rfl, hcontinues, .leaf (v := .text t) trivial⟩
    | found hdraws => exact .inr ⟨_, _, refs, rfl, rfl, hcontinues, hdraws⟩

end Template

end Rulebook
