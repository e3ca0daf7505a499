/-
  Updates of plain data, which store copies.

  On plain data, a write along a path changes the end of that path only, and a placeholder stores a
  copy of what it leads to: `Action.update?`.  The update of a drawing is this one where the mapping
  that it changes stands at one place (`Action.redraw_plain`).  Where that stands at several places,
  because an action stored it in another field, the change shows at all of them.

  * `Data.put`, `Data.denoted`, `Action.update?`: updates of plain data;
  * `Drawing.follow_plain`, `drawn_plain`: what placeholders denote;
  * `Drawing.put_plain`: writing along a path.
-/
import Rulebook.Proofs.Update.Fold

namespace Rulebook

/-! ## Plain data -/

namespace Data

/-- The entries of a mapping; none of anything else. -/
def entries : Data → List (Data × Data)
  | .mapping es => es
  | _ => []

/-- Data with a value at the end of a path; what is no mapping on the way becomes one. -/
def put : Data → List String → Data → Data
  | d, [], _ => d
  | d, [s], value => .mapping (insertEntry d.entries (.text s) value)
  | d, s :: rest, value =>
    .mapping (insertEntry d.entries (.text s) (put ((d.field? s).getD .null) rest value))

/-- The part of data that one segment leads to. -/
def child? : Data → String → Except Fault (Option Data)
  | .mapping es, s => .ok ( entry? es s)
  | .list ds, s => Path.itemAt ds s
  | .tuple ds, s => Path.itemAt ds s
  | _, _ => .ok none

/-- The part of data that a path leads to, if it leads anywhere. -/
def follow : Data → List String → Except Fault (Option Data)
  | d, [] => .ok (some d)
  | d, s :: rest =>
    match d.child? s with
    | .ok (some e) => e.follow rest
    | .ok none => .ok none
    | .error f => .error f

/-- What a path leads to, from names on or from the entity. -/
def lookUp (names : List (String × Data)) (entity : Data) :
    List String → Except Fault (Option Data)
  | [] => .ok none
  | head :: rest =>
    match (names ++ [("entity", entity)]).lookup head with
    | some d => d.follow rest
    | none => entity.follow (head :: rest)

/-- What the value of an action denotes: a placeholder what its path leads to, or itself if that
    leads nowhere; all else itself. -/
def denoted (value : Data) (names : List (String × Data)) (entity : Data) : Except Fault Data :=
  match value with
  | .text t =>
    match Template.whole? t with
    | some path => (lookUp names entity path).map (·.getD (.text t))
    | none => .ok (.text t)
  | d => .ok d

end Data

/-- The entity after parameters of an action that sets a field, if they can be carried out. -/
def Details.update? (ps : Details) (names : List (String × Data)) (entity : Data) : Option Data :=
  match ps.parameter "field" with
  | .text path =>
    if path.isEmpty then none
    else
      match (ps.parameter "value").denoted names entity, entity.follow (Path.split path) with
      | .ok value, .ok _ => some (entity.put (Path.split path) value)
      | _, _ => none
  | _ => none

/-- The entity after an action that sets a field, if the action can be carried out. -/
def Action.update? (a : Action) (x : Executor) (names : List (String × Data)) (entity : Data) :
    Option Data :=
  match x.timeLimit a.parameters with
  | .ok milliseconds =>
    if milliseconds / 1000.0 ≤ 0.0 then none else Details.update? a.parameters names entity
  | .error _ => none

/-! ## Proper drawings -/

namespace Drawing

/-- Leaves have no parts, and no text is a key of a mapping twice. -/
inductive Proper : Drawing → Prop
  | leaf {v : Value} (hv : v.Scalar) : Proper (.leaf (v.plain fun _ => .null))
  | tuple {ds : List Drawing} (hs : ∀ d ∈ ds, Proper d) : Proper (.tuple ds)
  | list {ds : List Drawing} (hs : ∀ d ∈ ds, Proper d) : Proper (.list ds)
  | mapping {i : Nat} {es : List (Data × Drawing)}
      (honce : (es.map (·.1)).Pairwise Data.Apart) (hs : ∀ e ∈ es, Proper e.2) :
      Proper (.mapping i es)

end Drawing

/-! ## Reading -/

theorem Data.entry?_eq (es : List (Data × Data)) (name : String) :
    Data.entry? es name = (es.find? fun e => e.1.equal (.text name)).map (·.2) := by
  unfold Data.entry?
  congr 2
  funext e
  cases e.1 <;> simp [equal, equalNumber]

theorem Path.itemAt_map {α β : Type} (f : α → β) (items : List α) (segment : String) :
    itemAt (items.map f) segment = (itemAt items segment).map (Option.map f) := by
  unfold itemAt
  split
  · cases Data.readWhole segment 10 with
    | error => rfl
    | ok n => exact congrArg Except.ok List.getElem?_map
  · rfl

namespace Drawing

variable {d x : Drawing} {es : List (Data × Drawing)} {i : Nat} {name : String}

theorem field?_plain (es : List (Data × Drawing)) (name : String) :
    Data.entry? (plainEntries es) name = (field? es name).map plain := by
  rw [Data.entry?_eq, plainEntries_eq, List.find?_map, field?, Option.map_map, Option.map_map]
  rfl

namespace Proper

theorem child?_plain (hd : d.Proper) (s : String) :
    d.plain.child? s = (d.child? s).map (Option.map plain) := by
  cases hd with
  | leaf hv =>
    rename_i v
    cases v
    case tuple | slice | list | mapping => exact hv.elim
    all_goals rfl
  | tuple | list =>
    rw [plain, plainAll_eq]
    exact Path.itemAt_map plain _ s
  | mapping => exact congrArg Except.ok (field?_plain _ s)

theorem child (hd : d.Proper) {s : String} (he : d.child? s = .ok (some x)) : x.Proper := by
  cases hd with
  | leaf => cases he
  | tuple hs | list hs =>
    rw [Drawing.child?] at he
    exact hs x (Heap.mem_of_itemAt he)
  | mapping _ hs =>
    obtain ⟨e, hfound, rfl⟩ := Option.map_eq_some_iff.1 (Except.ok.inj he)
    exact hs e (List.mem_of_find?_eq_some hfound)

/-- A path leads to the plain data of the part that it leads to. -/
theorem follow_plain (hd : d.Proper) (path : List String) :
    d.plain.follow path = (d.follow path).map (Option.map plain) := by
  induction path generalizing d with
  | nil => rfl
  | cons s rest ih =>
    rw [Data.follow, Drawing.follow, hd.child?_plain]
    cases hchild : d.child? s with
    | error => rfl
    | ok found =>
      cases found with
      | none => rfl
      | some e => exact ih (hd.child hchild)

end Proper

theorem lookup_plain (ds : List (String × Drawing)) (name : String) :
    (ds.map fun p => (p.1, p.2.plain)).lookup name = (ds.lookup name).map plain := by
  induction ds with
  | nil => rfl
  | cons p ds ih =>
    rw [List.map_cons, List.lookup_cons, List.lookup_cons, ih]
    cases name == p.1 <;> rfl

theorem mem_of_lookup {α : Type} {ds : List (String × α)} {a : α} (h : ds.lookup name = some a) :
    (name, a) ∈ ds := by
  obtain ⟨before, after, rfl, -⟩ := List.lookup_eq_some_iff.1 h
  simp

/-- A placeholder leads to the plain data of the part that it leads to. -/
theorem lookUp_plain {names : List (String × Data)} (hnames : ∀ p ∈ names, (leaf p.2).Proper)
    (hd : d.Proper) (path : List String) :
    Data.lookUp names d.plain path = (lookUp names d path).map (Option.map plain) := by
  cases path with
  | nil => rfl
  | cons head rest =>
    have hroots : names ++ [("entity", d.plain)] =
        (names.map (fun p => (p.1, leaf p.2)) ++ [("entity", d)]).map fun p =>
          (p.1, p.2.plain) := by
      rw [List.map_append, List.map_map]
      exact congrArg (· ++ _) (List.map_id names).symm
    rw [Data.lookUp, lookUp, hroots, lookup_plain]
    cases hfound : (names.map (fun p => (p.1, leaf p.2)) ++ [("entity", d)]).lookup head with
    | none => exact hd.follow_plain _
    | some e =>
      have he : e.Proper := by
        rcases List.mem_append.1 (mem_of_lookup hfound) with hmem | hmem
        · obtain ⟨p, hp, heq⟩ := List.mem_map.1 hmem
          cases heq
          exact hnames p hp
        · cases List.mem_singleton.1 hmem
          exact hd
      exact he.follow_plain _

mutual

theorem new_plain (next : Nat) : ∀ d, (new next d).drawing.plain = d
  | .null | .bool _ | .int _ | .float _ | .text _ | .instant _ | .duration _ | .slice ..
  | .cycle _ => rfl
  | .tuple ds => congrArg Data.tuple (newAll_plain next ds)
  | .list ds => congrArg Data.list (newAll_plain next ds)
  | .mapping es => congrArg Data.mapping (newEntries_plain next es)

theorem newAll_plain (next : Nat) : ∀ ds, plainAll (newAll next ds).1 = ds
  | [] => rfl
  | d :: ds => congrArg₂ List.cons (new_plain next d) (newAll_plain _ ds)

theorem newEntries_plain (next : Nat) : ∀ es, plainEntries (newEntries next es).1 = es
  | [] => rfl
  | (k, d) :: es =>
    congrArg₂ List.cons (congrArg (Prod.mk k) (new_plain next d)) (newEntries_plain _ es)

end

end Drawing

/-- The value of an action denotes the plain data of what it is drawn as. -/
theorem Data.drawn_plain {names : List (String × Data)} {s : Sketch}
    (hnames : ∀ p ∈ names, (Drawing.leaf p.2).Proper) (hs : s.drawing.Proper) (value : Data) :
    value.denoted names s.drawing.plain = (value.drawn names s).map fun x => x.drawing.plain := by
  cases value with
  | text t =>
    rw [denoted, drawn]
    cases Template.whole? t with
    | none => rfl
    | some path =>
      dsimp only
      rw [Drawing.lookUp_plain hnames hs]
      rcases Drawing.lookUp names s.drawing path with f | found
      · rfl
      · cases found <;> rfl
  | _ => exact congrArg Except.ok (Drawing.new_plain _ _).symm

/-! ## Writing -/

namespace Data

variable {name : String} {rest : List String}

theorem field?_eq (d : Data) (name : String) : d.field? name = Data.entry? d.entries name := by
  cases d <;> rfl

theorem put_cons (d : Data) (hrest : rest ≠ []) (value : Data) : d.put (name :: rest) value =
    .mapping (insertEntry d.entries (.text name)
      (((d.field? name).getD .null).put rest value)) := by
  cases rest with
  | nil => exact absurd rfl hrest
  | cons => rfl

/-- What is no mapping is written to as an empty one is. -/
theorem put_of_entries_nil {d : Data} (hd : d.entries = []) (hrest : rest ≠ []) (value : Data) :
    d.put rest value = (mapping []).put rest value := by
  obtain ⟨s, rest, rfl⟩ := List.exists_cons_of_ne_nil hrest
  have hfield : d.field? s = none := by
    rw [field?_eq, hd]
    rfl
  cases rest with
  | nil =>
    rw [put, put, hd]
    rfl
  | cons s' rest =>
    rw [put_cons _ (List.cons_ne_nil s' rest), put_cons _ (List.cons_ne_nil s' rest), hd, hfield]
    rfl

end Data

namespace Drawing

variable {d x : Drawing} {es : List (Data × Drawing)} {i : Nat} {name : String}
  {path rest : List String}

mutual

/-- A mapping that is not drawn is not changed. -/
theorem change_of_not_mem (name : String) (x : Drawing) : ∀ d : Drawing, i ∉ d.marks →
    d.change i name x = d
  | leaf _, _ => rfl
  | tuple ds, h => congrArg tuple (changeAll_of_not_mem name x ds h)
  | list ds, h => congrArg list (changeAll_of_not_mem name x ds h)
  | mapping j es, h => by
    obtain ⟨hne, hes⟩ := not_or.1 (mt List.mem_cons.2 h)
    rw [change, if_neg (Ne.symm hne), changeEntries_of_not_mem name x es hes]

theorem changeAll_of_not_mem (name : String) (x : Drawing) : ∀ ds, i ∉ marksAll ds →
    changeAll ds i name x = ds
  | [], _ => rfl
  | d :: ds, h => by
    obtain ⟨hd, hds⟩ := not_or.1 (mt List.mem_append.2 h)
    rw [changeAll, change_of_not_mem name x d hd, changeAll_of_not_mem name x ds hds]

theorem changeEntries_of_not_mem (name : String) (x : Drawing) : ∀ es, i ∉ marksEntries es →
    changeEntries es i name x = es
  | [], _ => rfl
  | (k, d) :: es, h => by
    obtain ⟨hd, hes⟩ := not_or.1 (mt List.mem_append.2 h)
    rw [changeEntries, change_of_not_mem name x d hd, changeEntries_of_not_mem name x es hes]

end

theorem insert_plain (es : List (Data × Drawing)) (name : String) (x : Drawing) :
    plainEntries (insert es name x) =
      Data.insertEntry (plainEntries es) (.text name) x.plain := by
  have hany : ((plainEntries es).any fun e => e.1.equal (.text name)) =
      es.any fun e => e.1.equal (.text name) := by
    rw [plainEntries_eq, List.any_map]
    rfl
  unfold insert Data.insertEntry
  rw [hany]
  split_ifs
  · simp only [plainEntries_eq, List.map_map]
    refine List.map_congr_left fun e _ => ?_
    simp only [Function.comp_apply]
    split_ifs <;> rfl
  · simp only [plainEntries_eq, List.map_append, List.map_cons, List.map_nil]

theorem insert_cons (e : Data × Drawing) : insert (e :: es) name x =
    if e.1.equal (.text name) then
      (e.1, x) :: es.map fun e => if e.1.equal (.text name) then (e.1, x) else e
    else e :: insert es name x := by
  unfold insert
  rw [List.any_cons, List.map_cons]
  cases e.1.equal (.text name) with
  | true => rfl
  | false =>
    rw [Bool.false_or, if_neg Bool.false_ne_true, if_neg Bool.false_ne_true]
    split_ifs <;> rfl

theorem nested_plain (next : Nat) (hrest : rest ≠ []) :
    (nested next rest x).plain = (Data.mapping []).put rest x.plain := by
  induction rest generalizing next with
  | nil => exact absurd rfl hrest
  | cons s rest ih =>
    cases rest with
    | nil => rfl
    | cons s' rest =>
      have hne := List.cons_ne_nil s' rest
      rw [Data.put_cons _ hne, nested, plain, plainEntries, plainEntries, ih _ hne]
      rw [show (((Data.mapping []).field? s).getD .null) = .null from rfl,
        Data.put_of_entries_nil (d := .null) rfl hne]
      rfl

theorem count_le_of_field (hfield : field? es name = some d) (i : Nat) :
    d.marks.count i ≤ (marksEntries es).count i := by
  obtain ⟨e, he, rfl⟩ := Option.map_eq_some_iff.1 hfield
  rw [marksEntries_eq]
  have hsub := (List.singleton_sublist.2 (List.mem_of_find?_eq_some he)).flatMap
    fun e : Data × Drawing => e.2.marks
  simpa using hsub.count_le i

/-- If the mapping that is changed has one place, and a field leads to it, only the field is
    changed. -/
theorem changeEntries_of_field
    (honce : (es.map (·.1)).Pairwise Data.Apart)
    (hfield : field? es name = some d) (hi : i ∈ d.marks) (hcount : (marksEntries es).count i ≤ 1)
    (key : String) (x : Drawing) :
    changeEntries es i key x = insert es name (d.change i key x) := by
  induction es with
  | nil => cases hfield
  | cons e es ih =>
    obtain ⟨k, e⟩ := e
    obtain ⟨hfirst, honce⟩ := List.pairwise_cons.1 honce
    rw [marksEntries, List.count_append] at hcount
    rw [field?_cons] at hfield
    rw [changeEntries, insert_cons]
    split_ifs at hfield ⊢ with hkey
    · cases hfield
      have hpos : 0 < e.marks.count i := List.count_pos_iff.2 hi
      rw [changeEntries_of_not_mem key x es (List.count_eq_zero.1 (by omega))]
      refine congrArg (List.cons _) (Eq.trans (List.map_id es).symm (List.map_congr_left ?_))
      intro e' he'
      have hne := hfirst e'.1 (List.mem_map_of_mem he') name (Data.equal_text_iff.1 hkey)
      rw [if_neg fun h => hne (Data.equal_text_iff.1 h)]
      rfl
    · have hpos := List.count_pos_iff.2 (mem_marks_of_field hfield hi)
      rw [change_of_not_mem key x e (List.count_eq_zero.1 (by omega)),
        ih honce hfield (by omega)]

/-- What is no mapping has no entries. -/
theorem entries_plain_of_ne (hs : ∀ e ∈ es, e.2.Proper)
    (hno : ∀ j fs, field? es name ≠ some (mapping j fs)) :
    (((Data.mapping (plainEntries es)).field? name).getD .null).entries = [] := by
  rw [Data.field?_eq, Data.entries, field?_plain]
  cases hfield : field? es name with
  | none => rfl
  | some d =>
    obtain ⟨e, he, rfl⟩ := Option.map_eq_some_iff.1 hfield
    have hproper := hs e (List.mem_of_find?_eq_some he)
    generalize e.2 = d at hfield hproper
    cases hproper with
    | leaf hv =>
      rename_i v
      cases v
      case tuple | slice | list | mapping => exact hv.elim
      all_goals rfl
    | tuple | list => rfl
    | mapping => exact absurd hfield (hno _ _)

/-- **Writing along a path is an update of plain data**, if the mapping that it changes has one
    place. -/
theorem put_plain (hd : (mapping i es).Proper) (hpath : path ≠ [])
    (honce : ∀ mark key rest, (mapping i es).locate? path = some (mark, key, rest) →
      (mapping i es).marks.count mark ≤ 1) (s : Sketch) :
    ((mapping i es).put path s).drawing.plain =
      (mapping i es).plain.put path s.drawing.plain := by
  obtain ⟨mark, key, rest, hlocate⟩ := exists_locate i es hpath
  have hcount := honce mark key rest hlocate
  rw [put, hlocate]
  dsimp only
  clear honce hpath
  induction path generalizing i es with
  | nil => cases hlocate
  | cons name path ih =>
    cases hd with
    | mapping hkeys hs =>
    rw [marks] at hcount
    by_cases hmapping : path ≠ [] ∧ ∃ j fs, field? es name = some (mapping j fs)
    · obtain ⟨hne, j, fs, hfield⟩ := hmapping
      rw [locate?_of_mapping hfield hne] at hlocate
      have hmark := mem_marks_of_locate hlocate
      have hmem := mem_marks_of_field hfield hmark
      have hpos := List.count_pos_iff.2 hmem
      have hother : i ≠ mark := by
        rintro rfl
        rw [List.count_cons_self] at hcount
        omega
      rw [List.count_cons_of_ne hother] at hcount
      obtain ⟨e, he, heq⟩ := Option.map_eq_some_iff.1 hfield
      have hproper : (mapping j fs).Proper := heq ▸ hs e (List.mem_of_find?_eq_some he)
      have hplain : (mapping i es).plain.field? name = some (mapping j fs).plain := by
        rw [plain, Data.field?, field?_plain, hfield]
        rfl
      have hbelow := ih hproper hlocate (Nat.le_trans ?_ hcount)
      · rw [Data.put_cons _ hne, hplain, Option.getD_some, ← hbelow, change, if_neg hother,
          changeEntries_of_field hkeys hfield hmark hcount, plain, insert_plain]
        rfl
      · exact count_le_of_field hfield mark
    · rw [locate?_of_not hmapping] at hlocate
      obtain ⟨rfl, rfl, rfl⟩ : i = mark ∧ name = key ∧ path = rest := by simpa using hlocate
      rw [List.count_cons_self] at hcount
      rw [change, if_pos rfl, changeEntries_of_not_mem _ _ es (List.count_eq_zero.1 (by omega)),
        plain, insert_plain]
      by_cases hpath : path = []
      · subst hpath
        rfl
      · rw [Data.put_cons _ hpath, nested_plain _ hpath, plain, Data.entries,
          Data.put_of_entries_nil (entries_plain_of_ne hs fun j fs hfield =>
            hmapping ⟨hpath, j, fs, hfield⟩) hpath]

end Drawing

/-! ## Actions -/

/-- **An action that changes a mapping with one place is an update of plain data**: it may as well
    store a copy. -/
theorem Action.redraw_plain (a : Action) (x : Executor) {names : List (String × Data)} {s : Sketch}
    {i : Nat} {es : List (Data × Drawing)} (hd : s.drawing = .mapping i es)
    (hproper : s.drawing.Proper) (hnames : ∀ p ∈ names, (Drawing.leaf p.2).Proper)
    (honce : ∀ path mark key rest, Details.parameter a.parameters "field" = .text path →
      s.drawing.locate? (Path.split path) = some (mark, key, rest) →
      s.drawing.marks.count mark ≤ 1) :
    (a.redraw? x names s).map (fun s => s.drawing.plain) =
      a.update? x names s.drawing.plain := by
  unfold redraw? update?
  cases x.timeLimit a.parameters with
  | error => rfl
  | ok milliseconds =>
    dsimp only
    by_cases hnever : milliseconds / 1000.0 ≤ 0.0
    · rw [if_pos hnever, if_pos hnever]
      rfl
    rw [if_neg hnever, if_neg hnever]
    unfold Details.redraw? Details.update?
    rw [Data.drawn_plain hnames hproper]
    generalize Details.parameter a.parameters "field" = field at honce
    cases field
    case text path =>
      dsimp only
      split_ifs
      · rfl
      · rw [hproper.follow_plain]
        cases (Details.parameter a.parameters "value").drawn names s with
        | error => rfl
        | ok value =>
          cases s.drawing.follow (Path.split path) with
          | error => rfl
          | ok found =>
            have honce := honce path
            have hpath := Path.split_ne_nil path
            rw [hd] at hproper honce ⊢
            exact congrArg some (Drawing.put_plain hproper hpath
              (fun mark key rest => honce mark key rest rfl) value)
    all_goals rfl

/-! ## A customer and its copy -/

namespace Customer

theorem tree : heap.Tree [0] := by
  have held_root : heap.held 0 = [1] := by
    simp [heap, Heap.held, Heap.read?, Cell.refs, Value.refs]
  have held_customer : heap.held 1 = [] := by
    simp [heap, Heap.held, Heap.read?, Cell.refs, Value.refs]
  refine .of_held (by simp [heap]) (held_root ▸ .of_leaf (by simp [heap]) held_customer) ?_
  simp [held_root, Heap.Reaches.singleton_iff, held_customer, Heap.Reaches.not_nil]

/-- The update of an action that sets a field to a text. -/
theorem update?_setting {field value : String} {order : Int} {d v : Data} {found : Option Data}
    (hfield : field.isEmpty = false)
    (hv : (Data.text value).denoted context.identities d = .ok v)
    (hfound : d.follow (Path.split field) = .ok found) :
    (setting field value order).update? executor context.identities d =
      some (d.put (Path.split field) v) := by
  obtain ⟨t, htime, hsome⟩ : ∃ t : Float,
      executor.timeLimit (setting field value order).parameters = .ok t ∧ ¬t / 1000.0 ≤ 0.0 :=
    ⟨_, rfl, by decide +kernel⟩
  have hvalue : Details.parameter (setting field value order).parameters "value" = .text value :=
    rfl
  have hpath : Details.parameter (setting field value order).parameters "field" = .text field :=
    rfl
  unfold Action.update? Details.update?
  rw [htime, hvalue, hpath]
  dsimp only
  rw [if_neg hsome, hfield, hv, hfound]
  rfl

theorem update?_share : share.update? executor context.identities (entity "a" []).plain =
    some (entity "a" [(.text "copy", customer "a")]).plain := by
  have hv : (Data.text "\x7b\x7bentity.customer\x7d\x7d").denoted context.identities
      (entity "a" []).plain = .ok (customer "a").plain := by
    simp only [Data.denoted, whole?_share]
    rfl
  exact update?_setting rfl hv rfl

theorem update?_rename : rename.update? executor context.identities
    (entity "a" [(.text "copy", customer "a")]).plain =
      some (entity "b" [(.text "copy", customer "a")]).plain := by
  have hv (d : Data) : (Data.text "b").denoted context.identities d = .ok (.text "b") := by
    rw [Data.denoted]
    split
    · next path hpath =>
      obtain ⟨span, hscan⟩ := Template.exists_scan_of_whole hpath
      exact absurd (hscan ▸ List.mem_singleton_self _)
        (literal_b.literal "b" (List.mem_singleton_self _) span path)
    · rfl
  exact update?_setting rfl (hv _) rfl

/-- **What is stored from a placeholder is no copy.** A customer is stored in another field, and
    then renamed: both fields show the new name, where a fold of updates of plain data leaves the
    old one in the copy. -/
theorem rename_shows_twice :
    heap.Tree [0] ∧ (∀ a ∈ [share, rename], a.SetsField) ∧
      Executor.ordered [share, rename] = .ok [(0, share), (1, rename)] ∧
      (executor.runBatch true context [share, rename] state).2.heap.plain context.entity =
        (entity "b" [(.text "copy", customer "b")]).plain ∧
      [share, rename].foldl (fun d a => (a.update? executor context.identities d).getD d)
          (heap.plain context.entity) = (entity "b" [(.text "copy", customer "a")]).plain ∧
      (entity "b" [(.text "copy", customer "b")]).plain ≠
        (entity "b" [(.text "copy", customer "a")]).plain := by
  have hturns : Executor.ordered [share, rename] = .ok [(0, share), (1, rename)] := rfl
  have hids : ∀ p ∈ context.identifiers, p.2.Scalar := by
    simp [context, Context.identifiers, Value.Scalar]
  have hran : executor.ran true context [share, rename]
      (state.entered (Executor.bindings context state.heap)) = [share, rename] := ran_eq true _
  obtain ⟨-, -, hplain⟩ := Executor.runBatch_draws executor true context state (e := 0) rfl rfl
    hids table draws (fun _ => setsField) (fun a _ => timesGuards.guardFault?_eq_none a) hturns
    (hran ▸ untangled)
  refine ⟨tree, fun _ => setsField, hturns, ?_, ?_, ?_⟩
  · rw [hplain, List.map_cons, List.map_cons, List.map_nil, hran]
    exact congrArg (fun s => s.drawing.plain) redrawn_eq
  · have hplain : heap.plain context.entity = (entity "a" []).plain := draws.plain_eq
    rw [hplain, List.foldl_cons, List.foldl_cons, List.foldl_nil, update?_share, Option.getD_some,
      update?_rename, Option.getD_some]
  · simp [entity, customer, Drawing.plain, Drawing.plainEntries]

end Customer

end Rulebook
