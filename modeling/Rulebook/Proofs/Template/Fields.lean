/-
  Fields of conditions and placeholders of templates.

  A condition names its field by a dotted text, a template by a placeholder.  The one text is taken
  apart at its points, once the numbers in brackets stand behind points; the other is read by the
  grammar of placeholders.  On a path of the grammar both come to the same segments, and both
  follow them from the entity, unless the path starts at a root of the context.

  * `Suffixes`, `Spelling`: how a field may spell a path, with numbers behind points or in brackets;
  * `ofField_spelling`: a field has the segments of the path that it spells;
  * `resolve_alone`: what a placeholder alone becomes;
  * `fieldValue_spelling`: what a field is, by the path that it spells;
  * `fields_read_alike`: what a field and a placeholder with one path have in common.
-/
import Rulebook.Condition
import Rulebook.Proofs.Template.Scanning

namespace Rulebook

/-! ## Spellings -/

namespace Template.Grammar

variable {s cs text : List Char} {path ss : List (List Char)}

/-- Segments behind points, or in brackets if they are decimal numbers. -/
inductive Suffixes : List (List Char) → List Char → Prop
  | nil : Suffixes [] []
  | point {s cs : List Char} {ss : List (List Char)} : Segment s → Suffixes ss cs →
      Suffixes (s :: ss) ('.' :: (s ++ cs))
  | bracket {s cs : List Char} {ss : List (List Char)} : s ≠ [] → (∀ c ∈ s, Text.isDecimal c) →
      Suffixes ss cs → Suffixes (s :: ss) ('[' :: (s ++ ']' :: cs))

/-- An identifier, then segments behind points or in brackets. -/
inductive Spelling : List (List Char) → List Char → Prop
  | intro {s cs : List Char} {ss : List (List Char)} : Identifier s → Suffixes ss cs →
      Spelling (s :: ss) (s ++ cs)

theorem Segments.suffixes (h : Segments ss cs) : Suffixes ss cs := by
  induction h with
  | nil => exact .nil
  | cons hs _ ih => exact .point hs ih

/-- A point or a bracket stands in front of a segment. -/
theorem Suffixes.exists_mark {ss : List (List Char)} (hss : Suffixes ss cs) (hne : ss ≠ []) :
    '.' ∈ cs ∨ '[' ∈ cs := by
  cases hss with
  | nil => exact absurd rfl hne
  | point _ _ => exact .inl List.mem_cons_self
  | bracket _ _ _ => exact .inr List.mem_cons_self

/-- A path spells itself. -/
theorem Path.spelling (h : Path path text) : Spelling path text := by
  obtain ⟨hs, hss⟩ := h
  exact .intro hs hss.suffixes

/-- Segments without points in them, each behind a point. -/
def behindPoints (ss : List (List Char)) : List Char :=
  ss.flatMap fun s => '.' :: s

end Template.Grammar

namespace Path

open Template.Grammar

variable {s cs text : List Char} {path ss : List (List Char)} {fuel : Nat}

/-! ### Brackets -/

theorem bracketed?_of_ne {c : Char} (hc : c ≠ '[') (cs : List Char) :
    bracketed? (c :: cs) = none := by
  unfold bracketed?
  split
  · next h => exact absurd (List.cons.inj h).1 hc
  · rfl

/-- A number in brackets is found. -/
theorem bracketed?_number (hne : s ≠ []) (hs : ∀ c ∈ s, Text.isDecimal c) (cs : List Char) :
    bracketed? ('[' :: (s ++ ']' :: cs)) = some (s, cs) := by
  obtain ⟨d, ds, rfl⟩ := List.exists_cons_of_ne_nil hne
  have hends : Template.Grammar.Ends Text.isDecimal (']' :: cs) := fun c hc => by
    cases hc
    decide
  have htake := (takeWhile_append hs hends).1
  simp only [bracketed?, htake, List.drop_left]

/-- Nothing in front of the first bracket changes. -/
theorem dotted_append (hs : '[' ∉ s) (fuel : Nat) (cs : List Char) :
    dotted (s.length + fuel) (s ++ cs) = s ++ dotted fuel cs := by
  induction s with
  | nil => rw [List.length_nil, Nat.zero_add]; rfl
  | cons c s ih =>
    have hc : c ≠ '[' := fun h => hs (h ▸ List.mem_cons_self)
    rw [List.length_cons, Nat.add_right_comm, List.cons_append, dotted,
      bracketed?_of_ne hc]
    exact congrArg (c :: ·) (ih fun h => hs (List.mem_cons_of_mem _ h))

/-- Brackets become points. -/
theorem dotted_suffixes (h : Suffixes ss cs) (hfuel : cs.length ≤ fuel) :
    dotted fuel cs = behindPoints ss := by
  induction h generalizing fuel with
  | nil => cases fuel <;> rfl
  | @point s cs ss hs _ ih =>
    obtain ⟨more, rfl⟩ := Nat.exists_eq_add_of_le hfuel
    have hno : '[' ∉ '.' :: s := List.not_mem_cons_of_ne_of_not_mem (by decide)
      (hs.not_mem (by decide) (by decide) (by decide))
    have hlength : ('.' :: (s ++ cs)).length + more = ('.' :: s).length + (cs.length + more) := by
      simp only [List.length_cons, List.length_append]; omega
    rw [hlength, ← List.cons_append, dotted_append hno, ih (Nat.le_add_right _ _)]
    rfl
  | @bracket s cs ss hne hs _ ih =>
    obtain ⟨more, rfl⟩ := Nat.exists_eq_add_of_le hfuel
    have hlength : ('[' :: (s ++ ']' :: cs)).length + more =
        (s.length + cs.length + 1 + more) + 1 := by
      simp only [List.length_cons, List.length_append]; omega
    rw [hlength, dotted, bracketed?_number hne hs]
    dsimp only
    rw [ih (by omega)]
    rfl

/-! ### Points -/

theorem parts_of_not_mem (hs : '.' ∉ s) : parts s = [s] := by
  induction s with
  | nil => rfl
  | cons c s ih =>
    have hc : c ≠ '.' := fun h => hs (h ▸ List.mem_cons_self)
    rw [parts, if_neg hc, ih fun h => hs (List.mem_cons_of_mem _ h)]

theorem parts_append (hs : '.' ∉ s) (cs : List Char) :
    parts (s ++ '.' :: cs) = s :: parts cs := by
  induction s with
  | nil => rw [List.nil_append, parts, if_pos rfl]
  | cons c s ih =>
    have hc : c ≠ '.' := fun h => hs (h ▸ List.mem_cons_self)
    rw [List.cons_append, parts, if_neg hc, ih fun h => hs (List.mem_cons_of_mem _ h)]

/-- Segments behind points are the parts between them. -/
theorem parts_behindPoints (hs : '.' ∉ s) (hss : ∀ p ∈ ss, '.' ∉ p) :
    parts (s ++ behindPoints ss) = s :: ss := by
  induction ss generalizing s with
  | nil => rw [behindPoints, List.flatMap_nil, List.append_nil, parts_of_not_mem hs]
  | cons p ss ih =>
    obtain ⟨hp, hss⟩ := List.forall_mem_cons.1 hss
    change parts (s ++ '.' :: (p ++ behindPoints ss)) = _
    rw [parts_append hs, ih hp hss]

theorem point_not_mem_of_suffixes (h : Suffixes ss cs) : ∀ p ∈ ss, '.' ∉ p := by
  induction h with
  | nil => exact fun _ hp => absurd hp List.not_mem_nil
  | point hs _ ih =>
    exact List.forall_mem_cons.2 ⟨hs.not_mem (by decide) (by decide) (by decide), ih⟩
  | bracket _ hs _ ih =>
    exact List.forall_mem_cons.2 ⟨fun hpoint => absurd (hs _ hpoint) (by decide), ih⟩

/-- **A field has the segments of the path that it spells.** -/
theorem ofField_spelling (h : Spelling path text) :
    ofField (String.ofList text) = path.map String.ofList := by
  obtain @⟨s, cs, ss, hs, hss⟩ := h
  have hbracket : '[' ∉ s := hs.not_mem (by decide) (by decide)
  have hpoint : '.' ∉ s := hs.not_mem (by decide) (by decide)
  rw [ofField, split, String.length_ofList, String.toList_ofList, String.toList_ofList,
    List.length_append, dotted_append hbracket, dotted_suffixes hss (Nat.le_refl _),
    parts_behindPoints hpoint (point_not_mem_of_suffixes hss)]

end Path

/-! ## Placeholders alone -/

namespace Template

open Grammar (Placeholder)

variable {s : Sources} {h : Heap} {text span : List Char} {path : List (List Char)}

/-- A path between braces. -/
def braced (text : List Char) : List Char :=
  '{' :: '{' :: (text ++ ['}', '}'])

/-- A text that is a placeholder has one piece. -/
theorem scan_alone (hspan : Placeholder path span) :
    Piece.scan span = [.placeholder span (path.map String.ofList)] := by
  obtain ⟨body, rfl, -⟩ := hspan.exists_body
  have hread : bodyAfter? (body ++ ['}']) = some (path, []) := by
    have hread := Grammar.placeholder?_complete hspan []
    rwa [List.append_nil] at hread
  obtain ⟨span', hscan⟩ := scan_placeholder hread
  have hspan' := Piece.concat_scan ('{' :: '{' :: (body ++ ['}']))
  rw [hscan, Piece.scan] at hspan' ⊢
  rw [List.flatMap_cons, List.flatMap_nil, List.append_nil, Piece.span] at hspan'
  rw [hspan']

/-- What a placeholder alone becomes: what its path leads to, or itself if that is nowhere. -/
theorem resolve_alone (hspan : Placeholder path span) :
    resolve s h (.text (String.ofList span)) =
      (s.lookUp h (path.map String.ofList)).map fun
        | some v => (v, h)
        | none => (.text (String.ofList span), h) := by
  rw [resolve, resolveText, String.toList_ofList, scan_alone hspan, List.mapM_cons, List.mapM_nil,
    Sources.part]
  cases s.lookUp h (path.map String.ofList) with
  | error f => rfl
  | ok found =>
    cases found with
    | some v => rfl
    | none =>
      change (do
        let t ← (do
          return Value.text (String.join (← [Part.literal span].mapM (Part.text h))))
        return (t, h)) = _
      simp [Part.text, String.join, Except.map]

end Template

/-! ## Fields -/

namespace Condition

open Template Template.Grammar

variable {c : Context} {h : Heap} {s cs text : List Char} {path : List (List Char)}

/-- The names of the identifiers. -/
def identifierNames : List String :=
  ["entityId", "entityType", "userId", "correlationId", "timestamp"]

/-- No other name is looked up among the identifiers. -/
theorem lookup_identifiers_eq_none {name : String} (hname : name ∉ identifierNames) :
    c.identifiers.lookup name = none := by
  refine List.lookup_eq_none_iff.2 fun e he => bne_iff_ne.2 ?_
  rintro rfl
  exact hname (List.mem_map_of_mem (f := Prod.fst) he)

/-- An identifier is named without points and brackets. -/
theorem not_mem_identifierNames {name : String} (hname : '.' ∈ name.toList ∨ '[' ∈ name.toList) :
    name ∉ identifierNames := by
  have hnone : ∀ n ∈ identifierNames, '.' ∉ n.toList ∧ '[' ∉ n.toList := by decide
  intro hmem
  obtain ⟨hpoint, hbracket⟩ := hnone name hmem
  exact hname.elim hpoint hbracket

/-- What a path is as a field: an identifier, if it is the name of one, else what it leads to in the
    entity. -/
def pathValue (c : Context) (h : Heap) (path : List String) : Except Fault Value :=
  let below := (h.follow c.entity path).map (·.getD .null)
  match path with
  | [name] =>
    match c.identifiers.lookup name with
    | some v => .ok v
    | none => below
  | _ => below

/-- A field that spells a path is what the path is. -/
theorem fieldValue_spelling (c : Context) (h : Heap) (hspelling : Spelling path text) :
    fieldValue c h (.text (String.ofList text)) = pathValue c h (path.map String.ofList) := by
  have hvalue : fieldValue c h (.text (String.ofList text)) =
      match c.identifiers.lookup (String.ofList text) with
      | some v => .ok v
      | none => (h.follow c.entity (Path.ofField (String.ofList text))).map (·.getD .null) := rfl
  rw [hvalue, Path.ofField_spelling hspelling]
  obtain @⟨s, cs, ss, hs, hss⟩ := hspelling
  cases ss with
  | nil =>
    cases hss
    rw [List.append_nil]
    rfl
  | cons p ss =>
    have hmark := hss.exists_mark (List.cons_ne_nil p ss)
    have hname : String.ofList (s ++ cs) ∉ identifierNames := by
      refine not_mem_identifierNames ?_
      rw [String.toList_ofList, List.mem_append, List.mem_append]
      exact hmark.imp .inr .inr
    rw [lookup_identifiers_eq_none hname]
    rfl

end Condition

/-! ## One path in both -/

namespace Template

open Grammar

/-- A field and a placeholder read alike: the same value where the path leads to one, `null` where
    the placeholder stays as it is written, and the same fault. -/
def ReadsAlike (c : Context) (h : Heap) (path : List (List Char)) (text : List Char) : Prop :=
  let field := Condition.fieldValue c h (.text (String.ofList text))
  let filled := resolve { context := c } h (.text (String.ofList (braced text)))
  match Sources.lookUp { context := c } h (path.map String.ofList) with
  | .ok (some v) => filled = .ok (v, h) ∧ field = .ok v
  | .ok none => filled = .ok (.text (String.ofList (braced text)), h) ∧ field = .ok .null
  | .error f => filled = .error f ∧ field = .error f

/-- A path starts at no root of the context. -/
def StartsBelow (path : List (List Char)) : Prop :=
  ∀ s ∈ path.head?, String.ofList s ∉ Condition.identifierNames ++ ["entity"]

/-- A path is the name of an identifier of the context. -/
def IsIdentifier (path : List (List Char)) : Prop :=
  ∃ s, path = [s] ∧ String.ofList s ∈ Condition.identifierNames

/-- From a name that is no root the entity is read. -/
theorem lookUp_of_startsBelow (c : Context) (h : Heap) {s : List Char} {ss : List (List Char)}
    (hbelow : StartsBelow (s :: ss)) :
    Sources.lookUp { context := c } h ((s :: ss).map String.ofList) =
      h.follow c.entity ((s :: ss).map String.ofList) := by
  have hroots : c.roots.lookup (String.ofList s) = none := by
    refine List.lookup_eq_none_iff.2 fun e he => bne_iff_ne.2 fun heq => hbelow s rfl ?_
    rw [heq]
    exact List.mem_map_of_mem (f := Prod.fst) he
  rw [List.map_cons, Sources.lookUp, hroots]
  rfl

/-- An identifier alone leads to its value. -/
theorem lookUp_identifier (c : Context) (h : Heap) {name : String} {v : Value}
    (hv : c.identifiers.lookup name = some v) :
    Sources.lookUp { context := c } h [name] = .ok (some v) := by
  have hroots : c.roots.lookup name = some v := by
    rw [Context.roots, List.lookup_append, hv, Option.some_or]
  rw [Sources.lookUp, hroots]
  rfl

/-- A path as a field has the value that it leads to from a template, and `null` where that is
    nowhere. -/
theorem pathValue_eq_lookUp (c : Context) (h : Heap) {path : List (List Char)} (hne : path ≠ [])
    (hpath : StartsBelow path ∨ IsIdentifier path) :
    Condition.pathValue c h (path.map String.ofList) =
      (Sources.lookUp { context := c } h (path.map String.ofList)).map (·.getD .null) := by
  rcases hpath with hbelow | ⟨s, rfl, hs⟩
  · obtain ⟨s, ss, rfl⟩ := List.exists_cons_of_ne_nil hne
    have hname : String.ofList s ∉ Condition.identifierNames := fun hmem =>
      hbelow s rfl (List.mem_append_left _ hmem)
    rw [lookUp_of_startsBelow c h hbelow]
    cases ss with
    | nil =>
      simp only [List.map_cons, List.map_nil, Condition.pathValue,
        Condition.lookup_identifiers_eq_none hname]
    | cons p ss => rfl
  · obtain ⟨v, hv⟩ : ∃ v, c.identifiers.lookup (String.ofList s) = some v := by
      refine Option.ne_none_iff_exists'.1 fun hnone => ?_
      obtain ⟨e, he, heq⟩ := List.mem_map.1
        (show String.ofList s ∈ c.identifiers.map Prod.fst from hs)
      exact bne_iff_ne.1 (List.lookup_eq_none_iff.1 hnone e he) heq.symm
    rw [List.map_singleton, lookUp_identifier c h hv, Condition.pathValue, hv]
    rfl

/-- **Conditions and templates read the same fields.** On a path of the grammar that starts at no
    root of the context, and on an identifier alone, a field has the value that the placeholder of
    the path becomes, and is `null` where the placeholder stays as it is written.  Numbers in
    brackets instead of behind points do not change what any field is. -/
theorem fields_read_alike (c : Context) (h : Heap) {path : List (List Char)} {text : List Char}
    (hpath : Grammar.Path path text) :
    (StartsBelow path ∨ IsIdentifier path → ReadsAlike c h path text) ∧
      ∀ text', Spelling path text' →
        Condition.fieldValue c h (.text (String.ofList text')) =
          Condition.fieldValue c h (.text (String.ofList text)) := by
  constructor
  · intro hstart
    have hspan : Grammar.Placeholder path ('{' :: '{' :: ([] ++ (text ++ ([] ++ ['}', '}'])))) :=
      .intro nofun hpath nofun
    change Grammar.Placeholder path (braced text) at hspan
    have hne : path ≠ [] := by
      cases hpath
      exact List.cons_ne_nil _ _
    have hfield := (Condition.fieldValue_spelling c h hpath.spelling).trans
      (pathValue_eq_lookUp c h hne hstart)
    rw [ReadsAlike, resolve_alone hspan, hfield]
    rcases Sources.lookUp { context := c } h (path.map String.ofList) with f | ⟨⟩ | v
    · exact ⟨rfl, rfl⟩
    · exact ⟨rfl, rfl⟩
    · exact ⟨rfl, rfl⟩
  · intro text' hspelling
    exact (Condition.fieldValue_spelling c h hspelling).trans
      (Condition.fieldValue_spelling c h hpath.spelling).symm

theorem fields_read_alike_items :
    let h : Heap := ⟨#[.mapping [(.text "items", .list 1)], .list [.mapping 2],
      .mapping [(.text "name", .text "bolt")]]⟩
    let c : Context := ⟨.null, .null, .null, .null, .null, .mapping 0⟩
    let path := ["items".toList, ['0'], "name".toList]
    Grammar.Path path "items.0.name".toList ∧ ReadsAlike c h path "items.0.name".toList ∧
      Condition.fieldValue c h (.text "items[0].name") = .ok (.text "bolt") := by
  intro h c path
  have hpath : Grammar.Path path "items.0.name".toList := by
    have hread : path? "items.0.name".toList = some (path, []) := by decide +kernel
    obtain ⟨span, hspan, heq⟩ := path?_sound hread
    rw [List.append_nil] at heq
    exact heq ▸ hspan
  have hspelling : Spelling path "items[0].name".toList := by
    have hitems : identifier? "items".toList = some ("items".toList, []) := by decide +kernel
    have hname : segment? "name".toList = some ("name".toList, []) := by decide +kernel
    have hzero : ∀ c ∈ ['0'], Text.isDecimal c := List.forall_mem_singleton.2 (by decide)
    exact .intro (identifier?_sound hitems).1
      (.bracket (List.cons_ne_nil _ _) hzero (.point (segment?_sound hname).1 .nil))
  have hbelow : StartsBelow path := fun s hs => by
    cases hs
    decide +kernel
  have hlead : Sources.lookUp { context := c } h (path.map String.ofList) =
      .ok (some (.text "bolt")) := rfl
  obtain ⟨halike, hspelt⟩ := fields_read_alike c h hpath
  have hread := halike (.inl hbelow)
  refine ⟨hpath, hread, (hspelt _ hspelling).trans ?_⟩
  rw [ReadsAlike, hlead] at hread
  exact hread.2

end Template

end Rulebook
