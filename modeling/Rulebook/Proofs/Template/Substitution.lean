/-
  What a text takes from outside.

  A text is cut into literal spans and placeholders once, before anything is looked up.  What is
  inserted is written out and not looked at again; and nothing else than what its placeholders lead
  to can make a difference to what the text becomes.

  * `derives_of_scan`: the placeholders of a text are placeholders of the grammar;
  * `resolveText_fill`: texts are inserted as they are;
  * `resolveText_alike`: two sources that agree on the placeholders of a text;
  * `resolveText_substitutes`: all that is said of a text in one statement.
-/
import Rulebook.Proofs.Mirror.Operators
import Rulebook.Proofs.Template.Grammar
import Rulebook.Proofs.Template.Resolution

namespace Rulebook

/-! ## Operations on lists -/

/-- Like operations on the members of a list, one after the other, are like as a whole. -/
theorem Alike.mapM {ε α β γ : Type} {R : β → γ → Prop} {f : α → Except ε β} {g : α → Except ε γ}
    {xs : List α} (h : ∀ x ∈ xs, Alike R (f x) (g x)) :
    Alike (List.Forall₂ R) (xs.mapM f) (xs.mapM g) := by
  induction xs with
  | nil => exact .nil
  | cons x xs ih =>
    rw [List.mapM_cons, List.mapM_cons]
    refine (h x List.mem_cons_self).bind fun y z hyz => ?_
    exact (ih fun x hx => h x (List.mem_cons_of_mem _ hx)).bind fun ys zs hyzs => .cons hyz hyzs

namespace Template

variable {s s' : Sources} {h h' : Heap} {v w : Value} {ps : List Piece} {text : String}

/-! ## The placeholders of a text -/

/-- The placeholders that a text is cut into are placeholders of the grammar. -/
theorem derives_of_scan (cs : List Char) {span : List Char} {path : List String}
    (hp : .placeholder span path ∈ Piece.scan cs) :
    ∃ segments, Grammar.Placeholder segments span ∧ path = segments.map String.ofList := by
  fun_induction Piece.scan cs with
  | case1 => cases hp
  | case2 rest segments after hbody _ ih =>
    rcases List.mem_cons.1 hp with heq | hp
    · obtain ⟨span', hspan', -, htake⟩ := Grammar.bodyAfter?_span hbody
      rw [htake] at heq
      cases heq
      exact ⟨segments, hspan', rfl⟩
    · exact ih hp
  | case3 rest _ ih =>
    rcases List.mem_cons.1 hp with heq | hp
    · cases heq
    · exact ih hp
  | case4 c rest _ _ ih =>
    rcases List.mem_cons.1 hp with heq | hp
    · cases heq
    · exact ih hp

/-! ## The same values -/

/-- Two values, each on a heap of its own, are the same to a reader: they have the same type and
    stand for the same data. -/
def Same (h h' : Heap) (v w : Value) : Prop :=
  v.typeName = w.typeName ∧ h.plain v = h'.plain w

theorem Same.render_eq (hvw : Same h h' v w) : render h v = render h' w := by
  rw [Template.render_eq, Template.render_eq, hvw.1, hvw.2]

/-! ## Texts that are inserted -/

/-- A piece with the text that is inserted for its path, if there is one. -/
def Piece.fill (insert : List String → Option String) : Piece → List Char
  | .literal span => span
  | .placeholder span path =>
    match insert path with
    | some t => t.toList
    | none => span

variable {insert : List String → Option String}

theorem written_fill (hinsert : ∀ span path, .placeholder span path ∈ ps →
      s.lookUp h path = .ok ((insert path).map .text)) :
    Written s h ps (String.ofList (ps.flatMap (Piece.fill insert))) := by
  induction ps with
  | nil => exact .nil
  | cons p ps ih =>
    have hrest := ih fun span path hp => hinsert span path (List.mem_cons_of_mem p hp)
    rw [List.flatMap_cons, String.ofList_append]
    cases p with
    | literal span => exact .literal span hrest
    | placeholder span path =>
      have hread := hinsert span path List.mem_cons_self
      rw [Piece.fill]
      cases ht : insert path with
      | none => exact .verbatim (by rw [hread, ht]; rfl) hrest
      | some t =>
        rw [String.ofList_toList]
        exact .value (by rw [hread, ht]; rfl) rfl hrest

/-- Texts are inserted as they are, whatever placeholders they hold. -/
theorem resolveText_fill (hinsert : ∀ span path, .placeholder span path ∈ Piece.scan text.toList →
      s.lookUp h path = .ok ((insert path).map .text)) :
    resolveText s h text =
      .ok (.text (String.ofList ((Piece.scan text.toList).flatMap (Piece.fill insert)))) := by
  rw [resolveText_eq_ok_iff]
  by_cases hstands : ∃ v, Stands s h (Piece.scan text.toList) v
  · obtain ⟨v, span, path, heq, hv⟩ := hstands
    have hread := hinsert span path (heq ▸ List.mem_singleton_self _)
    obtain ⟨t, ht, rfl⟩ := Option.map_eq_some_iff.1 (Except.ok.inj (hread.symm.trans hv))
    rw [heq, List.flatMap_singleton, Piece.fill, ht, String.ofList_toList]
    exact .value ⟨span, path, rfl, hv⟩
  · exact .text (not_exists.1 hstands) (written_fill hinsert)

/-! ## Two sources -/

/-- Two parts are the same literal span, or related values. -/
inductive Part.Like (R : Value → Value → Prop) : Part → Part → Prop
  | literal (span : List Char) : Like R (.literal span) (.literal span)
  | value {v w : Value} : R v w → Like R (.value v) (.value w)

variable {R : Value → Value → Prop}

theorem part_alike {p : Piece} (hread : ∀ span path, p = .placeholder span path →
      Alike (Option.Rel R) (s.lookUp h path) (s'.lookUp h' path)) :
    Alike (Part.Like R) (s.part h p) (s'.part h' p) := by
  cases p with
  | literal span => exact Part.Like.literal span
  | placeholder span path =>
    refine (hread span path rfl).map fun found found' hfound => ?_
    cases hfound with
    | some hvw => exact .value hvw
    | none => exact .literal span

theorem text_eq_of_like (hR : ∀ v w, R v w → render h v = render h' w) {p q : Part}
    (hpq : Part.Like R p q) : p.text h = q.text h' := by
  cases hpq with
  | literal span => rfl
  | value hvw => exact hR _ _ hvw

theorem texts_eq_of_like (hR : ∀ v w, R v w → render h v = render h' w) {parts parts' : List Part}
    (hparts : List.Forall₂ (Part.Like R) parts parts') :
    parts.mapM (Part.text h) = parts'.mapM (Part.text h') := by
  induction hparts with
  | nil => rfl
  | cons hpq _ ih => rw [List.mapM_cons, List.mapM_cons, text_eq_of_like hR hpq, ih]

theorem ofParts_alike (hR : ∀ v w, R v w → render h v = render h' w)
    (htext : ∀ t, R (.text t) (.text t)) {parts parts' : List Part}
    (hparts : List.Forall₂ (Part.Like R) parts parts') :
    Alike R (ofParts h parts) (ofParts h' parts') := by
  have hjoined : Alike R (do return .text (String.join (← parts.mapM (Part.text h))))
      (do return .text (String.join (← parts'.mapM (Part.text h')))) := by
    rw [texts_eq_of_like hR hparts]
    exact (Alike.refl _).bind fun ts ts' hts => by rw [hts]; exact htext _
  cases hparts with
  | nil => exact hjoined
  | cons hpq hrest =>
    cases hpq with
    | literal span => exact hjoined
    | value hvw =>
      cases hrest with
      | nil => exact hvw
      | cons _ _ => exact hjoined

/-- Two sources from which the placeholders of a text lead to related values, or fail in the same
    way, make related values of the text, or fail in the same way. -/
theorem resolveText_alike (hR : ∀ v w, R v w → render h v = render h' w)
    (htext : ∀ t, R (.text t) (.text t))
    (hread : ∀ span path, .placeholder span path ∈ Piece.scan text.toList →
      Alike (Option.Rel R) (s.lookUp h path) (s'.lookUp h' path)) :
    Alike R (resolveText s h text) (resolveText s' h' text) := by
  have hparts : Alike (List.Forall₂ (Part.Like R)) _ _ :=
    Alike.mapM fun p hp => part_alike fun span path heq => hread span path (heq ▸ hp)
  exact hparts.bind fun _ _ hparts => ofParts_alike hR htext hparts

/-! ## A text as a whole -/

/-- **What a text takes from outside.** A text is cut into literal spans and placeholders that make
    it up, and becomes what these make of it, each in its place.  If none of them leads to a value,
    it stays as it is, unless a path stumbles.  Texts that are inserted stay as they are, with all
    that looks like a placeholder in them.  Two sources from which the placeholders lead to the same
    make the same of the text. -/
theorem resolveText_substitutes (text : String) :
    (Piece.scan text.toList).flatMap Piece.span = text.toList ∧
      (∀ span path, .placeholder span path ∈ Piece.scan text.toList →
        ∃ segments, Grammar.Placeholder segments span ∧ path = segments.map String.ofList) ∧
      (∀ s h v, resolveText s h text = .ok v ↔ Filled s h (Piece.scan text.toList) v) ∧
      (∀ s h, (∀ span path v, .placeholder span path ∈ Piece.scan text.toList →
          s.lookUp h path ≠ .ok (some v)) →
        (resolveText s h text = .ok (.text text) ↔
          ∀ span path, .placeholder span path ∈ Piece.scan text.toList → ¬s.Stumbles h path)) ∧
      (∀ s h insert, (∀ span path, .placeholder span path ∈ Piece.scan text.toList →
          s.lookUp h path = .ok ((insert path).map .text)) →
        resolveText s h text =
          .ok (.text (String.ofList ((Piece.scan text.toList).flatMap (Piece.fill insert))))) ∧
      ∀ s s' h h', (∀ span path, .placeholder span path ∈ Piece.scan text.toList →
          Alike (Option.Rel (Same h h')) (s.lookUp h path) (s'.lookUp h' path)) →
        Alike (Same h h') (resolveText s h text) (resolveText s' h' text) := by
  refine ⟨Piece.concat_scan _, fun _ _ hp => derives_of_scan _ hp,
    fun _ _ _ => resolveText_eq_ok_iff, fun s h hlost => ⟨fun hself span path hp => ?_, ?_⟩,
    fun _ _ _ hinsert => resolveText_fill hinsert,
    fun _ _ _ _ hread => resolveText_alike (fun _ _ hvw => hvw.render_eq) (fun _ => ⟨rfl, rfl⟩)
      hread⟩
  · exact (exists_filled_iff.1 ⟨_, resolveText_eq_ok_iff.1 hself⟩).read span path hp
  · intro hread
    refine resolveText_self fun span path hp => ?_
    obtain ⟨found, hfound⟩ := s.lookUp_iff.2 (hread span path hp)
    cases found with
    | none => exact hfound
    | some v => exact absurd hfound (hlost span path v hp)

end Template

end Rulebook
