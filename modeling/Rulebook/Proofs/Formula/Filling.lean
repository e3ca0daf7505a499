/-
  Templates of formulas.

  What a template becomes is followed character by character (`Renders`): all but the placeholders
  stays, and a placeholder of a number gives way to its text.

  * `Renders.resolveText`: the value of a template, as a text;
  * `renders_chars`: the template of a formula becomes the filled formula.
-/
import Rulebook.Proofs.Formula.Operand
import Rulebook.Proofs.Template.Grammar
import Rulebook.Template.Resolve

namespace Rulebook

open Script

namespace Template

/-! ## Pieces -/

/-- Pieces are written out as these characters, their placeholders as the texts of numbers. -/
inductive Renders (s : Sources) (h : Heap) : List Piece → List Char → Prop
  | nil : Renders s h [] []
  | literal (span : List Char) {ps : List Piece} {out : List Char} : Renders s h ps out →
      Renders s h (.literal span :: ps) (span ++ out)
  | number {span : List Char} {path : List String} {n : Number} {t : String} {ps : List Piece}
      {out : List Char} : s.lookUp h path = .ok (some (Value.ofNumber n)) → n.written = .ok t →
      Renders s h ps out → Renders s h (.placeholder span path :: ps) (t.toList ++ out)

section

variable {s : Sources} {h : Heap} {cs out : List Char}

theorem asText_ofNumber (h : Heap) (n : Number) : h.asText (Value.ofNumber n) = n.written := by
  cases n <;> rfl

theorem render_ofNumber (h : Heap) (n : Number) : render h (Value.ofNumber n) = n.written := by
  cases n <;> rfl

/-- A character that opens no placeholder stays. -/
theorem Renders.cons {c : Char} (hc : c ≠ '{') (hr : Renders s h (Piece.scan cs) out) :
    Renders s h (Piece.scan (c :: cs)) (c :: out) := by
  rw [scan_cons hc]
  by_cases hspan : ∃ d ds, cs = d :: ds ∧ d ≠ '{'
  · obtain ⟨d, ds, rfl, hd⟩ := hspan
    rw [scan_cons hd] at hr
    rw [List.takeWhile_cons_of_pos (by simpa using hd),
      List.dropWhile_cons_of_pos (by simpa using hd)]
    cases hr with
    | literal _ hr => exact .literal (c :: d :: ds.takeWhile (· ≠ '{')) hr
  · have hstop : cs.takeWhile (· ≠ '{') = [] ∧ cs.dropWhile (· ≠ '{') = cs := by
      cases cs with
      | nil => exact ⟨rfl, rfl⟩
      | cons d ds =>
        have hd : d = '{' := by
          by_contra hd
          exact hspan ⟨d, ds, rfl, hd⟩
        exact ⟨List.takeWhile_cons_of_neg (by simp [hd]), List.dropWhile_cons_of_neg (by simp [hd])⟩
    rw [hstop.1, hstop.2]
    exact .literal [c] hr

theorem Renders.append {pre : List Char} (hpre : '{' ∉ pre)
    (hr : Renders s h (Piece.scan cs) out) : Renders s h (Piece.scan (pre ++ cs)) (pre ++ out) := by
  induction pre with
  | nil => exact hr
  | cons c pre ih =>
    obtain ⟨hc, hpre⟩ := not_or.1 (mt List.mem_cons.2 hpre)
    exact (ih hpre).cons (Ne.symm hc)

/-- What is rendered is what the texts of the parts make up. -/
theorem Renders.parts {ps : List Piece} (hr : Renders s h ps out) : ∃ parts ts,
    ps.mapM (s.part h) = .ok parts ∧ parts.mapM (Part.text h) = .ok ts ∧
      (String.join ts).toList = out ∧
      ∀ v ∈ parts.head?, ∀ w, v = .value w → ∃ n, w = .ofNumber n := by
  induction hr with
  | nil => exact ⟨[], [], rfl, rfl, rfl, by simp⟩
  | literal span hr ih =>
    obtain ⟨parts, ts, hparts, hts, rfl, -⟩ := ih
    refine ⟨.literal span :: parts, String.ofList span :: ts, ?_, ?_, ?_, ?_⟩
    · rw [List.mapM_cons, hparts]
      rfl
    · rw [List.mapM_cons, hts]
      rfl
    · simp [String.join_cons]
    · rintro v hv w rfl
      cases hv
  | @number span path n t ps out hpath ht hr ih =>
    obtain ⟨parts, ts, hparts, hts, rfl, -⟩ := ih
    have hpart : s.part h (.placeholder span path) = .ok (.value (.ofNumber n)) := by
      change (s.lookUp h path).map _ = _
      rw [hpath]
      rfl
    have htext : Part.text h (.value (.ofNumber n)) = .ok t := (render_ofNumber h n).trans ht
    refine ⟨.value (.ofNumber n) :: parts, t :: ts, ?_, ?_, ?_, ?_⟩
    · rw [List.mapM_cons, hparts, hpart]
      rfl
    · rw [List.mapM_cons, hts, htext]
      rfl
    · simp [String.join_cons]
    · rintro v hv w rfl
      cases hv
      exact ⟨n, rfl⟩

/-- **The value of a template that is rendered has the rendered text.** -/
theorem Renders.resolveText {text : String} (hr : Renders s h (Piece.scan text.toList) out) :
    ∃ v, resolveText s h text = .ok v ∧ h.asText v = .ok (String.ofList out) := by
  obtain ⟨parts, ts, hparts, hts, rfl, hnumber⟩ := hr.parts
  have htext : ∃ v, ofParts h parts = .ok v ∧ h.asText v = .ok (String.join ts) := by
    unfold ofParts
    split
    · next v =>
      obtain ⟨n, rfl⟩ := hnumber _ rfl v rfl
      refine ⟨_, rfl, ?_⟩
      have hwritten : (n.written.map fun t => [t]) = .ok ts := by
        rw [← hts, List.mapM_cons]
        change _ = (render h (.ofNumber n)).bind _
        rw [render_ofNumber]
        cases n.written <;> rfl
      rw [asText_ofNumber]
      cases ht : n.written with
      | error f =>
        rw [ht] at hwritten
        cases hwritten
      | ok t =>
        rw [ht] at hwritten
        obtain rfl : [t] = ts := Except.ok.inj hwritten
        simp [String.join_cons]
    · refine ⟨.text (String.join ts), ?_, rfl⟩
      rw [hts]
      rfl
  obtain ⟨v, hv, hasText⟩ := htext
  refine ⟨v, ?_, by rw [hasText, String.ofList_toList]⟩
  unfold Template.resolveText
  rw [hparts]
  exact hv

end

/-! ## Placeholders of fields -/

/-- The placeholder of a field, with blanks around its name. -/
theorem bodyAfter?_field (before after : Nat) (x : FieldName) (rest : List Char) :
    bodyAfter? (blanks before ++ (x.first :: x.more ++ (blanks after ++ '}' :: '}' :: rest))) =
      some ([x.first :: x.more], rest) := by
  have hblanks (n : Nat) : ∀ c ∈ blanks n, isGap c := fun c hc => by
    rw [List.eq_of_mem_replicate hc]
    decide
  have hpath : Grammar.Path [x.first :: x.more] (x.first :: x.more ++ []) :=
    .intro (.intro x.starts x.continues) .nil
  have hread := Grammar.placeholder?_complete (.intro (hblanks before) hpath (hblanks after)) rest
  rw [List.append_nil] at hread
  simpa [placeholder?] using hread

variable {s : Sources} {h : Heap} {fields : String → Number}

/-- A placeholder alone is the number itself. -/
theorem resolveText_field {x : FieldName} {n : Number}
    (hx : s.lookUp h [x.key] = .ok (some (.ofNumber n))) (before after : Nat) :
    resolveText s h (String.ofList (Operand.field before after x).text) = .ok (.ofNumber n) := by
  obtain ⟨span, hspan⟩ := scan_placeholder (bodyAfter?_field before after x [])
  have hpart : s.part h (.placeholder span [x.key]) = .ok (.value (.ofNumber n)) := by
    change (s.lookUp h [x.key]).map _ = _
    rw [hx]
    rfl
  have hparts : (Piece.scan (Operand.field before after x).text).mapM (s.part h) =
      .ok [.value (.ofNumber n)] := by
    change (Piece.scan ('{' :: '{' :: _)).mapM _ = _
    rw [hspan, Piece.scan]
    change ([.placeholder span [x.key]] : List Piece).mapM _ = _
    rw [List.mapM_cons, hpart]
    rfl
  unfold resolveText
  rw [String.toList_ofList, hparts]
  rfl

/-- **The template of a formula becomes the filled formula.** -/
theorem renders_chars (f : Formula Operand) (hplain : ∀ a ∈ f.leaves, a.Plain fields)
    (hfields : ∀ before after x, Operand.field before after x ∈ f.leaves →
      s.lookUp h [x.key] = .ok (some (.ofNumber (fields x.key))))
    {cs out : List Char} (hr : Renders s h (Piece.scan cs) out) :
    Renders s h (Piece.scan (f.chars Operand.text ++ cs))
      (f.chars (Operand.filledChars fields) ++ out) := by
  have hblanks (n : Nat) : '{' ∉ blanks n := fun hmem => by
    cases List.eq_of_mem_replicate hmem
  induction f generalizing cs out with
  | leaf a =>
    have ha := hplain a (List.mem_singleton_self a)
    cases a with
    | literal l =>
      have hbrace : '{' ∉ l.chars := fun hmem => absurd (ha _ hmem) (by decide)
      have hfilled : (Operand.literal l).filledChars fields = l.chars := String.toList_ofList
      simp only [Formula.chars, Operand.text, hfilled]
      exact hr.append hbrace
    | field before after x =>
      obtain ⟨t, ht, -⟩ := ha
      have hfilled : (Operand.field before after x).filledChars fields = t.toList := by
        unfold Operand.filledChars
        rw [show (Operand.field before after x).filled fields = .ok t from ht]
      have hlookUp := hfields before after x (List.mem_singleton_self _)
      obtain ⟨span, hspan⟩ := scan_placeholder (bodyAfter?_field before after x cs)
      simp only [Formula.chars, Operand.text, hfilled, List.cons_append, List.append_assoc,
        List.nil_append]
      simp only [List.cons_append] at hspan
      rw [hspan]
      exact .number hlookUp ht hr
  | group before after f ih =>
    have hclose := (hr.cons (c := ')') (by decide)).append (hblanks after)
    have hopen := ((ih hplain hfields hclose).append (hblanks before)).cons (c := '(') (by decide)
    simpa only [Formula.chars, List.cons_append, List.append_assoc, List.nil_append] using hopen
  | signed negative gap f ih =>
    have hsign : (if negative then '-' else '+') ≠ '{' := by
      cases negative <;> decide
    simpa only [Formula.chars, List.cons_append, List.append_assoc] using
      ((ih hplain hfields hr).append (hblanks gap)).cons hsign
  | binary op before after left right ihl ihr =>
    have hsign : op.sign ≠ '{' := by
      cases op <;> decide
    have hright := ihr (fun a ha => hplain a (List.mem_append_right _ ha))
      (fun _ _ x hx => hfields _ _ x (List.mem_append_right _ hx)) hr
    have htail := ((hright.append (hblanks after)).cons hsign).append (hblanks before)
    have hleft := ihl (fun a ha => hplain a (List.mem_append_left _ ha))
      (fun _ _ x hx => hfields _ _ x (List.mem_append_left _ hx)) htail
    simpa only [Formula.chars, List.cons_append, List.append_assoc] using hleft

end Template

end Rulebook
