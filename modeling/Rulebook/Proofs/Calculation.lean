/-
  Calculations are evaluations.

  A calculation writes the numbers of the entity into its formula, strikes out what is no arithmetic
  and reads the rest again.  Where all numbers are written with the characters of formulas, this
  comes to the value of the formula at the numbers themselves; a number that is not written so does
  not even come to itself.

  * `ends_calculate`: a calculation ends as the filled text is calculated;
  * `calculate_evaluates`: which calculations come to the value of their formula.
-/
import Rulebook.Proofs.Confinement
import Rulebook.Proofs.Formula.Exponent
import Rulebook.Proofs.Formula.Filling
import Rulebook.Proofs.Handlers

namespace Rulebook

open Script

/-! ## Mappings -/

theorem Entries.merge_of_distinct {es fs : Entries}
    (h : Entries.Distinct (es ++ fs)) : Entries.merge es fs = es ++ fs := by
  induction fs generalizing es with
  | nil => exact (List.append_nil es).symm
  | cons e fs ih =>
    have hnew : es.insert e.1 e.2 = es ++ [e] := by
      refine if_neg ?_
      rw [Bool.not_eq_true, List.any_eq_false]
      intro a ha
      rw [(List.pairwise_append.1 h).2.2 a ha e List.mem_cons_self]
      decide
    change Entries.merge (es.insert e.1 e.2) fs = _
    rw [hnew, ih (by rwa [List.append_assoc]), List.append_assoc]
    rfl

namespace Handler

/-! ## Runs -/

/-- A run of an action ends as a calculation does: with its number as the result, or refused with
    its error. -/
def ComesTo (value : Except Script.Error Number) (s : Surroundings) (act : Act Value) : Prop :=
  Ends
    (fun stop _ => ∃ e, value = .error e ∧
      stop = .failed (.engine (.handler ("Expression evaluation error: " ++ e.message) [])))
    (fun v s' => ∃ n, value = .ok n ∧ given? s'.heap v "result" = some (Value.ofNumber n)) s act

/-- The parameters of a calculation without variables, a precision and a target. -/
def formulaParameters (text : String) : Details :=
  .of [("expression", .text text)]

theorem ofNumber_injective : Function.Injective Value.ofNumber := by
  intro a b h
  cases a <;> cases b <;> cases h <;> rfl

/-- A run comes to one number only. -/
theorem ComesTo.eq_ok {n : Number} {value : Except Script.Error Number} {s : Surroundings}
    {act : Act Value} (hn : ComesTo (.ok n) s act) (h : ComesTo value s act) :
    value = .ok n := by
  rcases Ends.both hn h with ⟨-, -, ⟨e, he, -⟩, -⟩ | ⟨v, s', ⟨m, hm, hv⟩, k, rfl, hk⟩
  · cases he
  · obtain rfl := Except.ok.inj hm
    rw [ofNumber_injective (Option.some.inj (hv.symm.trans hk))]

/-- The heap with the mapping of no variables on it. -/
def withoutVariables (h : Heap) : Heap :=
  (h.newMapping []).2

theorem lift_of_ok {α : Type} {r : Except Fault α} {a : α} (h : r = .ok a) (s : Surroundings) :
    Act.lift r s = .ok a s := by
  rw [h]
  rfl

theorem entries_newMapping (h : Heap) (es : Entries) :
    (h.newMapping es).2.entries h.cells.size = es := by
  simp [Heap.newMapping, Heap.alloc, Heap.entries, Heap.read?]

section

variable (stamps : Stamps) (c : Context) (deadline : Float) (s : Surroundings) {e : Ref}

/-- With no variables, formulas read the fields of the entity. -/
theorem formulaNames_apply (hentity : c.entity = .mapping e) :
    formulaNames c (s.heap.newMapping []).1 { s with heap := withoutVariables s.heap } =
      .ok (Entries.merge [] ((withoutVariables s.heap).entries e))
        { s with heap := withoutVariables s.heap } := by
  have hnew : (withoutVariables s.heap).entries s.heap.cells.size = [] := entries_newMapping _ _
  unfold formulaNames
  simp only [hentity]
  change EStateM.Result.ok (Entries.merge ((withoutVariables s.heap).entries s.heap.cells.size) _) _
    = _
  rw [hnew]

/-- How a calculation ends, by the text that its template becomes. -/
theorem ends_calculate {E : Act.Stop → Surroundings → Prop}
    {Q : Value → Surroundings → Prop} (hentity : c.entity = .mapping e) {template : String}
    {v : Value}
    (hv : Template.resolveText
      { context := c, extra := Entries.merge [] ((withoutVariables s.heap).entries e) }
      (withoutVariables s.heap) template = .ok v)
    (hfault : ∀ f s', (withoutVariables s.heap).asText v = .error f → E (.failed (.fault f)) s')
    (herror : ∀ text err s', (withoutVariables s.heap).asText v = .ok text →
      Script.calculate text = .error err →
      E (.failed (.engine (.handler ("Expression evaluation error: " ++ err.message) []))) s')
    (hok : ∀ text n w s', (withoutVariables s.heap).asText v = .ok text →
      Script.calculate text = .ok n → given? s'.heap w "result" = some (.ofNumber n) →
      Q w s') :
    Ends E Q s ((calculate stamps).run (formulaParameters template) c deadline) := by
  unfold formulaParameters
  have hresolve : Act.resolve c (.mapping []) s =
      .ok (s.heap.newMapping []).1 { s with heap := withoutVariables s.heap } := by
    rw [Act.resolve_apply]
    rfl
  refine Ends.bind_of_ok hresolve (Ends.bind_of_ok (formulaNames_apply c s hentity) ?_)
  have hformula : Data.asText (.text template) = .ok template := rfl
  refine Ends.bind_of_ok (lift_of_ok hformula _) (ends_heap_bind ?_)
  refine Ends.bind_of_ok (lift_of_ok hv _) (ends_heap_bind ?_)
  refine ends_lift_bind (fun f hf => hfault f _ hf) fun text htext => ?_
  cases hvalue : Script.calculate text with
  | error err => exact herror text err _ htext hvalue
  | ok n =>
    have hgives := calculate_gives stamps (.text template) .null text (.ofNumber n)
      (s.heap.newMapping []).1 { s with heap := withoutVariables s.heap }
    refine hgives.mono (fun _ _ => False.elim) ?_
    rintro w s' ⟨-, hw⟩
    exact hok text n w s' htext hvalue hw

/-- A calculation comes to what the text that its template becomes is calculated to. -/
theorem calculate_comesTo (hentity : c.entity = .mapping e) {template text : String} {v : Value}
    (hv : Template.resolveText
      { context := c, extra := Entries.merge [] ((withoutVariables s.heap).entries e) }
      (withoutVariables s.heap) template = .ok v)
    (htext : (withoutVariables s.heap).asText v = .ok text) :
    ComesTo (Script.calculate text) s
      ((calculate stamps).run (formulaParameters template) c deadline) := by
  refine ends_calculate stamps c deadline s hentity hv ?_ ?_ ?_
  · intro f s' hfault
    cases htext.symm.trans hfault
  · intro text' err s' htext' hvalue
    obtain rfl : text = text' := Except.ok.inj (htext.symm.trans htext')
    exact ⟨err, hvalue, rfl⟩
  · intro text' n w s' htext' hvalue hw
    obtain rfl : text = text' := Except.ok.inj (htext.symm.trans htext')
    exact ⟨n, hvalue, hw⟩

/-! ## Formulas over the entity -/

/-- A new mapping of nothing shows in no entries. -/
theorem entries_withoutVariables (h : Heap) (r : Ref) :
    (withoutVariables h).entries r = h.entries r := by
  rcases lt_trichotomy r h.cells.size with hlt | rfl | hgt
  · unfold Heap.entries
    rw [show (withoutVariables h).read? r = h.read? r from h.read_alloc_of_lt _ hlt]
  · rw [show (withoutVariables h).entries h.cells.size = [] from entries_newMapping h []]
    simp [Heap.entries, Heap.read?]
  · simp [withoutVariables, Heap.newMapping, Heap.alloc, Heap.entries, Heap.read?,
      Nat.not_lt.2 hgt.le, Array.getElem?_push, hgt.ne']

/-- The text of a formula with blanks around it. -/
def formulaText (before after : Nat) (f : Formula Operand) : String :=
  String.ofList (blanks before ++ (f.chars Operand.text ++ blanks after))

/-- The same text with the numbers of fields written out. -/
def filledText (fields : String → Number) (before after : Nat) (f : Formula Operand) : String :=
  String.ofList (blanks before ++ (f.chars (Operand.filledChars fields) ++ blanks after))

/-- The fields that a formula names hold these numbers. -/
def Holds (fields : String → Number) (es : Entries) (f : Formula Operand) : Prop :=
  ∀ before after x, .field before after x ∈ f.leaves →
    es.field? x.key = some (.ofNumber (fields x.key))

theorem lookUp_extra {h : Heap} {extra : Entries} {name : String} {v : Value}
    (hv : extra.field? name = some v) :
    Template.Sources.lookUp { context := c, extra } h [name] = .ok (some v) := by
  simp only [Template.Sources.lookUp, hv]
  rfl

/-- The text of a formula becomes the filled one. -/
theorem exists_filled {fields : String → Number} {f : Formula Operand} {extra : Entries}
    {h : Heap} (hplain : ∀ a ∈ f.leaves, a.Plain fields) (hfields : Holds fields extra f)
    (before after : Nat) :
    ∃ v, Template.resolveText { context := c, extra } h (formulaText before after f) = .ok v ∧
      h.asText v = .ok (filledText fields before after f) := by
  have hblanks (n : Nat) : '{' ∉ blanks n := fun hmem => by
    cases List.eq_of_mem_replicate hmem
  have hnil : Template.Renders { context := c, extra } h (Template.Piece.scan []) [] := by
    rw [Template.Piece.scan]
    exact .nil
  have hend := hnil.append (hblanks after)
  rw [List.append_nil] at hend
  refine Template.Renders.resolveText ?_
  rw [formulaText, String.toList_ofList]
  exact (Template.renders_chars f hplain
    (fun before after x hx => lookUp_extra c (hfields before after x hx)) hend).append
    (hblanks before)

variable {fields : String → Number} (hentity : c.entity = .mapping e)
  (hdistinct : (s.heap.entries e).Distinct)

include hdistinct in
theorem merge_entries :
    Entries.merge [] ((withoutVariables s.heap).entries e) = s.heap.entries e := by
  rw [entries_withoutVariables]
  exact Entries.merge_of_distinct hdistinct

include hentity hdistinct

/-- A formula over numbers that are written with the characters of formulas. -/
theorem comesTo_filled {f : Formula Operand} (hf : f.Ordered)
    (hfields : Holds fields (s.heap.entries e) f) (hplain : ∀ a ∈ f.leaves, a.Plain fields)
    (before after : Nat) :
    ComesTo
      (if f.depth ≤ 200 then f.value (Operand.number fields)
        else .error (.malformedArithmetic
          (Text.trim (sanitize (filledText fields before after f)))))
      s ((calculate stamps).run (formulaParameters (formulaText before after f)) c deadline) := by
  obtain ⟨v, hv, htext⟩ := @exists_filled c fields f (s.heap.entries e) (withoutVariables s.heap)
    hplain hfields before after
  have hfilled : (filledText fields before after f).toList =
      blanks before ++ (f.chars (Operand.filledChars fields) ++ blanks after) :=
    String.toList_ofList
  rw [← merge_entries s hdistinct] at hv
  rw [← Formula.calculate_filled hf hplain before after hfilled]
  exact calculate_comesTo stamps c deadline s hentity hv htext

/-- A field alone comes to its number if that is written with the characters of formulas, and in no
    other case. -/
theorem comesTo_field {x : FieldName} {n : Number}
    (hx : (s.heap.entries e).field? x.key = some (.ofNumber n)) (before after : Nat) :
    ComesTo (.ok n) s ((calculate stamps).run
      (formulaParameters (String.ofList (Operand.field before after x).text)) c deadline) ↔
        n.Positional := by
  rw [← merge_entries s hdistinct] at hx
  have hv := Template.resolveText_field (lookUp_extra c hx (h := withoutVariables s.heap))
    before after
  have htext := Template.asText_ofNumber (withoutVariables s.heap) n
  cases hn : n.written with
  | error f =>
    have hfails : Ends (fun _ _ => True) (fun _ _ => False) s ((calculate stamps).run
        (formulaParameters (String.ofList (Operand.field before after x).text)) c deadline) :=
      ends_calculate stamps c deadline s hentity hv (fun _ _ _ => trivial) (fun _ _ _ _ _ => trivial)
        fun text _ _ _ hread => by cases hread.symm.trans (htext.trans hn)
    refine ⟨fun h => ?_, fun ⟨t, ht, _⟩ => by cases hn.symm.trans ht⟩
    rcases Ends.both h hfails with ⟨-, -, ⟨_, he, -⟩, -⟩ | ⟨-, -, -, hfalse⟩
    · cases he
    · exact hfalse.elim
  | ok t =>
    rw [hn] at htext
    have hcomes := calculate_comesTo stamps c deadline s hentity hv htext
    rw [← Number.calculate_written hn]
    refine ⟨fun h => h.eq_ok hcomes, fun h => ?_⟩
    rw [h] at hcomes
    exact hcomes

/-- **A calculation evaluates its formula at the numbers of the entity**, where these are written
    with the characters of formulas; it refuses a formula with too many open brackets.  A field
    alone comes to its number in no other case. -/
theorem calculate_evaluates :
    (∀ (fields : String → Number) (f : Formula Operand) (before after : Nat), f.Ordered →
      Holds fields (s.heap.entries e) f → (∀ a ∈ f.leaves, a.Plain fields) →
      ComesTo
        (if f.depth ≤ 200 then f.value (Operand.number fields)
          else .error (.malformedArithmetic
            (Text.trim (sanitize (filledText fields before after f)))))
        s ((calculate stamps).run (formulaParameters (formulaText before after f)) c deadline)) ∧
    ∀ (x : FieldName) (n : Number) (before after : Nat),
      (s.heap.entries e).field? x.key = some (.ofNumber n) →
      (ComesTo (.ok n) s ((calculate stamps).run
        (formulaParameters (String.ofList (Operand.field before after x).text)) c deadline) ↔
          n.Positional) :=
  ⟨fun _ _ before after hf hfields hplain =>
    comesTo_filled stamps c deadline s hentity hdistinct hf hfields hplain before after,
    fun _ _ before after hx => comesTo_field stamps c deadline s hentity hdistinct hx before after⟩

end

theorem calculate_evaluates_product :
    let x : FieldName := ⟨'x', [], by decide, nofun⟩
    let y : FieldName := ⟨'y', [], by decide, nofun⟩
    let s : Surroundings :=
      { heap := (({} : Heap).newMapping [(.text "x", .int 5), (.text "y", .float 1e16)]).2
        breakers := { settings := { recovery := 30.0 } }, clock := fun _ => 0.0, replies := [] }
    let c : Context := ⟨.null, .null, .null, .null, .null, .mapping 0⟩
    let two : Literal := ⟨['2'], .int 2, .inl ⟨'2', [], rfl, by decide⟩, rfl⟩
    let f : Formula Operand := .binary .mul 1 1 (.leaf (.field 0 0 x)) (.leaf (.literal two))
    c.entity = .mapping 0 ∧ (s.heap.entries 0).Distinct ∧
      (∀ stamps, ComesTo (.ok (.int 10)) s
        ((calculate stamps).run (formulaParameters (formulaText 0 0 f)) c 0.0)) ∧
      ∀ stamps, ¬ComesTo (.ok (.float 1e16)) s ((calculate stamps).run
        (formulaParameters (String.ofList (Operand.field 0 0 y).text)) c 0.0) := by
  intro x y s c two f
  have hdistinct : (s.heap.entries 0).Distinct := by
    unfold Entries.Distinct
    rw [show s.heap.entries 0 = [(.text "x", .int 5), (.text "y", .float 1e16)] from rfl]
    simp [Value.sameKey]
  have hf : f.Ordered := ⟨trivial, trivial, by decide, by decide⟩
  have hfields : Holds (fun _ => .int 5) (s.heap.entries 0) f := by
    intro before after z hz
    rcases List.mem_cons.1 hz with hz | hz
    · obtain ⟨rfl, rfl, rfl⟩ := Operand.field.inj hz
      rfl
    · cases List.mem_singleton.1 hz
  have hplain : ∀ a ∈ f.leaves, a.Plain fun _ => .int 5 := by
    intro a ha
    rcases List.mem_cons.1 ha with rfl | ha
    · exact ⟨"5", rfl, List.forall_mem_singleton.2 (by decide)⟩
    · rw [List.mem_singleton.1 ha]
      exact List.forall_mem_singleton.2 (by decide : Spare '2')
  have hy : ¬(Number.float 1e16).Positional := by
    rintro ⟨t, ht, hplain⟩
    obtain rfl : "1e+16" = t := Except.ok.inj ht
    exact absurd (hplain 'e' (by decide)) (by decide)
  refine ⟨rfl, hdistinct, fun stamps => ?_, fun stamps => ?_⟩
  · exact (calculate_evaluates stamps c 0.0 s rfl hdistinct).1 _ f 0 0 hf hfields hplain
  · rw [(calculate_evaluates stamps c 0.0 s rfl hdistinct).2 y (.float 1e16) 0 0 rfl]
    exact hy

end Handler

end Rulebook
