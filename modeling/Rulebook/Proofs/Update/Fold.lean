/-
  Batches that set fields, as updates of drawings.

  An action that sets a field to a literal or to what one placeholder leads to is an update of the
  drawing of the entity, `Action.redraw?`, and a batch of such actions is the fold of these updates.
  A placeholder stores the very object that it leads to, so a mapping gets more places, and a later
  write shows at all of them.  Only an action that stores a mapping within itself is no such update:
  nothing that holds itself can be drawn (`Untangled`).

  * `Handler.setField_ends`, `execute_setField`: how such an action ends;
  * `settle_draws`: one action of a batch;
  * `after_draws`: several, one after the other;
  * `runBatch_draws`: a batch.
-/
import Rulebook.Proofs.Atomicity
import Rulebook.Proofs.Batch
import Rulebook.Proofs.Update.Values

namespace Rulebook

/-! ## Updates -/

/-- The drawing after parameters of an action that sets a field, if they can be carried out. -/
def Details.redraw? (ps : Details) (names : List (String × Data)) (s : Sketch) : Option Sketch :=
  match ps.parameter "field" with
  | .text path =>
    if path.isEmpty then none
    else
      match (ps.parameter "value").drawn names s, s.drawing.follow (Path.split path) with
      | .ok value, .ok _ => some (s.drawing.put (Path.split path) value)
      | _, _ => none
  | _ => none

namespace Action

/-- The drawing after an action that sets a field, if the action can be carried out. -/
def redraw? (a : Action) (x : Executor) (names : List (String × Data)) (s : Sketch) :
    Option Sketch :=
  match x.timeLimit a.parameters with
  | .ok milliseconds =>
    if milliseconds / 1000.0 ≤ 0.0 then none else Details.redraw? a.parameters names s
  | .error _ => none

/-- The drawing after an action that sets a field. -/
def redraw (a : Action) (x : Executor) (names : List (String × Data)) (s : Sketch) : Sketch :=
  (a.redraw? x names s).getD s

section

variable {a : Action} {x : Executor} {milliseconds : Float}

theorem redraw?_of_untimed {f : Fault} (h : x.timeLimit a.parameters = .error f)
    (names : List (String × Data)) (s : Sketch) : a.redraw? x names s = none := by
  rw [redraw?, h]

theorem redraw?_of_none (h : x.timeLimit a.parameters = .ok milliseconds)
    (hnone : milliseconds / 1000.0 ≤ 0.0) (names : List (String × Data)) (s : Sketch) :
    a.redraw? x names s = none := by
  rw [redraw?, h]
  exact if_pos hnone

theorem redraw?_of_some (h : x.timeLimit a.parameters = .ok milliseconds)
    (hsome : ¬milliseconds / 1000.0 ≤ 0.0) (names : List (String × Data)) (s : Sketch) :
    a.redraw? x names s = Details.redraw? a.parameters names s := by
  rw [redraw?, h]
  exact if_neg hsome

end

/-- An action sets a field to a literal or to what one placeholder leads to. -/
structure SetsField (a : Action) : Prop where
  type : a.type = Handler.setFieldType
  value : (Details.parameter a.parameters "value").Settable

/-- The placeholder of an action does not lead to what holds the mapping that the action changes. -/
def Untangled (a : Action) (names : List (String × Data)) (s : Sketch) : Prop :=
  ∀ path d mark key rest, Details.parameter a.parameters "field" = .text path →
    (Details.parameter a.parameters "value").LeadsTo names s d →
    s.drawing.locate? (Path.split path) = some (mark, key, rest) → mark ∉ d.marks

end Action

/-- The drawing after actions that set fields, one after the other. -/
def Executor.redrawn (x : Executor) (names : List (String × Data)) (actions : List Action)
    (s : Sketch) : Sketch :=
  actions.foldl (fun s a => a.redraw x names s) s

/-- No action stores a mapping within itself. -/
def Untangled (x : Executor) (names : List (String × Data)) : List Action → Sketch → Prop
  | [], _ => True
  | a :: rest, s => a.Untangled names s ∧ Untangled x names rest (a.redraw x names s)

/-- A literal leads nowhere. -/
theorem Action.untangled_of_literal {a : Action}
    (hv : (Details.parameter a.parameters "value").Literal) (names : List (String × Data))
    (s : Sketch) : a.Untangled names s := by
  rintro - - - - - - ⟨t, target, ht, htarget, -⟩ -
  rw [ht] at hv
  obtain ⟨span, hscan⟩ := Template.exists_scan_of_whole htarget
  exact absurd (hscan ▸ List.mem_singleton_self _)
    (hv.literal t (List.mem_singleton_self t) span target)

/-! ## Actions -/

variable {c : Context} {e : Ref} {s : Sketch} {refs : List Ref}

namespace Handler

theorem check_of_field {ps : Details} {path : String} (hfield : ps.parameter "field" = .text path)
    (around : Surroundings) : setField.check ps around = .ok () around := by
  have hpresent : checkPresent setFieldType ["field"] ps = .ok () := by
    refine (checkPresent_eq_ok_iff _ _ _).2 fun name hname => ?_
    rw [List.mem_singleton.1 hname]
    unfold Details.parameter at hfield
    cases hentry : Data.entry? ps "field" with
    | none =>
      rw [hentry] at hfield
      cases hfield
    | some d => rfl
  rw [setField, requiring_check, hpresent]

/-- Parameters that are refused cannot be carried out. -/
theorem redraw?_of_check {ps : Details} {f : Failure} {around around' : Surroundings}
    (hcheck : setField.check ps around = .error f around')
    (names : List (String × Data)) (s : Sketch) : ps.redraw? names s = none := by
  unfold Details.redraw?
  split
  · next path hfield =>
    cases (check_of_field hfield around).symm.trans hcheck
  · rfl

/-- The value of parameters that set a field is resolved, and what it denotes is written. -/
def Writes (ps : Details) (c : Context) (e : Ref) (s : Sketch) (refs : List Ref) (h h' : Heap) :
    Prop :=
  ∃ (path : String) (x : Sketch) (p : Value × Heap) (refs' : List Ref),
    ps.parameter "field" = .text path ∧ (ps.parameter "value").drawn c.identities s = .ok x ∧
    ps.redraw? c.identities s = some (s.drawing.put (Path.split path) x) ∧
    h.Extends p.2 ∧ p.2.Continues refs refs' x.next ∧ p.2.Draws refs' x.drawing p.1 ∧
    (p.2.writePath e (Path.split path) p.1).Extends h'

/-- How parameters end that set a field: they cannot be carried out, and no object has changed; or
    what is denoted is written. -/
theorem setField_ends {ps : Details} {around : Surroundings} (hentity : c.entity = .mapping e)
    (hids : ∀ p ∈ c.identifiers, p.2.Scalar) (htable : around.heap.Table refs)
    (hnext : refs.length = s.next) (hs : around.heap.Draws refs s.drawing c.entity)
    (hv : (ps.parameter "value").Settable) (deadline : Float) :
    Ends (fun _ around' => around.heap.Extends around'.heap ∧
        ps.redraw? c.identities s = none)
      (fun _ around' => Writes ps c e s refs around.heap around'.heap)
      around (setField.run ps c deadline) := by
  dsimp only [setField, requiring, Writes, Details.redraw?]
  generalize ps.parameter "field" = field
  cases field
  case text path =>
    dsimp only
    split_ifs with hempty
    · exact ⟨.refl around.heap, rfl⟩
    · have hdrawn := Template.resolve_drawn hids htable hnext hs hv
      refine ends_resolve_bind (fun f hf => ⟨.refl around.heap, ?_⟩) fun p hp => ?_
      · rcases hdrawn with ⟨f', hf', -⟩ | ⟨x, p, refs', -, hp, -⟩
        · rw [hf']
        · cases hp.symm.trans hf
      · rcases hdrawn with ⟨f', -, hf'⟩ | ⟨x, p', refs', hx, hp', hcontinues, hdraws⟩
        · cases hf'.symm.trans hp
        cases hp'.symm.trans hp
        have hkept : around.heap.Extends p.2 := Template.resolve_extends _ around.heap _ hp
        have hfollow := (hs.of_extends hkept List.prefix_rfl).follow (Path.split path)
        rw [hx]
        refine ends_heap_bind (ends_lift_bind (fun f hf => ⟨hkept, ?_⟩) fun before hbefore => ?_)
        · rw [hf] at hfollow
          generalize s.drawing.follow (Path.split path) = found at hfollow
          cases hfollow
          rfl
        · refine ends_writeEntity_bind (fun f hf => ?_) fun h hw => ?_
          · rw [hentity] at hf
            cases hf
          · rw [hentity] at hw
            cases hw
            refine ⟨path, x, p, refs', rfl, rfl, ?_, hkept, hcontinues, hdraws, .newMapping _ _⟩
            rw [hbefore] at hfollow
            generalize s.drawing.follow (Path.split path) = found at hfollow
            cases hfollow <;> rfl
  all_goals exact ⟨.refl around.heap, rfl⟩

end Handler

namespace Executor

variable {x : Executor} {a : Action}

/-- How an action ends whose handler ends somehow in its time. -/
theorem execute_ends {around : Surroundings} {handler : Handler} {milliseconds : Float}
    {E Q : Heap → Prop} (ha : x.Accepts a handler around around)
    (htime : x.timeLimit a.parameters = .ok milliseconds) (hsome : ¬milliseconds / 1000.0 ≤ 0.0)
    (hrun : Ends (fun _ around' => E around'.heap) (fun _ around' => Q around'.heap)
      (started around (milliseconds / 1000.0))
      (handler.run a.parameters c (around.now + milliseconds / 1000.0))) :
    E (x.execute a c around).2.heap ∨ Q (x.execute a c around).2.heap := by
  rw [execute_of_timed ha htime, inTime_of_some hsome]
  unfold Ends at hrun
  unfold outcome
  split at hrun
  · next v around' hr =>
    rw [hr]
    exact .inr hrun
  · next stop around' hr =>
    rw [hr]
    exact .inl hrun

/-- As long as no object changes, an action that cannot be carried out leaves the drawing right. -/
theorem redraw_of_extends {h h' : Heap} {v : Value} {names : List (String × Data)}
    (htable : h.Table refs) (hnext : refs.length = s.next) (hs : h.Draws refs s.drawing v)
    (hkept : h.Extends h') (hnone : a.redraw? x names s = none) :
    ∃ refs', h'.Continues refs refs' (a.redraw x names s).next ∧
      h'.Draws refs' (a.redraw x names s).drawing v := by
  rw [Action.redraw, hnone, Option.getD_none]
  exact ⟨refs, ⟨htable.mono hkept.size_le, List.prefix_rfl, hnext⟩,
    hs.of_extends hkept List.prefix_rfl⟩

/-- The mapping that is written into is not below what is written. -/
theorem not_mem_marks_of_untangled {h : Heap} {v : Value} {names : List (String × Data)}
    (hv : (Details.parameter a.parameters "value").Settable) (hnext : refs.length = s.next)
    (hs : h.Draws refs s.drawing v) (huntangled : a.Untangled names s) {path : String}
    (hfield : Details.parameter a.parameters "field" = .text path) {new : Sketch}
    (hdrawn : (Details.parameter a.parameters "value").drawn names s = .ok new) (mark : Nat)
    (key : String) (rest : List String)
    (hlocate : s.drawing.locate? (Path.split path) = some (mark, key, rest)) :
    mark ∉ new.drawing.marks := by
  intro hmem
  rcases Template.mark_of_drawn hv hdrawn hmem with hnew | ⟨d, hleads, hmem⟩
  · have hlt := hs.lt_of_mem_marks (Drawing.mem_marks_of_locate hlocate)
    exact Nat.lt_irrefl _ (Nat.lt_of_lt_of_le (hnext ▸ hlt) hnew)
  · exact huntangled path d mark key rest hfield hleads hlocate hmem

/-- What is written into the entity updates the drawing. -/
theorem draws_of_writes (hentity : c.entity = .mapping e) {h h' : Heap}
    (hv : (Details.parameter a.parameters "value").Settable) (hnext : refs.length = s.next)
    (hs : h.Draws refs s.drawing c.entity) (huntangled : a.Untangled c.identities s)
    (hwrites : Handler.Writes a.parameters c e s refs h h') :
    ∃ s' refs', Details.redraw? a.parameters c.identities s = some s' ∧
      h'.Continues refs refs' s'.next ∧ h'.Draws refs' s'.drawing c.entity := by
  obtain ⟨path, v, p, refs', hfield, hdrawn, hput, hkept, hcontinues, hdraws, hleft⟩ := hwrites
  have hmark := not_mem_marks_of_untangled hv hnext hs huntangled hfield hdrawn
  have hafter := hs.of_extends hkept hcontinues.starts
  rw [hentity] at hafter ⊢
  obtain ⟨refs'', hcontinues', hwritten⟩ := hafter.put hcontinues.table hdraws hcontinues.free
    (Path.split_ne_nil _) hmark
  exact ⟨_, refs'', hput, (hcontinues.trans hcontinues').mono hleft.size_le,
    hwritten.of_extends hleft List.prefix_rfl⟩

section

variable (hentity : c.entity = .mapping e) (hids : ∀ p ∈ c.identifiers, p.2.Scalar)

include hentity hids

/-- An action that sets a field updates the drawing of the entity. -/
theorem execute_setField {around : Surroundings}
    (hx : x.handlers.get? a.type = some Handler.setField)
    (hv : (Details.parameter a.parameters "value").Settable) (htable : around.heap.Table refs)
    (hnext : refs.length = s.next) (hs : around.heap.Draws refs s.drawing c.entity)
    (huntangled : a.Untangled c.identities s) :
    ∃ refs', (x.execute a c around).2.heap.Continues refs refs'
        (a.redraw x c.identities s).next ∧
      (x.execute a c around).2.heap.Draws refs' (a.redraw x c.identities s).drawing c.entity := by
  have hlooks := Handler.requiring_looks Handler.setFieldType ["field"] Handler.setField.run
    a.parameters around
  cases hcheck : Handler.setField.check a.parameters around with
  | error f around' =>
    obtain rfl : around' = around := (congrArg stateLeft hcheck).symm.trans hlooks
    refine redraw_of_extends htable hnext hs
      (execute_of_refused hx hcheck ▸ .refl around'.heap) ?_
    have hnone := Handler.redraw?_of_check hcheck c.identities s
    cases htime : x.timeLimit a.parameters with
    | error => exact Action.redraw?_of_untimed htime _ _
    | ok milliseconds =>
      by_cases hsome : milliseconds / 1000.0 ≤ 0.0
      · exact Action.redraw?_of_none htime hsome _ _
      · exact (Action.redraw?_of_some htime hsome _ _).trans hnone
  | ok _ around' =>
    obtain rfl : around' = around := (congrArg stateLeft hcheck).symm.trans hlooks
    have ha : x.Accepts a Handler.setField around' around' := ⟨hx, hcheck⟩
    cases htime : x.timeLimit a.parameters with
    | error f =>
      exact redraw_of_extends htable hnext hs (execute_of_untimed ha htime ▸ .refl around'.heap)
        (Action.redraw?_of_untimed htime _ _)
    | ok milliseconds =>
      by_cases hsome : milliseconds / 1000.0 ≤ 0.0
      · refine redraw_of_extends htable hnext hs ?_ (Action.redraw?_of_none htime hsome _ _)
        rw [execute_of_timed ha htime, inTime_of_none hsome]
        exact .refl around'.heap
      have hredraw := Action.redraw?_of_some htime hsome c.identities s
      have hstarted : (started around' (milliseconds / 1000.0)).heap.Table refs := htable
      obtain ⟨hkept, hnone⟩ | hwrites := execute_ends
        (E := fun h => around'.heap.Extends h ∧ Details.redraw? a.parameters c.identities s = none)
        (Q := Handler.Writes a.parameters c e s refs around'.heap) ha htime hsome
        (Handler.setField_ends hentity hids hstarted hnext hs hv _)
      · exact redraw_of_extends htable hnext hs hkept (hredraw.trans hnone)
      · obtain ⟨s', refs', hput, hdrawn⟩ :=
          draws_of_writes hentity hv hnext hs huntangled hwrites
        rw [Action.redraw, hredraw, hput]
        exact ⟨refs', hdrawn⟩

/-- An action of a batch that sets a field updates the drawing of the entity. -/
theorem settle_draws (report : Bool) {state : EngineState}
    (hx : x.handlers.get? a.type = some Handler.setField)
    (hv : (Details.parameter a.parameters "value").Settable) (htable : state.heap.Table refs)
    (hnext : refs.length = s.next) (hs : state.heap.Draws refs s.drawing c.entity)
    (hskipped : (x.settle report c a state).1.skipped = false)
    (huntangled : a.Untangled c.identities s) :
    ∃ refs', (x.settle report c a state).2.heap.Continues refs refs'
        (a.redraw x c.identities s).next ∧
      (x.settle report c a state).2.heap.Draws refs' (a.redraw x c.identities s).drawing
        c.entity := by
  have hguard : state.heap.Extends _ := mayRun_extends x a c state.surroundings
  cases hmay : (x.mayRun a c state.surroundings).1 with
  | false =>
    rw [(settle_of_not x report c a state hmay).1] at hskipped
    cases hskipped
  | true =>
    rw [(settle_of_may x report c a state hmay).2]
    exact execute_setField hentity hids hx hv (htable.mono hguard.size_le) hnext
      (hs.of_extends hguard List.prefix_rfl) huntangled

end

/-- An action that is skipped changes no object. -/
theorem settle_extends_of_skipped (report : Bool) {state : EngineState}
    (hskipped : (x.settle report c a state).1.skipped = true) :
    state.heap.Extends (x.settle report c a state).2.heap := by
  cases hmay : (x.mayRun a c state.surroundings).1 with
  | false =>
    rw [(settle_of_not x report c a state hmay).2]
    exact mayRun_extends x a c state.surroundings
  | true =>
    rw [(settle_of_may x report c a state hmay).1] at hskipped
    generalize (x.execute a c _).1 = result at hskipped
    cases result <;> cases hskipped

/-! ## Batches -/

/-- The actions of a list that are not skipped. -/
def ran (x : Executor) (report : Bool) (c : Context) (actions : List Action) (s : EngineState) :
    List Action :=
  ((actions.zip (x.resultsInTurn report c actions s)).filter fun p => !p.2.skipped).map (·.1)

theorem ran_cons (x : Executor) (report : Bool) (c : Context) (a : Action) (rest : List Action)
    (s : EngineState) : x.ran report c (a :: rest) s =
      if (x.settle report c a s).1.skipped then x.ran report c rest (x.settle report c a s).2
      else a :: x.ran report c rest (x.settle report c a s).2 := by
  unfold ran
  rw [resultsInTurn, List.zip_cons_cons, List.filter_cons]
  cases (x.settle report c a s).1.skipped <;> rfl

section

variable (hx : x.handlers.get? Handler.setFieldType = some Handler.setField)
  (hentity : c.entity = .mapping e) (hids : ∀ p ∈ c.identifiers, p.2.Scalar)

include hx hentity hids

/-- Actions that set fields, one after the other, update the drawing of the entity one after the
    other. -/
theorem after_draws (report : Bool) (state : EngineState) {actions : List Action}
    (htable : state.heap.Table refs) (hnext : refs.length = s.next)
    (hs : state.heap.Draws refs s.drawing c.entity) (hset : ∀ a ∈ actions, a.SetsField)
    (huntangled : Untangled x c.identities (x.ran report c actions state) s) :
    ∃ refs', (x.after report c actions state).heap.Continues refs refs'
        (x.redrawn c.identities (x.ran report c actions state) s).next ∧
      (x.after report c actions state).heap.Draws refs'
        (x.redrawn c.identities (x.ran report c actions state) s).drawing c.entity := by
  induction actions generalizing state s refs with
  | nil => exact ⟨refs, ⟨htable, List.prefix_rfl, hnext⟩, hs⟩
  | cons a rest ih =>
    obtain ⟨ha, hrest⟩ := List.forall_mem_cons.1 hset
    have hhandler : x.handlers.get? a.type = some Handler.setField := ha.type ▸ hx
    rw [ran_cons] at huntangled ⊢
    cases hskipped : (x.settle report c a state).1.skipped with
    | true =>
      rw [hskipped, if_pos rfl] at huntangled
      have hkept := settle_extends_of_skipped report hskipped
      exact ih _ (htable.mono hkept.size_le) hnext (hs.of_extends hkept List.prefix_rfl) hrest
        huntangled
    | false =>
      rw [hskipped, if_neg (by simp)] at huntangled
      obtain ⟨hfirst, huntangled⟩ := huntangled
      obtain ⟨refs₁, hcontinues, hdraws⟩ :=
        settle_draws hentity hids report hhandler ha.value htable hnext hs hskipped hfirst
      obtain ⟨refs₂, hcontinues', hdraws'⟩ :=
        ih _ hcontinues.table hcontinues.free hdraws hrest huntangled
      exact ⟨refs₂, hcontinues.trans hcontinues', hdraws'⟩

end

theorem mayRun_of_guard (x : Executor) (c : Context) (s : Surroundings)
    (hguard : a.guard.truth = false) : x.mayRun a c s = (true, s.heap) := by
  unfold mayRun
  rw [if_neg (by simp [hguard])]

/-- An action without a guard is not skipped. -/
theorem settle_not_skipped (x : Executor) (report : Bool) (c : Context) (s : EngineState)
    (hguard : a.guard.truth = false) : (x.settle report c a s).1.skipped = false := by
  have hmay := congrArg Prod.fst (mayRun_of_guard x c s.surroundings hguard)
  rw [(settle_of_may x report c a s hmay).1]
  cases (x.execute a c (x.beforeAction c a s)).1 <;> rfl

/-- Actions without guards are all run. -/
theorem ran_of_unguarded (x : Executor) (report : Bool) (c : Context) {actions : List Action}
    (hguard : ∀ a ∈ actions, a.guard.truth = false) (s : EngineState) :
    x.ran report c actions s = actions := by
  induction actions generalizing s with
  | nil => rfl
  | cons a rest ih =>
    obtain ⟨ha, hrest⟩ := List.forall_mem_cons.1 hguard
    rw [ran_cons, settle_not_skipped x report c s ha, if_neg Bool.false_ne_true, ih hrest]

/-- **A batch that sets fields is a fold of updates of the drawing of the entity**, over the
    actions that are not skipped, if none of them stores a mapping within itself. A placeholder
    stores what it leads to with the marks that this has: the very object, not a copy of it. -/
theorem runBatch_draws (x : Executor) (report : Bool) (c : Context) (state : EngineState) {e : Ref}
    {refs : List Ref} {d : Drawing} {actions : List Action} {turns : List (Nat × Action)}
    (hx : x.handlers.get? Handler.setFieldType = some Handler.setField)
    (hentity : c.entity = .mapping e) (hids : ∀ p ∈ c.identifiers, p.2.Scalar)
    (htable : state.heap.Table refs) (hs : state.heap.Draws refs d c.entity)
    (hset : ∀ a ∈ actions, a.SetsField) (htimed : ∀ a ∈ actions, x.guardFault? a = none)
    (hturns : ordered actions = .ok turns)
    (huntangled : Untangled x c.identities
      (x.ran report c (turns.map (·.2)) (state.entered (bindings c state.heap)))
      ⟨d, refs.length⟩) :
    let ran := x.ran report c (turns.map (·.2)) (state.entered (bindings c state.heap))
    (∃ results, (x.runBatch report c actions state).1 = .ok results) ∧
      (∃ refs', (x.runBatch report c actions state).2.heap.Continues refs refs'
          (x.redrawn c.identities ran ⟨d, refs.length⟩).next ∧
        (x.runBatch report c actions state).2.heap.Draws refs'
          (x.redrawn c.identities ran ⟨d, refs.length⟩).drawing c.entity) ∧
      (x.runBatch report c actions state).2.heap.plain c.entity =
        (x.redrawn c.identities ran ⟨d, refs.length⟩).drawing.plain := by
  intro ran
  have hset' : ∀ a ∈ turns.map (·.2), a.SetsField := fun a ha =>
    hset a ((ordered_snd_perm hturns).mem_iff.1 ha)
  have hnone := x.batchFault?_of_perm (ordered_snd_perm hturns) htimed
  obtain ⟨refs', hcontinues, hdraws⟩ :=
    after_draws (s := ⟨d, refs.length⟩) hx hentity hids report
      (state.entered (bindings c state.heap)) htable rfl hs hset' huntangled
  rw [runBatch_of_none x report c hturns (ordered_length hturns) hnone state]
  exact ⟨⟨_, rfl⟩, ⟨refs', hcontinues, hdraws⟩, hdraws.plain_eq⟩

end Executor

/-! ## A customer at two places -/

namespace Customer

/-- An entity that names a customer. -/
def heap : Heap :=
  ⟨#[.mapping [(.text "customer", .mapping 1)], .mapping [(.text "name", .text "a")]]⟩

/-- A customer with a name; the entity has the mark before. -/
def customer (name : String) : Drawing :=
  .mapping 1 [(.text "name", .leaf (.text name))]

/-- The drawing of an entity that names a customer, with further fields. -/
def entity (name : String) (fields : List (Data × Drawing)) : Drawing :=
  .mapping 0 ((.text "customer", customer name) :: fields)

/-- An action that sets a field to a text. -/
def setting (field value : String) (order : Int) : Action where
  id := .text field
  type := Handler.setFieldType
  parameters := [(.text "field", .text field), (.text "value", .text value)]
  order := .int order

/-- Stores the customer in another field, too. -/
def share : Action :=
  setting "copy" "\x7b\x7bentity.customer\x7d\x7d" 1

/-- Writes below the customer. -/
def rename : Action :=
  setting "customer.name" "b" 2

def context : Context :=
  ⟨.text "e", .text "order", .text "u", .text "c", .text "t", .mapping 0⟩

def executor : Executor :=
  (⟨{}, {}⟩ : Executor).register Handler.setFieldType Handler.setField

def state : EngineState where
  surroundings :=
    { heap, breakers := { settings := { recovery := 30.0 } }, clock := fun _ => 0.0, replies := [] }
  statistics := { errorLimit := 5, total := Record.fresh }
  metrics := none
  clock := ⟨0, 0⟩

theorem timesGuards : executor.TimesGuards :=
  ⟨_, rfl⟩

theorem whole?_share :
    Template.whole? "\x7b\x7bentity.customer\x7d\x7d" = some ["entity", "customer"] := by
  have hbody : Template.bodyAfter? "entity.customer\x7d\x7d".toList =
      some (["entity".toList, "customer".toList], []) := by decide +kernel
  obtain ⟨span, hscan⟩ := Template.scan_placeholder hbody
  have hrest : Template.Piece.scan [] = [] := by rw [Template.Piece.scan]
  unfold Template.whole?
  rw [hrest] at hscan
  rw [show "\x7b\x7bentity.customer\x7d\x7d".toList =
    '{' :: '{' :: "entity.customer\x7d\x7d".toList from rfl, hscan]
  rfl

theorem literal_b : (Data.text "b").Literal where
  solid := .scalar (v := .text "b") trivial
  literal t ht span path hp := by
    rw [List.mem_singleton.1 ht, show "b".toList = ['b'] from rfl,
      Template.scan_cons (by decide)] at hp
    simp [Template.Piece.scan] at hp

theorem table : heap.Table [0, 1] :=
  ⟨by decide, by simp [heap]⟩

theorem draws : heap.Draws [0, 1] (entity "a" []) context.entity := by
  have hname : heap.Draws [0, 1] (customer "a") (.mapping 1) :=
    .of_entries rfl rfl (.cons ⟨⟨rfl, rfl⟩, .leaf (v := .text "a") trivial⟩ .nil)
  exact .of_entries rfl rfl (.cons ⟨⟨rfl, rfl⟩, hname⟩ .nil)

theorem share_setsField : share.SetsField :=
  ⟨rfl, .placeholder whole?_share⟩

theorem setsField {a : Action} (ha : a ∈ [share, rename]) : a.SetsField := by
  simp only [List.mem_cons, List.not_mem_nil, or_false] at ha
  rcases ha with rfl | rfl
  · exact share_setsField
  · exact ⟨rfl, .literal literal_b⟩

theorem ran_eq (report : Bool) (s : EngineState) :
    executor.ran report context [share, rename] s = [share, rename] :=
  executor.ran_of_unguarded report context (by simp [share, rename, setting, Data.truth]) s

/-- The update of an action that sets a field to a text. -/
theorem redraw_setting {field value : String} (order : Int) {s x : Sketch}
    {found : Option Drawing} (hfield : field.isEmpty = false)
    (hx : (Data.text value).drawn context.identities s = .ok x)
    (hfound : s.drawing.follow (Path.split field) = .ok found) :
    (setting field value order).redraw executor context.identities s =
      s.drawing.put (Path.split field) x := by
  obtain ⟨t, htime, hsome⟩ : ∃ t : Float,
      executor.timeLimit (setting field value order).parameters = .ok t ∧ ¬t / 1000.0 ≤ 0.0 :=
    ⟨_, rfl, by decide +kernel⟩
  have hvalue : Details.parameter (setting field value order).parameters "value" = .text value :=
    rfl
  have hpath : Details.parameter (setting field value order).parameters "field" = .text field :=
    rfl
  unfold Action.redraw Action.redraw? Details.redraw?
  rw [htime, hvalue, hpath]
  dsimp only
  rw [if_neg hsome, hfield, hx, hfound]
  rfl

theorem redraw_share : share.redraw executor context.identities ⟨entity "a" [], 2⟩ =
    ⟨entity "a" [(.text "copy", customer "a")], 2⟩ := by
  have hx : (Data.text "\x7b\x7bentity.customer\x7d\x7d").drawn context.identities
      ⟨entity "a" [], 2⟩ = .ok ⟨customer "a", 2⟩ := by
    rw [Template.drawn_placeholder whole?_share]
    rfl
  have hfield : "copy".isEmpty = false := rfl
  have hfound : (entity "a" []).follow (Path.split "copy") = .ok none := rfl
  rw [share, redraw_setting 1 hfield hx hfound]
  rfl

theorem redraw_rename : rename.redraw executor context.identities
    ⟨entity "a" [(.text "copy", customer "a")], 2⟩ =
      ⟨entity "b" [(.text "copy", customer "b")], 2⟩ := by
  have hfield : "customer.name".isEmpty = false := rfl
  have hx : (Data.text "b").drawn context.identities
      ⟨entity "a" [(.text "copy", customer "a")], 2⟩ = .ok ⟨.leaf (.text "b"), 2⟩ :=
    Template.drawn_literal literal_b _ _
  have hfound : (entity "a" [(.text "copy", customer "a")]).follow
      (Path.split "customer.name") = .ok (some (.leaf (.text "a"))) := rfl
  have hlocate : (entity "a" [(.text "copy", customer "a")]).locate?
      (Path.split "customer.name") = some (1, "name", []) := rfl
  rw [rename, redraw_setting 2 hfield hx hfound, Drawing.put, hlocate]
  rfl

theorem redrawn_eq : executor.redrawn context.identities [share, rename] ⟨entity "a" [], 2⟩ =
    ⟨entity "b" [(.text "copy", customer "b")], 2⟩ := by
  rw [Executor.redrawn, List.foldl_cons, List.foldl_cons, List.foldl_nil, redraw_share,
    redraw_rename]

theorem untangled :
    Untangled executor context.identities [share, rename] ⟨entity "a" [], 2⟩ := by
  refine ⟨?_, ?_, trivial⟩
  · rintro path d mark key rest hfield ⟨t, target, ht, htarget, hd⟩ hlocate
    cases hfield
    have ht : Data.text "\x7b\x7bentity.customer\x7d\x7d" = .text t := ht
    cases ht
    cases whole?_share.symm.trans htarget
    have hd : (Except.ok (some (customer "a")) : Except Fault (Option Drawing)) = .ok (some d) := hd
    cases hd
    have hlocate : some (0, "copy", []) = some (mark, key, rest) := hlocate
    cases hlocate
    decide
  · exact Action.untangled_of_literal (a := rename) literal_b _ _

end Customer

end Rulebook
