/-
  Actions that fail or are skipped leave the entity as it was.

  A guard changes no object, and the standard handlers write last.  So an action either changes no
  object at all, or it succeeds and has written one value into the entity: the one that it was to
  set, or the result that it gives.

  * `standard_get?`: what the standard handlers do;
  * `mayRun_extends`: guards;
  * `execute_ending`: how an action ends;
  * `settle_atomic`: actions of a batch.
-/
import Mathlib.Tactic.SplitIfs
import Rulebook.Executor
import Rulebook.Proofs.Handlers
import Rulebook.Proofs.Script.Traversal

namespace Rulebook

/-! ## The entity -/

/-- The entity of a context is as it was: all objects are, and it stands for the same data unless
    references dangle. -/
def Unchanged (c : Context) (h h' : Heap) : Prop :=
  h.Extends h' ∧
    (h.Closed → c.entity.Within h.cells.size → h'.plain c.entity = h.plain c.entity)

/-- A value was written at the end of a path into the entity of a context, and nothing else. -/
def Written (c : Context) (path : String) (v : Value) (h h' : Heap) : Prop :=
  ∃ h₁, h.setPath c.entity (Path.split path) v = .ok h₁ ∧ Unchanged c h₁ h'

theorem Heap.Extends.unchanged {c : Context} {h h' : Heap} (he : h.Extends h') : Unchanged c h h' :=
  ⟨he, fun hc hv => he.plain_eq hc hv⟩

/-! ## Standard handlers -/

theorem Keyed.mem_of_find? {κ α : Type} [DecidableEq κ] {k : κ} {a : α} {es : List (κ × α)}
    (h : Keyed.find? k es = some a) : (k, a) ∈ es := by
  induction es with
  | nil => exact absurd h nofun
  | cons e es ih =>
    simp only [Keyed.find?] at h
    split_ifs at h with hk
    · cases h
      exact List.mem_cons.2 (.inl (by rw [← hk]))
    · exact List.mem_cons_of_mem e (ih h)

namespace Handler

/-- What a standard handler of a type does. -/
inductive Standard (stamps : Stamps) : String → Handler → Prop
  | setField : Standard stamps setFieldType setField
  | calculate : Standard stamps calculateType (calculate stamps)
  | other {type : String} {handler : Handler} (hs : type ≠ setFieldType)
      (hc : type ≠ calculateType)
      (hk : ∀ ps c deadline, Keeps ObjectsKept (handler.run ps c deadline)) :
      Standard stamps type handler

theorem standard_get? {config : Config} {stamps : Stamps} {database : Option Database}
    {type : String} {handler : Handler}
    (h : (standard config stamps database).get? type = some handler) :
    Standard stamps type handler := by
  have hall : ∀ e ∈ (standard config stamps database).entries, Standard stamps e.1 e.2 := by
    have hP := objectsKept_plain
    simp only [standard, List.forall_mem_cons]
    refine ⟨.setField, .other ?_ ?_ (sendNotification_plain hP stamps),
      .other ?_ ?_ (sendEmail_plain hP stamps), .other ?_ ?_ (triggerWorkflow_plain hP stamps),
      .other ?_ ?_ (callService_keeps config stamps),
      .other ?_ ?_ (executeScript_keeps config stamps), .other ?_ ?_ (approve_plain hP stamps),
      .other ?_ ?_ (reject_plain hP stamps), .other ?_ ?_ (escalate_plain hP stamps),
      .other ?_ ?_ (logEvent_plain hP stamps), .other ?_ ?_ (updateDatabase_keeps stamps database),
      .calculate, List.forall_mem_nil _⟩
    all_goals decide
  exact hall _ (Keyed.mem_of_find? h)

/-- A handler whose check touches nothing. -/
def Looks (handler : Handler) : Prop :=
  ∀ ps s, stateLeft (handler.check ps s) = s

theorem requiring_check (type : String) (required : List String)
    (run : Details → Context → Float → Act Value) (ps : Details) (s : Surroundings) :
    (requiring type required run).check ps s =
      match checkPresent type required ps with
      | .ok () => .ok () s
      | .error e => .error e s := by
  dsimp only [requiring]
  cases checkPresent type required ps <;> rfl

theorem requiring_looks (type : String) (required : List String)
    (run : Details → Context → Float → Act Value) : (requiring type required run).Looks := by
  intro ps s
  rw [requiring_check]
  cases checkPresent type required ps <;> rfl

theorem callService_looks (config : Config) (stamps : Stamps) : (callService config stamps).Looks :=
  requiring_looks "CALL_API" ["url"] (callService.run config stamps)

theorem standard_looks {config : Config} {stamps : Stamps} {database : Option Database}
    {type : String} {handler : Handler}
    (h : (standard config stamps database).get? type = some handler) : handler.Looks := by
  have hall : ∀ e ∈ (standard config stamps database).entries, e.2.Looks := by
    simp only [standard, List.forall_mem_cons]
    refine ⟨?_, ?_, ?_, ?_, callService_looks config stamps, ?_, ?_, ?_, ?_, ?_, ?_, ?_,
      List.forall_mem_nil _⟩
    all_goals exact requiring_looks _ _ _
  exact hall _ (Keyed.mem_of_find? h)

end Handler

/-! ## Guards -/

namespace Executor

theorem guardHolds_extends (a : Action) (c : Context) (seconds : Float) (s : Surroundings) :
    s.heap.Extends (guardHolds a c seconds s).2 := by
  unfold guardHolds
  split
  · exact .refl s.heap
  · next names h₁ hn =>
    have hload := (c.names_extends s.heap hn).trans (Heap.load_extends h₁ a.guard)
    have hguard (scope : Script.Scope) :=
      hload.trans (Script.guardHolds_extends (h₁.load a.guard).2 scope (h₁.load a.guard).1)
    dsimp only
    split <;> next hs => exact congrArg Prod.snd hs ▸ hguard _

theorem mayRun_extends (x : Executor) (a : Action) (c : Context) (s : Surroundings) :
    s.heap.Extends (x.mayRun a c s).2 := by
  unfold mayRun
  split_ifs
  · split
    · exact guardHolds_extends a c _ s
    · exact .refl s.heap
  · exact .refl s.heap

/-! ## Time -/

section

variable {α : Type} {act : Float → Act α} {seconds : Float} {s : Surroundings}

/-- What an action that has a time runs on. -/
def started (s : Surroundings) (seconds : Float) : Surroundings :=
  { s with limit := some (s.now + seconds) }

/-- What is left of an action that had a time: the limit and what it bound for the log are gone. -/
def ended (s after : Surroundings) : Surroundings :=
  { after with limit := s.limit, log := s.log }

theorem inTime_of_none (h : seconds ≤ 0.0) : inTime seconds act s = (.error .cut, s) := by
  rw [inTime, if_pos h]

theorem inTime_of_some (h : ¬seconds ≤ 0.0) :
    inTime seconds act s =
      let p := outcome (act (s.now + seconds)) (started s seconds)
      (p.1, ended s p.2) := by
  rw [inTime, if_neg h]
  rfl

theorem outcome_eq_ok_iff {act : Act α} {r : α} {s s' : Surroundings} :
    outcome act s = (.ok r, s') ↔ act s = .ok r s' := by
  unfold outcome
  cases act s <;> simp

theorem outcome_eq_error_iff {act : Act α} {e : Act.Stop} {s s' : Surroundings} :
    outcome act s = (.error e, s') ↔ act s = .error e s' := by
  unfold outcome
  cases act s <;> simp

/-- Something in its time is not even started, or does what it does under its limit. -/
theorem inTime_cases (seconds : Float) (act : Float → Act α) (s : Surroundings) :
    seconds ≤ 0.0 ∧ inTime seconds act s = (.error .cut, s) ∨
    ¬seconds ≤ 0.0 ∧
      ((∃ e s', act (s.now + seconds) (started s seconds) = .error e s' ∧
          inTime seconds act s = (.error e, ended s s')) ∨
        ∃ a s', act (s.now + seconds) (started s seconds) = .ok a s' ∧
          inTime seconds act s = (.ok a, ended s s')) := by
  by_cases h : seconds ≤ 0.0
  · exact .inl ⟨h, inTime_of_none h⟩
  · refine .inr ⟨h, ?_⟩
    rw [inTime_of_some h]
    cases hact : act (s.now + seconds) (started s seconds) with
    | ok a s' => exact .inr ⟨a, s', rfl, by rw [outcome_eq_ok_iff.2 hact]⟩
    | error e s' => exact .inl ⟨e, s', rfl, by rw [outcome_eq_error_iff.2 hact]⟩

end

/-! ## Actions -/

section

variable {x : Executor} {a : Action} {c : Context} {s s' : Surroundings} {handler : Handler}
  {milliseconds : Float}

/-- An action has a handler, which finds its parameters there. -/
def Accepts (x : Executor) (a : Action) (handler : Handler) (s s' : Surroundings) : Prop :=
  x.handlers.get? a.type = some handler ∧ handler.check a.parameters s = .ok () s'

theorem execute_of_unknown (hx : x.handlers.get? a.type = none) : x.execute a c s =
    (.error (.engine (.unknownActionType a.type (.of [("action_id", a.id)]))), s) := by
  unfold execute
  rw [hx]

theorem execute_of_refused {e : Failure} (hx : x.handlers.get? a.type = some handler)
    (hcheck : handler.check a.parameters s = .error e s') :
    x.execute a c s = (.error e, s') := by
  unfold execute
  rw [hx]
  dsimp only
  rw [hcheck]

theorem execute_of_untimed {f : Fault} (ha : x.Accepts a handler s s')
    (htime : x.timeLimit a.parameters = .error f) :
    x.execute a c s = (.error (.fault f), s') := by
  unfold execute
  rw [ha.1]
  dsimp only
  rw [ha.2]
  dsimp only
  rw [htime]

theorem execute_of_timed (ha : x.Accepts a handler s s')
    (htime : x.timeLimit a.parameters = .ok milliseconds) : x.execute a c s =
      let p := inTime (milliseconds / 1000.0) (handler.run a.parameters c) s'
      (settled a milliseconds p.1, p.2) := by
  unfold execute
  rw [ha.1]
  dsimp only
  rw [ha.2]
  dsimp only
  rw [htime]

/-- An action has no handler, or is refused, or has no time, or ends as its handler does in its
    time. -/
inductive Ending (x : Executor) (a : Action) (c : Context) (s : Surroundings) :
    Except Failure Value × Surroundings → Prop
  | unknown (more : Details) : x.handlers.get? a.type = none →
      Ending x a c s (.error (.engine (.unknownActionType a.type more)), s)
  | refused {handler : Handler} {e : Failure} {s' : Surroundings} :
      x.handlers.get? a.type = some handler → handler.check a.parameters s = .error e s' →
      Ending x a c s (.error e, s')
  | untimed {handler : Handler} {f : Fault} {s' : Surroundings} : x.Accepts a handler s s' →
      x.timeLimit a.parameters = .error f → Ending x a c s (.error (.fault f), s')
  | run {handler : Handler} {milliseconds : Float} {r : Except Act.Stop Value}
      {s₁ s' : Surroundings} : x.Accepts a handler s s₁ →
      x.timeLimit a.parameters = .ok milliseconds →
      inTime (milliseconds / 1000.0) (handler.run a.parameters c) s₁ = (r, s') →
      Ending x a c s (settled a milliseconds r, s')

theorem execute_ending (x : Executor) (a : Action) (c : Context) (s : Surroundings) :
    x.Ending a c s (x.execute a c s) := by
  cases hx : x.handlers.get? a.type with
  | none => exact execute_of_unknown hx ▸ .unknown _ hx
  | some handler =>
    cases hcheck : handler.check a.parameters s with
    | error e s' => exact execute_of_refused hx hcheck ▸ .refused hx hcheck
    | ok _ s' =>
      have ha : x.Accepts a handler s s' := ⟨hx, hcheck⟩
      cases htime : x.timeLimit a.parameters with
      | error f => exact execute_of_untimed ha htime ▸ .untimed ha htime
      | ok milliseconds => exact execute_of_timed ha htime ▸ .run ha htime rfl

end

/-! ## Changes -/

theorem record_heap (report : Bool) (r : ActionResult) (s : EngineState) :
    (record report r s).heap = s.heap := by
  unfold record
  dsimp only
  split_ifs <;> rfl

theorem countFailure_heap (r : Except Failure Value) (s : EngineState) :
    (countFailure s r).heap = s.heap := by
  cases r <;> rfl

section

variable {x : Executor} {a : Action} {c : Context} {s : Surroundings} {handler : Handler}

theorem execute_extends (hx : x.handlers.get? a.type = some handler) (hlooks : handler.Looks)
    (hk : ∀ deadline, Keeps ObjectsKept (handler.run a.parameters c deadline)) :
    s.heap.Extends (x.execute a c s).2.heap := by
  have hcheck := hlooks a.parameters s
  have hend := execute_ending x a c s
  generalize x.execute a c s = r at hend
  cases hend with
  | unknown => exact .refl s.heap
  | refused hx' he =>
    cases hx.symm.trans hx'
    rw [he] at hcheck
    exact hcheck ▸ .refl s.heap
  | untimed ha =>
    cases hx.symm.trans ha.1
    rw [ha.2] at hcheck
    exact hcheck ▸ .refl s.heap
  | @run _ milliseconds _ s₁ _ ha _ hended =>
    cases hx.symm.trans ha.1
    rw [ha.2] at hcheck
    obtain rfl : s₁ = s := hcheck
    obtain ⟨-, h⟩ | ⟨-, hrun⟩ :=
      inTime_cases (milliseconds / 1000.0) (handler.run a.parameters c) s₁
    · cases h.symm.trans hended
      exact .refl _
    · have hkept := hk (s₁.now + milliseconds / 1000.0) (started s₁ (milliseconds / 1000.0))
      unfold KeepsAt at hkept
      obtain ⟨e, s', hact, h⟩ | ⟨v, s', hact, h⟩ := hrun
      all_goals
        cases h.symm.trans hended
        rw [hact] at hkept
        exact hkept

/-- An action run by a handler that writes last fails without a change, or comes to its value. -/
theorem execute_writesLast {Q : Value → Heap → Prop} (hx : x.handlers.get? a.type = some handler)
    (hlooks : handler.Looks) (hw : ∀ deadline t, t.heap = s.heap →
      Handler.WritesLast t Q (handler.run a.parameters c deadline)) :
    (∃ e, (x.execute a c s).1 = .error e ∧ s.heap.Extends (x.execute a c s).2.heap) ∨
    ∃ v, (x.execute a c s).1 = .ok v ∧ Q v (x.execute a c s).2.heap := by
  have hcheck := hlooks a.parameters s
  have hend := execute_ending x a c s
  generalize x.execute a c s = r at hend
  cases hend with
  | unknown => exact .inl ⟨_, rfl, .refl s.heap⟩
  | refused hx' he =>
    cases hx.symm.trans hx'
    rw [he] at hcheck
    exact .inl ⟨_, rfl, hcheck ▸ .refl s.heap⟩
  | untimed ha =>
    cases hx.symm.trans ha.1
    rw [ha.2] at hcheck
    exact .inl ⟨_, rfl, hcheck ▸ .refl s.heap⟩
  | @run _ milliseconds _ s₁ _ ha _ hended =>
    cases hx.symm.trans ha.1
    rw [ha.2] at hcheck
    obtain rfl : s₁ = s := hcheck
    obtain ⟨-, h⟩ | ⟨-, hact⟩ :=
      inTime_cases (milliseconds / 1000.0) (handler.run a.parameters c) s₁
    · cases h.symm.trans hended
      exact .inl ⟨_, rfl, .refl _⟩
    · have hrun := hw (s₁.now + milliseconds / 1000.0) (started s₁ (milliseconds / 1000.0)) rfl
      unfold Handler.WritesLast Ends at hrun
      obtain ⟨e, s', hact, h⟩ | ⟨v, s', hact, h⟩ := hact
      · cases h.symm.trans hended
        rw [hact] at hrun
        obtain (f | e) | _ := e <;> exact .inl ⟨_, rfl, hrun⟩
      · cases h.symm.trans hended
        rw [hact] at hrun
        exact .inr ⟨v, rfl, hrun⟩

end

theorem settle_of_not (x : Executor) (report : Bool) (c : Context) (a : Action) (s : EngineState)
    (h : (x.mayRun a c s.surroundings).1 = false) :
    (x.settle report c a s).1 = skipped a ∧
      (x.settle report c a s).2.heap = (x.mayRun a c s.surroundings).2 := by
  unfold settle
  split
  · next h' hm => exact ⟨rfl, by rw [record_heap, hm]; rfl⟩
  · next h' hm => rw [hm] at h; cases h

/-- What an action of a batch runs on. -/
def beforeAction (x : Executor) (c : Context) (a : Action) (s : EngineState) : Surroundings :=
  { s.surroundings with heap := (x.mayRun a c s.surroundings).2 }

theorem settle_of_may (x : Executor) (report : Bool) (c : Context) (a : Action) (s : EngineState)
    (h : (x.mayRun a c s.surroundings).1 = true) :
    (x.settle report c a s).1 = resultOf a (x.execute a c (x.beforeAction c a s)).1 ∧
      (x.settle report c a s).2.heap = (x.execute a c (x.beforeAction c a s)).2.heap := by
  unfold settle
  split
  · next h' hm => rw [hm] at h; cases h
  · next h' hm =>
    have hbefore : (s.setHeap h').surroundings = x.beforeAction c a s := by
      simp only [EngineState.setHeap, beforeAction, hm]
    dsimp only
    rw [hbefore]
    exact ⟨rfl, by rw [record_heap, countFailure_heap]; rfl⟩

/-- What an action with a result may have done to the heap that its guard left. -/
structure Atomic (c : Context) (a : Action) (before guarded : Heap) (r : ActionResult)
    (after : Heap) : Prop where
  /-- An action that failed or was skipped did nothing. -/
  idle : r.success = false ∨ r.skipped = true → Unchanged c before after
  /-- One that set a field wrote the value that it was given, and nothing else. -/
  set : r.success = true → r.skipped = false → a.type = Handler.setFieldType →
    ∃ path p, Details.parameter a.parameters "field" = .text path ∧
      Template.resolve { context := c } guarded (Details.parameter a.parameters "value") = .ok p ∧
      Unchanged c before p.2 ∧ Written c path p.1 p.2 after
  /-- One that calculated for a field wrote the result that it gives, and nothing else. -/
  calculated : r.success = true → r.skipped = false → a.type = Handler.calculateType →
    (Details.parameter a.parameters "targetField").truth = true →
    ∃ path result h, Details.parameter a.parameters "targetField" = .text path ∧
      Handler.given? after r.result "result" = some result ∧
      Unchanged c before h ∧ Written c path result h after
  /-- Any other one did nothing. -/
  other : a.type ≠ Handler.setFieldType →
    ¬(a.type = Handler.calculateType ∧
      (Details.parameter a.parameters "targetField").truth = true) → Unchanged c before after

namespace Atomic

variable {c : Context} {a : Action} {before guarded after : Heap} {r : ActionResult}

theorem of_idle (h : before.Extends after) (hr : r.success = false ∨ r.skipped = true) :
    Atomic c a before guarded r after where
  idle _ := h.unchanged
  set hs hk := absurd hr (by simp [hs, hk])
  calculated hs hk := absurd hr (by simp [hs, hk])
  other _ _ := h.unchanged

theorem of_other (h : before.Extends after) (hs : a.type ≠ Handler.setFieldType)
    (hc : a.type ≠ Handler.calculateType) : Atomic c a before guarded r after where
  idle _ := h.unchanged
  set _ _ ht := absurd ht hs
  calculated _ _ ht := absurd ht hc
  other _ _ := h.unchanged

end Atomic

theorem execute_atomic {x : Executor} {stamps : Stamps} {database : Option Handler.Database}
    (hx : x.handlers = Handler.standard x.config stamps database) {before : Heap} (c : Context)
    (a : Action) (s : Surroundings) (hb : before.Extends s.heap) :
    Atomic c a before s.heap (resultOf a (x.execute a c s).1) (x.execute a c s).2.heap := by
  cases hget : x.handlers.get? a.type with
  | none =>
    rw [execute_of_unknown hget]
    exact .of_idle hb (.inl rfl)
  | some handler =>
    have hget' : (Handler.standard x.config stamps database).get? a.type = some handler := hx ▸ hget
    have hlooks := Handler.standard_looks hget'
    have hstandard : Handler.Standard stamps a.type handler := Handler.standard_get? hget'
    generalize htype : a.type = type at hstandard
    cases hstandard with
    | setField =>
      rcases execute_writesLast hget hlooks fun deadline t ht =>
          ht ▸ Handler.setField_writes a.parameters c deadline t with
        ⟨e, he, hkept⟩ | ⟨v, hv, path, p, h, hfield, hp, hw, hkept⟩
      · rw [he]
        exact .of_idle (hb.trans hkept) (.inl rfl)
      · rw [hv]
        have hresolved := hb.trans (Template.resolve_extends _ s.heap _ hp)
        exact
          { idle := fun hidle => absurd hidle (by simp [resultOf])
            set := fun _ _ _ => ⟨path, p, hfield, hp, hresolved.unchanged, h, hw, hkept.unchanged⟩
            calculated := fun _ _ hc => absurd (htype.symm.trans hc) (by decide)
            other := fun hs => absurd htype hs }
    | calculate =>
      rcases execute_writesLast hget hlooks fun deadline t ht =>
          ht ▸ Handler.calculate_writes stamps a.parameters c deadline t with
        ⟨e, he, hkept⟩ | ⟨v, hv, hidle, hwrite⟩
      · rw [he]
        exact .of_idle (hb.trans hkept) (.inl rfl)
      · rw [hv]
        exact
          { idle := fun hidle => absurd hidle (by simp [resultOf])
            set := fun _ _ hs => absurd (htype.symm.trans hs) (by decide)
            calculated := fun _ _ _ ht => by
              obtain ⟨path, result, h₁, h, htarget, hr, hext, hw, hkept⟩ := hwrite ht
              exact ⟨path, result, h₁, htarget, hr, (hb.trans hext).unchanged, h, hw,
                hkept.unchanged⟩
            other := fun _ hc => by
              have hfalse : (Details.parameter a.parameters "targetField").truth = false :=
                Bool.eq_false_iff.2 fun ht => hc ⟨htype, ht⟩
              exact (hb.trans (hidle hfalse)).unchanged }
    | other hs hc hk =>
      refine .of_other (hb.trans (execute_extends hget hlooks fun deadline => hk _ c deadline)) ?_ ?_
      · rwa [htype]
      · rwa [htype]

/-- **An action is atomic.** If it fails or is skipped, the entity is as it was, guard included. If
    it succeeds, the entity is as it was unless the action set a field or calculated for one; then
    what was set or calculated was written at the end of its path, and nothing else was. -/
theorem settle_atomic (config : Config) (stamps : Stamps) (database : Option Handler.Database)
    (report : Bool) (c : Context) (a : Action) (s : EngineState) :
    let x : Executor := { config, handlers := Handler.standard config stamps database }
    Atomic c a s.heap (x.mayRun a c s.surroundings).2 (x.settle report c a s).1
      (x.settle report c a s).2.heap := by
  intro x
  have hguard := mayRun_extends x a c s.surroundings
  cases hmay : (x.mayRun a c s.surroundings).1 with
  | false =>
    obtain ⟨hr, hleft⟩ := settle_of_not x report c a s hmay
    rw [hr, hleft]
    exact .of_idle hguard (.inr rfl)
  | true =>
    obtain ⟨hr, hleft⟩ := settle_of_may x report c a s hmay
    rw [hr, hleft]
    exact execute_atomic (x := x) rfl c a (x.beforeAction c a s) hguard

end Executor

end Rulebook
