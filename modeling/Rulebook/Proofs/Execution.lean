/-
  How actions end.

  A handler fails with a fault or with an error of handlers, or it is cut off; the one that asks a
  database passes on what the database raises.  The executor tells faults of handlers as errors of
  handlers.  But it works out the time of an action before that, and a whole number may be too large
  for the double that the time is: this fault, and no other, comes out as it is.  A time may also be
  so small that no seconds are left of it, and then the handler is not even started.

  * `Act.Fails`: what a handler may fail with;
  * `standard_fails`: the standard handlers;
  * `timeLimit_eq_error_iff`: times that are too large;
  * `execute_eq_ok_iff`, `execute_documented`, `execute_eq_fault_iff`: results, errors and faults;
  * `execute_outcomes`: how an action ends.
-/
import Rulebook.Executor
import Rulebook.Proofs.Atomicity
import Rulebook.Proofs.Number.Range

namespace Rulebook

/-! ## Failures of handlers -/

/-- How a handler stops: with a fault, with an error of handlers or from outside, or cut off. -/
inductive Act.Stop.Raised (outside : EngineError → Prop) : Act.Stop → Prop
  | fault (f : Fault) : Raised outside (.failed (.fault f))
  | refused (message : String) (details : Details) :
      Raised outside (.failed (.engine (.handler message details)))
  | passed {e : EngineError} : outside e → Raised outside (.failed (.engine e))
  | cut : Raised outside .cut

namespace Act

variable {outside : EngineError → Prop}

/-- If something stops, it does as a handler stops. -/
def Fails {α : Type} (outside : EngineError → Prop) (act : Act α) : Prop :=
  ∀ s, Ends (fun e _ => e.Raised outside) (fun _ _ => True) s act

theorem Fails.throw {α : Type} {e : Act.Stop} (he : e.Raised outside) :
    Fails outside (MonadExcept.throw e : Act α) :=
  fun _ => he

theorem Fails.bind {α β : Type} {x : Act α} {f : α → Act β} (hx : Fails outside x)
    (hf : ∀ a, Fails outside (f a)) : Fails outside (x >>= f) :=
  fun s => .bind ((hx s).mono (fun _ _ he => he) fun a s' _ => hf a s')

theorem Fails.lift {α : Type} (r : Except Fault α) : Fails outside (Act.lift r) := by
  cases r with
  | error f => exact .throw (.fault f)
  | ok a => exact fun _ => trivial

theorem Fails.setHeap (h : Heap) : Fails outside (Act.setHeap h) :=
  fun _ => trivial

theorem Fails.wait : Fails outside Act.wait := fun s => by
  unfold Ends Act.wait
  split_ifs
  · exact .cut
  · trivial

theorem fails_plain : Plain fun act => Fails outside act where
  pure _ _ := trivial
  bind := .bind
  lift := .lift
  refuse message details := .throw (.refused message details)
  get _ := trivial
  load _ _ := trivial
  give _ _ := trivial
  resolve c d s := by
    rw [Ends, resolve_apply]
    split
    · next h => split at h <;> cases h; trivial
    · next h => split at h <;> cases h; exact .fault _

end Act

namespace Handler

open Act

variable {outside : EngineError → Prop} (stamps : Stamps) (ps : Details) (c : Context)
  (deadline : Float)

theorem executeScript_fails (config : Config) :
    Fails outside ((executeScript config stamps).run ps c deadline) := by
  have hP : Plain fun act => Fails outside act := fails_plain
  dsimp only [executeScript, requiring]
  split
  · split
    · exact hP.refuse _ _
    · refine hP.bind hP.get fun _ => hP.bind (hP.lift _) fun _ => hP.bind (hP.load _) fun _ =>
        hP.bind hP.heap fun h => ?_
      split
      · exact hP.refuse _ _
      · refine hP.bind hP.get fun _ => hP.bind (.setHeap _) fun _ => hP.bind .wait fun _ => ?_
        split
        · exact hP.refuse _ _
        · exact hP.bind (hP.load _) fun _ => hP.bind (hP.load _) fun _ => hP.give _
  · exact hP.bind (hP.lift _) fun _ => hP.refuse _ _

theorem writeEntity_fails (path : String) (v : Value) : Fails outside (writeEntity c path v) :=
  fails_plain.bind fails_plain.heap fun _ => .bind (.lift _) fun _ => .setHeap _

theorem setField_fails : Fails outside (setField.run ps c deadline) := by
  have hP : Plain fun act => Fails outside act := fails_plain
  dsimp only [setField, requiring]
  split
  · split
    · exact hP.refuse _ _
    · exact hP.bind (hP.resolve c _) fun _ => hP.bind hP.heap fun _ => hP.bind (hP.lift _) fun _ =>
        hP.bind (writeEntity_fails c _ _) fun _ => hP.give _
  · exact hP.refuse _ _

theorem calculate_fails : Fails outside ((calculate stamps).run ps c deadline) := by
  have hP : Plain fun act => Fails outside act := fails_plain
  have hgive (result given : Value) (text : String) : Fails outside (do
      Act.give [("expression", ← Act.load (ps.parameter "expression")),
        ("evaluated_expression", .text text), ("result", result), ("variables", given),
        ("target_field", ← Act.load (ps.parameter "targetField")),
        ("calculated_at", stamps.timeOf)]) :=
    hP.bind (hP.load _) fun _ => hP.bind (hP.load _) fun _ => hP.give _
  dsimp only [calculate, requiring]
  refine hP.bind (hP.resolve c _) fun given => hP.bind (formulaNames_plain hP c given) fun _ =>
    hP.bind (hP.lift _) fun _ => hP.bind hP.heap fun _ => hP.bind (hP.lift _) fun _ =>
      hP.bind hP.heap fun _ => hP.bind (hP.lift _) fun text => ?_
  split
  · exact hP.refuse _ _
  · refine hP.bind (hP.lift _) fun _ => ?_
    split
    · split
      · exact hP.bind (writeEntity_fails c _ _) fun _ => hgive _ given text
      · exact .throw (.fault _)
    · exact hgive _ given text

/-- The type of actions that ask a database. -/
def updateDatabaseType : String := "UPDATE_DATABASE"

/-- The errors that an action of a type passes on from a database. -/
def PassedOn (database : Option Database) (type : String) (e : EngineError) : Prop :=
  type = updateDatabaseType ∧ ∃ ask update, database = some ask ∧ ask update = .error (.engine e)

theorem updateDatabase_fails (database : Option Database) :
    Fails (PassedOn database updateDatabaseType)
      ((updateDatabase stamps database).run ps c deadline) := by
  refine updateDatabase_plain fails_plain stamps ps c deadline (fun _ _ => trivial) .wait ?_
  intro ask update e hdatabase hask
  cases e with
  | fault f => exact .throw (.fault f)
  | engine e => exact .throw (.passed ⟨rfl, ask, update, hdatabase, hask⟩)

/-- A parameter that is told to be missing is absent. -/
theorem exists_of_checkPresent_eq_error {ps : Details} {type : String} {required : List String}
    {e : Failure} (h : checkPresent type required ps = .error e) :
    ∃ name, (Data.entry? ps name).isNone ∧ e = .engine (.missingParameter name type) := by
  unfold checkPresent at h
  split at h
  · next name hname =>
    cases h
    exact ⟨name, List.find?_some (p := fun n => (Data.entry? ps n).isNone) hname, rfl⟩
  · cases h

/-- **The standard handlers** want parameters, and fail with faults, errors of handlers and what a
    database raises. -/
theorem standard_fails {config : Config} {stamps : Stamps} {database : Option Database}
    {type : String} {handler : Handler}
    (h : (standard config stamps database).get? type = some handler) :
    (∃ required, handler.check = fun ps => ofExcept (checkPresent type required ps)) ∧
      ∀ ps c deadline, Fails (PassedOn database type) (handler.run ps c deadline) := by
  have hall : ∀ e ∈ (standard config stamps database).entries,
      (∃ required, e.2.check = fun ps => ofExcept (checkPresent e.1 required ps)) ∧
        ∀ ps c deadline, Fails (PassedOn database e.1) (e.2.run ps c deadline) := by
    have hP {type : String} : Plain fun act => Fails (PassedOn database type) act := fails_plain
    simp only [standard, List.forall_mem_cons]
    exact ⟨⟨⟨_, rfl⟩, setField_fails⟩, ⟨⟨_, rfl⟩, sendNotification_plain hP stamps⟩,
      ⟨⟨_, rfl⟩, sendEmail_plain hP stamps⟩, ⟨⟨_, rfl⟩, triggerWorkflow_plain hP stamps⟩,
      ⟨⟨_, rfl⟩, fun ps c deadline =>
        callService_plain hP stamps ps c deadline config (.throw .cut) fun _ _ _ => trivial⟩,
      ⟨⟨_, rfl⟩, fun ps c deadline => executeScript_fails stamps ps c deadline config⟩,
      ⟨⟨[], rfl⟩, approve_plain hP stamps⟩, ⟨⟨[], rfl⟩, reject_plain hP stamps⟩,
      ⟨⟨_, rfl⟩, escalate_plain hP stamps⟩, ⟨⟨_, rfl⟩, logEvent_plain hP stamps⟩,
      ⟨⟨_, rfl⟩, fun ps c deadline => updateDatabase_fails stamps ps c deadline database⟩,
      ⟨⟨_, rfl⟩, calculate_fails stamps⟩, List.forall_mem_nil _⟩
  exact hall _ (Keyed.mem_of_find? h)

/-- **The checks of the standard handlers** refuse parameters of which one is absent. -/
theorem standard_check_error {config : Config} {stamps : Stamps} {database : Option Database}
    {type : String} {handler : Handler} {ps : Details} {e : Failure} {s s' : Surroundings}
    (h : (standard config stamps database).get? type = some handler)
    (he : handler.check ps s = .error e s') :
    ∃ name, (Data.entry? ps name).isNone ∧ e = .engine (.missingParameter name type) := by
  obtain ⟨required, hrequired⟩ := (standard_fails h).1
  rw [hrequired] at he
  cases hpresent : checkPresent type required ps with
  | ok u =>
    simp only [hpresent] at he
    cases he
  | error e' =>
    simp only [hpresent] at he
    cases he
    exact exists_of_checkPresent_eq_error hpresent

end Handler

/-! ## Actions -/

namespace Executor

variable {x : Executor} {a : Action} {c : Context} {s : Surroundings} {milliseconds : Float}
  {f : Fault}

/-- The whole number that the time of an action is made of, if it is made of one. -/
def wholeLimit? (x : Executor) (parameters : Details) : Option Int :=
  match parameters.parameter "timeout" with
  | .int n => some (if n ≤ 0 then x.config.actionTimeout else n)
  | .float t => if t ≤ 0.0 then some x.config.actionTimeout else none
  | _ => some x.config.actionTimeout

/-- The time of an action is too large for a double. -/
def LimitTooLarge (x : Executor) (parameters : Details) : Prop :=
  ∃ n, x.wholeLimit? parameters = some n ∧ 2 ^ 1024 ≤ n.natAbs + 2 ^ 970

/-- **An action has a time unless it is too large.** -/
theorem timeLimit_eq_error_iff {ps : Details} :
    x.timeLimit ps = .error f ↔ f = .integerTooLargeForFloat ∧ x.LimitTooLarge ps := by
  have hlimit : x.timeLimit ps = .error f ↔
      ∃ n, x.wholeLimit? ps = some n ∧ (Number.int n).toFloat = .error f := by
    unfold timeLimit wholeLimit?
    cases ps.parameter "timeout" with
    | int n => by_cases hn : n ≤ 0 <;> simp [hn]
    | float t => by_cases ht : t ≤ 0.0 <;> simp [ht]
    | _ => simp
  rw [hlimit, LimitTooLarge]
  simp only [Number.toFloat_int_eq_error_iff]
  constructor
  · rintro ⟨n, hn, rfl, hlarge⟩
    exact ⟨rfl, n, hn, hlarge⟩
  · rintro ⟨rfl, n, hn, hlarge⟩
    exact ⟨n, hn, rfl, hlarge⟩

example (x : Executor) : x.LimitTooLarge [(.text "timeout", .int (10 ^ 200 * 10 ^ 109))] :=
  ⟨10 ^ 200 * 10 ^ 109, rfl, by decide +kernel⟩

/-- An action runs out of its time: there are no seconds left of it, or it is cut off while it
    waits. -/
def OutOfTime (x : Executor) (a : Action) (c : Context) (s : Surroundings) (seconds : Float) : Prop :=
  seconds ≤ 0.0 ∨ ∃ handler t, x.Accepts a handler s s ∧
    handler.run a.parameters c (s.now + seconds) (started s seconds) = .error .cut t

/-- The errors that an action is documented to end in. -/
inductive Documented (x : Executor) (a : Action) (c : Context) (s : Surroundings) : EngineError → Prop
  | unknown (more : Details) : x.handlers.get? a.type = none →
      Documented x a c s (.unknownActionType a.type more)
  | missing (name : String) : (x.handlers.get? a.type).isSome →
      (Data.entry? a.parameters name).isNone → Documented x a c s (.missingParameter name a.type)
  | late (milliseconds : Float) (more : Details) : x.timeLimit a.parameters = .ok milliseconds →
      x.OutOfTime a c s (milliseconds / 1000.0) → Documented x a c s (.timedOut milliseconds more)
  | failed (message : String) (details : Details) : Documented x a c s (.handler message details)

theorem settled_eq_ok_iff {r : Except Act.Stop Value} {v : Value} :
    settled a milliseconds r = .ok v ↔ r = .ok v := by
  obtain ((f | e) | _) | w := r <;> simp [settled]

theorem settled_ne_fault (r : Except Act.Stop Value) :
    settled a milliseconds r ≠ .error (.fault f) := by
  obtain ((f | e) | _) | w := r <;> simp [settled]

/-- What is told of a handler that stopped is an error of handlers, or the end of its time, or from
    outside. -/
theorem settled_documented {outside : EngineError → Prop} {stop : Act.Stop} {e : EngineError}
    (hstop : stop.Raised outside) (htime : x.timeLimit a.parameters = .ok milliseconds)
    (hcut : stop = .cut → x.OutOfTime a c s (milliseconds / 1000.0))
    (he : settled a milliseconds (.error stop) = .error (.engine e)) :
    x.Documented a c s e ∨ outside e := by
  cases hstop with
  | fault f =>
    cases he
    exact .inl (.failed _ _)
  | refused message details =>
    cases he
    exact .inl (.failed _ _)
  | passed hout =>
    cases he
    exact .inr hout
  | cut =>
    cases he
    exact .inl (.late _ _ htime (hcut rfl))

/-- A check that only looks accepts on the surroundings as they are. -/
theorem Accepts.eq_of_looks {handler : Handler} {s₁ : Surroundings} (ha : x.Accepts a handler s s₁)
    (hlooks : handler.Looks) : s₁ = s := by
  have hkept := hlooks a.parameters s
  rw [ha.2] at hkept
  exact hkept

/-- An action that is run by a handler in its time, and comes to a result there. -/
theorem execute_eq_ok_iff (hlooks : ∀ handler, x.handlers.get? a.type = some handler → handler.Looks)
    {v : Value} {s' : Surroundings} : x.execute a c s = (.ok v, s') ↔
      ∃ handler milliseconds t, x.Accepts a handler s s ∧
        x.timeLimit a.parameters = .ok milliseconds ∧ ¬milliseconds / 1000.0 ≤ 0.0 ∧
        handler.run a.parameters c (s.now + milliseconds / 1000.0)
          (started s (milliseconds / 1000.0)) = .ok v t ∧ s' = ended s t := by
  constructor
  · intro h
    have hend := execute_ending x a c s
    rw [h] at hend
    generalize hr : (Except.ok v, s') = r at hend
    cases hend with
    | unknown | refused | untimed => cases hr
    | @run handler milliseconds r s₁ t ha htime hended =>
      obtain ⟨hv, rfl⟩ := Prod.mk.inj hr
      obtain rfl := ha.eq_of_looks (hlooks handler ha.1)
      obtain rfl : r = .ok v := settled_eq_ok_iff.1 hv.symm
      obtain ⟨-, hnone⟩ | ⟨hsome, hact⟩ :=
        inTime_cases (milliseconds / 1000.0) (handler.run a.parameters c) s₁
      · cases hnone.symm.trans hended
      · obtain ⟨e, t, -, h⟩ | ⟨w, t, hact, h⟩ := hact
        · cases h.symm.trans hended
        · cases h.symm.trans hended
          exact ⟨handler, milliseconds, t, ha, htime, hsome, hact, rfl⟩
  · rintro ⟨handler, milliseconds, t, ha, htime, hsome, hrun, rfl⟩
    rw [execute_of_timed ha htime, inTime_of_some hsome, outcome_eq_ok_iff.2 hrun]
    rfl

section

variable {config : Config} {stamps : Stamps} {database : Option Handler.Database}
  (hx : x.handlers = Handler.standard config stamps database)

include hx

theorem looks_of_standard {handler : Handler} (h : x.handlers.get? a.type = some handler) :
    handler.Looks :=
  Handler.standard_looks (hx ▸ h)

/-- An error of the engine that an action ends in is a documented one, or one that a database
    raises. -/
theorem execute_documented {e : EngineError} {s' : Surroundings}
    (h : x.execute a c s = (.error (.engine e), s')) :
    x.Documented a c s e ∨ Handler.PassedOn database a.type e := by
  have hend := execute_ending x a c s
  generalize x.execute a c s = r at h hend
  cases hend with
  | unknown more hnone =>
    cases h
    exact .inl (.unknown more hnone)
  | refused hsome he =>
    obtain ⟨name, hname, rfl⟩ := Handler.standard_check_error (hx ▸ hsome) he
    cases h
    exact .inl (.missing name (Option.isSome_iff_exists.2 ⟨_, hsome⟩) hname)
  | untimed => cases h
  | @run handler milliseconds r s₁ t ha htime hended =>
    obtain rfl := ha.eq_of_looks (looks_of_standard hx ha.1)
    have he := (Prod.mk.inj h).1
    obtain ⟨hnone, hcut⟩ | ⟨-, hact⟩ :=
      inTime_cases (milliseconds / 1000.0) (handler.run a.parameters c) s₁
    · cases hcut.symm.trans hended
      exact settled_documented .cut htime (fun _ => .inl hnone) he
    · obtain ⟨stop, t, hact, hstopped⟩ | ⟨w, t, -, hdone⟩ := hact
      · cases hstopped.symm.trans hended
        have hfails := (Handler.standard_fails (hx ▸ ha.1)).2 a.parameters c
          (s₁.now + milliseconds / 1000.0) (started s₁ (milliseconds / 1000.0))
        rw [Ends, hact] at hfails
        exact settled_documented hfails htime (fun hstop => .inr ⟨handler, t, ha, hstop ▸ hact⟩) he
      · cases hdone.symm.trans hended
        cases he

/-- The one fault that is raised as it is is that of a time that is too large. -/
theorem execute_eq_fault_iff {s' : Surroundings} :
    x.execute a c s = (.error (.fault f), s') ↔ f = .integerTooLargeForFloat ∧
      (∃ handler, x.Accepts a handler s s) ∧ x.LimitTooLarge a.parameters ∧ s' = s := by
  constructor
  · intro h
    have hend := execute_ending x a c s
    generalize x.execute a c s = r at h hend
    cases hend with
    | unknown => cases h
    | refused hsome he =>
      obtain ⟨name, -, rfl⟩ := Handler.standard_check_error (hx ▸ hsome) he
      cases h
    | untimed ha htime =>
      obtain rfl := ha.eq_of_looks (looks_of_standard hx ha.1)
      cases h
      obtain ⟨rfl, hlarge⟩ := timeLimit_eq_error_iff.1 htime
      exact ⟨rfl, ⟨_, ha⟩, hlarge, rfl⟩
    | run => exact absurd (Prod.mk.inj h).1 (settled_ne_fault _)
  · rintro ⟨rfl, ⟨handler, ha⟩, hlarge, rfl⟩
    exact execute_of_untimed ha (timeLimit_eq_error_iff.2 ⟨rfl, hlarge⟩)

end

/-- **An action ends in the result of its handler or in a documented error**, whatever its
    parameters and its surroundings are, with two exceptions.  An error that a database raises is
    passed on.  And where the time is too large for a double, this fault is raised as it is, before
    the handler is run; no other fault ever is. An action that has no time is not even started. -/
theorem execute_outcomes (config : Config) (stamps : Stamps) (database : Option Handler.Database)
    (a : Action) (c : Context) (s : Surroundings) :
    let x : Executor := { config, handlers := Handler.standard config stamps database }
    (∀ v s', x.execute a c s = (.ok v, s') ↔ ∃ handler milliseconds t, x.Accepts a handler s s ∧
      x.timeLimit a.parameters = .ok milliseconds ∧ ¬milliseconds / 1000.0 ≤ 0.0 ∧
      handler.run a.parameters c (s.now + milliseconds / 1000.0)
        (started s (milliseconds / 1000.0)) = .ok v t ∧ s' = ended s t) ∧
    (∀ e s', x.execute a c s = (.error (.engine e), s') →
      x.Documented a c s e ∨ Handler.PassedOn database a.type e) ∧
    (∀ f s', x.execute a c s = (.error (.fault f), s') ↔ f = .integerTooLargeForFloat ∧
      (∃ handler, x.Accepts a handler s s) ∧ x.LimitTooLarge a.parameters ∧ s' = s) ∧
    ∀ handler milliseconds, x.Accepts a handler s s → x.timeLimit a.parameters = .ok milliseconds →
      milliseconds / 1000.0 ≤ 0.0 → ∃ more,
        x.execute a c s = (.error (.engine (.timedOut milliseconds more)), s) := by
  intro x
  have hx : x.handlers = Handler.standard config stamps database := rfl
  refine ⟨fun v s' => execute_eq_ok_iff fun handler h => looks_of_standard hx h,
    fun e s' h => execute_documented hx h, fun f s' => execute_eq_fault_iff hx,
    fun handler milliseconds ha htime hnone => ?_⟩
  rw [execute_of_timed ha htime, inTime_of_none hnone]
  exact ⟨_, rfl⟩

end Executor

end Rulebook
