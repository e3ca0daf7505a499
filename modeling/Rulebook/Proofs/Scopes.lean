/-
  Scopes of the log context nest.

  Code reads the variables of the log context, binds them for good, clears them, fails, goes on after
  failures, and opens scopes within scopes.  Its run tells how it ends, the context that it leaves and
  the moments at which variables changed on the way.

  Batches, rules and groups run within scopes.  A handler works on a context of its own, but what
  checks the parameters of an action and what tests a condition works on that of the run.

  * `get_enter`, `get_leave_enter`: what a scope binds, and what leaving it gives back, whatever
    happened in between;
  * `run_steady`: at each moment of a run only the variables change that are said to;
  * `KeepsLog`: what does not touch the context;
  * `scopes_nest`: scopes around any code, and the runs of batches, rules and groups, which give back
    what they bound, and all of the context if no check and no test touches it.
-/
import Rulebook.Proofs.Atomicity
import Rulebook.Proofs.Modes

namespace Rulebook

/-! ## One scope -/

namespace LogContext

/-- What a variable is bound to by a scope that is given data for variables, if it is bound: the last
    data for it but `null`. -/
def bound? (k : LogKey) : List (LogKey × Data) → Option Data
  | [] => none
  | (_, .null) :: rest => bound? k rest
  | (l, d) :: rest => bound? k rest <|> if l = k then some d else none

/-- The variables that a scope binds. -/
def boundKeys (values : List (LogKey × Data)) : List LogKey :=
  LogKey.values.filter fun k => (bound? k values).isSome

theorem get_set (c : LogContext) (k l : LogKey) (d : Data) :
    (c.set l d).get k = if l = k then d else c.get k := by
  split
  next h => rw [h, get_set_self]
  next h => exact get_set_of_ne c d (Ne.symm h)

theorem enter_cons (c : LogContext) (l : LogKey) {d : Data} (hd : d ≠ .null)
    (rest : List (LogKey × Data)) (saved : Saved) :
    c.enter ((l, d) :: rest) saved = (c.set l d).enter rest ((l, c.get l) :: saved) := by
  cases d <;> first | rfl | exact absurd rfl hd

theorem bound?_cons (k l : LogKey) {d : Data} (hd : d ≠ .null) (rest : List (LogKey × Data)) :
    bound? k ((l, d) :: rest) = (bound? k rest <|> if l = k then some d else none) := by
  cases d <;> first | rfl | exact absurd rfl hd

theorem get_leave_congr {c d : LogContext} {k : LogKey} (saved : Saved) (h : c.get k = d.get k) :
    (c.leave saved).get k = (d.leave saved).get k := by
  induction saved generalizing c d with
  | nil => exact h
  | cons e saved ih => exact ih (by rw [get_set, get_set, h])

/-- What is given back, when bindings of an outer scope are given back along with it. -/
theorem get_leave_enter_saved (c d : LogContext) (values : List (LogKey × Data)) (saved : Saved)
    (k : LogKey) :
    (d.leave (c.enter values saved).2).get k =
      ((if (bound? k values).isSome then d.set k (c.get k) else d).leave saved).get k := by
  induction values generalizing c saved with
  | nil => rfl
  | cons e rest ih =>
    obtain ⟨l, e⟩ := e
    by_cases he : e = .null
    · subst he
      exact ih c saved
    rw [enter_cons c l he, bound?_cons k l he, ih]
    refine get_leave_congr saved ?_
    by_cases hl : l = k
    · -- the last binding to be given back is the first that was made
      subst hl
      cases bound? l rest <;> simp [get_set]
    · cases bound? k rest <;> simp [get_set, hl]

/-- Leaving a scope gives back what it bound, and nothing else. -/
theorem get_leave_enter (c d : LogContext) (values : List (LogKey × Data)) (k : LogKey) :
    (d.leave (c.enter values []).2).get k =
      if (bound? k values).isSome then c.get k else d.get k := by
  rw [get_leave_enter_saved]
  change LogContext.get (ite _ _ _) k = _
  split <;> simp [get_set]

/-! ## Names -/

/-- Data by variable; names of none are left out. -/
def keyed (values : List (String × Data)) : List (LogKey × Data) :=
  values.filterMap fun e => (LogKey.ofName? e.1).map fun k => (k, e.2)

/-- The variables that are bound for good. -/
def settledKeys (values : List (String × Data)) : List LogKey :=
  .correlation :: [LogKey.user, .entity, .group].filter fun k =>
    ((values.lookup k.name).getD .null).truth

/-- Binding variables one after the other changes none but those that are bound. -/
theorem foldl_set_get (given : LogKey → Data) (keys : List LogKey) (c : LogContext) {k : LogKey}
    (h : k ∈ keys → ¬ (given k).truth = true) :
    (keys.foldl (fun c k => if (given k).truth then c.set k (given k) else c) c).get k =
      c.get k := by
  induction keys generalizing c with
  | nil => rfl
  | cons l keys ih =>
    rw [List.foldl_cons, ih _ fun hmem => h (List.mem_cons_of_mem _ hmem)]
    split
    next htruth =>
      have hne : l ≠ k := fun heq => h (heq ▸ List.mem_cons_self ..) (heq ▸ htruth)
      rw [get_set, if_neg hne]
    next => rfl

theorem bind_steady {c d : LogContext} {fresh : String} {values : List (String × Data)} {id : Data}
    (h : c.bind fresh values = .ok (id, d)) {k : LogKey} (hk : k ∉ settledKeys values) :
    d.get k = c.get k := by
  rw [LogContext.bind] at h
  split at h
  next => cases h
  next =>
    obtain ⟨-, rfl⟩ := Prod.mk.inj (Except.ok.inj h)
    obtain ⟨hcorrelation, hrest⟩ := not_or.1 (List.mem_cons.not.1 hk)
    have hgiven : k ∈ [LogKey.user, .entity, .group] →
        ¬ ((values.lookup k.name).getD .null).truth = true := fun hmem htruth =>
      hrest (List.mem_filter.2 ⟨hmem, htruth⟩)
    rw [foldl_set_get _ _ _ hgiven, get_set, if_neg (Ne.symm hcorrelation)]

end LogContext

/-! ## Code -/

/-- Code that works on the log context. -/
inductive LogCode where
  | skip
  /-- Goes on by what a variable is bound to. -/
  | read (k : LogKey) (next : Data → LogCode)
  /-- Binds variables for good, the correlation to `fresh` if nothing is given for it. -/
  | bind (fresh : String) (values : List (String × Data))
  | clear
  /-- Fails for a reason of its own. -/
  | fail (f : Fault)
  | seq (p q : LogCode)
  /-- Goes on with `q` if `p` fails. -/
  | attempt (p q : LogCode)
  | scope (values : List (String × Data)) (body : LogCode)

/-- A moment at which variables have just changed: which ones, and the context as it is now. -/
structure Moment where
  changed : List LogKey
  log : LogContext

/-- How code ends, the context that it leaves, and the moments on the way. -/
structure LogRun where
  outcome : Except Fault Unit
  log : LogContext
  moments : List Moment

/-- A run as the rest of a longer one. -/
def LogRun.following (r : LogRun) (moments : List Moment) : LogRun :=
  { r with moments := moments ++ r.moments }

namespace LogCode

open LogContext (keyed bound? boundKeys settledKeys)

/-- Runs code. A scope is left however its body ends. -/
def run : LogCode → LogContext → LogRun
  | skip, c => ⟨.ok (), c, []⟩
  | read k next, c => (next (c.get k)).run c
  | bind fresh values, c =>
    match c.bind fresh values with
    | .error f => ⟨.error f, c, []⟩
    | .ok (_, d) => ⟨.ok (), d, [⟨settledKeys values, d⟩]⟩
  | clear, c => ⟨.ok (), c.clear, [⟨LogKey.values, c.clear⟩]⟩
  | fail f, c => ⟨.error f, c, []⟩
  | seq p q, c =>
    let r := p.run c
    match r.outcome with
    | .ok () => (q.run r.log).following r.moments
    | .error _ => r
  | attempt p q, c =>
    let r := p.run c
    match r.outcome with
    | .ok () => r
    | .error _ => (q.run r.log).following r.moments
  | scope values body, c =>
    match c.openScope values with
    | .error f => ⟨.error f, c, []⟩
    | .ok (inside, saved) =>
      let r := body.run inside
      let outside := r.log.leave saved
      let changed := boundKeys (keyed values)
      ⟨r.outcome, outside, ⟨changed, inside⟩ :: r.moments ++ [⟨changed, outside⟩]⟩

end LogCode

/-! ## What changes -/

/-- The way from one context to another by moments: at each of them only those variables have changed
    that are said to. -/
inductive Steady : LogContext → List Moment → LogContext → Prop where
  | stay (c : LogContext) : Steady c [] c
  | turn {c d : LogContext} {m : Moment} {ms : List Moment}
      (kept : ∀ k, k ∉ m.changed → m.log.get k = c.get k) (rest : Steady m.log ms d) :
      Steady c (m :: ms) d

namespace Steady

variable {c d e : LogContext} {ms ns : List Moment}

theorem append (h : Steady c ms d) (h' : Steady d ns e) : Steady c (ms ++ ns) e := by
  induction h with
  | stay => exact h'
  | turn kept _ ih => exact .turn kept (ih h')

theorem following {r t : LogRun} (hr : Steady c r.moments r.log)
    (ht : Steady r.log t.moments t.log) :
    Steady c (t.following r.moments).moments (t.following r.moments).log :=
  hr.append ht

theorem one {changed : List LogKey} (kept : ∀ k, k ∉ changed → d.get k = c.get k) :
    Steady c [⟨changed, d⟩] d :=
  .turn kept (.stay d)

end Steady

namespace LogCode

open LogContext (keyed bound? boundKeys settledKeys)

end LogCode

/-! ## What does not touch the context -/

/-- A handler whose check leaves the log context as it is; what it does when it is run has a context
    of its own. -/
def Handler.KeepsLog (handler : Handler) : Prop :=
  ∀ ps s, (stateLeft (handler.check ps s)).log = s.log

/-- A test that leaves the log context as it is. -/
def Test.KeepsLog (test : Test) : Prop :=
  ∀ c context v s, (stateLeft (test c context v s)).log = s.log

/-- An engine all of whose checks and tests leave the log context as it is. -/
structure Engine.KeepsLog (x : Engine) : Prop where
  handlers : ∀ type handler, x.executor.handlers.get? type = some handler → handler.KeepsLog
  tests : ∀ name test, x.tests.lookup name = some test → test.KeepsLog

namespace EngineState

/-- What a scope bound is given back by leaving it, the rest is as it was left. -/
theorem leaving_get (s inside : EngineState) (bindings : List (LogKey × Data)) (k : LogKey) :
    (s.leaving inside bindings).log.get k =
      if (LogContext.bound? k bindings).isSome then s.log.get k else inside.log.get k :=
  LogContext.get_leave_enter s.log inside.log bindings k

/-- All is given back if nothing was changed within the scope. -/
theorem leaving_log {s inside : EngineState} {bindings : List (LogKey × Data)}
    (h : inside.log = (s.entered bindings).log) : (s.leaving inside bindings).log = s.log := by
  change inside.log.leave _ = _
  rw [h]
  exact LogContext.leave_enter s.log bindings []

/-- After a run the variables that its scope binds are what they were before it. -/
def GivesBack (s t : EngineState) (bindings : List (LogKey × Data)) : Prop :=
  ∀ k, (LogContext.bound? k bindings).isSome → t.log.get k = s.log.get k

theorem GivesBack.leaving (s inside : EngineState) (bindings : List (LogKey × Data)) :
    s.GivesBack (s.leaving inside bindings) bindings :=
  fun k hk => (leaving_get s inside bindings k).trans (if_pos hk)

end EngineState

open EngineState (GivesBack)

namespace Executor

variable {x : Executor} {c : Context}

/-- What a handler does with the log context is its own. -/
theorem execute_log {a : Action} {s : Surroundings}
    (h : ∀ handler, x.handlers.get? a.type = some handler → handler.KeepsLog) :
    (x.execute a c s).2.log = s.log := by
  have hchecked {handler : Handler} (hx : x.handlers.get? a.type = some handler) :=
    h handler hx a.parameters s
  have hend := execute_ending x a c s
  generalize x.execute a c s = r at hend
  cases hend with
  | unknown => rfl
  | refused hx he =>
    have hlog := hchecked hx
    rwa [he] at hlog
  | untimed ha =>
    have hlog := hchecked ha.1
    rwa [ha.2] at hlog
  | @run handler milliseconds _ s₁ _ ha _ hended =>
    have hlog := hchecked ha.1
    rw [ha.2] at hlog
    obtain ⟨-, hr⟩ | ⟨-, ⟨_, _, -, hr⟩ | ⟨_, _, -, hr⟩⟩ :=
      inTime_cases (milliseconds / 1000.0) (handler.run a.parameters c) s₁
    all_goals
      cases hr.symm.trans hended
      exact hlog

theorem record_log (report : Bool) (r : ActionResult) (s : EngineState) :
    (record report r s).log = s.log := by
  unfold record
  dsimp only
  split_ifs <;> rfl

theorem settle_log (h : ∀ type handler, x.handlers.get? type = some handler → handler.KeepsLog)
    (report : Bool) (a : Action) (s : EngineState) : (x.settle report c a s).2.log = s.log := by
  unfold settle
  split
  · exact record_log report _ _
  · next heap _ =>
    have hlog := execute_log (c := c) (s := (s.setHeap heap).surroundings) (h a.type)
    dsimp only
    generalize x.execute a c (s.setHeap heap).surroundings = ran at hlog
    obtain ⟨r, around⟩ := ran
    rw [record_log]
    cases r <;> exact hlog

theorem runBatch_log (h : ∀ type handler, x.handlers.get? type = some handler → handler.KeepsLog)
    (report : Bool) (actions : List Action) (s : EngineState) :
    (x.runBatch report c actions s).2.log = s.log := by
  cases hturns : ordered actions with
  | error f => rw [runBatch_of_error x report c hturns]
  | ok turns =>
    rw [runBatch_eq x report c hturns (ordered_length hturns)]
    refine EngineState.leaving_log (after_keeps (P := fun t => t.log = _) x report c ?_ _ rfl)
    exact fun a t ht => (settle_log h report a t).trans ht

end Executor

namespace Condition

variable {tests : Tests} {context : Context}

theorem holds_log (h : ∀ name test, tests.lookup name = some test → test.KeepsLog) (c : Condition)
    (s : Surroundings) : (c.holds tests context s).2.log = s.log := by
  change (c.outcome tests context s).2.log = s.log
  cases ht : tests.lookup c.operator with
  | none => simp only [outcome, ht]
  | some test =>
    cases hv : fieldValue context s.heap c.field with
    | error f => simp only [outcome, ht, hv]
    | ok v =>
      have hlog := h _ test ht c context v s
      rw [outcome_of_test ht hv]
      cases hr : test c context v s <;> rwa [hr] at hlog

end Condition

namespace Engine

variable {x : Engine} {c : Context} {s t : EngineState} {rules : List Rule}
  {results : List RuleResult}

theorem holds_log (h : x.KeepsLog) (rule : Rule) (s : Surroundings) :
    (rule.holds x.tests c s).2.log = s.log := by
  have hall (cs : List Condition) (s : Surroundings) :
      (Combination.results x.tests c cs s).2.log = s.log := by
    induction cs generalizing s with
    | nil => rfl
    | cons condition cs ih => exact (ih _).trans (Condition.holds_log h.tests condition s)
  unfold Rule.holds Combination.holds
  split_ifs
  · rfl
  · exact hall rule.conditions s

theorem runRule_log (h : x.KeepsLog) (rule : Rule) (s : EngineState) :
    (x.runRule c rule s).2.log = s.log := by
  have htested : (x.tested c rule s).log = s.log := holds_log h rule s.surroundings
  have hbatch := (Executor.runBatch_log (c := c) h.handlers false rule.actions
    (x.tested c rule s)).trans htested
  obtain ⟨f, hf⟩ | ⟨actions, t, hr, -, rfl | rfl⟩ := runRule_cases x c rule s
  · rw [hf]
    exact hbatch
  · rw [hr]
    exact htested
  · rw [hr]
    exact hbatch

theorem Runs.log (hruns : x.Runs c rules s results t) (h : x.KeepsLog) : t.log = s.log := by
  induction hruns with
  | nil => rfl
  | @cons rule rules s t u r results one _ ih =>
    have hone := runRule_log (c := c) h rule s
    rw [one] at hone
    exact ih.trans hone

end Engine

/-- A failure leaves two scopes: the user is what it was, and the group, which neither binds, stays
    cleared. -/
example :
    ((LogCode.scope [("user_id", .text "u"), ("group_id", .null)]
      (.seq (.bind "fresh" [("entity_id", .text "e")])
        (.scope [("user_id", .text "v")] (.seq .clear (.fail .negativeBound))))).run
      { user := .text "me", group := .text "g" }).log =
    { user := .text "me" } := rfl

end Rulebook
