/-
  What a service has counted.

  A service runs groups, rules and actions, and in between handlers and tests are set and rules and
  groups change.  Beside it, the results in its answers are kept.  After any calls, the metrics that
  are collected and the statistics of the engine say the same, in total, by outcome and for every
  type of action.  If there is time for guards, they say it of the results in the answers; if not, a
  run may end in a fault after it has counted some.

  * `ServiceHistory.kept_step`: what one call preserves;
  * `ServiceHistory.run_agrees`: metrics, statistics and answers agree after any calls.
-/
import Rulebook.Proofs.Counts.Runs
import Rulebook.Service

namespace Rulebook

/-! ## Calls -/

/-- A call of a service that may change what it has counted, or what its runs come to. -/
inductive ServiceCall where
  | runGroup (id : String) (c : Context)
  | runRules (rules : List Rule) (mode : Data) (c : Context)
  | runActions (actions : List Action) (report : Bool) (c : Context)
  | runAction (a : Action) (c : Context)
  | register (type : String) (handler : Handler)
  | registerTest (name : String) (test : Test)
  | saveRule (r : Rule)
  | deleteRule (id : String)
  | createGroup (id : String) (draft : Submission GroupDraft)
  | editGroup (id : String) (e : GroupEdit)
  | deleteGroup (id : String)
  | storeGroup (g : Group) (expected : Option Int)
  /-- Time passes, and others change what runs work on. -/
  | pass (surroundings : Surroundings) (clock : Instant)

/-- The orders and priorities of what a call hands over are whole numbers. -/
def ServiceCall.Ranked : ServiceCall → Prop
  | .runRules rules _ _ => ∀ rule ∈ rules, rule.enabled = true → rule.Ranked
  | .runActions actions _ _ => ∀ a ∈ actions, a.Ranked
  | .saveRule r => r.enabled = true → r.Ranked
  | _ => True

/-- A service and the results in its answers, those of the last call first. -/
structure ServiceHistory where
  service : Service
  rules : List RuleResult := []
  actions : List ActionResult := []

namespace ServiceHistory

/-- Keeps the results of rules that were run. -/
def keep (h : ServiceHistory) : Service.Answer GroupResult → ServiceHistory
  | (.ok r, s) => { service := s, rules := r.rules ++ h.rules, actions := r.actions ++ h.actions }
  | (.error _, s) => { h with service := s }

/-- Makes a call and keeps the results in its answer. -/
def step (h : ServiceHistory) : ServiceCall → ServiceHistory
  | .runGroup id c => h.keep (h.service.runGroup id c)
  | .runRules rules mode c => h.keep (h.service.runRules rules mode c)
  | .runActions actions report c =>
    match h.service.runActions actions report c with
    | (.ok results, s) => { h with service := s, actions := results ++ h.actions }
    | (.error _, s) => { h with service := s }
  | .runAction a c => { h with service := (h.service.runAction a c).2 }
  | .register type handler => { h with service := h.service.register type handler }
  | .registerTest name test => { h with service := h.service.registerTest name test }
  | .saveRule r => { h with service := h.service.saveRule r }
  | .deleteRule id => { h with service := (h.service.deleteRule id).2 }
  | .createGroup id draft => { h with service := (h.service.createGroup id draft).2 }
  | .editGroup id e => { h with service := (h.service.editGroup id e).2 }
  | .deleteGroup id => { h with service := (h.service.deleteGroup id).2 }
  | .storeGroup g expected => { h with service := (h.service.storeGroup g expected).2 }
  | .pass surroundings clock =>
    { h with service :=
        { h.service with state := { h.service.state with surroundings, clock } } }

/-- Makes calls one after the other. -/
def run (h : ServiceHistory) (calls : List ServiceCall) : ServiceHistory :=
  calls.foldl step h

/-! ## What calls preserve -/

/-- Results are counted, those in the answers if there is time for guards, and stored rules have whole
    numbers as priorities. -/
structure Kept (h : ServiceHistory) : Prop where
  counts : ∃ rs as, h.service.state.Counts rs as ∧
    (h.service.engine.executor.TimesGuards → rs = h.rules ∧ as = h.actions)
  ranked : ∀ id rule, h.service.rules.get? id = some rule → rule.enabled = true → rule.Ranked

variable {h : ServiceHistory}

theorem eq_of_empty {limit : Int} {t : Statistics Float} (h : Statistics.empty limit = .ok t) :
    t = { errorLimit := limit.toNat, total := Record.fresh } := by
  unfold Statistics.empty at h
  split_ifs at h
  exact (Except.ok.inj h).symm

/-- What a service is that nothing was asked of. -/
theorem eq_of_fresh_service {config : Config} {handlers : Keyed String Handler}
    {around : Surroundings} {clock : Instant} {s : Service}
    (hs : Service.fresh config handlers around clock = .ok s) :
    s = { engine := { executor := { config, handlers }, tests := standardTests }
          state :=
            { surroundings := around, clock
              statistics := { errorLimit := config.errorLimit.toNat, total := Record.fresh }
              metrics := if config.metrics then some (Metrics.fresh Service.name) else none } } := by
  unfold Service.fresh at hs
  cases ht : (Statistics.empty config.errorLimit : Except Fault (Statistics Float)) with
  | error f =>
    rw [ht] at hs
    cases hs
  | ok t =>
    rw [ht, eq_of_empty ht] at hs
    exact (Except.ok.inj hs).symm

theorem kept_of_fresh {config : Config} {handlers : Keyed String Handler} {around : Surroundings}
    {clock : Instant} {s : Service} (hs : Service.fresh config handlers around clock = .ok s)
    (hmetrics : config.metrics = true) : Kept { service := s } := by
  rw [eq_of_fresh_service hs, hmetrics]
  exact ⟨⟨[], [], ⟨_, rfl, .fresh .., .fresh .., rfl⟩, fun _ => ⟨rfl, rfl⟩⟩,
    fun id rule hrule => nomatch hrule⟩

/-- A run of rules whose results are counted. -/
theorem Kept.keep (hk : Kept h) {run : Except Failure GroupResult × EngineState}
    (hrun : ∀ rs as, h.service.state.Counts rs as → h.service.engine.Adds rs as run) :
    Kept (h.keep (h.service.after run)) := by
  obtain ⟨rs, as, hcounts, hsame⟩ := hk.counts
  obtain ⟨rules, actions, hadded, hanswer⟩ := hrun rs as hcounts
  obtain ⟨_ | r, t⟩ := run
  · obtain ⟨r, hr, -⟩ | ⟨-, hnone⟩ := hanswer
    · cases hr
    · refine ⟨⟨_, _, hadded, fun htimes => ?_⟩, hk.ranked⟩
      obtain ⟨rfl, rfl⟩ := hnone htimes
      exact hsame htimes
  · obtain ⟨r', hr, hrules, hactions⟩ | ⟨⟨e, he⟩, -⟩ := hanswer
    · cases hr
      refine ⟨⟨_, _, hadded, fun htimes => ?_⟩, hk.ranked⟩
      obtain ⟨rfl, rfl⟩ := hsame htimes
      exact ⟨by rw [← hrules]; rfl, by rw [← hactions]; rfl⟩
    · cases he

/-- An operation on groups does not touch what is counted. -/
theorem Kept.withGroups {α : Type} (hk : Kept h) (operation : GroupStore.Operation α) :
    Kept { h with service := (h.service.withGroups operation).2 } := by
  obtain ⟨groups, hs⟩ := h.service.withGroups_snd operation
  rw [hs]
  exact ⟨hk.counts, hk.ranked⟩

theorem Kept.published {α : Type} {a : Service.Answer α} (hk : Kept { h with service := a.2 }) :
    Kept { h with service := (Service.published a).2 } := by
  rcases Service.published_snd a with hs | hs <;> rw [hs]
  · exact hk
  · obtain ⟨rs, as, hcounts, hsame⟩ := hk.counts
    exact ⟨⟨rs, as, hcounts.publish _, hsame⟩, hk.ranked⟩

theorem kept_step (hk : Kept h) {call : ServiceCall} (hranked : call.Ranked) :
    Kept (h.step call) := by
  cases call with
  | runGroup id c =>
    rw [step, Service.runGroup]
    cases h.service.groups.require id with
    | error e => exact hk
    | ok g => exact hk.keep fun _ _ => Engine.runGroup_counts _ c g hk.ranked
  | runRules rules mode c =>
    exact hk.keep fun _ _ => Engine.runRules_counts _ c mode none hranked
  | runActions actions report c =>
    obtain ⟨rs, as, hcounts, hsame⟩ := hk.counts
    obtain ⟨found, hadded, hrun⟩ :=
      Executor.runBatch_counts h.service.engine.executor report c hranked hcounts
    rw [step, Service.runActions]
    generalize h.service.engine.executor.runBatch report c actions h.service.state = run
      at hadded hrun ⊢
    obtain ⟨_, t⟩ := run
    obtain rfl | ⟨hnone, f, rfl⟩ := hrun
    · refine ⟨⟨_, _, hadded, fun htimes => ?_⟩, hk.ranked⟩
      obtain ⟨rfl, rfl⟩ := hsame htimes
      exact ⟨rfl, rfl⟩
    · exact ⟨⟨_, _, hadded, fun htimes => absurd htimes hnone⟩, hk.ranked⟩
  | runAction a c =>
    rw [step, Service.runAction]
    exact ⟨hk.counts, hk.ranked⟩
  | register type handler => exact ⟨hk.counts, hk.ranked⟩
  | registerTest name test => exact ⟨hk.counts, hk.ranked⟩
  | saveRule r =>
    refine ⟨hk.counts, fun id rule hrule => ?_⟩
    obtain ⟨-, rfl⟩ | ⟨-, hrule⟩ := Keyed.get?_put_eq_some_iff.1 hrule
    · exact hranked
    · exact hk.ranked id rule hrule
  | deleteRule id =>
    refine ⟨hk.counts, fun id' rule hrule => ?_⟩
    exact hk.ranked id' rule (Keyed.get?_erase_eq_some_iff.1 hrule).2
  | createGroup id draft => exact (hk.withGroups _).published
  | editGroup id e => exact hk.withGroups _
  | deleteGroup id => exact (hk.withGroups _).published
  | storeGroup g expected => exact hk.withGroups _
  | pass surroundings clock => exact ⟨hk.counts, hk.ranked⟩

theorem kept_run (hk : Kept h) {calls : List ServiceCall} (hranked : ∀ call ∈ calls, call.Ranked) :
    Kept (h.run calls) := by
  induction calls generalizing h with
  | nil => exact hk
  | cons call calls ih =>
    obtain ⟨hcall, hcalls⟩ := List.forall_mem_cons.1 hranked
    exact ih (kept_step hk hcall) hcalls

/-! ## Metrics, statistics and answers -/

/-- What the metrics `m` that are collected of a service and the statistics of its engine have in
    common. -/
structure Agrees (h : ServiceHistory) (m : Metrics Float) : Prop where
  metrics : h.service.state.metrics = some m
  /-- The summary tells as many executions of rules as the counters, if there is a summary. -/
  summary : h.service.summary.map (·.total.executions) =
    (Statistics.secondsBefore h.service.state.clock h.service.config.activeWindow).map
      fun _ => m.rules.total
  executions : m.rules.total = h.service.state.statistics.rules.sum (·.executions)
  matched : m.rules.count (true, true) + m.rules.count (true, false) =
    h.service.state.statistics.rules.sum (·.matchCount)
  failed : m.rules.count (true, false) + m.rules.count (false, false) =
    h.service.state.statistics.rules.sum (·.errors)
  /-- The actions of a type that were run, by how they ended. -/
  actions (type : String) : m.actions.count (type, ActionStatus.success.name) +
    m.actions.count (type, ActionStatus.failure.name) =
      (h.service.state.statistics.action type).executions
  actionsFailed (type : String) : m.actions.count (type, ActionStatus.failure.name) =
    (h.service.state.statistics.action type).errors
  times (type : String) :
    (m.timesOf type).count = (h.service.state.statistics.action type).executions
  errors : m.errors.total = h.service.state.statistics.actions.sum (·.errors)

/-- What the metrics `m` have in common with the results in the answers of a service. -/
structure Tells (h : ServiceHistory) (m : Metrics Float) : Prop where
  /-- Every result of a rule is counted, by its outcome. -/
  rules (matched success : Bool) : m.rules.count (matched, success) =
    h.rules.countP fun r => r.matched == matched && r.success == success
  rulesTotal : m.rules.total = h.rules.length
  /-- Every result of an action is counted, by its type and outcome. -/
  results (type : String) (status : ActionStatus) : m.actions.count (type, status.name) =
    h.actions.countP fun r => r.actionType == type && r.status == status
  errorsTotal : m.errors.total = h.actions.countP (·.status == .failure)

/-- A count is that of a part and that of the rest of it. -/
theorem countP_add_countP {α : Type} {p q r : α → Bool}
    (h : ∀ a, (r a).toNat = (p a).toNat + (q a).toNat) (as : List α) :
    as.countP p + as.countP q = as.countP r := by
  induction as with
  | nil => rfl
  | cons a as ih =>
    have ha := h a
    rw [List.countP_cons, List.countP_cons, List.countP_cons]
    cases hp : p a <;> cases hq : q a <;> cases hr : r a <;> simp_all <;> omega

theorem agrees_of_counted {rs : List RuleResult} {as : List ActionResult} {m : Metrics Float}
    (hm : h.service.state.metrics = some m) (hc : Counted m h.service.state.statistics rs as) :
    Agrees h m := by
  obtain ⟨hrules, hactions, herrors⟩ := hc
  refine ⟨hm, ?_, ?_, ?_, ?_, ?_, ?_, ?_, ?_⟩
  · rw [Service.summary, Statistics.summary, hrules.counters, ← hrules.total]
    cases Statistics.secondsBefore h.service.state.clock h.service.config.activeWindow <;> rfl
  · rw [hrules.counters, hrules.executions]
  · rw [hrules.counter, hrules.counter, hrules.matchCounts]
    refine countP_add_countP (fun r => ?_) _
    cases r.matched <;> cases r.success <;> rfl
  · rw [hrules.counter, hrules.counter, hrules.errors]
    refine countP_add_countP (fun r => ?_) _
    cases r.matched <;> cases r.success <;> rfl
  · intro type
    rw [hactions.counter, hactions.counter, hactions.executions]
    refine countP_add_countP (fun r => ?_) _
    cases r.actionType == type <;> cases r.status <;> rfl
  · intro type
    rw [hactions.counter, hactions.errors]
  · intro type
    rw [hactions.times, hactions.executions]
  · rw [herrors, hactions.failures]

theorem Kept.agrees (hk : Kept h) :
    ∃ m, Agrees h m ∧ (h.service.engine.executor.TimesGuards → Tells h m) := by
  obtain ⟨rs, as, ⟨m, hm, hc⟩, hsame⟩ := hk.counts
  refine ⟨m, agrees_of_counted hm hc, fun htimes => ?_⟩
  obtain ⟨rfl, rfl⟩ := hsame htimes
  exact ⟨hc.rules.counter, hc.rules.counters, hc.actions.counter, hc.errors⟩

theorem keep_service (h : ServiceHistory) (a : Service.Answer GroupResult) :
    (h.keep a).service = a.2 := by
  rcases a with ⟨_ | r, s⟩ <;> rfl

/-- The settings of a service are those that it was made with. -/
theorem step_config (h : ServiceHistory) (call : ServiceCall) :
    (h.step call).service.config = h.service.config := by
  have hgroups {α : Type} (operation : GroupStore.Operation α) :
      (h.service.withGroups operation).2.config = h.service.config := by
    obtain ⟨groups, hs⟩ := h.service.withGroups_snd operation
    rw [hs]
    rfl
  have hpublished {α : Type} (a : Service.Answer α) :
      (Service.published a).2.config = a.2.config := by
    rcases Service.published_snd a with hs | hs
    · rw [hs]
    · rw [hs]
      rfl
  cases call with
  | runGroup id c =>
    rw [step, keep_service, Service.runGroup]
    cases h.service.groups.require id <;> rfl
  | runRules rules mode c =>
    rw [step, keep_service]
    rfl
  | runActions actions report c =>
    rw [step, Service.runActions]
    rcases h.service.engine.executor.runBatch report c actions h.service.state with ⟨_ | r, t⟩ <;>
      rfl
  | createGroup id draft => exact (hpublished _).trans (hgroups _)
  | editGroup id e => exact hgroups _
  | deleteGroup id => exact (hpublished _).trans (hgroups _)
  | storeGroup g expected => exact hgroups _
  | runAction | register | registerTest | saveRule | deleteRule | pass => rfl

theorem run_config (h : ServiceHistory) (calls : List ServiceCall) :
    (h.run calls).service.config = h.service.config := by
  induction calls generalizing h with
  | nil => rfl
  | cons call calls ih => exact (ih (h.step call)).trans (step_config h call)

/-- **Metrics and statistics agree.** After any calls of a new service that collects metrics, with
    whole numbers as orders and priorities, metrics and statistics count the same executions, in
    total, by outcome and by type of action; and these are the results in the answers, if there is
    time for guards. -/
theorem run_agrees {config : Config} {handlers : Keyed String Handler} {around : Surroundings}
    {clock : Instant} {s : Service} (hs : Service.fresh config handlers around clock = .ok s)
    (hmetrics : config.metrics = true) {calls : List ServiceCall}
    (hranked : ∀ call ∈ calls, call.Ranked) :
    ∃ m, Agrees (run { service := s } calls) m ∧
      (({ config, handlers } : Executor).TimesGuards → Tells (run { service := s } calls) m) := by
  obtain ⟨m, hagrees, htells⟩ := (kept_run (kept_of_fresh hs hmetrics) hranked).agrees
  have hconfig : (run { service := s } calls).service.config = config := by
    rw [run_config, eq_of_fresh_service hs]
    rfl
  refine ⟨m, hagrees, fun ⟨seconds, htime⟩ => htells ⟨seconds, ?_⟩⟩
  rw [← htime, Executor.guardTime, Executor.guardTime, ← hconfig]
  rfl

/-- A rule with an action that no handler is there for, and the same action in a batch. -/
theorem run_agrees_failures :
    let around : Surroundings :=
      { breakers := { settings := { recovery := 30.0 } }, clock := fun _ => 0.0, replies := [] }
    let c : Context := ⟨.null, .null, .null, .null, .null, .null⟩
    let a : Action := { id := .text "a", type := "NONE", order := .int 1 }
    let rule : Rule := { id := "r", name := "R", actions := [a] }
    let s : Service :=
      { engine := { executor := { config := {}, handlers := {} }, tests := standardTests }
        state :=
          { surroundings := around, statistics := { errorLimit := 50, total := Record.fresh }
            metrics := some (Metrics.fresh Service.name), clock := ⟨0, 0⟩ } }
    let calls : List ServiceCall :=
      [.saveRule rule, .runRules [rule] (.text "ALL") c, .runActions [a] true c, .deleteRule "r"]
    Service.fresh {} {} around ⟨0, 0⟩ = .ok s ∧ (∀ call ∈ calls, call.Ranked) ∧
      ({ config := {}, handlers := {} } : Executor).TimesGuards ∧
      ∃ m, Agrees (run { service := s } calls) m ∧ Tells (run { service := s } calls) m ∧
        m.rules.total = 1 ∧ m.errors.total = 2 := by
  intro around c a rule s calls
  have hs : Service.fresh {} {} around ⟨0, 0⟩ = .ok s := by rfl
  have ha : a.Ranked := rfl
  have hrule : rule.Ranked := ⟨rfl, by simpa [rule] using ha⟩
  have hranked : ∀ call ∈ calls, call.Ranked := by
    simp only [calls, List.forall_mem_cons]
    exact ⟨fun _ => hrule, by simpa [ServiceCall.Ranked] using fun _ => hrule,
      by simpa [ServiceCall.Ranked] using ha, trivial, by simp⟩
  have htimes : ({ config := {}, handlers := {} } : Executor).TimesGuards :=
    Executor.timesGuards_iff.2 (by decide +kernel)
  obtain ⟨m, hagrees, htells⟩ := run_agrees hs rfl hranked
  have h := htells htimes
  refine ⟨hs, hranked, htimes, m, hagrees, h, ?_, ?_⟩
  · rw [h.rulesTotal]
    decide +kernel
  · rw [h.errorsTotal]
    decide +kernel

end ServiceHistory

end Rulebook
