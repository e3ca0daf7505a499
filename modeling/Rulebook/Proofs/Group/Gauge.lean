/-
  The gauge of groups.

  A service that collects metrics has a gauge of how many groups are kept.  Groups are made, edited
  and deleted, with success or not, and in between rules change and run.  An operation on groups
  stops before it has changed anything, or it changes the groups and the gauge together.

  * `GroupStore.edit_size`: edits neither make nor delete groups;
  * `Engine.Runs.gauge`: runs leave the gauge as it is;
  * `ServiceHistory.step_gauged`: what one call preserves;
  * `ServiceHistory.run_gauged`: the gauge after any calls, and operations that fail.
-/
import Rulebook.Proofs.Counts.Service
import Rulebook.Proofs.Group.History

namespace Rulebook

/-! ## The number of groups -/

theorem Keyed.size_put_of_mem {κ α : Type} [DecidableEq κ] (m : Keyed κ α) {k : κ} (a : α)
    (h : k ∈ m.keys) : (m.put k a).size = m.size := by
  have hkeys := congrArg List.length (m.keys_put_of_mem a h)
  rwa [keys, keys, List.length_map, List.length_map] at hkeys

/-- An edit saves a group that is there, or none. -/
theorem GroupStore.edit_size {rules : GroupRules} {store after : GroupStore} {id : String}
    {e : GroupEdit} {g : Group} (h : edit rules id e store = .ok g after) :
    after.size = store.size := by
  rw [edit_eq] at h
  cases hread : store.get? id with
  | none =>
    rw [hread] at h
    cases h
  | some read =>
    rw [hread] at h
    obtain ⟨-, -, rfl⟩ | ⟨-, -, -, hversion, -, rfl⟩ := finish_cases h
    · rfl
    · obtain ⟨kept, hkept, -⟩ := Option.map_eq_some_iff.1 hversion
      exact Keyed.size_put_of_mem store g
        ((Keyed.contains_iff store read.id).1 (Option.isSome_of_mem hkept))

/-! ## Runs -/

/-- The number of groups that the metrics tell, if metrics are collected. -/
def EngineState.gauge (s : EngineState) : Option Float :=
  s.metrics.map (·.groups)

namespace Executor

variable (x : Executor) (report : Bool) (c : Context)

theorem record_gauge (r : ActionResult) (s : EngineState) :
    (record report r s).gauge = s.gauge := by
  unfold record
  dsimp only
  split_ifs <;> cases hm : s.metrics <;> simp [EngineState.gauge, hm, Metrics.recordAction]

theorem countFailure_gauge (s : EngineState) (r : Except Failure Value) :
    (countFailure s r).gauge = s.gauge := by
  cases r with
  | ok v => rfl
  | error e =>
    cases hm : s.metrics <;> simp [countFailure, EngineState.gauge, hm, Metrics.recordError]

theorem settle_gauge (a : Action) (s : EngineState) :
    (x.settle report c a s).2.gauge = s.gauge := by
  unfold settle
  split
  · exact record_gauge report _ _
  · dsimp only
    rw [record_gauge, countFailure_gauge]
    rfl

theorem runBatch_gauge (actions : List Action) (s : EngineState) :
    (x.runBatch report c actions s).2.gauge = s.gauge :=
  runBatch_keeps (P := fun t => t.gauge = s.gauge) x report c (fun _ _ ht => ht)
    (fun a t ht => (settle_gauge x report c a t).trans ht) actions rfl

end Executor

namespace Engine

variable {x : Engine} {c : Context} {s t : EngineState} {rules : List Rule}
  {results : List RuleResult}

theorem record_gauge (rule : Rule) (r : RuleResult) (s : EngineState) :
    (record rule r s).gauge = s.gauge := by
  cases hm : s.metrics <;> simp [record, EngineState.gauge, hm, Metrics.recordRule]

theorem runRule_gauge (x : Engine) (c : Context) (rule : Rule) (s : EngineState) :
    (x.runRule c rule s).2.gauge = s.gauge := by
  have hbatch := Executor.runBatch_gauge x.executor false c rule.actions (x.tested c rule s)
  obtain ⟨f, hf⟩ | ⟨actions, u, hr, -, rfl | rfl⟩ := runRule_cases x c rule s
  · rw [hf]
    exact hbatch
  · rw [hr]
    exact record_gauge rule _ _
  · rw [hr]
    exact (record_gauge rule _ _).trans hbatch

/-- Runs of rules leave the gauge as it is. -/
theorem Runs.gauge (hruns : x.Runs c rules s results t) : t.gauge = s.gauge := by
  induction hruns with
  | nil => rfl
  | @cons rule rules s t u r results one _ ih =>
    have hone := runRule_gauge x c rule s
    rw [one] at hone
    exact ih.trans hone

theorem runRules_gauge (x : Engine) (c : Context) (mode : Data) (group : Option String)
    (rules : List Rule) (s : EngineState) :
    (x.runRules c mode group rules s).2.gauge = s.gauge := by
  rw [runRules]
  cases readMode mode with
  | error e => rfl
  | ok m =>
    dsimp only
    cases ho : ordered rules with
    | error f => rw [runIn, ho]
    | ok inOrder =>
      obtain ⟨evaluated, results, t, -, hruns, hend⟩ :=
        runBy_starts x c m inOrder (s.entered (bindings c group s.heap))
      rw [runIn_eq x c ho]
      generalize x.runBy c m inOrder (s.entered (bindings c group s.heap)) = run at hend
      obtain rfl | ⟨rule, -, f, hfault, -⟩ := hend
      · exact hruns.gauge
      · have hlast := runRule_gauge x c rule t
        rw [hfault] at hlast
        exact hlast.trans hruns.gauge

theorem runGroup_gauge (x : Engine) (c : Context) (stored : Keyed String Rule) (g : Group)
    (s : EngineState) : (x.runGroup c stored g s).2.gauge = s.gauge := by
  rw [runGroup]
  cases g.members with
  | none => rfl
  | some ids =>
    have hrun := runRules_gauge x c g.mode (some g.id) (resolveMembers stored ids).1 s
    dsimp only
    generalize x.runRules c g.mode (some g.id) (resolveMembers stored ids).1 s = run at hrun ⊢
    rcases run with ⟨_ | r, t⟩ <;> exact hrun

end Engine

/-! ## The gauge -/

/-- A service that collects metrics, which may be no service, tells the number of its groups. -/
def Service.Gauged (collects : Bool) (s : Service) : Prop :=
  s.state.gauge = if collects then some (Float.ofNat s.groups.size) else none

namespace Service

variable {collects : Bool} {s s' : Service}

theorem gauged_fresh {config : Config} {handlers : Keyed String Handler} {around : Surroundings}
    {clock : Instant} (hs : Service.fresh config handlers around clock = .ok s) :
    s.Gauged config.metrics := by
  have hzero : (Metrics.fresh name : Metrics Float).groups = Float.ofNat 0 := by rfl
  rw [ServiceHistory.eq_of_fresh_service hs, Gauged, EngineState.gauge]
  cases config.metrics with
  | false => rfl
  | true => exact congrArg some hzero

theorem Gauged.keep (h : s.Gauged collects) (hgauge : s'.state.gauge = s.state.gauge)
    (hsize : s'.groups.size = s.groups.size) : s'.Gauged collects := by
  rw [Gauged, hgauge, hsize]
  exact h

/-- Telling the monitoring sets the gauge right, whatever it was. -/
theorem Gauged.publish (h : s.Gauged collects) (groups : GroupStore) :
    ({ s with groups } : Service).publishGroups.Gauged collects := by
  have hgauge : ({ s with groups } : Service).publishGroups.state.gauge =
      s.state.gauge.map fun _ => Float.ofNat groups.size := by
    simp only [publishGroups, EngineState.gauge, Option.map_map]
    rfl
  rw [Gauged, hgauge, h]
  cases collects <;> rfl

end Service

/-- A call that does not save a group past the operations on groups. -/
def ServiceCall.Checked : ServiceCall → Prop
  | .storeGroup .. => False
  | _ => True

namespace ServiceHistory

variable {h : ServiceHistory} {collects : Bool}

/-- One call leaves the gauge right. -/
theorem step_gauged (hg : h.service.Gauged collects) {call : ServiceCall} (hc : call.Checked) :
    (h.step call).service.Gauged collects := by
  cases call with
  | runGroup id c =>
    rw [step, keep_service, Service.runGroup]
    cases h.service.groups.require id with
    | error e => exact hg
    | ok g => exact hg.keep (Engine.runGroup_gauge ..) rfl
  | runRules rules mode c =>
    rw [step, keep_service]
    exact hg.keep (Engine.runRules_gauge ..) rfl
  | runActions actions report c =>
    have hrun := Executor.runBatch_gauge h.service.engine.executor report c actions h.service.state
    rw [step, Service.runActions]
    generalize h.service.engine.executor.runBatch report c actions h.service.state = run at hrun ⊢
    rcases run with ⟨_ | r, t⟩ <;> exact hg.keep hrun rfl
  | runAction a c => exact hg.keep rfl rfl
  | register type handler => exact hg
  | registerTest name test => exact hg
  | saveRule r => exact hg
  | deleteRule id => exact hg
  | createGroup id draft =>
    rcases h.service.withGroups_cases (GroupStore.create_whole h.service.groupRules id
      h.service.state.clock draft) with ⟨f, hcreate⟩ | ⟨g, groups, hcreate, -⟩ <;>
      rw [step, Service.createGroup, hcreate]
    · exact hg
    · exact hg.publish groups
  | editGroup id e =>
    rcases h.service.withGroups_cases (GroupStore.edit_whole h.service.groupRules id e) with
      ⟨f, hedit⟩ | ⟨g, groups, hedit, hgroups⟩ <;> rw [step, Service.editGroup, hedit]
    · exact hg
    · exact hg.keep rfl (GroupStore.edit_size hgroups)
  | deleteGroup id =>
    rcases h.service.withGroups_cases (GroupStore.delete_whole id) with
      ⟨f, hdelete⟩ | ⟨u, groups, hdelete, -⟩ <;> rw [step, Service.deleteGroup, hdelete]
    · exact hg
    · exact hg.publish groups
  | storeGroup g expected => exact hc.elim
  | pass surroundings clock => exact hg

theorem run_keeps_gauged (hg : h.service.Gauged collects) {calls : List ServiceCall}
    (hchecked : ∀ call ∈ calls, call.Checked) : (h.run calls).service.Gauged collects := by
  induction calls generalizing h with
  | nil => exact hg
  | cons call calls ih =>
    obtain ⟨hcall, hcalls⟩ := List.forall_mem_cons.1 hchecked
    exact ih (step_gauged hg hcall) hcalls

/-- **Operations on groups that fail change nothing, and the gauge is right.** After any calls of a
    new service that save groups by the operations on them, the gauge tells the number of groups, if
    metrics are collected; and whatever these operations are asked for then, if they fail, groups,
    rules and gauge are what they were, as is all else. -/
theorem run_gauged {config : Config} {handlers : Keyed String Handler} {around : Surroundings}
    {clock : Instant} {s : Service} (hs : Service.fresh config handlers around clock = .ok s)
    {calls : List ServiceCall} (hchecked : ∀ call ∈ calls, call.Checked) :
    let t := (run { service := s } calls).service
    t.Gauged config.metrics ∧
      (∀ id draft f t', t.createGroup id draft = (.error f, t') → t' = t) ∧
      (∀ id e f t', t.editGroup id e = (.error f, t') → t' = t) ∧
      ∀ id f t', t.deleteGroup id = (.error f, t') → t' = t := by
  intro t
  refine ⟨run_keeps_gauged (Service.gauged_fresh hs) hchecked, fun id draft f t' hfail => ?_,
    fun id e f t' hfail => ?_, fun id f t' hfail => ?_⟩
  · obtain ⟨f', hc⟩ | ⟨g, s', hc, -⟩ := t.createGroup_cases id draft <;> cases hc.symm.trans hfail
    rfl
  · obtain ⟨f', hc⟩ | ⟨g, s', hc, -⟩ := t.editGroup_cases id e <;> cases hc.symm.trans hfail
    rfl
  · obtain ⟨f', hc⟩ | ⟨s', hc, -⟩ := t.deleteGroup_cases id <;> cases hc.symm.trans hfail
    rfl

/-- A group is made, and neither a rule that is not there nor a group without a name is added. -/
theorem run_gauged_refused :
    let around : Surroundings :=
      { breakers := { settings := { recovery := 30.0 } }, clock := fun _ => 0.0, replies := [] }
    let s : Service :=
      { engine := { executor := { config := {}, handlers := {} }, tests := standardTests }
        state :=
          { surroundings := around, statistics := { errorLimit := 50, total := Record.fresh }
            metrics := some (Metrics.fresh Service.name), clock := ⟨0, 0⟩ } }
    let named : GroupDraft := { name := some "Group", mode := .text "any", members := ["a"] }
    let unnamed : GroupDraft := { name := some " ", mode := .text "any", members := ["a"] }
    let calls : List ServiceCall :=
      [.saveRule { id := "a", name := "Rule" }, .createGroup "g" (.form named),
        .createGroup "h" (.form unnamed)]
    let t := (run { service := s } calls).service
    Service.fresh {} {} around ⟨0, 0⟩ = .ok s ∧ (∀ call ∈ calls, call.Checked) ∧
      t.state.gauge = some (Float.ofNat 1) ∧
      ∃ f, t.editGroup "g" (.addRule "b") = (.error f, t) := by
  intro around s named unnamed calls t
  have hs : Service.fresh {} {} around ⟨0, 0⟩ = .ok s := by rfl
  have hchecked : ∀ call ∈ calls, call.Checked := by simp [calls, ServiceCall.Checked]
  have hsize : t.groups.size = 1 := by decide +kernel
  have hrefused : (t.editGroup "g" (.addRule "b")).1.toOption.isNone = true := by decide +kernel
  obtain ⟨hgauge, -, hedit, -⟩ := run_gauged hs hchecked
  refine ⟨hs, hchecked, ?_, ?_⟩
  · rw [← hsize]
    exact hgauge
  · rcases hans : t.editGroup "g" (.addRule "b") with ⟨f | g, t'⟩
    · exact ⟨f, by rw [hedit _ _ f t' hans]⟩
    · rw [hans] at hrefused
      cases hrefused

end ServiceHistory

end Rulebook
