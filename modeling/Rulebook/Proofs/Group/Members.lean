/-
  What the run of a group tells of its members.

  A group that is kept names each of its rules once.  When it is run, each member that is no rule
  any more is told of once, in the order of the members; each one that is an enabled rule is run
  once, by priority and otherwise in the order of the members, and counted once.  Where the first
  match ends the run, this holds of the rules up to it.

  * `Filed`: rules are kept under their own ids;
  * `Engine.resolveMembers_eq`: which members are rules;
  * `Engine.runBy_evaluated`: which rules are run in a mode;
  * `Engine.Runs.executions`: each rule that is run is counted once;
  * `Service.runGroup_members`: groups that are kept, with any rules.
-/
import Rulebook.Proofs.Counts.Feed
import Rulebook.Proofs.Counts.Recorders
import Rulebook.Proofs.Group.History

namespace Rulebook

/-! ## Members that are rules -/

/-- Rules are kept under their own ids. -/
def Filed (rules : Keyed String Rule) : Prop :=
  ∀ id rule, rules.get? id = some rule → rule.id = id

namespace Filed

variable {rules : Keyed String Rule}

theorem empty : Filed {} := nofun

/-- Saving a rule files it. -/
theorem put (h : Filed rules) (rule : Rule) : Filed (rules.put rule.id rule) := by
  intro id found hfound
  rcases Keyed.get?_put_eq_some_iff.1 hfound with ⟨rfl, rfl⟩ | ⟨-, hfound⟩
  · rfl
  · exact h id found hfound

theorem erase (h : Filed rules) (id : String) : Filed (rules.erase id) :=
  fun id' found hfound => h id' found (Keyed.get?_erase_eq_some_iff.1 hfound).2

/-- Different ids are those of different rules. -/
theorem ids_nodup (h : Filed rules) {ids : List String} (hids : ids.Nodup) :
    ((ids.filterMap rules.get?).map (·.id)).Nodup := by
  have hsame : (ids.filterMap rules.get?).map (·.id) = ids.filter rules.contains := by
    induction ids with
    | nil => rfl
    | cons id ids ih =>
      have ih := ih (List.nodup_cons.1 hids).2
      unfold Keyed.contains at ih ⊢
      cases hid : rules.get? id with
      | none => simpa [hid] using ih
      | some rule => simpa [hid, h id rule hid] using ih
  rw [hsame]
  exact hids.filter _

end Filed

namespace Engine

theorem resolveMembers_eq (stored : Keyed String Rule) (ids : List String) :
    resolveMembers stored ids = (ids.filterMap stored.get?,
      (ids.filter fun id => (stored.get? id).isNone).map .ruleNotFound) := by
  induction ids with
  | nil => rfl
  | cons id ids ih =>
    rw [resolveMembers, ih]
    cases hid : stored.get? id <;> simp [hid]

end Engine

/-! ## Counts -/

namespace Executor

variable (x : Executor) (report : Bool) (c : Context)

theorem record_rules (r : ActionResult) (s : EngineState) :
    (record report r s).statistics.rules = s.statistics.rules := by
  unfold record
  dsimp only
  split_ifs
  · rfl
  · exact (ActionCounts.recordAction_eq ..).2.1
  · exact (ActionCounts.recordAction_eq ..).2.1

theorem settle_rules (a : Action) (s : EngineState) :
    (x.settle report c a s).2.statistics.rules = s.statistics.rules := by
  unfold settle
  split
  · exact record_rules report _ _
  · dsimp only
    rw [record_rules]
    generalize (x.execute a c _).1 = r
    cases r <;> rfl

/-- A batch is no execution of a rule. -/
theorem runBatch_rules (actions : List Action) (s : EngineState) :
    (x.runBatch report c actions s).2.statistics.rules = s.statistics.rules :=
  runBatch_keeps (P := fun t => t.statistics.rules = s.statistics.rules) x report c
    (fun _ _ ht => ht) (fun a t ht => (settle_rules x report c a t).trans ht) actions rfl

end Executor

namespace Engine

variable {x : Engine} {c : Context} {s t : EngineState} {rule : Rule} {rules : List Rule}
  {r : RuleResult} {results : List RuleResult}

/-- A rule that comes to a result is counted once. -/
theorem runRule_executions (hone : x.runRule c rule s = (.ok r, t)) (id : String) :
    (t.statistics.rule id).executions =
      (s.statistics.rule id).executions + if rule.id = id then 1 else 0 := by
  obtain ⟨f, hf⟩ | ⟨actions, u, hr, -, hleft⟩ := runRule_cases x c rule s
  · cases hf.symm.trans hone
  · cases hr.symm.trans hone
    have hrules : u.statistics.rules = s.statistics.rules := by
      rcases hleft with rfl | rfl
      · rfl
      · exact Executor.runBatch_rules x.executor false c rule.actions (x.tested c rule s)
    have hrule (id : String) : u.statistics.rule id = s.statistics.rule id := by
      rw [Statistics.rule, hrules]
      rfl
    obtain ⟨next, hrecord, -, -, hput, -⟩ := RuleCounts.recordRule_eq u.statistics u.clock rule.id
      (0.0 : Float) (rule.holds x.tests c s.surroundings).1
      (RuleResult.ofActions rule (rule.holds x.tests c s.surroundings).1 actions).success
      rule.category (RuleResult.errorOf rule actions)
    rw [← hrule id, Statistics.rule, record]
    dsimp only [RuleResult.ofActions] at hput ⊢
    rw [hput]
    split_ifs with hid
    · rw [← hid, Keyed.get?_put_self, Option.getD_some, hrecord, Record.executions_add]
    · rw [Keyed.get?_put_of_ne _ _ (Ne.symm hid)]
      rfl

namespace Runs

/-- Each rule that is run is counted as often as it is run. -/
theorem executions (hruns : x.Runs c rules s results t) (id : String) :
    (t.statistics.rule id).executions =
      (s.statistics.rule id).executions + (rules.map (·.id)).count id := by
  induction hruns with
  | nil => rfl
  | @cons rule rules s t u r results one _ ih =>
    rw [ih, runRule_executions one, List.map_cons, List.count_cons, Nat.add_assoc,
      Nat.add_comm (List.count id _)]
    simp only [beq_iff_eq]

theorem ids (hruns : x.Runs c rules s results t) : results.map (·.rule) = rules.map (·.id) := by
  induction hruns with
  | nil => rfl
  | cons one _ ih => rw [List.map_cons, List.map_cons, ih, (runRule_reports one).id]

/-- The first result to match is that of the first rule whose conditions hold at the start. -/
theorem findIdx_matched (hruns : x.Runs c rules s results t)
    (hranked : ∀ rule ∈ rules, rule.Ranked) (htimed : ∀ rule ∈ rules, rule.Timed x.executor)
    (hquiet : x.tests.Quiet) :
    results.findIdx (·.matched) =
      rules.findIdx fun rule => (rule.holds x.tests c s.surroundings).1 := by
  induction hruns with
  | nil => rfl
  | @cons rule rules s t u r results one _ ih =>
    obtain ⟨hrule, hrules⟩ := List.forall_mem_cons.1 hranked
    obtain ⟨htrule, htrules⟩ := List.forall_mem_cons.1 htimed
    obtain ⟨r', t', hone, hmatched, hsame⟩ := runRule_ok x c hrule htrule s
    cases one.symm.trans hone
    rw [List.findIdx_cons, List.findIdx_cons, ← hmatched]
    cases hm : r.matched with
    | true => rfl
    | false => rw [ih hrules htrules, hsame hquiet hm]

end Runs

/-! ## Rules that are run -/

/-- The rules that are run in a mode: all of them, or those up to the first that matches. -/
def evaluated (mode : Mode) (inOrder : List Rule) (results : List RuleResult) : List Rule :=
  match mode with
  | .all | .any => inOrder
  | .firstMatch => inOrder.take (results.findIdx (·.matched) + 1)

theorem evaluated_sublist (mode : Mode) (inOrder : List Rule) (results : List RuleResult) :
    (evaluated mode inOrder results).Sublist inOrder := by
  cases mode with
  | all => exact List.Sublist.refl _
  | any => exact List.Sublist.refl _
  | firstMatch => exact List.take_sublist _ _

theorem runBy_evaluated (x : Engine) (c : Context) (mode : Mode) {inOrder : List Rule}
    (hranked : ∀ rule ∈ inOrder, rule.Ranked) (htimed : ∀ rule ∈ inOrder, rule.Timed x.executor)
    (s : EngineState) :
    ∃ results t, x.runBy c mode inOrder s = (.ok results, t) ∧
      x.Runs c (evaluated mode inOrder results) s results t ∧
      (x.tests.Quiet → results.findIdx (·.matched) =
        inOrder.findIdx fun rule => (rule.holds x.tests c s.surroundings).1) := by
  obtain ⟨results, t, heach, hruns⟩ := runEach_runs x c hranked htimed s
  have hmatched := hruns.findIdx_matched hranked htimed
  cases mode with
  | all => exact ⟨results, t, heach, hruns, hmatched⟩
  | any => exact ⟨results, t, heach, hruns, hmatched⟩
  | firstMatch =>
    obtain ⟨u, hfirst, hstart⟩ := hruns.runFirst
    have hsame : (results.take (results.findIdx (·.matched) + 1)).findIdx (·.matched) =
        results.findIdx (·.matched) := by
      rw [List.findIdx_take]
      omega
    refine ⟨_, u, hfirst, ?_, fun hquiet => hsame.trans (hmatched hquiet)⟩
    rwa [evaluated, hsame]

/-! ## Groups -/

/-- What the run of a group with these members tells of them, and what it counts, within the scope of
    the log context that `bound` binds; `inOrder` are the members that are enabled rules, in the order
    in which they run. -/
structure TellsMembers (x : Engine) (c : Context) (stored : Keyed String Rule) (ids : List String)
    (mode : Mode) (bound : List (LogKey × Data)) (inOrder : List Rule) (s t : EngineState)
    (r : GroupResult) : Prop where
  /-- By priority, and otherwise in the order of the members. -/
  order : Sorting.Stable Rule.rank ((ids.filterMap stored.get?).filter (·.enabled)) inOrder
  once : (inOrder.map (·.id)).Nodup
  runs : ∃ u, x.Runs c (evaluated mode inOrder r.rules) (s.entered bound) r.rules u ∧
    t = s.leaving u bound
  /-- The first rule to match is the first whose conditions hold at the start, if tests are quiet. -/
  matched : x.tests.Quiet → r.rules.findIdx (·.matched) =
    inOrder.findIdx fun rule => (rule.holds x.tests c (s.entered bound).surroundings).1
  rules : r.rules.map (·.rule) = (evaluated mode inOrder r.rules).map (·.id)
  reports : List.Forall₂ RuleResult.Reports (evaluated mode inOrder r.rules) r.rules
  errors : r.errors = (ids.filter fun id => (stored.get? id).isNone).map .ruleNotFound ++
    r.rules.filterMap (·.error)
  executions (id : String) : (t.statistics.rule id).executions =
    (s.statistics.rule id).executions +
      if id ∈ (evaluated mode inOrder r.rules).map (·.id) then 1 else 0

theorem runGroup_tells (x : Engine) (c : Context) {stored : Keyed String Rule} {g : Group}
    {ids : List String} {mode : Mode} (hmembers : g.members = some ids) (hids : ids.Nodup)
    (hmode : g.mode = .text mode.name) (hfiled : Filed stored)
    (hranked : ∀ id rule, stored.get? id = some rule → rule.enabled = true → rule.Ranked)
    (htimed : ∀ id rule, stored.get? id = some rule → rule.enabled = true →
      rule.Timed x.executor)
    (s : EngineState) :
    ∃ inOrder r t, x.runGroup c stored g s = (.ok r, t) ∧
      x.TellsMembers c stored ids mode (bindings c (some g.id) s.heap) inOrder s t r := by
  have hfound {P : Rule → Prop}
      (hP : ∀ id rule, stored.get? id = some rule → rule.enabled = true → P rule) :
      ∀ rule ∈ ids.filterMap stored.get?, rule.enabled = true → P rule := fun rule hrule => by
    obtain ⟨id, -, hid⟩ := List.mem_filterMap.1 hrule
    exact hP id rule hid
  obtain ⟨inOrder, ho, hstable⟩ := ordered_stable (hfound hranked)
  have hinOrder {P : Rule → Prop}
      (hP : ∀ id rule, stored.get? id = some rule → rule.enabled = true → P rule) :
      ∀ rule ∈ inOrder, P rule := fun rule hrule => by
    obtain ⟨hmem, henabled⟩ := List.mem_filter.1 (hstable.mem_iff.1 hrule)
    exact hfound hP rule hmem henabled
  obtain ⟨results, u, hrun, hruns, hmatched⟩ := runBy_evaluated x c mode (hinOrder hranked)
    (hinOrder htimed) (s.entered (bindings c (some g.id) s.heap))
  have honce : (inOrder.map (·.id)).Nodup :=
    (hstable.perm.map (·.id)).nodup_iff.2
      ((hfiled.ids_nodup hids).sublist (List.filter_sublist.map _))
  have hread : readMode g.mode = .ok mode := by
    rw [readMode, hmode, Mode.ofData?, Mode.ofName?_name]
  let missing := (ids.filter fun id => (stored.get? id).isNone).map RuleError.ruleNotFound
  let r := resultOf (some g.id) mode results
  have hsub := evaluated_sublist mode inOrder results
  refine ⟨inOrder, { r with errors := missing ++ r.errors }, _, ?_, hstable, honce,
    ⟨u, hruns, rfl⟩, hmatched, hruns.ids, hruns.reports, rfl, fun id => ?_⟩
  · simp only [runGroup, hmembers, resolveMembers_eq, runRules, hread, runIn_eq x c ho, hrun]
    rfl
  · change (u.statistics.rule id).executions = _
    rw [hruns.executions, List.Nodup.count (honce.sublist (hsub.map _))]
    rfl

end Engine

/-- **The run of a group tells of each member once.** A group that was made and edited by any calls
    of a service can be run with whatever rules there are by then, as long as these are kept under
    their own ids, have whole numbers as priorities and orders, and there is time for their guards:
    it comes to a result, which tells of each member that is no rule and of each rule with an action
    that failed, and the rules that are run are each counted once. -/
theorem Service.runGroup_members {s : Service} (empty : s.groups = {}) {calls : List GroupCall}
    (fresh : (calls.flatMap GroupCall.newIds).Nodup) {id : String} {g : Group}
    (stored : (GroupHistory.run { service := s } calls).service.groups.get? id = some g)
    {later : Service}
    (same : later.groups = (GroupHistory.run { service := s } calls).service.groups)
    (filed : Filed later.rules)
    (ranked : ∀ id rule, later.rules.get? id = some rule → rule.enabled = true → rule.Ranked)
    (timed : ∀ id rule, later.rules.get? id = some rule → rule.enabled = true →
      rule.Timed later.engine.executor) (c : Context) :
    let bound := Engine.bindings c (some g.id) later.state.heap
    ∃ ids mode inOrder r t, g.members = some ids ∧ ids.Nodup ∧ g.mode = .text mode.name ∧
      later.runGroup id c = (.ok r, { later with state := t }) ∧
      later.engine.TellsMembers c later.rules ids mode bound inOrder later.state t r := by
  intro bound
  have hnone : ∀ id, s.groups.get? id = none := fun id => by
    rw [empty]
    rfl
  have sound : (GroupHistory.run { service := s } calls).Sound [] :=
    GroupHistory.run_sound
      ⟨fun id g hg => absurd (hg.symm.trans (hnone id)) (by simp), fun id _ => hnone id⟩ fresh
  obtain ⟨-, ⟨mode, hmode⟩, ids, hmembers, hids⟩ := (sound.accounts id g stored).valid
  obtain ⟨inOrder, r, t, hrun, htells⟩ :=
    later.engine.runGroup_tells c hmembers hids hmode filed ranked timed later.state
  refine ⟨ids, mode, inOrder, r, t, hmembers, hids, hmode, ?_, htells⟩
  simp only [Service.runGroup, GroupStore.require, same, stored, after, hrun]

theorem Service.runGroup_members_deleted :
    let s : Service :=
      { engine := { executor := { config := {}, handlers := {} }, tests := {} }
        state :=
          { surroundings :=
              { breakers := { settings := { recovery := 30.0 } }, clock := fun _ => 0.0, replies := [] }
            statistics := { errorLimit := 5, total := Record.fresh }
            metrics := none, clock := ⟨0, 0⟩ } }
    let c : Context := ⟨.null, .null, .null, .null, .null, .null⟩
    let kept : Rule := { id := "b", name := "Kept" }
    let draft : GroupDraft := { name := some "Group", mode := .text "any", members := ["a", "b"] }
    let calls : List GroupCall :=
      [.saveRule { id := "a", name := "Deleted" }, .saveRule kept, .create "g" (.form draft),
        .deleteRule "a"]
    let later := (GroupHistory.run { service := s } calls).service
    s.groups = {} ∧ (calls.flatMap GroupCall.newIds).Nodup ∧ Filed later.rules ∧
      (∀ id rule, later.rules.get? id = some rule → rule.enabled = true → rule.Ranked) ∧
      (∀ id rule, later.rules.get? id = some rule → rule.enabled = true →
        rule.Timed later.engine.executor) ∧
      ∃ g, later.groups.get? "g" = some g ∧ ∃ bound inOrder r t,
        later.runGroup "g" c = (.ok r, { later with state := t }) ∧
        later.engine.TellsMembers c later.rules ["a", "b"] .any bound inOrder later.state t r ∧
        r.errors.map (·.code) = ["RULE_NOT_FOUND"] := by
  intro s c kept draft calls later
  have fresh : (calls.flatMap GroupCall.newIds).Nodup := by decide
  have filed : Filed later.rules := ((Filed.empty.put _).put kept).erase "a"
  have ranked (id : String) (rule : Rule) (hrule : later.rules.get? id = some rule)
      (_ : rule.enabled = true) : rule.Ranked := by
    obtain ⟨hne, hrule⟩ := Keyed.get?_erase_eq_some_iff.1 hrule
    rcases Keyed.get?_put_eq_some_iff.1 hrule with ⟨-, rfl⟩ | ⟨-, hrule⟩
    · exact ⟨rfl, nofun⟩
    · rcases Keyed.get?_put_eq_some_iff.1 hrule with ⟨rfl, -⟩ | ⟨-, hrule⟩
      · exact absurd rfl hne
      · cases hrule
  have htimes : later.engine.executor.TimesGuards :=
    Executor.timesGuards_iff.2 (by decide +kernel)
  have timed (id : String) (rule : Rule) (_ : later.rules.get? id = some rule)
      (_ : rule.enabled = true) : rule.Timed later.engine.executor :=
    fun a _ => htimes.guardFault?_eq_none a
  have hstored : (later.groups.get? "g").map (fun g => (g.members, Mode.ofData? g.mode)) =
      some (some ["a", "b"], some .any) := by
    decide +kernel
  have hcodes : (later.runGroup "g" c).1.toOption.map (fun r => r.errors.map (·.code)) =
      some ["RULE_NOT_FOUND"] := by
    decide +kernel
  obtain ⟨g, hg, hgroup⟩ := Option.map_eq_some_iff.1 hstored
  obtain ⟨hmembers, hany⟩ := Prod.mk.inj hgroup
  obtain ⟨ids, mode, inOrder, r, t, hids, -, hmode, hrun, htells⟩ :=
    runGroup_members rfl fresh hg rfl filed ranked timed c
  obtain rfl : ["a", "b"] = ids := Option.some.inj (hmembers.symm.trans hids)
  obtain rfl : mode = .any := by
    rw [hmode, Mode.ofData?, Mode.ofName?_name] at hany
    exact Option.some.inj hany
  rw [hrun] at hcodes
  exact ⟨rfl, fresh, filed, ranked, timed, g, hg, _, inOrder, r, t, hrun, htells,
    Option.some.inj hcodes⟩

end Rulebook
