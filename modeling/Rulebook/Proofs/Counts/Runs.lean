/-
  Runs are counted.

  Whatever an action of a batch comes to, and whatever a rule comes to, is recorded once in the
  metrics and once in the statistics.  So what was counted before a run and the results of the run
  are what is counted after it, for batches of actions and for rules in every mode.  A run that ends
  in a fault, since there is no time for guards, has counted what it came to before.

  * `Executor.settle_counts`: one action;
  * `Executor.runBatch_counts`, `Engine.runRule_counts`: a batch, and a rule;
  * `Engine.runRules_counts`, `Engine.runGroup_counts`: rules in a mode, and a group.
-/
import Rulebook.Proofs.Counts.Recorders
import Rulebook.Proofs.Modes

namespace Rulebook

/-- Metrics and statistics count the same results of rules and actions. -/
structure Counted (m : Metrics Float) (t : Statistics Float) (rs : List RuleResult)
    (as : List ActionResult) : Prop where
  rules : RuleCounts m t rs
  actions : ActionCounts m t as
  errors : m.errors.total = as.countP (·.status == .failure)

namespace EngineState

variable {s : EngineState} {rs rs' : List RuleResult} {as as' : List ActionResult}

/-- What is recorded are results of rules and actions. -/
def Counts (s : EngineState) (rs : List RuleResult) (as : List ActionResult) : Prop :=
  ∃ m, s.metrics = some m ∧ Counted m s.statistics rs as

theorem Counts.perm (h : s.Counts rs as) (hrs : rs.Perm rs') (has : as.Perm as') :
    s.Counts rs' as' := by
  obtain ⟨m, hm, hrules, hactions, herrors⟩ := h
  exact ⟨m, hm, hrules.perm hrs, hactions.perm has, herrors.trans (has.countP_eq _)⟩

/-- The number of groups is no count of results. -/
theorem Counts.publish (h : s.Counts rs as) (groups : Float) :
    Counts { s with metrics := s.metrics.map fun m => m.setGroups groups } rs as := by
  obtain ⟨m, hm, hrules, hactions, herrors⟩ := h
  exact ⟨_, congrArg (Option.map _) hm, hrules.congr rfl rfl rfl, hactions.congr rfl rfl rfl,
    herrors⟩

end EngineState

open EngineState (Counts)

theorem bucket?_zero : (Histogram.bucket? (0.0 : Float)).isSome := by
  decide +kernel

/-! ## Actions -/

namespace Executor

variable (x : Executor) (report : Bool) (c : Context) {s : EngineState} {rs : List RuleResult}
  {as : List ActionResult}

/-- Recording a result counts it, if its error was counted before. -/
theorem record_counts {m : Metrics Float} (hm : s.metrics = some m)
    (hrules : RuleCounts m s.statistics rs) (hactions : ActionCounts m s.statistics as)
    {r : ActionResult} (herrors : m.errors.total = (r :: as).countP (·.status == .failure)) :
    Counts (record report r s) rs (r :: as) := by
  have hrecord : ∃ error, record report r s =
      { s with
        metrics := some (m.recordAction r.actionType r.status.name 0.0)
        statistics := if r.skipped then s.statistics else
          s.statistics.recordAction r.actionType 0.0 r.success error } := by
    refine ⟨if report then r.error else none, ?_⟩
    rw [record, hm]
    cases r.skipped <;> rfl
  obtain ⟨error, hrecord⟩ := hrecord
  rw [hrecord]
  refine ⟨_, rfl, ?_, hactions.record r bucket?_zero _, herrors⟩
  dsimp only
  split_ifs
  · exact hrules.congr rfl rfl rfl
  · obtain ⟨-, hr, ht⟩ := ActionCounts.recordAction_eq s.statistics r.actionType 0.0 r.success error
    exact hrules.congr rfl hr ht

/-- Whatever an action comes to is counted. -/
theorem settle_counts (a : Action) (h : s.Counts rs as) :
    Counts (x.settle report c a s).2 rs ((x.settle report c a s).1 :: as) := by
  obtain ⟨m, hm, hrules, hactions, herrors⟩ := h
  rw [settle]
  split
  · next heap _ =>
    exact record_counts report (s := s.setHeap heap) hm hrules hactions herrors
  · next heap _ =>
    dsimp only
    generalize x.execute a c (s.setHeap heap).surroundings = ran
    obtain ⟨r, around⟩ := ran
    cases r with
    | ok v =>
      exact record_counts report (s := { s with surroundings := around }) hm hrules hactions herrors
    | error e =>
      refine record_counts report (m := m.recordError (failureCode e) none) ?_ ?_ ?_ ?_
      · exact congrArg (Option.map _) hm
      · exact hrules.congr rfl rfl rfl
      · exact hactions.congr rfl rfl rfl
      · exact (Tally.total_add _ _).trans
          ((congrArg (· + 1) herrors).trans (List.countP_cons_of_pos rfl).symm)

theorem after_counts (actions : List Action) (h : s.Counts rs as) :
    Counts (x.after report c actions s) rs (x.resultsInTurn report c actions s ++ as) := by
  induction actions generalizing s as with
  | nil => exact h
  | cons a rest ih =>
    exact (ih (settle_counts x report c a h)).perm .rfl List.perm_middle

/-- The results of a batch are counted, as are those that it came to before it ended in a fault. -/
theorem runBatch_counts {actions : List Action} (hranked : ∀ a ∈ actions, a.Ranked)
    (h : s.Counts rs as) :
    ∃ found, (x.runBatch report c actions s).2.Counts rs (found ++ as) ∧
      ((x.runBatch report c actions s).1 = .ok found ∨
        ¬x.TimesGuards ∧ ∃ f, (x.runBatch report c actions s).1 = .error f) := by
  obtain ⟨turns, ho, ht⟩ := ordered_inTurn hranked
  let begun := s.entered (bindings c s.heap)
  have hbegun : begun.Counts rs as := h
  rw [runBatch_eq x report c ho ht.length_eq s]
  obtain ⟨hnone, hall⟩ | ⟨f, a, rest, hf, ha, -⟩ := x.reached_cases (turns.map (·.2))
  · rw [hnone, hall]
    refine ⟨_, ?_, .inl rfl⟩
    have hperm := (zip_resultsInPlace_perm x report c ht begun).map (·.2)
    rw [List.map_snd_zip (by rw [resultsInPlace_length x report c ht begun]),
      List.map_snd_zip (by rw [resultsInTurn_length])] at hperm
    exact (after_counts x report c _ hbegun).perm .rfl (hperm.symm.append_right as)
  · rw [hf]
    refine ⟨_, after_counts x report c _ hbegun, .inr ⟨fun htimes => ?_, f, rfl⟩⟩
    exact absurd (ha.symm.trans (htimes.guardFault?_eq_none a)) nofun

end Executor

/-! ## Rules -/

namespace Engine

variable (x : Engine) (c : Context) {s t : EngineState} {rules : List Rule}
  {results rs : List RuleResult} {as : List ActionResult}

theorem record_counts (rule : Rule) (r : RuleResult) (h : s.Counts rs as) :
    Counts (record rule r s) (r :: rs) as := by
  obtain ⟨m, hm, hrules, hactions, herrors⟩ := h
  obtain ⟨-, -, -, -, -, -, ha⟩ := RuleCounts.recordRule_eq s.statistics s.clock rule.id 0.0 r.matched
    r.success rule.category r.error
  exact ⟨_, congrArg (Option.map _) hm, hrules.record r _ _ _ _ _, hactions.congr rfl rfl ha,
    herrors⟩

/-- The result of a rule is counted, as are those of its actions. -/
theorem runRule_counts {rule : Rule} (hranked : ∀ a ∈ rule.actions, a.Ranked)
    (h : s.Counts rs as) :
    (∃ r t, x.runRule c rule s = (.ok r, t) ∧ t.Counts (r :: rs) (r.actions ++ as)) ∨
      ∃ f t found, x.runRule c rule s = (.error f, t) ∧ t.Counts rs (found ++ as) ∧
        ¬x.executor.TimesGuards := by
  have htested : (x.tested c rule s).Counts rs as := h
  rw [runRule_eq, finishRule]
  by_cases hm : ((rule.holds x.tests c s.surroundings).1 && !rule.actions.isEmpty) = true
  · rw [if_pos hm]
    obtain ⟨found, hcounts, hrun⟩ :=
      Executor.runBatch_counts x.executor false c hranked htested
    generalize x.executor.runBatch false c rule.actions (x.tested c rule s) = run at hcounts hrun
    obtain ⟨_, t⟩ := run
    obtain rfl | ⟨hnone, f, rfl⟩ := hrun
    · exact .inl ⟨_, _, rfl, record_counts rule (RuleResult.ofActions rule _ found) hcounts⟩
    · exact .inr ⟨f, t, found, rfl, hcounts, hnone⟩
  · rw [if_neg hm]
    exact .inl ⟨_, _, rfl, record_counts rule (RuleResult.ofActions rule _ []) htested⟩

variable {x c}

theorem Runs.counts (hruns : x.Runs c rules s results t) (hranked : ∀ rule ∈ rules, rule.Ranked)
    (h : s.Counts rs as) : t.Counts (results ++ rs) (results.flatMap (·.actions) ++ as) := by
  induction hruns generalizing rs as with
  | nil => exact h
  | @cons rule rules s t u r results one rest ih =>
    obtain ⟨hrule, hrules⟩ := List.forall_mem_cons.1 hranked
    obtain ⟨r', t', hone, hcounts⟩ | ⟨f, t', found, hone, -⟩ := runRule_counts x c hrule.actions h
    · cases one.symm.trans hone
      refine (ih hrules hcounts).perm List.perm_middle ?_
      rw [List.flatMap_cons, List.append_assoc]
      exact List.perm_append_comm_assoc ..
    · cases one.symm.trans hone

variable (x c)

/-- What a run of rules adds to what is counted: its results, or what it came to before it ended in
    a fault, which is nothing if there is time for guards. -/
def Adds (rs : List RuleResult) (as : List ActionResult)
    (run : Except Failure GroupResult × EngineState) : Prop :=
  ∃ rules actions, run.2.Counts (rules ++ rs) (actions ++ as) ∧
    ((∃ r, run.1 = .ok r ∧ r.rules = rules ∧ r.actions = actions) ∨
      (∃ e, run.1 = .error e) ∧ (x.executor.TimesGuards → rules = [] ∧ actions = []))

theorem Adds.error {x : Engine} (h : s.Counts rs as) (e : Failure) :
    x.Adds rs as (.error e, s) :=
  ⟨[], [], h, .inr ⟨⟨e, rfl⟩, fun _ => ⟨rfl, rfl⟩⟩⟩

/-- Rules that run in a mode are counted. -/
theorem runRules_counts (mode : Data) (group : Option String)
    (hranked : ∀ rule ∈ rules, rule.enabled = true → rule.Ranked) (h : s.Counts rs as) :
    x.Adds rs as (x.runRules c mode group rules s) := by
  rw [runRules]
  cases readMode mode with
  | error e => exact .error h e
  | ok m =>
    obtain ⟨inOrder, ho, hstable⟩ := ordered_stable hranked
    have hinOrder : ∀ rule ∈ inOrder, rule.Ranked := fun rule hrule => by
      obtain ⟨hmem, henabled⟩ := List.mem_filter.1 (hstable.mem_iff.1 hrule)
      exact hranked rule hmem henabled
    have hbegun : (s.entered (bindings c group s.heap)).Counts rs as := h
    obtain ⟨evaluated, results, t, hstart, hruns, hend⟩ :=
      runBy_starts x c m inOrder (s.entered (bindings c group s.heap))
    have hcounts := hruns.counts (fun rule hrule => hinOrder rule (hstart.mem hrule)) hbegun
    dsimp only
    rw [runIn_eq x c ho]
    generalize x.runBy c m inOrder (s.entered (bindings c group s.heap)) = run at hend
    obtain rfl | ⟨rule, hrule, f, hfault, hf⟩ := hend
    · exact ⟨results, _, hcounts, .inl ⟨_, rfl, rfl, rfl⟩⟩
    · obtain ⟨r', t', hone, -⟩ | ⟨f', t', found, hone, hleft, hnone⟩ :=
        runRule_counts x c (hinOrder rule hrule).actions hcounts
      · cases hfault.symm.trans hone
      · obtain rfl : run.2 = t' := congrArg Prod.snd (hfault.symm.trans hone)
        dsimp only
        rw [hf]
        refine ⟨results, found ++ results.flatMap (·.actions), ?_, .inr ⟨⟨_, rfl⟩,
          fun htimes => absurd htimes hnone⟩⟩
        rw [List.append_assoc]
        exact hleft

theorem mem_resolveMembers {stored : Keyed String Rule} {ids : List String} {rule : Rule}
    (h : rule ∈ (resolveMembers stored ids).1) : ∃ id, stored.get? id = some rule := by
  induction ids with
  | nil => cases h
  | cons id ids ih =>
    rw [resolveMembers] at h
    cases hid : stored.get? id with
    | none =>
      rw [hid] at h
      exact ih h
    | some found =>
      rw [hid] at h
      rcases List.mem_cons.1 h with rfl | h
      · exact ⟨id, hid⟩
      · exact ih h

/-- The same of a group. -/
theorem runGroup_counts {stored : Keyed String Rule} (g : Group)
    (hranked : ∀ id rule, stored.get? id = some rule → rule.enabled = true → rule.Ranked)
    (h : s.Counts rs as) : x.Adds rs as (x.runGroup c stored g s) := by
  rw [runGroup]
  cases g.members with
  | none => exact .error h _
  | some ids =>
    have hfound : ∀ rule ∈ (resolveMembers stored ids).1, rule.enabled = true → rule.Ranked :=
      fun rule hrule => by
        obtain ⟨id, hid⟩ := mem_resolveMembers hrule
        exact hranked id rule hid
    obtain ⟨rules, actions, hcounts, hrun⟩ :=
      runRules_counts x c g.mode (some g.id) hfound h
    dsimp only
    generalize x.runRules c g.mode (some g.id) (resolveMembers stored ids).1 s = run
      at hcounts hrun ⊢
    obtain ⟨e | r, t⟩ := run
    · obtain ⟨r, hr, -⟩ | hrun := hrun
      · cases hr
      · exact ⟨rules, actions, hcounts, .inr hrun⟩
    · obtain ⟨r', hr, hrules, hactions⟩ | ⟨⟨e, he⟩, -⟩ := hrun
      · cases hr
        exact ⟨rules, actions, hcounts, .inl ⟨_, rfl, hrules, hactions⟩⟩
      · cases he

end Engine

end Rulebook
