/-
  What the feed of recent errors receives.

  The feed holds the newest errors of a log that nobody keeps.  A batch that reports its errors adds
  one for each action that failed, in the order of execution, unless the text of the failure is
  empty: then nothing is added.  Rules run their batches without reports, and each rule with a
  failed action adds one error of its own.  Where a batch ends early, since there is no time for a
  guard, the actions before it have been told, and of rules those before it.

  * `Statistics.Feeds`: the feed and its log, and what recording adds to them;
  * `Executor.runBatch_feeds`: a batch, with reports and without;
  * `Engine.Runs.feeds`: rules, one after the other;
  * `Engine.runs_feed`: batches, rules in every mode, and groups.
-/
import Mathlib.Data.List.DropRight
import Rulebook.Proofs.Atomicity
import Rulebook.Proofs.Modes

namespace Rulebook

/-! ## The feed -/

/-- The newest items of a list are those of its newest items. -/
theorem rtake_rtake_append {α : Type} (n : Nat) (l m : List α) :
    (l.rtake n ++ m).rtake n = (l ++ m).rtake n := by
  simp only [List.rtake, List.length_append, List.length_drop, List.drop_append, List.drop_drop]
  congr 2 <;> omega

namespace Statistics

variable {τ : Type} {s : Statistics τ} {limit : Nat} {log : List RuleError}

/-- The feed holds the newest errors of a log, so many as its limit allows. -/
def Feeds (s : Statistics τ) (limit : Nat) (log : List RuleError) : Prop :=
  s.errorLimit = limit ∧ s.feed = log.rtake limit

theorem Feeds.report (h : s.Feeds limit log) (e : RuleError) :
    (s.report e).Feeds limit (log ++ [e]) := by
  obtain ⟨rfl, hfeed⟩ := h
  refine ⟨rfl, ?_⟩
  change (s.feed ++ [e]).rtake s.errorLimit = (log ++ [e]).rtake s.errorLimit
  rw [hfeed, rtake_rtake_append]

variable [Quantity τ]

/-- The error of an action goes into the feed if it is told and not empty. -/
theorem Feeds.recordAction (h : s.Feeds limit log) (type : String) (time : τ) (success : Bool)
    (error : Option String) : (s.recordAction type time success error).Feeds limit
      (log ++ (if success = false ∧ error.getD "" ≠ "" then
        some (RuleError.actionFailed type (error.getD "")) else none).toList) := by
  have hsilent (hno : ¬(success = false ∧ error.getD "" ≠ "")) : s.Feeds limit
      (log ++ (if success = false ∧ error.getD "" ≠ "" then
        some (RuleError.actionFailed type (error.getD "")) else none).toList) := by
    rw [if_neg hno, Option.toList_none, List.append_nil]
    exact h
  unfold Statistics.recordAction
  split
  · exact hsilent (by simp)
  · exact hsilent (by simp)
  · exact hsilent (by simp)
  · next e hne =>
    rw [if_pos ⟨rfl, hne⟩]
    exact Feeds.report h (.actionFailed type e)

/-- The error of a rule goes into the feed, and a failure without one has an error of its own. -/
theorem Feeds.recordRule (h : s.Feeds limit log) (now : Instant) (id : String) (time : τ)
    (matched success : Bool) (category : Option String) (error : Option RuleError) :
    (s.recordRule now id time matched success category error).Feeds limit
      (log ++ (error.or (if success then none else some (.ruleFailed id))).toList) := by
  unfold Statistics.recordRule
  cases error with
  | some e => exact Feeds.report h e
  | none =>
    cases success with
    | true => exact (List.append_nil log).symm ▸ h
    | false => exact Feeds.report h (.ruleFailed id)

/-- A rule that fails with an error, or does not fail, adds its error. -/
theorem Feeds.recordRule_isNone (h : s.Feeds limit log) (now : Instant) (id : String) (time : τ)
    (matched : Bool) (category : Option String) (error : Option RuleError) :
    (s.recordRule now id time matched error.isNone category error).Feeds limit
      (log ++ error.toList) := by
  have hfed := h.recordRule now id time matched error.isNone category error
  cases error <;> exact hfed

end Statistics

/-! ## Actions -/

/-- What the feed receives of an action: its failure, unless there is nothing to tell of it. -/
def ActionResult.report? (r : ActionResult) : Option RuleError :=
  if r.success = false ∧ r.error.getD "" ≠ "" then
    some (.actionFailed r.actionType (r.error.getD ""))
  else none

theorem FaultKind.name_ne_empty (k : FaultKind) : k.name ≠ "" := by
  cases k <;> decide

namespace Executor

variable {x : Executor} {c : Context} {s : EngineState} {limit : Nat} {log : List RuleError}

/-- Only an error of the engine can have an empty text. -/
theorem failureText_eq_empty_iff {f : Failure} :
    failureText f = "" ↔ ∃ e, f = .engine e ∧ e.message = "" := by
  cases f with
  | engine e => simp [failureText]
  | fault f =>
    have hname := f.kind.name_ne_empty
    simp only [failureText, reduceCtorEq, false_and, exists_false, iff_false]
    split_ifs with hmessage
    · exact hname
    · exact hmessage

/-- An action that failed has the text of its failure. -/
theorem settle_failed (report : Bool) {a : Action}
    (hfailed : (x.settle report c a s).1.success = false) :
    ∃ f, (x.execute a c (x.beforeAction c a s)).1 = .error f ∧
      (x.settle report c a s).1.error = some (failureText f) := by
  cases hmay : (x.mayRun a c s.surroundings).1 with
  | false =>
    rw [(settle_of_not x report c a s hmay).1] at hfailed
    cases hfailed
  | true =>
    have hresult : (x.settle report c a s).1 =
        resultOf a (x.execute a c (x.beforeAction c a s)).1 :=
      (settle_of_may x report c a s hmay).1
    rw [hresult] at hfailed ⊢
    cases hran : (x.execute a c (x.beforeAction c a s)).1 with
    | ok v =>
      rw [hran] at hfailed
      cases hfailed
    | error f => exact ⟨f, rfl, rfl⟩

/-- Recording the result of an action adds what there is to tell of it, if it is reported. -/
theorem record_feeds (report : Bool) {r : ActionResult} (hskipped : r.skipped → r.success)
    (h : s.statistics.Feeds limit log) : (record report r s).statistics.Feeds limit
      (log ++ if report then r.report?.toList else []) := by
  unfold record ActionResult.report?
  cases hs : r.skipped with
  | true =>
    have hsuccess : ¬(r.success = false ∧ r.error.getD "" ≠ "") := fun hf => by
      rw [hskipped hs] at hf
      cases hf.1
    rw [if_neg hsuccess, Option.toList_none, ite_self, List.append_nil]
    exact h
  | false =>
    have hrecorded := Statistics.Feeds.recordAction h r.actionType (0.0 : Float) r.success
      (if report then r.error else none)
    cases report with
    | true => exact hrecorded
    | false => simpa using hrecorded

theorem settle_feeds (report : Bool) (a : Action) (h : s.statistics.Feeds limit log) :
    (x.settle report c a s).2.statistics.Feeds limit
      (log ++ if report then (x.settle report c a s).1.report?.toList else []) := by
  unfold settle
  split
  · exact record_feeds report (fun _ => rfl) h
  · dsimp only
    generalize x.execute a c _ = ran
    obtain ⟨r, around⟩ := ran
    have hskipped : (resultOf a r).skipped → (resultOf a r).success := by cases r <;> nofun
    refine record_feeds report hskipped ?_
    cases r <;> exact h

theorem after_feeds (report : Bool) (actions : List Action) (h : s.statistics.Feeds limit log) :
    (x.after report c actions s).statistics.Feeds limit (log ++
      if report then (x.resultsInTurn report c actions s).filterMap ActionResult.report?
      else []) := by
  induction actions generalizing s log with
  | nil => simpa [resultsInTurn, after] using h
  | cons a rest ih =>
    have hrest := ih (settle_feeds (x := x) (c := c) report a h)
    rw [List.append_assoc] at hrest
    cases report with
    | false => exact hrest
    | true =>
      simp only [if_true] at hrest ⊢
      rw [resultsInTurn, List.filterMap_cons]
      cases hreport : (x.settle true c a s).1.report? <;> rw [hreport] at hrest <;> exact hrest

/-- How the failure of an action is reported: with its text, unless it is an error of the engine
    with an empty message. -/
structure Reported (x : Executor) (c : Context) (a : Action) (s : EngineState) (r : ActionResult) :
    Prop where
  id : r.actionId = a.id
  type : r.actionType = a.type
  succeeded : r.success = true → r.report? = none
  failed : r.success = false →
    ∃ f, (x.execute a c (x.beforeAction c a s)).1 = .error f ∧ r.error = some (failureText f) ∧
      ((∃ e, f = .engine e ∧ e.message = "") ∧ r.report? = none ∨
        (¬∃ e, f = .engine e ∧ e.message = "") ∧
          r.report? = some (.actionFailed a.type (failureText f)))

theorem settle_reported (report : Bool) (a : Action) (s : EngineState) :
    x.Reported c a s (x.settle report c a s).1 := by
  obtain ⟨hid, htype⟩ := settle_names x report c a s
  refine ⟨hid, htype, fun hsuccess => ?_, fun hfailed => ?_⟩
  · exact if_neg fun h => by simp [hsuccess] at h
  · obtain ⟨f, hf, herror⟩ := settle_failed report hfailed
    refine ⟨f, hf, herror, ?_⟩
    rw [ActionResult.report?, herror, htype, ← failureText_eq_empty_iff]
    by_cases hempty : failureText f = ""
    · exact .inl ⟨hempty, if_neg fun h => h.2 hempty⟩
    · exact .inr ⟨hempty, if_pos ⟨hfailed, hempty⟩⟩

/-- A batch without reports adds nothing to the feed. -/
theorem runBatch_quiet (actions : List Action) (h : s.statistics.Feeds limit log) :
    (x.runBatch false c actions s).2.statistics.Feeds limit log :=
  runBatch_keeps (P := fun s => s.statistics.Feeds limit log) x false c (fun _ _ hs => hs)
    (fun a _ hs => by simpa using settle_feeds false a hs) actions h

/-- What a batch with reports comes to, and what it adds to the feed: `turns` are its actions in the
    order of execution, and `rs` the results of those that it comes to. -/
structure Told (x : Executor) (c : Context) (s : EngineState) (limit : Nat) (log : List RuleError)
    (actions : List Action) (turns : List (Nat × Action)) (rs : List ActionResult) : Prop where
  order : ordered actions = .ok turns
  perm : turns.Perm (places actions)
  reported : ∀ (k i : Nat) (a : Action), turns[k]? = some (i, a) → k < rs.length →
    ∃ r, rs[k]? = some r ∧ x.Reported c a
      (x.after true c ((turns.take k).map (·.2)) (s.entered (bindings c s.heap))) r
  feed : (x.runBatch true c actions s).2.statistics.Feeds limit
    (log ++ rs.filterMap ActionResult.report?)
  /-- The batch gives all results in their places, or ends before an action whose guard has no
      time. -/
  ended : (rs.length = turns.length ∧ ∃ results, (x.runBatch true c actions s).1 = .ok results ∧
      ∀ (k i : Nat) (a : Action), turns[k]? = some (i, a) → results[i]? = rs[k]?) ∨
    ∃ i a f, turns[rs.length]? = some (i, a) ∧ x.guardFault? a = some f ∧
      (x.runBatch true c actions s).1 = .error f

/-- A batch with reports adds those of its actions, in the order of execution. -/
theorem runBatch_told (actions : List Action) (h : s.statistics.Feeds limit log) :
    (∃ f, x.runBatch true c actions s = (.error f, s)) ∨
      ∃ turns rs, x.Told c s limit log actions turns rs := by
  cases hturns : ordered actions with
  | error f => exact .inl ⟨f, runBatch_of_error x true c hturns s⟩
  | ok turns =>
    have hperm := ordered_perm hturns
    have hrun := runBatch_eq x true c hturns (ordered_length hturns) s
    have hstart := x.reached_eq_take (turns.map (·.2))
    let begun := s.entered (bindings c s.heap)
    have hlen : (x.resultsInTurn true c (x.reached (turns.map (·.2))) begun).length =
        (x.reached (turns.map (·.2))).length := resultsInTurn_length ..
    refine .inr ⟨turns, x.resultsInTurn true c (x.reached (turns.map (·.2))) begun, hturns, hperm,
      fun k i a hk hlt => ?_, ?_, ?_⟩
    · rw [hlen] at hlt
      refine ⟨_, ?_, settle_reported true a _⟩
      have hat : (x.reached (turns.map (·.2)))[k]? = some a := by
        rw [hstart, List.getElem?_take_of_lt hlt, List.getElem?_map, hk]
        rfl
      have hbefore : (x.reached (turns.map (·.2))).take k = (turns.take k).map (·.2) := by
        rw [hstart, List.take_take, min_eq_left hlt.le, List.map_take]
      rw [resultsInTurn_getElem?, hat, hbefore]
      rfl
    · rw [hrun]
      exact after_feeds (s := begun) true (x.reached (turns.map (·.2))) h
    · obtain ⟨hnone, hall⟩ | ⟨f, a, rest, hf, ha, hsplit⟩ := x.reached_cases (turns.map (·.2))
      · refine .inl ⟨by rw [hlen, hall, List.length_map], x.resultsInPlace true c turns begun,
          by rw [hrun, hnone], fun k i a hk => ?_⟩
        rw [resultsInPlace_of_places x true c hperm begun hk, hall, resultsInTurn_getElem?,
          List.getElem?_map, hk, ← List.map_take]
        rfl
      · have hat : (turns.map (·.2))[(x.reached (turns.map (·.2))).length]? = some a := by
          have hsome := congrArg (·[(x.reached (turns.map (·.2))).length]?) hsplit
          simpa using hsome
        rw [List.getElem?_map] at hat
        obtain ⟨⟨i, b⟩, hturn, rfl⟩ := Option.map_eq_some_iff.1 hat
        exact .inr ⟨i, b, f, by rw [hlen]; exact hturn, ha, by rw [hrun, hf]⟩

end Executor

/-! ## Rules -/

/-- What is told of the actions of a rule: nothing if all succeeded, else one error with the ids of
    the rule and of the first action that failed. Actions are run only if the rule matched. -/
structure RuleResult.Reports (rule : Rule) (r : RuleResult) : Prop where
  id : r.rule = rule.id
  idle : r.matched = false → r.actions = []
  quiet : r.error = none ↔ ∀ a ∈ r.actions, a.success = true
  failed : ∀ a others, r.actions.filter (!·.success) = a :: others →
    ∃ e, r.error = some e ∧ e.code = "ACTION_FAILED" ∧ e.ruleId = .text rule.id ∧
      e.actionId = a.actionId

namespace RuleResult

theorem errorOf_eq_none_iff {rule : Rule} {actions : List ActionResult} :
    errorOf rule actions = none ↔ ∀ a ∈ actions, a.success = true := by
  have hfilter : errorOf rule actions = none ↔ actions.filter (!·.success) = [] := by
    unfold errorOf
    split
    · next h => simp [h]
    · next h => simp [h]
  rw [hfilter, List.filter_eq_nil_iff]
  simp

theorem success_eq_isNone (rule : Rule) (matched : Bool) (actions : List ActionResult) :
    (ofActions rule matched actions).success = (errorOf rule actions).isNone := by
  rw [success_ofActions, Bool.eq_iff_iff, List.all_eq_true, Option.isNone_iff_eq_none,
    errorOf_eq_none_iff]

theorem ofActions_reports (rule : Rule) {matched : Bool} {actions : List ActionResult}
    (hidle : matched = false → actions = []) : Reports rule (ofActions rule matched actions) where
  id := rfl
  idle := hidle
  quiet := errorOf_eq_none_iff
  failed a others h := by
    refine ⟨.actionsFailed rule.id rule.name a.actionId (a.error.getD "")
      (others.map (·.actionId)), ?_, rfl, rfl, rfl⟩
    have hfailed : actions.filter (!·.success) = a :: others := h
    rw [ofActions, errorOf, hfailed]

end RuleResult

namespace Engine

variable {x : Engine} {c : Context} {s t : EngineState} {limit : Nat} {log : List RuleError}
  {rule : Rule} {rules : List Rule} {results : List RuleResult}

theorem runRule_reports {r : RuleResult} (hone : x.runRule c rule s = (.ok r, t)) :
    r.Reports rule := by
  obtain ⟨f, hf⟩ | ⟨actions, u, hr, hidle, -⟩ := runRule_cases x c rule s
  · cases hf.symm.trans hone
  · cases hr.symm.trans hone
    exact RuleResult.ofActions_reports rule hidle

/-- A rule that comes to a result adds its error to the feed. -/
theorem runRule_feeds {r : RuleResult} (hone : x.runRule c rule s = (.ok r, t))
    (h : s.statistics.Feeds limit log) : t.statistics.Feeds limit (log ++ r.error.toList) := by
  obtain ⟨f, hf⟩ | ⟨actions, u, hr, -, hleft⟩ := runRule_cases x c rule s
  · cases hf.symm.trans hone
  · cases hr.symm.trans hone
    have hquiet : u.statistics.Feeds limit log := by
      rcases hleft with rfl | rfl
      · exact h
      · exact Executor.runBatch_quiet (s := x.tested c rule s) rule.actions h
    dsimp only [record]
    rw [RuleResult.success_eq_isNone]
    exact hquiet.recordRule_isNone ..

/-- A rule that ends in a fault adds nothing. -/
theorem runRule_feeds_of_error {f : Fault} (hone : x.runRule c rule s = (.error f, t))
    (h : s.statistics.Feeds limit log) : t.statistics.Feeds limit log := by
  obtain ⟨f', hf⟩ | ⟨actions, u, hr, -⟩ := runRule_cases x c rule s
  · cases hf.symm.trans hone
    exact Executor.runBatch_quiet (s := x.tested c rule s) rule.actions h
  · cases hr.symm.trans hone

namespace Runs

/-- Rules add their errors to the feed, one after the other. -/
theorem feeds (hruns : x.Runs c rules s results t) (h : s.statistics.Feeds limit log) :
    t.statistics.Feeds limit (log ++ results.filterMap (·.error)) := by
  induction hruns generalizing log with
  | nil => simpa using h
  | @cons rule rules s t u r results one rest ih =>
    have hrest := ih (runRule_feeds one h)
    rw [List.append_assoc] at hrest
    rw [List.filterMap_cons]
    cases herror : r.error <;> rw [herror] at hrest <;> exact hrest

theorem reports (hruns : x.Runs c rules s results t) :
    List.Forall₂ RuleResult.Reports rules results := by
  induction hruns with
  | nil => exact .nil
  | cons one _ ih => exact .cons (runRule_reports one) ih

end Runs

/-! ## Runs of rules -/

/-- What a run of rules does and what it adds to the feed: within the scope of the log context that it
    binds, some enabled rules are run, from the first in order on, and each adds the error that it
    tells of its actions, if it tells one. A run that gives results gives those of all of them. -/
def Feeding (x : Engine) (c : Context) (group : Option String) (rules : List Rule) (s : EngineState)
    (limit : Nat) (log : List RuleError) (run : Except Failure GroupResult × EngineState) : Prop :=
  ∃ evaluated results t, evaluated <+: (ordered rules).toOption.getD [] ∧
    x.Runs c evaluated (s.entered (bindings c group s.heap)) results t ∧
    List.Forall₂ RuleResult.Reports evaluated results ∧
    (∀ r, run.1 = .ok r → r.rules = results ∧
      run.2 = s.leaving t (bindings c group s.heap)) ∧
    run.2.statistics.Feeds limit (log ++ results.filterMap (·.error))

theorem Feeding.error (group : Option String) (rules : List Rule) (h : s.statistics.Feeds limit log)
    (e : Failure) : x.Feeding c group rules s limit log (.error e, s) :=
  ⟨[], [], _, List.nil_prefix, .nil _, .nil, nofun, by simpa using h⟩

theorem runRules_feeding (mode : Data) (group : Option String) (rules : List Rule)
    (h : s.statistics.Feeds limit log) :
    x.Feeding c group rules s limit log (x.runRules c mode group rules s) := by
  rw [runRules]
  cases readMode mode with
  | error e => exact .error group rules h e
  | ok m =>
    dsimp only
    cases ho : ordered rules with
    | error f =>
      rw [runIn, ho]
      exact .error group rules h (.fault f)
    | ok inOrder =>
      have hstarts := runBy_starts x c m inOrder (s.entered (bindings c group s.heap))
      obtain ⟨evaluated, results, t, hstart, hruns, hend⟩ := hstarts
      have hfeeds : t.statistics.Feeds limit (log ++ results.filterMap (·.error)) := hruns.feeds h
      refine ⟨evaluated, results, t, by rwa [ho], hruns, hruns.reports, ?_⟩
      rw [runIn_eq x c ho]
      generalize x.runBy c m inOrder (s.entered (bindings c group s.heap)) = run at hend
      obtain rfl | ⟨rule, -, f, hfault, hf⟩ := hend
      · exact ⟨fun r hr => by cases hr; exact ⟨rfl, rfl⟩, hfeeds⟩
      · dsimp only
        rw [hf]
        refine ⟨fun r hr => ?_, runRule_feeds_of_error (t := run.2) hfault hfeeds⟩
        cases hr

theorem runGroup_feeding (stored : Keyed String Rule) (g : Group)
    (h : s.statistics.Feeds limit log) :
    x.Feeding c (some g.id) (resolveMembers stored (g.members.getD [])).1 s limit log
      (x.runGroup c stored g s) := by
  rw [runGroup]
  cases g.members with
  | none => exact .error _ _ h _
  | some ids =>
    have hfeeding :=
      runRules_feeding (x := x) (c := c) g.mode (some g.id) (resolveMembers stored ids).1 h
    rw [Option.getD_some]
    dsimp only
    generalize x.runRules c g.mode (some g.id) (resolveMembers stored ids).1 s = run at hfeeding ⊢
    obtain ⟨evaluated, results, t, hstart, hruns, hreports, hok, hfeeds⟩ := hfeeding
    rcases run with ⟨_ | r, u⟩
    · exact ⟨evaluated, results, t, hstart, hruns, hreports, nofun, hfeeds⟩
    · exact ⟨evaluated, results, t, hstart, hruns, hreports,
        fun r' hr' => by cases hr'; exact hok r rfl, hfeeds⟩

/-- **Failures reach the feed, unless they have no text.** A batch with reports adds one error for
    each action that failed, in the order of execution and with its text; only an action that ends
    in an error of the engine with an empty message adds none. Rules that are given or that a group
    names add one error for each rule with an action that failed, with the ids of both, and none for
    the actions. The feed holds the newest of all. -/
theorem runs_feed (x : Engine) (c : Context) (h : s.statistics.Feeds limit log) :
    (∀ actions, (∃ f, x.executor.runBatch true c actions s = (.error f, s)) ∨
      ∃ turns rs, x.executor.Told c s limit log actions turns rs) ∧
      (∀ mode group rules, x.Feeding c group rules s limit log (x.runRules c mode group rules s)) ∧
      ∀ stored (g : Group),
        x.Feeding c (some g.id) (resolveMembers stored (g.members.getD [])).1 s limit log
          (x.runGroup c stored g s) :=
  ⟨fun actions => Executor.runBatch_told actions h, fun mode group rules =>
    runRules_feeding mode group rules h, fun stored g => runGroup_feeding stored g h⟩

/-- Two actions fail, one of them with an empty message: the feed receives one error. -/
theorem runs_feed_silent :
    let failing (message : String) : Handler :=
      { check := fun _ => pure (), run := fun _ _ _ => Act.refuse message }
    let silent : Action := { id := .text "a", type := "SILENT", order := .int 1 }
    let telling : Action := { id := .text "b", type := "TELLING", order := .int 2 }
    let executor := ((⟨{}, {}⟩ : Executor).register "SILENT" (failing "")).register "TELLING"
      (failing "down")
    let c : Context := ⟨.null, .null, .null, .null, .null, .null⟩
    let s : EngineState :=
      { surroundings :=
          { breakers := { settings := { recovery := 30.0 } }, clock := fun _ => 0.0, replies := [] }
        statistics := { errorLimit := 5, total := Record.fresh }
        metrics := none, clock := ⟨0, 0⟩ }
    s.statistics.Feeds 5 [] ∧
      (∃ turns rs, executor.Told c s 5 [] [telling, silent] turns rs) ∧
      (executor.runBatch true c [telling, silent] s).1.toOption.map (·.map (·.success)) =
        some [false, false] ∧
      (executor.runBatch true c [telling, silent] s).2.statistics.feed.map
        (fun e => (e.code, e.message)) = [("ACTION_FAILED", "down")] := by
  intro failing silent telling executor c s
  have hfresh : s.statistics.Feeds 5 [] := ⟨rfl, rfl⟩
  have hresults : (executor.runBatch true c [telling, silent] s).1.toOption.map
      (·.map (·.success)) = some [false, false] := by decide +kernel
  refine ⟨hfresh, ?_, hresults, by decide +kernel⟩
  obtain ⟨f, hf⟩ | htold :=
    (runs_feed { executor, tests := {} } c hfresh).1 [telling, silent]
  · rw [hf] at hresults
    cases hresults
  · exact htold

end Engine

end Rulebook
