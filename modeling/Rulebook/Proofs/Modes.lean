/-
  The modes of a run agree.

  Whatever the mode, the enabled rules are taken in stable ascending order of their priorities, and
  every rule comes to a result, on what those before it left.  Running all of them and running those
  up to the first match is one run, of which the second is a start; up to there nothing is written.

  * `Runs`: what it is to run rules one after the other, and `Runs.split`: a start of such a run;
  * `runEach_runs`, `runFirst_runs`: the modes in these terms;
  * `Runs.first_match`: the first match is decided by what is there at the start;
  * `runBy_starts`: a run that comes to no end has run some rules, too;
  * `runRules_agree`: all modes on the same rules and state.
-/
import Rulebook.Engine
import Rulebook.Proofs.Batch
import Rulebook.Proofs.Conditions

namespace Rulebook

namespace Rule

/-- The priority of a rule as a whole number, zero if it is none. -/
def rank (rule : Rule) : Int :=
  match rule.priority.number? with
  | some (.int n) => n
  | _ => 0

/-- The priority of a rule and the orders of its actions are whole numbers. -/
structure Ranked (rule : Rule) : Prop where
  priority : rule.priority.number? = some (.int rule.rank)
  actions : ∀ a ∈ rule.actions, a.Ranked

/-- Quiet tests leave the surroundings of a rule as they are. -/
theorem holds_snd {tests : Tests} (hquiet : tests.Quiet) (rule : Rule) (c : Context)
    (s : Surroundings) : (rule.holds tests c s).2 = s := by
  rw [holds, Combination.holds_eq hquiet]

/-- There is time for all guards of a rule. -/
def Timed (x : Executor) (rule : Rule) : Prop :=
  ∀ a ∈ rule.actions, x.guardFault? a = none

end Rule

namespace Engine

variable (x : Engine) (c : Context)

/-! ## One rule after the other -/

/-- Rules are run one after the other, each to its result and on what those before it left. -/
inductive Runs : List Rule → EngineState → List RuleResult → EngineState → Prop where
  | nil (s : EngineState) : Runs [] s [] s
  | cons {rule : Rule} {rules : List Rule} {s t u : EngineState} {r : RuleResult}
      {rs : List RuleResult} (one : x.runRule c rule s = (.ok r, t)) (rest : Runs rules t rs u) :
      Runs (rule :: rules) s (r :: rs) u

/-- What a rule leaves whose conditions have been tested. -/
def tested (rule : Rule) (s : EngineState) : EngineState :=
  { s with surroundings := (rule.holds x.tests c s.surroundings).2 }

theorem runRule_eq (rule : Rule) (s : EngineState) : x.runRule c rule s =
    x.finishRule c rule (rule.holds x.tests c s.surroundings).1 (x.tested c rule s) :=
  rfl

/-- A rule comes to a result; one that does not match leaves what quiet tests leave. -/
theorem runRule_ok {rule : Rule} (h : rule.Ranked) (ht : rule.Timed x.executor) (s : EngineState) :
    ∃ r t, x.runRule c rule s = (.ok r, t) ∧
      r.matched = (rule.holds x.tests c s.surroundings).1 ∧
      (x.tests.Quiet → r.matched = false → t.surroundings = s.surroundings) := by
  obtain ⟨turns, ho, hturns⟩ := Executor.ordered_inTurn h.actions
  have hnone := Executor.batchFault?_of_perm x.executor hturns.snd_perm ht
  have hbatch := Executor.runBatch_of_none x.executor false c ho hturns.length_eq hnone
  rw [runRule_eq, finishRule]
  by_cases hm : ((rule.holds x.tests c s.surroundings).1 && !rule.actions.isEmpty) = true
  · rw [if_pos hm, hbatch]
    refine ⟨_, _, rfl, rfl, fun _ hno => ?_⟩
    exact absurd ((Bool.and_eq_true_iff.1 hm).1.symm.trans hno) (by simp)
  · rw [if_neg hm]
    exact ⟨_, _, rfl, rfl, fun hquiet _ => rule.holds_snd hquiet c s.surroundings⟩

theorem runEach_runs {rules : List Rule} (h : ∀ rule ∈ rules, rule.Ranked)
    (ht : ∀ rule ∈ rules, rule.Timed x.executor) (s : EngineState) :
    ∃ results t, x.runEach c rules s = (.ok results, t) ∧ x.Runs c rules s results t := by
  induction rules generalizing s with
  | nil => exact ⟨[], s, rfl, .nil s⟩
  | cons rule rules ih =>
    obtain ⟨hrule, hrules⟩ := List.forall_mem_cons.1 h
    obtain ⟨htrule, htrules⟩ := List.forall_mem_cons.1 ht
    obtain ⟨r, t, hone, -⟩ := runRule_ok x c hrule htrule s
    obtain ⟨rs, u, hrest, hruns⟩ := ih hrules htrules t
    refine ⟨r :: rs, u, ?_, .cons hone hruns⟩
    rw [runEach, hone]
    simp only [hrest]

namespace Runs

variable {x c} {rules : List Rule} {s t : EngineState} {results : List RuleResult}

theorem length_eq (h : x.Runs c rules s results t) : results.length = rules.length := by
  induction h with
  | nil => rfl
  | cons _ _ ih => rw [List.length_cons, List.length_cons, ih]

/-- A run goes through what its start leaves, and goes on from there. -/
theorem split (h : x.Runs c rules s results t) (n : Nat) :
    ∃ u, x.Runs c (rules.take n) s (results.take n) u ∧
      x.Runs c (rules.drop n) u (results.drop n) t := by
  induction h generalizing n with
  | nil s => exact ⟨s, by simpa using nil s, by simpa using nil s⟩
  | @cons rule rules s t u r rs one rest ih =>
    cases n with
    | zero => exact ⟨s, nil s, cons one rest⟩
    | succ n =>
      obtain ⟨v, hstart, hend⟩ := ih n
      exact ⟨v, cons one hstart, hend⟩

theorem unique (h : x.Runs c rules s results t) {results' : List RuleResult} {t' : EngineState}
    (h' : x.Runs c rules s results' t') : results' = results ∧ t' = t := by
  induction h generalizing results' t' with
  | nil s =>
    cases h'
    exact ⟨rfl, rfl⟩
  | cons one rest ih =>
    cases h' with
    | cons one' rest' =>
      cases one.symm.trans one'
      obtain ⟨rfl, rfl⟩ := ih rest'
      exact ⟨rfl, rfl⟩

/-- The first rule to match is the first whose conditions hold at the start. -/
theorem first_match (h : x.Runs c rules s results t) (hr : ∀ rule ∈ rules, rule.Ranked)
    (ht : ∀ rule ∈ rules, rule.Timed x.executor) (hquiet : x.tests.Quiet) :
    rules[results.findIdx (·.matched)]? =
      rules.find? fun rule => (rule.holds x.tests c s.surroundings).1 := by
  induction h with
  | nil => rfl
  | @cons rule rules s t u r rs one rest ih =>
    obtain ⟨hrule, hrules⟩ := List.forall_mem_cons.1 hr
    obtain ⟨htrule, htrules⟩ := List.forall_mem_cons.1 ht
    obtain ⟨r', t', hone, hmatched, hsame⟩ := runRule_ok x c hrule htrule s
    cases one.symm.trans hone
    rw [List.findIdx_cons, List.find?_cons, ← hmatched]
    cases hm : r.matched with
    | true => rfl
    | false => simpa [hsame hquiet hm] using ih hrules htrules

/-- Running rules up to the first match is a start of running all of them. -/
theorem runFirst (h : x.Runs c rules s results t) :
    ∃ u, x.runFirst c rules s = (.ok (results.take (results.findIdx (·.matched) + 1)), u) ∧
      x.Runs c (rules.take (results.findIdx (·.matched) + 1)) s
        (results.take (results.findIdx (·.matched) + 1)) u := by
  induction h with
  | nil s => exact ⟨s, rfl, nil s⟩
  | @cons rule rules s t u r rs one rest ih =>
    rw [Engine.runFirst, one, List.findIdx_cons]
    cases hm : r.matched with
    | true => exact ⟨t, by simp [hm], cons one (nil t)⟩
    | false =>
      obtain ⟨v, hfirst, hruns⟩ := ih
      refine ⟨v, ?_, cons one hruns⟩
      simp [hm, hfirst]

end Runs

/-! ## Rules in order -/

theorem ordered_stable {rules : List Rule} (h : ∀ rule ∈ rules, rule.enabled → rule.Ranked) :
    ∃ inOrder, ordered rules = .ok inOrder ∧
      Sorting.Stable Rule.rank (rules.filter (·.enabled)) inOrder := by
  refine Sorting.sort_stable (P := Rule.Ranked)
    (fun a b ha hb => Data.compareBy_of_whole ha.priority hb.priority) fun rule hrule => ?_
  obtain ⟨hmem, henabled⟩ := List.mem_filter.1 hrule
  exact h rule hmem henabled

theorem runIn_eq {rules inOrder : List Rule} (h : ordered rules = .ok inOrder) (mode : Mode)
    (group : Option String) (s : EngineState) :
    let bound := bindings c group s.heap
    x.runIn c mode group rules s =
      ((x.runBy c mode inOrder (s.entered bound)).1.map (resultOf group mode),
        s.leaving (x.runBy c mode inOrder (s.entered bound)).2 bound) := by
  intro bound
  rw [runIn, h]
  rfl

/-! ## Runs that may not come to their end -/

/-- Once its conditions have been tested, a rule runs its actions, if it runs them. Then the fault
    that they end in is its own, or what they come to is recorded. -/
theorem runRule_cases (rule : Rule) (s : EngineState) :
    (∃ f, x.runRule c rule s =
      (.error f, (x.executor.runBatch false c rule.actions (x.tested c rule s)).2)) ∨
    ∃ actions t, x.runRule c rule s =
        (.ok (.ofActions rule (rule.holds x.tests c s.surroundings).1 actions),
          record rule (.ofActions rule (rule.holds x.tests c s.surroundings).1 actions) t) ∧
      ((rule.holds x.tests c s.surroundings).1 = false → actions = []) ∧
      (t = x.tested c rule s ∨
        t = (x.executor.runBatch false c rule.actions (x.tested c rule s)).2) := by
  rw [runRule_eq, finishRule]
  by_cases hm : ((rule.holds x.tests c s.surroundings).1 && !rule.actions.isEmpty) = true
  · rw [if_pos hm]
    obtain ⟨hholds, -⟩ := Bool.and_eq_true_iff.1 hm
    generalize x.executor.runBatch false c rule.actions (x.tested c rule s) = run
    obtain ⟨f | actions, t⟩ := run
    · exact .inl ⟨f, rfl⟩
    · exact .inr ⟨actions, t, rfl, fun hno => absurd (hholds.symm.trans hno) (by simp), .inr rfl⟩
  · rw [if_neg hm]
    exact .inr ⟨[], _, rfl, fun _ => rfl, .inl rfl⟩

/-- Running rules has run those up to some point and gives their results, if it comes to its end. If
    not, the next rule ends in a fault. -/
def Starts (rules : List Rule) (s : EngineState)
    (run : Except Fault (List RuleResult) × EngineState) : Prop :=
  ∃ evaluated results t, evaluated <+: rules ∧ x.Runs c evaluated s results t ∧
    (run = (.ok results, t) ∨ ∃ rule ∈ rules, ∃ f, x.runRule c rule t = (.error f, run.2) ∧
      run.1 = .error f)

namespace Starts

variable {x c} {rule : Rule} {rules : List Rule} {s t : EngineState}
  {run : Except Fault (List RuleResult) × EngineState}

theorem error {f : Fault} (hone : x.runRule c rule s = (.error f, t)) (rules : List Rule) :
    x.Starts c (rule :: rules) s (.error f, t) :=
  ⟨[], [], s, List.nil_prefix, .nil s, .inr ⟨rule, List.mem_cons_self, f, hone, rfl⟩⟩

theorem one {r : RuleResult} (hone : x.runRule c rule s = (.ok r, t)) (rules : List Rule) :
    x.Starts c (rule :: rules) s (.ok [r], t) :=
  ⟨[rule], [r], t, (List.prefix_cons_inj rule).2 List.nil_prefix, .cons hone (.nil t), .inl rfl⟩

theorem cons {r : RuleResult} (hone : x.runRule c rule s = (.ok r, t))
    (h : x.Starts c rules t run) :
    x.Starts c (rule :: rules) s (run.1.map (r :: ·), run.2) := by
  obtain ⟨evaluated, results, u, hstart, hruns, hend⟩ := h
  refine ⟨rule :: evaluated, r :: results, u, (List.prefix_cons_inj rule).2 hstart,
    .cons hone hruns, ?_⟩
  obtain rfl | ⟨rule', hmem, f, hfault, hf⟩ := hend
  · exact .inl rfl
  · exact .inr ⟨rule', List.mem_cons_of_mem rule hmem, f, hfault, by rw [hf]; rfl⟩

end Starts

theorem runEach_starts (rules : List Rule) (s : EngineState) :
    x.Starts c rules s (x.runEach c rules s) := by
  induction rules generalizing s with
  | nil => exact ⟨[], [], s, List.prefix_rfl, .nil s, .inl rfl⟩
  | cons rule rules ih =>
    rw [runEach]
    rcases hone : x.runRule c rule s with ⟨f | r, t⟩
    · exact .error hone rules
    · have hrest := Starts.cons hone (ih t)
      dsimp only
      generalize x.runEach c rules t = run at hrest ⊢
      rcases run with ⟨_ | rs, u⟩ <;> exact hrest

theorem runFirst_starts (rules : List Rule) (s : EngineState) :
    x.Starts c rules s (x.runFirst c rules s) := by
  induction rules generalizing s with
  | nil => exact ⟨[], [], s, List.prefix_rfl, .nil s, .inl rfl⟩
  | cons rule rules ih =>
    rw [runFirst]
    rcases hone : x.runRule c rule s with ⟨f | r, t⟩
    · exact .error hone rules
    · have hrest := Starts.cons hone (ih t)
      dsimp only
      split
      · exact .one hone rules
      · generalize x.runFirst c rules t = run at hrest ⊢
        rcases run with ⟨_ | rs, u⟩ <;> exact hrest

/-- Whether or not it comes to its end, a run in a mode has run rules up to some point. -/
theorem runBy_starts (mode : Mode) (rules : List Rule) (s : EngineState) :
    x.Starts c rules s (x.runBy c mode rules s) := by
  cases mode with
  | all => exact runEach_starts x c rules s
  | any => exact runEach_starts x c rules s
  | firstMatch => exact runFirst_starts x c rules s

/-! ## All modes -/

/-- However a mode is named, rules come to a result in it and leave a state. -/
def Gives (group : Option String) (rules : List Rule) (s : EngineState) (r : GroupResult)
    (t : EngineState) : Prop :=
  ∀ d, Mode.ofData? d = some r.mode → x.runRules c d group rules s = (.ok r, t)

theorem gives_of_runBy {rules inOrder : List Rule} (h : ordered rules = .ok inOrder) {mode : Mode}
    {group : Option String} {s t : EngineState} {results : List RuleResult}
    (hrun : x.runBy c mode inOrder (s.entered (bindings c group s.heap)) = (.ok results, t)) :
    x.Gives c group rules s (resultOf group mode results)
      (s.leaving t (bindings c group s.heap)) := fun d hd => by
  have hmode : readMode d = .ok mode := by
    rw [readMode, hd]
    rfl
  rw [runRules, hmode]
  simp only [runIn_eq x c h, hrun]
  rfl

/-- How the modes agree on rules, within the scope of the log context that `bound` binds: `inOrder`
    are those that run, `results` what they come to if all do, `n` how many do up to the first match,
    `t` what all leave and `u` what these leave. -/
structure Agreement (group : Option String) (rules : List Rule) (s : EngineState)
    (bound : List (LogKey × Data)) (inOrder : List Rule) (results : List RuleResult) (n : Nat)
    (t u : EngineState) : Prop where
  order : Sorting.Stable Rule.rank (rules.filter (·.enabled)) inOrder
  upTo : n = results.findIdx (·.matched) + 1
  start : x.Runs c (inOrder.take n) (s.entered bound) (results.take n) u
  rest : x.Runs c (inOrder.drop n) u (results.drop n) t
  all : x.Gives c group rules s (resultOf group .all results) (s.leaving t bound)
  any : x.Gives c group rules s (resultOf group .any results) (s.leaving t bound)
  first : x.Gives c group rules s (resultOf group .firstMatch (results.take n)) (s.leaving u bound)
  all_matched : (resultOf group .all results).matched = true ↔
    (∃ rule ∈ rules, rule.enabled = true) ∧ ∀ r ∈ results, r.matched = true
  any_matched : (resultOf group .any results).matched = true ↔ ∃ r ∈ results, r.matched = true
  first_match : x.tests.Quiet → inOrder[results.findIdx (·.matched)]? =
    inOrder.find? fun rule => (rule.holds x.tests c (s.entered bound).surroundings).1

/-- **The modes agree.** Whether all or some rules have to match, the same rules run to the same
    results and leave the same state; running rules up to the first match is a start of this, and
    the first match is the first rule in order whose conditions hold at the start, if their tests
    are quiet. Rules that are not enabled make no difference. -/
theorem runRules_agree (group : Option String) (rules : List Rule) (s : EngineState)
    (h : ∀ rule ∈ rules, rule.enabled = true → rule.Ranked)
    (ht : ∀ rule ∈ rules, rule.enabled = true → rule.Timed x.executor) :
    (∃ inOrder results n t u,
      x.Agreement c group rules s (bindings c group s.heap) inOrder results n t u) ∧
      ∀ rules' d, rules'.filter (·.enabled) = rules.filter (·.enabled) →
        x.runRules c d group rules' s = x.runRules c d group rules s := by
  refine ⟨?_, fun rules' d heq => by simp only [runRules, runIn, ordered, heq]⟩
  obtain ⟨inOrder, ho, hstable⟩ := ordered_stable h
  have hof {P : Rule → Prop} (hP : ∀ rule ∈ rules, rule.enabled = true → P rule) :
      ∀ rule ∈ inOrder, P rule := fun rule hrule => by
    obtain ⟨hmem, henabled⟩ := List.mem_filter.1 (hstable.mem_iff.1 hrule)
    exact hP rule hmem henabled
  obtain ⟨results, t, heach, hruns⟩ :=
    runEach_runs x c (hof h) (hof ht) (s.entered (bindings c group s.heap))
  obtain ⟨u, hfirst, hstart⟩ := hruns.runFirst
  obtain ⟨v, hstart', hrest⟩ := hruns.split (results.findIdx (·.matched) + 1)
  obtain ⟨-, rfl⟩ := hstart.unique hstart'
  have hsome : results = [] ↔ ∀ rule ∈ rules, rule.enabled = false := by
    rw [← List.length_eq_zero_iff, hruns.length_eq, hstable.perm.length_eq,
      List.length_eq_zero_iff, List.filter_eq_nil_iff]
    simp
  exact ⟨inOrder, results, _, t, _,
    { order := hstable
      upTo := rfl
      start := hstart
      rest := hrest
      all := gives_of_runBy x c ho heach
      any := gives_of_runBy x c ho heach
      first := gives_of_runBy x c ho hfirst
      all_matched := by
        simp only [resultOf, matchedBy, Bool.and_eq_true, Bool.not_eq_true',
          List.isEmpty_eq_false_iff, ne_eq, hsome, List.all_eq_true]
        simp
      any_matched := List.any_eq_true
      first_match := hruns.first_match (hof h) (hof ht) }⟩

theorem runRules_agree_three :
    let late : Rule := { id := "a", name := "Late", priority := .int 2 }
    let off : Rule := { id := "b", name := "Off", enabled := false }
    let early : Rule := { id := "c", name := "Early", priority := .int 1 }
    let x : Engine := { executor := { config := {}, handlers := {} }, tests := standardTests }
    let c : Context := ⟨.null, .null, .null, .null, .null, .null⟩
    let s : EngineState :=
      { surroundings :=
          { breakers := { settings := { recovery := 30.0 } }, clock := fun _ => 0.0, replies := [] }
        statistics := { errorLimit := 5, total := Record.fresh }
        metrics := none, clock := ⟨0, 0⟩ }
    (∀ rule ∈ [late, off, early], rule.enabled = true → rule.Ranked) ∧
      (∀ rule ∈ [late, off, early], rule.enabled = true → rule.Timed x.executor) ∧
      x.tests.Quiet ∧
      ∃ bound results t u,
        x.Agreement c none [late, off, early] s bound [early, late] results 1 t u := by
  intro late off early x c s
  have hranked : ∀ rule ∈ [late, off, early], rule.enabled = true → rule.Ranked := by
    have hone (rule : Rule) (hp : rule.priority.number? = some (.int rule.rank))
        (ha : rule.actions = []) : rule.Ranked := ⟨hp, by simp [ha]⟩
    simp only [List.mem_cons, List.not_mem_nil, or_false]
    rintro rule (rfl | rfl | rfl) -
    · exact hone late rfl rfl
    · exact hone off rfl rfl
    · exact hone early rfl rfl
  have htimed : ∀ rule ∈ [late, off, early], rule.enabled = true → rule.Timed x.executor := by
    have hone (rule : Rule) (ha : rule.actions = []) : rule.Timed x.executor := by
      simp [Rule.Timed, ha]
    simp only [List.mem_cons, List.not_mem_nil, or_false]
    rintro rule (rfl | rfl | rfl) - <;> exact hone _ rfl
  have hquiet : x.tests.Quiet := standardTests_quiet
  refine ⟨hranked, htimed, hquiet, ?_⟩
  obtain ⟨⟨inOrder, results, n, t, u, hagree⟩, -⟩ := runRules_agree x c none _ s hranked htimed
  have hsorted : Sorting.Stable Rule.rank [early, late] [early, late] := .refl (by decide)
  have horder : inOrder = [early, late] :=
    hagree.order.eq_of_perm hsorted (.swap _ _ _) (by decide)
  have hfirst := hagree.first_match hquiet
  rw [horder] at hfirst
  have hzero : results.findIdx (·.matched) = 0 := by
    have hfound : [early, late][results.findIdx (·.matched)]? = some early := hfirst
    generalize results.findIdx (·.matched) = i at hfound
    match i with
    | 0 => rfl
    | 1 => exact absurd (congrArg (Option.map Rule.id) hfound) (by decide)
    | i + 2 => cases hfound
  have hn : n = 1 := by rw [hagree.upTo, hzero]
  exact ⟨_, results, t, u, hn ▸ horder ▸ hagree⟩

end Engine

end Rulebook
