/-
  What metrics and statistics count.

  Results are recorded twice, once by the metrics that monitoring collects and once by the
  statistics of the engine, and neither knows of the other.  Both count the same results, of rules
  (`RuleCounts`) and of actions (`ActionCounts`), and recording a result in both keeps it so.

  * `Keyed.sum_put`: what a `put` adds to a sum over all values;
  * `RuleCounts.record`, `ActionCounts.record`: one more result.
-/
import Mathlib.Data.List.Count
import Mathlib.Tactic.SplitIfs
import Rulebook.Rule

namespace Rulebook

/-! ## Sums over values -/

namespace Keyed

variable {κ α : Type} [DecidableEq κ]

/-- The sum of a number over all values. -/
def sum (f : α → Nat) (m : Keyed κ α) : Nat :=
  m.entries.foldr (fun e n => f e.2 + n) 0

theorem sum_insert {f : α → Nat} {es : List (κ × α)} {k : κ} {a : α} {n : Nat}
    (h : f a = ((find? k es).map f).getD 0 + n) :
    (insert k a es).foldr (fun e n => f e.2 + n) 0 = es.foldr (fun e n => f e.2 + n) 0 + n := by
  induction es with
  | nil => simpa [insert, find?] using h
  | cons e es ih =>
    rw [find?] at h
    rw [insert]
    split_ifs with he
    · rw [if_pos he, Option.map_some, Option.getD_some] at h
      simp only [List.foldr_cons, h]
      omega
    · rw [if_neg he] at h
      simp only [List.foldr_cons, ih h]
      omega

/-- A `put` adds what the new value has more than the one that it replaces. -/
theorem sum_put {f : α → Nat} {m : Keyed κ α} {k : κ} {a : α} {n : Nat}
    (h : f a = ((m.get? k).map f).getD 0 + n) : (m.put k a).sum f = m.sum f + n :=
  sum_insert h

theorem mem_keys_put {m : Keyed κ α} {k l : κ} {a : α} :
    l ∈ (m.put k a).keys ↔ l ∈ m.keys ∨ l = k := by
  by_cases hk : k ∈ m.keys
  · rw [keys_put_of_mem _ _ hk]
    exact ⟨.inl, fun h => h.elim (·) fun heq => heq ▸ hk⟩
  · rw [keys_put_of_not_mem _ _ hk, List.mem_append, List.mem_singleton]

end Keyed

theorem Tally.count_add {κ : Type} [DecidableEq κ] (t : Tally κ) (k l : κ) :
    (t.add k).count l = t.count l + if k = l then 1 else 0 := by
  split_ifs with h
  · rw [← h, count_add_self]
  · exact count_add_of_ne t (Ne.symm h)

/-! ## Histograms -/

namespace Histogram

variable {τ : Type} [Quantity τ]

/-- What has an order is counted. -/
theorem count_observe {x : τ} (hx : (bucket? x).isSome) (h : Histogram τ) :
    (h.observe x).count = h.count + 1 := by
  obtain ⟨b, hb⟩ := Option.isSome_iff_exists.1 hx
  rw [count, observe, hb]
  exact Tally.total_add h.buckets b

end Histogram

theorem ActionStatus.name_injective : Function.Injective ActionStatus.name := by
  intro s s' h
  cases s <;> cases s' <;> first | rfl | exact absurd h (by decide)

/-! ## Records of rules -/

/-- Statistics of a rule are those that were put, or what they were. -/
theorem Statistics.rule_of_put {τ : Type} [Quantity τ] {s s' : Statistics τ} {id : String}
    {next : RuleStatistics τ} (hrules : s'.rules = s.rules.put id next) (id' : String) :
    s'.rule id' = if id = id' then next else s.rule id' := by
  rw [rule, hrules]
  split_ifs with hid
  · rw [← hid, Keyed.get?_put_self]
    rfl
  · rw [Keyed.get?_put_of_ne _ _ (Ne.symm hid)]
    rfl

/-! ## Results of rules -/

variable {τ : Type} {m m' : Metrics τ} {t t' : Statistics τ}

/-- Metrics and statistics count results of rules. -/
structure RuleCounts (m : Metrics τ) (t : Statistics τ) (rs : List RuleResult) : Prop where
  counter (matched success : Bool) : m.rules.count (matched, success) =
    rs.countP fun r => r.matched == matched && r.success == success
  counters : m.rules.total = rs.length
  total : t.total.executions = rs.length
  executions : t.rules.sum (·.executions) = rs.length
  matchCounts : t.rules.sum (·.matchCount) = rs.countP (·.matched)
  errors : t.rules.sum (·.errors) = rs.countP (!·.success)

namespace RuleCounts

variable {rs rs' : List RuleResult}

theorem perm (h : RuleCounts m t rs) (hp : rs.Perm rs') : RuleCounts m t rs' where
  counter matched success := (h.counter matched success).trans (hp.countP_eq _)
  counters := h.counters.trans hp.length_eq
  total := h.total.trans hp.length_eq
  executions := h.executions.trans hp.length_eq
  matchCounts := h.matchCounts.trans (hp.countP_eq _)
  errors := h.errors.trans (hp.countP_eq _)

/-- What is recorded of other things makes no difference. -/
theorem congr (h : RuleCounts m t rs) (hm : m'.rules = m.rules) (ht : t'.rules = t.rules)
    (htotal : t'.total = t.total) : RuleCounts m' t' rs where
  counter := hm ▸ h.counter
  counters := hm ▸ h.counters
  total := htotal ▸ h.total
  executions := ht ▸ h.executions
  matchCounts := ht ▸ h.matchCounts
  errors := ht ▸ h.errors

variable [Quantity τ]

theorem fresh (service : String) (limit : Nat) :
    RuleCounts (Metrics.fresh service : Metrics τ) { errorLimit := limit, total := Record.fresh }
      [] :=
  ⟨fun _ _ => rfl, rfl, rfl, rfl, rfl, rfl⟩

/-- Recording a result changes the statistics of its rule and the total. -/
theorem recordRule_eq (t : Statistics τ) (now : Instant) (id : String) (time : τ)
    (matched success : Bool) (category : Option String) (error : Option RuleError) :
    let t' := t.recordRule now id time matched success category error
    ∃ r : RuleStatistics τ, r.toRecord = (t.rule id).toRecord.add time success ∧
      r.matchCount = (t.rule id).matchCount + matched.toNat ∧
      r.rule = (t.rule id).rule ∧ t'.rules = t.rules.put id r ∧
      t'.total = t.total.add time success ∧ t'.actions = t.actions := by
  intro t'
  refine ⟨{ t.rule id with
      toRecord := (t.rule id).toRecord.add time success
      lastExecuted := some now
      matchCount := if matched then (t.rule id).matchCount + 1 else (t.rule id).matchCount
      lastMatched := if matched then some now else (t.rule id).lastMatched },
    rfl, by cases matched <;> rfl, rfl, ?_⟩
  simp only [t', Statistics.recordRule]
  cases error with
  | some e => exact ⟨rfl, rfl, rfl⟩
  | none => split_ifs <;> exact ⟨rfl, rfl, rfl⟩

/-- Numbers of a rule that are zero at first. -/
theorem getD_rule (t : Statistics τ) (id : String) {f : RuleStatistics τ → Nat}
    (hf : f { Record.fresh with rule := id } = 0) :
    ((t.rules.get? id).map f).getD 0 = f (t.rule id) := by
  rw [Statistics.rule]
  cases t.rules.get? id with
  | none => exact hf.symm
  | some r => rfl

theorem record (h : RuleCounts m t rs) (r : RuleResult) (time : τ) (now : Instant) (id : String)
    (category : Option String) (error : Option RuleError) :
    RuleCounts (m.recordRule r.matched r.success time)
      (t.recordRule now id time r.matched r.success category error) (r :: rs) := by
  obtain ⟨next, hrecord, hmatched, -, hrules, htotal, -⟩ :=
    recordRule_eq t now id time r.matched r.success category error
  constructor
  case counter =>
    intro matched success
    rw [Metrics.recordRule, Tally.count_add, h.counter, List.countP_cons]
    simp [Prod.ext_iff]
  case counters => exact (Tally.total_add _ _).trans (congrArg (· + 1) h.counters)
  case total =>
    rw [htotal, Record.executions_add, h.total]
    rfl
  case executions =>
    rw [hrules, Keyed.sum_put (n := 1) ?_, h.executions, List.length_cons]
    rw [getD_rule t id rfl, hrecord, Record.executions_add]
  case matchCounts =>
    rw [hrules, Keyed.sum_put (n := r.matched.toNat) ?_, h.matchCounts, List.countP_cons]
    · cases r.matched <;> rfl
    · rw [getD_rule t id rfl, hmatched]
  case errors =>
    rw [hrules, Keyed.sum_put (n := (!r.success).toNat) ?_, h.errors, List.countP_cons]
    · cases r.success <;> rfl
    · rw [getD_rule t id rfl, hrecord]
      cases r.success <;> rfl

end RuleCounts

/-! ## Results of actions -/

variable [Quantity τ] {time : τ}

/-- Metrics and statistics count results of actions. -/
structure ActionCounts (m : Metrics τ) (t : Statistics τ) (as : List ActionResult) : Prop where
  counter (type : String) (status : ActionStatus) : m.actions.count (type, status.name) =
    as.countP fun r => r.actionType == type && r.status == status
  times (type : String) : (m.timesOf type).count =
    as.countP fun r => r.actionType == type && r.status != .skipped
  executions (type : String) : (t.action type).executions =
    as.countP fun r => r.actionType == type && r.status != .skipped
  errors (type : String) : (t.action type).errors =
    as.countP fun r => r.actionType == type && r.status == .failure
  failures : t.actions.sum (·.errors) = as.countP (·.status == .failure)

theorem ActionResult.status_eq_skipped_iff {r : ActionResult} :
    r.status = .skipped ↔ r.skipped = true := by
  unfold status
  split_ifs <;> simp_all

namespace ActionCounts

open ActionResult (status_eq_skipped_iff)

variable {as as' : List ActionResult}

theorem fresh (service : String) (limit : Nat) :
    ActionCounts (Metrics.fresh service : Metrics τ) { errorLimit := limit, total := Record.fresh }
      [] :=
  ⟨fun _ _ => rfl, fun _ => rfl, fun _ => rfl, fun _ => rfl, rfl⟩

theorem perm (h : ActionCounts m t as) (hp : as.Perm as') : ActionCounts m t as' where
  counter type status := (h.counter type status).trans (hp.countP_eq _)
  times type := (h.times type).trans (hp.countP_eq _)
  executions type := (h.executions type).trans (hp.countP_eq _)
  errors type := (h.errors type).trans (hp.countP_eq _)
  failures := h.failures.trans (hp.countP_eq _)

/-- What is recorded of other things makes no difference. -/
theorem congr (h : ActionCounts m t as) (hm : m'.actions = m.actions)
    (htimes : m'.actionTimes = m.actionTimes) (ht : t'.actions = t.actions) :
    ActionCounts m' t' as where
  counter := hm ▸ h.counter
  times type := by
    rw [Metrics.timesOf, htimes]
    exact h.times type
  executions type := by
    rw [Statistics.action, ht]
    exact h.executions type
  errors type := by
    rw [Statistics.action, ht]
    exact h.errors type
  failures := ht ▸ h.failures

theorem timesOf_recordAction (m : Metrics τ) (type type' : String) (status : ActionStatus)
    (time : τ) : (m.recordAction type status.name time).timesOf type' =
      if type = type' ∧ status ≠ .skipped then (m.timesOf type).observe time
      else m.timesOf type' := by
  unfold Metrics.recordAction Metrics.timesOf
  dsimp only
  by_cases hs : status = .skipped
  · rw [if_pos (congrArg ActionStatus.name hs), if_neg fun h => h.2 hs]
  · rw [if_neg (ActionStatus.name_injective.ne hs)]
    by_cases ht : type = type'
    · subst ht
      rw [if_pos ⟨rfl, hs⟩, Keyed.get?_put_self]
      rfl
    · rw [if_neg fun h => ht h.1, Keyed.get?_put_of_ne _ _ (Ne.symm ht)]

/-- Recording a result changes the statistics of its type. -/
theorem recordAction_eq (t : Statistics τ) (type : String) (time : τ) (success : Bool)
    (error : Option String) :
    let t' := t.recordAction type time success error
    t'.actions = t.actions.put type
        { t.action type with toRecord := (t.action type).toRecord.add time success } ∧
      t'.rules = t.rules ∧ t'.total = t.total := by
  intro t'
  simp only [t', Statistics.recordAction]
  split <;> exact ⟨rfl, rfl, rfl⟩

theorem getD_errors (t : Statistics τ) (type : String) :
    ((t.actions.get? type).map (·.errors)).getD 0 = (t.action type).errors := by
  rw [Statistics.action]
  cases t.actions.get? type <;> rfl

theorem action_recordAction (t : Statistics τ) (type type' : String) (time : τ) (success : Bool)
    (error : Option String) : ((t.recordAction type time success error).action type').toRecord =
      if type = type' then (t.action type).toRecord.add time success
      else (t.action type').toRecord := by
  rw [Statistics.action, (recordAction_eq ..).1]
  split_ifs with ht
  · rw [← ht, Keyed.get?_put_self]
    rfl
  · rw [Keyed.get?_put_of_ne _ _ (Ne.symm ht)]
    rfl

theorem record (h : ActionCounts m t as) (r : ActionResult)
    (htime : (Histogram.bucket? time).isSome) (error : Option String) :
    ActionCounts (m.recordAction r.actionType r.status.name time)
      (if r.skipped then t else t.recordAction r.actionType time r.success error) (r :: as) := by
  constructor
  case counter =>
    intro type status
    rw [Metrics.recordAction, Tally.count_add, h.counter, List.countP_cons]
    simp [Prod.ext_iff, ActionStatus.name_injective.eq_iff]
  case times =>
    intro type
    rw [timesOf_recordAction, List.countP_cons, ← h.times type]
    by_cases ht : r.actionType = type ∧ r.status ≠ .skipped
    · rw [if_pos ht, Histogram.count_observe htime, ht.1, if_pos (by simp [ht.2])]
    · rw [if_neg ht, if_neg (by simpa using ht)]
      rfl
  case executions =>
    intro type
    rw [List.countP_cons, ← h.executions type]
    by_cases hs : r.skipped = true
    · simp [hs, ActionResult.status]
    · have hstatus : r.status ≠ .skipped := status_eq_skipped_iff.not.2 hs
      rw [if_neg hs, action_recordAction]
      by_cases ht : r.actionType = type
      · simp [ht, hstatus, Record.executions_add]
      · simp [ht]
  case errors =>
    intro type
    rw [List.countP_cons, ← h.errors type]
    by_cases hs : r.skipped = true
    · simp [hs, ActionResult.status]
    · have hstatus : r.status = if r.success then .success else .failure := by
        simp [ActionResult.status, hs]
      rw [if_neg hs, action_recordAction, hstatus]
      by_cases ht : r.actionType = type
      · cases hr : r.success <;> simp [ht, Record.add]
      · simp [ht]
  case failures =>
    rw [List.countP_cons, ← h.failures]
    by_cases hs : r.skipped = true
    · simp [hs, ActionResult.status]
    · rw [if_neg hs, (recordAction_eq ..).1, Keyed.sum_put (n := (!r.success).toNat) ?_]
      · cases hr : r.success <;> simp [hr, hs, ActionResult.status]
      · rw [getD_errors]
        cases r.success <;> rfl

end ActionCounts

end Rulebook
