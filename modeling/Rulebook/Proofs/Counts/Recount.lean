/-
  Statistics tell what a recount does.

  Statistics keep no history: counts, rates and means are brought up to date from the last ones, one
  execution at a time.  On exact numbers they are nevertheless those of all executions since they
  were cleared, whatever was recorded in whatever order.  An execution may carry a category; an empty
  one counts as none.

  * `Record.Tells`: a record tells of executions what a recount of them does;
  * `Recounts.recordRule`, `Recounts.recordAction`: what one execution preserves;
  * `Recording.run_recounts`: any executions since statistics were cleared.
-/
import Mathlib.Algebra.BigOperators.Group.List.Basic
import Mathlib.Algebra.Order.Field.Rat
import Mathlib.Data.Finset.Card
import Mathlib.Tactic.NormNum
import Rulebook.Proofs.Counts.Recorders
import Rulebook.Statistics.Summary

namespace Rulebook

/-- Exact numbers. -/
instance : Quantity ℚ where
  ofNat n := n
  add := (· + ·)
  sub := (· - ·)
  mul := (· * ·)
  div := (· / ·)
  share part whole := part / whole
  less x y := x < y
  atMost x y := x ≤ y

/-! ## Records -/

namespace Record

/-- A record tells how many executions there were, how many of them failed, what part succeeded and
    how long they took in the mean, given how long each took and whether it succeeded. -/
structure Tells (r : Record ℚ) (runs : List (ℚ × Bool)) : Prop where
  executions : r.executions = runs.length
  errors : r.errors = runs.countP (!·.2)
  mean : r.mean = (runs.map (·.1)).sum / runs.length
  /-- All executions succeeded as long as there are none. -/
  rate : r.rate =
    if runs = [] then 1 else ((runs.length : ℚ) - runs.countP (!·.2)) / runs.length

namespace Tells

variable {r : Record ℚ} {runs : List (ℚ × Bool)}

theorem fresh : (Record.fresh : Record ℚ).Tells [] where
  executions := rfl
  errors := rfl
  mean := by simp [Record.fresh, Quantity.zero, Quantity.ofNat]
  rate := by simp [Record.fresh, Quantity.ofNat]

/-- One more execution. -/
theorem add (h : r.Tells runs) (time : ℚ) (success : Bool) :
    (r.add time success).Tells (runs ++ [(time, success)]) := by
  have herrors : (r.add time success).errors = (runs ++ [(time, success)]).countP (!·.2) := by
    rw [List.countP_append, ← h.errors]
    cases success <;> rfl
  refine ⟨?_, herrors, ?_, ?_⟩
  · rw [executions_add, h.executions, List.length_append, List.length_singleton]
  · -- the mean of the executions before, times their number, is the sum of their times
    have hsum : r.mean * runs.length = (runs.map (·.1)).sum := by
      rw [h.mean]
      refine div_mul_cancel_of_imp fun hlen => ?_
      rw [Nat.cast_eq_zero, List.length_eq_zero_iff] at hlen
      rw [hlen, List.map_nil, List.sum_nil]
    rw [List.map_append, List.sum_append, List.map_singleton, List.sum_singleton, ← hsum,
      List.length_append, List.length_singleton, ← h.executions]
    rfl
  · have hle : (runs ++ [(time, success)]).countP (!·.2) ≤ runs.length + 1 := by
      simpa using List.countP_le_length (p := fun p : ℚ × Bool => !p.2)
        (l := runs ++ [(time, success)])
    rw [if_neg (by simp), List.length_append, List.length_singleton, ← Nat.cast_sub hle, ← herrors,
      ← h.executions]
    rfl

end Tells

end Record

/-! ## Executions -/

/-- An execution of a rule, as it is recorded. -/
structure RuleRecording where
  now : Instant
  id : String
  time : ℚ
  matched : Bool
  success : Bool
  category : Option String := none
  error : Option RuleError := none

/-- An execution of an action, as it is recorded. -/
structure ActionRecording where
  type : String
  time : ℚ
  success : Bool
  error : Option String := none

/-- How long an execution took and whether it succeeded. -/
def RuleRecording.outcome (r : RuleRecording) : ℚ × Bool :=
  (r.time, r.success)

/-- How long an execution took and whether it succeeded. -/
def ActionRecording.outcome (a : ActionRecording) : ℚ × Bool :=
  (a.time, a.success)

/-- An execution of a rule or of an action. -/
inductive Recording where
  | rule (r : RuleRecording)
  | action (a : ActionRecording)

namespace Recording

/-- The executions of rules. -/
def rules (calls : List Recording) : List RuleRecording :=
  calls.filterMap fun
    | rule r => some r
    | action _ => none

/-- The executions of actions. -/
def actions (calls : List Recording) : List ActionRecording :=
  calls.filterMap fun
    | rule _ => none
    | action a => some a

/-- Records an execution. -/
def record (s : Statistics ℚ) : Recording → Statistics ℚ
  | rule r => s.recordRule r.now r.id r.time r.matched r.success r.category r.error
  | action a => s.recordAction a.type a.time a.success a.error

/-- Records executions one after the other. -/
def run (s : Statistics ℚ) (calls : List Recording) : Statistics ℚ :=
  calls.foldl record s

end Recording

/-! ## Statistics -/

/-- Statistics tell of executions what a recount of them does. -/
structure Recounts (s : Statistics ℚ) (rules : List RuleRecording)
    (actions : List ActionRecording) : Prop where
  rule (id : String) :
    (s.rule id).Tells ((rules.filter (·.id = id)).map RuleRecording.outcome)
  matchCount (id : String) :
    (s.rule id).matchCount = rules.countP fun r => decide (r.id = id) && r.matched
  total : s.total.Tells (rules.map RuleRecording.outcome)
  sum : s.rules.sum (·.executions) = s.total.executions
  hours : s.hours.total = s.total.executions
  /-- An empty category counts as none. -/
  categories (name : String) : s.categories.count name =
    if name = "" then 0 else rules.countP (·.category = some name)
  /-- It has no count at all, as those that no execution carries. -/
  mem_categories (name : String) : name ∈ s.categories.keys ↔
    name ≠ "" ∧ ∃ r ∈ rules, r.category = some name
  ids_nodup : s.rules.keys.Nodup
  mem_ids (id : String) : id ∈ s.rules.keys ↔ id ∈ rules.map (·.id)
  action (type : String) :
    (s.action type).Tells ((actions.filter (·.type = type)).map ActionRecording.outcome)

namespace Statistics

variable (s : Statistics ℚ)

/-- The category that an execution of a rule is counted under, if it is. -/
def counted? (category : Option String) : Option String :=
  category.filter (· ≠ "")

theorem counted?_eq_some_iff {category : Option String} {name : String} :
    counted? category = some name ↔ name ≠ "" ∧ category = some name := by
  simp [counted?, Option.filter_eq_some_iff, and_comm]

/-- An execution of a rule is counted under its category, if it has one, and its hour. -/
theorem recordRule_tallies (r : RuleRecording) :
    let s' := s.recordRule r.now r.id r.time r.matched r.success r.category r.error
    s'.categories = ((counted? r.category).map s.categories.add).getD s.categories ∧
      s'.hours = s.hours.add (hourText r.now) := by
  intro s'
  -- What a rule adds to the feed is no part of the tallies.
  have hquiet : s'.categories =
        (s.recordRule r.now r.id r.time r.matched true r.category none).categories ∧
      s'.hours = s.hours.add (hourText r.now) := by
    simp only [s', recordRule]
    cases r.error with
    | some e => exact ⟨rfl, rfl⟩
    | none => split_ifs <;> exact ⟨rfl, rfl⟩
  refine ⟨?_, hquiet.2⟩
  rw [hquiet.1]
  cases r.category with
  | none => rfl
  | some c =>
    by_cases hc : c = ""
    · rw [hc]
      rfl
    · simp [recordRule, counted?, Option.filter, hc]

theorem recordAction_tallies (a : ActionRecording) :
    let s' := s.recordAction a.type a.time a.success a.error
    s'.categories = s.categories ∧ s'.hours = s.hours := by
  intro s'
  simp only [s', recordAction]
  split <;> exact ⟨rfl, rfl⟩

end Statistics

namespace Recounts

variable {s : Statistics ℚ} {rules : List RuleRecording} {actions : List ActionRecording}

theorem fresh (limit : Nat) :
    Recounts { errorLimit := limit, total := Record.fresh } [] [] where
  rule _ := .fresh
  matchCount _ := rfl
  total := .fresh
  sum := rfl
  hours := rfl
  categories name := by split_ifs <;> rfl
  mem_categories name := by simp [Keyed.keys]
  ids_nodup := List.nodup_nil
  mem_ids _ := .rfl
  action _ := .fresh

/-- One more execution of a rule. -/
theorem recordRule (h : Recounts s rules actions) (r : RuleRecording) :
    Recounts (s.recordRule r.now r.id r.time r.matched r.success r.category r.error)
      (rules ++ [r]) actions := by
  obtain ⟨next, hrecord, hmatched, -, hrules, htotal, hactions⟩ :=
    RuleCounts.recordRule_eq s r.now r.id r.time r.matched r.success r.category r.error
  obtain ⟨hcategories, hhours⟩ := s.recordRule_tallies r
  have hexecutions : (s.total.add r.time r.success).executions = s.total.executions + 1 := rfl
  constructor
  case rule =>
    intro id
    rw [Statistics.rule_of_put hrules, List.filter_append, List.map_append, List.filter_singleton]
    by_cases hid : r.id = id
    · rw [if_pos hid, hrecord, ← hid, decide_eq_true rfl, cond_true]
      exact (h.rule r.id).add r.time r.success
    · rw [if_neg hid, decide_eq_false hid, cond_false, List.map_nil, List.append_nil]
      exact h.rule id
  case matchCount =>
    intro id
    rw [Statistics.rule_of_put hrules, List.countP_append, ← h.matchCount, List.countP_singleton]
    by_cases hid : r.id = id
    · rw [if_pos hid, hmatched, ← hid, decide_eq_true rfl, Bool.true_and]
      cases r.matched <;> rfl
    · rw [if_neg hid, decide_eq_false hid, Bool.false_and]
      rfl
  case total =>
    rw [htotal, List.map_append, List.map_singleton]
    exact h.total.add r.time r.success
  case sum =>
    rw [hrules, htotal, Keyed.sum_put (n := 1) ?_, h.sum, hexecutions]
    rw [RuleCounts.getD_rule s r.id rfl, hrecord, Record.executions_add]
  case hours => rw [hhours, htotal, Tally.total_add, h.hours, hexecutions]
  case categories =>
    intro name
    have hcount : (s.recordRule r.now r.id r.time r.matched r.success r.category
        r.error).categories.count name = s.categories.count name +
          if name ≠ "" ∧ r.category = some name then 1 else 0 := by
      rw [hcategories, ← if_congr Statistics.counted?_eq_some_iff rfl rfl]
      cases Statistics.counted? r.category with
      | none => rfl
      | some c => simp [Tally.count_add]
    rw [hcount, h.categories, List.countP_append, List.countP_singleton]
    by_cases hname : name = ""
    · rw [if_pos hname, if_pos hname, if_neg fun hc => hc.1 hname]
    · rw [if_neg hname, if_neg hname]
      simp only [ne_eq, hname, not_false_eq_true, true_and, decide_eq_true_eq]
  case mem_categories =>
    intro name
    have hmem : name ∈ (s.recordRule r.now r.id r.time r.matched r.success r.category
        r.error).categories.keys ↔ name ∈ s.categories.keys ∨ name ≠ "" ∧ r.category = some name := by
      rw [hcategories, ← Statistics.counted?_eq_some_iff]
      cases Statistics.counted? r.category with
      | none => simp
      | some c => simp [Tally.add, Keyed.mem_keys_put, eq_comm]
    rw [hmem, h.mem_categories]
    simp only [List.mem_append, List.mem_singleton, or_and_right, exists_or, exists_eq_left,
      and_or_left]
  case ids_nodup =>
    rw [hrules]
    exact s.rules.nodup_put r.id next h.ids_nodup
  case mem_ids =>
    intro id
    rw [hrules, Keyed.mem_keys_put, List.map_append, List.map_singleton, List.mem_append,
      ← h.mem_ids, List.mem_singleton]
  case action =>
    intro type
    rw [Statistics.action, hactions]
    exact h.action type

/-- One more execution of an action. -/
theorem recordAction (h : Recounts s rules actions) (a : ActionRecording) :
    Recounts (s.recordAction a.type a.time a.success a.error) rules (actions ++ [a]) := by
  obtain ⟨hactions, hrules, htotal⟩ :=
    ActionCounts.recordAction_eq s a.type a.time a.success a.error
  obtain ⟨hcategories, hhours⟩ := s.recordAction_tallies a
  have hrule (id : String) :
      (s.recordAction a.type a.time a.success a.error).rule id = s.rule id := by
    rw [Statistics.rule, hrules]
    rfl
  constructor
  case rule => exact fun id => hrule id ▸ h.rule id
  case matchCount => exact fun id => hrule id ▸ h.matchCount id
  case total => exact htotal ▸ h.total
  case sum => exact hrules ▸ htotal ▸ h.sum
  case hours => exact hhours ▸ htotal ▸ h.hours
  case categories => exact hcategories ▸ h.categories
  case mem_categories => exact hcategories ▸ h.mem_categories
  case ids_nodup => exact hrules ▸ h.ids_nodup
  case mem_ids => exact hrules ▸ h.mem_ids
  case action =>
    intro type
    rw [ActionCounts.action_recordAction, List.filter_append, List.map_append,
      List.filter_singleton]
    by_cases htype : a.type = type
    · rw [if_pos htype, ← htype, decide_eq_true rfl, cond_true]
      exact (h.action a.type).add a.time a.success
    · rw [if_neg htype, decide_eq_false htype, cond_false, List.map_nil, List.append_nil]
      exact h.action type

/-- One more execution. -/
theorem record (h : Recounts s rules actions) (call : Recording) :
    Recounts (call.record s) (rules ++ Recording.rules [call])
      (actions ++ Recording.actions [call]) := by
  cases call with
  | rule r => exact (List.append_nil actions).symm ▸ h.recordRule r
  | action a => exact (List.append_nil rules).symm ▸ h.recordAction a

/-- Any executions, one after the other. -/
theorem run (h : Recounts s rules actions) (calls : List Recording) :
    Recounts (Recording.run s calls) (rules ++ Recording.rules calls)
      (actions ++ Recording.actions calls) := by
  induction calls generalizing s rules actions with
  | nil => simpa [Recording.run, Recording.rules, Recording.actions] using h
  | cons call calls ih =>
    have hrules : Recording.rules (call :: calls) =
        Recording.rules [call] ++ Recording.rules calls :=
      List.filterMap_append (l := [call])
    have hactions : Recording.actions (call :: calls) =
        Recording.actions [call] ++ Recording.actions calls :=
      List.filterMap_append (l := [call])
    rw [hrules, hactions, ← List.append_assoc, ← List.append_assoc]
    exact ih (h.record call)

/-- There are as many rules as different names. -/
theorem size_eq (h : Recounts s rules actions) :
    s.rules.size = (rules.map (·.id)).toFinset.card := by
  have hkeys : s.rules.keys.toFinset = (rules.map (·.id)).toFinset := by
    ext id
    rw [List.mem_toFinset, List.mem_toFinset, h.mem_ids]
  rw [← hkeys, List.toFinset_card_of_nodup h.ids_nodup, Keyed.keys, List.length_map]
  rfl

/-- The part of all executions of rules that failed; none as long as there are none. -/
theorem errorRate_eq (h : Recounts s rules actions) :
    s.errorRate = (rules.countP (!·.success) : ℚ) / rules.length := by
  have herrors : s.total.errors = rules.countP (!·.success) := by
    rw [h.total.errors, List.countP_map]
    rfl
  have hexecutions : s.total.executions = rules.length := by
    rw [h.total.executions, List.length_map]
  unfold Statistics.errorRate
  rw [hexecutions, herrors]
  split_ifs with hlen
  · rw [hlen, Nat.cast_zero, div_zero]
    rfl
  · rfl

end Recounts

namespace Recording

variable {s : Statistics ℚ}

theorem recounts_of_cleared
    (hs : (∃ limit, Statistics.empty limit = .ok s) ∨ ∃ t : Statistics ℚ, s = t.reset) :
    Recounts s [] [] := by
  obtain ⟨limit, hs⟩ | ⟨t, rfl⟩ := hs
  · unfold Statistics.empty at hs
    split_ifs at hs
    cases hs
    exact .fresh _
  · exact .fresh _

/-- **Statistics are those of all executions since they were cleared.** For every rule and for every
    type of action they tell what a recount does, as they do for all rules together; the executions
    of all rules are as many as those in all hours, a category that is not empty counts the
    executions that carry it, an empty one has no count, and there are as many rules as different
    names. A summary tells the same. -/
theorem run_recounts
    (hs : (∃ limit, Statistics.empty limit = .ok s) ∨ ∃ t : Statistics ℚ, s = t.reset)
    (calls : List Recording) :
    Recounts (run s calls) (rules calls) (actions calls) ∧
      (run s calls).rules.size = ((rules calls).map (·.id)).toFinset.card ∧
      (run s calls).errorRate =
        ((rules calls).countP (!·.success) : ℚ) / (rules calls).length ∧
      ∀ config now, ((run s calls).summary config now).map (fun m =>
          (m.total, m.rules, m.errorRate, m.categories, m.hours, m.actions)) =
        (Statistics.secondsBefore now config.activeWindow).map fun _ =>
          ((run s calls).total, (run s calls).rules.size, (run s calls).errorRate,
            (run s calls).categories, (run s calls).hours, (run s calls).actions) := by
  have h := (recounts_of_cleared hs).run calls
  refine ⟨h, h.size_eq, h.errorRate_eq, fun config now => ?_⟩
  unfold Statistics.summary
  cases Statistics.secondsBefore now config.activeWindow <;> rfl

/-- Two rules, one of them executed twice, and an action. -/
theorem run_recounts_three :
    let first : RuleRecording := ⟨⟨0, 0⟩, "a", 10, true, true, some "pricing", none⟩
    let second : RuleRecording := ⟨⟨0, 0⟩, "b", 20, false, false, some "", none⟩
    let third : RuleRecording := ⟨⟨0, 0⟩, "a", 33, false, true, some "pricing", none⟩
    let calls := [.rule first, .rule second, .action ⟨"SET_FIELD", 2, false, none⟩, .rule third]
    let start : Statistics ℚ := { errorLimit := 5, total := Record.fresh }
    Statistics.empty 5 = .ok start ∧ ((run start calls).rule "a").mean = 43 / 2 ∧
      (run start calls).total.mean = 21 ∧ (run start calls).errorRate = 1 / 3 ∧
      (run start calls).categories.count "pricing" = 2 ∧
      (run start calls).rules.size = 2 ∧ ((run start calls).action "SET_FIELD").rate = 0 := by
  intro first second third calls start
  have hstart : Statistics.empty 5 = .ok start := rfl
  obtain ⟨h, hsize, hrate, -⟩ := run_recounts (.inl ⟨5, hstart⟩) calls
  have hrules : rules calls = [first, second, third] := rfl
  have hactions : actions calls = [⟨"SET_FIELD", 2, false, none⟩] := rfl
  rw [hrules, hactions] at h
  rw [hrules] at hsize hrate
  refine ⟨hstart, ?_, ?_, ?_, ?_, hsize.trans rfl, ?_⟩
  · have hruns : [first, second, third].filter (·.id = "a") = [first, third] := rfl
    rw [(h.rule "a").mean, hruns]
    norm_num [first, third, RuleRecording.outcome]
  · rw [h.total.mean]
    norm_num [first, second, third, RuleRecording.outcome]
  · rw [hrate]
    norm_num [first, second, third]
  · rw [h.categories]
    rfl
  · rw [(h.action "SET_FIELD").rate]
    norm_num [ActionRecording.outcome]

/-- An execution that carries an empty category is not counted under it. -/
theorem blank_category_uncounted :
    let call : RuleRecording := ⟨⟨0, 0⟩, "r", 1, true, true, some "", none⟩
    let start : Statistics ℚ := { errorLimit := 5, total := Record.fresh }
    Statistics.empty 5 = .ok start ∧
      (run start [.rule call]).categories.count "" ≠
        [call].countP fun r => r.category = some "" := by
  intro call start
  exact ⟨rfl, by decide +kernel⟩

end Recording

end Rulebook
