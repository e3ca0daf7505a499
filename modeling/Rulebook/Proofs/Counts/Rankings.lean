/-
  What dashboards list.

  Statistics keep no history, but what is asked of them can be told from it: the newest errors of the
  log that all executions leave, and the rules that were executed, in the order of their executions
  or of their rates.  Rules of equal rank are listed in the order of their first executions.  Rates
  are doubles and have an order, since they are quotients of counts, none of which is too small or
  too large.

  * `exists_value_share`: rates are finite;
  * `mergeSort_ranked`: sorting keeps what it does not tell apart in order;
  * `Recalls.record`, `Recalls.run`: what executions leave in statistics;
  * `run_lists`: what is listed after any executions.
-/
import Rulebook.Proofs.Counts.Feed
import Rulebook.Proofs.Counts.Recorders
import Rulebook.Proofs.Number.Products

namespace Rulebook

/-! ## Rates -/

namespace Binary64

/-- A quotient of counts that is at most one is a finite double. -/
theorem exists_value_share {part whole : Nat} (hle : part ≤ whole) (hwhole : 0 < whole) :
    ∃ v, value? (Quantity.share part whole) = some v := by
  have hzero : Canonical 0 (-1074) := ⟨by norm_num, le_rfl, by norm_num, .inr rfl⟩
  change ∃ v, value? ((ofRatio false part whole).getD _) = some v
  rcases Nat.eq_zero_or_pos part with rfl | hpart
  · rw [ofRatio, if_pos rfl, pack_eq hzero]
    exact ⟨_, value?_finite hzero false⟩
  · obtain ⟨mant, exp, hc, hr⟩ := exists_rounded hpart hwhole
    have hone : (part : ℚ) / whole ≤ 1 :=
      div_le_one_of_le₀ (by exact_mod_cast hle) (Nat.cast_nonneg _)
    have hexp : exp < 0 := by
      by_contra hnonneg
      have hmant : (2 : ℚ) ^ 52 ≤ mant := by
        exact_mod_cast hc.normal.resolve_right (by omega)
      have hunit : (1 : ℚ) ≤ 2 ^ exp := one_le_zpow₀ one_le_two (not_lt.1 hnonneg)
      have hgap := gapBelow_le mant exp
      have hlower := hr.lower.trans hone
      nlinarith
    have hfinite : Canonical mant exp := ⟨hc.mant_lt, hc.le_exp, by omega, hc.normal⟩
    rw [ofRatio_of_rounds hc hpart hwhole hr, pack_eq hfinite]
    exact ⟨_, value?_finite hfinite false⟩

end Binary64

/-! ## Sorting by rank -/

/-- Sorting by a rank keeps items of equal rank in their order. The comparison has to go by the ranks
    of the items of the list only. -/
theorem mergeSort_ranked {α β : Type} [LinearOrder β] {rank : α → β} {le : α → α → Bool}
    {l : List α} {R : α → α → Prop} (hle : ∀ a ∈ l, ∀ b ∈ l, le a b = decide (rank a ≤ rank b))
    (hl : l.Pairwise R) :
    (l.mergeSort le).Pairwise fun a b => rank a < rank b ∨ rank a = rank b ∧ R a b := by
  let byRank (a b : α) : Bool := decide (rank a ≤ rank b)
  have htrans (a b c : α) (hab : byRank a b) (hbc : byRank b c) : byRank a c :=
    decide_eq_true ((of_decide_eq_true hab).trans (of_decide_eq_true hbc))
  have htotal (a b : α) : (byRank a b || byRank b a) = true := by
    simp [byRank, le_total]
  have hsame : l.mergeSort le = l.mergeSort byRank := by
    simpa using List.map_mergeSort (f := id) hle
  -- items with their places are sorted strictly
  rw [hsame, ← List.mergeSort_zipIdx, List.pairwise_map]
  have hnodup : (l.zipIdx.mergeSort (List.zipIdxLE byRank)).Nodup :=
    (List.mergeSort_perm _ _).nodup_iff.2 (.of_map Prod.snd (by simp [List.nodup_range']))
  have hsorted := List.pairwise_mergeSort (List.zipIdxLE_trans htrans)
    (List.zipIdxLE_total htotal) l.zipIdx
  refine (hsorted.and hnodup).imp_of_mem fun {p q} hp hq hpq => ?_
  obtain ⟨hle', hne⟩ := hpq
  obtain ⟨hi, hpi⟩ := List.mem_zipIdx' (List.mem_mergeSort.1 hp)
  obtain ⟨hj, hqj⟩ := List.mem_zipIdx' (List.mem_mergeSort.1 hq)
  unfold List.zipIdxLE at hle'
  split_ifs at hle' with hpq hqp
  · have hplaces : p.2 < q.2 := by
      refine lt_of_le_of_ne (of_decide_eq_true hle') fun heq => hne (Prod.ext ?_ heq)
      rw [hpi, hqj]
      simp only [heq]
    refine .inr ⟨le_antisymm (of_decide_eq_true hpq) (of_decide_eq_true hqp), ?_⟩
    rw [hpi, hqj]
    exact List.pairwise_iff_getElem.1 hl p.2 q.2 hi hj hplaces
  · exact .inl (lt_of_not_ge fun hge => hqp (decide_eq_true hge))

/-! ## Executions -/

/-- An execution as it is recorded. -/
inductive Execution (τ : Type) where
  | rule (now : Instant) (id : String) (time : τ) (matched success : Bool)
    (category : Option String) (error : Option RuleError)
  | action (type : String) (time : τ) (success : Bool) (error : Option String)

namespace Execution

variable {τ : Type}

/-- The rule that was executed. -/
def rule? : Execution τ → Option String
  | rule _ id .. => some id
  | action .. => none

/-- The rule that was executed, if it failed. -/
def failed? : Execution τ → Option String
  | rule _ id _ _ success _ _ => if success then none else some id
  | action .. => none

/-- What the log of errors receives. -/
def error? : Execution τ → Option RuleError
  | rule _ id _ _ success _ error => error.or (if success then none else some (.ruleFailed id))
  | action type _ success error =>
    if success = false ∧ error.getD "" ≠ "" then some (.actionFailed type (error.getD "")) else none

/-- The rules that were executed, in order and with repetitions. -/
def rules (calls : List (Execution τ)) : List String :=
  calls.filterMap rule?

/-- The rules that failed, in order and with repetitions. -/
def failures (calls : List (Execution τ)) : List String :=
  calls.filterMap failed?

/-- The log of errors, the oldest first. -/
def log (calls : List (Execution τ)) : List RuleError :=
  calls.filterMap error?

variable [Quantity τ]

/-- Records an execution. -/
def record (s : Statistics τ) : Execution τ → Statistics τ
  | rule now id time matched success category error =>
    s.recordRule now id time matched success category error
  | action type time success error => s.recordAction type time success error

/-- Records executions one after the other. -/
def run (s : Statistics τ) (calls : List (Execution τ)) : Statistics τ :=
  calls.foldl record s

end Execution

open Execution (rules failures log)

/-! ## What executions leave -/

theorem filterMap_concat {α β : Type} (f : α → Option β) (l : List α) (a : α) :
    (l ++ [a]).filterMap f = l.filterMap f ++ (f a).toList := by
  cases h : f a <;> simp [h]

section

variable {τ : Type} [Quantity τ]

/-- The statistics of a rule recall its executions. -/
structure RuleStatistics.Recalls (r : RuleStatistics τ) (calls : List (Execution τ)) (id : String) :
    Prop where
  rule : r.rule = id
  executions : r.executions = (rules calls).count id
  errors : r.errors = (failures calls).count id
  rate : id ∈ rules calls → r.rate = Quantity.share (r.executions - r.errors) r.executions

/-- Statistics recall executions. Rules are in the order of their first ones. -/
structure Recalls (limit : Nat) (s : Statistics τ) (calls : List (Execution τ)) : Prop where
  feeds : s.Feeds limit (log calls)
  rule (id : String) : (s.rule id).Recalls calls id
  ids_nodup : s.rules.keys.Nodup
  mem_ids (id : String) : id ∈ s.rules.keys ↔ id ∈ rules calls
  inOrder : s.rules.keys.Pairwise fun a b => (rules calls).idxOf a < (rules calls).idxOf b

namespace Recalls

variable {limit : Nat} {s : Statistics τ} {calls : List (Execution τ)}

theorem fresh (limit : Nat) :
    Recalls limit ({ errorLimit := limit, total := Record.fresh } : Statistics τ) [] where
  feeds := ⟨rfl, by simp [log, List.rtake]⟩
  rule _ := ⟨rfl, rfl, rfl, nofun⟩
  ids_nodup := List.nodup_nil
  mem_ids _ := .rfl
  inOrder := .nil

/-- One more execution of an action. -/
theorem recordAction (h : Recalls limit s calls) (type : String) (time : τ) (success : Bool)
    (error : Option String) :
    Recalls limit (s.recordAction type time success error)
      (calls ++ [.action type time success error]) := by
  generalize hcall : Execution.action type time success error = call
  have hkept := (ActionCounts.recordAction_eq s type time success error).2.1
  have hrules : rules (calls ++ [call]) = rules calls := by
    rw [rules, filterMap_concat, ← hcall]
    exact List.append_nil _
  have hfailures : failures (calls ++ [call]) = failures calls := by
    rw [failures, filterMap_concat, ← hcall]
    exact List.append_nil _
  constructor
  case feeds =>
    rw [log, filterMap_concat, ← hcall]
    exact h.feeds.recordAction type time success error
  case rule =>
    intro id
    have hrule : (s.recordAction type time success error).rule id = s.rule id := by
      rw [Statistics.rule, hkept]
      rfl
    obtain ⟨hid, hexecutions, herrors, hrate⟩ := h.rule id
    rw [hrule]
    exact ⟨hid, by rw [hrules, hexecutions], by rw [hfailures, herrors], by rwa [hrules]⟩
  case ids_nodup => exact hkept ▸ h.ids_nodup
  case mem_ids => exact hkept ▸ hrules ▸ h.mem_ids
  case inOrder => exact hkept ▸ hrules ▸ h.inOrder

/-- One more execution of a rule. -/
theorem recordRule (h : Recalls limit s calls) (now : Instant) (id : String) (time : τ)
    (matched success : Bool) (category : Option String) (error : Option RuleError) :
    Recalls limit (s.recordRule now id time matched success category error)
      (calls ++ [.rule now id time matched success category error]) := by
  generalize hcall : Execution.rule now id time matched success category error = call
  obtain ⟨next, hrecord, -, hid, hput, -, -⟩ :=
    RuleCounts.recordRule_eq s now id time matched success category error
  have hrules : rules (calls ++ [call]) = rules calls ++ [id] := by
    rw [rules, filterMap_concat, ← hcall]
    rfl
  have hfailures : failures (calls ++ [call]) =
      failures calls ++ (if success then none else some id).toList := by
    rw [failures, filterMap_concat, ← hcall]
    rfl
  constructor
  case feeds =>
    rw [log, filterMap_concat, ← hcall]
    exact h.feeds.recordRule now id time matched success category error
  case rule =>
    intro id'
    obtain ⟨hid', hexecutions, herrors, hrate⟩ := h.rule id'
    rw [Statistics.rule_of_put hput]
    split_ifs with heq
    · subst heq
      refine ⟨hid.trans hid', ?_, ?_, fun _ => ?_⟩
      · rw [hrecord, Record.executions_add, hexecutions, hrules, List.count_append]
        simp
      · rw [hrecord, hfailures, List.count_append, ← herrors]
        cases success <;> simp [Record.add]
      · rw [hrecord]
        rfl
    · have hnot : ¬id' = id := Ne.symm heq
      refine ⟨hid', ?_, ?_, fun hmem => hrate ?_⟩
      · rw [hexecutions, hrules, List.count_append]
        simp [heq]
      · rw [herrors, hfailures, List.count_append]
        cases success <;> simp [heq]
      · rw [hrules, List.mem_append, List.mem_singleton] at hmem
        exact hmem.resolve_right hnot
  case ids_nodup =>
    rw [hput]
    exact s.rules.nodup_put id next h.ids_nodup
  case mem_ids =>
    intro id'
    rw [hput, hrules, Keyed.mem_keys_put, List.mem_append, List.mem_singleton, ← h.mem_ids]
  case inOrder =>
    rw [hput, hrules]
    have hold {a : String} (ha : a ∈ s.rules.keys) :
        (rules calls ++ [id]).idxOf a = (rules calls).idxOf a :=
      List.idxOf_append_of_mem ((h.mem_ids a).1 ha)
    have hbefore : s.rules.keys.Pairwise fun a b =>
        (rules calls ++ [id]).idxOf a < (rules calls ++ [id]).idxOf b :=
      h.inOrder.imp_of_mem fun ha hb hab => by rwa [hold ha, hold hb]
    by_cases hmem : id ∈ s.rules.keys
    · rwa [Keyed.keys_put_of_mem _ _ hmem]
    · rw [Keyed.keys_put_of_not_mem _ _ hmem]
      refine List.pairwise_append.2 ⟨hbefore, List.pairwise_singleton .., fun a ha b hb => ?_⟩
      obtain rfl := List.mem_singleton.1 hb
      rw [hold ha, List.idxOf_append_of_notMem (mt (h.mem_ids b).2 hmem)]
      exact (List.idxOf_lt_length_iff.2 ((h.mem_ids a).1 ha)).trans_le (Nat.le_add_right _ _)

theorem record (h : Recalls limit s calls) (call : Execution τ) :
    Recalls limit (call.record s) (calls ++ [call]) := by
  cases call with
  | rule now id time matched success category error =>
    exact h.recordRule now id time matched success category error
  | action type time success error => exact h.recordAction type time success error

/-- Any executions, one after the other. -/
theorem run (h : Recalls limit s calls) (more : List (Execution τ)) :
    Recalls limit (Execution.run s more) (calls ++ more) := by
  induction more generalizing s calls with
  | nil => exact (List.append_nil calls).symm ▸ h
  | cons call more ih =>
    have hnext := ih (h.record call)
    rwa [List.append_assoc] at hnext

theorem rule_of_mem (h : Recalls limit s calls) {e : String × RuleStatistics τ}
    (he : e ∈ s.rules.entries) : s.rule e.1 = e.2 := by
  rw [Statistics.rule, (Keyed.get?_eq_some_iff h.ids_nodup).2 he]
  rfl

/-- The records are those of the rules that were executed. -/
theorem mem_values (h : Recalls limit s calls) {r : RuleStatistics τ} :
    r ∈ s.rules.values ↔ ∃ id ∈ rules calls, s.rule id = r := by
  constructor
  · intro hr
    obtain ⟨e, he, rfl⟩ := List.mem_map.1 hr
    exact ⟨e.1, (h.mem_ids e.1).1 (List.mem_map_of_mem he), h.rule_of_mem he⟩
  · rintro ⟨id, hid, rfl⟩
    obtain ⟨e, he, rfl⟩ := List.mem_map.1 ((h.mem_ids id).2 hid)
    exact h.rule_of_mem he ▸ List.mem_map_of_mem he

/-- The records are in the order of the first executions. -/
theorem values_inOrder (h : Recalls limit s calls) :
    s.rules.values.Pairwise fun a b => (rules calls).idxOf a.rule < (rules calls).idxOf b.rule := by
  have hids : s.rules.values.map (·.rule) = s.rules.keys := by
    rw [Keyed.values, Keyed.keys, List.map_map]
    refine List.map_congr_left fun e he => ?_
    exact (congrArg (·.rule) (h.rule_of_mem he)).symm.trans (h.rule e.1).rule
  have hkeys := h.inOrder
  rwa [← hids, List.pairwise_map] at hkeys

end Recalls

/-! ## Rankings -/

/-- The records of the rules that were executed and are wanted, each of them once. Of two that neither
    goes before the other, the one that was executed first is listed first. -/
structure Ranking (calls : List (Execution τ)) (s : Statistics τ) (wanted : RuleStatistics τ → Prop)
    (before : RuleStatistics τ → RuleStatistics τ → Prop) (ranked : List (RuleStatistics τ)) :
    Prop where
  mem (r : RuleStatistics τ) : r ∈ ranked ↔ (∃ id ∈ rules calls, s.rule id = r) ∧ wanted r
  ordered : ranked.Pairwise fun a b => before a b ∨
    ¬before b a ∧ (rules calls).idxOf a.rule < (rules calls).idxOf b.rule

variable {limit : Nat} {s : Statistics τ} {calls : List (Execution τ)}

/-- Records that are chosen and sorted by rank are a ranking. -/
theorem Recalls.ranking {β : Type} [LinearOrder β] (h : Recalls limit s calls)
    (rank : RuleStatistics τ → β) {choose : RuleStatistics τ → Bool}
    {le : RuleStatistics τ → RuleStatistics τ → Bool} {wanted : RuleStatistics τ → Prop}
    {before : RuleStatistics τ → RuleStatistics τ → Prop}
    (hchoose : ∀ r, choose r = true ↔ wanted r)
    (hle : ∀ a ∈ s.rules.values, ∀ b ∈ s.rules.values, le a b = decide (rank a ≤ rank b))
    (hbefore : ∀ a ∈ s.rules.values, ∀ b ∈ s.rules.values, before a b ↔ rank a < rank b) :
    Ranking calls s wanted before ((s.rules.values.filter choose).mergeSort le) where
  mem r := by
    rw [List.mem_mergeSort, List.mem_filter, h.mem_values, hchoose]
  ordered := by
    have hsorted := mergeSort_ranked
      (fun a ha b hb => hle a (List.mem_of_mem_filter ha) b (List.mem_of_mem_filter hb))
      (h.values_inOrder.filter choose)
    refine hsorted.imp_of_mem fun {a b} ha hb hab => ?_
    have ha' := List.mem_of_mem_filter (List.mem_mergeSort.1 ha)
    have hb' := List.mem_of_mem_filter (List.mem_mergeSort.1 hb)
    rw [hbefore a ha' b hb', hbefore b hb' a ha']
    exact hab.imp_right fun ⟨heq, hfirst⟩ => ⟨heq.not_gt, hfirst⟩

/-- The rules with the most executions. -/
theorem Recalls.popular (h : Recalls limit s calls) : ∃ ranked,
    Ranking calls s (fun _ => True) (fun a b => b.executions < a.executions) ranked ∧
      ∀ k : Int, s.popular k = ranked.take k.toNat := by
  have hall : s.rules.values.filter (fun _ => true) = s.rules.values := List.filter_true _
  refine ⟨s.rules.values.mergeSort fun a b => b.executions ≤ a.executions, ?_, fun k => rfl⟩
  rw [← hall]
  exact h.ranking (fun r => -(r.executions : Int)) (by simp) (by simp) (by simp)

/-- The newest errors. -/
theorem Recalls.recentErrors (h : Recalls limit s calls) (k : Int) :
    s.recentErrors k = (log calls).reverse.take (min k.toNat (min limit (log calls).length)) := by
  obtain ⟨-, hfeed⟩ := h.feeds
  rw [Statistics.recentErrors, hfeed, List.rtake_eq_reverse_take_reverse, List.reverse_reverse,
    List.take_take, List.take_eq_take_iff, List.length_reverse]
  omega

end

/-- The rules of which too few executions succeed. -/
theorem Recalls.unhealthy {limit : Nat} {s : Statistics Float} {calls : List (Execution Float)}
    (h : Recalls limit s calls) (leastRate : Float) (leastExecutions : Int) :
    Ranking calls s (fun r => leastExecutions ≤ r.executions ∧ r.rate < leastRate)
      (fun a b => a.rate < b.rate) (s.unhealthy leastRate leastExecutions) := by
  have hfinite (r : RuleStatistics Float) (hr : r ∈ s.rules.values) :
      ∃ v, Binary64.value? r.rate = some v := by
    obtain ⟨id, hid, rfl⟩ := h.mem_values.1 hr
    obtain ⟨-, hexecutions, -, hrate⟩ := h.rule id
    rw [hrate hid]
    refine Binary64.exists_value_share (Nat.sub_le ..) ?_
    rw [hexecutions]
    exact List.count_pos_iff.2 hid
  have hless (a b : RuleStatistics Float) (ha : a ∈ s.rules.values) (hb : b ∈ s.rules.values) :
      a.rate < b.rate ↔
        (Binary64.value? a.rate).getD 0 < (Binary64.value? b.rate).getD 0 := by
    obtain ⟨v, hv⟩ := hfinite a ha
    obtain ⟨w, hw⟩ := hfinite b hb
    rw [Binary64.lt_iff_value hv hw, hv, hw]
    rfl
  refine h.ranking (fun r => (Binary64.value? r.rate).getD 0) (fun r => ?_) (fun a ha b hb => ?_)
    fun a ha b hb => hless a b ha hb
  · simp [Quantity.less]
  · rw [Bool.eq_iff_iff, Bool.not_eq_true', decide_eq_true_iff, ← not_lt, ← hless b a hb ha]
    exact decide_eq_false_iff_not

/-! ## What is listed -/

/-- **What dashboards list is told by all executions.** The feed of errors may hold any number of them
    that a machine can count; statistics with a larger limit cannot be made. Whatever is executed
    after statistics are made: the newest errors are those of the whole log, so many as are asked for,
    as the feed may hold and as there are; the most popular rules are those with the most executions,
    and the unhealthy ones those with enough executions and too low a rate, by ascending rate, all of
    them in the order of their first executions if they have the same rank. -/
theorem run_lists {errorLimit : Int} (hnonneg : 0 ≤ errorLimit) (calls : List (Execution Float)) :
    (errorLimit ≤ Word.largest →
      ∃ s : Statistics Float, Statistics.empty errorLimit = .ok s ∧
        let t := Execution.run s calls
        (∀ id, (t.rule id).Recalls calls id) ∧
        (∀ k : Int, t.recentErrors k = (log calls).reverse.take
          (min (max k 0) (min errorLimit (log calls).length)).toNat) ∧
        (∃ ranked, Ranking calls t (fun _ => True) (fun a b => b.executions < a.executions) ranked ∧
          ∀ k : Int, t.popular k = ranked.take (max k 0).toNat) ∧
        ∀ (leastRate : Float) (leastExecutions : Int),
          Ranking calls t (fun r => leastExecutions ≤ r.executions ∧ r.rate < leastRate)
            (fun a b => a.rate < b.rate) (t.unhealthy leastRate leastExecutions)) ∧
    (Word.largest < errorLimit →
      (Statistics.empty errorLimit : Except Fault (Statistics Float)) =
        .error (.machineInteger "ssize_t")) := by
  refine ⟨fun hmost => ⟨{ errorLimit := errorLimit.toNat, total := Record.fresh }, ?_, ?_⟩,
    fun hlarge => ?_⟩
  · rw [Statistics.empty, if_neg (not_lt.2 hnonneg), if_neg (not_lt.2 hmost)]
  · intro t
    have h : Recalls errorLimit.toNat t calls := (Recalls.fresh errorLimit.toNat).run calls
    refine ⟨h.rule, fun k => ?_, ?_, h.unhealthy⟩
    · rw [h.recentErrors k]
      congr 1
      omega
    · obtain ⟨ranked, hranking, htake⟩ := h.popular
      exact ⟨ranked, hranking, fun k => by rw [htake k]; congr 1; omega⟩
  · rw [Statistics.empty, if_neg (not_lt.2 hnonneg), if_pos hlarge]

/-- The feed holds two of three errors, and the rule that was executed twice is the most popular. -/
theorem run_lists_two :
    let failed : RuleError := .actionsFailed "b" "B" (.text "x") "no answer" []
    let calls : List (Execution Float) :=
      [.rule ⟨0, 0⟩ "a" 1.0 true true none none, .rule ⟨0, 0⟩ "b" 1.0 true false none none,
        .action "CALL_API" 1.0 false (some "no answer"),
        .rule ⟨0, 0⟩ "b" 1.0 true false none (some failed)]
    (0 : Int) ≤ 2 ∧ (2 : Int) ≤ Word.largest ∧
      ∃ s : Statistics Float, Statistics.empty 2 = .ok s ∧
        (Execution.run s calls).recentErrors 5 = [failed, .actionFailed "CALL_API" "no answer"] ∧
        ∃ r, (Execution.run s calls).popular 1 = [r] ∧ r.rule = "b" := by
  intro failed calls
  have hmost : (2 : Int) ≤ Word.largest := by decide
  obtain ⟨s, hs, hrule, hrecent, ⟨ranked, hranking, hpopular⟩, -⟩ :=
    (run_lists (by decide : (0 : Int) ≤ 2) calls).1 hmost
  refine ⟨by decide, hmost, s, hs, hrecent 5, ?_⟩
  have ha : ((Execution.run s calls).rule "a").executions = 1 := (hrule "a").executions
  have hb : ((Execution.run s calls).rule "b").executions = 2 := (hrule "b").executions
  have hmem : (Execution.run s calls).rule "b" ∈ ranked :=
    (hranking.mem _).2 ⟨⟨"b", by decide, rfl⟩, trivial⟩
  cases ranked with
  | nil => cases hmem
  | cons r rest =>
    refine ⟨r, hpopular 1, ?_⟩
    obtain ⟨⟨id, hid, rfl⟩, -⟩ := (hranking.mem r).1 (List.mem_cons_self ..)
    rw [(hrule id).rule]
    by_contra hne
    obtain rfl : id = "a" := by
      have hids : id ∈ ["a", "b", "b"] := hid
      simp only [List.mem_cons, List.not_mem_nil, or_false] at hids
      tauto
    -- the other rule would be listed later, although it has more executions
    have hrest : (Execution.run s calls).rule "b" ∈ rest := by
      refine (List.mem_cons.1 hmem).resolve_left fun heq => ?_
      have hsame := congrArg (·.executions) heq
      simp only [ha, hb] at hsame
      omega
    have hordered := (List.pairwise_cons.1 hranking.ordered).1 _ hrest
    omega

/-- A feed cannot be made whose length is past what a machine can count. -/
theorem empty_past_largest : (0 : Int) ≤ 2 ^ 63 ∧
    (Statistics.empty (2 ^ 63) : Except Fault (Statistics Float)) =
      .error (.machineInteger "ssize_t") :=
  ⟨by decide, rfl⟩

end Rulebook
