/-
  When attempts are given up.

  Settings are only accepted if they allow for an attempt.  Under these a request that gets lost is
  given up after all attempts that are allowed, or when the next wait would reach the end of the
  time, and what is told of it is the number of requests that were sent.  The wait after the attempt
  that follows 1024 others is the one that cannot be computed, whether it is needed or not.  What is
  cut off ends in nothing else.

  * `Config.read_attempts`: settings that are accepted allow for an attempt;
  * `retries_end`: how attempts end under such settings.
-/
import Rulebook.Proofs.Breaker.Retries
import Rulebook.Proofs.Forms

namespace Rulebook

open Binary64

open Schema in
/-- Settings that are accepted allow for an attempt. -/
theorem Config.read_attempts {environment : List (String × String)} {overrides : List (Data × Data)}
    {config : Config} (h : Config.read environment overrides = .ok config) :
    1 ≤ config.callAttempts := by
  have hany {α : Type} {place : List String} {given : Option Data}
      {check : Data → Except Flaw α} {absent : α} {before : Prop} :
      Form.Yields before (field place given (single check) absent) fun _ => True :=
    .field .single trivial fun _ _ _ => trivial
  refine Form.Yields.of_read (P := fun config : Config => 1 ≤ config.callAttempts) ?_ h
  -- the fields before the one for attempts
  iterate 13 refine .bind hany fun _ => ?_
  refine .bind (.field .single (by decide) fun _ _ => single_wholeFrom) fun attempts => ?_
  iterate 3 refine .bind hany fun _ => ?_
  exact .pure fun ⟨⟨⟨⟨_, hattempts⟩, _⟩, _⟩, _⟩ => hattempts

namespace Handler

/-- How attempts end of which the one after `k` others is the last. -/
structure Attempted (config : Config) (deadline : Float) (s : Surroundings) (k : Nat)
    (ended : Backoff.Ended NoAnswer Answer) : Prop where
  /-- Another attempt follows one that is lost, if it is allowed and there is time for it. -/
  earlier (j : Nat) : j < k →
    (s.reply j).isLost ∧ j + 1 < config.callAttempts ∧ ¬Late config deadline s j
  bounded : k ≤ 1024
  returned (a : Answer) : received (s.reply k) = .ok a → ended = .returned a
  raised (e : NoAnswer) : received (s.reply k) = .error e → (s.reply k).isLost = false →
    ended = .raised e
  /-- Attempts are given up when no further one is allowed or there is no time for it. -/
  gaveUp (e : NoAnswer) : received (s.reply k) = .error e → (s.reply k).isLost → k < 1024 →
    ended = .gaveUp (k + 1) e ∧ (k + 1 = config.callAttempts ∨ Late config deadline s k)
  /-- The wait after the attempt that follows 1024 others cannot be computed. -/
  fault : (s.reply k).isLost → k = 1024 → ended = .fault .resultOutOfRange

/-- Another attempt follows one that is not the last. -/
theorem goesOn {config : Config} {deadline : Float} {s : Surroundings} {j : Nat}
    (hnot : ¬Last config deadline s j) :
    (s.reply j).isLost ∧ j + 1 < config.callAttempts ∧ ¬Late config deadline s j := by
  refine ⟨?_, ?_, fun hlate => hnot (.late hlate)⟩
  · exact Bool.not_eq_false _ ▸ fun hsettled => hnot (.settled hsettled)
  · exact not_le.1 fun hallowed => hnot (.allowed hallowed)

theorem attempted {config : Config} {deadline : Float} {s : Surroundings} {k : Nat}
    (hattempts : 1 ≤ config.callAttempts) (h : IsLeast {j | Last config deadline s j} k) :
    Attempted config deadline s k (ending s k) where
  earlier j hj := goesOn fun hlast => (h.2 hlast).not_gt hj
  bounded := h.2 (.outOfRange rfl)
  returned a ha := by
    rw [ending]
    cases hreply : s.reply k with
    | answer status body =>
      rw [hreply] at ha
      exact congrArg Backoff.Ended.returned (Except.ok.inj ha)
    | broken onTheWay message => rw [hreply] at ha; cases ha
    | fault f => rw [hreply] at ha; cases ha
  raised e he hsettled := by
    rw [ending]
    cases hreply : s.reply k with
    | answer status body => rw [hreply] at he; cases he
    | broken onTheWay message =>
      rw [hreply] at he hsettled
      obtain rfl : onTheWay = false := hsettled
      exact congrArg Backoff.Ended.raised (Except.error.inj he)
    | fault f =>
      rw [hreply] at he
      exact congrArg Backoff.Ended.raised (Except.error.inj he)
  gaveUp e he hlost hk := by
    obtain ⟨message, hreply⟩ := eq_broken_of_isLost hlost
    rw [hreply] at he
    rw [ending_of_lost hreply, if_neg hk.ne]
    refine ⟨congrArg (Backoff.Ended.gaveUp (k + 1)) (Except.error.inj he), ?_⟩
    rcases h.1 with hsettled | hallowed | hlate | hrange
    · exact absurd (hsettled.symm.trans hlost) Bool.false_ne_true
    · -- the attempt before it was not the last one that is allowed
      cases k with
      | zero => exact .inl (by omega)
      | succ k =>
        have hmore : ¬config.callAttempts ≤ (k : Int) + 1 := fun hallowed' =>
          (h.2 (.allowed hallowed' : Last config deadline s k)).not_gt (Nat.lt_succ_self k)
        exact .inl (by omega)
    · exact .inr hlate
    · exact absurd hrange hk.ne
  fault hlost hk := by
    obtain ⟨message, hreply⟩ := eq_broken_of_isLost hlost
    rw [ending_of_lost hreply, if_pos hk]

/-- **Attempts end as they should, but for one.** Whatever the settings that are accepted, the replies
    and the times: a request is sent until a reply is none that it got lost, no further attempt is
    allowed, or the next wait would reach the end of the time. In the last two cases it is given up,
    and the number told is that of the requests that were sent. But if 1025 in a row get lost and
    there is time for the waits between them, the wait after the last of them is out of range, which
    is a fault, whether another attempt is allowed or not. Where what is in progress has a limit, the
    first wait that ends after it cuts the attempts off. -/
theorem retries_end {environment : List (String × String)} {overrides : List (Data × Data)}
    {config : Config} (h : Config.read environment overrides = .ok config) (r : Http.Request)
    (deadline : Float) (s : Surroundings) :
    let ran := (requestBackoff config).run (sending (.ok r) deadline) s
    sendTrying config (.ok r) deadline s = (inTheEnd ran.1, ran.2) ∧
    ((∃ k, s.InTime (2 * k + 1) ∧ Tried r config.callBaseDelay (k + 1) k s ran.2 ∧
        Attempted config deadline s k ran.1) ∨
      ∃ n, s.InTime n ∧ s.cutAfter (n + 1) = true ∧
        (∀ j, 2 * j < n →
          (s.reply j).isLost ∧ j + 1 < config.callAttempts ∧ ¬Late config deadline s j) ∧
        Tried r config.callBaseDelay ((n + 2) / 2) ((n + 1) / 2) s ran.2 ∧
        ran.1 = .raised .cut) := by
  intro ran
  refine ⟨rfl, ?_⟩
  have hgone : Gone config r deadline s ran := run_gone config r deadline s
  clear_value ran
  cases hgone with
  | ended k hleast hintime htried =>
    exact .inl ⟨k, hintime, htried, attempted (Config.read_attempts h) hleast⟩
  | cutOff n hnot hintime hcut htried =>
    exact .inr ⟨n, hintime, hcut, fun j hj => goesOn (hnot j hj), htried, rfl⟩

theorem waitAfter_zero {n : Nat} (hn : n < 1024) : waitAfter 0.0 n = 0.0 := by
  have hgrown : value? (0.0 * twoTo n) = some 0 := by
    rcases value?_mul_twoTo value?_zero le_rfl hn with hvalue | ⟨-, hleast⟩
    · rwa [zero_mul] at hvalue
    · rw [zero_mul] at hleast
      exact absurd hleast (by norm_num)
  have hshort : ¬(2.0 : Float) < 0.0 * twoTo n :=
    mt (lt_iff_value value?_two hgrown).1 (by norm_num)
  have hnone : ¬(0.0 : Float) < 0.0 * twoTo n :=
    mt (lt_iff_value value?_zero hgrown).1 (lt_irrefl 0)
  simp only [waitAfter, if_neg hshort, if_neg hnone]

/-- All 1026 attempts are allowed and there is time for them, but after 1025 there is a fault. -/
theorem retries_end_in_fault :
    let config : Config := { callAttempts := 1026, callBaseDelay := 0.0 }
    let r : Http.Request := { method := "GET", url := { path := ['/'] }, headers := {} }
    let s : Surroundings :=
      { breakers := freshBreakers config, clock := fun _ => 0.0, replies := [.broken true "down"] }
    Config.read [] [(.text "call_api_max_attempts", .int 1026),
      (.text "call_api_retry_base_delay", .float 0.0)] = .ok config ∧
    let ran := (requestBackoff config).run (sending (.ok r) 5.0) s
    ran.1 = .fault .resultOutOfRange ∧ ran.2.requests = List.replicate 1025 r := by
  intro config r s
  have hread : Config.read [] [(.text "call_api_max_attempts", .int 1026),
      (.text "call_api_retry_base_delay", .float 0.0)] = .ok config := rfl
  refine ⟨hread, ?_⟩
  -- with a name for the run the kernel would go through all of its attempts
  dsimp only
  obtain ⟨-, ⟨k, -, htried, hattempted⟩ | ⟨n, -, hcut, -⟩⟩ := retries_end hread r 5.0 s
  · have hreply : s.reply k = .broken true "down" := by
      cases k <;> simp [Surroundings.reply, s]
    have hlost : (s.reply k).isLost := by rw [hreply]; rfl
    rcases Nat.lt_or_eq_of_le hattempted.bounded with hk | rfl
    · have hnow : ¬Late config 5.0 s k := by
        rw [Late, waitAfter_zero hk]
        change ¬(5.0 : Float) ≤ 0.0 + 0.0
        decide +kernel
      obtain ⟨-, hlast | hlate⟩ := hattempted.gaveUp _ (by rw [hreply]; rfl) hlost hk
      · have hattempts : config.callAttempts = 1026 := rfl
        omega
      · exact absurd hlate hnow
    · exact ⟨hattempted.fault hlost rfl, htried.requests.trans (List.nil_append _)⟩
  · cases hcut

end Handler

end Rulebook
