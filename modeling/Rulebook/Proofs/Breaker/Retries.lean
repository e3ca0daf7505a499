/-
  How often a service is asked.

  A request is sent again while it gets lost on the way, until no further attempt is allowed or the
  next wait would reach the end of the time; and what is done has a limit, where it is cut off
  whatever it waits for.  Waits double up to a limit; they are products of doubles, but they are
  exact.  The power of two in them is computed before the limit is applied, so that there is one
  attempt after which no wait can be computed, whatever the limit is.

  * `waitAfter_due`: waits;
  * `tries_step`, `tries_gone`: one attempt, and all of them;
  * `callService_attempts`: the whole action.
-/
import Rulebook.Proofs.Breaker.Blame
import Rulebook.Proofs.Number.Products

namespace Rulebook

open Binary64

/-! ## Replies -/

/-- Whether a reply is that the request got lost on the way. -/
def Http.Reply.isLost : Http.Reply → Bool
  | .broken onTheWay _ => onTheWay
  | _ => false

/-- Why an action fails that gets a reply from an address. -/
def Http.Reply.failure? (address : String) : Http.Reply → Option Failure
  | .answer status _ =>
    if status < 400 then none
    else some (.engine (.handler (s!"API call to {address} returned HTTP {status}")
      (.of [("url", .text address), ("status_code", .int status)])))
  | .broken _ message =>
    some (.engine (.handler (s!"API call to {address} failed: {message}")
      (.of [("url", .text address)])))
  | .fault f => some (.fault f)

/-- What the attempt after `k` others comes to, if it is the last one: the reply to it, or a fault if
    the wait after it is out of range. -/
def Surroundings.lastReply (s : Surroundings) (k : Nat) : Http.Reply :=
  if (s.reply k).isLost ∧ k = 1024 then .fault .resultOutOfRange else s.reply k

/-! ## Times -/

namespace Surroundings

/-- What the clock shows after `n` waits from now on. -/
def nowAfter (s : Surroundings) (n : Nat) : Float :=
  s.clock (s.waited + n)

/-- Whether the limit is over after `n` waits from now on. -/
def cutAfter (s : Surroundings) (n : Nat) : Bool :=
  match s.limit with
  | none => false
  | some t => !(s.nowAfter n ≤ t)

/-- The next `n` waits end within the limit. -/
def InTime (s : Surroundings) (n : Nat) : Prop :=
  ∀ m, 0 < m → m ≤ n → s.cutAfter m = false

theorem InTime.zero (s : Surroundings) : s.InTime 0 :=
  fun _ hpos hle => absurd hpos (by omega)

theorem InTime.succ {s : Surroundings} {n : Nat} (h : s.InTime n)
    (hnext : s.cutAfter (n + 1) = false) : s.InTime (n + 1) := fun m hpos hle =>
  (Nat.le_succ_iff.1 hle).elim (h m hpos) fun heq => heq ▸ hnext

end Surroundings

theorem Unasked.nowAfter {s s' : Surroundings} (h : Unasked s s') (n : Nat) :
    s'.nowAfter n = s.nowAfter n := by
  rw [Surroundings.nowAfter, h.clock, h.waited]
  rfl

theorem Unasked.cutAfter {s s' : Surroundings} (h : Unasked s s') (n : Nat) :
    s'.cutAfter n = s.cutAfter n := by
  rw [Surroundings.cutAfter, h.limit, h.nowAfter]
  rfl

theorem Unasked.inTime {s s' : Surroundings} (h : Unasked s s') {n : Nat} (hn : s'.InTime n) :
    s.InTime n := fun m hpos hle => (h.cutAfter m).symm.trans (hn m hpos hle)

namespace Handler

/-! ## Waits -/

/-- The wait after `n` others. -/
def waitAfter (base : Float) (n : Nat) : Float :=
  let grown := base * twoTo n
  let capped := if 2.0 < grown then 2.0 else grown
  if 0.0 < capped then capped else 0.0

/-- A wait after `n` others is exactly what it should be: the base, doubled as often, but at most two
    seconds. -/
structure Due (base : Float) (n : Nat) (wait : Float) : Prop where
  finite (b : ℚ) : value? base = some b → 0 ≤ b → value? wait = some (min (b * 2 ^ n) 2)
  infinite : base = infinity false → value? wait = some 2

theorem delay_eq (config : Config) {n : Nat} (hn : n < 1024) :
    (requestBackoff config).delay (n + 1) = .ok (.float (waitAfter config.callBaseDelay n)) := by
  unfold Backoff.delay requestBackoff
  dsimp only
  rw [add_sub_cancel_right, pow_two hn]
  change Except.ok (Number.max (.float 0.0)
    (Number.min (.float (config.callBaseDelay * twoTo n)) (.float 2.0))) = _
  unfold Number.max Number.min waitAfter
  simp only [order_eq_lt, ← apply_ite Number.float, order_eq_gt]

/-- The power of two in the wait is out of range. -/
theorem delay_past (config : Config) :
    (requestBackoff config).delay ((1024 : Nat) + 1) = .error .resultOutOfRange := by
  unfold Backoff.delay requestBackoff
  dsimp only
  rw [add_sub_cancel_right, Nat.cast_ofNat, pow_two_past]
  rfl

section

variable {base : Float} {n : Nat}

theorem waitAfter_of_infinite (h : base * twoTo n = infinity false) :
    waitAfter base n = 2.0 := by
  have hcapped : (2.0 : Float) < infinity false ∧ (0.0 : Float) < 2.0 := by decide +kernel
  unfold waitAfter
  dsimp only
  rw [h, if_pos hcapped.1, if_pos hcapped.2]

theorem waitAfter_of_value {v : ℚ} (h : value? (base * twoTo n) = some v) (hv : 0 ≤ v) :
    value? (waitAfter base n) = some (min v 2) := by
  have hcapped : value? (if 2.0 < base * twoTo n then 2.0 else base * twoTo n) =
      some (min v 2) := by
    have hlt := lt_iff_value value?_two h
    split_ifs with hlong
    · rw [min_eq_right (hlt.1 hlong).le, value?_two]
    · rw [min_eq_left (not_lt.1 (mt hlt.2 hlong)), h]
  unfold waitAfter
  dsimp only
  generalize (if 2.0 < base * twoTo n then 2.0 else base * twoTo n) = capped at hcapped ⊢
  split_ifs with hpos
  · exact hcapped
  · have hnot := mt (lt_iff_value value?_zero hcapped).2 hpos
    rw [value?_zero, le_antisymm (not_lt.1 hnot) (le_min hv zero_le_two)]

/-- Waits are exact. -/
theorem waitAfter_due (base : Float) (hn : n < 1024) : Due base n (waitAfter base n) where
  finite b hb hpos := by
    rcases value?_mul_twoTo hb hpos hn with hvalue | ⟨hpast, hleast⟩
    · exact waitAfter_of_value hvalue (by positivity)
    · have htwo : (2 : ℚ) ≤ b * 2 ^ n :=
        le_trans (le_self_pow₀ one_le_two (by norm_num)) hleast
      rw [waitAfter_of_infinite hpast, value?_two, min_eq_right htwo]
  infinite hbase := by
    rw [waitAfter_of_infinite (by rw [hbase, infinity_mul_twoTo hn]), value?_two]

end

/-! ## Attempts -/

theorem outOfTime_eq (deadline now wait : Float) :
    Backoff.outOfTime (some (.float deadline)) (.float now) (.float wait) =
      .ok (decide (deadline ≤ now + wait)) := by
  have horder : Number.order (.float (now + wait)) (.float deadline) =
      (deadline.toModel.unpack.compare (now + wait).toModel.unpack).map Ordering.swap := by
    rw [order_float, compare_swap deadline.toModel.unpack]
  have hsum : (Number.float now).add (.float wait) = .ok (.float (now + wait)) := rfl
  unfold Backoff.outOfTime
  simp only [hsum, bind, Except.bind, horder, le_iff_compare]
  generalize deadline.toModel.unpack.compare (now + wait).toModel.unpack = o
  rcases o with _ | _ | _ | _ <;> rfl

/-- A request was sent `n` times, with `w` waits in between. -/
structure Tried (r : Http.Request) (base : Float) (n w : Nat) (s s' : Surroundings) : Prop
    extends Sent r n s s' where
  waits : s'.waits = s.waits ++ (List.range w).map fun k => .float (waitAfter base k)
  waited : s'.waited = s.waited + (n + w)

section

variable {r : Http.Request} {base : Float} {n w : Nat} {s s' : Surroundings}

theorem Tried.refl (r : Http.Request) (base : Float) (s : Surroundings) : Tried r base 0 0 s s where
  breakers := rfl
  clock := rfl
  limit := rfl
  reply k := by rw [Nat.zero_add]
  requests := by rw [List.replicate_zero, List.append_nil]
  waits := by rw [List.range_zero, List.map_nil, List.append_nil]
  waited := rfl

theorem Tried.now (h : Tried r base n w s s') : s'.now = s.nowAfter (n + w) := by
  rw [Surroundings.now, h.clock, h.waited]
  rfl

theorem Tried.isCut (h : Tried r base n w s s') : s'.isCut = s.cutAfter (n + w) := by
  have hlimit := h.limit
  unfold Surroundings.isCut Surroundings.cutAfter
  cases ht : s.limit with
  | none => rw [hlimit, ht]
  | some t => rw [hlimit, ht, h.now]

theorem Tried.send (h : Tried r base n w s s') :
    Tried r base (n + 1) w s (send (.ok r) s').2 where
  toSent := h.toSent.trans (send_sent r s')
  waits := h.waits
  waited := by
    change s'.waited + 1 = _
    rw [h.waited]
    omega

theorem Tried.pause (h : Tried r base n w s s') :
    Tried r base n (w + 1) s (pause (.float (waitAfter base w)) s').2 where
  toSent := h.toSent.pause _
  waits := by
    change s'.waits ++ _ = _
    rw [h.waits, List.append_assoc, List.range_succ, List.map_append, List.map_singleton]
  waited := by
    change s'.waited + 1 = _
    rw [h.waited]
    omega

end

/-- How attempts end of which the one after `k` others is the last. -/
def ending (s : Surroundings) (k : Nat) : Backoff.Ended NoAnswer Answer :=
  match s.reply k with
  | .answer status body => .returned ⟨status, body⟩
  | .broken true message =>
    if k = 1024 then .fault .resultOutOfRange else .gaveUp (k + 1) (.broken true message)
  | .broken false message => .raised (.broken false message)
  | .fault f => .raised (.fault f)

theorem ending_of_lost {s : Surroundings} {k : Nat} {message : String}
    (h : s.reply k = .broken true message) :
    ending s k = if k = 1024 then .fault .resultOutOfRange
      else .gaveUp (k + 1) (.broken true message) := by
  simp only [ending, h]

theorem inTheEnd_ending (s : Surroundings) (k : Nat) :
    inTheEnd (ending s k) = received (s.lastReply k) := by
  unfold ending Surroundings.lastReply
  cases hreply : s.reply k with
  | answer status body => rfl
  | fault f => rfl
  | broken onTheWay message =>
    cases onTheWay with
    | false => rfl
    | true =>
      by_cases hk : k = 1024
      · rw [if_pos ⟨rfl, hk⟩]
        simp only [if_pos hk]
        rfl
      · rw [if_neg fun h => hk h.2]
        simp only [if_neg hk]
        rfl

/-- The wait after the attempt that follows `k` others would reach the end of the time. -/
def Late (config : Config) (deadline : Float) (s : Surroundings) (k : Nat) : Prop :=
  deadline ≤ s.nowAfter (2 * k + 1) + waitAfter config.callBaseDelay k

/-- Why the attempt after `k` others is the last one. -/
inductive Last (config : Config) (deadline : Float) (s : Surroundings) (k : Nat) : Prop
  /-- The request did not get lost on the way. -/
  | settled (h : (s.reply k).isLost = false)
  /-- No further attempt is allowed. -/
  | allowed (h : config.callAttempts ≤ k + 1)
  /-- The next wait would reach the end of the time. -/
  | late (h : Late config deadline s k)
  /-- The next wait cannot be computed. -/
  | outOfRange (h : k = 1024)

theorem Last.congr {config : Config} {deadline : Float} {k : Nat} {s s' : Surroundings}
    (h : Unasked s s') : Last config deadline s' k ↔ Last config deadline s k := by
  have hreply := h.reply k
  have hnow := h.nowAfter (2 * k + 1)
  constructor
  · rintro (hsettled | hallowed | hlate | hrange)
    · exact .settled (hreply ▸ hsettled)
    · exact .allowed hallowed
    · exact .late (by rwa [Late, ← hnow])
    · exact .outOfRange hrange
  · rintro (hsettled | hallowed | hlate | hrange)
    · exact .settled (hreply ▸ hsettled)
    · exact .allowed hallowed
    · exact .late (by rwa [Late, hnow])
    · exact .outOfRange hrange

theorem Last.isLeast {config : Config} {deadline : Float} {k : Nat} {s : Surroundings}
    (h : Last config deadline s k) (hgone : ∀ j < k, ¬Last config deadline s j) :
    IsLeast {j | Last config deadline s j} k :=
  ⟨h, fun j hj => not_lt.1 fun hlt => hgone j hlt hj⟩

/-- How attempts go: up to the last one, or up to a wait that the limit cuts off. -/
inductive Gone (config : Config) (r : Http.Request) (deadline : Float) (s : Surroundings) :
    Backoff.Ended NoAnswer Answer × Surroundings → Prop
  | ended (k : Nat) {s' : Surroundings} : IsLeast {j | Last config deadline s j} k →
      s.InTime (2 * k + 1) → Tried r config.callBaseDelay (k + 1) k s s' →
      Gone config r deadline s (ending s k, s')
  /-- The wait after `n` others is cut off; each request is waited for, and the next one is. -/
  | cutOff (n : Nat) {s' : Surroundings} : (∀ j, 2 * j < n → ¬Last config deadline s j) →
      s.InTime n → s.cutAfter (n + 1) = true →
      Tried r config.callBaseDelay ((n + 2) / 2) ((n + 1) / 2) s s' →
      Gone config r deadline s (.raised .cut, s')

section

variable {config : Config} {r : Http.Request} {deadline : Float} {k : Nat} (fewer : Nat)
  {s s' : Surroundings}

theorem call_tried (h : Tried r config.callBaseDelay k k s s') :
    (sending (.ok r) deadline).call s' =
      (if s.cutAfter (2 * k + 1) then .error .cut else received (s.reply k),
        (send (.ok r) s').2) := by
  have hcut : (s'.sent r).later.isCut = s.cutAfter (2 * k + 1) := by
    rw [show 2 * k + 1 = k + 1 + k by omega]
    exact h.send.isCut
  refine Prod.ext ?_ rfl
  change (send (.ok r) s').1 = _
  rw [send_fst, hcut, h.reply]
  rfl

theorem now_tried (h : Tried r config.callBaseDelay k k s s') :
    (sending (.ok r) deadline).now (send (.ok r) s').2 = .float (s.nowAfter (2 * k + 1)) := by
  rw [show 2 * k + 1 = k + 1 + k by omega]
  exact congrArg Number.float h.send.now

theorem sleep_tried (h : Tried r config.callBaseDelay k k s s') :
    let wait := Number.float (waitAfter config.callBaseDelay k)
    (sending (.ok r) deadline).sleep wait (send (.ok r) s').2 =
      (if s.cutAfter (2 * k + 2) then .error .cut else .ok (),
        (pause wait (send (.ok r) s').2).2) := by
  intro wait
  have hcut : (pause wait (send (.ok r) s').2).2.isCut = s.cutAfter (2 * k + 2) := by
    rw [show 2 * k + 2 = k + 1 + (k + 1) by omega]
    exact h.send.pause.isCut
  rw [← hcut]
  rfl

theorem tries_of_settled (h : Tried r config.callBaseDelay k k s s')
    (hcut : s.cutAfter (2 * k + 1) = false) (hsettled : (s.reply k).isLost = false) :
    (requestBackoff config).tries (sending (.ok r) deadline) fewer k s' =
      (ending s k, (send (.ok r) s').2) := by
  rw [Backoff.tries, call_tried h, hcut, ending]
  cases hreply : s.reply k with
  | answer status body => rfl
  | fault f => rfl
  | broken onTheWay message =>
    obtain rfl : onTheWay = false := by rwa [hreply] at hsettled
    rfl

theorem eq_broken_of_isLost {reply : Http.Reply} (h : reply.isLost = true) :
    ∃ message, reply = .broken true message := by
  cases reply with
  | answer status body => cases h
  | fault f => cases h
  | broken onTheWay message =>
    obtain rfl : onTheWay = true := h
    exact ⟨message, rfl⟩

theorem tries_of_cut (h : Tried r config.callBaseDelay k k s s')
    (hcut : s.cutAfter (2 * k + 1) = true) :
    (requestBackoff config).tries (sending (.ok r) deadline) fewer k s' =
      (.raised .cut, (send (.ok r) s').2) := by
  rw [Backoff.tries, call_tried h, hcut]
  rfl

theorem tries_of_lost (h : Tried r config.callBaseDelay k k s s')
    (hcut : s.cutAfter (2 * k + 1) = false) {message : String}
    (hlost : s.reply k = .broken true message) (hk : k < 1024) :
    (requestBackoff config).tries (sending (.ok r) deadline) fewer k s' =
      match fewer with
      | 0 => (.gaveUp (k + 1) (.broken true message), (send (.ok r) s').2)
      | rest + 1 =>
        let paused := (pause (.float (waitAfter config.callBaseDelay k)) (send (.ok r) s').2).2
        if deadline ≤ s.nowAfter (2 * k + 1) + waitAfter config.callBaseDelay k then
          (.gaveUp (k + 1) (.broken true message), (send (.ok r) s').2)
        else if s.cutAfter (2 * k + 2) then (.raised .cut, paused)
        else (requestBackoff config).tries (sending (.ok r) deadline) rest (k + 1) paused := by
  rw [Backoff.tries, call_tried h, hcut, hlost]
  have hdeadline : (sending (.ok r) deadline).deadline = some (.float deadline) := rfl
  have hagain : ¬(!(sending (.ok r) deadline).again (.broken true message)) = true :=
    Bool.false_ne_true
  simp only [received, Bool.false_eq_true, if_false, delay_eq config hk, now_tried h, hdeadline]
  rw [if_neg hagain]
  simp only [bind, Except.bind, outOfTime_eq, pure, Except.pure]
  cases fewer with
  | zero => rfl
  | succ rest =>
    simp only [decide_eq_true_eq, sleep_tried h]
    split_ifs <;> rfl

theorem tries_out_of_range (h : Tried r config.callBaseDelay 1024 1024 s s')
    (hcut : s.cutAfter (2 * 1024 + 1) = false) {message : String}
    (hlost : s.reply 1024 = .broken true message) :
    (requestBackoff config).tries (sending (.ok r) deadline) fewer 1024 s' =
      (.fault .resultOutOfRange, (send (.ok r) s').2) := by
  rw [Backoff.tries, call_tried h, hcut, hlost]
  simp only [received, delay_past config]
  rfl

/-- An attempt is cut off, or it is the last one, or the wait after it is cut off, or another attempt
    follows. -/
theorem tries_step (deadline : Float) (h : Tried r config.callBaseDelay k k s s') (hk : k ≤ 1024)
    (hcount : (config.callAttempts - 1).toNat = k + fewer) :
    let tried := (requestBackoff config).tries (sending (.ok r) deadline) fewer k s'
    let sent := (send (.ok r) s').2
    let paused := (pause (.float (waitAfter config.callBaseDelay k)) sent).2
    (s.cutAfter (2 * k + 1) = true ∧ tried = (.raised .cut, sent)) ∨
    s.cutAfter (2 * k + 1) = false ∧
      ((Last config deadline s k ∧ tried = (ending s k, sent)) ∨
      ¬Last config deadline s k ∧
        ((s.cutAfter (2 * k + 2) = true ∧ tried = (.raised .cut, paused)) ∨
        s.cutAfter (2 * k + 2) = false ∧ ∃ rest, fewer = rest + 1 ∧
          tried = (requestBackoff config).tries (sending (.ok r) deadline) rest (k + 1) paused)) := by
  intro tried sent paused
  cases hcut : s.cutAfter (2 * k + 1) with
  | true => exact .inl ⟨rfl, tries_of_cut fewer h hcut⟩
  | false =>
    refine .inr ⟨rfl, ?_⟩
    cases hlost : (s.reply k).isLost with
    | false => exact .inl ⟨.settled hlost, tries_of_settled fewer h hcut hlost⟩
    | true =>
      obtain ⟨message, hreply⟩ := eq_broken_of_isLost hlost
      rcases Nat.lt_or_eq_of_le hk with hlt | rfl
      · have htried : tried = _ := tries_of_lost fewer h hcut hreply hlt
        rw [ending_of_lost hreply, if_neg hlt.ne]
        cases fewer with
        | zero => exact .inl ⟨.allowed (by omega), htried⟩
        | succ rest =>
          dsimp only at htried
          split_ifs at htried with hlate hwait
          · exact .inl ⟨.late hlate, htried⟩
          all_goals
            have hnot : ¬Last config deadline s k := by
              rintro (hsettled | hallowed | hlate' | rfl)
              · exact absurd (hlost.symm.trans hsettled) nofun
              · omega
              · exact hlate hlate'
              · omega
          · exact .inr ⟨hnot, .inl ⟨hwait, htried⟩⟩
          · exact .inr ⟨hnot, .inr ⟨Bool.eq_false_iff.2 hwait, rest, rfl, htried⟩⟩
      · have htried : tried = _ := tries_out_of_range fewer h hcut hreply
        exact .inl ⟨.outOfRange rfl, by rw [htried, ending_of_lost hreply, if_pos rfl]⟩

/-- Attempts that follow `k` others are over after the next one, or go on after it and a wait. -/
theorem tries_next (h : Tried r config.callBaseDelay k k s s') (hk : k ≤ 1024)
    (hintime : s.InTime (2 * k)) (hgone : ∀ j < k, ¬Last config deadline s j)
    (hcount : (config.callAttempts - 1).toNat = k + fewer) :
    let tried := (requestBackoff config).tries (sending (.ok r) deadline) fewer k s'
    let paused := (pause (.float (waitAfter config.callBaseDelay k)) (send (.ok r) s').2).2
    Gone config r deadline s tried ∨
    ¬Last config deadline s k ∧ s.InTime (2 * (k + 1)) ∧
      Tried r config.callBaseDelay (k + 1) (k + 1) s paused ∧ ∃ rest, fewer = rest + 1 ∧
        tried = (requestBackoff config).tries (sending (.ok r) deadline) rest (k + 1) paused := by
  intro tried paused
  have hpaused : Tried r config.callBaseDelay (k + 1) (k + 1) s paused := h.send.pause
  obtain ⟨hcut, htried⟩ | ⟨hcut, ⟨hlast, htried⟩ | ⟨hnot, ⟨hwait, htried⟩ | ⟨hwait, hnext⟩⟩⟩ :=
    tries_step fewer deadline h hk hcount
  · left
    rw [show tried = _ from htried]
    refine .cutOff (2 * k) (fun j hj => hgone j (by omega)) hintime hcut ?_
    rw [show (2 * k + 2) / 2 = k + 1 by omega, show (2 * k + 1) / 2 = k by omega]
    exact h.send
  · left
    rw [show tried = _ from htried]
    exact .ended k (hlast.isLeast hgone) (hintime.succ hcut) h.send
  · have hgone' (j : Nat) (hj : 2 * j < 2 * k + 1) : ¬Last config deadline s j :=
      (Nat.lt_or_eq_of_le (by omega : j ≤ k)).elim (hgone j) fun heq => heq ▸ hnot
    left
    rw [show tried = _ from htried]
    refine .cutOff (2 * k + 1) hgone' (hintime.succ hcut) hwait ?_
    rw [show (2 * k + 1 + 2) / 2 = k + 1 by omega, show (2 * k + 1 + 1) / 2 = k + 1 by omega]
    exact hpaused
  · exact .inr ⟨hnot, (hintime.succ hcut).succ hwait, hpaused, hnext⟩

/-- Attempts that follow `k` others go on until the first one that is the last, or until they are cut
    off. -/
theorem tries_gone (h : Tried r config.callBaseDelay k k s s') (hk : k ≤ 1024)
    (hintime : s.InTime (2 * k)) (hgone : ∀ j < k, ¬Last config deadline s j)
    (hcount : (config.callAttempts - 1).toNat = k + fewer) :
    Gone config r deadline s
      ((requestBackoff config).tries (sending (.ok r) deadline) fewer k s') := by
  induction fewer generalizing k s' with
  | zero =>
    obtain hover | ⟨-, -, -, rest, hrest, -⟩ := tries_next 0 h hk hintime hgone hcount
    · exact hover
    · cases hrest
  | succ fewer ih =>
    obtain hover | ⟨hnot, hintime', hpaused, rest, hrest, hnext⟩ :=
      tries_next (fewer + 1) h hk hintime hgone hcount
    · exact hover
    · cases hrest
      have hne : k ≠ 1024 := fun heq => hnot (.outOfRange heq)
      have hgone' : ∀ j < k + 1, ¬Last config deadline s j := fun j hj =>
        (Nat.lt_succ_iff_lt_or_eq.1 hj).elim (hgone j) fun heq => heq ▸ hnot
      rw [hnext]
      exact ih hpaused (by omega) hintime' hgone' (by omega)

end

theorem allowed_attempts (config : Config) :
    (requestBackoff config).allowed.ceilCount?.getD Backoff.endless - 1 =
      (config.callAttempts - 1).toNat := by
  change (Number.max (.int 1) (.int config.callAttempts)).ceilCount?.getD _ - 1 = _
  have horder : (Number.int config.callAttempts).order (.int 1) = some .gt ↔
      1 < config.callAttempts :=
    Option.some_inj.trans compare_gt_iff_gt
  unfold Number.max
  split_ifs with hmore
  · have hlt := horder.1 hmore
    change config.callAttempts.toNat - 1 = _
    omega
  · have hle := mt horder.2 hmore
    change 0 = _
    omega

/-- How often a request is sent, and how that ends. -/
theorem run_gone (config : Config) (r : Http.Request) (deadline : Float) (s : Surroundings) :
    Gone config r deadline s ((requestBackoff config).run (sending (.ok r) deadline) s) := by
  unfold Backoff.run
  rw [allowed_attempts]
  exact tries_gone _ (.refl r _ s) (Nat.zero_le _) (.zero s)
    (fun j hj => absurd hj (Nat.not_lt_zero j)) (Nat.zero_add _).symm

theorem exists_last (config : Config) (deadline : Float) (s : Surroundings) :
    ∃ k, IsLeast {j | Last config deadline s j} k := by
  classical
  have hlast : ∃ k, Last config deadline s k := ⟨1024, .outOfRange rfl⟩
  exact ⟨Nat.find hlast, Nat.find_spec hlast, fun _ => Nat.find_min' hlast⟩

/-- What was sent of a request, and waited in between. -/
structure Journal (r : Http.Request) (base : Float) (n w : Nat) (s s' : Surroundings) : Prop where
  requests : s'.requests = s.requests ++ List.replicate n r
  waits : s'.waits = s.waits ++ (List.range w).map fun k => .float (waitAfter base k)

/-- How a request that the breaker of a service lets through as `b` is sent. -/
inductive Guarded (config : Config) (service : String) (r : Http.Request) (deadline : Float)
    (b : Breaker Float) (s : Surroundings) :
    EStateM.Result Act.Stop Surroundings (Breakers.Called Float NoAnswer Answer) → Prop
  | ended (k : Nat) {s' : Surroundings} : IsLeast {j | Last config deadline s j} k →
      s.InTime (2 * k + 1) → Journal r config.callBaseDelay (k + 1) k s s' →
      s'.breakers =
        after s.breakers service b (s.nowAfter (2 * k + 1)) (received (s.lastReply k)) →
      Guarded config service r deadline b s (.ok (passed (received (s.lastReply k))) s')
  | cutOff (n : Nat) {s' : Surroundings} : (∀ j, 2 * j < n → ¬Last config deadline s j) →
      s.InTime n → s.cutAfter (n + 1) = true →
      Journal r config.callBaseDelay ((n + 2) / 2) ((n + 1) / 2) s s' →
      s'.breakers = s.breakers.put service b →
      Guarded config service r deadline b s (.ok (.raised .cut) s')

/-- How often a request is sent through a breaker, and what the breaker counts. -/
theorem sendGuarded_guarded (config : Config) {service : String} (r : Http.Request)
    (deadline : Float) {s : Surroundings} {b : Breaker Float}
    (hstart : (s.breakers.get service).start? s.breakers.settings s.now = some b) :
    Guarded config service r deadline b s (sendGuarded config service (.ok r) deadline s) := by
  have hgone := run_gone config r deadline s
  cases hran : (requestBackoff config).run (sending (.ok r) deadline) s with
  | mk ended s' =>
    have htry : sendTrying config (.ok r) deadline s = (inTheEnd ended, s') := by
      rw [sendTrying, hran]
    rw [sendGuarded_passed config hstart htry]
    rw [hran] at hgone
    cases hgone with
    | ended k hleast hintime htried =>
      rw [inTheEnd_ending, htried.now, show k + 1 + k = 2 * k + 1 by omega]
      exact .ended k hleast hintime ⟨htried.requests, htried.waits⟩ rfl
    | cutOff n hnot hintime hcut htried =>
      exact .cutOff n hnot hintime hcut ⟨htried.requests, htried.waits⟩ rfl

/-! ## Actions -/

section

variable {address : String} {q : Inquiry} {reply : Http.Reply}

theorem failure?_eq_none_iff : reply.failure? address = none ↔
    ∃ status body, reply = .answer status body ∧ status < 400 := by
  cases reply with
  | answer status body => simp [Http.Reply.failure?]
  | broken onTheWay message => simp [Http.Reply.failure?]
  | fault f => simp [Http.Reply.failure?]

theorem answer_failed (stamps : Stamps) {e : Failure} (he : reply.failure? q.address = some e)
    (s : Surroundings) :
    callService.answer stamps q (passed (received reply)) s = .error (.failed e) s := by
  cases reply with
  | answer status body =>
    unfold Http.Reply.failure? at he
    dsimp only at he
    split_ifs at he with hlow
    obtain rfl := Option.some.inj he
    have hfirst : Http.firstError ≤ status := not_lt.1 hlow
    unfold callService.answer passed received
    dsimp only
    rw [if_pos hfirst]
    rfl
  | broken onTheWay message =>
    obtain rfl := Option.some.inj he
    rfl
  | fault f =>
    obtain rfl := Option.some.inj he
    rfl

theorem answer_succeeded (stamps : Stamps) (hnone : reply.failure? q.address = none)
    (s : Surroundings) :
    ∃ v s', callService.answer stamps q (passed (received reply)) s = .ok v s' := by
  obtain ⟨status, body, rfl, hlow⟩ := failure?_eq_none_iff.1 hnone
  have hfirst : ¬Http.firstError ≤ status := not_le.2 hlow
  unfold callService.answer passed received
  dsimp only
  rw [if_neg hfirst]
  exact ⟨_, _, rfl⟩

theorem answer_error (stamps : Stamps) {stop : Act.Stop} {s s' : Surroundings}
    (h : callService.answer stamps q (passed (received reply)) s = .error stop s') :
    ∃ e, stop = .failed e ∧ reply.failure? q.address = some e := by
  cases hfailure : reply.failure? q.address with
  | none =>
    obtain ⟨v, s'', hok⟩ := answer_succeeded stamps hfailure s
    exact absurd (hok.symm.trans h) nofun
  | some e' =>
    cases (answer_failed stamps hfailure s).symm.trans h
    exact ⟨e', rfl, rfl⟩

theorem answer_ok_iff (stamps : Stamps) (s : Surroundings) :
    (∃ v s', callService.answer stamps q (passed (received reply)) s = .ok v s') ↔
      reply.failure? q.address = none := by
  constructor
  · rintro ⟨v, s', hok⟩
    refine Option.eq_none_iff_forall_ne_some.2 fun e he => ?_
    exact absurd ((answer_failed stamps he s).symm.trans hok) nofun
  · intro hnone
    obtain ⟨v, s', hok⟩ := answer_succeeded stamps hnone s
    exact ⟨v, s', hok⟩

end

theorem lastReply_fails (s : Surroundings) (k : Nat) : (s.lastReply k).Fails ↔ (s.reply k).Fails := by
  unfold Surroundings.lastReply
  split_ifs with hlast
  · obtain ⟨message, hreply⟩ := eq_broken_of_isLost hlast.1
    rw [hreply]
    rfl
  · rfl

theorem lastReply_answer_iff (s : Surroundings) (k : Nat) (status : Int) (body : String) :
    s.lastReply k = .answer status body ↔ s.reply k = .answer status body := by
  unfold Surroundings.lastReply
  split_ifs with hlast
  · obtain ⟨message, hreply⟩ := eq_broken_of_isLost hlast.1
    simp [hreply]
  · rfl

/-- How an action ends that sends its request for the last time after `k` others. -/
structure Concluded (config : Config) (q : Inquiry) (r : Http.Request) (b : Breaker Float) (k : Nat)
    (s : Surroundings) (result : EStateM.Result Act.Stop Surroundings Value) : Prop
    extends Journal r config.callBaseDelay (k + 1) k s (stateLeft result) where
  due (j : Nat) : j < k → Due config.callBaseDelay j (waitAfter config.callBaseDelay j)
  succeeds : (∃ v s', result = .ok v s') ↔
    ∃ status body, s.reply k = .answer status body ∧ status < 400
  fails (stop : Act.Stop) (s' : Surroundings) : result = .error stop s' →
    ∃ e, stop = .failed e ∧ (s.lastReply k).failure? q.address = some e
  /-- All attempts count as one failure or one success. -/
  failure : (s.reply k).Fails → (stateLeft result).breakers.get q.service =
    b.fail s.breakers.settings (s.nowAfter (2 * k + 1))
  success : ¬(s.reply k).Fails → (stateLeft result).breakers.get q.service = b.succeed
  others (name : String) : name ≠ q.service →
    (stateLeft result).breakers.get name = s.breakers.get name

/-- How an action ends that is cut off in the wait after `n` others. -/
structure CutOff (config : Config) (q : Inquiry) (r : Http.Request) (b : Breaker Float) (n : Nat)
    (s : Surroundings) (result : EStateM.Result Act.Stop Surroundings Value) : Prop
    extends Journal r config.callBaseDelay ((n + 2) / 2) ((n + 1) / 2) s (stateLeft result) where
  due (j : Nat) : j < (n + 1) / 2 → Due config.callBaseDelay j (waitAfter config.callBaseDelay j)
  cut : IsCut result
  /-- The attempts do not count. -/
  undecided : (stateLeft result).breakers.get q.service = b
  others (name : String) : name ≠ q.service →
    (stateLeft result).breakers.get name = s.breakers.get name

theorem Journal.congr {r : Http.Request} {base : Float} {n w : Nat} {s s₁ s₂ s' : Surroundings}
    (h : Unasked s s₁) (hj : Journal r base n w s₁ s₂) (h' : Unasked s₂ s') :
    Journal r base n w s s' where
  requests := by rw [h'.requests, hj.requests, h.requests]
  waits := by rw [h'.waits, hj.waits, h.waits]

section

variable {config : Config} {q : Inquiry} {r : Http.Request} {b : Breaker Float}
  {s s₁ s₂ : Surroundings}

/-- The answer to the last request concludes an action. -/
theorem Concluded.of_answer (stamps : Stamps) {k : Nat} (hk : k ≤ 1024) (hprepared : Unasked s s₁)
    (hjournal : Journal r config.callBaseDelay (k + 1) k s₁ s₂)
    (hbreakers : s₂.breakers =
      after s.breakers q.service b (s.nowAfter (2 * k + 1)) (received (s.lastReply k))) :
    Concluded config q r b k s
      (callService.answer stamps q (passed (received (s.lastReply k))) s₂) := by
  have hanswered : Unasked s₂ _ := answer_unasked stamps q (passed (received (s.lastReply k))) s₂
  have hcut : received (s.lastReply k) ≠ .error .cut := by
    cases s.lastReply k <;> exact nofun
  have hfailed : success? (received (s.lastReply k)) = some false ↔ (s.reply k).Fails :=
    (success?_eq_false_iff (tells_received _) hcut).trans (lastReply_fails s k)
  refine ⟨hjournal.congr hprepared hanswered, fun j hj => ?_, ?_, fun stop s' herror => ?_,
    fun hfails => ?_, fun hfails => ?_, fun name hname => ?_⟩
  · exact waitAfter_due _ (hj.trans_le hk)
  · simp only [answer_ok_iff, failure?_eq_none_iff, lastReply_answer_iff]
  · exact answer_error stamps herror
  · rw [hanswered.breakers, hbreakers, after_get_self, hfailed.2 hfails]
    rfl
  · rw [hanswered.breakers, hbreakers, after_get_self]
    cases hsuccess : success? (received (s.lastReply k)) with
    | none => exact absurd (success?_eq_none_iff.1 hsuccess) hcut
    | some success =>
      cases success with
      | true => rfl
      | false => exact absurd (hfailed.1 hsuccess) hfails
  · rw [hanswered.breakers, hbreakers, after_get_of_ne _ _ _ _ hname]

/-- What is told of a request that is cut off leaves its breaker undecided. -/
theorem CutOff.of_answer (stamps : Stamps) {n : Nat} (hn : n ≤ 2 * 1024) (hprepared : Unasked s s₁)
    (hjournal : Journal r config.callBaseDelay ((n + 2) / 2) ((n + 1) / 2) s₁ s₂)
    (hbreakers : s₂.breakers = s.breakers.put q.service b) :
    CutOff config q r b n s (callService.answer stamps q (.raised .cut) s₂) := by
  have hanswered : Unasked s₂ _ := answer_unasked stamps q (.raised .cut) s₂
  refine ⟨hjournal.congr hprepared hanswered, fun j hj => waitAfter_due _ (by omega),
    answer_isCut_iff.1 rfl, ?_, fun name hname => ?_⟩
  · rw [hanswered.breakers, hbreakers, Breakers.get_put_self]
  · rw [hanswered.breakers, hbreakers, Breakers.get_put_of_ne _ _ hname]

end

/-- **A request is sent until one does not get lost.** Whatever the replies, the settings and the
    times: an action whose request can be built and is let through by the breaker sends it until it
    does not get lost on the way, no further attempt is allowed, the next wait would reach the end of
    the time, or that wait is out of range, whichever comes first. It waits in between exactly as
    long as is due. It succeeds if the reply to the last request has a status below 400, and else
    fails with what that reply tells; all attempts count on the breaker as one failure or one
    success. If a wait on the way ends after the limit of what is in progress, the action is cut off
    there, and its attempts do not count. -/
theorem callService_attempts (config : Config) (stamps : Stamps) {ps : Details} {c : Context}
    (deadline : Float) {s s₁ : Surroundings} {q : Inquiry} {r : Http.Request} {b : Breaker Float}
    (hq : callService.prepare ps c s = .ok q s₁) (hr : q.request = .ok r)
    (hb : (s.breakers.get q.service).start? s.breakers.settings s.now = some b) :
    let result := (callService config stamps).run ps c deadline s
    ∃ k, IsLeast {j | Last config deadline s j} k ∧
      (s.InTime (2 * k + 1) ∧ Concluded config q r b k s result ∨
        ∃ n ≤ 2 * k, s.InTime n ∧ s.cutAfter (n + 1) = true ∧
          CutOff config q r b n s result) := by
  intro result
  have hprepared := unasked_of_prepared hq
  have hlast : {j | Last config deadline s₁ j} = {j | Last config deadline s j} :=
    Set.ext fun j => Last.congr hprepared
  have hstart : (s₁.breakers.get q.service).start? s₁.breakers.settings s₁.now = some b := by
    rw [hprepared.breakers, hprepared.now]
    exact hb
  have hguarded := sendGuarded_guarded config r deadline hstart
  rw [← hr] at hguarded
  cases hsend : sendGuarded config q.service q.request deadline s₁ with
  | error e s₂ =>
    rw [hsend] at hguarded
    cases hguarded
  | ok called s₂ =>
    have hresult : result = callService.answer stamps q called s₂ := run_of_sent stamps hq hsend
    rw [hsend] at hguarded
    rw [hresult]
    cases hguarded with
    | ended k hleast hintime hjournal hbreakers =>
      have hreply : s₁.lastReply k = s.lastReply k := by
        rw [Surroundings.lastReply, hprepared.reply]
        rfl
      rw [hlast] at hleast
      rw [hreply, hprepared.breakers, hprepared.nowAfter] at hbreakers
      rw [hreply]
      exact ⟨k, hleast, .inl ⟨hprepared.inTime hintime,
        .of_answer stamps (hleast.2 (.outOfRange rfl)) hprepared hjournal hbreakers⟩⟩
    | cutOff n hnot hintime hcut hjournal hbreakers =>
      obtain ⟨k, hleast⟩ := exists_last config deadline s
      have hshort (j : Nat) (hj : Last config deadline s j) : n ≤ 2 * j :=
        not_lt.1 fun hlt => hnot j hlt ((Last.congr hprepared).2 hj)
      rw [hprepared.breakers] at hbreakers
      exact ⟨k, hleast, .inr ⟨n, hshort k hleast.1, hprepared.inTime hintime,
        (hprepared.cutAfter _).symm.trans hcut,
        .of_answer stamps (hshort 1024 (.outOfRange rfl)) hprepared hjournal hbreakers⟩⟩

/-- A request that gets lost twice is sent three times, with two waits, and counts as one success. -/
theorem callService_attempts_third :
    let config : Config := { callAttempts := 5 }
    let c : Context := ⟨.null, .null, .null, .null, .null, .null⟩
    let ps : Details := .of [("url", .text "http://host/")]
    let b : Breaker Float := .fresh
    let s : Surroundings :=
      { breakers := freshBreakers config, clock := fun _ => 0.0
        replies := [.broken true "lost", .broken true "lost", .answer 200 "{}"] }
    ∃ q s₁ r, callService.prepare ps c s = .ok q s₁ ∧ q.request = .ok r ∧
      (s.breakers.get q.service).start? s.breakers.settings s.now = some b ∧
      IsLeast {j | Last config 5.0 s j} 2 ∧
      Concluded config q r b 2 s
        ((callService config ⟨fun _ => "", ""⟩).run ps c 5.0 s) := by
  intro config c ps b s
  have hbuilt : (match callService.prepare ps c s with
      | .ok q _ => q.service == "host" && q.request.isOk
      | .error .. => false) = true := by decide +kernel
  split at hbuilt
  · next q s₁ hq =>
    simp only [Bool.and_eq_true, beq_iff_eq] at hbuilt
    obtain ⟨hservice, hok⟩ := hbuilt
    cases hr : q.request with
    | error f => simp [hr, Except.isOk, Except.toBool] at hok
    | ok r =>
      have hb : (s.breakers.get q.service).start? s.breakers.settings s.now = some b := by
        rw [hservice]
        rfl
      obtain ⟨k, hleast, hended⟩ := callService_attempts config ⟨fun _ => "", ""⟩ 5.0 hq hr hb
      have hlost (j : Nat) (hj : j < 2) :
          (s.reply j).isLost = true ∧ ¬Late config 5.0 s j := by
        rcases (by omega : j = 0 ∨ j = 1) with rfl | rfl
        · exact ⟨rfl, by unfold Late; decide +kernel⟩
        · exact ⟨rfl, by unfold Late; decide +kernel⟩
      have hthird : IsLeast {j | Last config 5.0 s j} 2 := by
        refine ⟨.settled rfl, fun j hj => not_lt.1 fun hlt => ?_⟩
        have hallowed : config.callAttempts = 5 := rfl
        rcases hj with hsettled | hallowed' | hlate | hrange
        · exact absurd ((hlost j hlt).1.symm.trans hsettled) nofun
        · omega
        · exact (hlost j hlt).2 hlate
        · omega
      obtain rfl := hleast.unique hthird
      obtain ⟨-, hconcluded⟩ | ⟨n, -, -, hcut, -⟩ := hended
      · exact ⟨q, s₁, r, hq, hr, hb, hthird, hconcluded⟩
      · cases hcut
  · cases hbuilt

end Handler

end Rulebook
