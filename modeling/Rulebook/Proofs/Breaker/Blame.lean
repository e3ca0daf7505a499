/-
  What the breaker of a service counts as its failures.

  An action that calls a service prepares an inquiry, and sends its request through the breaker of
  the service: once, or again and again while replies get lost on the way.  What comes of it is
  told by the reply to the last request (`Sent`, `tries_sent`), unless the action is cut off.  The
  breaker counts a failure if that reply is one; it also counts one if there was nothing to send,
  because the parameters of the action make no request.

  * `prepare_unasked`: nothing is asked of a service before its breaker is;
  * `sendTrying_success?`, `sendTrying_setBreakers`: requests, and that they see no breakers;
  * `sendGuarded_blocked`, `sendGuarded_passed`, `sendGuarded_counts`: requests through a breaker;
  * `callService_tally`: the whole action.
-/
import Rulebook.Proofs.Handlers

namespace Rulebook

/-! ## Replies -/

/-- What comes of the request after `n` further ones. The last reply comes again and again. -/
def Surroundings.reply (s : Surroundings) (n : Nat) : Http.Reply :=
  (s.replies[min n (s.replies.length - 1)]?).getD (.broken true "")

/-- A reply is a failure of the service: it tells of one, or there is none. -/
def Http.Reply.Fails : Http.Reply → Prop
  | .answer status _ => Http.firstServiceError ≤ status
  | .broken .. | .fault _ => True

/-- Nothing was asked of a service. -/
structure Unasked (s s' : Surroundings) : Prop where
  breakers : s'.breakers = s.breakers
  clock : s'.clock = s.clock
  waited : s'.waited = s.waited
  limit : s'.limit = s.limit
  replies : s'.replies = s.replies
  requests : s'.requests = s.requests
  waits : s'.waits = s.waits

theorem Unasked.refl (s : Surroundings) : Unasked s s :=
  ⟨rfl, rfl, rfl, rfl, rfl, rfl, rfl⟩

instance : IsPreorder Surroundings Unasked where
  refl := .refl
  trans _ _ _ h h' := ⟨h'.breakers.trans h.breakers, h'.clock.trans h.clock,
    h'.waited.trans h.waited, h'.limit.trans h.limit, h'.replies.trans h.replies,
    h'.requests.trans h.requests, h'.waits.trans h.waits⟩

theorem Unasked.now {s s' : Surroundings} (h : Unasked s s') : s'.now = s.now := by
  rw [Surroundings.now, h.clock, h.waited]
  rfl

theorem Unasked.reply {s s' : Surroundings} (h : Unasked s s') (k : Nat) :
    s'.reply k = s.reply k := by
  rw [Surroundings.reply, h.replies]
  rfl

/-- A request was sent `n` times, and nothing else was asked. -/
structure Sent (r : Http.Request) (n : Nat) (s s' : Surroundings) : Prop where
  breakers : s'.breakers = s.breakers
  clock : s'.clock = s.clock
  limit : s'.limit = s.limit
  reply (k : Nat) : s'.reply k = s.reply (n + k)
  requests : s'.requests = s.requests ++ List.replicate n r

theorem Sent.trans {r : Http.Request} {n m : Nat} {s s' s'' : Surroundings} (h : Sent r n s s')
    (h' : Sent r m s' s'') : Sent r (n + m) s s'' where
  breakers := h'.breakers.trans h.breakers
  clock := h'.clock.trans h.clock
  limit := h'.limit.trans h.limit
  reply k := by rw [h'.reply, h.reply, Nat.add_assoc]
  requests := by rw [h'.requests, h.requests, List.append_assoc, List.replicate_add]

/-- Waiting for the next attempt sends nothing. -/
theorem Sent.pause {r : Http.Request} {n : Nat} {s s' : Surroundings} (h : Sent r n s s')
    (wait : Number) : Sent r n s (Handler.pause wait s').2 :=
  ⟨h.breakers, h.clock, h.limit, h.reply, h.requests⟩

namespace Handler

open Act

/-! ## Inquiries -/

theorem unasked_plain : Plain fun act => Keeps Unasked act :=
  keeps_plain fun _ _ _ => ⟨rfl, rfl, rfl, rfl, rfl, rfl, rfl⟩

theorem prepare_unasked (ps : Details) (c : Context) :
    Keeps Unasked (callService.prepare ps c) :=
  prepare_plain unasked_plain ps c

theorem answer_unasked (stamps : Stamps) (q : Inquiry)
    (called : Breakers.Called Float NoAnswer Answer) :
    Keeps Unasked (callService.answer stamps q called) :=
  answer_plain unasked_plain stamps (.throw _) q called

/-! ## Requests -/

/-- What the outcome of an attempt that was not cut off says of the reply to it. -/
def Tells : Except NoAnswer Answer → Http.Reply → Prop
  | .ok a, reply => reply = .answer a.status a.body
  | .error .cut, _ => True
  | .error _, reply => ∀ status body, reply ≠ .answer status body

theorem tells_received (reply : Http.Reply) : Tells (received reply) reply := by
  cases reply with
  | answer status body => rfl
  | broken onTheWay message => exact nofun
  | fault f => exact nofun

/-- After a reply it is the next one's turn, if there is one. -/
theorem reply_of_cons {s s' : Surroundings} {reply : Http.Reply} {rest : List Http.Reply}
    (hs : s.replies = reply :: rest)
    (hs' : s'.replies = if rest.isEmpty then s.replies else rest) (k : Nat) :
    s'.reply k = s.reply (1 + k) := by
  cases rest with
  | nil => simp [Surroundings.reply, hs', hs]
  | cons next rest =>
    have hmin : min (1 + k) (rest.length + 1) = min k rest.length + 1 := by omega
    simp [Surroundings.reply, hs', hs, hmin]

theorem nextReply_eq (s : Surroundings) : s.nextReply = s.reply 0 := by
  unfold Surroundings.nextReply Surroundings.reply
  cases s.replies <;> simp

theorem send_fst (r : Http.Request) (s : Surroundings) :
    (send (.ok r) s).1 = if (s.sent r).later.isCut then .error .cut else received (s.reply 0) := by
  rw [send, nextReply_eq]

theorem send_sent (r : Http.Request) (s : Surroundings) : Sent r 1 s (send (.ok r) s).2 := by
  refine ⟨rfl, rfl, rfl, fun k => ?_, rfl⟩
  cases hs : s.replies with
  | nil => simp [Surroundings.reply, send, Surroundings.sent, Surroundings.later, hs]
  | cons reply rest =>
    refine reply_of_cons hs ?_ k
    simp [send, Surroundings.sent, Surroundings.later, hs]

/-- A task that does not see a change of its state is tried in the same way on the changed one. -/
theorem tries_map {σ ε α : Type} (b : Backoff) (t : Backoff.Task σ ε α) (f : σ → σ)
    (hcall : ∀ s, t.call (f s) = ((t.call s).1, f (t.call s).2)) (hnow : ∀ s, t.now (f s) = t.now s)
    (hsleep : ∀ w s, t.sleep w (f s) = ((t.sleep w s).1, f (t.sleep w s).2))
    (left before : Nat) (s : σ) :
    b.tries t left before (f s) =
      ((b.tries t left before s).1, f (b.tries t left before s).2) := by
  fun_induction Backoff.tries b t left before s with
  | case1 left before s a s' h =>
    rw [Backoff.tries, hcall, h]
  | case2 left before s e s' h hagain =>
    rw [Backoff.tries, hcall, h]
    dsimp only
    rw [if_pos hagain]
  | case3 left before s e s' h hagain wait fault hwait =>
    rw [Backoff.tries, hcall, h]
    dsimp only [wait] at hwait ⊢
    rw [if_neg hagain, hnow, hwait]
  | case4 before s e s' h hagain wait delay late hwait =>
    rw [Backoff.tries, hcall, h]
    dsimp only [wait] at hwait ⊢
    rw [if_neg hagain, hnow, hwait]
  | case5 before s e s' h hagain wait delay left hwait =>
    rw [Backoff.tries, hcall, h]
    dsimp only [wait] at hwait ⊢
    rw [if_neg hagain, hnow, hwait]
    rfl
  | case6 before s e s' h hagain wait delay late left hwait hlate e' s'' hslept =>
    rw [Backoff.tries, hcall, h]
    dsimp only [wait] at hwait ⊢
    rw [if_neg hagain, hnow, hwait]
    dsimp only
    rw [if_neg hlate, hsleep, hslept]
  | case7 before s e s' h hagain wait delay late left hwait hlate s'' hslept ih =>
    rw [Backoff.tries, hcall, h]
    dsimp only [wait] at hwait ⊢
    rw [if_neg hagain, hnow, hwait]
    dsimp only
    rw [if_neg hlate, hsleep, hslept]
    exact ih

/-- The surroundings with other breakers. -/
def setBreakers (bs : Breakers Float) (s : Surroundings) : Surroundings :=
  { s with breakers := bs }

theorem send_setBreakers (request : Except Fault Http.Request) (bs : Breakers Float)
    (s : Surroundings) : send request (setBreakers bs s) =
      ((send request s).1, setBreakers bs (send request s).2) := by
  cases request <;> rfl

/-- What comes of a request has nothing to do with breakers. -/
theorem sendTrying_setBreakers (config : Config) (request : Except Fault Http.Request)
    (deadline : Float) (bs : Breakers Float) (s : Surroundings) :
    sendTrying config request deadline (setBreakers bs s) =
      ((sendTrying config request deadline s).1,
        setBreakers bs (sendTrying config request deadline s).2) := by
  dsimp only [sendTrying, Backoff.run]
  rw [tries_map _ (sending request deadline) (setBreakers bs) (send_setBreakers request bs)
    (fun _ => rfl) (fun _ _ => rfl)]

/-! ## Breakers -/

/-- What came of asking a service counts as its failure: nothing could be sent, or the reply to the
    last request that was sent is a failure. -/
def CountsAsFailure (request : Except Fault Http.Request) (s s' : Surroundings) : Prop :=
  match request with
  | .error _ => s'.requests = s.requests
  | .ok r => ∃ n, s'.requests = s.requests ++ List.replicate (n + 1) r ∧ (s.reply n).Fails

/-- Whether an outcome counts as a success of the service; that of a call that is cut off does not
    count. -/
def success? : Except NoAnswer Answer → Option Bool
  | .ok a => some !decide (Http.firstServiceError ≤ a.status)
  | .error e => if e.isCut then none else some false

theorem success?_eq_none_iff {o : Except NoAnswer Answer} :
    success? o = none ↔ o = .error .cut := by
  obtain (_ | _ | _) | _ := o <;> simp [success?, NoAnswer.isCut]

theorem success?_eq_false_iff {o : Except NoAnswer Answer} {reply : Http.Reply} (h : Tells o reply)
    (hcut : o ≠ .error .cut) : success? o = some false ↔ reply.Fails := by
  cases o with
  | ok a =>
    cases (show reply = .answer a.status a.body from h)
    simp [success?, Http.Reply.Fails]
  | error e =>
    cases e with
    | cut => exact absurd rfl hcut
    | broken | fault =>
      cases reply with
      | answer status body => exact absurd rfl (h status body)
      | broken _ _ | fault _ => simp [success?, NoAnswer.isCut, Http.Reply.Fails]

/-- A request that the breaker of a service blocks. -/
theorem sendGuarded_blocked (config : Config) {service : String}
    (request : Except Fault Http.Request) (deadline : Float) {s : Surroundings}
    (hstart : (s.breakers.get service).start? s.breakers.settings s.now = none) :
    ∃ wait, sendGuarded config service request deadline s =
      .ok (.blocked wait) (setBreakers (s.breakers.put service (s.breakers.get service)) s) := by
  unfold sendGuarded Breakers.call
  dsimp only
  rw [hstart]
  exact ⟨_, rfl⟩

/-- What a breaker tells of the outcome of a call that it lets through. -/
def passed : Except NoAnswer Answer → Breakers.Called Float NoAnswer Answer
  | .ok a => .returned a
  | .error e => .raised e

/-- The breakers after a call that the one of a service lets through, as `b`. -/
def after (bs : Breakers Float) (service : String) (b : Breaker Float) (now : Float)
    (o : Except NoAnswer Answer) : Breakers Float :=
  match success? o with
  | none => bs.put service b
  | some success => (bs.put service b).put service (b.finish bs.settings now success)

theorem after_get_self (bs : Breakers Float) (service : String) (b : Breaker Float) (now : Float)
    (o : Except NoAnswer Answer) : (after bs service b now o).get service =
      (success? o).elim b (b.finish bs.settings now) := by
  unfold after
  cases success? o <;> exact Breakers.get_put_self _ _ _

theorem after_get_of_ne (bs : Breakers Float) {service name : String} (b : Breaker Float)
    (now : Float) (o : Except NoAnswer Answer) (h : name ≠ service) :
    (after bs service b now o).get name = bs.get name := by
  unfold after
  cases success? o with
  | none => exact Breakers.get_put_of_ne _ _ h
  | some success => exact (Breakers.get_put_of_ne _ _ h).trans (Breakers.get_put_of_ne _ _ h)

/-- A request that the breaker of a service lets through. -/
theorem sendGuarded_passed (config : Config) {service : String}
    {request : Except Fault Http.Request} {deadline : Float} {s s' : Surroundings}
    {b : Breaker Float} {o : Except NoAnswer Answer}
    (hstart : (s.breakers.get service).start? s.breakers.settings s.now = some b)
    (htry : sendTrying config request deadline s = (o, s')) :
    sendGuarded config service request deadline s =
      .ok (passed o) (setBreakers (after s.breakers service b s'.now o) s') := by
  have htry' : sendTrying config request deadline { s with breakers := s.breakers.put service b } =
      (o, setBreakers (s.breakers.put service b) s') := by
    have := sendTrying_setBreakers config request deadline (s.breakers.put service b) s
    rwa [htry] at this
  have hb : (s.breakers.put service b).get service = b := Breakers.get_put_self _ _ _
  unfold sendGuarded Breakers.call
  dsimp only
  rw [hstart]
  dsimp only
  rw [htry']
  unfold after success?
  cases o with
  | ok a =>
    dsimp only [setBreakers, Breakers.update]
    rw [hb]
    rfl
  | error e =>
    dsimp only [setBreakers, Breakers.update]
    rw [hb]
    cases e.isCut <;> rfl

/-- What the breaker of a service has counted after a call, which may be cut off. -/
structure Counted (request : Except Fault Http.Request) (service : String) (cut : Prop)
    (s s' : Surroundings) : Prop where
  others (name : String) : name ≠ service → s'.breakers.get name = s.breakers.get name
  /-- A call that is blocked asks nothing. -/
  blocked : (s.breakers.get service).start? s.breakers.settings s.now = none →
    s'.breakers.get service = s.breakers.get service ∧ s'.requests = s.requests
  passed (b : Breaker Float) :
    (s.breakers.get service).start? s.breakers.settings s.now = some b →
      (cut ∧ s'.breakers.get service = b) ∨
      (¬cut ∧ CountsAsFailure request s s' ∧
        s'.breakers.get service = b.fail s.breakers.settings s'.now) ∨
      (¬cut ∧ ¬CountsAsFailure request s s' ∧ s'.breakers.get service = b.succeed)

theorem CountsAsFailure.congr {request : Except Fault Http.Request} {s s₁ s₂ s' : Surroundings}
    (h : Unasked s s₁) (h' : Unasked s₂ s') :
    CountsAsFailure request s s' ↔ CountsAsFailure request s₁ s₂ := by
  cases request <;> simp [CountsAsFailure, h.requests, h'.requests, h.reply]

theorem Counted.congr {request : Except Fault Http.Request} {service : String} {cut cut' : Prop}
    {s s₁ s₂ s' : Surroundings} (h : Unasked s s₁) (hc : Counted request service cut s₁ s₂)
    (h' : Unasked s₂ s') (hcut : cut ↔ cut') : Counted request service cut' s s' where
  others name hname := by rw [h'.breakers, hc.others name hname, h.breakers]
  blocked hnone := by
    have hblocked := hc.blocked (by rw [h.breakers, h.now]; exact hnone)
    rw [h'.breakers, h'.requests, hblocked.1, hblocked.2, h.breakers, h.requests]
    exact ⟨rfl, rfl⟩
  passed b hb := by
    have hpassed := hc.passed b (by rw [h.breakers, h.now]; exact hb)
    rw [h.breakers, ← CountsAsFailure.congr h h', hcut] at hpassed
    rwa [h'.breakers, h'.now]

theorem unasked_of_prepared {ps : Details} {c : Context} {s s₁ : Surroundings} {q : Inquiry}
    (hq : callService.prepare ps c s = .ok q s₁) : Unasked s s₁ := by
  have hprepared := prepare_unasked ps c s
  rwa [KeepsAt, hq] at hprepared

/-- An action was cut off. -/
def IsCut (result : EStateM.Result Act.Stop Surroundings Value) : Prop :=
  ∃ s, result = .error .cut s

/-- An action is cut off if the call that it makes is. -/
theorem answer_isCut_iff {stamps : Stamps} {q : Inquiry}
    {called : Breakers.Called Float NoAnswer Answer} {s : Surroundings} :
    called = .raised .cut ↔ IsCut (callService.answer stamps q called s) := by
  cases called with
  | blocked wait => exact iff_of_false nofun nofun
  | raised e =>
    cases e with
    | cut => exact iff_of_true rfl ⟨s, rfl⟩
    | broken | fault => exact iff_of_false nofun nofun
  | returned a =>
    refine iff_of_false nofun ?_
    unfold callService.answer
    dsimp only
    split_ifs <;> exact nofun

/-- An action that has prepared an inquiry ends in the answer to it. -/
theorem run_of_sent {config : Config} (stamps : Stamps) {ps : Details} {c : Context}
    {deadline : Float} {s s₁ s₂ : Surroundings} {q : Inquiry} {called : Breakers.Called Float NoAnswer Answer}
    (hq : callService.prepare ps c s = .ok q s₁)
    (hsend : sendGuarded config q.service q.request deadline s₁ = .ok called s₂) :
    (callService config stamps).run ps c deadline s = callService.answer stamps q called s₂ := by
  change (callService.prepare ps c >>= fun q =>
    sendGuarded config q.service q.request deadline >>= callService.answer stamps q) s = _
  rw [bind_of_ok hq, bind_of_ok hsend]

/-- An action that prepares nothing asks nothing. -/
theorem run_unasked (config : Config) (stamps : Stamps) {ps : Details} {c : Context}
    (deadline : Float) {s s₁ : Surroundings} {e : Act.Stop} (hq : callService.prepare ps c s = .error e s₁) :
    Unasked s (stateLeft ((callService config stamps).run ps c deadline s)) := by
  have hrun : (callService config stamps).run ps c deadline s = .error e s₁ := bind_of_error hq _
  have hprepared := prepare_unasked ps c s
  rw [KeepsAt, hq] at hprepared
  rwa [hrun]

/-- An action asks a service for something: it prepares a request, or what should be one, and the
    breaker of the service lets the call through. -/
def Asks (ps : Details) (c : Context) (s : Surroundings) (service : String)
    (request : Except Fault Http.Request) : Prop :=
  ∃ q s₁, callService.prepare ps c s = .ok q s₁ ∧ q.service = service ∧ q.request = request ∧
    ((s.breakers.get service).start? s.breakers.settings s.now).isSome

/-- What a breaker has counted after one action, which may have failed by one cause only. -/
structure Tally (before after : Breaker Float) (failure : Prop) : Prop where
  counted : before.failures < after.failures ↔ failure
  atMostOne : after.failures ≤ before.failures + 1
  opened : after.status = .opened → before.status = .opened ∨ failure

theorem Tally.refl (b : Breaker Float) {failure : Prop} (h : ¬failure) : Tally b b failure :=
  ⟨by simp [h], Nat.le_succ _, .inl⟩

theorem Tally.succeed {b b' : Breaker Float} {failure : Prop} (h : ¬failure) :
    Tally b b'.succeed failure :=
  ⟨by simp [h, Breaker.succeed], by simp [Breaker.succeed], nofun⟩

theorem Tally.fail {s : Breaker.Settings Float} {b b' : Breaker Float} {now : Float}
    {failure : Prop} (hb : b'.failures = b.failures) (h : failure) :
    Tally b (b'.fail s now) failure := by
  have hcount : (b'.fail s now).failures = b.failures + 1 :=
    (Breaker.failures_finish s b' now).trans (congrArg (· + 1) hb)
  exact ⟨by simp [h, hcount], Nat.le_of_eq hcount, fun _ => .inr h⟩

theorem Tally.undecided {b b' : Breaker Float} {failure : Prop} (hb : b'.failures = b.failures)
    (hopened : b'.status = .opened → b.status = .opened) (h : ¬failure) : Tally b b' failure :=
  ⟨by simp [h, hb], by simp [hb], fun hopen => .inl (hopened hopen)⟩

/-- Headers that are no mapping make no request, and the service is cut off. -/
example :
    let config : Config := { callFailureThreshold := 1 }
    let c : Context := ⟨.null, .null, .null, .null, .null, .null⟩
    let s : Surroundings :=
      { breakers := freshBreakers config, clock := fun _ => 0.0, replies := [] }
    let ps : Details := .of [("url", .text "http://host/"), ("headers", .list [.null])]
    let s' := stateLeft ((callService config ⟨fun _ => "", ""⟩).run ps c 1.0 s)
    s'.requests.length = 0 ∧ (s'.breakers.get "host").status = .opened := by decide +kernel

end Handler

end Rulebook
