/-
  Hosts apart from each other.

  Each host that a service calls has a breaker of its own.  All that this breaker gets to know are
  the calls to its host, with their times and what came of those that it let through, and the resets
  of all breakers (`Breaker.Sign`).  What other hosts answer and whatever else happens is lost on it.

  * `Breaker.eq_of_agree`: signs that agree where calls are let through are the same;
  * `Breakers.mem_openCircuits_iff`: the hosts that are cut off;
  * `Handler.execute_of_inquiry`: what an action is told, and what it leaves of the breakers;
  * `Service.sight?_eq`, `Service.seen_eq`: what is seen of a host, at one event and at any events;
  * `Service.hosts_apart`: that hosts are apart, and what is reported of them.
-/
import Mathlib.Data.String.Basic
import Rulebook.Proofs.Atomicity
import Rulebook.Proofs.Breaker.Blame
import Rulebook.Service

namespace Rulebook

/-! ## Signs -/

namespace Breaker

variable {τ : Type}

/-- How a call ended: when, and whether it succeeded, if it was not cut off. -/
structure Ended (τ : Type) where
  finish : τ
  success : Option Bool
  deriving DecidableEq

/-- What a breaker gets to know. -/
inductive Sign (τ : Type) where
  /-- A call that starts at a time, and how it ended if it was let through. -/
  | call (start : τ) (ended : Option (Ended τ))
  | reset
  deriving DecidableEq

/-- Two signs agree if nothing in them is different that happened in both. -/
inductive Sign.Agrees : Sign τ → Sign τ → Prop
  | call {start : τ} {ended ended' : Option (Ended τ)}
      (h : ∀ e e', ended = some e → ended' = some e' → e = e') :
      Agrees (.call start ended) (.call start ended')
  | reset : Agrees .reset .reset

theorem Sign.Agrees.refl (x : Sign τ) : x.Agrees x := by
  cases x with
  | call start ended => exact .call fun e e' he he' => Option.some_inj.1 (he.symm.trans he')
  | reset => exact .reset

variable [Quantity τ]

/-- The breaker of a call that was let through, when the call is over. -/
def Ended.leave (s : Settings τ) (b : Breaker τ) (e : Ended τ) : Breaker τ :=
  e.success.elim b (b.finish s e.finish)

/-- A call from its start to its end: whether it is blocked, and the breaker after it. -/
def meet (s : Settings τ) (b : Breaker τ) (start : τ) (ended : Option (Ended τ)) :
    Bool × Breaker τ :=
  match b.start? s start with
  | none => (true, b)
  | some b => (false, ended.elim b (Ended.leave s b))

/-- What the breaker of a target makes of a sign: whether it blocks a call, and the breaker after
    it. There is none before the first call. -/
def Sign.met (s : Settings τ) (b : Option (Breaker τ)) : Sign τ → Bool × Option (Breaker τ)
  | .call start ended =>
    let (blocked, b) := meet s (b.getD fresh) start ended
    (blocked, some b)
  | .reset => (false, b.map Breaker.reset)

/-- What the breaker of a target makes of signs, one after the other. -/
def Sign.metAll (s : Settings τ) :
    Option (Breaker τ) → List (Sign τ) → List (Bool × Option (Breaker τ))
  | _, [] => []
  | b, x :: xs => x.met s b :: metAll s (x.met s b).2 xs

/-- The breaker of a target after signs. -/
def Sign.afterAll (s : Settings τ) (b : Option (Breaker τ)) (xs : List (Sign τ)) :
    Option (Breaker τ) :=
  xs.foldl (fun b x => (x.met s b).2) b

/-- A sign is one that the breaker of a target gets: it tells how a call ended that it lets through,
    and of no other. -/
def Sign.Fits (s : Settings τ) (b : Option (Breaker τ)) : Sign τ → Prop
  | .call start ended => ended = none ↔ (b.getD fresh).start? s start = none
  | .reset => True

/-- Signs are those that the breaker of a target gets, one after the other. -/
def Sign.FitAll (s : Settings τ) : Option (Breaker τ) → List (Sign τ) → Prop
  | _, [] => True
  | b, x :: xs => x.Fits s b ∧ FitAll s (x.met s b).2 xs

/-- What a breaker gets to know of calls that it blocks makes no difference. -/
theorem Sign.Agrees.eq {s : Settings τ} {b : Option (Breaker τ)} {x y : Sign τ}
    (h : x.Agrees y) (hx : x.Fits s b) (hy : y.Fits s b) : x = y := by
  cases h with
  | reset => rfl
  | @call start ended ended' hsame =>
    have hiff : ended = none ↔ ended' = none := Iff.trans hx (Iff.symm hy)
    cases ended with
    | none => rw [hiff.1 rfl]
    | some e =>
      cases ended' with
      | none => exact absurd (hiff.2 rfl) nofun
      | some e' => rw [hsame e e' rfl rfl]

theorem eq_of_agree {s : Settings τ} {b : Option (Breaker τ)} {xs ys : List (Sign τ)}
    (h : List.Forall₂ Sign.Agrees xs ys) (hx : Sign.FitAll s b xs) (hy : Sign.FitAll s b ys) :
    xs = ys := by
  induction h generalizing b with
  | nil => rfl
  | cons hsame _ ih =>
    obtain rfl := hsame.eq hx.1 hy.1
    rw [ih hx.2 hy.2]

end Breaker

/-! ## Breakers by target -/

namespace Breakers

/-- Breakers after the one of a target has changed, or was made. -/
structure Changed {τ : Type} (name : String) (b : Breaker τ) (bs bs' : Breakers τ) : Prop where
  settings : bs'.settings = bs.settings
  own : bs'.byTarget.get? name = some b
  others (other : String) : other ≠ name → bs'.byTarget.get? other = bs.byTarget.get? other
  keys : bs.byTarget.keys.Nodup → bs'.byTarget.keys.Nodup

variable {τ : Type} {bs bs' : Breakers τ} {name : String} {b b' : Breaker τ}

theorem changed_put (bs : Breakers τ) (name : String) (b : Breaker τ) :
    Changed name b bs (bs.put name b) where
  settings := rfl
  own := Keyed.get?_put_self _ _ _
  others _ hne := Keyed.get?_put_of_ne _ _ hne
  keys := Keyed.nodup_put _ _ _

theorem Changed.put (h : Changed name b bs bs') (b' : Breaker τ) :
    Changed name b' bs (bs'.put name b') where
  settings := h.settings
  own := Keyed.get?_put_self _ _ _
  others _ hne := (Keyed.get?_put_of_ne _ _ hne).trans (h.others _ hne)
  keys hkeys := Keyed.nodup_put _ _ _ (h.keys hkeys)

/-- Each target that is cut off is listed once, in the order of their names. -/
theorem openCircuits_sorted (hkeys : bs.byTarget.keys.Nodup) :
    bs.openCircuits.Pairwise (· < ·) := by
  have htrans (a b c : String) (hab : decide (a ≤ b) = true) (hbc : decide (b ≤ c) = true) :
      decide (a ≤ c) = true :=
    decide_eq_true (String.le_trans (of_decide_eq_true hab) (of_decide_eq_true hbc))
  have htotal (a b : String) : (decide (a ≤ b) || decide (b ≤ a)) = true := by
    simpa using String.le_total a b
  have hsorted : bs.openCircuits.Pairwise fun s t => decide (s ≤ t) = true :=
    List.pairwise_mergeSort htrans htotal _
  have hnodup : bs.openCircuits.Nodup :=
    (List.mergeSort_perm _ _).nodup_iff.2 (hkeys.sublist (List.filter_sublist.map _))
  exact (hsorted.and hnodup).imp fun h => lt_of_le_of_ne (of_decide_eq_true h.1) h.2

variable [Quantity τ]

theorem keys_resetAll (bs : Breakers τ) : bs.resetAll.byTarget.keys = bs.byTarget.keys := by
  simp [resetAll, Keyed.map, Keyed.keys, Function.comp_def]

/-- The targets that are cut off are those whose breakers are open. -/
theorem mem_openCircuits_iff (hkeys : bs.byTarget.keys.Nodup) :
    name ∈ bs.openCircuits ↔ (bs.get name).status = .opened := by
  have hget : (bs.get name).status = .opened ↔
      ∃ b, bs.byTarget.get? name = some b ∧ b.status = .opened := by
    rw [get]
    cases bs.byTarget.get? name with
    | none => simp [Breaker.fresh]
    | some b => simp
  rw [hget, openCircuits, List.mem_mergeSort]
  simp [Keyed.get?_eq_some_iff hkeys]

end Breakers

namespace Handler

open Act Executor

/-! ## Requests and breakers -/

theorem changed_after (bs : Breakers Float) (service : String) (b : Breaker Float) (now : Float)
    (o : Except NoAnswer Answer) : Breakers.Changed service
      ((success? o).elim b (b.finish bs.settings now)) bs (after bs service b now o) := by
  unfold after
  cases success? o with
  | none => exact Breakers.changed_put _ _ _
  | some success => exact (Breakers.changed_put _ _ _).put _

/-- How the call of a service ends, if its breaker lets it through. -/
def ended? (config : Config) (service : String) (request : Except Fault Http.Request)
    (deadline : Float) (s : Surroundings) : Option (Breaker.Ended Float) :=
  ((s.breakers.get service).start? s.breakers.settings s.now).map fun _ =>
    let (o, s) := sendTrying config request deadline s
    ⟨s.now, success? o⟩

theorem ended?_eq_none_iff (config : Config) (service : String)
    (request : Except Fault Http.Request) (deadline : Float) (s : Surroundings) :
    ended? config service request deadline s = none ↔
      (s.breakers.get service).start? s.breakers.settings s.now = none :=
  Option.map_eq_none_iff

theorem passed_ne_blocked (o : Except NoAnswer Answer) (wait : Float) : passed o ≠ .blocked wait := by
  cases o <;> exact nofun

/-- The breaker of a service meets a request by what comes of it. -/
theorem sendGuarded_meet (config : Config) (service : String) (request : Except Fault Http.Request)
    (deadline : Float) (s : Surroundings) :
    let met := Breaker.meet s.breakers.settings (s.breakers.get service) s.now
      (ended? config service request deadline s)
    ∃ called s', sendGuarded config service request deadline s = .ok called s' ∧
      (met.1 = true ↔ ∃ wait, called = .blocked wait) ∧
      Breakers.Changed service met.2 s.breakers s'.breakers := by
  intro met
  cases hstart : (s.breakers.get service).start? s.breakers.settings s.now with
  | none =>
    obtain ⟨wait, hsend⟩ := sendGuarded_blocked config request deadline hstart
    have hmet : met = (true, s.breakers.get service) := by
      simp only [met, Breaker.meet, hstart]
    rw [hmet]
    exact ⟨_, _, hsend, iff_of_true rfl ⟨wait, rfl⟩, Breakers.changed_put _ _ _⟩
  | some b =>
    cases htry : sendTrying config request deadline s with
    | mk o s' =>
      have hmet : met = (false, (success? o).elim b (b.finish s.breakers.settings s'.now)) := by
        simp only [met, Breaker.meet, ended?, hstart, htry]
        rfl
      rw [hmet]
      exact ⟨_, _, sendGuarded_passed config hstart htry,
        iff_of_false nofun fun ⟨wait, h⟩ => passed_ne_blocked o wait h,
        changed_after _ _ _ _ _⟩

/-! ## One action -/

/-- An action is told that the breaker of a host blocked its call. -/
def tellsBlocked (host : String) : Except Failure Value → Bool
  | .error (.engine e) => e.message = Breaker.blockedMessage host
  | _ => false

/-- What an action asks a host, the time by which it has to be done, and its surroundings when it
    asks; none if it ends before that. -/
def inquiry? (x : Executor) (a : Action) (c : Context) (s : Surroundings) :
    Option (Inquiry × Float × Surroundings) :=
  match checkPresent callServiceType ["url"] a.parameters, x.timeLimit a.parameters with
  | .ok (), .ok milliseconds =>
    let seconds := milliseconds / 1000.0
    if seconds ≤ 0.0 then none
    else
      match callService.prepare a.parameters c (started s seconds) with
      | .ok q around => some (q, s.now + seconds, around)
      | .error .. => none
  | _, _ => none

variable {x : Executor} {a : Action} {c : Context} {s : Surroundings} {config : Config}
  {stamps : Stamps} {host : String}

theorem blockedMessage_second (host : String) :
    (Breaker.blockedMessage host).toList[1]? = some 'i' := by
  unfold Breaker.blockedMessage
  simp

/-- A message with another second letter does not tell of a blocked call. -/
theorem tellsBlocked_of_ne {e : EngineError} (he : e.message.toList[1]? ≠ some 'i') :
    tellsBlocked host (.error (.engine e)) = false :=
  decide_eq_false fun hmessage => he (by rw [hmessage, blockedMessage_second])

/-- What an action is told of a call that was not blocked is not that it was. -/
theorem tellsBlocked_answer (ha : a.type = callServiceType) (milliseconds : Float) {q : Inquiry}
    {called : Breakers.Called Float NoAnswer Answer} (hcalled : ∀ wait, called ≠ .blocked wait) :
    tellsBlocked host (settled a milliseconds
      (Executor.outcome (callService.answer stamps q called) s).1) = false := by
  cases called with
  | blocked wait => exact absurd rfl (hcalled wait)
  | raised e =>
    cases e with
    | fault f =>
      have htold : settled a milliseconds
          (Executor.outcome (callService.answer stamps q (.raised (.fault f))) s).1 =
            .error (.engine (faultError a f)) := rfl
      rw [htold]
      refine tellsBlocked_of_ne ?_
      dsimp only [faultError, EngineError.handler]
      simp [ha, callServiceType]
    | broken onTheWay message =>
      refine tellsBlocked_of_ne ?_
      dsimp only [EngineError.handler]
      simp [toString]
    | cut =>
      refine tellsBlocked_of_ne ?_
      dsimp only [EngineError.timedOut, EngineError.timeoutMessage]
      simp [toString]
  | returned answer =>
    unfold callService.answer
    dsimp only
    split_ifs
    · refine tellsBlocked_of_ne ?_
      dsimp only [EngineError.handler]
      simp [toString]
    · rfl

theorem inquiry?_eq_some_iff {q : Inquiry} {deadline : Float} {around : Surroundings} :
    inquiry? x a c s = some (q, deadline, around) ↔
      checkPresent callServiceType ["url"] a.parameters = .ok () ∧
        ∃ milliseconds, x.timeLimit a.parameters = .ok milliseconds ∧
          ¬milliseconds / 1000.0 ≤ 0.0 ∧ deadline = s.now + milliseconds / 1000.0 ∧
          callService.prepare a.parameters c (started s (milliseconds / 1000.0)) =
            .ok q around := by
  unfold inquiry?
  constructor
  · intro h
    split at h
    · next milliseconds hcheck htime =>
      dsimp only at h
      split_ifs at h with hnone
      split at h
      · next q' around' hq =>
        cases h
        exact ⟨hcheck, milliseconds, htime, hnone, rfl, hq⟩
      · cases h
    · cases h
  · rintro ⟨hcheck, milliseconds, htime, hsome, rfl, hq⟩
    rw [hcheck, htime]
    dsimp only
    rw [if_neg hsome, hq]

theorem callService_accepts (hx : x.handlers.get? callServiceType = some (callService config stamps))
    (ha : a.type = callServiceType)
    (hcheck : checkPresent callServiceType ["url"] a.parameters = .ok ()) :
    x.Accepts a (callService config stamps) s s := by
  refine ⟨ha ▸ hx, ?_⟩
  refine (requiring_check callServiceType ["url"] (callService.run config stamps) _ _).trans ?_
  rw [hcheck]

/-- An action that has a time leaves the breakers that its handler leaves. -/
theorem ended_breakers (s : Surroundings) (act : Act Value) (t : Surroundings) :
    (ended s (Executor.outcome act t).2).breakers = (stateLeft (act t)).breakers := by
  unfold Executor.outcome
  cases act t <;> rfl

/-- An action that asks a host is told whether its call is blocked, and leaves the breaker of the
    host as it meets the call. -/
theorem execute_of_inquiry (hx : x.handlers.get? callServiceType = some (callService config stamps))
    (ha : a.type = callServiceType) {q : Inquiry} {deadline : Float} {around : Surroundings}
    (hasks : inquiry? x a c s = some (q, deadline, around)) :
    let met := Breaker.meet s.breakers.settings (s.breakers.get q.service) s.now
      (ended? config q.service q.request deadline around)
    tellsBlocked q.service (x.execute a c s).1 = met.1 ∧
      Breakers.Changed q.service met.2 s.breakers (x.execute a c s).2.breakers := by
  intro met
  obtain ⟨hcheck, milliseconds, htime, hsome, rfl, hq⟩ := inquiry?_eq_some_iff.1 hasks
  have hprepared := unasked_of_prepared hq
  obtain ⟨called, s₂, hsend, hblocked, hchanged⟩ :=
    sendGuarded_meet config q.service q.request (s.now + milliseconds / 1000.0) around
  rw [hprepared.breakers, hprepared.now] at hblocked hchanged
  have hrun := run_of_sent stamps hq hsend
  rw [execute_of_timed (callService_accepts hx ha hcheck) htime]
  dsimp only
  rw [inTime_of_some hsome]
  have hanswered := answer_unasked stamps q called s₂
  unfold KeepsAt at hanswered
  refine ⟨?_, ?_⟩
  · have htold : Executor.outcome ((callService config stamps).run a.parameters c
        (s.now + milliseconds / 1000.0)) (started s (milliseconds / 1000.0)) =
        Executor.outcome (callService.answer stamps q called) s₂ := by
      unfold Executor.outcome
      rw [hrun]
    rw [htold]
    -- no other answer could be taken for that to a blocked call
    by_cases hmet : met.1 = true
    · obtain ⟨wait, rfl⟩ := hblocked.1 hmet
      rw [hmet]
      exact decide_eq_true rfl
    · rw [Bool.not_eq_true] at hmet
      rw [hmet]
      refine tellsBlocked_answer ha milliseconds fun wait hwait => ?_
      exact Bool.noConfusion ((hblocked.2 ⟨wait, hwait⟩).symm.trans hmet)
  · dsimp only
    rw [ended_breakers, hrun, hanswered.breakers]
    exact hchanged

/-- An action that ends before it asks a host leaves all breakers as they are. -/
theorem execute_of_no_inquiry
    (hx : x.handlers.get? callServiceType = some (callService config stamps))
    (ha : a.type = callServiceType) (hnone : inquiry? x a c s = none) :
    (x.execute a c s).2.breakers = s.breakers := by
  have hlooks := callService_looks config stamps a.parameters s
  have hend := execute_ending x a c s
  generalize x.execute a c s = r at hend
  cases hend with
  | unknown => rfl
  | refused hx' he =>
    cases (ha ▸ hx).symm.trans hx'
    rw [he] at hlooks
    exact congrArg Surroundings.breakers hlooks
  | untimed haccepts =>
    cases (ha ▸ hx).symm.trans haccepts.1
    rw [haccepts.2] at hlooks
    exact congrArg Surroundings.breakers hlooks
  | @run _ milliseconds _ s₁ _ haccepts htime hended =>
    cases (ha ▸ hx).symm.trans haccepts.1
    have hcheck : checkPresent callServiceType ["url"] a.parameters = .ok () := by
      have h := haccepts.2
      rw [show (callService config stamps).check a.parameters s = _ from
        requiring_check callServiceType ["url"] (callService.run config stamps) _ _] at h
      cases hpresent : checkPresent callServiceType ["url"] a.parameters with
      | ok _ => rfl
      | error e => rw [hpresent] at h; cases h
    rw [haccepts.2] at hlooks
    obtain rfl : s₁ = s := hlooks
    by_cases hsome : milliseconds / 1000.0 ≤ 0.0
    · rw [inTime_of_none hsome] at hended
      cases hended
      rfl
    · rw [inTime_of_some hsome] at hended
      cases hended
      rw [ended_breakers]
      cases hq : callService.prepare a.parameters c (started s₁ (milliseconds / 1000.0)) with
      | error e s₂ => exact (run_unasked config stamps _ hq).breakers
      | ok q around =>
        have hasked := inquiry?_eq_some_iff.2 ⟨hcheck, milliseconds, htime, hsome, rfl, hq⟩
        exact absurd (hnone.symm.trans hasked) nofun

end Handler

/-! ## What happens to a service -/

/-- What happens to a service that calls hosts. -/
inductive HostEvent where
  /-- An action is run that calls a host; its type is that of such actions. -/
  | call (a : Action) (c : Context)
  /-- Anything else happens, and time goes by: all but the engine and the breakers may change. -/
  | other (rules : Keyed String Rule) (groups : GroupStore) (state : EngineState)
  /-- All breakers are closed. -/
  | reset

namespace Service

/-- The breakers of the hosts. -/
def breakers (s : Service) : Breakers Float :=
  s.state.surroundings.breakers

/-- The service with other breakers. -/
def setBreakers (bs : Breakers Float) (s : Service) : Service :=
  { s with state := { s.state with surroundings := Handler.setBreakers bs s.state.surroundings } }

/-- Runs an action that calls a host. -/
def runCall (s : Service) (a : Action) (c : Context) : Answer Value :=
  s.runAction { a with type := Handler.callServiceType } c

/-- The service after an event. -/
def afterEvent (s : Service) : HostEvent → Service
  | .call a c => (s.runCall a c).2
  | .other rules groups state => { s with rules, groups, state }.setBreakers s.breakers
  | .reset => s.setBreakers s.breakers.resetAll

/-- The service after events, one after the other. -/
def afterEvents (s : Service) (events : List HostEvent) : Service :=
  events.foldl afterEvent s

/-- What the breaker of a host gets to know of an event. -/
def sign? (host : String) (s : Service) : HostEvent → Option (Breaker.Sign Float)
  | .call a c =>
    match Handler.inquiry? s.engine.executor a c s.state.surroundings with
    | some (q, deadline, around) =>
      if q.service = host then
        some (.call s.state.surroundings.now
          (Handler.ended? s.config q.service q.request deadline around))
      else none
    | none => none
  | .other .. => none
  | .reset => some .reset

/-- Whether an action is told that the breaker of a host blocked its call. -/
def blockedAt (host : String) (s : Service) : HostEvent → Bool
  | .call a c => Handler.tellsBlocked host (s.runCall a c).1
  | _ => false

/-- What is seen of a host at an event that its breaker gets to know: whether a call is blocked, and
    the breaker after it. -/
def sight? (host : String) (s : Service) (e : HostEvent) : Option (Bool × Option (Breaker Float)) :=
  (s.sign? host e).map fun _ => (s.blockedAt host e, (s.afterEvent e).breakers.byTarget.get? host)

/-- All that the breaker of a host gets to know of events. -/
def signs (host : String) : Service → List HostEvent → List (Breaker.Sign Float)
  | _, [] => []
  | s, e :: es => (s.sign? host e).toList ++ signs host (s.afterEvent e) es

/-- All that is seen of a host at events. -/
def seen (host : String) : Service → List HostEvent → List (Bool × Option (Breaker Float))
  | _, [] => []
  | s, e :: es => (s.sight? host e).toList ++ seen host (s.afterEvent e) es

/-- A service calls hosts by the standard handler, and has one breaker for each. -/
structure CallsHosts (s : Service) : Prop where
  handler : ∃ stamps, s.engine.executor.handlers.get? Handler.callServiceType =
    some (Handler.callService s.config stamps)
  keys : s.breakers.byTarget.keys.Nodup

variable {s s' : Service}

/-! ## One event -/

/-- An action changes no breaker but that of the host that it asks, and this one as it meets the
    call. -/
theorem runCall_cases (hs : s.CallsHosts) (a : Action) (c : Context) :
    (Handler.inquiry? s.engine.executor a c s.state.surroundings = none ∧
      (s.runCall a c).2.breakers = s.breakers) ∨
    ∃ q deadline around,
      Handler.inquiry? s.engine.executor a c s.state.surroundings = some (q, deadline, around) ∧
      let met := Breaker.meet s.breakers.settings (s.breakers.get q.service)
        s.state.surroundings.now (Handler.ended? s.config q.service q.request deadline around)
      Handler.tellsBlocked q.service (s.runCall a c).1 = met.1 ∧
        Breakers.Changed q.service met.2 s.breakers (s.runCall a c).2.breakers := by
  obtain ⟨stamps, hhandler⟩ := hs.handler
  cases hq : Handler.inquiry? s.engine.executor a c s.state.surroundings with
  | none =>
    exact .inl ⟨rfl, Handler.execute_of_no_inquiry (a := { a with type := Handler.callServiceType })
      hhandler rfl hq⟩
  | some asked =>
    obtain ⟨q, deadline, around⟩ := asked
    exact .inr ⟨q, deadline, around, rfl, Handler.execute_of_inquiry
      (a := { a with type := Handler.callServiceType }) hhandler rfl hq⟩

theorem CallsHosts.after (hs : s.CallsHosts) (e : HostEvent) :
    (s.afterEvent e).CallsHosts ∧ (s.afterEvent e).breakers.settings = s.breakers.settings := by
  cases e with
  | call a c =>
    rcases runCall_cases hs a c with ⟨-, hbreakers⟩ | ⟨q, deadline, around, -, -, hchanged⟩
    · exact ⟨⟨hs.handler, by rw [afterEvent, hbreakers]; exact hs.keys⟩,
        congrArg Breakers.settings hbreakers⟩
    · exact ⟨⟨hs.handler, hchanged.keys hs.keys⟩, hchanged.settings⟩
  | other rules groups state => exact ⟨⟨hs.handler, hs.keys⟩, rfl⟩
  | reset => exact ⟨⟨hs.handler, (Breakers.keys_resetAll s.breakers).symm ▸ hs.keys⟩, rfl⟩

/-- The breaker of a host meets the sign of an event, or it stays as it is. -/
theorem afterEvent_met (hs : s.CallsHosts) (host : String) (e : HostEvent) :
    match s.sign? host e with
    | none => (s.afterEvent e).breakers.byTarget.get? host = s.breakers.byTarget.get? host
    | some x => (s.blockedAt host e, (s.afterEvent e).breakers.byTarget.get? host) =
        x.met s.breakers.settings (s.breakers.byTarget.get? host) := by
  cases e with
  | call a c =>
    obtain ⟨hnone, hbreakers⟩ | ⟨q, deadline, around, hq, hblocked, hchanged⟩ :=
      runCall_cases hs a c
    · rw [sign?, hnone]
      exact congrArg (fun bs => bs.byTarget.get? host) hbreakers
    · rw [sign?, hq]
      dsimp only
      split_ifs with hhost
      · subst hhost
        exact Prod.ext hblocked hchanged.own
      · exact hchanged.others host (Ne.symm hhost)
  | other rules groups state => exact rfl
  | reset => exact Prod.ext rfl (Keyed.get?_map _ _ _)

/-- What is seen of a host at an event is what its breaker makes of the sign of it. -/
theorem sight?_eq (hs : s.CallsHosts) (host : String) (e : HostEvent) :
    s.sight? host e = (s.sign? host e).map
      (Breaker.Sign.met s.breakers.settings (s.breakers.byTarget.get? host)) := by
  have hmet := afterEvent_met hs host e
  rw [sight?]
  cases hx : s.sign? host e with
  | none => rfl
  | some x =>
    rw [hx] at hmet
    exact congrArg some hmet

/-- The sign of an event is one that the breaker of a host gets. -/
theorem sign?_fits {host : String} {e : HostEvent} {x : Breaker.Sign Float}
    (hx : s.sign? host e = some x) :
    x.Fits s.breakers.settings (s.breakers.byTarget.get? host) := by
  cases e with
  | reset =>
    cases hx
    trivial
  | other rules groups state => cases hx
  | call a c =>
    rw [sign?] at hx
    split at hx
    · next q deadline around hq =>
      split_ifs at hx with hhost
      cases hx
      subst hhost
      obtain ⟨-, milliseconds, -, -, -, hprepare⟩ := Handler.inquiry?_eq_some_iff.1 hq
      have hprepared := Handler.unasked_of_prepared hprepare
      have hnone := Handler.ended?_eq_none_iff s.config q.service q.request deadline around
      rw [hprepared.breakers, hprepared.now] at hnone
      exact hnone
    · cases hx

/-! ## Any events -/

/-- All signs are such that the breaker of a host gets. -/
theorem signs_fit (hs : s.CallsHosts) (host : String) (es : List HostEvent) :
    Breaker.Sign.FitAll s.breakers.settings (s.breakers.byTarget.get? host) (s.signs host es) := by
  induction es generalizing s with
  | nil => trivial
  | cons e es ih =>
    obtain ⟨hafter, hsettings⟩ := hs.after e
    have hrest := ih hafter
    have hmet := afterEvent_met hs host e
    rw [hsettings] at hrest
    rw [signs]
    cases hx : s.sign? host e with
    | none =>
      rw [hx] at hmet
      dsimp only at hmet
      rwa [hmet] at hrest
    | some x =>
      rw [hx] at hmet
      dsimp only at hmet
      rw [show (s.afterEvent e).breakers.byTarget.get? host = _ from congrArg Prod.snd hmet]
        at hrest
      exact ⟨sign?_fits hx, hrest⟩

/-- What is seen of a host is what its breaker makes of the signs that it gets. -/
theorem seen_eq (hs : s.CallsHosts) (host : String) (es : List HostEvent) :
    s.seen host es = Breaker.Sign.metAll s.breakers.settings (s.breakers.byTarget.get? host)
        (s.signs host es) ∧
      (s.afterEvents es).breakers.byTarget.get? host = Breaker.Sign.afterAll s.breakers.settings
        (s.breakers.byTarget.get? host) (s.signs host es) := by
  induction es generalizing s with
  | nil => exact ⟨rfl, rfl⟩
  | cons e es ih =>
    obtain ⟨hafter, hsettings⟩ := hs.after e
    obtain ⟨hseen, hlast⟩ := ih hafter
    rw [hsettings] at hseen hlast
    have hsight := sight?_eq hs host e
    have hmet := afterEvent_met hs host e
    change _ = _ ∧ ((s.afterEvent e).afterEvents es).breakers.byTarget.get? host = _
    rw [seen, signs, hseen, hlast, hsight]
    -- without a sign the breaker that meets the rest is the one before the event
    cases hx : s.sign? host e with
    | none =>
      rw [hx] at hmet
      dsimp only at hmet
      rw [hmet]
      exact ⟨rfl, rfl⟩
    | some x =>
      rw [hx] at hmet
      dsimp only at hmet
      rw [show (s.afterEvent e).breakers.byTarget.get? host = _ from congrArg Prod.snd hmet]
      exact ⟨rfl, rfl⟩

theorem callsHosts_afterEvents (hs : s.CallsHosts) (es : List HostEvent) :
    (s.afterEvents es).CallsHosts := by
  induction es generalizing s with
  | nil => exact hs
  | cons e es ih => exact ih (hs.after e).1

theorem callsHosts_of_fresh {config : Config} {stamps : Stamps}
    {database : Option Handler.Database} {around : Surroundings} {clock : Instant}
    (hs : Service.fresh config (Handler.standard config stamps database)
      (Handler.setBreakers (Handler.freshBreakers config) around) clock = .ok s) :
    s.CallsHosts ∧ s.breakers = Handler.freshBreakers config := by
  obtain ⟨statistics, -, heq⟩ := exceptBind_eq_ok.1 hs
  cases heq
  exact ⟨⟨⟨stamps, rfl⟩, List.nodup_nil⟩, rfl⟩

/-- What is reported of the hosts. -/
theorem health_circuits (hs : s.CallsHosts) :
    s.openCircuits = s.breakers.openCircuits ∧
      s.health.map (fun h => (h.status, h.openCircuits)) =
        (Statistics.secondsBefore s.state.clock s.config.activeWindow).map fun _ =>
          (if s.openCircuits = [] then "ok" else "degraded", s.openCircuits) := by
  obtain ⟨stamps, hhandler⟩ := hs.handler
  constructor
  · rw [openCircuits, hhandler]
    rfl
  · unfold health summary Statistics.summary
    cases Statistics.secondsBefore s.state.clock s.config.activeWindow with
    | error f => rfl
    | ok since =>
      refine congrArg Except.ok (Prod.ext ?_ rfl)
      simp [Health.status]

/-- **Hosts are apart.** Take two new services with the same settings, each with a history of
    actions that call hosts, of resets, and of anything else that happens.  If the calls to a host
    start at the same times in both, with the same resets between them, and those that are let
    through in both end at the same times and in the same way, then in both the same calls to this
    host are blocked, and after each of them, and in the end, its breaker is the same.  The hosts
    that are reported to be cut off are those whose breakers are open, each once and in the order of
    their names, and the service is degraded if there are any. -/
theorem hosts_apart {config : Config} {stamps stamps' : Stamps}
    {database database' : Option Handler.Database} {around around' : Surroundings}
    {clock clock' : Instant}
    (hs : Service.fresh config (Handler.standard config stamps database)
      (Handler.setBreakers (Handler.freshBreakers config) around) clock = .ok s)
    (hs' : Service.fresh config (Handler.standard config stamps' database')
      (Handler.setBreakers (Handler.freshBreakers config) around') clock' = .ok s') :
    (∀ host es es', List.Forall₂ Breaker.Sign.Agrees (s.signs host es) (s'.signs host es') →
      s.seen host es = s'.seen host es' ∧
        (s.afterEvents es).breakers.byTarget.get? host =
          (s'.afterEvents es').breakers.byTarget.get? host) ∧
      ∀ es, (s.afterEvents es).openCircuits.Pairwise (· < ·) ∧
        (∀ host, host ∈ (s.afterEvents es).openCircuits ↔
          ((s.afterEvents es).breakers.get host).status = .opened) ∧
        (s.afterEvents es).health.map (fun h => (h.status, h.openCircuits)) =
          (Statistics.secondsBefore (s.afterEvents es).state.clock
            (s.afterEvents es).config.activeWindow).map fun _ =>
              (if (s.afterEvents es).openCircuits = [] then "ok" else "degraded",
                (s.afterEvents es).openCircuits) := by
  obtain ⟨hcalls, hbreakers⟩ := callsHosts_of_fresh hs
  obtain ⟨hcalls', hbreakers'⟩ := callsHosts_of_fresh hs'
  constructor
  · intro host es es' hagree
    have hfit := signs_fit hcalls host es
    have hfit' := signs_fit hcalls' host es'
    rw [hbreakers] at hfit
    rw [hbreakers'] at hfit'
    have hsigns := Breaker.eq_of_agree hagree hfit hfit'
    obtain ⟨hseen, hlast⟩ := seen_eq hcalls host es
    obtain ⟨hseen', hlast'⟩ := seen_eq hcalls' host es'
    rw [hseen, hseen', hlast, hlast', hsigns, hbreakers, hbreakers']
    exact ⟨rfl, rfl⟩
  · intro es
    have hafter := callsHosts_afterEvents hcalls es
    obtain ⟨hopen, hhealth⟩ := health_circuits hafter
    refine ⟨?_, fun host => ?_, hhealth⟩
    · rw [hopen]
      exact Breakers.openCircuits_sorted hafter.keys
    · rw [hopen]
      exact Breakers.mem_openCircuits_iff hafter.keys

/-- A host is cut off by calls that make no request, whether or not another one is called. -/
theorem hosts_apart_between :
    let config : Config := { callFailureThreshold := 1 }
    let stamps : Stamps := ⟨fun _ => "", ""⟩
    let around : Surroundings :=
      { breakers := Handler.freshBreakers config, clock := fun _ => 0.0, replies := [] }
    let c : Context := ⟨.null, .null, .null, .null, .null, .null⟩
    -- headers that are no mapping make no request
    let call (url : String) : HostEvent :=
      let parameters := [(.text "url", .text url), (.text "headers", .list [.null])]
      .call { id := .null, type := Handler.callServiceType, parameters } c
    let s : Service :=
      { engine := { executor := { config, handlers := Handler.standard config stamps none }
                    tests := standardTests }
        state :=
          { surroundings := around, statistics := { errorLimit := 50, total := Record.fresh }
            metrics := some (Metrics.fresh Service.name), clock := ⟨0, 0⟩ } }
    let es := [call "http://a/", call "http://b/", call "http://a/"]
    let es' := [call "http://a/", call "http://a/"]
    Service.fresh config (Handler.standard config stamps none)
        (Handler.setBreakers (Handler.freshBreakers config) around) ⟨0, 0⟩ = .ok s ∧
      List.Forall₂ Breaker.Sign.Agrees (s.signs "a" es) (s.signs "a" es') ∧
      s.seen "a" es = s.seen "a" es' ∧
      (s.seen "a" es).map (·.1) = [false, true] ∧ "a" ∈ (s.afterEvents es).openCircuits := by
  intro config stamps around c call s es es'
  have hs : Service.fresh config (Handler.standard config stamps none)
      (Handler.setBreakers (Handler.freshBreakers config) around) ⟨0, 0⟩ = .ok s := rfl
  have hsigns : s.signs "a" es = s.signs "a" es' := by decide +kernel
  have hagree : List.Forall₂ Breaker.Sign.Agrees (s.signs "a" es) (s.signs "a" es') := by
    rw [hsigns]
    exact List.forall₂_same.2 fun x _ => .refl x
  have hblocked : (s.seen "a" es).map (·.1) = [false, true] := by decide +kernel
  have hopened : ((s.afterEvents es).breakers.get "a").status = .opened := by decide +kernel
  obtain ⟨hapart, hreported⟩ := hosts_apart hs hs
  exact ⟨hs, hagree, (hapart "a" es es' hagree).1, hblocked,
    ((hreported es).2.1 "a").2 hopened⟩

end Service

end Rulebook
