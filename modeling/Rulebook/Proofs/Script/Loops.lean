/-
  Loops run over a snapshot.

  A loop begins when its container has a value; the items that this value has then are the ones
  that the loop runs over, whatever its body does to the container.  The run is told turn by turn.
  A turn binds the name to an item and runs the body.  The loop goes on after a body that ran to its
  end or whose rest was skipped; a turn that leaves the loop, returns or fails is the last one.

  * `Begins`, `Turns`: how a loop begins, and the turns that it takes;
  * `turns_nil_iff`, `turns_cons_iff`: the turns, item by item;
  * `Course.Tells`: the turns of a loop, its else clause if that runs, and how the loop ends;
  * `exec_of_begins`, `exec_of_not_begins`: every loop runs so.
-/
import Mathlib.Data.List.Chain
import Rulebook.Proofs.Script.Containment

namespace Rulebook.Script

/-! ## Jumps -/

/-- What a statement asks of the loop that it stands in: to be left, or to go on with its next
    item. -/
inductive Jump where
  | leave
  | next

namespace Jump

def statement : Jump → Stmt
  | leave => .breakLoop
  | next => .continueLoop

def stop : Jump → Stop
  | leave => .leaveLoop
  | next => .nextItem

@[simp] theorem stop_leave : leave.stop = .leaveLoop := rfl

@[simp] theorem stop_next : next.stop = .nextItem := rfl

end Jump

/-- The contract that no jump ends a run, and nothing else. -/
def jumpless : Contract :=
  allowing fun stop => ∀ j : Jump, stop ≠ j.stop

theorem jumpless_fair (s : Scope) : jumpless.Fair s :=
  allowing_fair (fun e j => by cases j <;> simp) (fun j => by cases j <;> simp) s

theorem jumpless_kept (s : Scope) (site : Site) : jumpless.Kept s site :=
  allowing_kept fun f _ j => by cases j <;> simp

theorem Contract.Holds.ne_jump {α : Type} {Q : α → Prop} {x : Run α} (hx : jumpless.Holds Q x)
    {m m' : Machine} {stop : Stop} (h : x m = .error stop m') (j : Jump) : stop ≠ j.stop := by
  have hends := hx m trivial
  rw [Ends, h] at hends
  exact hends.1 j

theorem eval_jumpless (s : Scope) (e : Expr) : jumpless.Holds jumpless.value (e.eval s) :=
  Contract.eval_holds (jumpless_fair s) e fun site _ => jumpless_kept s site

/-! ## Turns -/

/-- How statements end: with the value of the last one or with a stop, and the machine then. -/
abbrev Ending := EStateM.Result Stop Machine Value

/-- The machine in which a name is bound to a value. -/
def Machine.binding (m : Machine) (name : String) (v : Value) : Machine :=
  { m with locals := setLocal m.locals name v }

theorem lookup_setLocal (locals : List (String × Value)) (name : String) (v : Value) :
    (setLocal locals name v).lookup name = some v := by
  unfold setLocal
  split
  next h =>
    induction locals with
    | nil => simp at h
    | cons e locals ih =>
      obtain ⟨id, w⟩ := e
      by_cases hid : id = name
      · simp [hid]
      · have hrest : (locals.any fun e => e.1 == name) = true := by simpa [hid] using h
        have hne : (name == id) = false := beq_false_of_ne (Ne.symm hid)
        simpa [hid, hne, List.lookup_cons] using ih hrest
  next h =>
    induction locals with
    | nil => simp
    | cons e locals ih =>
      obtain ⟨id, w⟩ := e
      obtain ⟨hid, hrest⟩ : ¬id = name ∧ ¬(locals.any fun e => e.1 == name) = true := by
        simpa using h
      have hne : (name == id) = false := beq_false_of_ne (Ne.symm hid)
      simpa [hne, List.lookup_cons] using ih hrest

/-- A turn of a loop: the item that is bound, the machine before it is, and how the body ends. -/
structure Turn where
  item : Value
  before : Machine
  ending : Ending

namespace Turn

/-- The turn that binds an item in a machine. -/
def take (s : Scope) (name : String) (body : List Stmt) (v : Value) (m : Machine) : Turn :=
  ⟨v, m, execBlock s body .null (m.binding name v)⟩

/-- The machine with which the loop goes on, if it does: the body ran to its end, or its rest was
    skipped. -/
def onward? (t : Turn) : Option Machine :=
  match t.ending with
  | .ok _ m => some m
  | .error .nextItem m => some m
  | .error _ _ => none

/-- The loop goes on after the turn. -/
def GoesOn (t : Turn) : Prop :=
  t.onward?.isSome

/-- The value of a body that ran to its end. -/
def value? (t : Turn) : Option Value :=
  match t.ending with
  | .ok v _ => some v
  | .error _ _ => none

section

variable {t : Turn} {v : Value} {stop : Stop} {m : Machine}

theorem onward?_of_ok (h : t.ending = .ok v m) : t.onward? = some m := by
  rw [onward?, h]

theorem onward?_of_skipped (h : t.ending = .error .nextItem m) : t.onward? = some m := by
  rw [onward?, h]

theorem onward?_of_error (h : t.ending = .error stop m) (hstop : stop ≠ .nextItem) :
    t.onward? = none := by
  rw [onward?, h]
  cases stop <;> first | rfl | exact absurd rfl hstop

theorem value?_of_ok (h : t.ending = .ok v m) : t.value? = some v := by
  rw [value?, h]

theorem value?_of_error (h : t.ending = .error stop m) : t.value? = none := by
  rw [value?, h]

theorem not_goesOn (h : t.ending = .error stop m) (hstop : stop ≠ .nextItem) : ¬t.GoesOn := by
  rw [GoesOn, onward?_of_error h hstop]
  simp

/-- The loop goes on after a turn, or is left, or ends with a stop that is meant for no loop. -/
theorem cases_ending (t : Turn) : t.GoesOn ∨ (∃ m, t.ending = .error .leaveLoop m) ∨
    ∃ stop m, t.ending = .error stop m ∧ ∀ j : Jump, stop ≠ j.stop := by
  cases h : t.ending with
  | ok v m => exact .inl (by rw [GoesOn, onward?_of_ok h]; rfl)
  | error stop m =>
    cases stop with
    | nextItem => exact .inl (by rw [GoesOn, onward?_of_skipped h]; rfl)
    | leaveLoop => exact .inr (.inl ⟨m, rfl⟩)
    | error | timedOut | fault | finish =>
      exact .inr (.inr ⟨_, m, rfl, fun j => by cases j <;> simp⟩)

end

end Turn

/-- The turns of a loop that begins in a machine and runs over items. -/
structure Turns (s : Scope) (name : String) (body : List Stmt) (items : List Value) (m : Machine)
    (ts : List Turn) : Prop where
  /-- What is bound are the items, from the first one on and in their order. -/
  bound : ts.map (·.item) = items.take ts.length
  /-- The body runs with the item bound. -/
  runs : ∀ t ∈ ts, t.ending = execBlock s body .null (t.before.binding name t.item)
  /-- The body begins with the name standing for the item. -/
  reads : ∀ t ∈ ts, (t.before.binding name t.item).locals.lookup name = some t.item
  /-- The first turn is taken where the loop begins. -/
  first : ∀ t ∈ ts.head?, t.before = m
  /-- A turn that is followed by another one is one after which the loop goes on, and the next is
      taken there. -/
  next : ts.IsChain fun t u => t.onward? = some u.before
  /-- Items are left over only if the loop does not go on. -/
  whole : (∀ t ∈ ts, t.GoesOn) → ts.length = items.length

section

variable {s : Scope} {name : String} {body : List Stmt} {v : Value} {vs : List Value} {m : Machine}
  {ts us : List Turn}

theorem turns_nil_iff : Turns s name body [] m ts ↔ ts = [] := by
  constructor
  · intro h
    simpa using h.bound
  · rintro rfl
    exact ⟨rfl, by simp, by simp, by simp, .nil, fun _ => rfl⟩

/-- The first turn binds the first item; the others are those over the rest, if the loop goes on. -/
theorem turns_cons_iff : Turns s name body (v :: vs) m ts ↔
    ∃ rest, ts = Turn.take s name body v m :: rest ∧
      match (Turn.take s name body v m).onward? with
      | some m' => Turns s name body vs m' rest
      | none => rest = [] := by
  constructor
  · intro h
    cases ts with
    | nil =>
      have hwhole := h.whole (by simp)
      cases hwhole
    | cons t rest =>
      obtain ⟨hitem, hrest⟩ : t.item = v ∧ rest.map (·.item) = vs.take rest.length := by
        simpa using h.bound
      have hbefore : t.before = m := h.first t rfl
      have ht : t = Turn.take s name body v m := by
        rw [Turn.take, ← hitem, ← hbefore, ← h.runs t List.mem_cons_self]
      obtain ⟨hnext, hchain⟩ := List.isChain_cons.1 h.next
      subst ht
      refine ⟨rest, rfl, ?_⟩
      split
      next m' hon =>
        refine ⟨hrest, (List.forall_mem_cons.1 h.runs).2, (List.forall_mem_cons.1 h.reads).2,
          fun u hu => ?_, hchain, fun hall => ?_⟩
        · exact (Option.some.inj (hon.symm.trans (hnext u hu))).symm
        · have hlength := h.whole (List.forall_mem_cons.2 ⟨by simp [Turn.GoesOn, hon], hall⟩)
          simpa using hlength
      next hoff =>
        cases rest with
        | nil => rfl
        | cons u us => cases hoff.symm.trans (hnext u rfl)
  · rintro ⟨rest, rfl, h⟩
    split at h
    next m' hon =>
      refine ⟨by simpa [Turn.take] using h.bound, List.forall_mem_cons.2 ⟨rfl, h.runs⟩,
        List.forall_mem_cons.2 ⟨lookup_setLocal _ _ _, h.reads⟩, fun t ht => ?_,
        List.isChain_cons.2 ⟨fun u hu => ?_, h.next⟩, fun hall => ?_⟩
      · cases ht
        rfl
      · rw [hon, h.first u hu]
      · simpa using h.whole (List.forall_mem_cons.1 hall).2
    next hoff =>
      subst h
      refine ⟨rfl, by simp [Turn.take], by simp [Turn.take, Machine.binding, lookup_setLocal],
        fun t ht => ?_, .singleton _, fun hall => ?_⟩
      · cases ht
        rfl
      · have hon := hall _ List.mem_cons_self
        simp [Turn.GoesOn, hoff] at hon

variable (s name body) in
/-- The turns of a loop are there, and there is one account of them. -/
theorem existsUnique_turns (items : List Value) (m : Machine) :
    ∃! ts, Turns s name body items m ts := by
  induction items generalizing m with
  | nil => exact ⟨[], turns_nil_iff.2 rfl, fun us hus => turns_nil_iff.1 hus⟩
  | cons v vs ih =>
    cases hon : (Turn.take s name body v m).onward? with
    | none =>
      refine ⟨[Turn.take s name body v m], turns_cons_iff.2 ⟨[], rfl, by rw [hon]⟩, ?_⟩
      intro us hus
      obtain ⟨rest, rfl, hrest⟩ := turns_cons_iff.1 hus
      rw [hon] at hrest
      rw [hrest]
    | some m' =>
      obtain ⟨rest, hrest, hunique⟩ := ih m'
      refine ⟨Turn.take s name body v m :: rest, turns_cons_iff.2 ⟨rest, rfl, by rwa [hon]⟩, ?_⟩
      intro us hus
      obtain ⟨rest', rfl, hrest'⟩ := turns_cons_iff.1 hus
      rw [hon] at hrest'
      rw [hunique rest' hrest']

end

/-- The last of what turns have, if one of them has any. -/
def lastOf {α : Type} (f : Turn → Option α) (a : α) (ts : List Turn) : α :=
  (ts.filterMap f).getLast?.getD a

theorem lastOf_cons {α : Type} (f : Turn → Option α) (a : α) (t : Turn) (ts : List Turn) :
    lastOf f a (t :: ts) = lastOf f ((f t).getD a) ts := by
  cases hf : f t <;> simp [lastOf, hf, List.getLast?_cons]

/-! ## How a loop ends -/

/-- What turns come to: the value of the last body that ran to its end, and whether the loop was
    left. -/
structure Close (ts : List Turn) (last : Value) (m : Machine)
    (r : EStateM.Result Stop Machine (Value × Bool)) : Prop where
  on : (∀ t ∈ ts, t.GoesOn) → r = .ok (lastOf Turn.value? last ts, false) (lastOf Turn.onward? m ts)
  left : ∀ t ∈ ts, ∀ m', t.ending = .error .leaveLoop m' →
    r = .ok (lastOf Turn.value? last ts, true) m'
  stopped : ∀ t ∈ ts, ∀ stop m', t.ending = .error stop m' → (∀ j : Jump, stop ≠ j.stop) →
    r = .error stop m'

namespace Close

variable {t : Turn} {ts : List Turn} {last : Value} {m m' : Machine}

/-- A turn after which the loop goes on adds its value to what the later ones come to. -/
theorem cons {r : EStateM.Result Stop Machine (Value × Bool)} (ht : t.onward? = some m')
    (h : Close ts (t.value?.getD last) m' r) : Close (t :: ts) last m r where
  on hall := by
    rw [h.on (List.forall_mem_cons.1 hall).2, lastOf_cons, lastOf_cons, ht, Option.getD_some]
  left u hu m'' hend := by
    rcases List.mem_cons.1 hu with rfl | hu
    · cases (Turn.onward?_of_error hend (by simp)).symm.trans ht
    · rw [h.left u hu m'' hend, lastOf_cons]
  stopped u hu stop m'' hend hstop := by
    rcases List.mem_cons.1 hu with rfl | hu
    · cases (Turn.onward?_of_error hend (hstop .next)).symm.trans ht
    · exact h.stopped u hu stop m'' hend hstop

theorem of_left (ht : t.ending = .error .leaveLoop m') :
    Close [t] last m (.ok (last, true) m') where
  on hall := absurd (hall t List.mem_cons_self) (Turn.not_goesOn ht (by simp))
  left u hu m'' hend := by
    obtain rfl := List.mem_singleton.1 hu
    cases ht.symm.trans hend
    rw [lastOf_cons, Turn.value?_of_error ht]
    rfl
  stopped u hu stop m'' hend hstop := by
    obtain rfl := List.mem_singleton.1 hu
    cases ht.symm.trans hend
    exact absurd rfl (hstop .leave)

theorem of_stopped {stop : Stop} (ht : t.ending = .error stop m')
    (hstop : ∀ j : Jump, stop ≠ j.stop) : Close [t] last m (.error stop m') where
  on hall := absurd (hall t List.mem_cons_self) (Turn.not_goesOn ht (hstop .next))
  left u hu m'' hend := by
    obtain rfl := List.mem_singleton.1 hu
    cases ht.symm.trans hend
    exact absurd rfl (hstop .leave)
  stopped u hu stop' m'' hend _ := by
    obtain rfl := List.mem_singleton.1 hu
    cases ht.symm.trans hend
    rfl

end Close

section

variable {s : Scope} {name : String} {body : List Stmt} {v last : Value} {vs : List Value}
  {m m' : Machine} {ts : List Turn}

theorem runLoop_cons (body : Run Value) :
    runLoop name body (v :: vs) last m =
      match body (m.binding name v) with
      | .ok w m' => runLoop name body vs w m'
      | .error .nextItem m' => runLoop name body vs last m'
      | .error .leaveLoop m' => .ok (last, true) m'
      | .error stop m' => .error stop m' := by
  have hbind : Run.bind name v m = .ok () (m.binding name v) := rfl
  rw [runLoop, bind_of_ok hbind, bind_apply, Run.pass]
  cases body (m.binding name v) with
  | ok w m' => rfl
  | error stop m' => cases stop <;> rfl

/-- A loop comes to what its turns come to. -/
theorem runLoop_close (last : Value) (h : Turns s name body vs m ts) :
    Close ts last m (runLoop name (execBlock s body .null) vs last m) := by
  induction vs generalizing m last ts with
  | nil =>
    obtain rfl := turns_nil_iff.1 h
    rw [runLoop]
    exact ⟨fun _ => rfl, by simp, by simp⟩
  | cons v vs ih =>
    obtain ⟨rest, rfl, hrest⟩ := turns_cons_iff.1 h
    rw [runLoop_cons]
    generalize htake : Turn.take s name body v m = t at hrest ⊢
    have hend : execBlock s body .null (m.binding name v) = t.ending := htake ▸ rfl
    rw [hend]
    cases ht : t.ending with
    | ok w m' =>
      have hon := Turn.onward?_of_ok ht
      rw [hon] at hrest
      refine .cons hon ?_
      rw [Turn.value?_of_ok ht]
      exact ih w hrest
    | error stop m' =>
      cases stop with
      | nextItem =>
        have hon := Turn.onward?_of_skipped ht
        rw [hon] at hrest
        refine .cons hon ?_
        rw [Turn.value?_of_error ht]
        exact ih last hrest
      | leaveLoop =>
        rw [Turn.onward?_of_error ht (by simp)] at hrest
        subst hrest
        exact .of_left ht
      | error | timedOut | fault | finish =>
        rw [Turn.onward?_of_error ht (by simp)] at hrest
        subst hrest
        exact .of_stopped ht fun j => by cases j <;> simp

end

/-! ## Loops -/

/-- A loop begins: its target is a name, and its container has a value whose items, as they are
    then, are given. -/
structure Begins (s : Scope) (target container : Expr) (m : Machine) (name : String)
    (items : List Value) (m₁ : Machine) : Prop where
  target_eq : target = .name name
  container_eval : ∃ v, (Run.tick s >>= fun _ => container.eval s) m = .ok v m₁ ∧
    Operator.items? m₁.heap v = some items

/-- The course of a loop: its turns, and the machine with which its else clause begins, if that
    runs. -/
structure Course where
  turns : List Turn
  otherwise : Option Machine

/-- A course is the one by which a loop that begins in a machine and runs over items comes to its
    end. -/
structure Course.Tells (s : Scope) (name : String) (body orelse : List Stmt) (items : List Value)
    (m : Machine) (ending : Ending) (c : Course) : Prop where
  turns : Turns s name body items m c.turns
  /-- The else clause runs if the loop goes on after every turn, and only then. -/
  elseRuns : c.otherwise.isSome ↔ ∀ t ∈ c.turns, t.GoesOn
  /-- It runs where the loop last went on, and ends the loop.  An empty one leaves the value of the
      last body that ran to its end. -/
  elseEnds : ∀ m', c.otherwise = some m' → m' = lastOf Turn.onward? m c.turns ∧
    ending = execBlock s orelse (lastOf Turn.value? .null c.turns) m'
  /-- A loop that is left ends with that value, whatever stands after its body. -/
  leaves : ∀ t ∈ c.turns, ∀ m', t.ending = .error .leaveLoop m' →
    ending = .ok (lastOf Turn.value? .null c.turns) m'
  /-- A stop that is meant for no loop ends the loop and goes on. -/
  stops : ∀ t ∈ c.turns, ∀ stop m', t.ending = .error stop m' → (∀ j : Jump, stop ≠ j.stop) →
    ending = .error stop m'

section

variable {s : Scope} {target container : Expr} {name : String} {body orelse : List Stmt}
  {items : List Value} {m m₁ : Machine}

theorem heap_apply (m : Machine) : Run.heap m = .ok m.heap m :=
  rfl

/-- How a loop begins, or does not. -/
def entry (s : Scope) (target container : Expr) : Run (String × List Value) := do
  Run.tick s
  match target with
  | .name id =>
    let v ← container.eval s
    match Operator.items? (← Run.heap) v with
    | none => Run.refuse .noItems
    | some items => return (id, items)
  | _ => Run.refuse .loopTarget

theorem entry_eq_ok_iff :
    entry s target container m = .ok (name, items) m₁ ↔
      Begins s target container m name items m₁ := by
  constructor
  · intro h
    cases target with
    | name id =>
      rw [entry] at h
      obtain ⟨_, m₀, htick, h⟩ := bind_eq_ok.1 h
      obtain ⟨v, m', hv, h⟩ := bind_eq_ok.1 h
      rw [bind_of_ok (heap_apply m')] at h
      cases hitems : Operator.items? m'.heap v with
      | none =>
        rw [hitems] at h
        cases h
      | some vs =>
        rw [hitems] at h
        cases h
        exact ⟨rfl, v, bind_eq_ok.2 ⟨_, m₀, htick, hv⟩, hitems⟩
    | _ =>
      simp only [entry] at h
      obtain ⟨_, m₀, -, h⟩ := bind_eq_ok.1 h
      cases h
  · rintro ⟨rfl, v, hv, hitems⟩
    obtain ⟨_, m₀, htick, hv⟩ := bind_eq_ok.1 hv
    rw [entry, bind_of_ok htick, bind_of_ok hv, bind_of_ok (heap_apply m₁), hitems]
    rfl

theorem entry_spares (s : Scope) (target container : Expr) :
    Keeps Spares (entry s target container) := by
  refine (tick_spares s).bind fun _ => ?_
  cases target with
  | name id =>
    refine (eval_spares s container).bind fun v => ?_
    refine Keeps.bind (fun m => refl_of Spares m) fun h => ?_
    cases Operator.items? h v with
    | none => exact .throw _
    | some items => exact .pure _
  | _ => exact .throw _

theorem entry_jumpless (s : Scope) (target container : Expr) :
    jumpless.Holds (fun _ => True) (entry s target container) := by
  have hs := jumpless_fair s
  refine .step hs ?_
  cases target with
  | name id =>
    refine .bind (eval_jumpless s container) fun v _ => .heap fun h => ?_
    cases Operator.items? h v with
    | none => exact .refuse hs _
    | some items => exact .pure trivial
  | _ => exact .refuse hs _

theorem exec_forEach : (Stmt.forEach target container body orelse).exec s m =
    match entry s target container m with
    | .error stop m' => .error stop m'
    | .ok (name, items) m₁ =>
      match runLoop name (execBlock s body .null) items .null m₁ with
      | .ok (last, true) m₂ => .ok last m₂
      | .ok (last, false) m₂ => execBlock s orelse last m₂
      | .error stop m₂ => .error stop m₂ := by
  cases target with
  | name id =>
    rw [Stmt.exec, entry, bind_apply, bind_apply]
    cases Run.tick s m with
    | error stop m' => rfl
    | ok _ m₀ =>
      dsimp only
      rw [bind_apply, bind_apply]
      cases container.eval s m₀ with
      | error stop m' => rfl
      | ok v m₁ =>
        dsimp only
        rw [bind_of_ok (heap_apply m₁), bind_of_ok (heap_apply m₁)]
        cases Operator.items? m₁.heap v with
        | none => rfl
        | some items =>
          dsimp only
          rw [bind_apply]
          have hpure (p : String × List Value) : (pure p : Run _) m₁ = .ok p m₁ := rfl
          rw [hpure]
          dsimp only
          cases runLoop id (execBlock s body .null) items .null m₁ with
          | error stop m₂ => rfl
          | ok p m₂ =>
            obtain ⟨last, left⟩ := p
            cases left with
            | true => rfl
            | false =>
              -- an else clause that is there does not look at the value before it
              cases orelse with
              | nil => rw [execBlock]; rfl
              | cons c cs => rw [execBlock]; rfl
  | _ =>
    simp only [Stmt.exec, entry]
    rw [bind_apply, bind_apply]
    cases Run.tick s m <;> rfl

variable (body orelse) in
/-- A loop that begins takes one course, by which it comes to its end. -/
theorem exec_of_begins (h : Begins s target container m name items m₁) :
    ∃! c : Course, c.Tells s name body orelse items m₁
      ((Stmt.forEach target container body orelse).exec s m) := by
  obtain ⟨ts, hts, hunique⟩ := existsUnique_turns s name body items m₁
  have hclose := runLoop_close .null hts
  rw [exec_forEach, entry_eq_ok_iff.2 h]
  dsimp only
  generalize runLoop name (execBlock s body .null) items .null m₁ = r at hclose
  by_cases hall : ∀ t ∈ ts, t.GoesOn
  · obtain rfl := hclose.on hall
    refine ⟨⟨ts, some (lastOf Turn.onward? m₁ ts)⟩, ⟨hts, by simpa using hall, ?_, ?_, ?_⟩, ?_⟩
    · rintro m' hm'
      cases hm'
      exact ⟨rfl, rfl⟩
    · intro t ht m' hend
      exact absurd (hall t ht) (Turn.not_goesOn hend (by simp))
    · intro t ht stop m' hend hstop
      exact absurd (hall t ht) (Turn.not_goesOn hend (hstop .next))
    · rintro ⟨us, otherwise⟩ hc
      obtain rfl := hunique us hc.turns
      obtain ⟨m', hm'⟩ := Option.isSome_iff_exists.1 (hc.elseRuns.2 hall)
      obtain rfl := (hc.elseEnds m' hm').1
      rw [← hm']
  · refine ⟨⟨ts, none⟩, ⟨hts, by simpa using hall, by simp, ?_, ?_⟩, ?_⟩
    · intro t ht m' hend
      rw [hclose.left t ht m' hend]
    · intro t ht stop m' hend hstop
      rw [hclose.stopped t ht stop m' hend hstop]
    · rintro ⟨us, otherwise⟩ hc
      obtain rfl := hunique us hc.turns
      have hnone := Option.not_isSome_iff_eq_none.1 (mt hc.elseRuns.1 hall)
      rw [← hnone]

variable (body orelse) in
/-- A loop that does not begin ends where it stands: no name is bound, no object changes, and no
    loop around it is left or goes on. -/
theorem exec_of_not_begins (h : ∀ name items m₁, ¬Begins s target container m name items m₁) :
    ∃ stop m', (Stmt.forEach target container body orelse).exec s m = .error stop m' ∧
      Spares m m' ∧ ∀ j : Jump, stop ≠ j.stop := by
  have hspares := entry_spares s target container m
  cases he : entry s target container m with
  | ok p m₁ => exact absurd (entry_eq_ok_iff.1 he) (h p.1 p.2 m₁)
  | error stop m' =>
    rw [KeepsAt, he] at hspares
    exact ⟨stop, m', by rw [exec_forEach, he], hspares,
      (entry_jumpless s target container).ne_jump he⟩

end

end Rulebook.Script
