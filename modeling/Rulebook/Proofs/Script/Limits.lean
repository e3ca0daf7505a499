/-
  Limits of runs only cut them off.

  A run is limited by the number of its steps and by its deadline, at which it looks every 64 steps.
  `Limit.cut` is the step at which a limit is met.  A run that ends before it is the same under all
  limits; any other stops there, with the error of the limit that is met first.

  * `Truncates`: this, of runs under every limit, from every state of the machine;
  * `Truncates.tick`, `Truncates.bind`, `Truncates.after`: what it goes through;
  * `exec_truncates`, `execBlock_truncates`: statements;
  * `limits_only_truncate`: expressions and scripts as a whole.
-/
import Rulebook.Proofs.Script.Traversal

namespace Rulebook.Script

/-! ## Limits -/

/-- What limits a run: how many steps it may take, and whether its deadline is past when it
    begins. -/
structure Limit where
  budget : Nat
  expired : Bool

namespace Limit

/-- The step at which a limit is met. -/
def cut (l : Limit) : Nat :=
  if l.expired then min (l.budget + 1) deadlineInterval else l.budget + 1

/-- How a run ends that meets its limit; the budget goes first. -/
def stop (l : Limit) : Stop :=
  if l.cut = l.budget + 1 then .error (.budget l.budget) else .timedOut

/-- A scope under a limit of its own. -/
def scope (l : Limit) (s : Scope) : Scope :=
  { s with budget := l.budget, deadline := if l.expired then some 0 else none }

theorem stop_error_or_timedOut (l : Limit) :
    l.stop = .error (.budget l.budget) ∨ l.stop = .timedOut := by
  unfold stop
  split_ifs
  · exact .inl rfl
  · exact .inr rfl

variable (l : Limit) (s : Scope) (m : Machine)

theorem tick_of_lt (h : m.steps + 1 < l.cut) :
    Run.tick (l.scope s) m = .ok () { m with steps := m.steps + 1 } := by
  rw [tick_apply]
  simp only [scope]
  unfold cut deadlineInterval at *
  cases he : l.expired <;> simp only [he, Bool.false_eq_true, if_false, if_true] at h ⊢
  · rw [if_neg (by omega)]
  · rw [if_neg (by omega), if_neg (by omega)]

theorem tick_of_eq (h : m.steps + 1 = l.cut) :
    Run.tick (l.scope s) m = .error l.stop { m with steps := m.steps + 1 } := by
  rw [tick_apply]
  simp only [scope, stop]
  unfold cut deadlineInterval at *
  cases he : l.expired <;> simp only [he, Bool.false_eq_true, if_false, if_true] at h ⊢
  · rw [if_pos (by omega)]
  · by_cases hb : l.budget + 1 ≤ 64
    · rw [if_pos (by omega), if_pos (by omega)]
    · rw [if_neg (by omega), if_pos (by omega), if_neg (by omega)]

end Limit

/-! ## Runs that limits cut off -/

/-- From every state before its limit, a run is one and the same if that ends before the limit, and
    stops where the limit is if it does not. -/
def Truncates {α : Type} (run : Limit → Run α) : Prop :=
  ∀ m : Machine, ∃ r : EStateM.Result Stop Machine α, m.steps ≤ (stateLeft r).steps ∧
    ∀ l : Limit, m.steps < l.cut →
      ((stateLeft r).steps < l.cut → run l m = r) ∧
      (l.cut ≤ (stateLeft r).steps → ∃ m', m'.steps = l.cut ∧ run l m = .error l.stop m')

/-- No step is taken. -/
def Steady (m m' : Machine) : Prop :=
  m'.steps = m.steps

instance : IsPreorder Machine Steady where
  refl _ := rfl
  trans _ _ _ h h' := Eq.trans h' h

namespace Truncates

variable {α β : Type}

theorem steady {x : Run α} (hx : Keeps Steady x) : Truncates fun _ => x := fun m => by
  have hsteps : (stateLeft (x m)).steps = m.steps := hx m
  exact ⟨x m, Nat.le_of_eq hsteps.symm, fun l hl => ⟨fun _ => rfl, fun hcut => absurd hcut (by omega)⟩⟩

theorem tick (s : Scope) :
    Truncates fun l => Run.tick (l.scope s) := fun m => by
  refine ⟨.ok () { m with steps := m.steps + 1 }, Nat.le_succ _, fun l hl => ⟨fun h => ?_, fun h => ?_⟩⟩
  · exact l.tick_of_lt s m h
  · have heq : m.steps + 1 = l.cut := Nat.le_antisymm hl h
    exact ⟨_, heq, l.tick_of_eq s m heq⟩

theorem bind {x : Limit → Run α} {f : Limit → α → Run β} (hx : Truncates x)
    (hf : ∀ a, Truncates fun l => f l a) : Truncates fun l => x l >>= f l := fun m => by
  obtain ⟨r, hle, hr⟩ := hx m
  cases r with
  | error e m₁ =>
    refine ⟨.error e m₁, hle, fun l hl => ⟨fun h => bind_of_error ((hr l hl).1 h) _, fun h => ?_⟩⟩
    obtain ⟨m', hm', hrun⟩ := (hr l hl).2 h
    exact ⟨m', hm', bind_of_error hrun _⟩
  | ok a m₁ =>
    obtain ⟨r', hle', hr'⟩ := hf a m₁
    refine ⟨r', Nat.le_trans hle hle', fun l hl => ?_⟩
    by_cases hcut : m₁.steps < l.cut
    · have hbind : (x l >>= f l) m = f l a m₁ := bind_of_ok ((hr l hl).1 hcut) _
      change (_ → (x l >>= f l) m = r') ∧ (_ → ∃ m', _ ∧ (x l >>= f l) m = _)
      rw [hbind]
      exact hr' l hcut
    · obtain ⟨m', hm', hrun⟩ := (hr l hl).2 (Nat.not_lt.1 hcut)
      exact ⟨fun h => absurd (Nat.lt_of_le_of_lt hle' h) hcut,
        fun _ => ⟨m', hm', bind_of_error hrun _⟩⟩

/-- What is done with the outcome of a run, if it takes no step and lets the errors of limits
    pass. -/
theorem after {x : Limit → Run α} (hx : Truncates x)
    {g : EStateM.Result Stop Machine α → EStateM.Result Stop Machine β}
    (hsteps : ∀ r, (stateLeft (g r)).steps = (stateLeft r).steps)
    (hstop : ∀ (l : Limit) m, g (.error l.stop m) = .error l.stop m) :
    Truncates fun l m => g (x l m) := fun m => by
  obtain ⟨r, hle, hr⟩ := hx m
  refine ⟨g r, by rw [hsteps]; exact hle, fun l hl => ⟨fun h => ?_, fun h => ?_⟩⟩
  · rw [hsteps] at h
    exact congrArg g ((hr l hl).1 h)
  · rw [hsteps] at h
    obtain ⟨m', hm', hrun⟩ := (hr l hl).2 h
    exact ⟨m', hm', (congrArg g hrun).trans (hstop l m')⟩

end Truncates

/-- Truncation goes through sequences. -/
theorem truncates_sequential (s : Scope) :
    Sequential s (fun l : Limit => l.scope s) Truncates where
  names _ := rfl
  functions _ := rfl
  tick := Truncates.tick s
  quiet hx := .steady fun m => (hx m).steps
  bind := .bind

/-! ## Statements -/

theorem bind_steady (name : String) (v : Value) : Keeps Steady (Run.bind name v) :=
  fun _ => rfl

theorem assign_steady (c k v : Value) : Keeps Steady (do
    let h ← Run.ofExcept (Operator.assign (← Run.heap) c k v)
    modify fun m => { m with heap := h } : Run Unit) := fun m => by
  change Steady m (stateLeft ((Run.ofExcept (Operator.assign m.heap c k v) >>= fun h =>
    modify fun m => { m with heap := h } : Run Unit) m))
  cases Operator.assign m.heap c k v <;> rfl

/-- How a pass through a loop ends when its body ends so. -/
def passed : EStateM.Result Stop Machine Value → EStateM.Result Stop Machine Pass
  | .ok v m => .ok (.done v) m
  | .error .leaveLoop m => .ok .left m
  | .error .nextItem m => .ok .skipped m
  | .error stop m => .error stop m

theorem Truncates.pass {x : Limit → Run Value} (hx : Truncates x) :
    Truncates fun l => Run.pass (x l) := by
  have hsteps (r) : (stateLeft (passed r)).steps = (stateLeft r).steps := by
    unfold passed
    split <;> rfl
  have hstop (l : Limit) (m) : passed (.error l.stop m) = .error l.stop m := by
    rcases l.stop_error_or_timedOut with h | h <;> rw [h] <;> rfl
  exact hx.after hsteps hstop

theorem Truncates.runLoop {x : Limit → Run Value} (hx : Truncates x) (name : String)
    (vs : List Value) (last : Value) : Truncates fun l => runLoop name (x l) vs last := by
  induction vs generalizing last with
  | nil => exact .steady (.pure _)
  | cons v vs ih =>
    simp only [Script.runLoop]
    refine .bind (.steady (bind_steady name v)) fun _ => .bind hx.pass fun p => ?_
    cases p with
    | done w => exact ih w
    | left => exact .steady (.pure _)
    | skipped => exact ih last

section

variable (s : Scope)

theorem eval_truncates (e : Expr) : Truncates fun l => e.eval (l.scope s) :=
  eval_of_sequential (truncates_sequential s) e

theorem assignTo_truncates (target : Expr) (v : Value) :
    Truncates fun l => assignTo (l.scope s) target v := by
  unfold assignTo
  cases target with
  | name id => exact .steady (bind_steady id v)
  | subscript container key =>
    refine .bind (eval_truncates s container) fun c => ?_
    cases c with
    | list r => exact .bind (eval_truncates s key) fun k => .steady (assign_steady _ k v)
    | mapping r => exact .bind (eval_truncates s key) fun k => .steady (assign_steady _ k v)
    | _ => exact .steady (.throw _)
  | _ => exact .steady (.throw _)

theorem assignAll_truncates (targets : List Expr) (v : Value) :
    Truncates fun l => assignAll (l.scope s) targets v := by
  induction targets with
  | nil => exact .steady (.pure _)
  | cons t ts ih =>
    simp only [assignAll]
    exact .bind (assignTo_truncates s t v) fun _ => ih

mutual

theorem exec_truncates : ∀ c : Stmt, Truncates fun l => c.exec (l.scope s)
  | .expr e => by
    simp only [Stmt.exec]
    exact (truncates_sequential s).after_tick (eval_truncates s e)
  | .assign targets value => by
    simp only [Stmt.exec]
    exact (truncates_sequential s).after_tick (.bind (eval_truncates s value) fun v =>
      .bind (assignAll_truncates s targets v) fun _ => .steady (.pure _))
  | .update target op value => by
    simp only [Stmt.exec]
    refine (truncates_sequential s).after_tick ?_
    cases target with
    | name id =>
      exact .bind (eval_truncates s (.name id)) fun v => .bind (eval_truncates s value) fun w =>
        .bind ((truncates_sequential s).quiet (applyBinary_quiet op v w)) fun r =>
          .bind (.steady (bind_steady id r)) fun _ => .steady (.pure _)
    | _ => exact .steady (.throw _)
  | .branch test body orelse => by
    simp only [Stmt.exec]
    exact (truncates_sequential s).after_tick (.bind (eval_truncates s test) fun v =>
      (truncates_sequential s).after_heap fun h =>
        Sequential.ite (execBlock_truncates body .null) (execBlock_truncates orelse .null))
  | .forEach target items body orelse => by
    simp only [Stmt.exec]
    refine (truncates_sequential s).after_tick ?_
    cases target with
    | name id =>
      refine .bind (eval_truncates s items) fun v => (truncates_sequential s).after_heap fun h => ?_
      split
      · exact .steady (.throw _)
      · next vs _ =>
        refine .bind ((execBlock_truncates body .null).runLoop id vs .null) fun p => ?_
        split
        · exact execBlock_truncates _ .null
        · exact .steady (.pure _)
    | _ => exact .steady (.throw _)
  | .ret none => by
    simp only [Stmt.exec]
    exact (truncates_sequential s).after_tick (.steady (.throw _))
  | .ret (some e) => by
    simp only [Stmt.exec]
    exact (truncates_sequential s).after_tick (.bind (eval_truncates s e) fun v =>
      .steady (.throw _))
  | .breakLoop => by
    simp only [Stmt.exec]
    exact (truncates_sequential s).after_tick (.steady (.throw _))
  | .continueLoop => by
    simp only [Stmt.exec]
    exact (truncates_sequential s).after_tick (.steady (.throw _))
  | .pass => by
    simp only [Stmt.exec]
    exact (truncates_sequential s).after_tick (.steady (.pure _))
  | .unsupported _ => by
    simp only [Stmt.exec]
    exact (truncates_sequential s).after_tick (.steady (.throw _))

theorem execBlock_truncates : ∀ (cs : List Stmt) (last : Value),
    Truncates fun l => execBlock (l.scope s) cs last
  | [], _ => by
    simp only [execBlock]
    exact .steady (.pure _)
  | c :: cs, _ => by
    simp only [execBlock]
    exact .bind (exec_truncates c) fun v => execBlock_truncates cs v

end

end

/-! ## Whole texts -/

/-- How a script ends when its statements end so. -/
def finished : EStateM.Result Stop Machine Value → EStateM.Result Stop Machine Value
  | .ok v m => .ok ((m.locals.lookup "result").getD v) m
  | .error (.finish v) m => .ok v m
  | .error .leaveLoop m => .error (.error .strayLoopControl) m
  | .error .nextItem m => .error (.error .strayLoopControl) m
  | .error stop m => .error stop m

theorem runStatements_truncates (s : Scope) (ss : List Stmt) :
    Truncates fun l => runStatements (l.scope s) ss := by
  have hsteps (r) : (stateLeft (finished r)).steps = (stateLeft r).steps := by
    unfold finished
    split <;> rfl
  have hstop (l : Limit) (m) : finished (.error l.stop m) = .error l.stop m := by
    rcases l.stop_error_or_timedOut with h | h <;> rw [h] <;> rfl
  exact (execBlock_truncates s ss .null).after hsteps hstop

/-- Of a run on a fresh machine: it has one outcome, after some number of steps, under all limits
    that are not met by then, and under any other it stops where the limit is. -/
def OnlyTruncated (h : Heap) (run : Limit → Run Value) : Prop :=
  ∃ (outcome : EStateM.Result Stop Machine Value) (steps : Nat),
    (stateLeft outcome).steps = steps ∧ ∀ l : Limit,
      (steps < l.cut → run l { heap := h } = outcome) ∧
      (l.cut ≤ steps → ∃ m, m.steps = l.cut ∧ run l { heap := h } = .error l.stop m)

theorem Truncates.onlyTruncated {run : Limit → Run Value} (hr : Truncates run) (h : Heap) :
    OnlyTruncated h run := by
  obtain ⟨r, -, hr⟩ := hr { heap := h }
  have hpos (l : Limit) : 0 < l.cut := by
    unfold Limit.cut deadlineInterval
    split_ifs <;> omega
  exact ⟨r, _, rfl, fun l => hr l (hpos l)⟩

/-- **Limits only cut runs off.** Whatever the names are, an expression and a script, given as trees
    or as texts, end in one way after some number of steps; under a budget and perhaps a past
    deadline they end so too, unless the limit is met by then and they stop there. -/
theorem limits_only_truncate (s : Scope) (h : Heap) :
    (∀ e : Expr, OnlyTruncated h fun l => e.eval (l.scope s)) ∧
    (∀ ss : List Stmt, OnlyTruncated h fun l => runStatements (l.scope s) ss) ∧
    (∀ source, OnlyTruncated h fun l => evaluate (l.scope s) source) ∧
    ∀ source, OnlyTruncated h fun l => run (l.scope s) source := by
  have he := eval_truncates s
  have hs := runStatements_truncates s
  refine ⟨fun e => (he e).onlyTruncated h, fun ss => (hs ss).onlyTruncated h,
    fun source => Truncates.onlyTruncated ?_ h, fun source => Truncates.onlyTruncated ?_ h⟩
  · cases hread : parseExpression s.charNames source with
    | ok e =>
      have heval : (fun l : Limit => evaluate (l.scope s) source) = fun l => e.eval (l.scope s) :=
        funext fun l => evaluate_of_read hread
      exact heval ▸ he e
    | error e =>
      have hrefused : (fun l : Limit => evaluate (l.scope s) source) = fun _ => Run.refuse e :=
        funext fun l => evaluate_of_unread hread
      exact hrefused ▸ .steady (.throw _)
  · cases hread : parseScript s.charNames source with
    | ok ss =>
      have hrun : (fun l : Limit => run (l.scope s) source) = fun l =>
          runStatements (l.scope s) ss := funext fun l => run_of_read hread
      exact hrun ▸ hs ss
    | error e =>
      have hrefused : (fun l : Limit => run (l.scope s) source) = fun _ => Run.refuse e :=
        funext fun l => run_of_unread hread
      exact hrefused ▸ .steady (.throw _)

end Rulebook.Script
