/-
  What holds of every expression.

  An expression is evaluated in steps and, between them, operations that are `Quiet`: they take no
  step and make new objects at most.  So whatever holds of a step and of quiet operations, and goes
  through sequences, holds of all expressions (`eval_of_sequential`).  It is shown of runs under
  several scopes side by side, which differ in what limits them only.

  * `applyBinary_quiet`, …, `applyFunction_quiet`: the operations of expressions;
  * `eval_of_sequential`: the principle;
  * `evaluate_spares`, `guardHolds_extends`: an evaluation binds no name and changes no object.
-/
import Rulebook.Proofs.Script.Operators
import Rulebook.Script.Guard

namespace Rulebook.Script

/-! ## Steps -/

/-- What a step does. -/
theorem tick_apply (s : Scope) (m : Machine) :
    Run.tick s m =
      if s.budget < (m.steps + 1 : Nat) then
        .error (.error (.budget s.budget)) { m with steps := m.steps + 1 }
      else
        match s.deadline with
        | some past =>
          if (m.steps + 1) % deadlineInterval = 0 ∧ past ≤ m.steps + 1 then
            .error .timedOut { m with steps := m.steps + 1 }
          else .ok () { m with steps := m.steps + 1 }
        | none => .ok () { m with steps := m.steps + 1 } := by
  have hmodify (f : Machine → Machine) : (modify f : Run Unit) m = .ok () (f m) := rfl
  have hget (m : Machine) : (get : Run Machine) m = .ok m m := rfl
  unfold Run.tick
  rw [bind_of_ok (hmodify _), bind_of_ok (hget _)]
  dsimp only
  split_ifs
  · rfl
  · cases s.deadline with
    | none => rfl
    | some past =>
      dsimp only
      split_ifs <;> rfl

/-! ## Quiet operations -/

/-- No step is taken, no name is bound and no object is changed. -/
structure Quiet (m m' : Machine) : Prop where
  steps : m'.steps = m.steps
  locals : m'.locals = m.locals
  heap : m.heap.Extends m'.heap

instance : IsPreorder Machine Quiet where
  refl m := ⟨rfl, rfl, .refl m.heap⟩
  trans _ _ _ h h' :=
    ⟨h'.steps.trans h.steps, h'.locals.trans h.locals, h.heap.trans h'.heap⟩

namespace Quiet

theorem refl (m : Machine) : Quiet m m :=
  ⟨rfl, rfl, .refl m.heap⟩

/-- A heap that extends the one before is kept. -/
theorem setHeap {m : Machine} {h : Heap} (he : m.heap.Extends h) : Quiet m { m with heap := h } :=
  ⟨rfl, rfl, he⟩

end Quiet

theorem heap_bind_quietAt {α : Type} {f : Heap → Run α} {m : Machine}
    (hf : KeepsAt Quiet m (f m.heap)) : KeepsAt Quiet m (Run.heap >>= f) :=
  hf

theorem heap_quiet : Keeps Quiet Run.heap :=
  Quiet.refl

theorem ofExcept_quiet {α : Type} (r : Except Fault α) : Keeps Quiet (Run.ofExcept r) := by
  cases r
  · exact .throw _
  · exact .pure _

theorem orElse_quiet {α : Type} (stop : Fault → Stop) (r : Except Fault α) :
    Keeps Quiet (Run.orElse stop r) := by
  cases r
  · exact .throw _
  · exact .pure _

theorem check_quiet (r : Except Error Unit) : Keeps Quiet (Run.check r) := by
  cases r
  · exact .throw _
  · exact .pure _

/-- The value of a yield is taken with its heap, or the run stops. -/
theorem keeping_quietAt {y : Yield} {m : Machine} (stop : Fault → Stop) (hy : Grows m.heap y) :
    KeepsAt Quiet m (Run.orElse stop y >>= Run.keeping) := by
  cases y with
  | error f => exact Quiet.refl m
  | ok p => exact Quiet.setHeap (hy p rfl)

theorem newList_quiet (vs : List Value) :
    Keeps Quiet (do Run.keeping ((← Run.heap).newList vs) : Run Value) :=
  fun m => Quiet.setHeap (.newList m.heap vs)

theorem newMapping_quiet (es : Entries) :
    Keeps Quiet (do Run.keeping ((← Run.heap).newMapping es) : Run Value) :=
  fun m => Quiet.setHeap (.newMapping m.heap es)

theorem lookUp_quiet (s : Scope) (name : String) : Keeps Quiet (Run.lookUp s name) := fun m => by
  refine KeepsAt.get_bind ?_
  split
  · exact .pure _ m
  · split
    · exact .pure _ m
    · exact .throw _ m

theorem applyBinary_quiet (op : BinaryOp) (v w : Value) : Keeps Quiet (applyBinary op v w) :=
  fun m => by
    refine heap_bind_quietAt (KeepsAt.bind (check_quiet _ m) fun _ m' hm => ?_)
    obtain rfl : m = m' := by
      cases hc : checkOperands m.heap op v w <;> rw [hc] at hm <;> cases hm
      rfl
    refine heap_bind_quietAt ?_
    cases hy : Operator.binary m.heap op v w with
    | error f => exact Quiet.refl m
    | ok p =>
      have hk : KeepsAt Quiet m (Run.keeping p) := Quiet.setHeap (Operator.binary_grows p hy)
      change KeepsAt Quiet m (Run.keeping p >>= fun r => Run.heap >>= fun h =>
        Run.check (checkResult h r) >>= fun _ => pure r)
      exact hk.bind fun r m' _ => heap_bind_quietAt
        (KeepsAt.bind (check_quiet _ m') fun _ m'' _ => .pure _ m'')

theorem applyUnary_quiet (op : UnaryOp) (v : Value) : Keeps Quiet (applyUnary op v) := fun m => by
  unfold applyUnary
  split
  · exact heap_bind_quietAt (.pure _ m)
  · exact ofExcept_quiet _ m

theorem applySubscript_quiet (v key : Value) : Keeps Quiet (applySubscript v key) := fun m => by
  refine heap_bind_quietAt ?_
  split
  · exact .throw _ m
  · next y hy => exact keeping_quietAt _ (Operator.subscript?_grows hy)

theorem set_quietAt {α : Type} {m m' : Machine} {x : Run α} (h : Quiet m m')
    (hx : KeepsAt Quiet m' x) : KeepsAt Quiet m (set m' >>= fun _ => x) :=
  trans_of Quiet h hx

theorem rangeItems_quiet (start stop step : Int) :
    Keeps Quiet (Function.rangeItems start stop step) := by
  unfold Function.rangeItems
  split
  · exact .throw _
  · dsimp only
    split
    · exact .throw _
    · split
      · exact .throw _
      · exact .pure _

theorem apply_quiet (f : Function) (vs : List Value) : Keeps Quiet (f.apply vs) := fun m => by
  unfold Function.apply
  split
  · refine heap_bind_quietAt (KeepsAt.bind (ofExcept_quiet _ m) fun bounds m' _ => ?_)
    refine KeepsAt.bind (rangeItems_quiet _ _ _ m') fun items m'' _ => ?_
    exact newList_quiet items m''
  · refine heap_bind_quietAt (KeepsAt.bind (ofExcept_quiet _ m) fun texts m' _ => ?_)
    exact ⟨rfl, rfl, .refl m'.heap⟩
  · refine heap_bind_quietAt ?_
    cases hy : Function.pure? m.heap f vs with
    | error e => exact Quiet.refl m
    | ok p => exact Quiet.setHeap (Function.pure?_grows p hy)

theorem applyFunction_quiet (name : String) (f : Function) (vs : List Value) :
    Keeps Quiet (applyFunction name f vs) := fun m => by
  refine KeepsAt.get_bind ?_
  have hq := apply_quiet f vs m
  rw [KeepsAt] at hq
  split
  · next v m' hf =>
    rw [hf] at hq
    exact set_quietAt hq (.pure _ m')
  · next e m' hf =>
    rw [hf] at hq
    refine set_quietAt hq ?_
    split <;> exact .throw _ m'
  · next stop m' _ hf =>
    rw [hf] at hq
    exact set_quietAt hq (.throw _ m')

/-! ## Sequences -/

variable {ι : Type}

/-- What is shown of families of runs through their sequences, for the scopes of a family that read
    the same names. -/
structure Sequential (s : Scope) (scope : ι → Scope) (P : ∀ {α : Type}, (ι → Run α) → Prop) :
    Prop where
  names : ∀ i, (scope i).names = s.names
  functions : ∀ i, (scope i).functions = s.functions
  tick : P fun i => Run.tick (scope i)
  quiet : ∀ {α : Type} {x : Run α}, Keeps Quiet x → P fun _ => x
  bind : ∀ {α β : Type} {x : ι → Run α} {f : ι → α → Run β},
    P x → (∀ a, P fun i => f i a) → P fun i => x i >>= f i

namespace Sequential

variable {s : Scope} {scope : ι → Scope} {P : ∀ {α : Type}, (ι → Run α) → Prop} {α β : Type}

theorem pure (hP : Sequential s scope P) (a : α) : P fun _ => (pure a : Run α) :=
  hP.quiet (.pure a)

theorem throw (hP : Sequential s scope P) (e : Stop) : P fun _ => (throw e : Run α) :=
  hP.quiet (.throw e)

theorem ite {c : Prop} [Decidable c] {x y : ι → Run α} (hx : P x) (hy : P y) :
    P fun i => if c then x i else y i := by
  by_cases h : c
  · simpa only [h, if_true] using hx
  · simpa only [h, if_false] using hy

/-- A step, and then something. -/
theorem after_tick (hP : Sequential s scope P) {x : ι → Run α} (hx : P x) :
    P fun i => Run.tick (scope i) >>= fun _ => x i :=
  hP.bind hP.tick fun _ => hx

/-- A look at the heap, and then something. -/
theorem after_heap (hP : Sequential s scope P) {f : Heap → ι → Run α} (hf : ∀ h, P (f h)) :
    P fun i => Run.heap >>= fun h => f h i :=
  hP.bind (hP.quiet heap_quiet) hf

end Sequential

/-! ## Expressions -/

section

variable {s : Scope} {scope : ι → Scope} {P : ∀ {α : Type}, (ι → Run α) → Prop}

mutual

/-- **What goes through sequences holds of every expression.** -/
theorem eval_of_sequential (hP : Sequential s scope P) :
    ∀ e : Expr, P fun i => e.eval (scope i)
  | .constant c => by
    simp only [Expr.eval]
    refine hP.after_tick ?_
    cases c.value? with
    | some v => exact hP.pure v
    | none => exact hP.throw _
  | .name id => by
    have hlook : ∀ i, Run.lookUp (scope i) id = Run.lookUp s id := fun i => by
      simp only [Run.lookUp, hP.names i]
    simp only [Expr.eval, hlook]
    exact hP.after_tick (hP.quiet (lookUp_quiet s id))
  | .binary op left right => by
    simp only [Expr.eval]
    exact hP.after_tick (hP.bind (eval_of_sequential hP left) fun v =>
      hP.bind (eval_of_sequential hP right) fun w => hP.quiet (applyBinary_quiet op v w))
  | .unary op operand => by
    simp only [Expr.eval]
    refine hP.after_tick ?_
    cases op with
    | invert => exact hP.throw _
    | plus | minus | not =>
      exact hP.bind (eval_of_sequential hP operand) fun v => hP.quiet (applyUnary_quiet _ v)
  | .both operands => by
    simp only [Expr.eval]
    exact hP.after_tick (evalBoth_of_sequential hP operands)
  | .either operands => by
    simp only [Expr.eval]
    exact hP.after_tick (evalEither_of_sequential hP operands)
  | .compare first rest => by
    simp only [Expr.eval]
    exact hP.after_tick (hP.bind (eval_of_sequential hP first) fun v =>
      evalComparisons_of_sequential hP v rest)
  | .conditional test body orelse => by
    simp only [Expr.eval]
    exact hP.after_tick (hP.bind (eval_of_sequential hP test) fun v => hP.after_heap fun h =>
      Sequential.ite (eval_of_sequential hP body) (eval_of_sequential hP orelse))
  | .list items => by
    simp only [Expr.eval]
    exact hP.after_tick (hP.bind (evalAll_of_sequential hP items) fun vs =>
      hP.quiet (newList_quiet vs))
  | .tuple items => by
    simp only [Expr.eval]
    exact hP.after_tick (hP.bind (evalAll_of_sequential hP items) fun vs => hP.pure _)
  | .mapping entries unpacks => by
    simp only [Expr.eval]
    exact hP.after_tick (Sequential.ite (hP.throw _) (hP.bind
      (evalEntries_of_sequential hP entries []) fun es => hP.quiet (newMapping_quiet es)))
  | .subscript container key => by
    simp only [Expr.eval]
    exact hP.after_tick (hP.bind (eval_of_sequential hP container) fun v => Sequential.ite
      (hP.bind (eval_of_sequential hP key) fun k => hP.quiet (applySubscript_quiet v k))
      (hP.throw _))
  | .slice start stop step => by
    simp only [Expr.eval]
    exact hP.after_tick (hP.bind (evalBound_of_sequential hP start) fun a =>
      hP.bind (evalBound_of_sequential hP stop) fun b =>
        hP.bind (evalBound_of_sequential hP step) fun c => hP.pure _)
  | .call function arguments keywords => by
    simp only [Expr.eval, hP.functions]
    refine hP.after_tick ?_
    split
    · split
      · exact hP.throw _
      · next f _ =>
        exact Sequential.ite (hP.throw _) (hP.bind (evalArguments_of_sequential hP arguments)
          fun vs => hP.quiet (applyFunction_quiet _ f vs))
    · exact hP.throw _
  | .member .. => by
    simp only [Expr.eval]
    exact hP.after_tick (hP.throw _)
  | .starred _ => by
    simp only [Expr.eval]
    exact hP.after_tick (hP.throw _)
  | .unsupported _ => by
    simp only [Expr.eval]
    exact hP.after_tick (hP.throw _)

theorem evalAll_of_sequential (hP : Sequential s scope P) :
    ∀ es : List Expr, P fun i => evalAll (scope i) es
  | [] => by
    simp only [evalAll]
    exact hP.pure _
  | e :: es => by
    simp only [evalAll]
    exact hP.bind (eval_of_sequential hP e) fun v =>
      hP.bind (evalAll_of_sequential hP es) fun vs => hP.pure _

theorem evalArguments_of_sequential (hP : Sequential s scope P) :
    ∀ es : List Expr, P fun i => evalArguments (scope i) es
  | [] => by
    simp only [evalArguments]
    exact hP.pure _
  | e :: es => by
    have hnext := hP.bind (eval_of_sequential hP e) fun v =>
      hP.bind (evalArguments_of_sequential hP es) fun vs => hP.pure (v :: vs)
    cases e with
    | starred _ =>
      simp only [evalArguments]
      exact hP.throw _
    | _ => simpa only [evalArguments] using hnext

theorem evalBound_of_sequential (hP : Sequential s scope P) :
    ∀ e : Option Expr, P fun i => evalBound (scope i) e
  | none => by
    simp only [evalBound]
    exact hP.pure _
  | some e => by
    simp only [evalBound]
    exact eval_of_sequential hP e

theorem evalEntries_of_sequential (hP : Sequential s scope P) :
    ∀ (es : List (Expr × Expr)) (before : Entries), P fun i => evalEntries (scope i) es before
  | [], _ => by
    simp only [evalEntries]
    exact hP.pure _
  | (k, e) :: es, before => by
    simp only [evalEntries]
    refine hP.bind (eval_of_sequential hP k) fun key => hP.bind (eval_of_sequential hP e) fun v => ?_
    cases key.unhashable? with
    | some t => exact hP.throw _
    | none => exact evalEntries_of_sequential hP es _

theorem evalBoth_of_sequential (hP : Sequential s scope P) :
    ∀ es : List Expr, P fun i => evalBoth (scope i) es
  | [] => by
    simp only [evalBoth]
    exact hP.pure _
  | [e] => by
    simp only [evalBoth]
    exact eval_of_sequential hP e
  | e :: e' :: es => by
    simp only [evalBoth]
    exact hP.bind (eval_of_sequential hP e) fun v => hP.after_heap fun h =>
      Sequential.ite (evalBoth_of_sequential hP (e' :: es)) (hP.pure v)

theorem evalEither_of_sequential (hP : Sequential s scope P) :
    ∀ es : List Expr, P fun i => evalEither (scope i) es
  | [] => by
    simp only [evalEither]
    exact hP.pure _
  | [e] => by
    simp only [evalEither]
    exact eval_of_sequential hP e
  | e :: e' :: es => by
    simp only [evalEither]
    exact hP.bind (eval_of_sequential hP e) fun v => hP.after_heap fun h =>
      Sequential.ite (hP.pure v) (evalEither_of_sequential hP (e' :: es))

theorem evalComparisons_of_sequential (hP : Sequential s scope P) (left : Value) :
    ∀ rest : List (CompareOp × Expr), P fun i => evalComparisons (scope i) left rest
  | [] => by
    simp only [evalComparisons]
    exact hP.pure _
  | (op, e) :: rest => by
    simp only [evalComparisons]
    refine hP.bind (eval_of_sequential hP e) fun right => hP.after_heap fun h =>
      hP.bind (hP.quiet (orElse_quiet _ _)) fun holds => ?_
    exact Sequential.ite (evalComparisons_of_sequential hP right rest) (hP.pure _)

end

end

/-! ## What is left -/

/-- No name is bound, and the objects are as they were. -/
structure Spares (m m' : Machine) : Prop where
  locals : m'.locals = m.locals
  heap : m.heap.Extends m'.heap

instance : IsPreorder Machine Spares where
  refl m := ⟨rfl, .refl m.heap⟩
  trans _ _ _ h h' := ⟨h'.locals.trans h.locals, h.heap.trans h'.heap⟩

theorem tick_spares (s : Scope) : Keeps Spares (Run.tick s) := fun m => by
  have hstep : Spares m { m with steps := m.steps + 1 } := ⟨rfl, .refl m.heap⟩
  rw [KeepsAt, tick_apply]
  split_ifs
  · exact hstep
  · split
    · split_ifs <;> exact hstep
    · exact hstep

theorem sequential_spares (s : Scope) :
    Sequential s (fun _ : Unit => s) fun x => Keeps Spares (x ()) where
  names _ := rfl
  functions _ := rfl
  tick := tick_spares s
  quiet hx m := ⟨(hx m).locals, (hx m).heap⟩
  bind := .bind

theorem eval_spares (s : Scope) (e : Expr) : Keeps Spares (e.eval s) :=
  eval_of_sequential (sequential_spares s) e

/-- An evaluation binds no name and changes no object. -/
theorem evaluate_spares (s : Scope) (source : Value) : Keeps Spares (evaluate s source) := by
  unfold evaluate
  split
  · exact eval_spares s _
  · exact .throw _

theorem guardHolds_extends (h : Heap) (s : Scope) (source : Value) :
    h.Extends (guardHolds h s source).2 := by
  have hspares := evaluate_spares s source { heap := h }
  rw [KeepsAt] at hspares
  unfold guardHolds
  split
  all_goals
    next he =>
    rw [he] at hspares
    exact hspares.heap

end Rulebook.Script
