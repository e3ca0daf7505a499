/-
  Expressions and scripts on mirrored heaps.

  The runs of an expression or a script under a scope, and under its image from a twin machine, go in
  step: each form takes a step in both, and its parts go in step.

  * `eval_inStep`: expressions, by induction on the syntax tree;
  * `assignTo_inStep`, `runLoop_inStep`: assignments and loops;
  * `exec_inStep`, `run_inStep`: statements and whole scripts;
  * `runInPlace_mirrors`: a script comes to the same data, error and lines on mirrored heaps.
-/
import Rulebook.Proofs.Mirror.Runs
import Rulebook.Script.Guard

namespace Rulebook.Script

open Heap (Mirrors)

variable {ρ : Ref → Ref} {base : Heap}

/-- Entries and their images. -/
def EntriesImage (ρ : Ref → Ref) (es es' : Entries) : Prop :=
  es' = es.rename ρ

theorem rename_of_value? {c : Constant} {v : Value} (h : c.value? = some v) : v.rename ρ = v := by
  cases c <;> cases h <;> rfl

theorem isSubscriptable_rename (v : Value) : isSubscriptable (v.rename ρ) = isSubscriptable v := by
  cases v <;> rfl

/-! ## Expressions -/

mutual

/-- **Expressions go in step.** -/
theorem eval_inStep (hρ : Function.Injective ρ) (s : Scope) :
    ∀ e : Expr, InStep ρ base (Image ρ) (e.eval s) (e.eval (s.rename ρ))
  | .constant c => by
    simp only [Expr.eval]
    refine (tick_inStep s).bindSame fun _ => ?_
    cases hc : c.value? with
    | none => exact .refuse _
    | some v => exact .pure (rename_of_value? hc).symm
  | .name id => by
    simp only [Expr.eval]
    exact (tick_inStep s).bindSame fun _ => lookUp_inStep s id
  | .binary op left right => by
    simp only [Expr.eval]
    refine (tick_inStep s).bindSame fun _ => (eval_inStep hρ s left).bindImage fun v => ?_
    exact (eval_inStep hρ s right).bindImage fun w => applyBinary_inStep hρ op v w
  | .unary op operand => by
    simp only [Expr.eval]
    refine (tick_inStep s).bindSame fun _ => ?_
    cases op
    case invert => exact .refuse _
    all_goals exact (eval_inStep hρ s operand).bindImage fun v => applyUnary_inStep _ v
  | .both operands => by
    simp only [Expr.eval]
    exact (tick_inStep s).bindSame fun _ => evalBoth_inStep hρ s operands
  | .either operands => by
    simp only [Expr.eval]
    exact (tick_inStep s).bindSame fun _ => evalEither_inStep hρ s operands
  | .compare first rest => by
    simp only [Expr.eval]
    refine (tick_inStep s).bindSame fun _ => (eval_inStep hρ s first).bindImage fun v => ?_
    exact evalComparisons_inStep hρ s v rest
  | .conditional test body orelse => by
    simp only [Expr.eval]
    refine (tick_inStep s).bindSame fun _ => (eval_inStep hρ s test).bindImage fun v => ?_
    refine .heap fun h h' m => ?_
    rw [m.truth v]
    exact .ite (eval_inStep hρ s body) (eval_inStep hρ s orelse)
  | .list items => by
    simp only [Expr.eval]
    refine (tick_inStep s).bindSame fun _ => (evalAll_inStep hρ s items).bind fun vs _ hvs => ?_
    exact hvs ▸ newList_inStep hρ vs
  | .tuple items => by
    simp only [Expr.eval]
    refine (tick_inStep s).bindSame fun _ => (evalAll_inStep hρ s items).bind fun vs vs' hvs => ?_
    refine .pure (congrArg Value.tuple ?_)
    rw [hvs, Value.renameAll_eq]
  | .mapping entries unpacks => by
    simp only [Expr.eval]
    refine (tick_inStep s).bindSame fun _ => .ite (.refuse _) ?_
    refine (evalEntries_inStep hρ s entries []).bind fun es _ hes => ?_
    exact hes ▸ newMapping_inStep hρ es
  | .subscript container key => by
    simp only [Expr.eval]
    refine (tick_inStep s).bindSame fun _ => (eval_inStep hρ s container).bindImage fun v => ?_
    rw [isSubscriptable_rename]
    refine .ite ?_ (.refuse _)
    exact (eval_inStep hρ s key).bindImage fun k => applySubscript_inStep hρ v k
  | .slice start stop step => by
    simp only [Expr.eval]
    refine (tick_inStep s).bindSame fun _ => (evalBound_inStep hρ s start).bindImage fun a => ?_
    refine (evalBound_inStep hρ s stop).bindImage fun b => ?_
    exact (evalBound_inStep hρ s step).bindImage fun c => .pure rfl
  | .call function arguments keywords => by
    simp only [Expr.eval]
    refine (tick_inStep s).bindSame fun _ => ?_
    cases function
    case name id =>
      dsimp only [Scope.rename]
      cases Function.ofName? s.functions id with
      | none => exact .refuse _
      | some f =>
        refine .ite (.refuse _) ?_
        refine (evalArguments_inStep hρ s arguments).bind fun vs _ hvs => ?_
        exact hvs ▸ applyFunction_inStep hρ id f vs
    all_goals exact .refuse _
  | .member .. => by
    simp only [Expr.eval]
    exact (tick_inStep s).bindSame fun _ => .refuse _
  | .starred _ => by
    simp only [Expr.eval]
    exact (tick_inStep s).bindSame fun _ => .refuse _
  | .unsupported _ => by
    simp only [Expr.eval]
    exact (tick_inStep s).bindSame fun _ => .refuse _

theorem evalAll_inStep (hρ : Function.Injective ρ) (s : Scope) :
    ∀ es : List Expr, InStep ρ base (Images ρ) (evalAll s es) (evalAll (s.rename ρ) es)
  | [] => by
    simp only [evalAll]
    exact .pure rfl
  | e :: es => by
    simp only [evalAll]
    refine (eval_inStep hρ s e).bindImage fun v => ?_
    exact (evalAll_inStep hρ s es).bind fun vs _ hvs => .pure (hvs.cons v)

theorem evalArguments_inStep (hρ : Function.Injective ρ) (s : Scope) :
    ∀ es : List Expr,
      InStep ρ base (Images ρ) (evalArguments s es) (evalArguments (s.rename ρ) es)
  | [] => by
    simp only [evalArguments]
    exact .pure rfl
  | e :: es => by
    have hrest : InStep ρ base (Images ρ)
        (do
          let v ← e.eval s
          let vs ← evalArguments s es
          return v :: vs)
        (do
          let v ← e.eval (s.rename ρ)
          let vs ← evalArguments (s.rename ρ) es
          return v :: vs) := by
      refine (eval_inStep hρ s e).bindImage fun v => ?_
      exact (evalArguments_inStep hρ s es).bind fun vs _ hvs => .pure (hvs.cons v)
    cases e
    case starred e =>
      simp only [evalArguments]
      exact .refuse _
    all_goals
      simp only [evalArguments]
      exact hrest

theorem evalBound_inStep (hρ : Function.Injective ρ) (s : Scope) :
    ∀ e : Option Expr, InStep ρ base (Image ρ) (evalBound s e) (evalBound (s.rename ρ) e)
  | none => by
    simp only [evalBound]
    exact .pure rfl
  | some e => by
    simp only [evalBound]
    exact eval_inStep hρ s e

theorem evalEntries_inStep (hρ : Function.Injective ρ) (s : Scope) :
    ∀ (es : List (Expr × Expr)) (before : Entries),
      InStep ρ base (EntriesImage ρ) (evalEntries s es before)
        (evalEntries (s.rename ρ) es (before.rename ρ))
  | [], before => by
    simp only [evalEntries]
    exact .pure rfl
  | (k, e) :: es, before => by
    simp only [evalEntries]
    refine (eval_inStep hρ s k).bindImage fun key => (eval_inStep hρ s e).bindImage fun v => ?_
    rw [Value.unhashable?_rename, Entries.insert_rename]
    cases key.unhashable? with
    | some t => exact .throw (.fault (.unhashable t))
    | none => exact evalEntries_inStep hρ s es (before.insert key v)

theorem evalBoth_inStep (hρ : Function.Injective ρ) (s : Scope) :
    ∀ es : List Expr, InStep ρ base (Image ρ) (evalBoth s es) (evalBoth (s.rename ρ) es)
  | [] => by
    simp only [evalBoth]
    exact .pure rfl
  | [e] => by
    simp only [evalBoth]
    exact eval_inStep hρ s e
  | e :: e' :: es => by
    simp only [evalBoth]
    refine (eval_inStep hρ s e).bindImage fun v => .heap fun h h' m => ?_
    rw [m.truth v]
    exact .ite (evalBoth_inStep hρ s (e' :: es)) (.pure rfl)

theorem evalEither_inStep (hρ : Function.Injective ρ) (s : Scope) :
    ∀ es : List Expr, InStep ρ base (Image ρ) (evalEither s es) (evalEither (s.rename ρ) es)
  | [] => by
    simp only [evalEither]
    exact .pure rfl
  | [e] => by
    simp only [evalEither]
    exact eval_inStep hρ s e
  | e :: e' :: es => by
    simp only [evalEither]
    refine (eval_inStep hρ s e).bindImage fun v => .heap fun h h' m => ?_
    rw [m.truth v]
    exact .ite (.pure rfl) (evalEither_inStep hρ s (e' :: es))

theorem evalComparisons_inStep (hρ : Function.Injective ρ) (s : Scope) (left : Value) :
    ∀ rest : List (CompareOp × Expr),
      InStep ρ base (Image ρ) (evalComparisons s left rest)
        (evalComparisons (s.rename ρ) (left.rename ρ) rest)
  | [] => by
    simp only [evalComparisons]
    exact .pure rfl
  | (op, e) :: rest => by
    simp only [evalComparisons]
    refine (eval_inStep hρ s e).bindImage fun right => .heap fun h h' m => ?_
    rw [Operator.compare_rename hρ m]
    refine (InStep.orElse (.refl _) fun f => ?_).bindSame fun holds => ?_
    · split <;> rfl
    · exact .ite (evalComparisons_inStep hρ s right rest) (.pure rfl)

end

/-! ## Assignments and loops -/

section

variable (hρ : Function.Injective ρ) (s : Scope)

include hρ

theorem assignTo_inStep (target : Expr) (v : Value) :
    InStep ρ base Eq (assignTo s target v) (assignTo (s.rename ρ) target (v.rename ρ)) := by
  unfold assignTo
  cases target
  case name id => exact bind_inStep id v
  case subscript container key =>
    refine (eval_inStep hρ s container).bindImage fun c => ?_
    have hassign : InStep ρ base Eq
        (do
          let k ← key.eval s
          let h ← Run.ofExcept (Operator.assign (← Run.heap) c k v)
          modify fun m => { m with heap := h })
        (do
          let k ← key.eval (s.rename ρ)
          let h ← Run.ofExcept (Operator.assign (← Run.heap) (c.rename ρ) k (v.rename ρ))
          modify fun m => { m with heap := h }) := by
      refine (eval_inStep hρ s key).bindImage fun k => .heap fun h h' m => ?_
      refine (InStep.ofExcept (Operator.assign_alike hρ m c k v)).bind fun g g' m => ?_
      exact fun _ _ t => .ok rfl ⟨m, t.locals, t.steps, t.log⟩
    cases c
    case list r => exact hassign
    case mapping r => exact hassign
    all_goals exact .refuse _
  all_goals exact .refuse _

theorem assignAll_inStep (targets : List Expr) (v : Value) :
    InStep ρ base Eq (assignAll s targets v) (assignAll (s.rename ρ) targets (v.rename ρ)) := by
  induction targets with
  | nil => exact .pure rfl
  | cons t ts ih => exact (assignTo_inStep hρ s t v).bindSame fun _ => ih

end

/-- How the body of a loop went, with other references. -/
def Pass.rename (ρ : Ref → Ref) : Pass → Pass
  | .done v => .done (v.rename ρ)
  | .left => .left
  | .skipped => .skipped

theorem pass_inStep {body body' : Run Value} (hbody : InStep ρ base (Image ρ) body body') :
    InStep ρ base (fun p p' => p' = p.rename ρ) (Run.pass body) (Run.pass body') := by
  intro m m' t
  have hparallel := hbody m m' t
  unfold Run.pass
  generalize body m = r at hparallel
  generalize body' m' = r' at hparallel
  cases hparallel with
  | ok hv t => exact .ok (congrArg Pass.done hv) t
  | @error stop m m' t =>
    cases stop
    case leaveLoop => exact .ok rfl t
    case nextItem => exact .ok rfl t
    all_goals exact .error t

theorem runLoop_inStep {body body' : Run Value} (hbody : InStep ρ base (Image ρ) body body')
    (name : String) (vs : List Value) (last : Value) :
    InStep ρ base (fun p p' => p' = (p.1.rename ρ, p.2)) (runLoop name body vs last)
      (runLoop name body' (vs.map (Value.rename ρ)) (last.rename ρ)) := by
  induction vs generalizing last with
  | nil => exact .pure rfl
  | cons v vs ih =>
    rw [List.map_cons, runLoop, runLoop]
    refine (bind_inStep name v).bindSame fun _ => (pass_inStep hbody).bind fun p _ hp => ?_
    subst hp
    cases p with
    | done w => exact ih w
    | left => exact .pure rfl
    | skipped => exact ih last

/-! ## Statements -/

mutual

/-- **Statements go in step.** -/
theorem exec_inStep (hρ : Function.Injective ρ) (s : Scope) :
    ∀ c : Stmt, InStep ρ base (Image ρ) (c.exec s) (c.exec (s.rename ρ))
  | .expr e => by
    simp only [Stmt.exec]
    exact (tick_inStep s).bindSame fun _ => eval_inStep hρ s e
  | .assign targets value => by
    simp only [Stmt.exec]
    refine (tick_inStep s).bindSame fun _ => (eval_inStep hρ s value).bindImage fun v => ?_
    exact (assignAll_inStep hρ s targets v).bindSame fun _ => .pure rfl
  | .update target op value => by
    simp only [Stmt.exec]
    refine (tick_inStep s).bindSame fun _ => ?_
    cases target
    case name id =>
      refine (eval_inStep hρ s (.name id)).bindImage fun v => ?_
      refine (eval_inStep hρ s value).bindImage fun w => ?_
      refine (applyBinary_inStep hρ op v w).bindImage fun u => ?_
      exact (bind_inStep id u).bindSame fun _ => .pure rfl
    all_goals exact .refuse _
  | .branch test body orelse => by
    simp only [Stmt.exec]
    refine (tick_inStep s).bindSame fun _ => (eval_inStep hρ s test).bindImage fun v => ?_
    refine .heap fun h h' m => ?_
    rw [m.truth v]
    exact .ite (execBlock_inStep hρ s body .null) (execBlock_inStep hρ s orelse .null)
  | .forEach target items body orelse => by
    simp only [Stmt.exec]
    refine (tick_inStep s).bindSame fun _ => ?_
    cases target
    case name id =>
      refine (eval_inStep hρ s items).bindImage fun v => .heap fun h h' m => ?_
      rw [Operator.items?_rename m]
      cases Operator.items? h v with
      | none => exact .refuse _
      | some vs =>
        have hbody := execBlock_inStep hρ s body .null
        have horelse := execBlock_inStep hρ s orelse .null
        refine (runLoop_inStep hbody id vs .null).bind ?_
        rintro ⟨last, left⟩ _ rfl
        cases left
        · cases orelse with
          | nil => exact .pure rfl
          | cons c cs => exact horelse
        · exact .pure rfl
    all_goals exact .refuse _
  | .ret none => by
    simp only [Stmt.exec]
    exact (tick_inStep s).bindSame fun _ => .throw (.finish .null)
  | .ret (some e) => by
    simp only [Stmt.exec]
    refine (tick_inStep s).bindSame fun _ => (eval_inStep hρ s e).bindImage fun v => ?_
    exact .throw (.finish v)
  | .breakLoop => by
    simp only [Stmt.exec]
    exact (tick_inStep s).bindSame fun _ => .throw .leaveLoop
  | .continueLoop => by
    simp only [Stmt.exec]
    exact (tick_inStep s).bindSame fun _ => .throw .nextItem
  | .pass => by
    simp only [Stmt.exec]
    exact (tick_inStep s).bindSame fun _ => .pure rfl
  | .unsupported kind => by
    simp only [Stmt.exec]
    exact (tick_inStep s).bindSame fun _ => .refuse _

theorem execBlock_inStep (hρ : Function.Injective ρ) (s : Scope) :
    ∀ (cs : List Stmt) (last : Value),
      InStep ρ base (Image ρ) (execBlock s cs last) (execBlock (s.rename ρ) cs (last.rename ρ))
  | [], last => by
    simp only [execBlock]
    exact .pure rfl
  | c :: cs, last => by
    simp only [execBlock]
    exact (exec_inStep hρ s c).bindImage fun v => execBlock_inStep hρ s cs v

end

/-! ## Whole texts -/

section

variable (hρ : Function.Injective ρ) (s : Scope)

include hρ

theorem runStatements_inStep (cs : List Stmt) :
    InStep ρ base (Image ρ) (runStatements s cs) (runStatements (s.rename ρ) cs) := by
  intro m m' t
  have hparallel : Parallel ρ base (Image ρ) (execBlock s cs .null m)
      (execBlock (s.rename ρ) cs .null m') :=
    execBlock_inStep hρ s cs .null m m' t
  unfold runStatements
  generalize execBlock s cs .null m = r at hparallel
  generalize execBlock (s.rename ρ) cs .null m' = r' at hparallel
  cases hparallel with
  | @ok v v' m m' hv t =>
    refine .ok ?_ t
    rw [t.locals, lookup_renameLocals, hv]
    cases m.locals.lookup "result" <;> rfl
  | @error stop m m' t =>
    cases stop
    case finish v => exact .ok rfl t
    all_goals exact .error t

/-- **Scripts go in step.** -/
theorem run_inStep (source : Value) :
    InStep ρ base (Image ρ) (run s source) (run (s.rename ρ) source) := by
  unfold run
  rw [show (s.rename ρ).charNames = s.charNames from rfl]
  split
  · exact runStatements_inStep hρ s _
  · exact .refuse _

omit hρ in
/-- A whole script does not end with a value that is returned from it. -/
theorem rename_of_run {source : Value} {m m' : Machine} {stop : Stop}
    (h : run s source m = .error stop m') : stop.rename ρ = stop := by
  unfold run at h
  generalize parseScript s.charNames source = p at h
  rcases p with e | cs
  · cases h
    rfl
  · change runStatements s cs m = .error stop m' at h
    unfold runStatements at h
    generalize execBlock s cs .null m = r at h
    rcases r with ⟨v, m⟩ | ⟨stop, m⟩
    · cases h
    · cases stop <;> cases h <;> rfl

/-- **A script comes to the same on mirrored heaps**: to the same data or error, with the same lines
    logged; and the heaps mirror each other after it. -/
theorem runInPlace_mirrors {h h' : Heap} (m : Mirrors ρ base h h') (source : Value) :
    (runInPlace h' (s.rename ρ) source).result = (runInPlace h s source).result ∧
      (runInPlace h' (s.rename ρ) source).log = (runInPlace h s source).log ∧
      Mirrors ρ base (runInPlace h s source).heap (runInPlace h' (s.rename ρ) source).heap := by
  have hparallel := run_inStep hρ s source { heap := h } { heap := h' } ⟨m, rfl, rfl, rfl⟩
  have hrename {stop : Stop} {m : Machine} (hstop : run s source { heap := h } = .error stop m) :
      stop.rename ρ = stop :=
    rename_of_run s hstop
  unfold runInPlace
  generalize run s source { heap := h } = r at hparallel hrename
  generalize run (s.rename ρ) source { heap := h' } = r' at hparallel
  cases hparallel with
  | ok hv t => exact ⟨congrArg Except.ok (hv ▸ t.heap.plain hρ _), t.log, t.heap⟩
  | error t => exact ⟨congrArg Except.error (hrename rfl), t.log, t.heap⟩

end

end Rulebook.Script
