/-
  Runs on mirrored heaps.

  Two machines are twins if the heap of one mirrors that of the other, their local names have a
  value and its image, and they have taken the same steps and logged the same lines.  Two runs go in
  step if from twins they come to twins, with related results or with the same stop.

  * `InStep.pure`, `InStep.throw`, `InStep.bind`, `InStep.heap`: sequences;
  * `tick_inStep`, `lookUp_inStep`, `keeping_inStep`: the operations of machines;
  * `applyBinary_inStep`, …, `applyFunction_inStep`: the operations of expressions.
-/
import Rulebook.Proofs.Mirror.Functions
import Rulebook.Proofs.Script.Traversal

namespace Rulebook.Script

open Heap (Mirrors)
open Heap.Mirrors (Both)

/-! ## Twins -/

/-- Local names with other references. -/
def renameLocals (ρ : Ref → Ref) (locals : List (String × Value)) : List (String × Value) :=
  locals.map fun e => (e.1, e.2.rename ρ)

/-- A scope with other references. -/
def Scope.rename (ρ : Ref → Ref) (s : Scope) : Scope :=
  { s with names := s.names.rename ρ }

/-- A stop with other references. -/
def Stop.rename (ρ : Ref → Ref) : Stop → Stop
  | .finish v => .finish (v.rename ρ)
  | stop => stop

/-- A machine and one on a heap that mirrors its own. -/
structure Twins (ρ : Ref → Ref) (base : Heap) (m m' : Machine) : Prop where
  heap : Mirrors ρ base m.heap m'.heap
  locals : m'.locals = renameLocals ρ m.locals
  steps : m'.steps = m.steps
  log : m'.log = m.log

variable {ρ : Ref → Ref} {base : Heap} {α β γ δ : Type}

theorem lookup_renameLocals (locals : List (String × Value)) (name : String) :
    (renameLocals ρ locals).lookup name = (locals.lookup name).map (Value.rename ρ) := by
  induction locals with
  | nil => rfl
  | cons e locals ih =>
    obtain ⟨k, v⟩ := e
    simp only [renameLocals, List.map_cons, List.lookup_cons] at ih ⊢
    cases name == k
    · exact ih
    · rfl

theorem setLocal_rename (locals : List (String × Value)) (name : String) (v : Value) :
    setLocal (renameLocals ρ locals) name (v.rename ρ) =
      renameLocals ρ (setLocal locals name v) := by
  have hany : ((renameLocals ρ locals).any fun e => e.1 == name) =
      locals.any fun e => e.1 == name := by
    simp only [renameLocals, List.any_map, Function.comp_def]
  unfold setLocal
  rw [hany]
  split
  · simp only [renameLocals, List.map_map]
    refine List.map_congr_left fun e _ => ?_
    simp only [Function.comp_apply]
    split <;> rfl
  · simp only [renameLocals, List.map_append, List.map_cons, List.map_nil]

/-! ## Runs in step -/

/-- Two ends with twins: related results, or a stop and its image. -/
inductive Parallel (ρ : Ref → Ref) (base : Heap) (R : α → β → Prop) :
    EStateM.Result Stop Machine α → EStateM.Result Stop Machine β → Prop
  | ok {a : α} {b : β} {m m' : Machine} (h : R a b) (t : Twins ρ base m m') :
    Parallel ρ base R (.ok a m) (.ok b m')
  | error {stop : Stop} {m m' : Machine} (t : Twins ρ base m m') :
    Parallel ρ base R (.error stop m) (.error (stop.rename ρ) m')

/-- Two runs take twins to twins. -/
def InStep (ρ : Ref → Ref) (base : Heap) (R : α → β → Prop) (x : Run α) (x' : Run β) : Prop :=
  ∀ m m', Twins ρ base m m' → Parallel ρ base R (x m) (x' m')

/-- A value and its image. -/
def Image (ρ : Ref → Ref) (v v' : Value) : Prop :=
  v' = v.rename ρ

/-- Several values and their images. -/
def Images (ρ : Ref → Ref) (vs vs' : List Value) : Prop :=
  vs' = vs.map (Value.rename ρ)

theorem Images.cons {vs vs' : List Value} (h : Images ρ vs vs') (v : Value) :
    Images ρ (v :: vs) (v.rename ρ :: vs') :=
  congrArg (v.rename ρ :: ·) h

namespace InStep

variable {R : α → β → Prop} {S : γ → δ → Prop} {x : Run α} {x' : Run β} {f : α → Run γ}
  {f' : β → Run δ}

theorem pure {a : α} {b : β} (h : R a b) : InStep ρ base R (pure a) (pure b) :=
  fun _ _ t => .ok h t

theorem throw (stop : Stop) :
    InStep ρ base R (throw stop : Run α) (throw (stop.rename ρ) : Run β) :=
  fun _ _ t => .error t

theorem refuse (e : Error) : InStep ρ base R (Run.refuse e) (Run.refuse e) :=
  throw (.error e)

theorem bind (hx : InStep ρ base R x x') (hf : ∀ a b, R a b → InStep ρ base S (f a) (f' b)) :
    InStep ρ base S (x >>= f) (x' >>= f') := by
  intro m m' t
  have hparallel := hx m m' t
  rw [bind_apply, bind_apply]
  generalize x m = r at hparallel
  generalize x' m' = r' at hparallel
  cases hparallel with
  | ok h t => exact hf _ _ h _ _ t
  | error t => exact .error t

/-- A value is gone on with, and its image. -/
theorem bindImage {x x' : Run Value} {f : Value → Run γ} {f' : Value → Run δ}
    (hx : InStep ρ base (Image ρ) x x') (hf : ∀ v, InStep ρ base S (f v) (f' (v.rename ρ))) :
    InStep ρ base S (x >>= f) (x' >>= f') :=
  hx.bind fun v _ hv => hv ▸ hf v

/-- Something that does not refer to objects is gone on with. -/
theorem bindSame {x x' : Run α} {f : α → Run γ} {f' : α → Run δ} (hx : InStep ρ base Eq x x')
    (hf : ∀ a, InStep ρ base S (f a) (f' a)) : InStep ρ base S (x >>= f) (x' >>= f') :=
  hx.bind fun a _ ha => ha ▸ hf a

theorem state {f : Machine → Run γ} {f' : Machine → Run δ}
    (hf : ∀ m m', Twins ρ base m m' → InStep ρ base S (f m) (f' m')) :
    InStep ρ base S (get >>= f) (get >>= f') :=
  fun m m' t => hf m m' t m m' t

theorem heap {f : Heap → Run γ} {f' : Heap → Run δ}
    (hf : ∀ h h', Mirrors ρ base h h' → InStep ρ base S (f h) (f' h')) :
    InStep ρ base S (Run.heap >>= f) (Run.heap >>= f') :=
  fun m m' t => hf m.heap m'.heap t.heap m m' t

theorem ite {c : Prop} [Decidable c] {y : Run α} {y' : Run β} (hx : InStep ρ base R x x')
    (hy : InStep ρ base R y y') :
    InStep ρ base R (if c then x else y) (if c then x' else y') := by
  split
  · exact hx
  · exact hy

theorem orElse {r : Except Fault α} {r' : Except Fault β} {stop : Fault → Stop}
    (hr : Alike R r r') (hstop : ∀ f, (stop f).rename ρ = stop f) :
    InStep ρ base R (Run.orElse stop r) (Run.orElse stop r') := by
  rcases r with e | a
  · rcases r' with e' | b
    · have hthrow (m m' : Machine) (t : Twins ρ base m m') :
          Parallel ρ base R (.error (stop e) m) (.error ((stop e).rename ρ) m') :=
        .error t
      rw [hstop e] at hthrow
      exact (hr : e = e') ▸ hthrow
    · exact hr.elim
  · rcases r' with e' | b
    · exact hr.elim
    · exact pure hr

theorem ofExcept {r : Except Fault α} {r' : Except Fault β} (hr : Alike R r r') :
    InStep ρ base R (Run.ofExcept r) (Run.ofExcept r') := by
  have hfault : InStep ρ base R (Run.orElse .fault r) (Run.orElse .fault r') :=
    orElse hr fun _ => rfl
  rcases r with e | a <;> rcases r' with e' | b <;> exact hfault

end InStep
/-! ## Operations of machines -/

theorem tick_inStep (s : Scope) :
    InStep ρ base Eq (Run.tick s) (Run.tick (s.rename ρ)) := by
  intro m m' t
  have hstep : Twins ρ base { m with steps := m.steps + 1 } { m' with steps := m'.steps + 1 } :=
    ⟨t.heap, t.locals, congrArg (· + 1) t.steps, t.log⟩
  rw [t.steps] at hstep
  rw [show Run.tick (s.rename ρ) = Run.tick s from rfl, tick_apply, tick_apply, t.steps]
  by_cases hbudget : s.budget < (m.steps + 1 : Nat)
  · rw [if_pos hbudget, if_pos hbudget]
    exact .error hstep
  · rw [if_neg hbudget, if_neg hbudget]
    cases s.deadline with
    | none => exact .ok rfl hstep
    | some past =>
      by_cases hpast : (m.steps + 1) % deadlineInterval = 0 ∧ past ≤ m.steps + 1
      · simp only [if_pos hpast]
        exact .error hstep
      · simp only [if_neg hpast]
        exact .ok rfl hstep

theorem lookUp_inStep (s : Scope) (name : String) :
    InStep ρ base (Image ρ) (Run.lookUp s name) (Run.lookUp (s.rename ρ) name) := by
  refine .state fun m m' t => ?_
  rw [t.locals, lookup_renameLocals]
  cases m.locals.lookup name with
  | some v => exact .pure rfl
  | none =>
    dsimp only [Option.map_none, Scope.rename]
    rw [Entries.field?_rename]
    cases s.names.field? name with
    | some v => exact .pure rfl
    | none => exact .refuse _

theorem bind_inStep (name : String) (v : Value) :
    InStep ρ base Eq (Run.bind name v) (Run.bind name (v.rename ρ)) := by
  intro m m' t
  have hlocals := setLocal_rename (ρ := ρ) m.locals name v
  rw [← t.locals] at hlocals
  exact .ok rfl ⟨t.heap, hlocals, t.steps, t.log⟩

theorem keeping_inStep {p p' : Value × Heap} (h : Both ρ base p p') :
    InStep ρ base (Image ρ) (Run.keeping p) (Run.keeping p') :=
  fun _ _ t => .ok h.1 ⟨h.2, t.locals, t.steps, t.log⟩

/-- The value of a yield is taken with its heap, or the run stops. -/
theorem yield_inStep {y y' : Yield} {stop : Fault → Stop} (hy : Alike (Both ρ base) y y')
    (hstop : ∀ f, (stop f).rename ρ = stop f) :
    InStep ρ base (Image ρ) (Run.orElse stop y >>= Run.keeping)
      (Run.orElse stop y' >>= Run.keeping) :=
  (InStep.orElse hy hstop).bind fun _ _ hp => keeping_inStep hp

theorem check_inStep (r : Except Error Unit) :
    InStep ρ base Eq (Run.check r) (Run.check r) := by
  cases r with
  | error e => exact .refuse e
  | ok a => exact .pure rfl

/-! ## Operations of expressions -/

section

variable (hρ : Function.Injective ρ)

include hρ

theorem newList_inStep (vs : List Value) :
    InStep ρ base (Image ρ) (do Run.keeping ((← Run.heap).newList vs))
      (do Run.keeping ((← Run.heap).newList (vs.map (Value.rename ρ)))) :=
  .heap fun _ _ m => keeping_inStep (m.newList hρ vs)

theorem newMapping_inStep (es : Entries) :
    InStep ρ base (Image ρ) (do Run.keeping ((← Run.heap).newMapping es))
      (do Run.keeping ((← Run.heap).newMapping (es.rename ρ))) :=
  .heap fun _ _ m => keeping_inStep (m.newMapping hρ es)

omit hρ in
theorem sequenceLength?_rename {h h' : Heap} (m : Mirrors ρ base h h') (v : Value) :
    sequenceLength? h' (v.rename ρ) = sequenceLength? h v := by
  cases v
  case tuple vs => simp only [Value.rename, Value.renameAll_eq, sequenceLength?, List.length_map]
  case list r => simp only [Value.rename, sequenceLength?, m.items r, List.length_map]
  all_goals rfl

omit hρ in
theorem checkOperands_rename {h h' : Heap} (m : Mirrors ρ base h h') (op : BinaryOp)
    (v w : Value) :
    checkOperands h' op (v.rename ρ) (w.rename ρ) = checkOperands h op v w := by
  unfold checkOperands checkPower checkProduct checkRepetition
  simp only [Value.number?_rename, sequenceLength?_rename m]

omit hρ in
theorem checkResult_rename {h h' : Heap} (m : Mirrors ρ base h h') (v : Value) :
    checkResult h' (v.rename ρ) = checkResult h v := by
  unfold checkResult
  rw [sequenceLength?_rename m]
  cases v <;> rfl

omit hρ in
theorem operatorStop_rename (f : Fault) : (operatorStop f).rename ρ = operatorStop f := by
  unfold operatorStop
  split <;> rfl

theorem applyBinary_inStep (op : BinaryOp) (v w : Value) :
    InStep ρ base (Image ρ) (applyBinary op v w)
      (applyBinary op (v.rename ρ) (w.rename ρ)) := by
  refine .heap fun h h' m => ?_
  rw [checkOperands_rename m]
  refine (check_inStep _).bindSame fun _ => .heap fun h h' m => ?_
  refine (InStep.orElse (Operator.binary_alike hρ m op v w) operatorStop_rename).bind ?_
  intro p p' hp
  refine (keeping_inStep hp).bindImage fun r => .heap fun h h' m => ?_
  rw [checkResult_rename m]
  exact (check_inStep _).bindSame fun _ => .pure rfl

omit hρ in
theorem applyUnary_inStep (op : UnaryOp) (v : Value) :
    InStep ρ base (Image ρ) (applyUnary op v) (applyUnary op (v.rename ρ)) := by
  unfold applyUnary
  cases op
  case not =>
    refine .heap fun h h' m => .pure ?_
    rw [m.truth v]
    rfl
  all_goals
    refine .ofExcept (.of_eq_map (Operator.signed_rename _ v) fun _ => rfl)

theorem applySubscript_inStep (v key : Value) :
    InStep ρ base (Image ρ) (applySubscript v key)
      (applySubscript (v.rename ρ) (key.rename ρ)) := by
  refine .heap fun h h' m => ?_
  have hsubscript := Operator.subscript?_alike hρ m v key
  generalize Operator.subscript? h v key = y at hsubscript
  generalize Operator.subscript? h' (v.rename ρ) (key.rename ρ) = y' at hsubscript
  cases hsubscript with
  | none => exact .refuse _
  | some hy =>
    refine yield_inStep hy fun f => ?_
    split <;> rfl

omit hρ in
theorem rangeItems_inStep (start stop step : Int) :
    InStep ρ base (Images ρ) (Function.rangeItems start stop step)
      (Function.rangeItems start stop step) := by
  unfold Function.rangeItems
  split
  · exact .throw (.fault .rangeStepZero)
  · dsimp only
    split
    · exact .throw (.fault _)
    · split
      · exact .refuse _
      · refine .pure ?_
        simp only [Images, List.map_map]
        rfl

theorem rangeCall_inStep (vs : List Value) :
    InStep ρ base (Image ρ) (Function.rangeCall vs)
      (Function.rangeCall (vs.map (Value.rename ρ))) := by
  refine .heap fun h h' m => ?_
  have hplain (v : Value) : h'.plain (v.rename ρ) = h.plain v := m.plain hρ v
  have hbounds {r r' : Except Fault (Int × Int × Int)} (hr : r' = r) :
      InStep ρ base Eq (Run.ofExcept r) (Run.ofExcept r') := by
    subst hr
    exact .ofExcept (.refl r')
  refine (hbounds ?_).bindSame fun bounds => ?_
  · rcases vs with - | ⟨a, - | ⟨b, - | ⟨c, - | ⟨d, vs⟩⟩⟩⟩
    · rfl
    · simp only [List.map_cons, List.map_nil, hplain]
    · simp only [List.map_cons, List.map_nil, hplain]
    · simp only [List.map_cons, List.map_nil, hplain]
    · simp only [List.map_cons, List.length_cons, List.length_map]
  · refine (rangeItems_inStep _ _ _).bind fun items _ hitems => ?_
    exact hitems ▸ newList_inStep hρ items

theorem logCall_inStep (vs : List Value) :
    InStep ρ base (Image ρ) (Function.logCall vs)
      (Function.logCall (vs.map (Value.rename ρ))) := by
  refine .heap fun h h' m => ?_
  have htexts : (vs.map (Value.rename ρ)).mapM h'.asText = vs.mapM h.asText := by
    induction vs with
    | nil => rfl
    | cons v vs ih => rw [List.map_cons, List.mapM_cons, List.mapM_cons, m.asText hρ, ih]
  rw [htexts]
  refine (InStep.ofExcept (.refl _)).bindSame fun texts => ?_
  exact fun m m' t => .ok rfl ⟨t.heap, t.locals, t.steps, congrArg (· ++ _) t.log⟩

theorem apply_inStep (f : Function) (vs : List Value) :
    InStep ρ base (Image ρ) (f.apply vs) (f.apply (vs.map (Value.rename ρ))) := by
  unfold Function.apply
  cases f
  case range => exact rangeCall_inStep hρ vs
  case log => exact logCall_inStep hρ vs
  all_goals
    refine .heap fun h h' m => ?_
    exact (InStep.ofExcept (Function.pure?_alike m hρ _ vs)).bind fun _ _ hp => keeping_inStep hp

theorem applyFunction_inStep (name : String) (f : Function) (vs : List Value) :
    InStep ρ base (Image ρ) (applyFunction name f vs)
      (applyFunction name f (vs.map (Value.rename ρ))) := by
  refine .state fun m m' t => ?_
  have hcall : Parallel ρ base (Image ρ) (f.apply vs m) (f.apply (vs.map (Value.rename ρ)) m') :=
    apply_inStep hρ f vs m m' t
  generalize f.apply vs m = r at hcall
  generalize f.apply (vs.map (Value.rename ρ)) m' = r' at hcall
  cases hcall with
  | ok hv t => exact fun _ _ _ => .ok hv t
  | @error stop m m' t =>
    cases stop
    case fault e =>
      intro _ _ _
      dsimp only [Stop.rename]
      generalize e.kind = kind
      cases kind <;> exact .error t
    all_goals exact fun _ _ _ => .error t

end

end Rulebook.Script
