/-
  Expressions read their names and write nothing.

  What an expression comes to depends on the names that are evaluated in it, on what limits the run
  and on the functions it may call; under two scopes that agree in these, the runs are one and the
  same, with their errors and their steps.  No evaluation binds a name or changes an object.

  * `eval_congr`: two scopes, by induction on the expression;
  * `evaluation_is_pure`: what an evaluation reads, what it leaves, and guards over the entity.
-/
import Rulebook.Proofs.Atomicity
import Rulebook.Proofs.Script.Contract

namespace Rulebook.Script

/-! ## What an evaluation reads -/

/-- Two scopes limit runs alike, and let them call the same functions. -/
structure Scope.Alike (s s' : Scope) : Prop where
  functions : s.functions = s'.functions
  budget : s.budget = s'.budget
  deadline : s.deadline = s'.deadline

/-- Two scopes give the same values to the names that are evaluated at some sites. -/
def Scope.AgreeAt (s s' : Scope) (sites : List Site) : Prop :=
  ∀ id, .evaluation (.name id) ∈ sites → s.names.field? id = s'.names.field? id

namespace Scope.AgreeAt

variable {s s' : Scope} {site : Site} {sites sites' : List Site}

theorem tail (h : s.AgreeAt s' (site :: sites)) : s.AgreeAt s' sites :=
  fun id hid => h id (List.mem_cons_of_mem site hid)

theorem left (h : s.AgreeAt s' (sites ++ sites')) : s.AgreeAt s' sites :=
  fun id hid => h id (List.mem_append_left sites' hid)

theorem right (h : s.AgreeAt s' (sites ++ sites')) : s.AgreeAt s' sites' :=
  fun id hid => h id (List.mem_append_right sites hid)

end Scope.AgreeAt

section

variable {s s' : Scope}

theorem tick_congr (hs : s.Alike s') : Run.tick s = Run.tick s' := by
  unfold Run.tick
  rw [hs.budget, hs.deadline]

theorem lookUp_congr {id : String} (hid : s.names.field? id = s'.names.field? id) :
    Run.lookUp s id = Run.lookUp s' id := by
  unfold Run.lookUp
  rw [hid]

mutual

/-- **An expression comes to the same under scopes that agree on its names.** -/
theorem eval_congr (hs : s.Alike s') : ∀ e : Expr, s.AgreeAt s' e.sites → e.eval s = e.eval s'
  | .constant c, _ => by simp only [Expr.eval, tick_congr hs]
  | .name id, h => by
    simp only [Expr.eval, tick_congr hs, lookUp_congr (h id (List.mem_singleton_self _))]
  | .binary op left right, h => by
    have hl := eval_congr hs left h.tail.left
    have hr := eval_congr hs right h.tail.right
    simp only [Expr.eval, tick_congr hs, hl, hr]
  | .unary op operand, h => by
    have he := eval_congr hs operand h.tail
    cases op <;> simp only [Expr.eval, tick_congr hs, he]
  | .both operands, h => by
    simp only [Expr.eval, tick_congr hs, evalBoth_congr hs operands h.tail]
  | .either operands, h => by
    simp only [Expr.eval, tick_congr hs, evalEither_congr hs operands h.tail]
  | .compare first rest, h => by
    have hfirst := eval_congr hs first h.tail.left
    have hrest := evalComparisons_congr hs rest h.tail.right
    simp only [Expr.eval, tick_congr hs, hfirst, hrest]
  | .conditional test body orelse, h => by
    have htest := eval_congr hs test h.tail.left.left
    have hbody := eval_congr hs body h.tail.left.right
    have horelse := eval_congr hs orelse h.tail.right
    simp only [Expr.eval, tick_congr hs, htest, hbody, horelse]
  | .list items, h => by
    simp only [Expr.eval, tick_congr hs, evalAll_congr hs items h.tail]
  | .tuple items, h => by
    simp only [Expr.eval, tick_congr hs, evalAll_congr hs items h.tail]
  | .mapping entries unpacks, h => by
    simp only [Expr.eval, tick_congr hs, evalEntries_congr hs entries [] h.tail]
  | .subscript container key, h => by
    have hcontainer := eval_congr hs container h.tail.left
    have hkey := eval_congr hs key h.tail.right
    simp only [Expr.eval, tick_congr hs, hcontainer, hkey]
  | .slice start stop step, h => by
    have hstart := evalBound_congr hs start h.tail.left.left
    have hstop := evalBound_congr hs stop h.tail.left.right
    have hstep := evalBound_congr hs step h.tail.right
    simp only [Expr.eval, tick_congr hs, hstart, hstop, hstep]
  | .call function arguments keywords, h => by
    have harguments := evalArguments_congr hs arguments h.tail
    simp only [Expr.eval, tick_congr hs, hs.functions, harguments]
  | .member .., _ => by simp only [Expr.eval, tick_congr hs]
  | .starred _, _ => by simp only [Expr.eval, tick_congr hs]
  | .unsupported _, _ => by simp only [Expr.eval, tick_congr hs]

theorem evalAll_congr (hs : s.Alike s') :
    ∀ es : List Expr, s.AgreeAt s' (allSites es) → evalAll s es = evalAll s' es
  | [], _ => by simp only [evalAll]
  | e :: es, h => by
    have he := eval_congr hs e h.left
    have hes := evalAll_congr hs es h.right
    simp only [evalAll, he, hes]

theorem evalArguments_congr (hs : s.Alike s') :
    ∀ es : List Expr, s.AgreeAt s' (allSites es) → evalArguments s es = evalArguments s' es
  | [], _ => by simp only [evalArguments]
  | e :: es, h => by
    have he := eval_congr hs e h.left
    have hes := evalArguments_congr hs es h.right
    cases e <;> simp only [evalArguments, he, hes]

theorem evalBound_congr (hs : s.Alike s') :
    ∀ e : Option Expr, s.AgreeAt s' (boundSites e) → evalBound s e = evalBound s' e
  | none, _ => by simp only [evalBound]
  | some e, h => by simp only [evalBound, eval_congr hs e h]

theorem evalEntries_congr (hs : s.Alike s') : ∀ (es : List (Expr × Expr)) (before : Entries),
    s.AgreeAt s' (entrySites es) → evalEntries s es before = evalEntries s' es before
  | [], _, _ => by simp only [evalEntries]
  | (k, e) :: es, before, h => by
    have hk := eval_congr hs k h.left.left
    have he := eval_congr hs e h.left.right
    have hes := fun before => evalEntries_congr hs es before h.right
    simp only [evalEntries, hk, he, hes]

theorem evalBoth_congr (hs : s.Alike s') :
    ∀ es : List Expr, s.AgreeAt s' (allSites es) → evalBoth s es = evalBoth s' es
  | [], _ => by simp only [evalBoth]
  | [e], h => by simp only [evalBoth, eval_congr hs e h.left]
  | e :: e' :: es, h => by
    have he := eval_congr hs e h.left
    have hes := evalBoth_congr hs (e' :: es) h.right
    simp only [evalBoth, he, hes]

theorem evalEither_congr (hs : s.Alike s') :
    ∀ es : List Expr, s.AgreeAt s' (allSites es) → evalEither s es = evalEither s' es
  | [], _ => by simp only [evalEither]
  | [e], h => by simp only [evalEither, eval_congr hs e h.left]
  | e :: e' :: es, h => by
    have he := eval_congr hs e h.left
    have hes := evalEither_congr hs (e' :: es) h.right
    simp only [evalEither, he, hes]

theorem evalComparisons_congr (hs : s.Alike s') : ∀ rest : List (CompareOp × Expr),
    s.AgreeAt s' (comparedSites rest) →
      ∀ left, evalComparisons s left rest = evalComparisons s' left rest
  | [], _, _ => by simp only [evalComparisons]
  | (op, e) :: rest, h, left => by
    have he := eval_congr hs e h.left
    have hrest := evalComparisons_congr hs rest h.right
    simp only [evalComparisons, he, hrest]

end

end

/-! ## What an evaluation leaves -/

/-- **An evaluation reads its names and writes nothing.**  Scopes that limit runs alike and agree on
    the names of an expression give the same run of it, with its value or error and its steps.  An
    evaluation binds no name and changes no object, whether it succeeds or fails; so a guard leaves
    the entity as it is. -/
theorem evaluation_is_pure :
    (∀ (e : Expr) (s s' : Scope), s.Alike s' → s.AgreeAt s' e.sites →
      ∀ m, e.eval s m = e.eval s' m) ∧
    (∀ (s : Scope) (source : Value) (m : Machine),
      (stateLeft (evaluate s source m)).locals = m.locals ∧
      m.heap.Extends (stateLeft (evaluate s source m)).heap ∧
      ∀ v, m.heap.Closed → v.Within m.heap.cells.size →
        (stateLeft (evaluate s source m)).heap.plain v = m.heap.plain v) ∧
    ∀ (x : Executor) (a : Action) (c : Context) (s : Surroundings),
      Unchanged c s.heap (x.mayRun a c s).2 := by
  refine ⟨fun e s s' halike hagree m => ?_, fun s source m => ?_, fun x a c s => ?_⟩
  · rw [eval_congr halike e hagree]
  · have hspares : Spares m (stateLeft (evaluate s source m)) := evaluate_spares s source m
    refine ⟨hspares.locals, hspares.heap, fun v hclosed hv => ?_⟩
    exact hspares.heap.plain_eq hclosed hv
  · exact (Executor.mayRun_extends x a c s).unchanged

end Rulebook.Script
