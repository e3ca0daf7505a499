/-
  Operators in expressions and in formulas.

  Expressions and formulas have their operators apart, each with its own checks and its own words for
  faults.  On numbers they come to the same.

  * `applyBinary_apply`: an operator of expressions, by its checks and its value;
  * `applyBinary_of_onNumbers`: the same on numbers;
  * `applyBinary_ofNumber`: the operators of formulas are those of expressions.
-/
import Mathlib.Tactic.SplitIfs
import Rulebook.Proofs.Script.Faults
import Rulebook.Script.Arithmetic

namespace Rulebook.Script

/-- How an evaluation ends that ends as a calculation does. -/
def ended (r : Except Error Number) (m : Machine) : EStateM.Result Stop Machine Value :=
  match r with
  | .ok n => .ok (.ofNumber n) m
  | .error e => .error (.error e) m

theorem ended_eq_ok {r : Except Error Number} {m m' : Machine} {n : Number}
    (h : ended r m = .ok (.ofNumber n) m') : r = .ok n := by
  cases r with
  | error e => cases h
  | ok a => cases a <;> cases n <;> cases h <;> rfl

theorem number?_ofNumber (n : Number) : (Value.ofNumber n).number? = some n := by
  cases n <;> rfl

theorem sequenceLength?_of_number {v : Value} {n : Number} (hv : v.number? = some n) (h : Heap) :
    sequenceLength? h v = none := by
  cases v <;> first | rfl | cases hv

/-- The faults of operators on numbers are refused in the same words. -/
theorem operatorStop_eq {f : Fault} (hf : f.kind ∈ [FaultKind.type, .overflow, .zeroDivision]) :
    operatorStop f = .error (numberError f) := by
  simp only [List.mem_cons, List.not_mem_nil, or_false] at hf
  unfold operatorStop numberError
  rcases hf with hf | hf | hf <;> rw [hf]

/-- A number passes the check of formulas as it passes that of expressions. -/
theorem checkedNumber_eq (h : Heap) (n : Number) :
    checkedNumber n = (checkResult h (.ofNumber n)).map fun _ => n := by
  cases n with
  | float x => rfl
  | int k =>
    change (if maxBits < bitLength k then _ else _) =
      Except.map _ (if maxBits < bitLength k then _ else _)
    split_ifs <;> rfl

theorem checkRepetition_of_number {v w : Value} {a b : Number} (hv : v.number? = some a)
    (hw : w.number? = some b) (h : Heap) : checkRepetition h v w = .ok () := by
  unfold checkRepetition
  simp only [sequenceLength?_of_number hv, sequenceLength?_of_number hw]
  rfl

/-- An operator is applied to operands that are checked, and its result is checked. -/
theorem applyBinary_apply (op : BinaryOp) (v w : Value) (m : Machine) :
    applyBinary op v w m =
      match checkOperands m.heap op v w, Operator.binary m.heap op v w with
      | .error e, _ => .error (.error e) m
      | .ok _, .error f => .error (operatorStop f) m
      | .ok _, .ok p =>
        (Run.check (checkResult p.2 p.1) >>= fun _ => pure p.1 : Run Value)
          { m with heap := p.2 } := by
  have happly : applyBinary op v w m = (Run.check (checkOperands m.heap op v w) >>= fun _ =>
      Run.heap >>= fun h => Run.orElse operatorStop (Operator.binary h op v w) >>= fun p =>
        Run.keeping p >>= fun r => Run.heap >>= fun h => Run.check (checkResult h r) >>= fun _ =>
          pure r : Run Value) m := rfl
  rw [happly]
  cases checkOperands m.heap op v w with
  | error e => rfl
  | ok _ =>
    change (Run.orElse operatorStop (Operator.binary m.heap op v w) >>= fun p =>
      Run.keeping p >>= fun r => Run.heap >>= fun h => Run.check (checkResult h r) >>= fun _ =>
        pure r : Run Value) m = _
    cases Operator.binary m.heap op v w <;> rfl

/-- An operator on numbers, once its operands are checked. -/
theorem applyBinary_of_onNumbers {op : BinaryOp} {v w : Value} {a b : Number}
    {r : Except Fault Number} (hv : v.number? = some a) (hw : w.number? = some b)
    (hr : Operator.onNumbers op a b = some r) (m : Machine) :
    applyBinary op v w m =
      match checkOperands m.heap op v w with
      | .ok _ => ended ((r.mapError numberError).bind checkedNumber) m
      | .error e => .error (.error e) m := by
  have hbinary : Operator.binary m.heap op v w = r.map fun n => (.ofNumber n, m.heap) := by
    unfold Operator.binary
    rw [hv, hw]
    dsimp only
    rw [hr]
  rw [applyBinary_apply, hbinary]
  cases checkOperands m.heap op v w with
  | error e => rfl
  | ok _ =>
    cases r with
    | error f =>
      have hkind := Operator.faultsIn_onNumbers hr f rfl
      change EStateM.Result.error (operatorStop f) m = .error (.error (numberError f)) m
      rw [operatorStop_eq hkind]
    | ok n =>
      change (Run.check (checkResult m.heap (.ofNumber n)) >>= fun _ => pure (.ofNumber n) :
        Run Value) m = ended (checkedNumber n) m
      rw [checkedNumber_eq m.heap n]
      cases checkResult m.heap (.ofNumber n) <;> rfl

theorem calculateBinary_eq {op : BinaryOp} (hop : isArithmeticOp op) (h : Heap) (a b : Number) :
    ∃ r, Operator.onNumbers op a b = some r ∧ calculateBinary op a b =
      some ((checkOperands h op (.ofNumber a) (.ofNumber b)).bind fun _ =>
        (r.mapError numberError).bind checkedNumber) := by
  cases op with
  | add | sub | div => exact ⟨_, rfl, rfl⟩
  | mul =>
    refine ⟨_, rfl, ?_⟩
    unfold calculateBinary checkOperands
    rw [checkRepetition_of_number (number?_ofNumber a) (number?_ofNumber b)]
    cases checkProduct (.ofNumber a) (.ofNumber b) <;> rfl
  | floorDiv | mod | pow | unsupported => cases hop

/-- **The operators of formulas are those of expressions.** -/
theorem applyBinary_ofNumber {op : BinaryOp} (hop : isArithmeticOp op) {a b : Number}
    {r : Except Error Number} (hr : calculateBinary op a b = some r) (m : Machine) :
    applyBinary op (.ofNumber a) (.ofNumber b) m = ended r m := by
  obtain ⟨q, hq, hcalculate⟩ := calculateBinary_eq hop m.heap a b
  rw [applyBinary_of_onNumbers (number?_ofNumber a) (number?_ofNumber b) hq]
  obtain rfl := Option.some.inj (hcalculate.symm.trans hr)
  cases checkOperands m.heap op (.ofNumber a) (.ofNumber b) <;> rfl

theorem applyUnary_ofNumber {op : UnaryOp} (hop : op = .plus ∨ op = .minus) (n : Number)
    (m : Machine) :
    applyUnary op (.ofNumber n) m = .ok (.ofNumber (if op = .minus then n.neg else n)) m := by
  rcases hop with rfl | rfl <;> cases n <;> rfl

end Rulebook.Script
