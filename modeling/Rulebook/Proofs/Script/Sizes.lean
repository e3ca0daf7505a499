/-
  How wide the numbers are that operators form.

  Operands are looked at before an operator forms its value, and the value is looked at after that.
  The first look lets a product through if the widths of its factors add up to one bit more than the
  cap.  A product can be one bit narrower than that sum, so nothing within the cap is refused, and
  what is formed is at most one bit too wide.  For powers the first look decides alone.

  * `bitLength_mul_le`, `bitLength_add_le_mul`, `bitLength_pow_le`: widths of products and powers;
  * `applyBinary_whole`: an operator between whole numbers, by the two looks;
  * `productFits`, `powerFits`, `sumFits`: the operators of expressions;
  * `formulaFits`: those of formulas;
  * `operators_fit`: all of it.
-/
import Mathlib.Algebra.Order.Group.Int
import Rulebook.Proofs.Formula.Operators
import Rulebook.Proofs.Script.Width

namespace Rulebook.Script

variable {l r n : Int} {k : Nat}

/-! ## Widths -/

theorem lt_two_pow_bitLength (n : Int) : n.natAbs < 2 ^ bitLength n :=
  bitLength_le_iff.1 le_rfl

theorem two_pow_le_natAbs (hn : n ≠ 0) : 2 ^ (bitLength n - 1) ≤ n.natAbs := by
  rw [bitLength, if_neg hn, Nat.add_sub_cancel]
  exact Nat.log2_self_le (Int.natAbs_ne_zero.2 hn)

theorem bitLength_mul_le (l r : Int) : bitLength (l * r) ≤ bitLength l + bitLength r := by
  rw [bitLength_le_iff, Int.natAbs_mul, Nat.pow_add]
  exact Nat.mul_lt_mul'' (lt_two_pow_bitLength l) (lt_two_pow_bitLength r)

/-- A product is at most one bit narrower than its factors together. -/
theorem bitLength_add_le_mul (hl : l ≠ 0) (hr : r ≠ 0) :
    bitLength l + bitLength r ≤ bitLength (l * r) + 1 := by
  have hpos {n : Int} (hn : n ≠ 0) : 0 < bitLength n := by
    rw [bitLength, if_neg hn]
    exact Nat.succ_pos _
  have hwide : 2 ^ (bitLength l - 1 + (bitLength r - 1)) < 2 ^ bitLength (l * r) :=
    calc 2 ^ (bitLength l - 1 + (bitLength r - 1))
      _ = 2 ^ (bitLength l - 1) * 2 ^ (bitLength r - 1) := Nat.pow_add ..
      _ ≤ l.natAbs * r.natAbs := Nat.mul_le_mul (two_pow_le_natAbs hl) (two_pow_le_natAbs hr)
      _ = (l * r).natAbs := (Int.natAbs_mul l r).symm
      _ < 2 ^ bitLength (l * r) := lt_two_pow_bitLength _
  have hexponents := (Nat.pow_lt_pow_iff_right (by decide)).1 hwide
  have := hpos hl
  have := hpos hr
  omega

theorem bitLength_pow_le (hk : 0 < k) : bitLength (n ^ k) ≤ bitLength n * k := by
  rw [bitLength_le_iff, Int.natAbs_pow, Nat.pow_mul]
  exact Nat.pow_lt_pow_left (lt_two_pow_bitLength n) (Nat.ne_of_gt hk)

theorem natAbs_fmod_lt (hr : r ≠ 0) : (l.fmod r).natAbs < r.natAbs := by
  have hnonneg := Int.emod_nonneg l hr
  have hlt := Int.emod_lt_abs l hr
  rw [Int.abs_eq_natAbs] at hlt
  rw [Int.fmod_eq_emod]
  split_ifs with h
  · omega
  · obtain ⟨hneg, hdvd⟩ := not_or.1 h
    have hne : l % r ≠ 0 := mt Int.dvd_of_emod_eq_zero hdvd
    omega

/-! ## The look before -/

/-- The whole number that an operator comes to between two of them; `none` for quotients, for a zero
    divisor and for negative exponents. -/
def intResult? (op : BinaryOp) (l r : Int) : Option Int :=
  match op with
  | .add => some (l + r)
  | .sub => some (l - r)
  | .mul => some (l * r)
  | .floorDiv => if r = 0 then none else some (l.fdiv r)
  | .mod => if r = 0 then none else some (l.fmod r)
  | .pow => if 0 ≤ r then some (l ^ r.toNat) else none
  | .div => none
  | .unsupported _ => none

theorem intResult?_floorDiv_iff : intResult? .floorDiv l r = some n ↔ r ≠ 0 ∧ l.fdiv r = n := by
  simp [intResult?]

theorem intResult?_mod_iff : intResult? .mod l r = some n ↔ r ≠ 0 ∧ l.fmod r = n := by
  simp [intResult?]

section

variable {v w : Value} (hv : v.number? = some (.int l)) (hw : w.number? = some (.int r))
include hv hw

theorem checkOperands_mul (h : Heap) : checkOperands h .mul v w =
    if maxBits + 1 < bitLength l + bitLength r then .error .productTooLarge else .ok () := by
  unfold checkOperands checkProduct
  simp only [hv, hw, checkRepetition_of_number hv hw]
  split_ifs <;> rfl

theorem checkOperands_pow (h : Heap) : checkOperands h .pow v w =
    if maxExponent < r.natAbs then .error .exponentTooLarge
    else if 0 < r ∧ 1 < l.natAbs ∧ maxBits < bitLength l * r.toNat then .error .powerTooLarge
    else .ok () := by
  have horder : (Number.int r).abs.order (.int maxExponent) = some .gt ↔ maxExponent < r.natAbs := by
    simp only [Number.abs, Number.order, Option.some.injEq, compare_gt_iff_gt, Nat.cast_lt]
  unfold checkOperands checkPower
  simp only [hv, hw, horder]
  split_ifs <;> rfl

/-! ## Operators between whole numbers -/

/-- An operator between whole numbers is refused by the look before, or it forms its value, which is
    looked at in turn. -/
theorem applyBinary_whole {op : BinaryOp} (hn : intResult? op l r = some n) (m : Machine) :
    applyBinary op v w m =
      match checkOperands m.heap op v w with
      | .ok _ => ended (checkedNumber (.int n)) m
      | .error e => .error (.error e) m := by
  have hnumbers : Operator.onNumbers op (.int l) (.int r) = some (.ok (.int n)) := by
    unfold intResult? at hn
    split at hn
    case h_1 | h_2 | h_3 => exact Option.some.inj hn ▸ rfl
    case h_4 | h_5 =>
      split_ifs at hn with hzero
      exact Option.some.inj hn ▸ congrArg some (if_neg hzero)
    case h_6 =>
      split_ifs at hn with hsign
      exact Option.some.inj hn ▸ congrArg some (if_pos hsign)
    case h_7 | h_8 => cases hn
  exact applyBinary_of_onNumbers hv hw hnumbers m

/-- A zero divisor is refused. -/
theorem applyBinary_undivided {op : BinaryOp} (hop : op = .floorDiv ∨ op = .mod) (hr : r = 0)
    (m : Machine) : applyBinary op v w m = .error (.error .division) m := by
  have hnumbers : Operator.onNumbers op (.int l) (.int r) = some (.error .divisionByZero) := by
    rcases hop with rfl | rfl <;> exact congrArg some (if_pos hr)
  have hlook : checkOperands m.heap op v w = .ok () := by
    rcases hop with rfl | rfl <;> rfl
  rw [applyBinary_of_onNumbers hv hw hnumbers m, hlook]
  rfl

end

theorem checkedNumber_of_capped (h : Capped n) : checkedNumber (.int n) = .ok (.int n) :=
  if_neg (not_lt.2 h)

theorem checkedNumber_of_not_capped (h : ¬Capped n) :
    checkedNumber (.int n) = .error .integerTooLarge :=
  if_pos (not_le.1 h)

/-! ## What is let through -/

/-- A product within the cap is let through. -/
theorem bitLength_add_le_of_capped (hl : Capped l) (hr : Capped r) (h : Capped (l * r)) :
    bitLength l + bitLength r ≤ maxBits + 1 := by
  have hzero : bitLength 0 = 0 := rfl
  unfold Capped at hl hr h
  by_cases hl' : l = 0
  · rw [hl', hzero]
    omega
  by_cases hr' : r = 0
  · rw [hr', hzero]
    omega
  have := bitLength_add_le_mul hl' hr'
  omega

/-- A power that is let through is within the cap. -/
theorem capped_pow (h : k = 0 ∨ n.natAbs ≤ 1 ∨ bitLength n * k ≤ maxBits) : Capped (n ^ k) := by
  rcases Nat.eq_zero_or_pos k with rfl | hk
  · have hone : Capped 1 := by decide
    rwa [pow_zero]
  rcases h with h | h | h
  · exact absurd h (Nat.ne_of_gt hk)
  · rw [capped_iff, Int.natAbs_pow]
    exact (pow_le_one₀ (Nat.zero_le _) h).trans_lt (Nat.one_lt_two_pow (by decide))
  · exact (bitLength_pow_le hk).trans h

/-- Sums, differences, quotients rounded down and remainders are at most one bit too wide. -/
theorem bitLength_exact_le (hl : Capped l) (hr : Capped r) {op : BinaryOp}
    (hop : op ∈ [.add, .sub, .floorDiv, .mod]) (hn : intResult? op l r = some n) :
    bitLength n ≤ maxBits + 1 := by
  rw [capped_iff] at hl hr
  rw [bitLength_le_iff, Nat.pow_succ']
  simp only [List.mem_cons, List.not_mem_nil, or_false] at hop
  rcases hop with rfl | rfl | rfl | rfl
  · obtain rfl := Option.some.inj hn
    omega
  · obtain rfl := Option.some.inj hn
    omega
  · obtain ⟨-, rfl⟩ := intResult?_floorDiv_iff.1 hn
    have := Int.natAbs_fdiv_le_natAbs l r
    omega
  · obtain ⟨hzero, rfl⟩ := intResult?_mod_iff.1 hn
    have := natAbs_fmod_lt (l := l) hzero
    omega

theorem bitLength_neg_le (hl : Capped l) : bitLength (-l) ≤ maxBits + 1 :=
  Nat.le_succ_of_le hl.neg

/-! ## Products -/

/-- A product is formed if it is at most one bit too wide, and accepted if it is within the cap. -/
structure ProductFits (v w : Value) (l r : Int) (m : Machine) : Prop where
  formed : checkOperands m.heap .mul v w = .ok () → bitLength (l * r) ≤ maxBits + 1
  accepted : (l * r).natAbs < 2 ^ maxBits → applyBinary .mul v w m = .ok (.int (l * r)) m
  refused : 2 ^ maxBits ≤ (l * r).natAbs → ∃ e, applyBinary .mul v w m = .error (.error e) m

section

variable {v w : Value} (hv : v.number? = some (.int l)) (hw : w.number? = some (.int r))
  (m : Machine)
include hv hw

theorem productFits (hl : Capped l) (hr : Capped r) : ProductFits v w l r m := by
  have hn : intResult? .mul l r = some (l * r) := rfl
  have happly := applyBinary_whole hv hw hn m
  have hlook := checkOperands_mul hv hw m.heap
  constructor
  case formed =>
    intro hadmitted
    rw [hlook] at hadmitted
    split_ifs at hadmitted with hwide
    exact (bitLength_mul_le l r).trans (not_lt.1 hwide)
  case accepted =>
    intro hlt
    have hcapped : Capped (l * r) := capped_iff.2 hlt
    rw [happly, hlook, if_neg (not_lt.2 (bitLength_add_le_of_capped hl hr hcapped))]
    exact congrArg (ended · m) (checkedNumber_of_capped hcapped)
  case refused =>
    intro hle
    have hwide : ¬Capped (l * r) := fun hcapped => absurd (capped_iff.1 hcapped) (not_lt.2 hle)
    rw [happly, hlook]
    split_ifs
    · exact ⟨_, rfl⟩
    · exact ⟨_, congrArg (ended · m) (checkedNumber_of_not_capped hwide)⟩

/-! ## Powers -/

/-- The first look at a power is enough: what it lets through is within the cap. -/
structure PowerFits (v w : Value) (l r : Int) (m : Machine) : Prop where
  admitted : checkOperands m.heap .pow v w = .ok () ↔
    r ≤ maxExponent ∧ (r = 0 ∨ l.natAbs ≤ 1 ∨ bitLength l * r.toNat ≤ maxBits)
  formed : checkOperands m.heap .pow v w = .ok () →
    applyBinary .pow v w m = .ok (.int (l ^ r.toNat)) m
  refused (e : Error) : checkOperands m.heap .pow v w = .error e →
    applyBinary .pow v w m = .error (.error e) m
  accepted (u : Value) (m' : Machine) : applyBinary .pow v w m = .ok u m' →
    ∃ n, u = .int n ∧ bitLength n ≤ maxBits

theorem powerFits (hr : 0 ≤ r) : PowerFits v w l r m := by
  have hn : intResult? .pow l r = some (l ^ r.toNat) := if_pos hr
  have happly := applyBinary_whole hv hw hn m
  have hlook := checkOperands_pow hv hw m.heap
  have hadmitted : checkOperands m.heap .pow v w = .ok () ↔
      r ≤ maxExponent ∧ (r = 0 ∨ l.natAbs ≤ 1 ∨ bitLength l * r.toNat ≤ maxBits) := by
    rw [hlook]
    split_ifs with hlong hwide
    · exact iff_of_false nofun (by omega)
    · exact iff_of_false nofun (by omega)
    · exact iff_of_true rfl (by omega)
  have hformed : checkOperands m.heap .pow v w = .ok () →
      applyBinary .pow v w m = .ok (.int (l ^ r.toNat)) m ∧ Capped (l ^ r.toNat) := by
    intro h
    have hcapped : Capped (l ^ r.toNat) := capped_pow (by have := (hadmitted.1 h).2; omega)
    rw [happly, h]
    exact ⟨congrArg (ended · m) (checkedNumber_of_capped hcapped), hcapped⟩
  have hrefused (e : Error) (h : checkOperands m.heap .pow v w = .error e) :
      applyBinary .pow v w m = .error (.error e) m := by
    rw [happly, h]
  refine ⟨hadmitted, fun h => (hformed h).1, hrefused, fun u m' hu => ?_⟩
  cases h : checkOperands m.heap .pow v w with
  | error e => exact absurd ((hrefused e h).symm.trans hu) nofun
  | ok _ =>
    obtain ⟨happlied, hcapped⟩ := hformed h
    cases happlied.symm.trans hu
    exact ⟨_, rfl, hcapped⟩

/-! ## Sums, quotients and signs -/

/-- Sums, differences, quotients rounded down and remainders are formed at most one bit too wide, and
    so are numbers with a sign before them. -/
structure SumFits (v w : Value) (l r : Int) (m : Machine) : Prop where
  formed (op : BinaryOp) (n : Int) : op ∈ [.add, .sub, .floorDiv, .mod] → intResult? op l r = some n →
    bitLength n ≤ maxBits + 1 ∧ applyBinary op v w m = ended (checkedNumber (.int n)) m
  undivided (op : BinaryOp) : op ∈ [.floorDiv, .mod] → r = 0 →
    applyBinary op v w m = .error (.error .division) m
  signed : bitLength (-l) ≤ maxBits + 1 ∧ applyUnary .minus v m = .ok (.int (-l)) m ∧
    applyUnary .plus v m = .ok (.int l) m

theorem sumFits (hl : Capped l) (hr : Capped r) : SumFits v w l r m := by
  constructor
  case formed =>
    intro op n hop hn
    have hlook : checkOperands m.heap op v w = .ok () := by
      simp only [List.mem_cons, List.not_mem_nil, or_false] at hop
      rcases hop with rfl | rfl | rfl | rfl <;> rfl
    refine ⟨bitLength_exact_le hl hr hop hn, ?_⟩
    rw [applyBinary_whole hv hw hn, hlook]
  case undivided =>
    intro op hop hzero
    simp only [List.mem_cons, List.not_mem_nil, or_false] at hop
    exact applyBinary_undivided hv hw hop hzero m
  case signed =>
    have hminus : Operator.signed .minus v = .ok (.int (-l)) := by
      unfold Operator.signed
      simp only [hv]
      rfl
    have hplus : Operator.signed .plus v = .ok (.int l) := by
      unfold Operator.signed
      simp only [hv]
      rfl
    refine ⟨bitLength_neg_le hl, ?_, ?_⟩
    · change Run.ofExcept (Operator.signed .minus v) m = _
      rw [hminus]
      rfl
    · change Run.ofExcept (Operator.signed .plus v) m = _
      rw [hplus]
      rfl

end

/-! ## Formulas -/

/-- Formulas form and accept whole numbers as expressions do. -/
structure FormulaFits (left right : Expr) (l r : Int) : Prop where
  formed : checkProduct (.int l) (.int r) = .ok () → bitLength (l * r) ≤ maxBits + 1
  accepted : (l * r).natAbs < 2 ^ maxBits → (Expr.binary .mul left right).calculate = .ok (.int (l * r))
  refused : 2 ^ maxBits ≤ (l * r).natAbs → ∃ e, (Expr.binary .mul left right).calculate = .error e
  sums (op : BinaryOp) (n : Int) : op ∈ [.add, .sub] → intResult? op l r = some n →
    bitLength n ≤ maxBits + 1 ∧ (Expr.binary op left right).calculate = checkedNumber (.int n)
  signed : bitLength (-l) ≤ maxBits + 1 ∧ (Expr.unary .minus left).calculate = .ok (.int (-l)) ∧
    (Expr.unary .plus left).calculate = .ok (.int l)

theorem ended_inj {q q' : Except Error Number} {m : Machine} (h : ended q m = ended q' m) :
    q = q' := by
  rcases q with e | a <;> rcases q' with e' | a'
  · cases h
    rfl
  · cases h
  · cases h
  · exact ended_eq_ok h

section

variable {left right : Expr} (hleft : left.calculate = .ok (.int l))
  (hright : right.calculate = .ok (.int r))
include hleft hright

/-- A formula with an operator is calculated as the operator is applied in expressions. -/
theorem ended_calculate {op : BinaryOp} (hop : isArithmeticOp op) (m : Machine) :
    ended (Expr.binary op left right).calculate m = applyBinary op (.int l) (.int r) m := by
  obtain ⟨q, -, hq⟩ := calculateBinary_eq hop m.heap (.int l) (.int r)
  have hcalculate : (Expr.binary op left right).calculate =
      (calculateBinary op (.int l) (.int r)).getD (throw (.unsupportedArithmetic "BinOp")) := by
    rw [Expr.calculate, if_pos hop, hleft, hright]
    rfl
  rw [hcalculate, hq]
  exact (applyBinary_ofNumber hop hq m).symm

theorem formulaFits (hl : Capped l) (hr : Capped r) : FormulaFits left right l r := by
  let m : Machine := { heap := {} }
  have hproduct := productFits (v := .int l) (w := .int r) rfl rfl m hl hr
  have hsum := sumFits (v := .int l) (w := .int r) rfl rfl m hl hr
  have harithmetic : isArithmeticOp .mul := rfl
  have hmul := ended_calculate hleft hright harithmetic m
  constructor
  case formed =>
    intro hadmitted
    refine hproduct.formed ?_
    unfold checkOperands
    rw [hadmitted, checkRepetition_of_number (a := .int l) (b := .int r) rfl rfl]
    rfl
  case accepted =>
    intro hlt
    exact ended_eq_ok (n := .int (l * r)) (hmul.trans (hproduct.accepted hlt))
  case refused =>
    intro hle
    obtain ⟨e, he⟩ := hproduct.refused hle
    have hended : ended (Expr.binary .mul left right).calculate m = ended (.error e) m :=
      hmul.trans he
    exact ⟨e, ended_inj hended⟩
  case sums =>
    intro op n hop hn
    obtain ⟨hwidth, happly⟩ := hsum.formed op n (List.mem_append_left _ hop) hn
    have harithmetic : isArithmeticOp op := by
      simp only [List.mem_cons, List.not_mem_nil, or_false] at hop
      rcases hop with rfl | rfl <;> rfl
    exact ⟨hwidth, ended_inj ((ended_calculate hleft hright harithmetic m).trans happly)⟩
  case signed =>
    refine ⟨hsum.signed.1, ?_, ?_⟩
    · rw [Expr.calculate, hleft]
      rfl
    · rw [Expr.calculate, hleft]

end

/-! ## All operators -/

/-- **Operators stay within the cap, and refuse nothing else.** Between whole numbers of at most as
    many bits as the cap allows, of any sign, a product is accepted exactly if it is within the cap,
    by expressions and by formulas, and it is formed only if it is at most one bit too wide, as are
    sums, differences, quotients rounded down, remainders and numbers with a sign. Powers of any whole
    number are within the cap once they are let through. -/
theorem operators_fit {v w : Value} {l r : Int} (hv : v.number? = some (.int l))
    (hw : w.number? = some (.int r)) (m : Machine) :
    (Capped l → Capped r → ProductFits v w l r m ∧ SumFits v w l r m ∧
      ∀ left right : Expr, left.calculate = .ok (.int l) → right.calculate = .ok (.int r) →
        FormulaFits left right l r) ∧
    (0 ≤ r → PowerFits v w l r m) :=
  ⟨fun hl hr => ⟨productFits hv hw m hl hr, sumFits hv hw m hl hr,
    fun _ _ hleft hright => formulaFits hleft hright hl hr⟩, powerFits hv hw m⟩

/-- Two factors whose widths add up to one bit more than the cap, with a product within it. -/
theorem operators_fit_widest :
    let l : Int := 2 ^ 2047
    let r : Int := -2 ^ 2048
    let m : Machine := { heap := {} }
    (Value.int l).number? = some (.int l) ∧ (Value.int r).number? = some (.int r) ∧
      bitLength l + bitLength r = maxBits + 1 ∧
      applyBinary .mul (.int l) (.int r) m = .ok (.int (l * r)) m := by
  intro l r m
  obtain ⟨hfit, -⟩ := operators_fit (v := .int l) (w := .int r) rfl rfl m
  obtain ⟨hproduct, -, -⟩ := hfit (by decide +kernel) (by decide +kernel)
  exact ⟨rfl, rfl, by decide +kernel, hproduct.accepted (by decide +kernel)⟩

end Rulebook.Script
