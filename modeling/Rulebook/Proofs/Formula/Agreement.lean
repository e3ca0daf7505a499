/-
  Two evaluators of arithmetic agree.

  A sanitized text can be calculated, and it can be evaluated as an expression.  The two are written
  apart: each has its own forms, its own checks and its own words for faults.  What a text is
  calculated to, it is evaluated to as well, and so are the errors of arithmetic.  An evaluation to
  a number is one of a formula, unless the text has powers or quotients that are rounded down.

  * `Expr.EndsAs.of_calculate`: from calculations to evaluations, by induction on the calculation;
  * `Expr.Spelled.eval_ok`: back, by induction on the trees that sanitized texts write;
  * `evaluators_agree`: whole texts.
-/
import Rulebook.Proofs.Formula.Operators
import Rulebook.Proofs.Formula.Trees
import Rulebook.Proofs.Script.Cap

namespace Rulebook.Script

/-! ## From calculations to evaluations -/

/-- Evaluations that have enough steps end as a calculation does. -/
def Expr.EndsAs (e : Expr) (r : Except Error Number) : Prop :=
  ∃ n : Nat, ∀ (s : Scope) (m : Machine), s.deadline = none → (m.steps + n : Nat) ≤ s.budget →
    ∃ m', m'.steps ≤ m.steps + n ∧ e.eval s m = ended r m'

/-- The errors that arithmetic itself has; all others are about the form of a text. -/
def Error.IsArithmetic : Error → Prop
  | .division | .overflow _ | .productTooLarge | .integerTooLarge => True
  | _ => False

theorem tick_of_le {s : Scope} {m : Machine} (hdeadline : s.deadline = none)
    (hbudget : (m.steps + 1 : Nat) ≤ s.budget) :
    Run.tick s m = .ok () { m with steps := m.steps + 1 } := by
  rw [tick_apply, if_neg (by omega), hdeadline]

theorem eval_signed {op : UnaryOp} (hop : op = .plus ∨ op = .minus) (s : Scope) (e : Expr) :
    (Expr.unary op e).eval s = Run.tick s >>= fun _ => e.eval s >>= applyUnary op := by
  rcases hop with rfl | rfl <;> simp only [Expr.eval]

namespace Expr.EndsAs

theorem number (n : Number) : (Expr.constant (Numeral.literal n)).EndsAs (.ok n) := by
  refine ⟨1, fun s m hdeadline hbudget => ⟨{ m with steps := m.steps + 1 }, le_rfl, ?_⟩⟩
  rw [Expr.eval, bind_of_ok (tick_of_le hdeadline hbudget)]
  cases n <;> rfl

theorem signed {op : UnaryOp} (hop : op = .plus ∨ op = .minus) {e : Expr}
    {r : Except Error Number} (h : e.EndsAs r) :
    (Expr.unary op e).EndsAs (r.map fun n => if op = .minus then n.neg else n) := by
  obtain ⟨n, hn⟩ := h
  refine ⟨n + 1, fun s m hdeadline hbudget => ?_⟩
  obtain ⟨m', hsteps, heval⟩ := hn s { m with steps := m.steps + 1 } hdeadline
    (by dsimp only; omega)
  have hstep : (Expr.unary op e).eval s m =
      (e.eval s >>= applyUnary op) { m with steps := m.steps + 1 } := by
    rw [eval_signed hop, bind_of_ok (tick_of_le hdeadline (by omega))]
  refine ⟨m', by dsimp only at hsteps; omega, ?_⟩
  rw [hstep]
  cases r with
  | error f => exact bind_of_error heval _
  | ok a => exact (bind_of_ok heval _).trans (applyUnary_ofNumber hop a m')

theorem binary {op : BinaryOp} (hop : isArithmeticOp op) {left right : Expr}
    {r q : Except Error Number} (hl : left.EndsAs r) (hr : ∀ a, r = .ok a → right.EndsAs q) :
    (Expr.binary op left right).EndsAs (do
      let a ← r
      let b ← q
      (calculateBinary op a b).getD (throw (.unsupportedArithmetic "BinOp"))) := by
  obtain ⟨n, hn⟩ := hl
  have hstep {s : Scope} {m : Machine} (hdeadline : s.deadline = none)
      (hbudget : (m.steps + 1 : Nat) ≤ s.budget) : (Expr.binary op left right).eval s m =
        (left.eval s >>= fun v => right.eval s >>= fun w => applyBinary op v w)
          { m with steps := m.steps + 1 } := by
    rw [Expr.eval, bind_of_ok (tick_of_le hdeadline hbudget)]
  cases r with
  | error f =>
    refine ⟨n + 1, fun s m hdeadline hbudget => ?_⟩
    obtain ⟨m', hsteps, heval⟩ := hn s { m with steps := m.steps + 1 } hdeadline
      (by dsimp only; omega)
    refine ⟨m', by dsimp only at hsteps; omega, ?_⟩
    rw [hstep hdeadline (by omega)]
    exact bind_of_error heval _
  | ok a =>
    obtain ⟨k, hk⟩ := hr a rfl
    refine ⟨n + k + 1, fun s m hdeadline hbudget => ?_⟩
    obtain ⟨m', hsteps, heval⟩ := hn s { m with steps := m.steps + 1 } hdeadline
      (by dsimp only; omega)
    dsimp only at hsteps
    obtain ⟨m'', hsteps', heval'⟩ := hk s m' hdeadline (by omega)
    refine ⟨m'', by omega, ?_⟩
    rw [hstep hdeadline (by omega), bind_of_ok heval]
    cases q with
    | error f => exact bind_of_error heval' _
    | ok b =>
      obtain ⟨c, -, hc⟩ := calculateBinary_eq hop {} a b
      rw [bind_of_ok heval', applyBinary_ofNumber hop hc m'']
      change _ = ended ((calculateBinary op a b).getD _) m''
      rw [hc]
      rfl

/-- **What a tree is calculated to, it is evaluated to**, unless its form is refused. -/
theorem of_calculate (e : Expr) (h : ∀ kind, e.calculate ≠ .error (.unsupportedArithmetic kind)) :
    e.EndsAs e.calculate := by
  fun_induction Expr.calculate e with
  | case1 n => exact number (.int n)
  | case2 x => exact number (.float x)
  | case3 e ih =>
    have hplus := signed (.inl rfl : UnaryOp.plus = .plus ∨ _) (ih h)
    rw [show (fun n : Number => if UnaryOp.plus = .minus then n.neg else n) = id from rfl,
      Except.map_id] at hplus
    exact hplus
  | case4 e ih =>
    refine signed (.inr rfl) (ih fun kind hkind => h kind ?_)
    rw [hkind]
    rfl
  | case5 op left right hop ihl ihr =>
    refine binary hop (ihl fun kind hkind => h kind ?_) fun a ha => ihr fun kind hkind => h kind ?_
    · rw [hkind]
      rfl
    · rw [ha, hkind]
      rfl
  | case6 => exact absurd rfl (h "BinOp")
  | case7 e => exact absurd rfl (h e.kind)

end Expr.EndsAs

/-! ## From evaluations to calculations -/

/-- The values of trees that the characters of formulas write. -/
inductive IsOperand : Value → Prop
  | number (n : Number) : IsOperand (.ofNumber n)
  | unit : IsOperand (.tuple [])

theorem ofNumber_ne_unit (n : Number) : Value.ofNumber n ≠ .tuple [] := by
  cases n <;> nofun

section

variable {h h' : Heap} {op : BinaryOp} {v w u : Value}

/-- The empty tuple, repeated, is the empty tuple. -/
theorem repeated_unit (h : Heap) (count : Value) {y : Yield} (hu : y = .ok (u, h'))
    (hy : Operator.repeatSequence h (.tuple []) count = some y) : u = .tuple [] := by
  subst hu
  unfold Operator.repeatSequence at hy
  dsimp only at hy
  split at hy
  · split at hy
    · cases hy
      rfl
    · cases hy
  · cases hy

variable (hop : op ∈ [BinaryOp.add, .sub, .mul, .div, .floorDiv, .pow])

include hop

theorem binary_unit_left (hw : IsOperand w)
    (hu : Operator.binary h op (.tuple []) w = .ok (u, h')) : u = .tuple [] := by
  simp only [List.mem_cons, List.not_mem_nil, or_false] at hop
  cases hw with
  | number b =>
    rcases hop with rfl | rfl | rfl | rfl | rfl | rfl
    · cases b <;> cases hu
    · cases b <;> cases hu
    · cases b with
      | int n => exact repeated_unit h (.int n) hu rfl
      | float x => exact repeated_unit h (.float x) hu rfl
    · cases b <;> cases hu
    · cases b <;> cases hu
    · cases b <;> cases hu
  | unit =>
    rcases hop with rfl | rfl | rfl | rfl | rfl | rfl
    · cases hu
      rfl
    · cases hu
    · exact repeated_unit h (.tuple []) hu rfl
    · cases hu
    · cases hu
    · cases hu

theorem binary_unit_right (a : Number)
    (hu : Operator.binary h op (.ofNumber a) (.tuple []) = .ok (u, h')) : u = .tuple [] := by
  simp only [List.mem_cons, List.not_mem_nil, or_false] at hop
  rcases hop with rfl | rfl | rfl | rfl | rfl | rfl
  · cases a <;> cases hu
  · cases a <;> cases hu
  · cases a with
    | int n => exact repeated_unit h (.int n) hu rfl
    | float x => exact repeated_unit h (.float x) hu rfl
  · cases a <;> cases hu
  · cases a <;> cases hu
  · cases a <;> cases hu

/-- An operator gives a number for two numbers, and else the empty tuple at most. -/
theorem binary_isOperand (hv : IsOperand v) (hw : IsOperand w)
    (hu : Operator.binary h op v w = .ok (u, h')) :
    (∃ a b n, v = .ofNumber a ∧ w = .ofNumber b ∧ u = .ofNumber n) ∨ u = .tuple [] := by
  cases hv with
  | unit => exact .inr (binary_unit_left hop hw hu)
  | number a =>
    cases hw with
    | unit => exact .inr (binary_unit_right hop a hu)
    | number b =>
      unfold Operator.binary at hu
      simp only [number?_ofNumber] at hu
      split at hu
      · obtain ⟨n, -, hn⟩ := exceptMap_eq_ok.1 hu
        exact .inl ⟨a, b, n, rfl, rfl, (congrArg Prod.fst hn).symm⟩
      · cases hu

end

/-- No powers, and no quotients that are rounded down. -/
def WithoutPowers (sites : List Site) : Prop :=
  ∀ op left right, .evaluation (.binary op left right) ∈ sites → op ≠ .pow ∧ op ≠ .floorDiv

theorem binary_of_applyBinary {op : BinaryOp} {v w u : Value} {m m' : Machine}
    (h : applyBinary op v w m = .ok u m') :
    ∃ h', Operator.binary m.heap op v w = .ok (u, h') := by
  rw [applyBinary_apply] at h
  cases hc : checkOperands m.heap op v w with
  | error e =>
    rw [hc] at h
    cases h
  | ok _ =>
    rw [hc] at h
    cases hy : Operator.binary m.heap op v w with
    | error f =>
      rw [hy] at h
      cases h
    | ok p =>
      rw [hy] at h
      obtain ⟨_, _, -, h⟩ := bind_eq_ok.1 h
      cases h
      exact ⟨p.2, rfl⟩

theorem Expr.Spelled.ne_name {e : Expr} (h : e.Spelled) (id : String) : e ≠ .name id := by
  rintro rfl
  cases h

theorem eval_call {f : Expr} (hf : ∀ id, f ≠ .name id) (s : Scope) (arguments : List Expr)
    (keywords : Bool) : (Expr.call f arguments keywords).eval s =
      Run.tick s >>= fun _ => Run.refuse (.forbiddenFunction f.kind) := by
  cases f with
  | name id => exact absurd rfl (hf id)
  | _ => simp only [Expr.eval]

/-- **A tree that is evaluated to a number is calculated to it**, if it has no powers. -/
theorem Expr.Spelled.eval_ok {e : Expr} (he : e.Spelled) {s : Scope} {m m' : Machine} {v : Value}
    (h : e.eval s m = .ok v m') :
    IsOperand v ∧ ∀ n, v = .ofNumber n → WithoutPowers e.sites → e.calculate = .ok n := by
  induction he generalizing m m' v with
  | number a =>
    rw [Expr.eval, bind_eq_ok] at h
    obtain ⟨-, m₁, -, h⟩ := h
    have hv : v = .ofNumber a := by cases a <;> cases h <;> rfl
    subst hv
    refine ⟨.number a, fun n hn _ => ?_⟩
    cases a <;> cases n <;> cases hn <;> rfl
  | ellipsis =>
    rw [Expr.eval, bind_eq_ok] at h
    obtain ⟨-, m₁, -, h⟩ := h
    cases h
  | unit =>
    rw [Expr.eval, bind_eq_ok] at h
    obtain ⟨-, m₁, -, h⟩ := h
    simp only [evalAll] at h
    cases h
    exact ⟨.unit, fun n hn => absurd hn.symm (ofNumber_ne_unit n)⟩
  | @signed op e hop he ih =>
    rw [eval_signed hop, bind_eq_ok] at h
    obtain ⟨-, m₁, -, h⟩ := h
    obtain ⟨w, m₂, hw, h⟩ := bind_eq_ok.1 h
    obtain ⟨hoperand, hcalculate⟩ := ih hw
    cases hoperand with
    | unit => rcases hop with rfl | rfl <;> cases h
    | number a =>
      rw [applyUnary_ofNumber hop] at h
      cases h
      refine ⟨.number _, fun n hn hsites => ?_⟩
      have hended : ended (.ok _) m' = .ok (.ofNumber n) m' := congrArg (EStateM.Result.ok · m') hn
      have hn' := Except.ok.inj (ended_eq_ok hended)
      subst hn'
      have ha := hcalculate a rfl fun op left right hmem =>
        hsites op left right (List.mem_cons_of_mem _ hmem)
      rcases hop with rfl | rfl
      · exact ha
      · exact congrArg (Except.map Number.neg) ha
  | @binary op left right hop hl hr ihl ihr =>
    rw [Expr.eval, bind_eq_ok] at h
    obtain ⟨-, m₁, -, h⟩ := h
    obtain ⟨a, m₂, ha, h⟩ := bind_eq_ok.1 h
    obtain ⟨b, m₃, hb, h⟩ := bind_eq_ok.1 h
    obtain ⟨hoperand, hleft⟩ := ihl ha
    obtain ⟨hoperand', hright⟩ := ihr hb
    obtain ⟨h', hbinary⟩ := binary_of_applyBinary h
    rcases binary_isOperand hop hoperand hoperand' hbinary with ⟨a, b, c, rfl, rfl, rfl⟩ | rfl
    · refine ⟨.number c, fun n hn hsites => ?_⟩
      have hself := hsites op left right List.mem_cons_self
      have harithmetic : isArithmeticOp op := by
        simp only [List.mem_cons, List.not_mem_nil, or_false] at hop
        rcases hop with rfl | rfl | rfl | rfl | rfl | rfl
        · rfl
        · rfl
        · rfl
        · rfl
        · exact absurd rfl hself.2
        · exact absurd rfl hself.1
      have ha := hleft a rfl fun op left right hmem => hsites op left right
        (List.mem_cons_of_mem _ (List.mem_append_left _ hmem))
      have hb := hright b rfl fun op left right hmem => hsites op left right
        (List.mem_cons_of_mem _ (List.mem_append_right _ hmem))
      obtain ⟨q, -, hq⟩ := calculateBinary_eq harithmetic m₃.heap a b
      rw [hn, applyBinary_ofNumber harithmetic hq] at h
      unfold Expr.calculate
      rw [if_pos harithmetic, ha, hb]
      change (calculateBinary op a b).getD _ = _
      rw [hq]
      exact ended_eq_ok h
    · exact ⟨.unit, fun n hn => absurd hn.symm (ofNumber_ne_unit n)⟩
  | @call f hf arguments keywords ih =>
    rw [eval_call hf.ne_name, bind_eq_ok] at h
    obtain ⟨-, m₁, -, h⟩ := h
    cases h

/-! ## Texts -/

/-- A sanitized text holds characters of formulas, also without the blanks around it. -/
theorem spelled_trim_sanitize (t : String) : Spelled (Text.trim (sanitize t)).toList := by
  have hsanitized : Spelled (sanitize t).toList := by
    unfold sanitize
    rw [String.toList_ofList]
    exact fun c hc => (List.mem_filter.1 hc).2
  intro c hc
  unfold Text.trim Text.trimEnd Text.trimStart at hc
  rw [String.toList_ofList] at hc
  have hstart := (List.dropWhile_suffix _).mem (List.mem_reverse.1 hc)
  exact hsanitized c ((List.dropWhile_suffix _).mem (List.mem_reverse.1 hstart))

/-- The tree of a text that is calculated is the tree that is evaluated, whatever characters have
    names. -/
theorem exists_tree {t : String} {r : Except Error Number} (h : calculate t = r)
    (hempty : r ≠ .error .emptyArithmetic)
    (hmalformed : r ≠ .error (.malformedArithmetic (Text.trim (sanitize t)))) :
    ∃ e, (∀ names, parseExpression names (.text (sanitize t)) = .ok e) ∧ e.calculate = r := by
  have hnames := fun names => Expr.ofText?_names names (spelled_trim_sanitize t)
  unfold calculate at h
  unfold parseExpression
  dsimp only at h ⊢
  simp only [hnames]
  by_cases hblank : (Text.trim (sanitize t)).isEmpty
  · rw [if_pos hblank] at h
    exact absurd h.symm hempty
  · rw [if_neg hblank] at h
    simp only [if_neg hblank]
    cases he : Expr.ofText? Text.noNames (Text.trim (sanitize t)) with
    | some e =>
      rw [he] at h
      exact ⟨e, fun _ => rfl, h⟩
    | none =>
      rw [he] at h
      exact absurd h.symm hmalformed

theorem spelled_of_parseExpression {names : Text.CharNames} {t : String} {e : Expr}
    (h : parseExpression names (.text (sanitize t)) = .ok e) :
    e.Spelled ∧ calculate t = e.calculate := by
  unfold parseExpression at h
  unfold calculate
  dsimp only at h ⊢
  rw [Expr.ofText?_names names (spelled_trim_sanitize t)] at h
  by_cases hblank : (Text.trim (sanitize t)).isEmpty
  · rw [if_pos hblank] at h
    cases h
  · rw [if_neg hblank] at h ⊢
    cases he : Expr.ofText? Text.noNames (Text.trim (sanitize t)) with
    | some e' =>
      rw [he] at h
      cases h
      exact ⟨Expr.ofText?_spelled (spelled_trim_sanitize t) he, rfl⟩
    | none =>
      rw [he] at h
      cases h

/-- A text that is calculated without being refused is evaluated so. -/
theorem evaluate_of_calculate {t : String} {r : Except Error Number} (h : calculate t = r)
    (hr : ∀ e, r = .error e → e.IsArithmetic) :
    ∃ n : Nat, ∀ (s : Scope) (m : Machine), s.deadline = none → (m.steps + n : Nat) ≤ s.budget →
      ∃ m', evaluate s (.text (sanitize t)) m = ended r m' := by
  obtain ⟨e, he, hcalculate⟩ := exists_tree h (fun hempty => hr _ hempty)
    fun hmalformed => hr _ hmalformed
  have hform : ∀ kind, e.calculate ≠ .error (.unsupportedArithmetic kind) := by
    intro kind hkind
    exact hr _ (hcalculate.symm.trans hkind)
  obtain ⟨n, hn⟩ := Expr.EndsAs.of_calculate e hform
  refine ⟨n, fun s m hdeadline hbudget => ?_⟩
  obtain ⟨m', -, heval⟩ := hn s m hdeadline hbudget
  refine ⟨m', ?_⟩
  unfold evaluate
  rw [he, ← hcalculate]
  exact heval

/-- **The two evaluators of arithmetic agree.**  What a text is calculated to, its sanitized text is
    evaluated to with enough steps; the errors of arithmetic are the same; and a number that the
    sanitized text is evaluated to is the one that it is calculated to, if the text has no powers
    and no quotients that are rounded down. -/
theorem evaluators_agree (t : String) :
    (∀ n, calculate t = .ok n → ∃ steps : Nat, ∀ (s : Scope) (m : Machine), s.deadline = none →
      (m.steps + steps : Nat) ≤ s.budget →
      ∃ m', evaluate s (.text (sanitize t)) m = .ok (.ofNumber n) m') ∧
    (∀ e, calculate t = .error e → e.IsArithmetic → ∃ steps : Nat, ∀ (s : Scope) (m : Machine),
      s.deadline = none → (m.steps + steps : Nat) ≤ s.budget →
      ∃ m', evaluate s (.text (sanitize t)) m = .error (.error e) m') ∧
    ∀ (s : Scope) (m m' : Machine) (n : Number),
      evaluate s (.text (sanitize t)) m = .ok (.ofNumber n) m' →
      WithoutPowers (expressionSites s.charNames (.text (sanitize t))) → calculate t = .ok n := by
  refine ⟨fun n hn => ?_, fun e he harithmetic => ?_, fun s m m' n hn hsites => ?_⟩
  · have hnot : ∀ e : Error, Except.ok n = .error e → e.IsArithmetic := nofun
    exact evaluate_of_calculate hn hnot
  · have hkind : ∀ e', (.error e : Except Error Number) = .error e' → e'.IsArithmetic := by
      intro e' he'
      rwa [← Except.error.inj he']
    exact evaluate_of_calculate he hkind
  · unfold evaluate at hn
    unfold expressionSites at hsites
    cases hparse : parseExpression s.charNames (.text (sanitize t)) with
    | error e =>
      rw [hparse] at hn
      cases hn
    | ok e =>
      rw [hparse] at hn hsites
      obtain ⟨hspelled, hcalculate⟩ := spelled_of_parseExpression hparse
      rw [hcalculate]
      exact (hspelled.eval_ok hn).2 n rfl hsites

end Rulebook.Script
