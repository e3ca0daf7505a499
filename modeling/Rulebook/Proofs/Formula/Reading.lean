/-
  Formulas are read as the trees that they are.

  The reader of expressions goes from the loosest level of operators to the tightest, and joins
  operands of one level from left to right.  What it does with an operand is stated by what it does
  with the tokens after it (`Reads`), so that the operands of a chain follow each other.

  * `Reads.loosen`: an operand of a level is one of the looser levels;
  * `reads`: the tokens of a formula are read as its expression;
  * `ofText?_chars`: so is the text of a formula;
  * `calculate_expr`: the value of the expression is that of the formula.
-/
import Rulebook.Proofs.Formula.Tokens
import Rulebook.Script.Grammar

namespace Rulebook.Script.Formula

open Grammar

/-- The expression of a formula. -/
def expr : Formula Numeral → Expr
  | leaf n => .constant (Numeral.literal n.value)
  | group _ _ f => f.expr
  | signed negative _ f => .unary (if negative then .minus else .plus) f.expr
  | binary op _ _ left right => .binary op.operator left.expr right.expr

/-! ## What stands around operands -/

/-- Tokens that start with an operand of a formula. -/
inductive Opens : List Token → Prop
  | number (c : Constant) (rest : List Token) : Opens (.number c :: rest)
  | bracket (rest : List Token) : Opens (.sign "(" :: rest)
  | plus (rest : List Token) : Opens (.sign "+" :: rest)
  | minus (rest : List Token) : Opens (.sign "-" :: rest)

/-- Tokens that may follow an operand where operators up to a level are joined. -/
inductive Ends (level : Nat) : List Token → Prop
  | nil : Ends level []
  | bracket (rest : List Token) : Ends level (.sign ")" :: rest)
  | operator (op : Operation) (rest : List Token) : op.level ≤ level →
      Ends level (.sign op.sign.toString :: rest)

theorem Opens.append {ts : List Token} (h : Opens ts) (us : List Token) : Opens (ts ++ us) := by
  cases h <;> constructor

theorem Ends.mono {level level' : Nat} {rest : List Token} (h : Ends level rest)
    (hle : level ≤ level') : Ends level' rest := by
  cases h with
  | nil => exact .nil
  | bracket rest => exact .bracket rest
  | operator op rest hop => exact .operator op rest (hop.trans hle)

theorem opens_tokens (f : Formula Numeral) : Opens f.tokens := by
  induction f with
  | leaf => exact .number _ _
  | group => exact .bracket _
  | signed negative =>
    cases negative
    · exact .plus _
    · exact .minus _
  | binary _ _ _ left right ihl => exact ihl.append _

theorem operator?_sign (op : Operation) :
    operator? op.level op.sign.toString = some op.operator := by
  cases op <;> rfl

theorem operator?_of_lt {op : Operation} {level : Nat} (h : op.level < level) :
    operator? level op.sign.toString = none := by
  unfold operator?
  split <;> first | rfl | skip
  all_goals
    cases op <;> contradiction

/-! ## Levels of operators -/

section

variable {level n : Nat} {ts rest : List Token} {e : Expr}

theorem binaryRest?_of_ends (h : Ends level rest) {level' : Nat} (hlt : level < level') :
    binaryRest? (n + 1) level' e rest = some (e, rest) := by
  cases h with
  | nil => rfl
  | bracket rest =>
    have hnone : operator? level' ")" = none := by
      unfold operator?
      split <;> first | rfl | contradiction
    unfold binaryRest?
    dsimp only
    rw [hnone]
  | operator op rest hop =>
    unfold binaryRest?
    dsimp only
    rw [operator?_of_lt (hop.trans_lt hlt)]

/-- Tokens are read as an operand of a level: reading them at that level goes on with what is made
    of the operand and the tokens after it. `cost` is how much deeper that is. -/
def Reads (level : Nat) (ts : List Token) (e : Expr) (rest : List Token) (cost : Nat) : Prop :=
  ∀ k r, (∀ n, k ≤ n → binaryRest? n level e rest = r) → ∀ n, k + cost ≤ n → binary? n level ts = r

theorem Reads.of_factor {cost : Nat}
    (h : ∀ n, cost ≤ n → factor? n ts = some (e, rest)) : Reads 6 ts e rest (cost + 1) := by
  intro k r hr n hn
  obtain ⟨n, rfl⟩ : ∃ m, n = m + 1 := ⟨n - 1, by omega⟩
  change (factor? n ts).bind _ = _
  rw [h n (by omega)]
  exact hr n (by omega)

theorem Reads.binary? {cost : Nat} {level' : Nat} (h : Reads level' ts e rest cost)
    (hends : Ends level rest) (hlt : level < level') (hn : cost + 1 ≤ n) :
    binary? n level' ts = some (e, rest) := by
  refine h 1 _ (fun m hm => ?_) n (by omega)
  obtain ⟨m, rfl⟩ : ∃ j, m = j + 1 := ⟨m - 1, by omega⟩
  exact binaryRest?_of_ends hends hlt

/-- An operand of a level is one of the next looser level. -/
theorem Reads.loosen {cost : Nat} (h : Reads (level + 1) ts e rest cost) (hends : Ends level rest)
    (hlevel : level < 6) : Reads level ts e rest (cost + 2) := by
  intro k r hr n hn
  obtain ⟨n, rfl⟩ : ∃ m, n = m + 1 := ⟨n - 1, by omega⟩
  unfold Grammar.binary?
  rw [if_neg (by omega), h.binary? hends (Nat.lt_succ_self level) (by omega)]
  exact hr n (by omega)

theorem Reads.loosen_to {cost : Nat} {level' : Nat} (h : Reads level' ts e rest cost)
    (hends : Ends level rest) (hle : level ≤ level') (hlevel : level' ≤ 6) :
    Reads level ts e rest (cost + 2 * (level' - level)) := by
  induction hle using Nat.decreasingInduction with
  | self => simpa using h
  | of_succ j hj ih =>
    have hnext := (ih (hends.mono (Nat.le_succ j))).loosen hends (by omega)
    rwa [show cost + 2 * (level' - (j + 1)) + 2 = cost + 2 * (level' - j) by omega] at hnext

/-! ## Operands -/

/-- What is read at the loosest level is read as an expression where an operand starts and where no
    operator follows. -/
theorem expression?_of_binary (hts : Opens ts) (hends : Ends 0 rest)
    (h : Grammar.binary? n 0 ts = some (e, rest)) : expression? (n + 4) ts = some (e, rest) := by
  have hinversion : inversion? (n + 1) ts = some (e, rest) := by
    cases hts
    all_goals
      change (Grammar.binary? n 0 _).bind _ = _
      rw [h]
      cases hends with
      | nil | bracket => rfl
      | operator op _ hop => cases op <;> contradiction
  have hconjunction : conjunction? (n + 2) ts = some (e, rest) := by
    change (inversion? (n + 1) ts).bind _ = _
    rw [hinversion]
    cases hends <;> rfl
  have hdisjunction : disjunction? (n + 3) ts = some (e, rest) := by
    change (conjunction? (n + 2) ts).bind _ = _
    rw [hconjunction]
    cases hends <;> rfl
  cases hts
  all_goals
    change (disjunction? (n + 3) _).bind _ = _
    rw [hdisjunction]
    cases hends <;> rfl

theorem factor?_of_atom (hts : Opens ts) (hsign : ∀ s ∈ ["+", "-"], ts.head? ≠ some (.sign s))
    (hends : Ends 6 rest) (h : atom? (n + 1) ts = some (e, rest)) :
    factor? (n + 3) ts = some (e, rest) := by
  have hprimary : primary? (n + 2) ts = some (e, rest) := by
    change (atom? (n + 1) ts).bind _ = _
    rw [h]
    cases hends with
    | nil | bracket => rfl
    | operator op => cases op <;> rfl
  cases hts with
  | plus => exact absurd rfl (hsign "+" (by decide))
  | minus => exact absurd rfl (hsign "-" (by decide))
  | number | bracket =>
    change (primary? (n + 2) _).bind _ = _
    rw [hprimary]
    cases hends with
    | nil | bracket => rfl
    | operator op => cases op <;> rfl

/-- An expression between brackets is an atom. -/
theorem atom?_of_expression (hts : Opens ts) (he : ∀ e', e ≠ .starred e')
    (h : expression? n (ts ++ .sign ")" :: rest) = some (e, .sign ")" :: rest)) :
    atom? (n + 4) (.sign "(" :: (ts ++ .sign ")" :: rest)) = some (e, rest) := by
  have hitem : item? (n + 2) .named (ts ++ .sign ")" :: rest) = some (e, .sign ")" :: rest) := by
    cases hts
    all_goals
      change (expression? n _).bind _ = _
      rw [h]
      rfl
  have hmembers : members? (n + 3) (ts ++ .sign ")" :: rest) =
      some (.items [e] false, .sign ")" :: rest) := by
    change (item? (n + 2) .named _).bind _ = _
    rw [hitem]
    rfl
  cases hts
  all_goals
    change (members? (n + 3) _).bind _ = _
    rw [hmembers]
    cases e with
    | starred e' => exact absurd rfl (he e')
    | _ => rfl

end

theorem expr_ne_starred (f : Formula Numeral) (e : Expr) : f.expr ≠ .starred e := by
  induction f with
  | leaf | signed | binary => nofun
  | group _ _ f ih => exact ih

/-! ## Formulas -/

/-- How a formula is read: at its own level and the looser ones, and as an operand if it is no
    operation. The cost of a level is what `loosen_to` adds at most. -/
structure ReadsAs (f : Formula Numeral) : Prop where
  level : ∀ level ≤ f.level, ∀ rest, Ends level rest →
    Reads level (f.tokens ++ rest) f.expr rest (20 * f.tokens.length)
  operand : f.level = 6 → ∀ rest, Ends 6 rest → ∀ n, 20 * f.tokens.length ≤ n + 14 →
    factor? n (f.tokens ++ rest) = some (f.expr, rest)

theorem level_le (f : Formula Numeral) : f.level ≤ 6 := by
  cases f with
  | leaf | group | signed => exact le_rfl
  | binary op => exact op.level_bounds.2.trans (by decide)

/-- What is read as an operand is read at every level. -/
theorem ReadsAs.of_operand {f : Formula Numeral} (h : ∀ rest, Ends 6 rest → ∀ n,
    20 * f.tokens.length ≤ n + 14 → factor? n (f.tokens ++ rest) = some (f.expr, rest)) :
    f.ReadsAs where
  level level hlevel rest hends := by
    have hle := hlevel.trans f.level_le
    have hfactor : Reads 6 (f.tokens ++ rest) f.expr rest (20 * f.tokens.length - 14 + 1) :=
      .of_factor fun n hn => h rest (hends.mono hle) n (by omega)
    have hpos : f.tokens ≠ [] := by
      rintro hnil
      have hopens := f.opens_tokens
      rw [hnil] at hopens
      cases hopens
    have hlength := List.length_pos_iff.2 hpos
    intro k r hr n hn
    exact hfactor.loosen_to hends hle le_rfl k r hr n (by omega)
  operand _ := h

theorem readsAs_leaf (a : Numeral) : (leaf a).ReadsAs := by
  refine .of_operand fun rest hends n hn => ?_
  simp only [tokens, List.length_singleton] at hn
  obtain ⟨n, rfl⟩ : ∃ m, n = m + 3 := ⟨n - 3, by omega⟩
  exact factor?_of_atom (.number _ _) (by simp [tokens]) hends rfl

theorem ReadsAs.group {f : Formula Numeral} (h : f.ReadsAs) (before after : Nat) :
    (Formula.group before after f).ReadsAs := by
  refine .of_operand fun rest hends n hn => ?_
  simp only [tokens, List.length_cons, List.length_append, List.length_nil] at hn
  obtain ⟨n, rfl⟩ : ∃ m, n = m + 10 := ⟨n - 10, by omega⟩
  have hclose : Ends 0 (.sign ")" :: rest) := .bracket rest
  have hinner : binary? n 0 (f.tokens ++ .sign ")" :: rest) =
      some (f.expr, .sign ")" :: rest) := by
    refine h.level 0 (Nat.zero_le _) _ hclose 1 _ (fun m hm => ?_) n (by omega)
    obtain ⟨m, rfl⟩ : ∃ j, m = j + 1 := ⟨m - 1, by omega⟩
    rfl
  have hexpression := expression?_of_binary (f.opens_tokens.append _) hclose hinner
  have hatom := atom?_of_expression f.opens_tokens f.expr_ne_starred hexpression
  have htokens : (Formula.group before after f).tokens ++ rest =
      .sign "(" :: (f.tokens ++ .sign ")" :: rest) := by
    simp [tokens]
  rw [htokens]
  exact factor?_of_atom (.bracket _) (by simp) hends hatom

theorem ReadsAs.signed {f : Formula Numeral} (h : f.ReadsAs) (hf : f.level = 6) (negative : Bool)
    (gap : Nat) : (Formula.signed negative gap f).ReadsAs := by
  refine .of_operand fun rest hends n hn => ?_
  simp only [tokens, List.length_cons] at hn
  obtain ⟨n, rfl⟩ : ∃ m, n = m + 1 := ⟨n - 1, by omega⟩
  have hinner := h.operand hf rest hends n (by omega)
  cases negative
  all_goals
    change (factor? n (f.tokens ++ rest)).bind _ = _
    rw [hinner]
    rfl

theorem ReadsAs.binary {left right : Formula Numeral} (hl : left.ReadsAs) (hr : right.ReadsAs)
    {op : Operation} (hleft : op.level ≤ left.level) (hright : op.level < right.level)
    (before after : Nat) : (Formula.binary op before after left right).ReadsAs where
  level level hlevel rest hends := by
    have hown : Reads op.level ((Formula.binary op before after left right).tokens ++ rest)
        (Formula.binary op before after left right).expr rest
        (20 * left.tokens.length + 20 * right.tokens.length + 2) := by
      have hends' : Ends op.level rest := hends.mono hlevel
      intro k r hrest n hn
      simp only [tokens, List.append_assoc, List.cons_append]
      refine hl.level op.level hleft _ (.operator op _ le_rfl)
        (k + 20 * right.tokens.length + 2) r (fun m hm => ?_) n (by omega)
      obtain ⟨m, rfl⟩ : ∃ j, m = j + 1 := ⟨m - 1, by omega⟩
      have hoperand := (hr.level (op.level + 1) hright rest
        (hends'.mono (Nat.le_succ _))).binary? hends' (Nat.lt_succ_self _) (by omega : _ ≤ m)
      unfold binaryRest?
      dsimp only
      rw [operator?_sign]
      dsimp only
      rw [hoperand]
      exact hrest m (by omega)
    have hbounds := op.level_bounds
    intro k r hrest n hn
    simp only [tokens, List.length_append, List.length_cons] at hn
    exact hown.loosen_to hends hlevel (by omega) k r hrest n (by omega)
  operand h := by
    have hbounds := op.level_bounds
    change op.level = 6 at h
    omega

/-- **The tokens of a formula are read as its expression.** -/
theorem reads {f : Formula Numeral} (h : f.Ordered) : f.ReadsAs := by
  induction f with
  | leaf a => exact readsAs_leaf a
  | group before after f ih => exact (ih h).group before after
  | signed negative gap f ih => exact (ih h.1).signed h.2 negative gap
  | binary op before after left right ihl ihr =>
    obtain ⟨hl, hr, hle, hlt⟩ := h
    exact (ihl hl).binary (ihr hr) hle hlt before after

/-! ## Whole texts -/

/-- **The text of a formula is read as its expression.** -/
theorem ofText?_chars {names : Text.CharNames} {f : Formula Numeral} (h : f.Ordered) :
    Expr.ofText? names (String.ofList (f.chars Numeral.chars)) =
      if f.depth ≤ 200 then some f.expr else none := by
  have hbound : 20 * f.tokens.length + 7 ≤ depthBound (f.chars Numeral.chars).length := by
    have hsteps := f.steps_le
    have htokens := f.length_tokens_le
    unfold depthBound
    omega
  have hplain : f.tokens.map (Token.spellOut names) = f.tokens :=
    Token.map_spellOut names f.isPlain_of_mem_tokens
  unfold Expr.ofText?
  rw [String.toList_ofList, String.length_ofList, tokens?_chars]
  by_cases hdepth : f.depth ≤ 200
  · rw [if_pos hdepth, if_pos hdepth]
    obtain ⟨n, hn⟩ : ∃ n, depthBound (f.chars Numeral.chars).length = n + 6 :=
      ⟨depthBound (f.chars Numeral.chars).length - 6, by omega⟩
    have hbinary : binary? n 0 (f.tokens ++ []) = some (f.expr, []) := by
      refine (reads h).level 0 (Nat.zero_le _) [] .nil 1 _ (fun m hm => ?_) n (by omega)
      obtain ⟨m, rfl⟩ : ∃ j, m = j + 1 := ⟨m - 1, by omega⟩
      rfl
    rw [List.append_nil] at hbinary
    have hexpression : item? (n + 5) .plain f.tokens = some (f.expr, []) :=
      expression?_of_binary f.opens_tokens .nil hbinary
    have hitems : items? (n + 6) .plain f.tokens [] = some (([f.expr], false), []) := by
      change (item? (n + 5) .plain f.tokens).bind _ = _
      rw [hexpression]
      rfl
    change (items? _ .plain (f.tokens.map (Token.spellOut names)) []).bind _ = _
    rw [hplain, hn, hitems]
    rfl
  · rw [if_neg hdepth, if_neg hdepth]
    rfl

/-! ## Values -/

theorem isArithmeticOp_operator (op : Operation) : isArithmeticOp op.operator := by
  cases op <;> rfl

/-- **The value of the expression is that of the formula.** -/
theorem calculate_expr (f : Formula Numeral) : f.expr.calculate = f.value Numeral.value := by
  induction f with
  | leaf n =>
    unfold expr value
    cases n.value <;> rfl
  | group _ _ f ih => exact ih
  | signed negative _ f ih =>
    cases negative with
    | false =>
      change f.expr.calculate = (f.value Numeral.value).map id
      rw [ih, Except.map_id]
      rfl
    | true => exact congrArg (Except.map Number.neg) ih
  | binary op _ _ left right ihl ihr =>
    unfold expr value Expr.calculate
    rw [if_pos (isArithmeticOp_operator op), ihl, ihr]
    rfl

end Rulebook.Script.Formula
