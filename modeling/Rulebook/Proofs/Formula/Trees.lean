/-
  The trees that the characters of formulas write.

  Beside formulas, a sanitized text may write powers, quotients rounded down, the ellipsis, the
  empty tuple, and calls of what is no name.  Every form of the grammar either needs a token that
  the characters of formulas do not spell, or gives one of these trees.

  * `Spells`: what the forms give up to a depth of reading;
  * `spells`: by induction on the depth, with a step for each form;
  * `Expr.ofText?_spelled`: whole texts.
-/
import Rulebook.Proofs.Formula.Spelling
import Rulebook.Script.Grammar

namespace Rulebook.Script

/-! ## Trees -/

/-- Tokens that the characters of formulas can spell. -/
def AllSpelled (ts : List Token) : Prop :=
  ∀ t ∈ ts, t.Spelled

namespace AllSpelled

variable {t : Token} {ts : List Token}

theorem tail (h : AllSpelled (t :: ts)) : AllSpelled ts :=
  fun u hu => h u (List.mem_cons_of_mem t hu)

theorem sign {s : String} (h : AllSpelled (.sign s :: ts)) : s ∈ formulaSigns := by
  cases h _ List.mem_cons_self
  assumption

theorem not_word {s : String} (h : AllSpelled (.word s :: ts)) : False :=
  nomatch h _ List.mem_cons_self

end AllSpelled

/-- A tree that tokens of formulas can write. Beside formulas these are powers, quotients rounded
    down, the ellipsis, the empty tuple and calls of what is no name. -/
inductive Expr.Spelled : Expr → Prop
  | number (n : Number) : Spelled (.constant (Numeral.literal n))
  | ellipsis : Spelled (.constant .foreign)
  | unit : Spelled (.tuple [])
  | signed {op : UnaryOp} {e : Expr} (hop : op = .plus ∨ op = .minus) (he : Spelled e) :
    Spelled (.unary op e)
  | binary {op : BinaryOp} {left right : Expr}
    (hop : op ∈ [.add, .sub, .mul, .div, .floorDiv, .pow]) (hl : Spelled left)
    (hr : Spelled right) : Spelled (.binary op left right)
  | call {f : Expr} (hf : Spelled f) (arguments : List Expr) (keywords : Bool) :
    Spelled (.call f arguments keywords)

theorem Expr.Spelled.ne_starred {e : Expr} (h : e.Spelled) (e' : Expr) : e ≠ .starred e' := by
  rintro rfl
  cases h

/-- A tree that tokens of formulas can write, or one that is unpacked. -/
def Expr.SpelledItem (e : Expr) : Prop :=
  e.Spelled ∨ ∃ e', e = .starred e'

namespace Grammar

variable {α β : Type} {Q : α → Prop} {Q' : β → Prop}

/-- A form is read from tokens of formulas, and tokens of formulas are left. -/
def Takes (Q : α → Prop) (r : Option (α × List Token)) : Prop :=
  ∀ a rest, r = some (a, rest) → Q a ∧ AllSpelled rest

theorem Takes.none : Takes Q none := nofun

theorem Takes.some {a : α} {rest : List Token} (ha : Q a) (hrest : AllSpelled rest) :
    Takes Q (some (a, rest)) := by
  rintro a' rest' h
  cases h
  exact ⟨ha, hrest⟩

theorem Takes.bind {x : Option (α × List Token)} {f : α × List Token → Option (β × List Token)}
    (hx : Takes Q x) (hf : ∀ a rest, Q a → AllSpelled rest → Takes Q' (f (a, rest))) :
    Takes Q' (x >>= f) := by
  intro b rest h
  obtain ⟨⟨a, tail⟩, ha, hb⟩ := Option.bind_eq_some_iff.1 h
  obtain ⟨hQ, htail⟩ := hx a tail ha
  exact hf a tail hQ htail b rest hb

theorem Takes.bind_sign {f : List Token → Option (β × List Token)} (s : String) {ts : List Token}
    (hts : AllSpelled ts) (hf : ∀ rest, AllSpelled rest → Takes Q' (f rest)) :
    Takes Q' (sign? s ts >>= f) := by
  intro b rest h
  obtain ⟨tail, htail, hb⟩ := Option.bind_eq_some_iff.1 h
  refine hf tail ?_ b rest hb
  unfold sign? at htail
  split at htail
  · split_ifs at htail
    cases htail
    exact hts.tail
  · cases htail

/-- What is read from tokens of formulas at a depth. -/
structure Spells (n : Nat) : Prop where
  items : ∀ {ts}, AllSpelled ts →
    Takes (fun r => ∃ e, r = ([e], false) ∧ e.Spelled) (items? n .plain ts [])
  plain : ∀ {ts}, AllSpelled ts → Takes Expr.Spelled (item? n .plain ts)
  item : ∀ {ts}, AllSpelled ts → Takes Expr.SpelledItem (item? n .named ts)
  named : ∀ {ts}, AllSpelled ts → Takes Expr.Spelled (named? n ts)
  expression : ∀ {ts}, AllSpelled ts → Takes Expr.Spelled (expression? n ts)
  disjunction : ∀ {ts}, AllSpelled ts → Takes Expr.Spelled (disjunction? n ts)
  conjunction : ∀ {ts}, AllSpelled ts → Takes Expr.Spelled (conjunction? n ts)
  inversion : ∀ {ts}, AllSpelled ts → Takes Expr.Spelled (inversion? n ts)
  binary : ∀ {ts} (level), AllSpelled ts → Takes Expr.Spelled (binary? n level ts)
  binaryRest : ∀ {ts} (level) {e}, e.Spelled → AllSpelled ts →
    Takes Expr.Spelled (binaryRest? n level e ts)
  factor : ∀ {ts}, AllSpelled ts → Takes Expr.Spelled (factor? n ts)
  primary : ∀ {ts}, AllSpelled ts → Takes Expr.Spelled (primary? n ts)
  trailers : ∀ {ts} {e}, e.Spelled → AllSpelled ts → Takes Expr.Spelled (trailers? n e ts)
  arguments : ∀ {ts}, AllSpelled ts → Takes (fun _ => True) (arguments? n ts)
  argumentList : ∀ {ts} (phase before), AllSpelled ts →
    Takes (fun _ => True) (argumentList? n phase ts before)
  members : ∀ {ts}, AllSpelled ts →
    Takes (fun ms => ∃ e, ms = .items [e] false ∧ e.SpelledItem) (members? n ts)
  membersRest : ∀ {ts} {e}, e.SpelledItem → AllSpelled ts →
    Takes (fun ms => ∃ e, ms = .items [e] false ∧ e.SpelledItem) (membersRest? n e ts)
  atom : ∀ {ts}, AllSpelled ts → Takes Expr.Spelled (atom? n ts)

theorem comparison?_spelled {ts : List Token} (hts : AllSpelled ts) : comparison? ts = none := by
  unfold comparison?
  split <;> first | rfl | exact hts.not_word.elim | exact absurd hts.sign (by decide)

theorem operator?_spelled {level : Nat} {s : String} {op : BinaryOp} (hs : s ∈ formulaSigns)
    (h : operator? level s = some op) : op ∈ [.add, .sub, .mul, .div, .floorDiv, .pow] := by
  unfold operator? at h
  split at h <;> cases h <;> first | decide | exact absurd hs (by decide)

namespace Spells

variable {n : Nat} (h : Spells n) {ts : List Token} (hts : AllSpelled ts)

include h hts

theorem items_succ :
    Takes (fun r => ∃ e, r = ([e], false) ∧ e.Spelled) (items? (n + 1) .plain ts []) := by
  refine (h.plain hts).bind fun e rest he hrest => ?_
  dsimp only
  split
  · exact absurd hrest.sign (by decide)
  · exact .some ⟨e, rfl, he⟩ hrest

theorem item_succ : Takes Expr.SpelledItem (item? (n + 1) .named ts) := by
  unfold item?
  dsimp only
  split
  · refine (h.binary 0 hts.tail).bind fun e rest _ hrest => ?_
    exact .some (.inr ⟨e, rfl⟩) hrest
  · exact fun e rest he => (h.named hts e rest he).imp .inl id

theorem named_succ : Takes Expr.Spelled (named? (n + 1) ts) := by
  unfold named?
  split
  · exact hts.not_word.elim
  · refine (h.expression hts).bind fun e rest he hrest => ?_
    dsimp only
    split
    · exact .none
    · exact .some he hrest

theorem expression_succ : Takes Expr.Spelled (expression? (n + 1) ts) := by
  unfold expression?
  split
  · exact hts.not_word.elim
  · refine (h.disjunction hts).bind fun e rest he hrest => ?_
    dsimp only
    split
    · exact hrest.not_word.elim
    · exact .some he hrest

theorem disjunction_succ : Takes Expr.Spelled (disjunction? (n + 1) ts) := by
  refine (h.conjunction hts).bind fun e rest he hrest => ?_
  dsimp only
  split
  · exact hrest.not_word.elim
  · exact .some he hrest

theorem conjunction_succ : Takes Expr.Spelled (conjunction? (n + 1) ts) := by
  refine (h.inversion hts).bind fun e rest he hrest => ?_
  dsimp only
  split
  · exact hrest.not_word.elim
  · exact .some he hrest

theorem inversion_succ : Takes Expr.Spelled (inversion? (n + 1) ts) := by
  unfold inversion?
  split
  · exact hts.not_word.elim
  · refine (h.binary 0 hts).bind fun e rest he hrest => ?_
    dsimp only
    rw [comparison?_spelled hrest]
    exact .some he hrest

theorem binary_succ (level : Nat) : Takes Expr.Spelled (binary? (n + 1) level ts) := by
  unfold binary?
  split
  · exact (h.factor hts).bind fun e rest he hrest => h.binaryRest level he hrest
  · exact (h.binary (level + 1) hts).bind fun e rest he hrest => h.binaryRest level he hrest

theorem binaryRest_succ (level : Nat) {left : Expr} (hleft : left.Spelled) :
    Takes Expr.Spelled (binaryRest? (n + 1) level left ts) := by
  unfold binaryRest?
  split
  · next s rest =>
    split
    · next op hop =>
      refine (h.binary (level + 1) hts.tail).bind fun right rest' hright hrest => ?_
      exact h.binaryRest level (.binary (operator?_spelled hts.sign hop) hleft hright) hrest
    · exact .some hleft hts
  · exact .some hleft hts

theorem factor_succ : Takes Expr.Spelled (factor? (n + 1) ts) := by
  unfold factor?
  dsimp only
  split
  · exact (h.factor hts.tail).bind fun e rest he hrest => .some (.signed (.inl rfl) he) hrest
  · exact (h.factor hts.tail).bind fun e rest he hrest => .some (.signed (.inr rfl) he) hrest
  · exact absurd hts.sign (by decide)
  · split
    · exact hts.not_word.elim
    · refine (h.primary hts).bind fun e rest he hrest => ?_
      dsimp only
      split
      · refine (h.factor hrest.tail).bind fun e' rest' he' hrest' => ?_
        exact .some (.binary (by decide) he he') hrest'
      · exact .some he hrest

theorem primary_succ : Takes Expr.Spelled (primary? (n + 1) ts) :=
  (h.atom hts).bind fun _ _ he hrest => h.trailers he hrest

theorem trailers_succ {e : Expr} (he : e.Spelled) :
    Takes Expr.Spelled (trailers? (n + 1) e ts) := by
  unfold trailers?
  split
  · next rest =>
    have hname : name? rest = none := by
      unfold name?
      split
      · exact hts.tail.not_word.elim
      · rfl
    rw [hname]
    exact .none
  · refine (h.arguments hts.tail).bind fun a rest _ hrest => ?_
    exact h.trailers (he.call a.1 a.2) hrest
  · exact absurd hts.sign (by decide)
  · exact .some he hts

theorem arguments_succ : Takes (fun _ => True) (arguments? (n + 1) ts) := by
  unfold arguments?
  split
  · exact .some trivial hts.tail
  · exact h.argumentList 0 [] hts

omit h hts in
/-- After an argument the list ends, as formulas have no commas. -/
theorem argumentRest (phase : Nat) (before : List Expr) {rest : List Token}
    (hrest : AllSpelled rest) :
    Takes (fun _ => True) (
      match rest with
      | .sign ")" :: rest => some ((before.reverse, phase != 0), rest)
      | .sign "," :: .sign ")" :: rest => some ((before.reverse, phase != 0), rest)
      | .sign "," :: rest => argumentList? n phase rest before
      | _ => none) := by
  split
  · exact .some trivial hrest.tail
  · exact absurd hrest.sign (by decide)
  · exact absurd hrest.sign (by decide)
  · exact .none

theorem argumentList_succ (phase : Nat) (before : List Expr) :
    Takes (fun _ => True) (argumentList? (n + 1) phase ts before) := by
  unfold argumentList?
  dsimp only
  split
  · exact (h.expression hts.tail).bind fun _ rest _ hrest => argumentRest 2 before hrest
  · refine (h.expression hts.tail).bind fun e rest _ hrest => ?_
    dsimp only
    split
    · exact .none
    · exact argumentRest phase _ hrest
  · exact hts.not_word.elim
  · split
    · refine (h.named hts).bind fun e rest _ hrest => ?_
      dsimp only
      split
      · exact hrest.not_word.elim
      · exact argumentRest 0 _ hrest
    · exact .none

theorem members_succ : Takes (fun ms => ∃ e, ms = .items [e] false ∧ e.SpelledItem)
    (members? (n + 1) ts) :=
  (h.item hts).bind fun _ _ he hrest => h.membersRest he hrest

omit h in
theorem membersRest_succ {e : Expr} (he : e.SpelledItem) :
    Takes (fun ms => ∃ e, ms = .items [e] false ∧ e.SpelledItem) (membersRest? (n + 1) e ts) := by
  unfold membersRest?
  split
  · exact absurd hts.sign (by decide)
  · exact hts.not_word.elim
  · exact .some ⟨e, rfl, he⟩ hts

theorem atom_succ : Takes Expr.Spelled (atom? (n + 1) ts) := by
  unfold atom?
  split
  · exact hts.not_word.elim
  · exact hts.not_word.elim
  · exact hts.not_word.elim
  · exact hts.not_word.elim
  · next c rest =>
    cases hts _ List.mem_cons_self
    exact .some (.number _) hts.tail
  · exact .some .ellipsis hts.tail
  · nomatch hts _ List.mem_cons_self
  · split
    · exact .some .unit hts.tail.tail
    · exact hts.tail.not_word.elim
    · refine (h.members hts.tail).bind fun ms rest hms hrest => ?_
      obtain ⟨e, rfl, he⟩ := hms
      refine Takes.bind_sign ")" hrest fun rest' hrest' => ?_
      rcases he with he | ⟨e', rfl⟩
      · split
        · next heq => cases heq
        · next heq =>
          cases heq
          exact absurd rfl (he.ne_starred _)
        · next heq =>
          cases heq
          exact .some he hrest'
      · exact .none
  · exact absurd hts.sign (by decide)
  · exact absurd hts.sign (by decide)
  · exact .none

end Spells

theorem spells (n : Nat) : Spells n := by
  induction n with
  | zero => constructor <;> intros <;> exact .none
  | succ n ih =>
    exact {
      items := fun hts => ih.items_succ hts
      plain := fun hts => ih.expression hts
      item := fun hts => ih.item_succ hts
      named := fun hts => ih.named_succ hts
      expression := fun hts => ih.expression_succ hts
      disjunction := fun hts => ih.disjunction_succ hts
      conjunction := fun hts => ih.conjunction_succ hts
      inversion := fun hts => ih.inversion_succ hts
      binary := fun level hts => ih.binary_succ hts level
      binaryRest := fun level _ he hts => ih.binaryRest_succ hts level he
      factor := fun hts => ih.factor_succ hts
      primary := fun hts => ih.primary_succ hts
      trailers := fun he hts => ih.trailers_succ hts he
      arguments := fun hts => ih.arguments_succ hts
      argumentList := fun phase before hts => ih.argumentList_succ hts phase before
      members := fun hts => ih.members_succ hts
      membersRest := fun he hts => Spells.membersRest_succ hts he
      atom := fun hts => ih.atom_succ hts }

end Grammar

/-- The characters of formulas give no character by name. -/
theorem Expr.ofText?_names (names : Text.CharNames) {s : String} (hs : Script.Spelled s.toList) :
    Expr.ofText? names s = Expr.ofText? Text.noNames s := by
  unfold Expr.ofText?
  cases hts : tokens? s.toList with
  | none => rw [Option.bind_none, Option.bind_none]
  | some ts =>
    have hplain : ∀ t ∈ ts, t.isPlain = true := fun t ht => (tokens?_spelled hs hts t ht).isPlain
    rw [Option.bind_some, Option.bind_some, Token.map_spellOut names hplain,
      Token.map_spellOut Text.noNames hplain]

/-- **The characters of formulas write only trees of theirs.** -/
theorem Expr.ofText?_spelled {names : Text.CharNames} {s : String} {e : Expr}
    (hs : Script.Spelled s.toList) (h : Expr.ofText? names s = some e) : e.Spelled := by
  obtain ⟨ts, hts, h⟩ := Option.bind_eq_some_iff.1 h
  have hspelled := tokens?_spelled hs hts
  rw [Token.map_spellOut names fun t ht => (hspelled t ht).isPlain] at h
  obtain ⟨⟨es, rest⟩, hitems, h⟩ := Option.bind_eq_some_iff.1 h
  obtain ⟨⟨e', rfl, he⟩, -⟩ := (Grammar.spells _).items hspelled es rest hitems
  dsimp only at h
  split_ifs at h
  cases h
  exact he
end Rulebook.Script
