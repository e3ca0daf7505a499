/-
  What the characters of formulas spell.

  A sanitized text need not be a formula, but it is cut into few kinds of tokens: numbers, the signs
  that are made of characters of formulas, and the tokens of lines and blocks.

  * `number?_spelled`: a number on such characters is a numeral;
  * `GoesOn.lineStart`, `GoesOn.next`: a step of the reader;
  * `tokens?_spelled`: whole texts.
-/
import Rulebook.Proofs.Formula.Literal
import Rulebook.Proofs.Formula.Tokens

namespace Rulebook.Script

open Token

/-! ## Characters and tokens -/

/-- Characters that a formula may hold. -/
def Spelled (cs : List Char) : Prop :=
  ∀ c ∈ cs, isArithmetic c

/-- The signs that the characters of formulas can spell. -/
def formulaSigns : List String :=
  ["...", "**", "//", "+", "-", "*", "/", "(", ")", "."]

theorem mem_formulaSigns : ∀ s ∈ signs, Spelled s.toList → s ∈ formulaSigns := by
  unfold signs formulaSigns
  simp [Spelled, isArithmetic]

/-- A token that the characters of formulas can spell. -/
inductive Token.Spelled : Token → Prop
  | number (n : Number) : Spelled (.number (Numeral.literal n))
  | sign {s : String} (h : s ∈ formulaSigns) : Spelled (.sign s)
  | newline : Spelled .newline
  | indent : Spelled .indent
  | dedent : Spelled .dedent

theorem Token.Spelled.isPlain {t : Token} (h : t.Spelled) : t.isPlain = true := by
  cases h <;> rfl

namespace Spelled

variable {cs ds : List Char}

theorem of_append (h : Spelled (cs ++ ds)) : Spelled ds :=
  fun c hc => h c (List.mem_append_right cs hc)

theorem tail {c : Char} (h : Spelled (c :: cs)) : Spelled cs :=
  fun d hd => h d (List.mem_cons_of_mem c hd)

theorem ne {c : Char} (h : Spelled (c :: cs)) {d : Char} (hd : ¬isArithmetic d) : c ≠ d := by
  rintro rfl
  exact hd (h c List.mem_cons_self)

/-- The characters of formulas, by what they do to a reader. -/
theorem head {c : Char} (h : Spelled (c :: cs)) :
    c = ' ' ∨ c.isDigit ∨ c = '.' ∨ c = '(' ∨ c = ')' ∨ c ∈ ['+', '-', '*', '/'] := by
  have hc := h c List.mem_cons_self
  simp only [isArithmetic, Bool.or_eq_true, decide_eq_true_eq, List.mem_cons, List.not_mem_nil,
    or_false] at hc ⊢
  tauto

theorem markedBase?_eq_none {c : Char} (h : Spelled (c :: cs)) : Reading.markedBase? c = none := by
  unfold Reading.markedBase?
  split <;> first | rfl | exact absurd (h _ List.mem_cons_self) (by decide)

end Spelled

/-! ## Numbers -/

section

variable {cs : List Char}

theorem ending_spelled (hcs : Spelled cs) (point : Bool) (whole fraction : List Char)
    {c : Constant} {rest : List Char} (h : ending point whole fraction cs = some (c, rest)) :
    (∃ n, c = Numeral.literal n) ∧ Spelled rest := by
  have hfinish : decimalNumber?.finish point whole fraction none cs = some (c, rest) := by
    cases cs with
    | nil => exact h
    | cons d ds =>
      have he : ¬(d = 'e' ∨ d = 'E') := not_or.2 ⟨hcs.ne (by decide), hcs.ne (by decide)⟩
      have hj : ¬(d = 'j' ∨ d = 'J') := not_or.2 ⟨hcs.ne (by decide), hcs.ne (by decide)⟩
      have hexponent : exponent? (d :: ds) = some (none, d :: ds) := if_neg he
      unfold ending at h
      rw [hexponent, Option.bind_some] at h
      dsimp only at h
      rw [if_neg hj] at h
      exact (Option.ite_none_right_eq_some.1 h).2
  unfold decimalNumber?.finish at hfinish
  split_ifs at hfinish
  · cases hfinish
    exact ⟨⟨.float _, rfl⟩, hcs⟩
  · cases hfinish
    exact ⟨⟨.int _, rfl⟩, hcs⟩

theorem digitGroups?_spelled (hcs : Spelled cs) {ds rest : List Char}
    (h : digitGroups? Char.isDigit cs = some (ds, rest)) : Spelled rest := by
  obtain ⟨pre, rfl, -⟩ := digitGroups?_eq_some h
  exact hcs.of_append

theorem afterWhole_spelled (hcs : Spelled cs) (whole : List Char) {c : Constant} {rest : List Char}
    (h : afterWhole whole cs = some (c, rest)) : (∃ n, c = Numeral.literal n) ∧ Spelled rest := by
  unfold afterWhole at h
  split at h
  · next d more =>
    split_ifs at h
    · obtain ⟨⟨ds, tail⟩, hread, hend⟩ := Option.bind_eq_some_iff.1 h
      exact ending_spelled (digitGroups?_spelled hcs.tail hread) _ _ _ hend
    · exact ending_spelled hcs.tail _ _ _ h
  · exact ending_spelled hcs.tail _ _ _ h
  · exact ending_spelled hcs _ _ _ h

/-- A number that characters of formulas spell is a numeral. -/
theorem number?_spelled (hcs : Spelled cs) {c : Constant} {rest : List Char}
    (h : number? cs = some (c, rest)) : (∃ n, c = Numeral.literal n) ∧ Spelled rest := by
  have hdecimal : decimalNumber? cs = some (c, rest) := by
    unfold number? at h
    split at h
    · next d more =>
      rwa [hcs.tail.markedBase?_eq_none] at h
    · exact h
  rw [decimalNumber?_eq] at hdecimal
  obtain ⟨⟨whole, tail⟩, hwhole, hafter⟩ := Option.bind_eq_some_iff.1 hdecimal
  refine afterWhole_spelled ?_ whole hafter
  split_ifs at hwhole
  · cases hwhole
    exact hcs
  · exact digitGroups?_spelled hcs hwhole

end

/-! ## Texts -/

section

variable {fuel : Nat} {s : State} {cs : List Char} {out ts : List Token}

theorem indentation_spelled {col alt kept col' alt' : Nat} {rest : List Char} (hcs : Spelled cs)
    (h : indentation fuel col alt kept cs = some (col', alt', rest)) : Spelled rest := by
  have hcolumns {col alt kept : Nat} {cs : List Char} (hcs : Spelled cs)
      (h : indentation.columns col alt kept cs = some (col', alt', rest)) : Spelled rest := by
    unfold indentation.columns at h
    split_ifs at h <;> cases h <;> exact hcs
  induction fuel generalizing col alt kept cs with
  | zero => exact hcolumns hcs h
  | succ fuel ih =>
    unfold indentation at h
    split at h
    · exact ih hcs.tail h
    · exact absurd rfl (hcs.ne (by decide))
    · exact absurd rfl (hcs.ne (by decide))
    · exact absurd rfl (hcs.ne (by decide))
    · exact absurd rfl (hcs.ne (by decide))
    · exact hcolumns hcs h

theorem lineStart_spelled {col alt : Nat} {blocks blocks' : List (Nat × Nat)}
    (h : lineStart col alt blocks = some (blocks', ts)) : ∀ t ∈ ts, t.Spelled := by
  unfold lineStart at h
  dsimp only at h
  split_ifs at h
  · cases h
    simp
  · cases h
    simpa using Token.Spelled.indent
  · obtain ⟨⟨bs, n⟩, -, heq⟩ := Option.map_eq_some_iff.1 h
    cases heq
    intro t ht
    rw [List.eq_of_mem_replicate ht]
    exact .dedent

theorem sign?_spelled (hcs : Spelled cs) {t : String} {rest : List Char}
    (h : Token.sign? cs = some (t, rest)) : t ∈ formulaSigns ∧ Spelled rest := by
  obtain ⟨t', ht, heq⟩ := Option.map_eq_some_iff.1 h
  cases heq
  have htake := beq_iff_eq.1 (List.find?_some ht :)
  refine ⟨mem_formulaSigns t (List.mem_of_find?_eq_some ht) fun c hc => hcs c ?_,
    fun c hc => hcs c (List.mem_of_mem_drop hc)⟩
  rw [← htake] at hc
  exact List.mem_of_mem_take hc

/-! What is read next is a token of formulas, or characters that write no token; the proof is by
induction on the fuel, with `GoesOn` for what is left of it. -/

/-- Reading on, from where only characters and tokens of formulas are, gives tokens of formulas. -/
def GoesOn (fuel : Nat) : Prop :=
  ∀ {b : Bool} {s : State} {cs : List Char} {out ts : List Token}, Script.Spelled cs →
    (∀ t ∈ out, t.Spelled) → scan fuel b s cs out = some ts → ∀ t ∈ ts, t.Spelled

theorem GoesOn.afterNumber (hnext : GoesOn fuel) (hcs : Spelled cs) (hout : ∀ t ∈ out, t.Spelled)
    (h : afterNumber fuel s out (number? cs) = some ts) : ∀ t ∈ ts, t.Spelled := by
  unfold Script.afterNumber at h
  split at h
  · next hread =>
    obtain ⟨⟨n, rfl⟩, hrest⟩ := number?_spelled hcs hread
    exact hnext hrest (List.forall_mem_cons.2 ⟨.number n, hout⟩) h
  · cases h

theorem GoesOn.afterSign (hnext : GoesOn fuel) (hcs : Spelled cs) (hout : ∀ t ∈ out, t.Spelled)
    (h : afterSign fuel s out (Token.sign? cs) = some ts) : ∀ t ∈ ts, t.Spelled := by
  unfold Script.afterSign at h
  split at h
  · next hread =>
    obtain ⟨ht, hrest⟩ := sign?_spelled hcs hread
    exact hnext hrest (List.forall_mem_cons.2 ⟨.sign ht, hout⟩) h
  · cases h

/-- The end of the characters closes all blocks. -/
theorem closed_spelled (n : Nat) (hout : ∀ t ∈ out, t.Spelled) :
    ∀ t ∈ (List.replicate n Token.dedent ++ out).reverse, t.Spelled := by
  intro t ht
  rcases List.mem_append.1 (List.mem_reverse.1 ht) with ht | ht
  · rw [List.eq_of_mem_replicate ht]
    exact .dedent
  · exact hout t ht

theorem GoesOn.lineStart (hnext : GoesOn fuel) (hcs : Spelled cs) (hout : ∀ t ∈ out, t.Spelled)
    (h : scan (fuel + 1) true s cs out = some ts) : ∀ t ∈ ts, t.Spelled := by
  unfold scan at h
  split at h
  · cases h
  · next hrest => exact absurd rfl ((indentation_spelled hcs hrest).ne (by decide))
  · next hrest => exact absurd rfl ((indentation_spelled hcs hrest).ne (by decide))
  · cases h
    exact closed_spelled _ hout
  · next hrest =>
    split at h
    · next us hus =>
      refine hnext (indentation_spelled hcs hrest) (fun t ht => ?_) h
      rcases List.mem_append.1 ht with ht | ht
      · exact lineStart_spelled hus t (List.mem_reverse.1 ht)
      · exact hout t ht
    · cases h

theorem GoesOn.next (hnext : GoesOn fuel) {c : Char} (hcs : Spelled (c :: cs))
    (hout : ∀ t ∈ out, t.Spelled) (h : scan (fuel + 1) false s (c :: cs) out = some ts) :
    ∀ t ∈ ts, t.Spelled := by
  have hbracket (t : String) (ht : t ∈ formulaSigns) : ∀ u ∈ .sign t :: out, u.Spelled :=
    List.forall_mem_cons.2 ⟨.sign ht, hout⟩
  -- the reader takes another branch for each kind of character
  rcases hcs.head with rfl | hdigit | rfl | rfl | rfl | hop
  · exact hnext hcs.tail hout h
  · refine hnext.afterNumber (s := s) hcs hout ?_
    have hmem := mem_of_isDigit hdigit
    simp only [List.mem_cons, List.not_mem_nil, or_false] at hmem
    rcases hmem with rfl | rfl | rfl | rfl | rfl | rfl | rfl | rfl | rfl | rfl <;> exact h
  · by_cases hpoint : (cs.head?.map Char.isDigit).getD false
    · exact hnext.afterNumber hcs hout ((if_pos hpoint).symm.trans h)
    · exact hnext.afterSign hcs hout ((if_neg hpoint).symm.trans h)
  · by_cases hdeep : 200 ≤ s.brackets.length
    · cases (if_pos hdeep).symm.trans h
    · exact hnext hcs.tail (hbracket "(" (by decide)) ((if_neg hdeep).symm.trans h)
  · obtain ⟨blocks, - | ⟨b, brackets⟩⟩ := s
    · cases h
    · by_cases hclose : closing b = ')'
      · exact hnext hcs.tail (hbracket ")" (by decide)) ((if_pos hclose).symm.trans h)
      · cases (if_neg hclose).symm.trans h
  · refine hnext.afterSign (s := s) hcs hout ?_
    simp only [List.mem_cons, List.not_mem_nil, or_false] at hop
    rcases hop with rfl | rfl | rfl | rfl <;> exact h

theorem goesOn (fuel : Nat) : GoesOn fuel := by
  induction fuel with
  | zero =>
    intro b s cs out ts _ _ h
    cases h
  | succ fuel ih =>
    intro b s cs out ts hcs hout h
    cases b with
    | true => exact ih.lineStart hcs hout h
    | false =>
      cases cs with
      | nil =>
        unfold scan at h
        dsimp only at h
        split_ifs at h
        cases h
        exact closed_spelled _ hout
      | cons c rest => exact ih.next hcs hout h

/-- Line ends are no characters of formulas. -/
theorem unifyLines_spelled (hcs : Spelled cs) : unifyLines cs = cs := by
  induction cs with
  | nil => rfl
  | cons c cs ih =>
    have hreturn : ¬isArithmetic '\x0d' := by decide
    unfold unifyLines
    split
    · next heq => exact absurd (List.cons.inj heq).1 (hcs.ne hreturn)
    · next heq => exact absurd (List.cons.inj heq).1 (hcs.ne hreturn)
    · next heq =>
      obtain ⟨rfl, rfl⟩ := List.cons.inj heq
      rw [ih hcs.tail]
    · next heq => cases heq

/-- **Characters of formulas spell tokens of formulas only.** -/
theorem tokens?_spelled (hcs : Spelled cs) (h : tokens? cs = some ts) : ∀ t ∈ ts, t.Spelled := by
  unfold tokens? at h
  rw [unifyLines_spelled hcs] at h
  exact goesOn _ hcs (by simp) h

end

end Rulebook.Script
