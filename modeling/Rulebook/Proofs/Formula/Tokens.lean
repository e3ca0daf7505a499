/-
  The tokens of formulas whose leaves are numerals.

  * `scan_chars`: a formula is cut into its tokens, whatever may follow an operand;
  * `tokens?_chars`: so is the text of a whole formula.
-/
import Mathlib.Data.List.Basic
import Mathlib.Tactic.IntervalCases
import Rulebook.Proofs.Formula.Basic
import Rulebook.Proofs.Script.Numeral
import Rulebook.Script.Token

namespace Rulebook.Script

open Token

/-! ## Characters -/

theorem mem_of_isDigit {c : Char} (h : c.isDigit) :
    c ∈ ['0', '1', '2', '3', '4', '5', '6', '7', '8', '9'] := by
  obtain ⟨hlow, hhigh⟩ : 48 ≤ c.toNat ∧ c.toNat ≤ 57 := Char.isDigit_iff_toNat.1 h
  rw [← Char.ofNat_toNat c]
  generalize c.toNat = n at hlow hhigh
  interval_cases n <;> decide

/-- Whether characters may stand at the start of an operand, or of the blanks before it. -/
def Leads (cs : List Char) : Prop :=
  ∃ c rest, cs = c :: rest ∧ c ∉ ['=', '>', '*', '/']

theorem Leads.cons {c : Char} (hc : c ∉ ['=', '>', '*', '/']) (cs : List Char) : Leads (c :: cs) :=
  ⟨c, cs, rfl, hc⟩

theorem Leads.append {cs : List Char} (h : Leads cs) (ds : List Char) : Leads (cs ++ ds) := by
  obtain ⟨c, rest, rfl, hc⟩ := h
  exact .cons hc _

theorem Leads.blanks_append {cs : List Char} (h : Leads cs) (n : Nat) : Leads (blanks n ++ cs) := by
  cases n with
  | zero => exact h
  | succ n => exact .cons (by decide) _

theorem Follows.blanks_append {cs : List Char} (h : Follows cs) (n : Nat) :
    Follows (blanks n ++ cs) := by
  cases n with
  | zero => exact h
  | succ n => exact .cons (by decide)

theorem Numeral.leads (n : Numeral) : Leads n.chars := by
  obtain ⟨c, rest, hc⟩ := List.exists_cons_of_ne_nil n.chars_ne_nil
  refine ⟨c, rest, hc, ?_⟩
  rcases n.chars_plain c (by simp [hc]) with hdigit | rfl
  · intro hmem
    simp only [List.mem_cons, List.not_mem_nil, or_false] at hmem
    rcases hmem with rfl | rfl | rfl | rfl <;> exact absurd hdigit (by decide)
  · decide

theorem Numeral.chars_arithmetic (n : Numeral) : ∀ c ∈ n.chars, isArithmetic c := by
  intro c hc
  rcases n.chars_plain c hc with hdigit | rfl
  · simp [isArithmetic, hdigit]
  · decide

namespace Formula

theorem leads_chars (f : Formula Numeral) : Leads (f.chars Numeral.chars) := by
  induction f with
  | leaf n => exact n.leads
  | group => exact .cons (by decide) _
  | signed negative => cases negative <;> exact .cons (by decide) _
  | binary _ _ _ left right ihl => exact ihl.append _

end Formula

/-! ## Single tokens -/

section

variable (fuel : Nat) (s : State) (rest : List Char) (out : List Token)

theorem scan_blanks (n : Nat) :
    scan (fuel + n) false s (blanks n ++ rest) out = scan fuel false s rest out := by
  induction n with
  | zero => rfl
  | succ n ih => exact ih

/-- Reading on after a sign, if there is one. -/
def afterSign (read : Option (String × List Char)) : Option (List Token) :=
  match read with
  | some (t, rest) => scan fuel false s rest (.sign t :: out)
  | none => none

/-- Reading on after a number, if there is one. -/
def afterNumber (read : Option (Constant × List Char)) : Option (List Token) :=
  match read with
  | some (c, rest) => scan fuel false s rest (.number c :: out)
  | none => none

/-- A sign of an operation is a token of its own before an operand. -/
theorem sign?_of_leads {c : Char} {cs : List Char} (hc : c ∈ ['+', '-', '*', '/'])
    (h : Leads cs) : sign? (c :: cs) = some (c.toString, cs) := by
  obtain ⟨d, rest, rfl, hd⟩ := h
  simp only [List.mem_cons, List.not_mem_nil, or_false, not_or] at hc hd
  rcases hc with rfl | rfl | rfl | rfl <;> simp [sign?, signs, ← String.length_toList, hd]

theorem scan_sign {c : Char} {cs : List Char} (hc : c ∈ ['+', '-', '*', '/']) (h : Leads cs) :
    scan (fuel + 1) false s (c :: cs) out = scan fuel false s cs (.sign c.toString :: out) := by
  have hread : scan (fuel + 1) false s (c :: cs) out =
      afterSign fuel s out (sign? (c :: cs)) := by
    simp only [List.mem_cons, List.not_mem_nil, or_false] at hc
    rcases hc with rfl | rfl | rfl | rfl <;> rfl
  rw [hread, sign?_of_leads hc h]
  rfl

theorem scan_open (h : s.brackets.length < 200) :
    scan (fuel + 1) false s ('(' :: rest) out =
      scan fuel false { s with brackets := '(' :: s.brackets } rest (.sign "(" :: out) :=
  if_neg (Nat.not_le.2 h)

theorem scan_close (blocks : List (Nat × Nat)) (brackets : List Char) :
    scan (fuel + 1) false ⟨blocks, '(' :: brackets⟩ (')' :: rest) out =
      scan fuel false ⟨blocks, brackets⟩ rest (.sign ")" :: out) :=
  rfl

/-- A point at the start of a numeral stands before a digit. -/
theorem Numeral.digit_of_point (n : Numeral) {cs : List Char} (h : n.chars = '.' :: cs) :
    ∃ d ds, cs = d :: ds ∧ d.isDigit := by
  have hne := n.ne_nil
  unfold Numeral.chars at h
  rcases hw : n.whole with - | ⟨c, whole⟩
  · rw [hw, List.nil_append] at h hne
    rcases hf : n.fraction with - | ds
    · rw [hf] at h
      cases h
    · rw [hf] at h hne
      obtain ⟨d, ds, rfl⟩ := List.exists_cons_of_ne_nil hne
      exact ⟨d, ds, (List.cons.inj h).2.symm, n.fraction_digits _ hf d (by simp)⟩
  · have hc := n.whole_digits c (by simp [hw])
    rw [hw] at h
    obtain ⟨rfl, -⟩ := List.cons.inj h
    exact absurd hc (by decide)

theorem scan_numeral (n : Numeral) (h : Follows rest) :
    scan (fuel + 1) false s (n.chars ++ rest) out =
      scan fuel false s rest (.number (Numeral.literal n.value) :: out) := by
  have hread : scan (fuel + 1) false s (n.chars ++ rest) out =
      afterNumber fuel s out (number? (n.chars ++ rest)) := by
    obtain ⟨c, cs, hc⟩ := List.exists_cons_of_ne_nil n.chars_ne_nil
    rw [hc, List.cons_append]
    rcases n.chars_plain c (by simp [hc]) with hdigit | rfl
    · have hmem := mem_of_isDigit hdigit
      simp only [List.mem_cons, List.not_mem_nil, or_false] at hmem
      rcases hmem with rfl | rfl | rfl | rfl | rfl | rfl | rfl | rfl | rfl | rfl <;> rfl
    · obtain ⟨d, ds, rfl, hd⟩ := n.digit_of_point hc
      refine if_pos ?_
      simp [hd]
  rw [hread, n.number?_append h]
  rfl

end

/-! ## Formulas -/

namespace Formula

/-- The tokens of a formula. -/
def tokens : Formula Numeral → List Token
  | leaf n => [.number (Numeral.literal n.value)]
  | group _ _ f => .sign "(" :: (f.tokens ++ [.sign ")"])
  | signed negative _ f => .sign (if negative then "-" else "+") :: f.tokens
  | binary op _ _ left right => left.tokens ++ .sign op.sign.toString :: right.tokens

/-- A formula has no texts in it. -/
theorem isPlain_of_mem_tokens (f : Formula Numeral) : ∀ t ∈ f.tokens, t.isPlain = true := by
  induction f with
  | leaf n => exact List.forall_mem_cons.2 ⟨rfl, List.forall_mem_nil _⟩
  | group _ _ f ih =>
    exact List.forall_mem_cons.2 ⟨rfl, List.forall_mem_append.2
      ⟨ih, List.forall_mem_cons.2 ⟨rfl, List.forall_mem_nil _⟩⟩⟩
  | signed _ _ f ih => exact List.forall_mem_cons.2 ⟨rfl, ih⟩
  | binary _ _ _ left right ihl ihr =>
    exact List.forall_mem_append.2 ⟨ihl, List.forall_mem_cons.2 ⟨rfl, ihr⟩⟩

/-- How often `scan` reads a token or passes over a blank. -/
def steps : Formula Numeral → Nat
  | leaf _ => 1
  | group before after f => 1 + after + f.steps + before + 1
  | signed _ gap f => f.steps + gap + 1
  | binary _ before after left right => right.steps + after + 1 + before + left.steps

theorem steps_le (f : Formula Numeral) : f.steps ≤ (f.chars Numeral.chars).length := by
  induction f with
  | leaf n => exact List.length_pos_iff.2 n.chars_ne_nil
  | group before after f ih =>
    simp only [steps, chars, blanks, List.length_cons, List.length_append, List.length_replicate,
      List.length_nil]
    omega
  | signed negative gap f ih =>
    simp only [steps, chars, blanks, List.length_cons, List.length_append, List.length_replicate]
    omega
  | binary op before after left right ihl ihr =>
    simp only [steps, chars, blanks, List.length_cons, List.length_append, List.length_replicate]
    omega

theorem length_tokens_le (f : Formula Numeral) : f.tokens.length ≤ f.steps := by
  induction f with
  | leaf n => exact le_rfl
  | group before after f ih =>
    simp only [tokens, steps, List.length_cons, List.length_append, List.length_nil]
    omega
  | signed negative gap f ih =>
    simp only [tokens, steps, List.length_cons]
    omega
  | binary op before after left right ihl ihr =>
    simp only [tokens, steps, List.length_cons, List.length_append]
    omega

theorem sign_mem (op : Operation) : op.sign ∈ ['+', '-', '*', '/'] := by
  cases op <;> decide

/-- **A formula is cut into its tokens.** -/
theorem scan_chars (f : Formula Numeral) (fuel : Nat) (s : State) {rest : List Char}
    (out : List Token) (h : Follows rest) (hdepth : s.brackets.length + f.depth ≤ 200) :
    scan (fuel + f.steps) false s (f.chars Numeral.chars ++ rest) out =
      scan fuel false s rest (f.tokens.reverse ++ out) := by
  induction f generalizing fuel s rest out with
  | leaf n => exact scan_numeral fuel s rest out n h
  | group before after f ih =>
    have hopen : s.brackets.length < 200 := by
      simp only [depth] at hdepth
      omega
    have hinner : (State.mk s.blocks ('(' :: s.brackets)).brackets.length + f.depth ≤ 200 := by
      simp only [depth] at hdepth
      simp only [List.length_cons]
      omega
    have hclose : Follows (blanks after ++ ')' :: rest) :=
      (Follows.cons (by decide)).blanks_append after
    simp only [chars, steps, tokens, List.cons_append, List.append_assoc, List.nil_append]
    rw [← Nat.add_assoc, scan_open _ _ _ _ hopen, ← Nat.add_assoc, scan_blanks, ← Nat.add_assoc,
      ih _ _ _ hclose hinner, ← Nat.add_assoc, scan_blanks, scan_close]
    simp
  | signed negative gap f ih =>
    have hleads : Leads (blanks gap ++ (f.chars Numeral.chars ++ rest)) :=
      (f.leads_chars.append rest).blanks_append gap
    simp only [chars, steps, tokens, List.cons_append, List.append_assoc]
    rw [← Nat.add_assoc, scan_sign _ _ _ (by cases negative <;> decide) hleads, ← Nat.add_assoc,
      scan_blanks, ih _ _ _ h hdepth]
    cases negative <;> simp
  | binary op before after left right ihl ihr =>
    have hmem := sign_mem op
    have hleads : Leads (blanks after ++ (right.chars Numeral.chars ++ rest)) :=
      (right.leads_chars.append rest).blanks_append after
    have hsign : Follows (blanks before ++
        op.sign :: (blanks after ++ (right.chars Numeral.chars ++ rest))) :=
      (Follows.cons (by cases op <;> decide)).blanks_append before
    simp only [depth] at hdepth
    simp only [chars, steps, tokens, List.cons_append, List.append_assoc]
    rw [← Nat.add_assoc, ihl _ _ _ hsign (by omega), ← Nat.add_assoc, scan_blanks,
      ← Nat.add_assoc, scan_sign _ _ _ hmem hleads, ← Nat.add_assoc, scan_blanks,
      ihr _ _ _ h (by omega)]
    simp

/-! ## Whole texts -/

theorem chars_ne_nil (f : Formula Numeral) : f.chars Numeral.chars ≠ [] := by
  obtain ⟨c, rest, hc, -⟩ := f.leads_chars
  simp [hc]

theorem chars_arithmetic (f : Formula Numeral) :
    ∀ c ∈ f.chars Numeral.chars, isArithmetic c := by
  have hblanks (n : Nat) : ∀ c ∈ blanks n, isArithmetic c := by
    intro c hc
    rw [List.eq_of_mem_replicate hc]
    decide
  induction f with
  | leaf n => exact n.chars_arithmetic
  | group before after f ih =>
    simp only [chars, List.forall_mem_cons, List.forall_mem_append]
    exact ⟨by decide, hblanks _, ih, hblanks _, by decide, fun _ hc => absurd hc List.not_mem_nil⟩
  | signed negative gap f ih =>
    simp only [chars, List.forall_mem_cons, List.forall_mem_append]
    exact ⟨by cases negative <;> decide, hblanks _, ih⟩
  | binary op before after left right ihl ihr =>
    simp only [chars, List.forall_mem_cons, List.forall_mem_append]
    exact ⟨ihl, hblanks _, by cases op <;> decide, hblanks _, ihr⟩

theorem head?_chars (f : Formula Numeral) : (f.chars Numeral.chars).head? ≠ some ' ' := by
  induction f with
  | leaf n =>
    intro hc
    rcases n.chars_plain _ (List.mem_of_head? hc) with h | h <;> exact absurd h (by decide)
  | group => simp [chars]
  | signed negative => cases negative <;> simp [chars]
  | binary _ _ _ left _ ihl =>
    unfold chars
    rwa [List.head?_append_of_ne_nil _ left.chars_ne_nil]

theorem getLast?_chars (f : Formula Numeral) : (f.chars Numeral.chars).getLast? ≠ some ' ' := by
  induction f with
  | leaf n =>
    intro hc
    rcases n.chars_plain _ (List.mem_of_getLast? hc) with h | h <;> exact absurd h (by decide)
  | group before after f =>
    unfold chars
    simp [← List.append_assoc, List.getLast?_cons]
  | signed negative gap f ih =>
    unfold chars
    rwa [← List.cons_append, List.getLast?_append_of_ne_nil _ f.chars_ne_nil]
  | binary _ _ _ _ right _ ihr =>
    unfold chars
    rwa [← List.cons_append, ← List.append_assoc, ← List.append_assoc,
      List.getLast?_append_of_ne_nil _ right.chars_ne_nil]

/-- A formula with too many open brackets is not cut into tokens. -/
theorem scan_chars_deep (f : Formula Numeral) (fuel : Nat) (s : State) {rest : List Char}
    (out : List Token) (h : Follows rest) (hopen : s.brackets.length ≤ 200)
    (hdepth : 200 < s.brackets.length + f.depth) :
    scan (fuel + f.steps) false s (f.chars Numeral.chars ++ rest) out = none := by
  induction f generalizing fuel s rest out with
  | leaf n =>
    simp only [depth] at hdepth
    omega
  | group before after f ih =>
    simp only [chars, steps, List.cons_append, List.append_assoc, List.nil_append]
    rw [← Nat.add_assoc]
    rcases hopen.lt_or_eq with hlt | heq
    · have hinner : 200 < (State.mk s.blocks ('(' :: s.brackets)).brackets.length + f.depth := by
        simp only [depth] at hdepth
        simp only [List.length_cons]
        omega
      have hroom : (State.mk s.blocks ('(' :: s.brackets)).brackets.length ≤ 200 := hlt
      have hclose : Follows (blanks after ++ ')' :: rest) :=
        (Follows.cons (by decide)).blanks_append after
      rw [scan_open _ _ _ _ hlt, ← Nat.add_assoc, scan_blanks, ← Nat.add_assoc,
        ih _ _ _ hclose hroom hinner]
    · exact if_pos heq.ge
  | signed negative gap f ih =>
    have hleads : Leads (blanks gap ++ (f.chars Numeral.chars ++ rest)) :=
      (f.leads_chars.append rest).blanks_append gap
    simp only [chars, steps, List.cons_append, List.append_assoc]
    rw [← Nat.add_assoc, scan_sign _ _ _ (by cases negative <;> decide) hleads, ← Nat.add_assoc,
      scan_blanks, ih _ _ _ h hopen hdepth]
  | binary op before after left right ihl ihr =>
    have hmem := sign_mem op
    have hleads : Leads (blanks after ++ (right.chars Numeral.chars ++ rest)) :=
      (right.leads_chars.append rest).blanks_append after
    have hsign : Follows (blanks before ++
        op.sign :: (blanks after ++ (right.chars Numeral.chars ++ rest))) :=
      (Follows.cons (by cases op <;> decide)).blanks_append before
    simp only [depth] at hdepth
    simp only [chars, steps, List.cons_append, List.append_assoc]
    rw [← Nat.add_assoc]
    by_cases hleft : 200 < s.brackets.length + left.depth
    · exact ihl _ _ _ hsign hopen hleft
    · rw [scan_chars left _ _ _ hsign (by omega), ← Nat.add_assoc, scan_blanks, ← Nat.add_assoc,
        scan_sign _ _ _ hmem hleads, ← Nat.add_assoc, scan_blanks, ihr _ _ _ h hopen (by omega)]

theorem unifyLines_of_not_mem {cs : List Char} (h : '\x0d' ∉ cs) : unifyLines cs = cs := by
  fun_induction unifyLines cs with
  | case1 | case2 => simp at h
  | case3 c rest _ _ ih => rw [ih fun hmem => h (List.mem_cons_of_mem c hmem)]
  | case4 => rfl

/-- A text that starts with a character of formulas other than a blank starts no block. -/
theorem scan_start {c : Char} (h : isArithmetic c) (hc : c ≠ ' ') (fuel : Nat) (cs : List Char) :
    scan (fuel + 1) true ⟨[], []⟩ (c :: cs) [] = scan fuel false ⟨[], []⟩ (c :: cs) [] := by
  have hmem : c.isDigit ∨ c ∈ ['+', '-', '*', '/', '(', ')', '.', ' '] := by
    simpa [isArithmetic] using h
  rcases hmem with hmem | hmem
  · have hmem := mem_of_isDigit hmem
    simp only [List.mem_cons, List.not_mem_nil, or_false] at hmem
    rcases hmem with rfl | rfl | rfl | rfl | rfl | rfl | rfl | rfl | rfl | rfl <;> rfl
  · simp only [List.mem_cons, List.not_mem_nil, or_false] at hmem
    rcases hmem with rfl | rfl | rfl | rfl | rfl | rfl | rfl | rfl
    all_goals first | rfl | exact absurd rfl hc

/-- A text that starts with a formula is read from its start on, with more than enough steps. -/
theorem exists_scan (f : Formula Numeral) {rest : List Char} (hrest : ∀ c ∈ rest, isArithmetic c) :
    ∃ k, tokens? (f.chars Numeral.chars ++ rest) =
      scan (k + rest.length + 1 + f.steps) false ⟨[], []⟩ (f.chars Numeral.chars ++ rest) [] := by
  have hreturn : '\x0d' ∉ f.chars Numeral.chars ++ rest := fun hmem => by
    rcases List.mem_append.1 hmem with hmem | hmem
    · exact absurd (f.chars_arithmetic _ hmem) (by decide)
    · exact absurd (hrest _ hmem) (by decide)
  obtain ⟨c, cs, hcs⟩ := List.exists_cons_of_ne_nil f.chars_ne_nil
  have harith : isArithmetic c := f.chars_arithmetic c (by simp [hcs])
  have hblank : c ≠ ' ' := by
    rintro rfl
    exact f.head?_chars (by simp [hcs])
  have hle := f.steps_le
  have hstart := scan_start harith hblank (2 * (f.chars Numeral.chars ++ rest).length + 2)
    (cs ++ rest)
  rw [← List.cons_append, ← hcs] at hstart
  refine ⟨2 * (f.chars Numeral.chars).length + rest.length + 1 - f.steps, ?_⟩
  unfold tokens?
  rw [unifyLines_of_not_mem hreturn]
  refine hstart.trans ?_
  congr 1
  rw [List.length_append]
  omega

/-- **The tokens of a whole formula.** There are none if too many brackets are open at once. -/
theorem tokens?_chars (f : Formula Numeral) :
    tokens? (f.chars Numeral.chars) = if f.depth ≤ 200 then some f.tokens else none := by
  obtain ⟨k, hk⟩ := @exists_scan f [] nofun
  rw [← List.append_nil (f.chars Numeral.chars), hk]
  split_ifs with h
  · rw [scan_chars f _ ⟨[], []⟩ [] .nil (by simpa using h), List.append_nil]
    change some ([] ++ f.tokens.reverse).reverse = _
    rw [List.nil_append, List.reverse_reverse]
  · exact scan_chars_deep f _ ⟨[], []⟩ [] .nil (by simp) (by simpa using h)

end Formula

end Rulebook.Script
