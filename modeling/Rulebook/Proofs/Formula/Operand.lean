/-
  Formulas with placeholders.

  The leaves are literals, and fields between double braces.  A formula is filled by writing the
  numbers of its fields in the place of their placeholders; what is left of that text once it is
  sanitized is a formula over numerals, with the same value, as long as every leaf is written with
  the characters of formulas (`Plain`).

  * `Operand.Plain.exists_formula`: the formula that a leaf becomes;
  * `calculate_chars`: the calculation of a text that is left with a formula;
  * `calculate_filled`: the calculation of a filled formula.
-/
import Rulebook.Proofs.Formula.Literal
import Rulebook.Proofs.Formula.Reading
import Rulebook.Proofs.Script.NumberText
import Rulebook.Template.Placeholder

namespace Rulebook.Script

/-! ## Operands -/

/-- The name of a field, as placeholders can spell it. -/
structure FieldName where
  first : Char
  more : List Char
  starts : Template.startsName first
  continues : ∀ c ∈ more, Template.inName c

/-- The name as a key. -/
def FieldName.key (x : FieldName) : String :=
  String.ofList (x.first :: x.more)

/-- A leaf of a formula as it is written: a number, or a field with the blanks around its name. -/
inductive Operand where
  | literal (l : Literal)
  | field (before after : Nat) (x : FieldName)

namespace Operand

/-- The text of a leaf. -/
def text : Operand → List Char
  | literal l => l.chars
  | field before after x =>
    '{' :: '{' :: (blanks before ++ (x.first :: x.more ++ (blanks after ++ ['}', '}'])))

/-- The number that a leaf stands for, given those of the fields. -/
def number (fields : String → Number) : Operand → Number
  | literal l => l.value
  | field _ _ x => fields x.key

/-- The text of a leaf with the numbers of fields written out. -/
def filled (fields : String → Number) : Operand → Except Fault String
  | literal l => .ok (String.ofList l.chars)
  | field _ _ x => (fields x.key).written

/-- The characters of a filled leaf; none if its number has no text. -/
def filledChars (fields : String → Number) (a : Operand) : List Char :=
  match a.filled fields with
  | .ok t => t.toList
  | .error _ => []

/-- Whether a leaf is written with the characters of formulas. -/
def Plain (fields : String → Number) : Operand → Prop
  | literal l => ∀ c ∈ l.chars, Spare c
  | field _ _ x => (fields x.key).Positional

/-- A leaf becomes a formula that is an operand: a numeral, perhaps with a minus. -/
structure Becomes (fields : String → Number) (a : Operand) (g : Formula Numeral) : Prop where
  chars : (a.filledChars fields).filter isArithmetic = g.chars Numeral.chars
  value : g.value Numeral.value = .ok (a.number fields)

/-- A numeral, perhaps with a minus before it. -/
def ofNumeral (negative : Bool) (n : Numeral) : Formula Numeral :=
  if negative then .signed true 0 (.leaf n) else .leaf n

section

variable (negative : Bool) (n : Numeral)

theorem level_ofNumeral : (ofNumeral negative n).level = 6 := by
  cases negative <;> rfl

theorem depth_ofNumeral : (ofNumeral negative n).depth = 0 := by
  cases negative <;> rfl

theorem ordered_ofNumeral : (ofNumeral negative n).Ordered := by
  cases negative
  · trivial
  · exact ⟨trivial, rfl⟩

end

theorem Plain.exists_formula {fields : String → Number} {a : Operand} (h : a.Plain fields) :
    ∃ negative numeral, a.Becomes fields (ofNumeral negative numeral) := by
  cases a with
  | literal l =>
    obtain ⟨numeral, hchars, hvalue⟩ := l.exists_numeral h
    refine ⟨false, numeral, ?_, congrArg Except.ok hvalue⟩
    unfold filledChars Operand.filled
    dsimp only
    rw [String.toList_ofList, ← hchars]
    rfl
  | field before after x =>
    obtain ⟨t, ht, hplain⟩ := h
    obtain ⟨negative, numeral, ⟨t', ht', htext⟩, hvalue⟩ :=
      Number.Positional.exists_numeral ⟨t, ht, hplain⟩
    obtain rfl : t = t' := Except.ok.inj (ht.symm.trans ht')
    refine ⟨negative, numeral, ?_, ?_⟩
    · have hchars : (field before after x).filledChars fields = t.toList := by
        unfold filledChars
        rw [show (field before after x).filled fields = .ok t from ht]
      rw [hchars, List.filter_eq_self.2 hplain, htext]
      cases negative <;> rfl
    · have hnumber : (field before after x).number fields = fields x.key := rfl
      rw [hnumber, hvalue]
      cases negative <;> rfl

end Operand

/-! ## Sanitizing -/

namespace Formula

theorem filter_blanks (n : Nat) : (blanks n).filter isArithmetic = blanks n := by
  refine List.filter_eq_self.2 fun c hc => ?_
  rw [List.eq_of_mem_replicate hc]
  decide

/-- Sanitizing touches the leaves only. -/
theorem filter_chars {α β : Type} {text : α → List Char} {text' : β → List Char}
    {g : α → Formula β} (f : Formula α)
    (hg : ∀ a ∈ f.leaves, (text a).filter isArithmetic = (g a).chars text') :
    (f.chars text).filter isArithmetic = (f.fill g).chars text' := by
  induction f with
  | leaf a => exact hg a (List.mem_singleton_self a)
  | group before after f ih =>
    have hopen : isArithmetic '(' = true := by decide
    have hclose : isArithmetic ')' = true := by decide
    simp only [chars, fill, List.filter_cons, List.filter_append, filter_blanks, ih hg, hopen,
      hclose, if_true, List.filter_nil]
  | signed negative gap f ih =>
    have hsign : isArithmetic (if negative then '-' else '+') = true := by
      cases negative <;> decide
    simp only [chars, fill, List.filter_cons, List.filter_append, filter_blanks, ih hg, hsign,
      if_true]
  | binary op before after left right ihl ihr =>
    have hsign : isArithmetic op.sign = true := by
      cases op <;> decide
    have hl := ihl fun a ha => hg a (List.mem_append_left _ ha)
    have hr := ihr fun a ha => hg a (List.mem_append_right _ ha)
    simp only [chars, fill, List.filter_cons, List.filter_append, filter_blanks, hl, hr, hsign,
      if_true]

end Formula

theorem isBlank_eq_false {c : Char} (h : isArithmetic c) (hc : c ≠ ' ') :
    Text.isBlank c = false := by
  have hmem : c.isDigit ∨ c ∈ ['+', '-', '*', '/', '(', ')', '.', ' '] := by
    simpa [isArithmetic] using h
  rcases hmem with hmem | hmem
  · have hmem := mem_of_isDigit hmem
    simp only [List.mem_cons, List.not_mem_nil, or_false] at hmem
    rcases hmem with rfl | rfl | rfl | rfl | rfl | rfl | rfl | rfl | rfl | rfl <;> rfl
  · simp only [List.mem_cons, List.not_mem_nil, or_false] at hmem
    rcases hmem with rfl | rfl | rfl | rfl | rfl | rfl | rfl | rfl
    all_goals first | rfl | exact absurd rfl hc

theorem dropWhile_blanks {cs : List Char} (n : Nat) (h : ∀ c ∈ cs, isArithmetic c)
    (hhead : cs.head? ≠ some ' ') (ds : List Char) (hne : cs ≠ []) :
    (blanks n ++ (cs ++ ds)).dropWhile Text.isBlank = cs ++ ds := by
  obtain ⟨c, rest, rfl⟩ := List.exists_cons_of_ne_nil hne
  have hc : Text.isBlank c = false := by
    refine isBlank_eq_false (h c (by simp)) ?_
    rintro rfl
    exact hhead rfl
  have hblanks : ∀ d ∈ blanks n, Text.isBlank d = true := by
    intro d hd
    rw [List.eq_of_mem_replicate hd]
    decide
  rw [List.dropWhile_append_of_pos hblanks, List.cons_append,
    List.dropWhile_cons_of_neg (by simp [hc])]

/-- The blanks around a text that neither starts nor ends with one. -/
theorem trim_blanks {cs : List Char} (before after : Nat) (h : ∀ c ∈ cs, isArithmetic c)
    (hhead : cs.head? ≠ some ' ') (hlast : cs.getLast? ≠ some ' ') (hne : cs ≠ []) :
    Text.trim (String.ofList (blanks before ++ (cs ++ blanks after))) = String.ofList cs := by
  have hreverse : (blanks after).reverse = blanks after := List.reverse_replicate
  have hend := @dropWhile_blanks cs.reverse after (fun c hc => h c (List.mem_reverse.1 hc))
    (by rwa [List.head?_reverse]) [] (by simpa using hne)
  unfold Text.trim Text.trimStart Text.trimEnd
  rw [String.toList_ofList, dropWhile_blanks before h hhead _ hne, List.reverse_append, hreverse]
  rw [List.append_nil] at hend
  rw [hend, List.reverse_reverse]

/-! ## Calculations -/

/-- What is calculated of a text, once its other characters are struck out. -/
theorem calculate_of_sanitize {s : String} {cs : List Char} {before after : Nat}
    (hs : s.toList.filter isArithmetic = blanks before ++ (cs ++ blanks after))
    (hhead : cs.head? ≠ some ' ') (hlast : cs.getLast? ≠ some ' ') (hne : cs ≠ []) :
    calculate s = (Expr.ofText? Text.noNames (String.ofList cs)).elim
      (.error (.malformedArithmetic (Text.trim (sanitize s)))) Expr.calculate := by
  have harith : ∀ c ∈ cs, isArithmetic c := fun c hc => by
    have hmem : c ∈ s.toList.filter isArithmetic := by
      rw [hs]
      simp [hc]
    exact (List.mem_filter.1 hmem).2
  have hclean : Text.trim (sanitize s) = String.ofList cs := by
    unfold sanitize
    rw [hs]
    exact trim_blanks before after harith hhead hlast hne
  have hsome : (String.ofList cs).isEmpty = false := by
    simp [hne]
  unfold calculate
  dsimp only
  rw [hclean, hsome, if_neg (by decide)]
  cases Expr.ofText? Text.noNames (String.ofList cs) <;> rfl

namespace Formula

/-- **A text that is left with a formula is calculated as the formula is evaluated**, unless too
    many brackets are open at once. -/
theorem calculate_chars {g : Formula Numeral} (hg : g.Ordered) {s : String} {before after : Nat}
    (hs : s.toList.filter isArithmetic = blanks before ++ (g.chars Numeral.chars ++ blanks after)) :
    calculate s =
      if g.depth ≤ 200 then g.value Numeral.value
      else .error (.malformedArithmetic (Text.trim (sanitize s))) := by
  rw [calculate_of_sanitize hs g.head?_chars g.getLast?_chars g.chars_ne_nil, ofText?_chars hg]
  split_ifs
  · exact calculate_expr g
  · rfl

/-- **A filled formula is calculated as it is evaluated**, with the same exception. -/
theorem calculate_filled {fields : String → Number} {f : Formula Operand} (hf : f.Ordered)
    (hplain : ∀ a ∈ f.leaves, a.Plain fields) (before after : Nat) {s : String}
    (hs : s.toList = blanks before ++ (f.chars (Operand.filledChars fields) ++ blanks after)) :
    calculate s =
      if f.depth ≤ 200 then f.value (Operand.number fields)
      else .error (.malformedArithmetic (Text.trim (sanitize s))) := by
  have hleaf (a : Operand) : ∃ negative numeral, a ∈ f.leaves →
      a.Becomes fields (Operand.ofNumeral negative numeral) := by
    by_cases ha : a ∈ f.leaves
    · obtain ⟨negative, numeral, h⟩ := (hplain a ha).exists_formula
      exact ⟨negative, numeral, fun _ => h⟩
    · exact ⟨false, Number.zeroNumeral, fun h => absurd h ha⟩
  choose negative numeral hbecomes using hleaf
  let g (a : Operand) : Formula Numeral := Operand.ofNumeral (negative a) (numeral a)
  have hordered : (f.fill g).Ordered :=
    hf.fill (fun a => Operand.level_ofNumeral _ _) fun a => Operand.ordered_ofNumeral _ _
  have hdepth : (f.fill g).depth = f.depth := f.depth_fill fun a => Operand.depth_ofNumeral _ _
  have hvalue : (f.fill g).value Numeral.value = f.value (Operand.number fields) :=
    f.value_fill fun a ha => (hbecomes a ha).value
  have hchars : (f.chars (Operand.filledChars fields)).filter isArithmetic =
      (f.fill g).chars Numeral.chars :=
    f.filter_chars fun a ha => (hbecomes a ha).chars
  have hclean : s.toList.filter isArithmetic =
      blanks before ++ ((f.fill g).chars Numeral.chars ++ blanks after) := by
    rw [hs, List.filter_append, List.filter_append, filter_blanks, filter_blanks, hchars]
  rw [← hdepth, ← hvalue]
  exact calculate_chars hordered hclean

end Formula

end Rulebook.Script
