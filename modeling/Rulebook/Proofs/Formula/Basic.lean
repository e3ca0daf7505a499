/-
  Formulas: the trees that arithmetic texts write.

  The leaves of a `Formula` are of any type; what they write and the numbers they stand for are
  given where they are needed.  Brackets and signs are nodes of their own, and every node keeps the
  blanks that stand inside it.  A formula is `Ordered` if its text needs no further brackets.

  * `value_fill`, `Ordered.fill`: formulas put in the place of leaves.
-/
import Rulebook.Script.Arithmetic

namespace Rulebook.Script

/-- The operators of formulas. -/
inductive Operation where
  | add | sub | mul | div
  deriving DecidableEq, Repr

namespace Operation

/-- The sign between the operands. -/
def sign : Operation → Char
  | add => '+'
  | sub => '-'
  | mul => '*'
  | div => '/'

/-- How tightly an operator binds; operands that are no operations bind at level six. -/
def level : Operation → Nat
  | add | sub => 4
  | mul | div => 5

theorem level_bounds (op : Operation) : 4 ≤ op.level ∧ op.level ≤ 5 := by
  cases op <;> decide

/-- The operator of expressions. -/
def operator : Operation → BinaryOp
  | add => .add
  | sub => .sub
  | mul => .mul
  | div => .div

/-- The value of an operation. -/
def apply (op : Operation) (a b : Number) : Except Error Number :=
  (calculateBinary op.operator a b).getD (.error (.unsupportedArithmetic "BinOp"))

end Operation

/-- A formula with leaves of a given type, and with the blanks inside its nodes. -/
inductive Formula (α : Type) where
  | leaf (a : α)
  | group (before after : Nat) (f : Formula α)
  | signed (negative : Bool) (gap : Nat) (f : Formula α)
  | binary (op : Operation) (before after : Nat) (left right : Formula α)

/-- Blanks. -/
def blanks (n : Nat) : List Char :=
  List.replicate n ' '

namespace Formula

variable {α β : Type}

/-- The text of a formula, given the texts of its leaves. -/
def chars (text : α → List Char) : Formula α → List Char
  | leaf a => text a
  | group before after f => '(' :: (blanks before ++ (f.chars text ++ (blanks after ++ [')'])))
  | signed negative gap f => (if negative then '-' else '+') :: (blanks gap ++ f.chars text)
  | binary op before after left right =>
    left.chars text ++ (blanks before ++ op.sign :: (blanks after ++ right.chars text))

/-- The value of a formula, given the numbers at its leaves. -/
def value (number : α → Number) : Formula α → Except Error Number
  | leaf a => .ok (number a)
  | group _ _ f => f.value number
  | signed negative _ f => (f.value number).map fun n => if negative then n.neg else n
  | binary op _ _ left right => do
    let a ← left.value number
    let b ← right.value number
    op.apply a b

/-- How tightly the parts of a formula are bound. -/
def level : Formula α → Nat
  | binary op .. => op.level
  | _ => 6

/-- Whether the text of a formula needs no further brackets: signs stand before operands, and a
    right operand binds more tightly than its operator. -/
def Ordered : Formula α → Prop
  | leaf _ => True
  | group _ _ f => f.Ordered
  | signed _ _ f => f.Ordered ∧ f.level = 6
  | binary op _ _ left right =>
    left.Ordered ∧ right.Ordered ∧ op.level ≤ left.level ∧ op.level < right.level

/-- How many brackets are open at once at most. -/
def depth : Formula α → Nat
  | leaf _ => 0
  | group _ _ f => f.depth + 1
  | signed _ _ f => f.depth
  | binary _ _ _ left right => max left.depth right.depth

/-- The leaves from left to right. -/
def leaves : Formula α → List α
  | leaf a => [a]
  | group _ _ f => f.leaves
  | signed _ _ f => f.leaves
  | binary _ _ _ left right => left.leaves ++ right.leaves

/-- Puts formulas in the place of the leaves. -/
def fill (g : α → Formula β) : Formula α → Formula β
  | leaf a => g a
  | group before after f => group before after (f.fill g)
  | signed negative gap f => signed negative gap (f.fill g)
  | binary op before after left right => binary op before after (left.fill g) (right.fill g)

/-! ## Filled formulas -/

section

variable {g : α → Formula β} (f : Formula α)

theorem level_fill (hg : ∀ a, (g a).level = 6) : (f.fill g).level = f.level := by
  cases f with
  | leaf a => exact hg a
  | group | signed | binary => rfl

theorem depth_fill (hg : ∀ a, (g a).depth = 0) : (f.fill g).depth = f.depth := by
  induction f with
  | leaf a => exact hg a
  | group _ _ f ih => exact congrArg (· + 1) ih
  | signed _ _ f ih => exact ih
  | binary _ _ _ left right ihl ihr => simp only [fill, depth, ihl, ihr]

theorem Ordered.fill {f : Formula α} (h : f.Ordered) (hlevel : ∀ a, (g a).level = 6)
    (hg : ∀ a, (g a).Ordered) : (f.fill g).Ordered := by
  induction f with
  | leaf a => exact hg a
  | group _ _ f ih => exact ih h
  | signed _ _ f ih => exact ⟨ih h.1, (level_fill f hlevel).trans h.2⟩
  | binary _ _ _ left right ihl ihr =>
    obtain ⟨hl, hr, hle, hlt⟩ := h
    refine ⟨ihl hl, ihr hr, ?_, ?_⟩
    · rwa [level_fill left hlevel]
    · rwa [level_fill right hlevel]

theorem value_fill {number : α → Number} {number' : β → Number}
    (hg : ∀ a ∈ f.leaves, (g a).value number' = .ok (number a)) :
    (f.fill g).value number' = f.value number := by
  induction f with
  | leaf a => exact hg a (List.mem_singleton_self a)
  | group _ _ f ih => exact ih hg
  | signed _ _ f ih => simp only [fill, value, ih hg]
  | binary _ _ _ left right ihl ihr =>
    have hl := ihl fun a ha => hg a (List.mem_append_left _ ha)
    have hr := ihr fun a ha => hg a (List.mem_append_right _ ha)
    simp only [fill, value, hl, hr]

end

end Formula

end Rulebook.Script
