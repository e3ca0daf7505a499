/-
  Plain arithmetic.

  A formula may hold digits, points, blanks, brackets and the four signs; all other characters are
  struck out before it is read.  `Expr.calculate` evaluates what is left with the operators and the
  limits of expressions, and refuses every other form.
-/
import Rulebook.Script.Evaluate

namespace Rulebook.Script

/-- The characters that a formula may hold. -/
def isArithmetic (c : Char) : Bool :=
  c.isDigit || c ∈ ['+', '-', '*', '/', '(', ')', '.', ' ']

/-- A formula without the characters that it may not hold. -/
def sanitize (s : String) : String :=
  String.ofList (s.toList.filter isArithmetic)

/-- The whole number of a result, if it has at most the allowed number of bits. -/
def checkedNumber (n : Number) : Except Error Number :=
  match n with
  | .int k => if maxBits < bitLength k then .error .integerTooLarge else .ok n
  | .float _ => .ok n

/-- How a fault of a number operator is refused. -/
def numberError (f : Fault) : Error :=
  match f.kind with
  | .zeroDivision => .division
  | .overflow => .overflow f
  | _ => .operands f

/-- The value of an arithmetic operator; `none` for the operators that formulas do not have. -/
def calculateBinary (op : BinaryOp) (a b : Number) : Option (Except Error Number) :=
  let finish (r : Except Fault Number) : Except Error Number :=
    (r.mapError numberError).bind checkedNumber
  match op with
  | .add => some (finish (a.add b))
  | .sub => some (finish (a.sub b))
  | .mul =>
    some do
      checkProduct (Value.ofNumber a) (Value.ofNumber b)
      finish (a.mul b)
  | .div => some (finish (a.div b))
  | _ => none

/-- Whether formulas have an operator. -/
def isArithmeticOp : BinaryOp → Bool
  | .add | .sub | .mul | .div => true
  | _ => false

/-- The number that a formula denotes. -/
def Expr.calculate : Expr → Except Error Number
  | .constant (.int n) => .ok (.int n)
  | .constant (.float x) => .ok (.float x)
  | .unary .plus e => e.calculate
  | .unary .minus e => e.calculate.map Number.neg
  | .binary op left right =>
    if isArithmeticOp op then do
      let a ← left.calculate
      let b ← right.calculate
      (calculateBinary op a b).getD (throw (.unsupportedArithmetic "BinOp"))
    else .error (.unsupportedArithmetic "BinOp")
  | e => .error (.unsupportedArithmetic e.kind)

/-- The number that a text denotes once it is sanitized, which leaves no texts in it. -/
def calculate (s : String) : Except Error Number :=
  let t := Text.trim (sanitize s)
  if t.isEmpty then .error .emptyArithmetic
  else
    match Expr.ofText? Text.noNames t with
    | some e => e.calculate
    | none => .error (.malformedArithmetic t)

end Rulebook.Script
