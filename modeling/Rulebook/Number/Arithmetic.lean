/-
  Arithmetic on whole numbers and doubles.

  A `Number` is a whole number of any size or a double.  Two whole numbers give a whole number where
  the operation allows it, else both operands become doubles.  An operation without a result says
  why: a zero divisor, or a value outside the range of doubles.  Order and equality of a whole
  number and a double are exact.
-/
import Rulebook.Fault
import Rulebook.Number.Decimal

namespace Rulebook

/-- A whole number or a double. -/
inductive Number where
  | int (n : Int)
  | float (x : Float)

namespace Number

/-! ## Conversion -/

/-- A number as a double. -/
def toFloat : Number → Except Fault Float
  | int n =>
    match Binary64.ofInt n with
    | some x => .ok x
    | none => .error .integerTooLargeForFloat
  | float x => .ok x

/-- Applies an operation on doubles. -/
def onFloats (f : Float → Float → Except Fault Number) (a b : Number) : Except Fault Number := do
  let x ← a.toFloat
  let y ← b.toFloat
  f x y

/-- Whether a number is zero. -/
def isZero : Number → Bool
  | int n => n == 0
  | float x => x == 0.0

/-! ## Operations -/

def add : Number → Number → Except Fault Number
  | int m, int n => .ok (int (m + n))
  | a, b => onFloats (fun x y => .ok (float (x + y))) a b

def sub : Number → Number → Except Fault Number
  | int m, int n => .ok (int (m - n))
  | a, b => onFloats (fun x y => .ok (float (x - y))) a b

def mul : Number → Number → Except Fault Number
  | int m, int n => .ok (int (m * n))
  | a, b => onFloats (fun x y => .ok (float (x * y))) a b

/-- The quotient as a double; of two whole numbers it is rounded once. -/
def div : Number → Number → Except Fault Number
  | int m, int n =>
    if n = 0 then .error .divisionByZero
    else
      match Binary64.ofRatio ((m < 0) != (n < 0)) m.natAbs n.natAbs with
      | some x => .ok (float x)
      | none => .error .quotientTooLargeForFloat
  | a, b => onFloats (fun x y => if y == 0.0 then .error .divisionByZero else .ok (float (x / y))) a b

/-- The quotient rounded down. -/
def floorDiv : Number → Number → Except Fault Number
  | int m, int n => if n = 0 then .error .divisionByZero else .ok (int (m.fdiv n))
  | a, b =>
    onFloats (fun x y =>
      if y == 0.0 then .error .divisionByZero else .ok (float (Binary64.divMod x y).1)) a b

/-- The remainder of the quotient rounded down; it has the sign of the divisor. -/
def mod : Number → Number → Except Fault Number
  | int m, int n => if n = 0 then .error .divisionByZero else .ok (int (m.fmod n))
  | a, b =>
    onFloats (fun x y =>
      if y == 0.0 then .error .divisionByZero else .ok (float (Binary64.divMod x y).2)) a b

/-- Whether a double is an odd whole number. -/
def isOddFloat (x : Float) : Bool :=
  Binary64.isWhole (Binary64.parts x) && Binary64.truncate (Binary64.parts x) % 2 == 1

/-- The exponent of a power of two. -/
def twoExponent? (x : Float) : Option Int :=
  match Binary64.parts x with
  | .finite false mant exp => if mant = Nat.pow 2 mant.log2 then some (exp + mant.log2) else none
  | _ => none

/-- The double nearest to a power of two; `none` past the largest finite one. -/
def twoToThe (e : Int) : Option Float :=
  if 1024 ≤ e then none
  else if e < -1100 then some 0.0
  else if 0 ≤ e then Binary64.ofRatio false (Nat.pow 2 e.toNat) 1
  else Binary64.ofRatio false 1 (Nat.pow 2 (-e).toNat)

/-- A positive double to the power of another; `none` past the largest finite one. Powers of powers
    of two are exact. -/
def powPositive (x y : Float) : Option Float :=
  match twoExponent? x, Binary64.isWhole (Binary64.parts y) with
  | some k, true => twoToThe (k * Binary64.truncate (Binary64.parts y))
  | _, _ =>
    let r := x.pow y
    if r.isInf then none else some r

/-- Powers of doubles. There are no complex numbers here, so that a negative number has no power to a
    fraction. -/
def powFloat (x y : Float) : Except Fault Number :=
  if y == 0.0 then .ok (float 1.0)
  else if x.isNaN then .ok (float x)
  else if y.isNaN then .ok (float (if x == 1.0 then 1.0 else y))
  else if y.isInf then
    let a := x.abs
    if a == 1.0 then .ok (float 1.0)
    else if (y > 0.0) == (a > 1.0) then .ok (float y.abs)
    else .ok (float 0.0)
  else if x.isInf then
    let odd := isOddFloat y
    if y > 0.0 then .ok (float (if odd then x else x.abs))
    else .ok (float (if odd then Binary64.copySign 0.0 x else 0.0))
  else if x == 0.0 then
    if y < 0.0 then .error .zeroToNegativePower
    else .ok (float (if isOddFloat y then x else 0.0))
  else if x < 0.0 && !Binary64.isWhole (Binary64.parts y) then .error .notReal
  else
    match powPositive x.abs y with
    | some r => .ok (float (if x < 0.0 && isOddFloat y then -r else r))
    | none => .error .resultOutOfRange

/-- Powers; a whole number to a negative power is a double. -/
def pow : Number → Number → Except Fault Number
  | int m, int n => if 0 ≤ n then .ok (int (Int.pow m n.toNat)) else onFloats powFloat (int m) (int n)
  | a, b => onFloats powFloat a b

def neg : Number → Number
  | int n => int (-n)
  | float x => float (-x)

def abs : Number → Number
  | int n => int n.natAbs
  | float x => float x.abs

/-! ## Order -/

/-- The order of two numbers; `none` if one is a NaN. -/
def order : Number → Number → Option Ordering
  | int m, int n => some (compare m n)
  | int m, float y => Binary64.compareInt m y
  | float x, int n => (Binary64.compareInt n x).map Ordering.swap
  | float x, float y =>
    if x < y then some .lt else if y < x then some .gt else if x == y then some .eq else none

/-- Whether two numbers are equal. -/
def equal (a b : Number) : Bool :=
  order a b == some .eq

end Number

end Rulebook
