/-
  Floating point numbers as exact quantities.

  A double is unpacked to its sign, mantissa and power of two (`Parts`), so that comparison with
  whole numbers, rounding to whole numbers and remainders are computed exactly.  In the other
  direction `ofRatio` is the double nearest to a quotient (a half to the even mantissa), which is
  how whole numbers, true quotients of whole numbers and decimal texts become doubles.
-/
import Rulebook.Number.Rounding

namespace Rulebook

/-- A double taken apart: `± mant · 2 ^ exp`, an infinity, or no number. -/
inductive Parts where
  | finite (negative : Bool) (mant : Nat) (exp : Int)
  | infinite (negative : Bool)
  | nan

namespace Binary64

/-! ## Taking a double apart -/

/-- The sign, the mantissa and the power of two of a double. -/
def parts (x : Float) : Parts :=
  let bits := x.toBits.toNat
  let negative := bits >>> 63 = 1
  let field := (bits >>> 52) % 2048
  let fraction := bits % Nat.pow 2 52
  if field = 2047 then
    if fraction = 0 then .infinite negative else .nan
  else if field = 0 then .finite negative fraction (-1074)
  else .finite negative (fraction + Nat.pow 2 52) (field - 1075)

/-- Whether the sign bit is set. -/
def isNegative (x : Float) : Bool :=
  x.toBits.toNat >>> 63 = 1

/-- Whether a double is neither infinite nor a NaN. -/
def isFinite (x : Float) : Bool :=
  match parts x with
  | .finite .. => true
  | _ => false

/-- `mant · 2 ^ exp` as a quotient of natural numbers. -/
def ratio (mant : Nat) (exp : Int) : Nat × Nat :=
  if 0 ≤ exp then (mant <<< exp.toNat, 1) else (mant, 1 <<< (-exp).toNat)

/-- A whole number with a sign. -/
def signed (negative : Bool) (n : Nat) : Int :=
  if negative then -(n : Int) else n

/-! ## The nearest double -/

/-- The double with this sign, mantissa (below `2 ^ 53`) and power of two; `none` past the largest
    finite one. -/
def pack (negative : Bool) (mant : Nat) (exp : Int) : Option Float :=
  let sign := if negative then 1 <<< 63 else 0
  if mant < Nat.pow 2 52 then some (Float.ofBits (UInt64.ofNat (sign + mant)))
  else if 971 < exp then none
  else some (Float.ofBits (UInt64.ofNat (sign + ((exp + 1075).toNat <<< 52) + (mant - Nat.pow 2 52))))

/-- The double nearest to `± num / den`, a half to the even mantissa; `none` if that is past the
    largest finite double. -/
def ofRatio (negative : Bool) (num den : Nat) : Option Float :=
  if num = 0 then pack negative 0 (-1074) else
    let scaled (q : Int) : Nat × Nat :=
      if 0 ≤ q then (num, den <<< q.toNat) else (num <<< (-q).toNat, den)
    let q₀ : Int := (num.log2 : Int) - (den.log2 : Int) - 52
    let (a, b) := scaled q₀
    let q₁ := if a / b < Nat.pow 2 52 then q₀ - 1 else q₀
    let q := max q₁ (-1074)
    let (a, b) := scaled q
    let m := roundHalfEven a b
    if m = Nat.pow 2 53 then pack negative (Nat.pow 2 52) (q + 1) else pack negative m q

/-- The double nearest to a whole number, if it is in range. -/
def ofInt (n : Int) : Option Float :=
  ofRatio (n < 0) n.natAbs 1

/-- The infinity of a sign. -/
def infinity (negative : Bool) : Float :=
  Float.ofBits (if negative then 0xFFF0000000000000 else 0x7FF0000000000000)

/-- The usual NaN. -/
def nan : Float :=
  Float.ofBits 0x7FF8000000000000

/-- The zero of a sign. -/
def zero (negative : Bool) : Float :=
  Float.ofBits (if negative then 0x8000000000000000 else 0)

/-- The double nearest to `± digits · 10 ^ exp`; past the largest finite one it is infinite. -/
def ofDecimal (negative : Bool) (digits : Nat) (exp : Int) : Float :=
  if digits = 0 then zero negative
  else
    let size : Int := (digits.log2 : Int) * 30103 / 100000 + exp
    if 330 < size then infinity negative
    else if size < -360 then zero negative
    else
      let (num, den) := if 0 ≤ exp then (digits * Nat.pow 10 exp.toNat, 1) else (digits, Nat.pow 10 (-exp).toNat)
      (ofRatio negative num den).getD (infinity negative)

/-! ## Whole numbers near a double -/

/-- The whole part of a finite double, toward zero. -/
def truncate : Parts → Int
  | .finite negative m e => let (num, den) := ratio m e; signed negative (num / den)
  | _ => 0

/-- The largest whole number at most a finite double. -/
def floor : Parts → Int
  | .finite negative m e => let (num, den) := ratio m e; (signed negative num).fdiv den
  | _ => 0

/-- The smallest whole number at least a finite double. -/
def ceil : Parts → Int
  | .finite negative m e => let (num, den) := ratio m e; -((signed (!negative) num).fdiv den)
  | _ => 0

/-- The whole number nearest to a finite double, a half to the even neighbour. -/
def nearest : Parts → Int
  | .finite negative m e => let (num, den) := ratio m e; signed negative (roundHalfEven num den)
  | _ => 0

/-- Whether a double is a whole number. -/
def isWhole : Parts → Bool
  | .finite _ m e => let (num, den) := ratio m e; num % den = 0
  | _ => false

/-- The largest whole double at most `x`; a zero keeps its sign. -/
def floorFloat (x : Float) : Float :=
  match parts x with
  | .finite negative m e =>
    if isWhole (.finite negative m e) then x
    else
      let n := floor (.finite negative m e)
      if n = 0 then zero negative else (ofInt n).getD x
  | _ => x

/-! ## Comparison with whole numbers -/

/-- The exact order of a whole number and a double; `none` for a NaN. -/
def compareInt (n : Int) (x : Float) : Option Ordering :=
  match parts x with
  | .finite negative m e =>
    let (num, den) := ratio m e
    some (compare (n * den) (signed negative num))
  | .infinite negative => some (if negative then .gt else .lt)
  | .nan => none

/-! ## Quotient and remainder -/

/-- The remainder of the exact quotient rounded toward zero, with the sign of `x`. -/
def remainderTowardZero (x y : Float) : Float :=
  match parts x, parts y with
  | .finite negative m e, .finite _ n f =>
    if n = 0 then nan
    else
      let low := min e f
      let r := (m <<< (e - low).toNat) % (n <<< (f - low).toNat)
      let (num, den) := ratio r low
      (ofRatio negative num den).getD nan
  | .finite .., .infinite _ => x
  | _, _ => nan

/-- The magnitude of `x` with the sign of `y`. -/
def copySign (x y : Float) : Float :=
  if isNegative x == isNegative y then x else -x

/-- The floored quotient and the remainder with the sign of the divisor, for a divisor that is not
    zero. -/
def divMod (x y : Float) : Float × Float :=
  let r := remainderTowardZero x y
  let d := (x - r) / y
  let (r, d) :=
    if r == 0.0 then (copySign 0.0 y, d)
    else if (y < 0.0) != (r < 0.0) then (r + y, d - 1.0)
    else (r, d)
  let q :=
    if d == 0.0 then copySign 0.0 (x / y)
    else
      let f := floorFloat d
      if d - f > 0.5 then f + 1.0 else f
  (q, r)

end Binary64

end Rulebook
