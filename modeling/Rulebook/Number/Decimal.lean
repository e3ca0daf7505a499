/-
  Decimal texts of doubles.

  `shortest` finds the fewest decimal digits that read back as the double; of several such numbers
  it is the nearest one.  `fixedPoint`, `scientific` and `general` round the exact value to a given
  number of digits, a half going to the even digit.  How digits are laid out (where positional
  notation ends, the width of an exponent, the names of the values that are no numbers) is one
  `FloatLayout` per kind of text.
-/
import Rulebook.Number.Binary64

namespace Rulebook

/-- The positive number `digits · 10 ^ exp`. -/
structure Decimal where
  digits : Nat
  exp : Int

namespace Decimal

/-! ## Digits -/

/-- `num · 10 ^ -p / den` as a quotient. -/
def shifted (num den : Nat) (p : Int) : Nat × Nat :=
  if 0 ≤ p then (num, den * Nat.pow 10 p.toNat) else (num * Nat.pow 10 (-p).toNat, den)

/-- The largest `k` with `10 ^ k ≤ num / den`, for a positive quotient. -/
def leadingExponent (num den : Nat) : Int :=
  let estimate := (((num.log2 : Int) - den.log2) * 30103).fdiv 100000
  let reaches (k : Int) : Bool := let (a, b) := shifted num den k; b ≤ a
  if reaches (estimate + 1) then estimate + 1
  else if reaches estimate then estimate
  else if reaches (estimate - 1) then estimate - 1
  else estimate - 2

/-- Drops final zeros of the digits, at most `fuel` of them. -/
def dropZeros : Nat → Decimal → Decimal
  | 0, d => d
  | fuel + 1, d =>
    if d.digits % 10 = 0 ∧ d.digits ≠ 0 then dropZeros fuel ⟨d.digits / 10, d.exp + 1⟩ else d

/-- Of the two neighbours of a double on the grid of multiples of `10 ^ p`, the one that reads back
    as the double: the nearer one if both do. All bounds are over the denominator `den`. -/
def onGrid (value low high den : Nat) (closed : Bool) (p : Int) : Option Nat :=
  let (v, d) := shifted value den p
  let inside (c : Nat) : Bool :=
    let (l, e) := shifted low den p
    let (h, f) := shifted high den p
    if closed then l ≤ c * e && c * f ≤ h else l < c * e && c * f < h
  let a := v / d
  match inside a, inside (a + 1) with
  | true, true => some (roundHalfEven v d)
  | true, false => some a
  | false, true => some (a + 1)
  | false, false => none

/-- The first grid, from `n` digits on, with a point that reads back. -/
def firstGrid (value low high den : Nat) (closed : Bool) (lead : Int) : Nat → Nat → Decimal
  | 0, _ => ⟨value / den, 0⟩
  | fuel + 1, n =>
    let p := lead - n + 1
    match onGrid value low high den closed p with
    | some c => dropZeros 20 ⟨c, p⟩
    | none => firstGrid value low high den closed lead fuel (n + 1)

/-- The fewest digits that read back as the double `mant · 2 ^ exp`, for a positive mantissa. -/
def shortest (mant : Nat) (exp : Int) : Decimal :=
  let (num, den) := Binary64.ratio mant exp
  let unit := num / mant
  let below := if mant = Nat.pow 2 52 ∧ -1074 < exp then unit else 2 * unit
  firstGrid (4 * num) (4 * num - below) (4 * num + 2 * unit) (4 * den) (mant % 2 = 0)
    (leadingExponent num den) 18 1

/-! ## Layout -/

/-- How a double is written. -/
structure FloatLayout where
  /-- The least power of ten of the leading digit that is written positionally. -/
  positionalFrom : Int
  /-- The first power of ten that is not. -/
  positionalBelow : Int
  /-- The text of an infinity, after its sign. -/
  infinity : String
  /-- The text of a NaN. -/
  nan : String

/-- At least two digits. -/
def twoDigits (n : Nat) : String :=
  if n < 10 then "0" ++ toString n else toString n

/-- An exponent with its sign and at least two digits. -/
def exponentText (e : Int) : String :=
  (if e < 0 then "e-" else "e+") ++ twoDigits e.natAbs

/-- `n` zeros. -/
def zeros (n : Nat) : String :=
  String.ofList (List.replicate n '0')

/-- Digits with a point before the last `places` of them; zeros are put in front where needed. -/
def withPoint (digits : Nat) (places : Nat) : String :=
  let cs := (toString digits).toList
  let cs := List.replicate (places + 1 - cs.length) '0' ++ cs
  let whole := cs.take (cs.length - places)
  if places = 0 then String.ofList whole
  else String.ofList (whole ++ '.' :: cs.drop (cs.length - places))

/-- The text of a positive decimal: positional within the layout's range, else with an exponent. -/
def text (layout : FloatLayout) (d : Decimal) : String :=
  let ds := (toString d.digits).toList
  let lead := d.exp + ds.length - 1
  if layout.positionalFrom ≤ lead ∧ lead < layout.positionalBelow then
    if 0 ≤ d.exp then toString d.digits ++ zeros d.exp.toNat ++ ".0"
    else withPoint d.digits (-d.exp).toNat
  else
    match ds with
    | [c] => c.toString ++ exponentText lead
    | c :: rest => String.ofList (c :: '.' :: rest) ++ exponentText lead
    | [] => ""

end Decimal

open Decimal

/-- The shortest text of a double that reads back as it. -/
def floatText (layout : FloatLayout) (x : Float) : String :=
  match Binary64.parts x with
  | .nan => layout.nan
  | .infinite negative => (if negative then "-" else "") ++ layout.infinity
  | .finite negative m e =>
    (if negative then "-" else "") ++ if m = 0 then "0.0" else (shortest m e).text layout

/-! ## A given number of digits -/

/-- Digits that keep their point even where nothing follows it, if `always`. -/
def pointed (always : Bool) (s : String) : String :=
  if always && !s.contains '.' then s ++ "." else s

/-- The magnitude of a finite double with `places` digits after the point. -/
def fixedPoint (mant : Nat) (exp : Int) (places : Nat) (point : Bool) : String :=
  let (num, den) := Binary64.ratio mant exp
  pointed point (withPoint (roundHalfEven (num * Nat.pow 10 places) den) places)

/-- The magnitude of a finite double rounded to `n` significant digits: the digits, and the power
    of ten of the first. -/
def significant (mant : Nat) (exp : Int) (n : Nat) : Nat × Int :=
  if mant = 0 then (0, 0)
  else
    let (num, den) := Binary64.ratio mant exp
    let lead := leadingExponent num den
    let (a, b) := shifted num den (lead - n + 1)
    let c := roundHalfEven a b
    if c = Nat.pow 10 n then (c / 10, lead + 1) else (c, lead)

/-- The magnitude of a finite double with one digit before the point and `places` after it. -/
def scientific (mant : Nat) (exp : Int) (places : Nat) (point : Bool) : String :=
  let (c, lead) := significant mant exp (places + 1)
  pointed point (withPoint c places) ++ exponentText lead

/-- Drops final zeros after a point, and then the point. -/
def dropFractionZeros (s : String) : String :=
  if s.contains '.' then
    let kept := s.toList.reverse.dropWhile (· = '0')
    String.ofList (match kept with | '.' :: rest => rest.reverse | _ => kept.reverse)
  else s

/-- The magnitude of a finite double with `precision` significant digits: positional where the
    leading power of ten is at least `-4` and below the precision, final zeros (and a point that
    nothing follows) dropped unless `keepZeros`. -/
def general (mant : Nat) (exp : Int) (precision : Nat) (keepZeros : Bool) : String :=
  let n := max precision 1
  let (c, lead) := significant mant exp n
  let trim := if keepZeros then pointed true else dropFractionZeros
  if -4 ≤ lead ∧ lead < n then
    trim (fixedPoint mant exp ((n : Int) - 1 - lead).toNat false)
  else trim (withPoint c (n - 1)) ++ exponentText lead

/-- A double with six significant digits at most. -/
def generalText (x : Float) : String :=
  match Binary64.parts x with
  | .nan => "nan"
  | .infinite negative => if negative then "-inf" else "inf"
  | .finite negative m e => (if negative then "-" else "") ++ general m e 6 false

/-- `x` rounded to the nearest multiple of `10 ^ -places`, as a double; a half goes to the even
    digit.  `none` if the result is out of range. -/
def roundFloat (x : Float) (places : Int) : Option Float :=
  match Binary64.parts x with
  | .finite negative m e =>
    if 323 < places then some x
    else if places < -308 then some (Binary64.zero negative)
    else
      let (num, den) := Binary64.ratio m e
      let (a, b) := shifted num den (-places)
      let c := roundHalfEven a b
      let (num, den) := if 0 ≤ places then (c, Nat.pow 10 places.toNat) else (c * Nat.pow 10 (-places).toNat, 1)
      Binary64.ofRatio negative num den
  | _ => some x

end Rulebook
