/-
  Reading numbers from text.

  A number may stand between blanks and have a sign; single underscores may separate digits, and
  decimal digits of any script count.  `readFloat?` reads a double (also an infinity or a NaN by
  name); `readInt` reads a whole number in a base from 2 to 36, or in the base that its own marker
  names.
-/
import Rulebook.Number.Decimal
import Rulebook.Text.Blank
import Rulebook.Text.Digit

namespace Rulebook.Reading

open Text

/-! ## Shared pieces -/

/-- Whether a blank may stand around a number: the separators of records are no such blanks. -/
def isPadding (c : Char) : Bool :=
  isBlank c && !(0x1c ≤ c.toNat && c.toNat ≤ 0x1f)

/-- The text between the blanks, every decimal digit written in the basic Latin ones. -/
def core (s : String) : List Char :=
  let plain (c : Char) : Char :=
    match decimalValue? c with
    | some d => Char.ofNat ('0'.toNat + d)
    | none => c
  let inner := (s.toList.dropWhile isPadding).reverse.dropWhile isPadding
  inner.reverse.map plain

/-- A sign, if there is one: whether it is a minus, and what follows it. -/
def sign : List Char → Bool × List Char
  | '-' :: rest => (true, rest)
  | '+' :: rest => (false, rest)
  | cs => (false, cs)

/-- The number that decimal digits write. -/
def decimalOf (ds : List Char) : Nat :=
  ds.foldl (fun n d => 10 * n + (d.toNat - '0'.toNat)) 0

/-! ## Doubles -/

/-- Drops underscores; refuses one that does not stand between two digits. -/
def joinDigits (before : Bool) : List Char → Option (List Char)
  | [] => some []
  | '_' :: d :: rest =>
    if before && d.isDigit then (joinDigits true rest).map (d :: ·) else none
  | ['_'] => none
  | c :: rest => (joinDigits c.isDigit rest).map (c :: ·)

/-- An exponent mark with its digits, or nothing at all. -/
def exponent : List Char → Option Int
  | [] => some 0
  | c :: rest =>
    if c = 'e' ∨ c = 'E' then
      let (negative, ds) := sign rest
      if !ds.isEmpty && ds.all Char.isDigit then
        some (if negative then -(decimalOf ds : Int) else decimalOf ds)
      else none
    else none

/-- The double nearest to an unsigned decimal text. -/
def unsignedFloat? (negative : Bool) (cs : List Char) : Option Float :=
  match (String.ofList cs).toLower with
  | "inf" | "infinity" => some (Binary64.infinity negative)
  | "nan" => some Binary64.nan
  | _ =>
    let whole := cs.takeWhile Char.isDigit
    let (fraction, rest) :=
      match cs.dropWhile Char.isDigit with
      | '.' :: more => (more.takeWhile Char.isDigit, more.dropWhile Char.isDigit)
      | more => ([], more)
    if whole.isEmpty && fraction.isEmpty then none
    else
      (exponent rest).map fun e =>
        Binary64.ofDecimal negative (decimalOf (whole ++ fraction)) (e - fraction.length)

/-- The double that a text writes. -/
def readFloat? (s : String) : Option Float := do
  let cs ← joinDigits false (core s)
  let (negative, rest) := sign cs
  unsignedFloat? negative rest

/-! ## Whole numbers -/

/-- Why a text is no whole number. -/
inductive IntFault where
  | malformed
  | tooLong (digits : Nat)
  deriving DecidableEq, Repr

/-- The most digits that a whole number may have in a text of a base that is no power of two. -/
def maxDigits : Nat := 4300

/-- The value of a digit in bases up to 36. -/
def digitValue? (c : Char) : Option Nat :=
  if c.isDigit then some (c.toNat - '0'.toNat)
  else if 'a' ≤ c ∧ c ≤ 'z' then some (c.toNat - 'a'.toNat + 10)
  else if 'A' ≤ c ∧ c ≤ 'Z' then some (c.toNat - 'A'.toNat + 10)
  else none

/-- The base that a marker such as `0x` names. -/
def markedBase? (c : Char) : Option Nat :=
  match c with
  | 'x' | 'X' => some 16
  | 'o' | 'O' => some 8
  | 'b' | 'B' => some 2
  | _ => none

/-- The digits at the start of a text in a base, with single underscores between them, and what
    follows; `none` if an underscore is misplaced. -/
def digitRun (base : Nat) : List Char → List Nat → Option (List Nat × List Char)
  | [], ds => some (ds.reverse, [])
  | '_' :: c :: rest, ds =>
    match digitValue? c with
    | some d => if d < base && !ds.isEmpty then digitRun base rest (d :: ds) else none
    | none => none
  | ['_'], _ => none
  | c :: rest, ds =>
    match digitValue? c with
    | some d => if d < base then digitRun base rest (d :: ds) else some (ds.reverse, c :: rest)
    | none => some (ds.reverse, c :: rest)

/-- Whether a base is a power of two. -/
def isPowerOfTwo (base : Nat) : Bool :=
  base ∈ [2, 4, 8, 16, 32]

/-- The base that the start of a text marks, and the digits after the mark, if the base may be that
    one; base 0 may be any. -/
def marked? (base : Nat) (cs : List Char) : Option (Nat × List Char) :=
  match cs with
  | '0' :: c :: rest =>
    match markedBase? c with
    | some b =>
      if base = 0 ∨ base = b then
        some (b, match rest with | '_' :: more => more | more => more)
      else none
    | none => none
  | _ => none

/-- The whole number that a text writes in a base; base 0 stands for the base that the text marks,
    ten if it marks none. -/
def readInt (s : String) (base : Nat) : Except IntFault Int := do
  let (negative, cs) := sign (core s)
  let marked := marked? base cs
  let (b, ds) := marked.getD (if base = 0 then 10 else base, cs)
  match digitRun b ds [] with
  | none => throw .malformed
  | some (values, rest) =>
    if values.isEmpty then throw .malformed
    if !isPowerOfTwo b && maxDigits < values.length then throw (.tooLong values.length)
    if !rest.isEmpty then throw .malformed
    if base = 0 && marked.isNone && values.head? = some 0 && values.any (· != 0) then
      throw .malformed
    let n := values.foldl (fun n d => b * n + d) 0
    return if negative then -(n : Int) else n

end Rulebook.Reading
