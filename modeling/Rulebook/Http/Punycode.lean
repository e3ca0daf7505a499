/-
  Names of hosts beyond basic Latin.

  A label with other characters is written in Punycode: its basic Latin characters, and after them
  the positions of the others as numbers in base 36 whose digits have variable weight.
-/
import Rulebook.Text.CaseMap
import Rulebook.Text.Identifier

namespace Rulebook.Http.Punycode

def base : Nat := 36
def leastThreshold : Nat := 1
def mostThreshold : Nat := 26

/-- A digit. -/
def digit (n : Nat) : Char :=
  if n < 26 then Char.ofNat ('a'.toNat + n) else Char.ofNat ('0'.toNat + (n - 26))

/-- The bias after a number, from its size and the number of characters so far. -/
def bias (delta points : Nat) (first : Bool) : Nat :=
  let delta := if first then delta / 700 else delta / 2
  go 64 (delta + delta / points) 0
where
  /-- Divides down to the range of one digit. -/
  go : Nat → Nat → Nat → Nat
    | 0, _, k => k
    | fuel + 1, delta, k =>
      if (base - leastThreshold) * mostThreshold / 2 < delta then
        go fuel (delta / (base - leastThreshold)) (k + base)
      else k + (base - leastThreshold + 1) * delta / (delta + 38)

/-- The threshold of the digit at a place. -/
def threshold (k bias : Nat) : Nat :=
  if k ≤ bias then leastThreshold
  else if bias + mostThreshold ≤ k then mostThreshold
  else k - bias

/-- The digits of a number. -/
def number (bias : Nat) : Nat → Nat → Nat → List Char
  | 0, q, _ => [digit q]
  | fuel + 1, q, k =>
    let t := threshold k bias
    if q < t then [digit q]
    else digit (t + (q - t) % (base - t)) :: number bias fuel ((q - t) / (base - t)) (k + base)

/-- What is known while the characters of a label are written: the distance since the last number,
    the bias, the number of characters so far, whether none was beyond basic Latin. -/
structure State where
  delta : Nat
  bias : Nat
  points : Nat
  first : Bool
  output : List Char

/-- Goes through the characters of a label for one code point. -/
def pass (n : Nat) (s : State) (c : Nat) : State :=
  if c < n then { s with delta := s.delta + 1 }
  else if c = n then
    { delta := 0
      bias := Punycode.bias s.delta (s.points + 1) s.first
      points := s.points + 1
      first := false
      output := s.output ++ number s.bias 64 s.delta base }
  else s

/-- Writes the code points beyond basic Latin in ascending order, `last` being the one before. -/
def points (label : List Nat) : List Nat → Nat → State → State
  | [], _, s => s
  | n :: rest, last, s =>
    let s := { s with delta := s.delta + (n - last) * (s.points + 1) }
    let s := label.foldl (pass n) s
    points label rest (n + 1) { s with delta := s.delta + 1 }

/-- The Punycode of a label. -/
def encode (label : List Char) : List Char :=
  let codes := label.map Char.toNat
  let basic := label.filter fun c => c.toNat < 128
  let others := ((codes.filter (128 ≤ ·)).mergeSort fun a b => a ≤ b).eraseDups
  let start : State := ⟨0, 72, basic.length, true, []⟩
  basic ++ (if basic.isEmpty then [] else ['-']) ++ (points codes others 128 start).output

/-- Whether a label may be part of a name. -/
def isLabel (label : List Char) : Bool :=
  !label.isEmpty && label.head? != some '-' && label.getLast? != some '-' &&
    (label.drop 2).take 2 != ['-', '-'] &&
    label.all fun c => c = '-' || (Text.isIdentifierPart c && c != '_')

/-- The most characters of a written label. -/
def maxLabel : Nat := 63

/-- The most characters of a written name, apart from a dot at its end. -/
def maxName : Nat := 253

/-- The written form of a label. -/
def label? (label : List Char) : Option (List Char) :=
  if !isLabel label then none
  else
    let written :=
      if label.all fun c => c.toNat < 128 then label else "xn--".toList ++ encode label
    if written.length ≤ maxLabel then some written else none

/-- Whether a character separates labels. -/
def isDot (c : Char) : Bool :=
  c = '.' || c = '\u3002' || c = '\uff0e' || c = '\uff61'

/-- The labels of a name. -/
def labels : List Char → List (List Char)
  | [] => [[]]
  | c :: cs =>
    if isDot c then [] :: labels cs
    else
      match labels cs with
      | [] => [[c]]
      | l :: ls => (c :: l) :: ls

/-- The written form of a name; a dot at its end stays. -/
def name? (cs : List Char) : Option (List Char) := do
  let ls := labels cs
  let (ls, final) := if 1 < ls.length ∧ ls.getLast? = some [] then (ls.dropLast, ['.']) else (ls, [])
  let written := List.intercalate ['.'] (← ls.mapM label?)
  if written.length ≤ maxName then some (written ++ final) else none

end Rulebook.Http.Punycode
