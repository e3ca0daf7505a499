/-
  Literals: numbers, and the escapes of quoted texts.

  `number?` reads a number at the start of the characters.  `unescape?` gives the text that stands
  between quotes.
-/
import Rulebook.Number.Reading
import Rulebook.Script.Syntax
import Rulebook.Text.Identifier

namespace Rulebook.Script

/-! ## Numbers -/

/-- Whether what follows a number may follow it: no letter, unless a word such as "and" or "else"
    begins there. -/
def mayFollowNumber (cs : List Char) : Bool :=
  let startsWith (w : String) : Bool := cs.take w.length == w.toList
  match cs with
  | [] => true
  | c :: _ =>
    !(c.isAlphanum || c == '_' || 128 ≤ c.toNat) ||
      ["and", "else", "for", "if", "in", "is", "or", "not"].any startsWith

/-- Digits of a kind with single underscores between them, and what follows; `none` if there is no
    digit or an underscore is misplaced. -/
def digitGroups? (isDigit : Char → Bool) : List Char → Option (List Char × List Char)
  | '_' :: _ => none
  | cs => go cs.length cs []
where
  /-- The groups from here on, the digits before in reverse. -/
  go : Nat → List Char → List Char → Option (List Char × List Char)
    | 0, cs, out => if out.isEmpty then none else some (out.reverse, cs)
    | fuel + 1, cs, out =>
      let ds := cs.takeWhile isDigit
      if ds.isEmpty then none
      else
        match cs.dropWhile isDigit with
        | '_' :: rest => go fuel rest (ds.reverse ++ out)
        | rest => some ((ds.reverse ++ out).reverse, rest)

/-- A whole number after a marker such as `0x`. -/
def markedNumber? (base : Nat) (cs : List Char) : Option (Constant × List Char) := do
  let isDigit (c : Char) : Bool := match Reading.digitValue? c with | some d => d < base | none => false
  let cs := match cs with | '_' :: rest => rest | _ => cs
  let (ds, rest) ← digitGroups? isDigit cs
  if mayFollowNumber rest && !(match rest with | c :: _ => c.isDigit | [] => false) then
    some (.int (ds.foldl (fun n c => n * base + (Reading.digitValue? c).getD 0) 0), rest)
  else none

/-- An exponent; nothing at all if the mark is not followed by one. -/
def exponent? (cs : List Char) : Option (Option Int × List Char) :=
  match cs with
  | c :: rest =>
    if c = 'e' ∨ c = 'E' then
      let signed := match rest with | '+' :: _ => true | '-' :: _ => true | _ => false
      let (negative, ds) := Reading.sign rest
      if (match ds with | d :: _ => d.isDigit | [] => false) then do
        let (ds, rest) ← digitGroups? Char.isDigit ds
        let n : Int := Reading.decimalOf ds
        some (some (if negative then -n else n), rest)
      else if signed then none
      else some (none, cs)
    else some (none, cs)
  | [] => some (none, cs)

/-- A number at the start of the characters, which begin with a digit or with a point and a digit. -/
def decimalNumber? (cs : List Char) : Option (Constant × List Char) := do
  let (whole, rest) ← if cs.head? = some '.' then some ([], cs) else digitGroups? Char.isDigit cs
  let (point, fraction, rest) ←
    match rest with
    | '.' :: d :: more =>
      if d.isDigit then do
        let (ds, rest) ← digitGroups? Char.isDigit (d :: more)
        some (true, ds, rest)
      else some (true, [], d :: more)
    | ['.'] => some (true, [], [])
    | _ => some (false, [], rest)
  let (exponent, rest) ← exponent? rest
  match rest with
  | c :: more =>
    if c = 'j' ∨ c = 'J' then
      if mayFollowNumber more then some (.foreign, more) else none
    else if mayFollowNumber rest then finish point whole fraction exponent rest
    else none
  | [] => finish point whole fraction exponent rest
where
  /-- The literal of the parts that were read. -/
  finish (point : Bool) (whole fraction : List Char) (exponent : Option Int) (rest : List Char) :
      Option (Constant × List Char) :=
    if point || exponent.isSome then
      let e := exponent.getD 0 - fraction.length
      some (.float (Binary64.ofDecimal false (Reading.decimalOf (whole ++ fraction)) e), rest)
    else if whole.head? = some '0' && whole.any (· != '0') then none
    else if Reading.maxDigits < whole.length then none
    else some (.int (Reading.decimalOf whole), rest)

/-- A number at the start of the characters. -/
def number? (cs : List Char) : Option (Constant × List Char) :=
  match cs with
  | '0' :: c :: rest =>
    match Reading.markedBase? c with
    | some base => markedNumber? base rest
    | none => decimalNumber? cs
  | _ => decimalNumber? cs

/-! ## Escapes -/

/-- The value of hexadecimal digits, exactly `width` of them, and what follows. -/
def hexDigits? (width : Nat) (cs : List Char) : Option (Nat × List Char) :=
  let value? (c : Char) : Option Nat :=
    match Reading.digitValue? c with | some d => if d < 16 then some d else none | none => none
  if (cs.take width).length < width then none
  else do
    let ds ← (cs.take width).mapM value?
    some (ds.foldl (fun n d => 16 * n + d) 0, cs.drop width)

/-- A character by its code point; half a pair of units has none. -/
def charOf (n : Nat) : Char :=
  if 0xd800 ≤ n ∧ n < 0xe000 then Char.ofNat 0xfffd else Char.ofNat n

/-- The characters of an escape after its backslash, and what follows it. An unknown escape stands
    for itself, and one by name is malformed where it has not been spelled out. -/
def escape? (isBytes : Bool) (cs : List Char) : Option (List Char × List Char) :=
  match cs with
  | [] => none
  | '\n' :: rest => some ([], rest)
  | '\\' :: rest => some (['\\'], rest)
  | '\'' :: rest => some (['\''], rest)
  | '"' :: rest => some (['"'], rest)
  | 'a' :: rest => some (['\x07'], rest)
  | 'b' :: rest => some (['\x08'], rest)
  | 'f' :: rest => some (['\x0c'], rest)
  | 'n' :: rest => some (['\n'], rest)
  | 'r' :: rest => some (['\r'], rest)
  | 't' :: rest => some (['\t'], rest)
  | 'v' :: rest => some (['\x0b'], rest)
  | 'x' :: rest => (hexDigits? 2 rest).map fun (n, rest) => ([charOf n], rest)
  | c :: rest =>
    if '0' ≤ c ∧ c ≤ '7' then
      let ds := (c :: rest.take 2).takeWhile fun d => '0' ≤ d ∧ d ≤ '7'
      some ([charOf (ds.foldl (fun n d => 8 * n + (d.toNat - '0'.toNat)) 0)], cs.drop ds.length)
    else if isBytes then some (['\\', c], rest)
    else if c = 'u' then (hexDigits? 4 rest).map fun (n, rest) => ([charOf n], rest)
    else if c = 'U' then
      match hexDigits? 8 rest with
      | some (n, rest) => if n < 0x110000 then some ([charOf n], rest) else none
      | none => none
    else if c = 'N' then none
    else some (['\\', c], rest)

/-- The text that stands between quotes; `none` if an escape is malformed. -/
def unescape? (isBytes : Bool) (cs : List Char) : Option String :=
  go cs.length cs []
where
  /-- The text from here on, the characters before in reverse. -/
  go : Nat → List Char → List Char → Option String
    | _, [], out => some (String.ofList out.reverse)
    | 0, _ :: _, _ => none
    | fuel + 1, c :: rest, out =>
      if c = '\\' then
        match escape? isBytes rest with
        | some (ds, rest) => go fuel rest (ds.reverse ++ out)
        | none => none
      else go fuel rest (c :: out)

end Rulebook.Script
