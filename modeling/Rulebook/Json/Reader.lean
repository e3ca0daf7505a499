/-
  Reading JSON texts.

  A reader takes the characters that are left and returns what it read with the characters after
  it.  A refusal names the cause and the characters from which on the text is at fault, so that its
  place is known.
-/
import Rulebook.Data.Basic
import Rulebook.Number.Reading

namespace Rulebook.Json

/-- Why a text is refused. -/
inductive Refusal where
  | value
  | propertyName
  | colon
  | comma
  | control
  | unterminated
  | escape
  | unitEscape
  | extra
  | byteOrderMark
  /-- A whole number with too many digits. -/
  | digits (count : Nat)

/-- The wording of a refusal. -/
def Refusal.message : Refusal → String
  | value => "Expecting value"
  | propertyName => "Expecting property name enclosed in double quotes"
  | colon => "Expecting ':' delimiter"
  | comma => "Expecting ',' delimiter"
  | control => "Invalid control character at"
  | unterminated => "Unterminated string starting at"
  | escape => "Invalid \\escape"
  | unitEscape => "Invalid \\uXXXX escape"
  | extra => "Extra data"
  | byteOrderMark => "Unexpected UTF-8 BOM (decode using utf-8-sig)"
  | digits _ => ""

/-- An attempt to read: a refusal comes with the characters from the fault on. -/
abbrev Attempt := Except (Refusal × List Char)

/-- Drops blanks between tokens. -/
def skip (cs : List Char) : List Char :=
  cs.dropWhile fun c => c = ' ' ∨ c = '\t' ∨ c = '\n' ∨ c = '\r'

/-! ## Texts -/

/-- The value of a hexadecimal digit. -/
def hexValue? (c : Char) : Option Nat :=
  match Reading.digitValue? c with
  | some d => if d < 16 then some d else none
  | none => none

/-- Four hexadecimal digits. -/
def unit? : List Char → Option Nat
  | [a, b, c, d] => do
    return (((← hexValue? a) * 16 + (← hexValue? b)) * 16 + (← hexValue? c)) * 16 + (← hexValue? d)
  | _ => none

/-- The character of an escape letter. -/
def escapeValue? : Char → Option Char
  | '"' => some '"'
  | '\\' => some '\\'
  | '/' => some '/'
  | 'b' => some '\x08'
  | 'f' => some '\x0c'
  | 'n' => some '\n'
  | 'r' => some '\r'
  | 't' => some '\t'
  | _ => none

/-- A pair of units beyond the basic plane, if `cs` goes on with its second unit. -/
def pairAfter (high : Nat) (cs : List Char) : Option (Char × List Char) :=
  if 0xd800 ≤ high ∧ high < 0xdc00 then
    match cs with
    | '\\' :: 'u' :: rest =>
      match unit? (rest.take 4) with
      | some low =>
        if 0xdc00 ≤ low ∧ low < 0xe000 ∧ 4 < rest.length then
          some (Char.ofNat (0x10000 + (high - 0xd800) * 0x400 + (low - 0xdc00)), rest.drop 4)
        else none
      | none => none
    | _ => none
  else none

/-- The characters up to the closing quote; `start` are the characters from the opening quote. -/
def textBody (start : List Char) : Nat → List Char → List Char → Attempt (String × List Char)
  | 0, _, _ => .error (.unterminated, start)
  | _ + 1, [], _ => .error (.unterminated, start)
  | fuel + 1, c :: rest, out =>
    if c = '"' then .ok (String.ofList out.reverse, rest)
    else if c = '\\' then
      match rest with
      | [] => .error (.unterminated, start)
      | 'u' :: more =>
        if more.length ≤ 4 then .error (.unitEscape, rest)
        else
          match unit? (more.take 4) with
          | none => .error (.unitEscape, rest)
          | some n =>
            match pairAfter n (more.drop 4) with
            | some (d, after) => textBody start fuel after (d :: out)
            | none =>
              let d := if 0xd800 ≤ n ∧ n < 0xe000 then Char.ofNat 0xfffd else Char.ofNat n
              textBody start fuel (more.drop 4) (d :: out)
      | e :: more =>
        match escapeValue? e with
        | some d => textBody start fuel more (d :: out)
        | none => .error (.escape, c :: rest)
    else if c.toNat < 32 then .error (.control, c :: rest)
    else textBody start fuel rest (c :: out)

/-- A text, after its opening quote; `start` are the characters from that quote on. -/
def textAfter (start : List Char) (cs : List Char) : Attempt (String × List Char) :=
  textBody start (cs.length + 1) cs []

/-! ## Numbers -/

/-- A fraction: a point with at least one digit. -/
def fractionOf : List Char → List Char × List Char
  | '.' :: d :: rest =>
    if d.isDigit then (d :: rest.takeWhile Char.isDigit, rest.dropWhile Char.isDigit)
    else ([], '.' :: d :: rest)
  | cs => ([], cs)

/-- An exponent with at least one digit. -/
def exponentOf (cs : List Char) : Option Int × List Char :=
  match cs with
  | c :: rest =>
    if c = 'e' ∨ c = 'E' then
      let (negative, ds) := Reading.sign rest
      let run := ds.takeWhile Char.isDigit
      if run.isEmpty then (none, cs)
      else
        let n : Int := Reading.decimalOf run
        (some (if negative then -n else n), ds.dropWhile Char.isDigit)
    else (none, cs)
  | [] => (none, cs)

/-- A number; a whole one unless it has a fraction or an exponent. -/
def numberOf (cs : List Char) : Attempt (Data × List Char) :=
  let (negative, body) := match cs with | '-' :: rest => (true, rest) | _ => (false, cs)
  let whole :=
    match body with
    | '0' :: _ => ['0']
    | _ => body.takeWhile Char.isDigit
  if whole.isEmpty then .error (.value, cs)
  else
    let (fraction, rest) := fractionOf (body.drop whole.length)
    let (exponent, rest) := exponentOf rest
    if fraction.isEmpty && exponent.isNone then
      if Reading.maxDigits < whole.length then .error (.digits whole.length, cs)
      else
        let n : Int := Reading.decimalOf whole
        .ok (.int (if negative then -n else n), rest)
    else
      let e := exponent.getD 0 - fraction.length
      .ok (.float (Binary64.ofDecimal negative (Reading.decimalOf (whole ++ fraction)) e), rest)

/-! ## Values -/

/-- What follows a fixed word at the start of a text. -/
def afterWord? (word : String) (cs : List Char) : Option (List Char) :=
  let w := word.toList
  if cs.take w.length = w then some (cs.drop w.length) else none

/-- Writes an entry of an object: in its place if the key is there, else at the end. -/
def put (entries : List (Data × Data)) (k : String) (v : Data) : List (Data × Data) :=
  let same (e : Data × Data) : Bool := match e.1 with | .text s => s == k | _ => false
  if entries.any same then entries.map fun e => if same e then (e.1, v) else e
  else entries ++ [(.text k, v)]

mutual

/-- A value at the start of the characters. -/
def valueOf : Nat → List Char → Attempt (Data × List Char)
  | 0, cs => .error (.value, cs)
  | fuel + 1, cs =>
    match cs with
    | '"' :: rest => do
      let (s, rest) ← textAfter cs rest
      return (.text s, rest)
    | '\x7b' :: rest =>
      match skip rest with
      | '\x7d' :: rest => .ok (.mapping [], rest)
      | rest => entriesOf fuel rest []
    | '[' :: rest =>
      match skip rest with
      | ']' :: rest => .ok (.list [], rest)
      | rest => itemsOf fuel rest []
    | _ =>
      match afterWord? "null" cs with
      | some rest => .ok (.null, rest)
      | none =>
      match afterWord? "true" cs with
      | some rest => .ok (.bool true, rest)
      | none =>
      match afterWord? "false" cs with
      | some rest => .ok (.bool false, rest)
      | none =>
      match afterWord? "NaN" cs with
      | some rest => .ok (.float Binary64.nan, rest)
      | none =>
      match afterWord? "Infinity" cs with
      | some rest => .ok (.float (Binary64.infinity false), rest)
      | none =>
      match afterWord? "-Infinity" cs with
      | some rest => .ok (.float (Binary64.infinity true), rest)
      | none => numberOf cs

/-- The items of an array from the first on, those before in reverse. -/
def itemsOf : Nat → List Char → List Data → Attempt (Data × List Char)
  | 0, cs, _ => .error (.value, cs)
  | fuel + 1, cs, before => do
    let (v, rest) ← valueOf fuel cs
    match skip rest with
    | ']' :: rest => .ok (.list (v :: before).reverse, rest)
    | ',' :: rest => itemsOf fuel (skip rest) (v :: before)
    | rest => .error (.comma, rest)

/-- The entries of an object from a key on. -/
def entriesOf : Nat → List Char → List (Data × Data) → Attempt (Data × List Char)
  | 0, cs, _ => .error (.value, cs)
  | fuel + 1, cs, before =>
    match cs with
    | '"' :: rest => do
      let (k, rest) ← textAfter cs rest
      match skip rest with
      | ':' :: rest => do
        let (v, rest) ← valueOf fuel (skip rest)
        match skip rest with
        | '\x7d' :: rest => .ok (.mapping (put before k v), rest)
        | ',' :: rest => entriesOf fuel (skip rest) (put before k v)
        | rest => .error (.comma, rest)
      | rest => .error (.colon, rest)
    | _ => .error (.propertyName, cs)

end

/-- The place of a position: its line and column. -/
def place (cs : List Char) (position : Nat) : Nat × Nat :=
  (cs.take position).foldl
    (fun (line, column) c => if c = '\n' then (line + 1, 1) else (line, column + 1)) (1, 1)

/-- A refusal as a fault, with its place in the whole text. -/
def Refusal.fault (all : List Char) (r : Refusal) (rest : List Char) : Fault :=
  match r with
  | .digits n => .integerTextTooManyDigits n
  | r =>
    let position := all.length - rest.length
    let (line, column) := place all position
    .jsonText r.message line column position

/-- The data that a JSON text writes. -/
def read (s : String) : Except Fault Data :=
  let cs := s.toList
  let refuse (r : Refusal) (rest : List Char) : Fault := r.fault cs rest
  if cs.head? = some (Char.ofNat 0xfeff) then .error (refuse .byteOrderMark cs)
  else
    match valueOf (cs.length + 2) (skip cs) with
    | .error (r, rest) => .error (refuse r rest)
    | .ok (d, rest) =>
      match skip rest with
      | [] => .ok d
      | rest => .error (refuse .extra rest)

end Rulebook.Json
