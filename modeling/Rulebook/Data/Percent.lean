/-
  Texts with percent directives.

  A directive is a percent sign, perhaps a key in brackets, flags, a width, a precision and a letter
  that says how its argument is written.  The arguments are a tuple, or one datum, or a mapping from
  which directives with keys take theirs.
-/
import Rulebook.Data.Basic
import Rulebook.Number.Word

namespace Rulebook.Data.Percent

/-! ## Directives -/

/-- The flags of a directive. -/
structure Flags where
  left : Bool := false
  sign : Bool := false
  blank : Bool := false
  alternate : Bool := false
  zero : Bool := false

/-- How an argument is laid out. -/
structure Spec where
  flags : Flags
  width : Nat
  precision : Option Nat
  letter : Char

/-- The arguments that are left: a queue, or a mapping to take from. The queue of a lone datum holds
    just it. -/
structure Arguments where
  queue : List Data
  /-- The datum that directives with keys look into, if it can be looked into. -/
  source : Option Data

/-- The arguments that a datum on the right of the sign gives. -/
def Arguments.of : Data → Arguments
  | .tuple items => ⟨items, none⟩
  | d =>
    match d with
    | .mapping _ => ⟨[d], some d⟩
    | .list _ => ⟨[d], some d⟩
    | _ => ⟨[d], none⟩

/-- The next argument. -/
def Arguments.next (a : Arguments) : Except Fault (Data × Arguments) :=
  match a.queue with
  | d :: rest => .ok (d, { a with queue := rest })
  | [] => .error .formatArguments

/-- Flags at the start of the characters. -/
def flags : List Char → Flags → Flags × List Char
  | '-' :: rest, f => flags rest { f with left := true }
  | '+' :: rest, f => flags rest { f with sign := true }
  | ' ' :: rest, f => flags rest { f with blank := true }
  | '#' :: rest, f => flags rest { f with alternate := true }
  | '0' :: rest, f => flags rest { f with zero := true }
  | cs, f => (f, cs)

/-- A number at the start of the characters. -/
def digits (cs : List Char) : Nat × List Char :=
  ((cs.takeWhile Char.isDigit).foldl (fun n d => 10 * n + (d.toNat - '0'.toNat)) 0,
    cs.dropWhile Char.isDigit)

/-- The characters of a key and what follows its closing bracket; `depth` counts open brackets. -/
def key? : List Char → Nat → List Char → Option (List Char × List Char)
  | [], _, _ => none
  | c :: rest, depth, out =>
    if c = ')' then
      if depth = 0 then some (out.reverse, rest) else key? rest (depth - 1) (c :: out)
    else key? rest (if c = '(' then depth + 1 else depth) (c :: out)

/-- A width or precision given by the next argument. -/
def starred (word : String) (bound : Int) (a : Arguments) : Except Fault (Int × Arguments) := do
  let (d, a) ← a.next
  let n ←
    match d with
    | .int n => pure n
    | .bool b => pure (if b then 1 else 0)
    | _ => throw .formatStar
  if -bound - 1 ≤ n ∧ n ≤ bound then return (n, a) else throw (.machineInteger word)

/-! ## Layout of arguments -/

/-- Joins a sign, the marker of a base and the body of a number to the width of a directive. -/
def layOut (s : Spec) (numeric : Bool) (text : List Char) : String :=
  let body :=
    match s.precision with
    | some p => if numeric || s.letter = 'c' then text else text.take p
    | none => text
  let (mark, body) :=
    if numeric then
      match body with
      | '-' :: rest => (['-'], rest)
      | '+' :: rest => (['+'], rest)
      | _ => (if s.flags.sign then ['+'] else if s.flags.blank then [' '] else [], body)
    else ([], body)
  let (base, body) :=
    if s.flags.alternate && (s.letter = 'x' || s.letter = 'X' || s.letter = 'o') then
      (body.take 2, body.drop 2)
    else ([], body)
  let pad := s.width - (mark.length + base.length + body.length)
  let spaces := List.replicate pad ' '
  String.ofList <|
    if s.flags.left then mark ++ base ++ body ++ spaces
    else if s.flags.zero && numeric then mark ++ base ++ List.replicate pad '0' ++ body
    else spaces ++ mark ++ base ++ body

/-- The digits of a whole number in the base of a letter, with the marker of the base if the
    directive asks for it. -/
def integerText (s : Spec) (n : Int) : Except Fault (List Char) := do
  let (digits, marker) ← (
    match s.letter with
    | 'o' => .ok (Nat.toDigits 8 n.natAbs, ['0', 'o'])
    | 'x' => .ok (Nat.toDigits 16 n.natAbs, ['0', 'x'])
    | 'X' => .ok ((Nat.toDigits 16 n.natAbs).map Char.toUpper, ['0', 'X'])
    | _ => do return ((← intText n.natAbs).toList, []) : Except Fault (List Char × List Char))
  let digits := List.replicate (s.precision.getD 0 - digits.length) '0' ++ digits
  let marker := if s.flags.alternate then marker else []
  return (if n < 0 then ['-'] else []) ++ marker ++ digits

/-- A double by a letter. -/
def floatLetter (s : Spec) (x : Float) : List Char :=
  let places := s.precision.getD 6
  let text :=
    match Binary64.parts x with
    | .nan => "nan"
    | .infinite negative => if negative then "-inf" else "inf"
    | .finite negative m e =>
      (if negative then "-" else "") ++
        match s.letter.toLower with
        | 'e' => scientific m e places s.flags.alternate
        | 'f' => fixedPoint m e places s.flags.alternate
        | _ => general m e places s.flags.alternate
  if s.letter.isUpper then text.toUpper.toList else text.toList

/-- The name of a type for the letters that want numbers. -/
def wholeNumber (s : Spec) (d : Data) : Except Fault Int :=
  let based := s.letter = 'o' || s.letter = 'x' || s.letter = 'X'
  match d.number? with
  | some (.int n) => .ok n
  | some (.float x) =>
    if based then .error (.formatInteger s.letter d.typeName)
    else
      match Binary64.parts x with
      | .nan => .error .nanToInteger
      | .infinite _ => .error .infinityToInteger
      | p => .ok (Binary64.truncate p)
  | none =>
    .error (if based then .formatInteger s.letter d.typeName else .formatNumber s.letter d.typeName)

/-- A listing in basic Latin characters. -/
def asciiListing (d : Data) : Except Fault (List Char) := do
  let s ← d.listing
  return s.toList.flatMap fun c =>
    let n := c.toNat
    if n < 128 then [c]
    else if n < 0x100 then '\\' :: 'x' :: Text.hexPadded 2 n
    else if n < 0x10000 then '\\' :: 'u' :: Text.hexPadded 4 n
    else '\\' :: 'U' :: Text.hexPadded 8 n

/-- An argument as its directive writes it; `index` is the place of the letter. -/
def write (s : Spec) (index : Nat) (d : Data) : Except Fault String :=
  match s.letter with
  | 's' => do return layOut s false (← d.asText).toList
  | 'r' => do return layOut s false (← d.listing).toList
  | 'a' => do return layOut s false (← asciiListing d)
  | 'c' =>
    match d with
    | .text t => if t.length = 1 then .ok (layOut s false t.toList) else .error .formatCharArgument
    | _ =>
      match d.number? with
      | some (.int n) =>
        if 0 ≤ n ∧ n < 0x110000 then .ok (layOut s false [Char.ofNat n.toNat])
        else .error .formatCharRange
      | _ => .error .formatCharArgument
  | l =>
    if l ∈ ['d', 'i', 'u', 'o', 'x', 'X'] then do
      let n ← wholeNumber s d
      return layOut s true (← integerText s n)
    else if l ∈ ['e', 'E', 'f', 'F', 'g', 'G'] then
      match d.number? with
      | some n => do return layOut s true (floatLetter s (← n.toFloat))
      | none => .error (.wantedReal d.typeName)
    else .error (.formatCharacter l index)

/-! ## Whole texts -/

/-- What a key names in the source of the arguments. -/
def lookUp (source : Data) (key : String) : Except Fault Data :=
  match source with
  | .mapping es =>
    match es.find? fun e => equal e.1 (.text key) with
    | some e => .ok e.2
    | none => .error (.missingKey (Text.quoted key))
  | _ => .error (.indexType .list "str")

/-- One directive after its percent sign: its layout and place, and the arguments and characters
    that are left. `total` is the length of the whole text. -/
def directive (total : Nat) (a : Arguments) (cs : List Char) :
    Except Fault (Spec × Nat × Arguments × List Char) := do
  let (a, cs) ← (
    match cs with
    | '(' :: rest =>
      match a.source with
      | none => .error .formatMapping
      | some source =>
        match key? rest 0 [] with
        | none => .error .formatKeyIncomplete
        | some (k, rest) => do
          let d ← lookUp source (String.ofList k)
          return ({ a with queue := [d] }, rest)
    | _ => .ok (a, cs) : Except Fault (Arguments × List Char))
  let (f, cs) := flags cs {}
  let (f, width, a, cs) ← (
    match cs with
    | '*' :: rest => do
      let (n, a) ← starred "ssize_t" Word.largest a
      return ({ f with left := f.left || n < 0 }, n.natAbs, a, rest)
    | _ =>
      let (n, rest) := digits cs
      if Word.largest < n then .error .formatWidthTooBig else .ok (f, n, a, rest) :
    Except Fault (Flags × Nat × Arguments × List Char))
  let (precision, a, cs) ← (
    match cs with
    | '.' :: '*' :: rest => do
      let (n, a) ← starred "int" Word.largestHalf a
      return (some n.toNat, a, rest)
    | '.' :: rest =>
      let (n, rest) := digits rest
      if Word.largestHalf < n then .error .formatPrecisionTooBig else .ok (some n, a, rest)
    | _ => .ok (none, a, cs) : Except Fault (Option Nat × Arguments × List Char))
  let cs := match cs with
    | 'h' :: rest => rest
    | 'l' :: rest => rest
    | 'L' :: rest => rest
    | _ => cs
  match cs with
  | [] => throw .formatIncomplete
  | letter :: rest => return (⟨f, width, precision, letter⟩, total - cs.length, a, rest)

/-- The text from here on, after `out`. -/
def go (total : Nat) : Nat → Arguments → List Char → String → Except Fault (String × Arguments)
  | 0, a, _, out => .ok (out, a)
  | _, a, [], out => .ok (out, a)
  | fuel + 1, a, cs, out =>
    let plain := cs.takeWhile (· ≠ '%')
    let out := out ++ String.ofList plain
    match cs.drop plain.length with
    | [] => .ok (out, a)
    | _ :: '%' :: rest => go total fuel a rest (out ++ "%")
    | _ :: rest => do
      let (s, index, a, rest) ← directive total a rest
      let (d, a) ← a.next
      let t ← write s index d
      go total fuel a rest (out ++ t)

/-- A text with its directives filled in. -/
def format (text : String) (argument : Data) : Except Fault String := do
  let cs := text.toList
  let (out, a) ← go cs.length (cs.length + 1) (Arguments.of argument) cs ""
  if a.source.isNone && !a.queue.isEmpty then throw .formatUnused
  return out

end Rulebook.Data.Percent
