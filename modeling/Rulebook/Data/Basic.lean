/-
  Plain data.

  `Data` is what values look like once references are followed: scalars, tuples, lists and mappings
  in order of insertion.  A container that holds itself shows as `cycle` where it comes again.
  Everything that only reads values is defined here on plain data: type names, truth, equality,
  order, and the two texts of a value (`text` in sentences, `listing` inside other listings).
-/
import Rulebook.Instant
import Rulebook.Number.Arithmetic
import Rulebook.Text.Quoted

namespace Rulebook

/-- Plain data. -/
inductive Data where
  | null
  | bool (b : Bool)
  | int (n : Int)
  | float (x : Float)
  | text (s : String)
  | instant (t : Instant)
  | duration (micros : Int)
  | tuple (items : List Data)
  | slice (start stop step : Data)
  | list (items : List Data)
  | mapping (entries : List (Data × Data))
  /-- A list or mapping that is being shown already. -/
  | cycle (mapping : Bool)
  deriving Inhabited

namespace Data

/-! ## Types, truth and number -/

/-- The name of a type in messages. -/
def typeName : Data → String
  | null => "NoneType"
  | bool _ => "bool"
  | int _ => "int"
  | float _ => "float"
  | text _ => "str"
  | instant _ => "datetime.datetime"
  | duration _ => "datetime.timedelta"
  | tuple _ => "tuple"
  | slice .. => "slice"
  | list _ => "list"
  | mapping _ => "dict"
  | cycle m => if m then "dict" else "list"

/-- Whether data counts as true: no zero, nothing empty. -/
def truth : Data → Bool
  | null => false
  | bool b => b
  | int n => n != 0
  | float x => !(x == 0.0)
  | text s => !s.isEmpty
  | instant _ => true
  | duration d => d != 0
  | tuple items => !items.isEmpty
  | slice .. => true
  | list items => !items.isEmpty
  | mapping entries => !entries.isEmpty
  | cycle _ => true

/-- Truth values, whole numbers and doubles as numbers. -/
def number? : Data → Option Number
  | bool b => some (.int (if b then 1 else 0))
  | int n => some (.int n)
  | float x => some (.float x)
  | _ => none

/-! ## Equality -/

mutual

/-- Whether two data are equal; numbers are equal across their types. -/
def equal : Data → Data → Bool
  | null, null => true
  | text s, text t => s == t
  | instant s, instant t => s.universal == t.universal
  | duration d, duration e => d == e
  | tuple xs, tuple ys => xs.length == ys.length && equalAll xs ys
  | slice a b c, slice a' b' c' => equal a a' && equal b b' && equal c c'
  | list xs, list ys => xs.length == ys.length && equalAll xs ys
  | mapping xs, mapping ys => xs.length == ys.length && within xs ys
  | bool b, y => equalNumber (.int (if b then 1 else 0)) y
  | int n, y => equalNumber (.int n) y
  | float x, y => equalNumber (.float x) y
  | _, _ => false

/-- Whether a datum is a number equal to `a`. -/
def equalNumber (a : Number) : Data → Bool
  | bool b => a.equal (.int (if b then 1 else 0))
  | int n => a.equal (.int n)
  | float x => a.equal (.float x)
  | _ => false

/-- Whether the members of two lists are equal one by one. -/
def equalAll : List Data → List Data → Bool
  | [], _ => true
  | _, [] => true
  | x :: xs, y :: ys => equal x y && equalAll xs ys

/-- Whether every entry has an equal one among `ys`. -/
def within : List (Data × Data) → List (Data × Data) → Bool
  | [], _ => true
  | (k, v) :: xs, ys =>
    (match ys.find? fun e => equal k e.1 with
      | some e => equal v e.2
      | none => false) && within xs ys

end

/-! ## Order -/

/-- The four comparisons by order. -/
inductive Comparison where
  | lt | le | gt | ge
  deriving DecidableEq, Repr

namespace Comparison

/-- The sign of a comparison in messages. -/
def sign : Comparison → String
  | lt => "<"
  | le => "<="
  | gt => ">"
  | ge => ">="

/-- Whether a comparison holds of an outcome. -/
def holds : Comparison → Ordering → Bool
  | lt, o => o == .lt
  | le, o => o != .gt
  | gt, o => o == .gt
  | ge, o => o != .lt

end Comparison

/-- The order of texts by code points. -/
def compareText (s t : String) : Ordering :=
  if s < t then .lt else if t < s then .gt else .eq

mutual

/-- Compares two data by order. Lists and tuples go by their first unequal members, else by
    length. -/
def compareBy (op : Comparison) : Data → Data → Except Fault Bool
  | text s, text t => .ok (op.holds (compareText s t))
  | instant s, instant t => .ok (op.holds (compare s.universal t.universal))
  | duration d, duration e => .ok (op.holds (compare d e))
  | tuple xs, tuple ys => compareItems op xs ys
  | list xs, list ys => compareItems op xs ys
  | bool b, y => compareNumber op "bool" (.int (if b then 1 else 0)) y
  | int n, y => compareNumber op "int" (.int n) y
  | float x, y => compareNumber op "float" (.float x) y
  | x, y => .error (.unorderable op.sign x.typeName y.typeName)

/-- Compares a number with a datum by order. -/
def compareNumber (op : Comparison) (type : String) (a : Number) (y : Data) : Except Fault Bool :=
  match y.number? with
  | some b => .ok (match a.order b with | some o => op.holds o | none => false)
  | none => .error (.unorderable op.sign type y.typeName)

/-- Compares two lists by their first unequal members, else by length. -/
def compareItems (op : Comparison) : List Data → List Data → Except Fault Bool
  | [], [] => .ok (op.holds .eq)
  | [], _ :: _ => .ok (op.holds .lt)
  | _ :: _, [] => .ok (op.holds .gt)
  | x :: xs, y :: ys => if equal x y then compareItems op xs ys else compareBy op x y

end

/-! ## Texts -/

/-- Doubles in listings: positional from `1e-4` to below `1e16`. -/
def floatLayout : Decimal.FloatLayout := ⟨-4, 16, "inf", "nan"⟩

/-- A whole number in decimal, unless that takes more than 4300 digits. -/
def intText (n : Int) : Except Fault String :=
  if n.natAbs.log2 < 14000 ∨ n.natAbs < Nat.pow 10 4300 then .ok (toString n)
  else .error .integerTextTooLong

mutual

/-- A datum as it stands inside a listing. -/
def listing : Data → Except Fault String
  | null => .ok "None"
  | bool b => .ok (if b then "True" else "False")
  | int n => intText n
  | float x => .ok (floatText floatLayout x)
  | text s => .ok (Text.quoted s)
  | instant t => .ok t.listing
  | duration d => .ok (Duration.listing d)
  | tuple [x] => do return "(" ++ (← listing x) ++ ",)"
  | tuple items => do return "(" ++ String.intercalate ", " (← listings items) ++ ")"
  | slice a b c => do
    return "slice(" ++ (← listing a) ++ ", " ++ (← listing b) ++ ", " ++ (← listing c) ++ ")"
  | list items => do return "[" ++ String.intercalate ", " (← listings items) ++ "]"
  | mapping entries => do
    return "\x7b" ++ String.intercalate ", " (← entryListings entries) ++ "\x7d"
  | cycle m => .ok (if m then "\x7b...\x7d" else "[...]")

/-- Listings of several data. -/
def listings : List Data → Except Fault (List String)
  | [] => .ok []
  | x :: xs => do
    let s ← listing x
    let rest ← listings xs
    return s :: rest

/-- Listings of the entries of a mapping. -/
def entryListings : List (Data × Data) → Except Fault (List String)
  | [] => .ok []
  | (k, v) :: es => do
    let s ← listing k
    let t ← listing v
    let rest ← entryListings es
    return (s ++ ": " ++ t) :: rest

end

/-- A datum in a sentence: a text is itself, all else is as in a listing. -/
def asText : Data → Except Fault String
  | text s => .ok s
  | instant t => .ok t.text
  | duration d => .ok (Duration.text d)
  | d => d.listing

end Data

end Rulebook
