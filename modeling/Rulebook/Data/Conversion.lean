/-
  Conversions of plain data.

  * `toWhole`, `toDouble`: the number that data stands for, read from text where it is one;
  * `rounded`: a number rounded to a whole one or to decimal places;
  * `numeric?`: the number by which conditions compare data, if it has one;
  * `toEntries`: the entries of a mapping, or of a sequence of pairs.
-/
import Rulebook.Data.Basic
import Rulebook.Number.Reading

namespace Rulebook.Data

/-! ## Whole numbers -/

/-- A whole number, given as such. -/
def asWhole (d : Data) : Except Fault Int :=
  match d.number? with
  | some (.int n) => .ok n
  | _ => .error (.wantedInteger d.typeName)

/-- The whole number that a double is rounded to by `rounding`. -/
def roundedFloat (rounding : Parts → Int) (x : Float) : Except Fault Int :=
  match Binary64.parts x with
  | .nan => .error .nanToInteger
  | .infinite _ => .error .infinityToInteger
  | p => .ok (rounding p)

/-- A listing of at most 200 characters. -/
def shortListing (s : String) : String :=
  String.ofList ((Text.quoted s).toList.take 200)

/-- The whole number that a text writes in a base. -/
def readWhole (s : String) (base : Nat) : Except Fault Int :=
  match Reading.readInt s base with
  | .ok n => .ok n
  | .error .malformed => .error (.integerLiteral base (shortListing s))
  | .error (.tooLong n) => .error (.integerTextTooManyDigits n)

/-- The whole number of data. -/
def toWhole (d : Data) : Except Fault Int :=
  match d, d.number? with
  | _, some (.int n) => .ok n
  | _, some (.float x) => roundedFloat Binary64.truncate x
  | .text s, _ => readWhole s 10
  | _, _ => .error (.integerArgument d.typeName)

/-- The whole number that a text writes in a given base. -/
def toWholeInBase (d base : Data) : Except Fault Int := do
  let b ← base.asWhole
  if (b ≠ 0 ∧ b < 2) ∨ 36 < b then throw .integerBase
  match d with
  | .text s => readWhole s b.toNat
  | _ => throw .explicitBase

/-! ## Doubles -/

/-- The double of data. -/
def toDouble (d : Data) : Except Fault Float :=
  match d, d.number? with
  | _, some n => n.toFloat
  | .text s, _ =>
    match Reading.readFloat? s with
    | some x => .ok x
    | none => .error (.floatLiteral (Text.quoted s))
  | _, _ => .error (.floatArgument d.typeName)

/-- The number by which data is compared: that of a number, of a text that writes one, or the
    seconds since 1970 of an instant. -/
def numeric? (d : Data) : Except Fault (Option Float) :=
  match d, d.number? with
  | _, some n => n.toFloat.map some
  | .text s, _ => .ok (Reading.readFloat? (Text.trim s))
  | .instant t, _ => .ok (some t.epochSeconds)
  | _, _ => .ok none

/-! ## Rounding -/

/-- A double rounded to decimal places. -/
def roundedTo (x : Float) (places : Int) : Except Fault Float :=
  match roundFloat x places with
  | some y => .ok y
  | none => .error .roundedTooLarge

/-- A number rounded to a whole one, or to a number of decimal places. -/
def rounded (d : Data) (places : Option Data) : Except Fault Number :=
  match d.number?, places with
  | some (.int n), none => .ok (.int n)
  | some (.float x), none => (roundedFloat Binary64.nearest x).map .int
  | some (.int n), some p => do
    let k ← p.asWhole
    if 0 ≤ k then return .int n
    else if (n.natAbs.log2 : Int) < -k then return .int 0
    else return .int (roundToPowerOfTen n (-k).toNat)
  | some (.float x), some p => do return .float (← roundedTo x (← p.asWhole))
  | none, _ => .error (.noRounding d.typeName)

/-! ## Entries -/

/-- The items of a container: of a mapping its keys, of a text its characters. -/
def items? : Data → Option (List Data)
  | list ds => some ds
  | tuple ds => some ds
  | text s => some (s.toList.map fun c => text c.toString)
  | mapping es => some (es.map (·.1))
  | _ => none

/-- The pair at a position of a sequence of pairs. -/
def pairAt (position : Nat) (d : Data) : Except Fault (Data × Data) :=
  match d.items? with
  | some [k, v] => .ok (k, v)
  | some ds => .error (.pairLength position ds.length)
  | none => .error (.pairSequence position)

mutual

/-- The type that keeps data from being a key, if there is one. -/
def unhashable? : Data → Option String
  | list _ => some "list"
  | mapping _ => some "dict"
  | slice .. => some "slice"
  | cycle m => some (if m then "dict" else "list")
  | tuple items => unhashableAmong? items
  | _ => none

/-- The first type among several data that keeps one from being a key. -/
def unhashableAmong? : List Data → Option String
  | [] => none
  | d :: ds =>
    match unhashable? d with
    | some t => some t
    | none => unhashableAmong? ds

end

/-- Writes an entry: in its place if the key is there, else at the end. -/
def insertEntry (es : List (Data × Data)) (k v : Data) : List (Data × Data) :=
  if es.any fun e => e.1.equal k then es.map fun e => if e.1.equal k then (e.1, v) else e
  else es ++ [(k, v)]

/-- The entries that pairs from a position on add to those before. -/
def entriesFrom : Nat → List Data → List (Data × Data) → Except Fault (List (Data × Data))
  | _, [], before => .ok before
  | position, d :: ds, before => do
    let (k, v) ← pairAt position d
    match k.unhashable? with
    | some t => throw (.unhashable t)
    | none => entriesFrom (position + 1) ds (insertEntry before k v)

/-- The entries of a mapping, or those that a sequence of pairs gives. -/
def toEntries (d : Data) : Except Fault (List (Data × Data)) :=
  match d, d.items? with
  | mapping es, _ => .ok es
  | _, some ds => entriesFrom 0 ds []
  | _, none => .error (.notIterable d.typeName)

/-- The value of a text key in a list of entries. -/
def entry? (es : List (Data × Data)) (name : String) : Option Data :=
  (es.find? fun e => match e.1 with | text s => s == name | _ => false).map (·.2)

/-- The value of a text key of a mapping. -/
def field? (d : Data) (name : String) : Option Data :=
  match d with
  | mapping es => entry? es name
  | _ => none

end Rulebook.Data
