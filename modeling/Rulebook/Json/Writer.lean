/-
  JSON texts of plain data.

  How data is laid out is one `Layout`: which characters are escaped, what stands between items,
  whether the doubles that are no numbers are allowed, and what becomes of data that JSON has no
  form for.
-/
import Rulebook.Data.Basic

namespace Rulebook.Json

/-- What becomes of data that JSON has no form for. -/
inductive Foreign where
  | refused
  /-- Its text in a sentence. -/
  | text
  /-- Its listing. -/
  | listing
  deriving DecidableEq, Repr

/-- How data is written. -/
structure Layout where
  /-- Whether all characters beyond the basic Latin ones are escaped. -/
  asciiOnly : Bool
  /-- What stands between two items. -/
  itemSeparator : String
  /-- What stands between a key and its value. -/
  keySeparator : String
  /-- Whether infinities and NaNs are written by name. -/
  nonFinite : Bool
  foreign : Foreign

/-- Data inside texts: escapes for all but basic Latin characters, blanks after separators. -/
def inText : Layout := ⟨true, ", ", ": ", true, .text⟩

/-- Bodies of requests: no blanks, characters as they are, numbers only. -/
def inBody : Layout := ⟨false, ",", ":", false, .refused⟩

/-- Lines of a log: as in texts, with listings of what JSON has no form for. -/
def inLog : Layout := ⟨true, ", ", ": ", true, .listing⟩

/-- Doubles: as in listings, with other names for those that are no numbers. -/
def floatLayout : Decimal.FloatLayout := ⟨-4, 16, "Infinity", "NaN"⟩

/-- The escape of a 16-bit unit. -/
def unitEscape (n : Nat) : List Char :=
  '\\' :: 'u' :: Text.hexPadded 4 n

/-- One character between quotes. -/
def escapedChar (asciiOnly : Bool) (c : Char) : List Char :=
  let n := c.toNat
  if c = '"' ∨ c = '\\' then ['\\', c]
  else if c = '\n' then ['\\', 'n']
  else if c = '\r' then ['\\', 'r']
  else if c = '\t' then ['\\', 't']
  else if n = 0x08 then ['\\', 'b']
  else if n = 0x0c then ['\\', 'f']
  else if n < 32 then unitEscape n
  else if n < 127 ∨ !asciiOnly then [c]
  else if n < 0x10000 then unitEscape n
  else unitEscape (0xd800 + (n - 0x10000) / 0x400) ++ unitEscape (0xdc00 + (n - 0x10000) % 0x400)

/-- A text between quotes. -/
def quoted (asciiOnly : Bool) (s : String) : String :=
  String.ofList ('"' :: s.toList.flatMap (escapedChar asciiOnly) ++ ['"'])

/-- A double. -/
def number (layout : Layout) (x : Float) : Except Fault String :=
  if layout.nonFinite || Binary64.isFinite x then .ok (floatText floatLayout x)
  else .error .jsonNumber

/-- The text of a key. -/
def key (layout : Layout) : Data → Except Fault String
  | .text s => .ok s
  | .float x => number layout x
  | .bool b => .ok (if b then "true" else "false")
  | .null => .ok "null"
  | .int n => Data.intText n
  | d => .error (.jsonKey (shortName d))
where
  /-- The name of a type without its module. -/
  shortName : Data → String
    | .instant _ => "datetime"
    | .duration _ => "timedelta"
    | d => d.typeName

/-- Data that JSON has no form for. -/
def foreign (layout : Layout) (type text listing : String) : Except Fault String :=
  match layout.foreign with
  | .refused => .error (.jsonType type)
  | .text => .ok (quoted layout.asciiOnly text)
  | .listing => .ok (quoted layout.asciiOnly listing)

mutual

/-- The JSON text of plain data. -/
def write (layout : Layout) : Data → Except Fault String
  | .null => .ok "null"
  | .bool b => .ok (if b then "true" else "false")
  | .int n => Data.intText n
  | .float x => number layout x
  | .text s => .ok (quoted layout.asciiOnly s)
  | .list items => do return "[" ++ String.intercalate layout.itemSeparator (← writeAll layout items) ++ "]"
  | .tuple items => do return "[" ++ String.intercalate layout.itemSeparator (← writeAll layout items) ++ "]"
  | .mapping entries => do
    return "\x7b" ++ String.intercalate layout.itemSeparator (← writeEntries layout entries) ++ "\x7d"
  | .cycle _ => .error .circular
  | .instant t => foreign layout "datetime" t.text t.listing
  | .duration d => foreign layout "timedelta" (Duration.text d) (Duration.listing d)
  | .slice .. => .error (.jsonType "slice")

/-- The JSON texts of several data. -/
def writeAll (layout : Layout) : List Data → Except Fault (List String)
  | [] => .ok []
  | d :: ds => do
    let s ← write layout d
    let rest ← writeAll layout ds
    return s :: rest

/-- The JSON texts of the entries of a mapping. -/
def writeEntries (layout : Layout) : List (Data × Data) → Except Fault (List String)
  | [] => .ok []
  | (k, v) :: es => do
    let s ← key layout k
    let t ← write layout v
    let rest ← writeEntries layout es
    return (quoted layout.asciiOnly s ++ layout.keySeparator ++ t) :: rest

end

end Rulebook.Json
