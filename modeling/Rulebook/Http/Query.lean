/-
  Queries of addresses.

  A query has values by name, in the order in which the names came.  It is read from a text, from a
  mapping whose values may be lists, or from a list of pairs.
-/
import Rulebook.Data.Conversion
import Rulebook.Http.Address
import Rulebook.Keyed

namespace Rulebook.Http

/-- Values by name. -/
abbrev Query := Keyed String (List String)

namespace Query

/-! ## From text -/

/-- The name and the value that a part of a query writes. -/
def pairOf (part : List Char) : String × String :=
  let name := part.takeWhile (· ≠ '=')
  (decodeForm name, decodeForm (part.drop (name.length + 1)))

/-- One more value of a name. -/
def add (q : Query) (name value : String) : Query :=
  q.put name ((q.get? name).getD [] ++ [value])

/-- The query that a text writes. -/
def ofText (s : String) : Query :=
  ((Address.splitAt '&' s.toList).filter (!·.isEmpty)).foldl
    (fun q part => q.add (pairOf part).1 (pairOf part).2) {}

/-! ## From data -/

/-- A value in a query: truth values in small letters, nothing for `null`. -/
def valueText : Data → Except Fault String
  | .null => .ok ""
  | .bool b => .ok (if b then "true" else "false")
  | d => d.asText

/-- The item of data at a place. -/
def itemOf (d : Data) (n : Nat) : Except Fault Data :=
  let at? (ds : List Data) (s : Sequence) : Except Fault Data :=
    match ds[n]? with
    | some d => .ok d
    | none => .error (.indexRange s)
  match d with
  | .list ds => at? ds .list
  | .tuple ds => at? ds .tuple
  | .text s => at? (s.toList.map fun c => .text c.toString) .text
  | .mapping es =>
    match es.find? fun e => e.1.equal (.int n) with
    | some e => .ok e.2
    | none => .error (.missingKey (toString n))
  | d => .error (.notSubscriptable d.typeName)

/-- Adds a value under a name. -/
def addValue (groups : List (Data × List Data)) (name value : Data) : List (Data × List Data) :=
  if groups.any fun g => g.1.equal name then
    groups.map fun g => if g.1.equal name then (g.1, g.2 ++ [value]) else g
  else groups ++ [(name, [value])]

/-- The values by name of a list of pairs. -/
def ofPairs : List Data → List (Data × List Data) → Except Fault (List (Data × List Data))
  | [], groups => .ok groups
  | d :: ds, groups => do
    let name ← itemOf d 0
    match name.unhashable? with
    | some t => throw (.unhashable t)
    | none => ofPairs ds (addValue groups name (← itemOf d 1))

/-- The values by name of data that is no text. -/
def groupsOf : Data → Except Fault (List (Data × List Data))
  | .list ds => ofPairs ds []
  | .tuple ds => ofPairs ds []
  | .mapping es =>
    .ok (es.map fun e =>
      match e.2 with
      | .list ds => (e.1, ds)
      | .tuple ds => (e.1, ds)
      | d => (e.1, [d]))
  | d => .error (.noAttribute d.typeName "items")

/-- The query with the names and values written out. -/
def ofGroups : List (Data × List Data) → Query → Except Fault Query
  | [], q => .ok q
  | g :: gs, q => do
    let name ← g.1.asText
    let values ← g.2.mapM valueText
    ofGroups gs (q.put name values)

/-- The query that data stands for. -/
def ofData : Data → Except Fault Query
  | .text s => .ok (ofText s)
  | d => do ofGroups (← groupsOf d) {}

/-! ## To text -/

/-- A query in one piece; `none` if it has no names at all. -/
def text? (q : Query) : Option (List Char) :=
  if q.entries.isEmpty then none
  else
    some <| List.intercalate ['&'] <| q.entries.flatMap fun e =>
      e.2.map fun v => encodeForm e.1 ++ '=' :: encodeForm v

end Query

end Rulebook.Http
