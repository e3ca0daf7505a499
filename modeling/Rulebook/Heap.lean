/-
  Values with sharing.

  Lists and mappings are objects: a `Value` holds a reference to one, and every holder of the
  reference sees its changes.  The `Heap` is the finite store of these objects.  A mapping keeps its
  entries in order of insertion; an entry that is written again keeps its place and its key.

  * `Heap.plain` is the view: the plain data that a value stands for, all references followed.
  * `Heap.load` puts plain data on the heap, every list and mapping as a new object.
  * `read_write_self`, `read_write_of_ne`: a write changes one object; `read_alloc_of_lt`: a new
    object changes none.
-/
import Rulebook.Data.Basic

namespace Rulebook

/-- The name of an object on the heap. -/
abbrev Ref := Nat

/-- A value: a scalar, a tuple of values, or a reference to a list or mapping. -/
inductive Value where
  | null
  | bool (b : Bool)
  | int (n : Int)
  | float (x : Float)
  | text (s : String)
  | instant (t : Instant)
  | duration (micros : Int)
  | tuple (items : List Value)
  | slice (start stop step : Value)
  | list (ref : Ref)
  | mapping (ref : Ref)
  deriving Inhabited

namespace Value

mutual

/-- The plain data of a value, given that of the objects. -/
def plain (follow : Ref → Data) : Value → Data
  | null => .null
  | bool b => .bool b
  | int n => .int n
  | float x => .float x
  | text s => .text s
  | instant t => .instant t
  | duration d => .duration d
  | tuple items => .tuple (plainAll follow items)
  | slice a b c => .slice (plain follow a) (plain follow b) (plain follow c)
  | list r => follow r
  | mapping r => follow r

/-- The plain data of several values. -/
def plainAll (follow : Ref → Data) : List Value → List Data
  | [] => []
  | v :: vs => plain follow v :: plainAll follow vs

end

/-- The name of a value's type in messages. -/
def typeName : Value → String
  | null => "NoneType"
  | bool _ => "bool"
  | int _ => "int"
  | float _ => "float"
  | text _ => "str"
  | instant _ => "datetime.datetime"
  | duration _ => "datetime.timedelta"
  | tuple _ => "tuple"
  | slice .. => "slice"
  | list _ => "list"
  | mapping _ => "dict"

/-- Truth values, whole numbers and doubles as numbers. -/
def number? : Value → Option Number
  | bool b => some (.int (if b then 1 else 0))
  | int n => some (.int n)
  | float x => some (.float x)
  | _ => none

/-- A number as a value. -/
def ofNumber : Number → Value
  | .int n => .int n
  | .float x => .float x

mutual

/-- The type that keeps a value from being a key, if there is one. -/
def unhashable? : Value → Option String
  | list _ => some "list"
  | mapping _ => some "dict"
  | slice .. => some "slice"
  | tuple items => unhashableAmong? items
  | _ => none

/-- The first type among several values that keeps one from being a key. -/
def unhashableAmong? : List Value → Option String
  | [] => none
  | v :: vs =>
    match unhashable? v with
    | some t => some t
    | none => unhashableAmong? vs

end

/-- Whether two keys are the same: numbers are compared across their types. -/
def sameKey : Value → Value → Bool
  | text s, text t => s == t
  | a, b => (a.plain fun _ => .null).equal (b.plain fun _ => .null)

end Value

/-! ## Mappings -/

/-- The entries of a mapping, in order of insertion. -/
abbrev Entries := List (Value × Value)

namespace Entries

/-- The value of a key. -/
def get? (es : Entries) (k : Value) : Option Value :=
  (es.find? fun e => e.1.sameKey k).map (·.2)

/-- Writes an entry: in its place if the key is there, else at the end. -/
def insert (es : Entries) (k v : Value) : Entries :=
  if es.any fun e => e.1.sameKey k then
    es.map fun e => if e.1.sameKey k then (e.1, v) else e
  else es ++ [(k, v)]

/-- The entries of both, the second winning. -/
def merge (es fs : Entries) : Entries :=
  fs.foldl (fun acc e => acc.insert e.1 e.2) es

/-- Entries from a list of pairs, later ones winning. -/
def ofList (es : List (Value × Value)) : Entries :=
  merge [] es

/-- The value of a text key. -/
def field? (es : Entries) (name : String) : Option Value :=
  es.get? (.text name)

end Entries

/-! ## Objects -/

/-- An object: a list or a mapping. -/
inductive Cell where
  | list (items : List Value)
  | mapping (entries : Entries)
  deriving Inhabited

/-- The objects in use. -/
structure Heap where
  cells : Array Cell := #[]
  deriving Inhabited

namespace Heap

/-- The object of a reference. -/
def read? (h : Heap) (r : Ref) : Option Cell :=
  h.cells[r]?

/-- The items of a list; none of anything else. -/
def items (h : Heap) (r : Ref) : List Value :=
  match h.read? r with
  | some (.list vs) => vs
  | _ => []

/-- The entries of a mapping; none of anything else. -/
def entries (h : Heap) (r : Ref) : Entries :=
  match h.read? r with
  | some (.mapping es) => es
  | _ => []

/-- Replaces an object. -/
def write (h : Heap) (r : Ref) (c : Cell) : Heap :=
  ⟨h.cells.setIfInBounds r c⟩

/-- A new object. -/
def alloc (h : Heap) (c : Cell) : Ref × Heap :=
  (h.cells.size, ⟨h.cells.push c⟩)

/-- A new list. -/
def newList (h : Heap) (vs : List Value) : Value × Heap :=
  let (r, h) := h.alloc (.list vs)
  (.list r, h)

/-- A new mapping. -/
def newMapping (h : Heap) (es : Entries) : Value × Heap :=
  let (r, h) := h.alloc (.mapping es)
  (.mapping r, h)

theorem read_write_self (h : Heap) {r : Ref} (c : Cell) (hr : r < h.cells.size) :
    (h.write r c).read? r = some c := by
  simp [read?, write, hr]

theorem read_write_of_ne (h : Heap) {r s : Ref} (c : Cell) (hs : r ≠ s) :
    (h.write r c).read? s = h.read? s := by
  simp only [read?, write]
  exact Array.getElem?_setIfInBounds_ne hs

theorem read_alloc_of_lt (h : Heap) {r : Ref} (c : Cell) (hr : r < h.cells.size) :
    (h.alloc c).2.read? r = h.read? r := by
  simp [read?, alloc, Array.getElem?_push, Nat.ne_of_lt hr]

/-! ## The view -/

/-- The plain data of an object, apart from the objects on the path to it; `fuel` bounds the length
    of such paths. -/
def plainRef (h : Heap) : Nat → List Ref → Ref → Data
  | 0, _, r => .cycle (match h.read? r with | some (.mapping _) => true | _ => false)
  | fuel + 1, path, r =>
    match h.read? r with
    | some (.list vs) =>
      if path.contains r then .cycle false
      else .list (vs.map (Value.plain (plainRef h fuel (r :: path))))
    | some (.mapping es) =>
      if path.contains r then .cycle true
      else
        .mapping (es.map fun e =>
          (e.1.plain (plainRef h fuel (r :: path)), e.2.plain (plainRef h fuel (r :: path))))
    | none => .null

/-- The plain data that a value stands for. -/
def plain (h : Heap) (v : Value) : Data :=
  v.plain (h.plainRef (h.cells.size + 1) [])

mutual

/-- Puts plain data on the heap, every list and mapping as a new object. -/
def load (h : Heap) : Data → Value × Heap
  | .null => (.null, h)
  | .bool b => (.bool b, h)
  | .int n => (.int n, h)
  | .float x => (.float x, h)
  | .text s => (.text s, h)
  | .instant t => (.instant t, h)
  | .duration d => (.duration d, h)
  | .tuple items =>
    let (vs, h) := loadAll h items
    (.tuple vs, h)
  | .slice a b c =>
    let (a, h) := load h a
    let (b, h) := load h b
    let (c, h) := load h c
    (.slice a b c, h)
  | .list items =>
    let (vs, h) := loadAll h items
    h.newList vs
  | .mapping entries =>
    let (es, h) := loadEntries h entries
    h.newMapping (Entries.ofList es)
  | .cycle _ => (.null, h)

/-- Puts several data on the heap. -/
def loadAll (h : Heap) : List Data → List Value × Heap
  | [] => ([], h)
  | d :: ds =>
    let (v, h) := load h d
    let (vs, h) := loadAll h ds
    (v :: vs, h)

/-- Puts the entries of a mapping on the heap. -/
def loadEntries (h : Heap) : List (Data × Data) → List (Value × Value) × Heap
  | [] => ([], h)
  | (k, d) :: es =>
    let (k, h) := load h k
    let (v, h) := load h d
    let (es, h) := loadEntries h es
    ((k, v) :: es, h)

end

/-! ## Reading values -/

/-- Whether a value counts as true. -/
def truth (h : Heap) : Value → Bool
  | .list r => !(h.items r).isEmpty
  | .mapping r => !(h.entries r).isEmpty
  | v => (v.plain fun _ => .null).truth

/-- A value in a sentence. -/
def asText (h : Heap) (v : Value) : Except Fault String :=
  (h.plain v).asText

/-- A value inside a listing. -/
def listing (h : Heap) (v : Value) : Except Fault String :=
  (h.plain v).listing

end Heap

end Rulebook
