/-
  Comparing values with sharing.

  Values are compared part by part, and objects by what they hold.  Two references to one object are
  equal at once.  Two objects that hold themselves may lead from one pair of objects back to that
  pair; such a comparison has no end, and ends with a fault.

  * `Heap.equal`: whether two values are equal;
  * `Heap.compareBy`: which of two values comes first.
-/
import Rulebook.Heap

namespace Rulebook

/-! ## Parts of values -/

namespace Value

/-- Whether a value refers to an object. -/
def isObject : Value → Bool
  | list _ | mapping _ => true
  | _ => false

mutual

/-- Whether two values are equal, given whether two objects are that are not the same one. Tuples of
    different lengths are compared as far as both go. -/
def equalBy (objects : Ref → Ref → Except Fault Bool) : Value → Value → Except Fault Bool
  | list r, list s => if r = s then .ok true else objects r s
  | mapping r, mapping s => if r = s then .ok true else objects r s
  | tuple vs, tuple ws => do return (← allEqualBy objects vs ws) && vs.length == ws.length
  | slice a b c, slice a' b' c' => do
    if !(← equalBy objects a a') then return false
    if !(← equalBy objects b b') then return false
    equalBy objects c c'
  | v, w =>
    .ok (!v.isObject && !w.isObject && (v.plain fun _ => .null).equal (w.plain fun _ => .null))

/-- Whether two lists of values are equal one by one, as far as both go. -/
def allEqualBy (objects : Ref → Ref → Except Fault Bool) :
    List Value → List Value → Except Fault Bool
  | v :: vs, w :: ws => do if ← equalBy objects v w then allEqualBy objects vs ws else return false
  | _, _ => .ok true

end

mutual

/-- Compares two values by order, given which are equal and how two lists compare. -/
def compareBy (equal : Value → Value → Except Fault Bool)
    (objects : Ref → Ref → Except Fault Bool) (op : Data.Comparison) :
    Value → Value → Except Fault Bool
  | list r, list s => objects r s
  | tuple vs, tuple ws => compareItemsBy equal objects op vs ws
  | v, w =>
    if v.isObject || w.isObject then .error (.unorderable op.sign v.typeName w.typeName)
    else Data.compareBy op (v.plain fun _ => .null) (w.plain fun _ => .null)

/-- Compares two lists of values by their first unequal members, else by length. -/
def compareItemsBy (equal : Value → Value → Except Fault Bool)
    (objects : Ref → Ref → Except Fault Bool) (op : Data.Comparison) :
    List Value → List Value → Except Fault Bool
  | [], [] => .ok (op.holds .eq)
  | [], _ :: _ => .ok (op.holds .lt)
  | _ :: _, [] => .ok (op.holds .gt)
  | v :: vs, w :: ws => do
    if ← equal v w then compareItemsBy equal objects op vs ws else compareBy equal objects op v w

end

end Value

/-- Whether every entry has an equal one among `fs`, given whether two objects are equal. -/
def Entries.withinBy (objects : Ref → Ref → Except Fault Bool) (fs : Entries) :
    Entries → Except Fault Bool
  | [] => .ok true
  | e :: es =>
    match fs.get? e.1 with
    | none => .ok false
    | some v => do if ← e.2.equalBy objects v then withinBy objects fs es else return false

/-! ## Objects -/

namespace Cell

/-- The name of an object's type in messages. -/
def typeName : Cell → String
  | list _ => "list"
  | mapping _ => "dict"

/-- Whether two objects are equal, given whether those in them are. -/
def equalBy (objects : Ref → Ref → Except Fault Bool) : Cell → Cell → Except Fault Bool
  | list vs, list ws =>
    if vs.length = ws.length then Value.allEqualBy objects vs ws else .ok false
  | mapping es, mapping fs =>
    if es.length = fs.length then Entries.withinBy objects fs es else .ok false
  | _, _ => .ok false

/-- Compares two lists by order, given which values are equal and how the lists in them compare. -/
def compareBy (equal : Value → Value → Except Fault Bool) (op : Data.Comparison)
    (objects : Ref → Ref → Except Fault Bool) : Cell → Cell → Except Fault Bool
  | list vs, list ws => Value.compareItemsBy equal objects op vs ws
  | c, d => .error (.unorderable op.sign c.typeName d.typeName)

end Cell

namespace Heap

/-- Compares two objects, given how those in them compare, unless they are being compared already,
    which would go on for ever; `fuel` bounds the length of paths through pairs. -/
def comparing (h : Heap) (cells : (Ref → Ref → Except Fault Bool) → Cell → Cell → Except Fault Bool) :
    Nat → List (Ref × Ref) → Ref → Ref → Except Fault Bool
  | 0, _, _, _ => .error .endlessComparison
  | fuel + 1, path, r, s =>
    if (r, s) ∈ path then .error .endlessComparison
    else
      match h.read? r, h.read? s with
      | some c, some d => cells (comparing h cells fuel ((r, s) :: path)) c d
      | _, _ => .ok false

/-- The length that no path through pairs of objects exceeds that meets none twice. -/
def pairBound (h : Heap) : Nat :=
  h.cells.size * h.cells.size + 1

/-- Whether two values are equal. -/
def equal (h : Heap) (v w : Value) : Except Fault Bool :=
  v.equalBy (h.comparing Cell.equalBy h.pairBound []) w

/-- Compares two values by order. -/
def compareBy (h : Heap) (op : Data.Comparison) (v w : Value) : Except Fault Bool :=
  v.compareBy h.equal (h.comparing (Cell.compareBy h.equal op) h.pairBound []) op w

end Heap

end Rulebook
