/-
  Operators on values.

  Each operator is a function on the heap and its operands.  Sums and products of lists give new
  lists; nothing here changes an object that is there already.
-/
import Rulebook.Data.Percent
import Rulebook.Heap.Comparison
import Rulebook.Script.Syntax
import Rulebook.Text.Search

namespace Rulebook.Script

/-- An operation's value and the heap after it. -/
abbrev Yield := Except Fault (Value × Heap)

namespace Operator

/-- The sign of an operator in messages. -/
def sign : BinaryOp → String
  | .add => "+"
  | .sub => "-"
  | .mul => "*"
  | .div => "/"
  | .floorDiv => "//"
  | .mod => "%"
  | .pow => "** or pow()"
  | .unsupported name => name

/-- The fault of operands that an operator does not take. -/
def unsupported (op : BinaryOp) (v w : Value) : Fault :=
  .unsupportedOperands (sign op) v.typeName w.typeName

/-! ## Numbers -/

/-- An operator on two numbers; `none` for one that numbers do not have. -/
def onNumbers (op : BinaryOp) (a b : Number) : Option (Except Fault Number) :=
  match op with
  | .add => some (a.add b)
  | .sub => some (a.sub b)
  | .mul => some (a.mul b)
  | .div => some (a.div b)
  | .floorDiv => some (a.floorDiv b)
  | .mod => some (a.mod b)
  | .pow => some (a.pow b)
  | .unsupported _ => none

/-! ## Times -/

/-- A span, if it is not too long. -/
def span (micros : Int) : Except Fault Value :=
  if Duration.inRange micros then .ok (.duration micros)
  else .error (.spanOutOfRange (Duration.split micros).1)

/-- An instant moved by a span, if it stays in range. -/
def moved (t : Instant) (micros : Int) : Except Fault Value :=
  let wall := t.wall + micros
  if Instant.inRange wall then .ok (.instant ⟨wall, t.offset⟩) else .error .dateOutOfRange

/-- `n / d` rounded to the nearest whole number, a half to the even neighbour. -/
def nearestQuotient (n d : Int) : Int :=
  Binary64.signed ((n < 0) != (d < 0)) (roundHalfEven n.natAbs d.natAbs)

/-- A span times `± num / den`. -/
def scaled (micros : Int) (x : Float) (inverse : Bool) : Except Fault Value :=
  match Binary64.parts x with
  | .finite negative m e =>
    let (num, den) := Binary64.ratio m e
    let (num, den) := if inverse then (den, num) else (num, den)
    if den = 0 then .error .divisionByZero
    else span (nearestQuotient (micros * Binary64.signed negative num) den)
  | .nan => .error .nanToRatio
  | .infinite _ => .error .infinityToRatio

/-- An operator on instants and spans; `none` if it does not take the operands. -/
def onTimes (op : BinaryOp) (v w : Value) : Option (Except Fault Value) :=
  match op, v, w with
  | .add, .instant t, .duration d => some (moved t d)
  | .add, .duration d, .instant t => some (moved t d)
  | .add, .duration d, .duration e => some (span (d + e))
  | .sub, .instant s, .instant t => some (span (s.universal - t.universal))
  | .sub, .instant t, .duration d => some (moved t (-d))
  | .sub, .duration d, .duration e => some (span (d - e))
  | .mul, .duration d, w =>
    match w.number? with
    | some (.int n) => some (span (d * n))
    | some (.float x) => some (scaled d x false)
    | none => none
  | .mul, v, .duration d =>
    match v.number? with
    | some (.int n) => some (span (n * d))
    | some (.float x) => some (scaled d x false)
    | none => none
  | .div, .duration d, .duration e => some ((Number.div (.int d) (.int e)).map Value.ofNumber)
  | .div, .duration d, w =>
    match w.number? with
    | some (.int n) => some (if n = 0 then .error .divisionByZero else span (nearestQuotient d n))
    | some (.float x) => some (scaled d x true)
    | none => none
  | .floorDiv, .duration d, .duration e =>
    some (if e = 0 then .error .divisionByZero else .ok (.int (d.fdiv e)))
  | .floorDiv, .duration d, w =>
    match w.number? with
    | some (.int n) => some (if n = 0 then .error .divisionByZero else span (d.fdiv n))
    | _ => none
  | .mod, .duration d, .duration e =>
    some (if e = 0 then .error .divisionByZero else span (d.fmod e))
  | _, _, _ => none

/-! ## Sequences -/

/-- A list repeated. -/
def repeated {α : Type} (n : Nat) (xs : List α) : List α :=
  (List.replicate n xs).flatten

/-- A sequence repeated as often as `count` says. -/
def repeatSequence (h : Heap) (sequence count : Value) : Option Yield :=
  let times (use : Nat → Value × Heap) : Yield :=
    match count.number? with
    | some (.int n) =>
      if Word.fits n then .ok (use n.toNat) else .error .indexSizedInteger
    | _ => .error (.repetitionCount count.typeName)
  match sequence with
  | .text s => some (times fun n => (.text (String.join (List.replicate (if s.isEmpty then 0 else n) s)), h))
  | .tuple vs => some (times fun n => (.tuple (repeated (if vs.isEmpty then 0 else n) vs), h))
  | .list r =>
    let vs := h.items r
    some (times fun n => h.newList (repeated (if vs.isEmpty then 0 else n) vs))
  | _ => none

/-- Two sequences of one type joined; any other right operand is a fault. -/
def joined (h : Heap) (v w : Value) : Option Yield :=
  match v, w with
  | .text s, .text t => some (.ok (.text (s ++ t), h))
  | .text _, w => some (.error (.concatenation "str" w.typeName))
  | .tuple vs, .tuple ws => some (.ok (.tuple (vs ++ ws), h))
  | .tuple _, w => some (.error (.concatenation "tuple" w.typeName))
  | .list r, .list s => some (.ok (h.newList (h.items r ++ h.items s)))
  | .list _, w => some (.error (.concatenation "list" w.typeName))
  | _, _ => none

/-- An operator on operands that are not both numbers. -/
def onOthers (h : Heap) (op : BinaryOp) (v w : Value) : Yield :=
  match onTimes op v w with
  | some r => r.map fun v => (v, h)
  | none =>
    match op, v with
    | .add, _ => (joined h v w).getD (.error (unsupported op v w))
    | .mul, _ =>
      match repeatSequence h v w with
      | some r => r
      | none => (repeatSequence h w v).getD (.error (unsupported op v w))
    | .mod, .text s => (Data.Percent.format s (h.plain w)).map fun t => (.text t, h)
    | _, _ => .error (unsupported op v w)

/-- An operator on two values. -/
def binary (h : Heap) (op : BinaryOp) (v w : Value) : Yield :=
  match v.number?, w.number? with
  | some a, some b =>
    match onNumbers op a b with
    | some r => r.map fun n => (Value.ofNumber n, h)
    | none => .error (unsupported op v w)
  | _, _ => onOthers h op v w

/-- A sign before a value. -/
def signed (op : UnaryOp) (v : Value) : Except Fault Value :=
  let symbol := match op with | .plus => "+" | .minus => "-" | _ => "~"
  match v.number?, v with
  | some n, _ => .ok (Value.ofNumber (match op with | .minus => n.neg | _ => n))
  | none, .duration d => .ok (.duration (match op with | .minus => -d | _ => d))
  | none, _ => .error (.badUnaryOperand symbol v.typeName)

/-! ## Comparison -/

/-- Whether two values are the very same: objects by reference. Scalars and tuples are values here
    and have no identity of their own, so that they go by type and value. -/
def same (v w : Value) : Bool :=
  match v, w with
  | .list r, .list s => r == s
  | .mapping r, .mapping s => r == s
  | .list _, _ => false
  | .mapping _, _ => false
  | .tuple vs, .tuple ws => vs.length == ws.length && sameAll vs ws
  | v, w => v.typeName == w.typeName && (v.plain fun _ => .null).equal (w.plain fun _ => .null)
where
  /-- Whether scalars or references are the same one by one. -/
  sameAll : List Value → List Value → Bool
    | .list r :: vs, .list s :: ws => r == s && sameAll vs ws
    | .mapping r :: vs, .mapping s :: ws => r == s && sameAll vs ws
    | v :: vs, w :: ws =>
      v.typeName == w.typeName && (v.plain fun _ => .null).equal (w.plain fun _ => .null) &&
        sameAll vs ws
    | _, _ => true

/-- Whether a value is the same as one of several values or equal to it. -/
def isAmong (h : Heap) (v : Value) : List Value → Except Fault Bool
  | [] => .ok false
  | w :: ws => do
    if same w v then return true
    if ← h.equal w v then return true
    isAmong h v ws

/-- Whether a value is in a container. -/
def contains (h : Heap) (container v : Value) : Except Fault Bool :=
  match container with
  | .text s =>
    match v with
    | .text t => .ok (Text.isWithin t.toList s.toList)
    | _ => .error (.textMembership v.typeName)
  | .list r => isAmong h v (h.items r)
  | .tuple vs => isAmong h v vs
  | .mapping r =>
    match v.unhashable? with
    | some t => .error (.unhashable t)
    | none => .ok ((h.entries r).get? v).isSome
  | _ => .error (.notContainer container.typeName)

/-- A comparison of two values. -/
def compare (h : Heap) (op : CompareOp) (v w : Value) : Except Fault Bool :=
  match op with
  | .eq => h.equal v w
  | .ne => (h.equal v w).map (!·)
  | .lt => h.compareBy .lt v w
  | .le => h.compareBy .le v w
  | .gt => h.compareBy .gt v w
  | .ge => h.compareBy .ge v w
  | .isIn => contains h w v
  | .notIn => (contains h w v).map (!·)
  | .same => .ok (same v w)
  | .notSame => .ok (!same v w)

/-! ## Subscripts -/

/-- A bound of a slice. -/
def sliceBound? (v : Value) : Except Fault (Option Int) :=
  match v with
  | .null => .ok none
  | _ =>
    match v.number? with
    | some (.int n) => .ok (some n)
    | _ => .error .sliceBoundType

/-- A bound moved into a sequence of a given length; `forward` says which way the slice goes. -/
def clampBound (length : Int) (forward : Bool) (n : Int) : Int :=
  let n := if n < 0 then n + length else n
  if n < 0 then (if forward then 0 else -1)
  else if length ≤ n then (if forward then length else length - 1)
  else n

/-- The start, the stop and the step of a slice of a sequence of a given length. -/
def sliceRange (length : Nat) (start stop step : Value) : Except Fault (Int × Int × Int) := do
  let step := (← sliceBound? step).getD 1
  if step = 0 then throw .sliceStepZero
  let forward : Bool := 0 < step
  let start ← sliceBound? start
  let stop ← sliceBound? stop
  let bound (n : Option Int) (default : Int) : Int :=
    match n with
    | some n => clampBound length forward n
    | none => default
  return (bound start (if forward then 0 else length - 1),
    bound stop (if forward then length else -1), step)

/-- How many positions a slice has. -/
def sliceCount (start stop step : Int) : Nat :=
  if 0 < step then
    if start < stop then ((stop - start - 1) / step + 1).toNat else 0
  else if stop < start then ((start - stop - 1) / (-step) + 1).toNat
  else 0

/-- The items at the positions of a slice. -/
def sliceItems {α : Type} (xs : List α) (start stop step : Int) : List α :=
  let a := xs.toArray
  (List.range (sliceCount start stop step)).filterMap fun (i : Nat) =>
    a[(start + (i : Int) * step).toNat]?

/-- The place of an index in a sequence, if it has one. -/
def place? (length : Nat) (n : Int) : Option Nat :=
  let n := if n < 0 then n + length else n
  if 0 ≤ n ∧ n < length then some n.toNat else none

/-- An index into a sequence. -/
def index (kind : Sequence) (key : Value) : Except Fault Int :=
  match key.number? with
  | some (.int n) =>
    if Word.fits n then .ok n else .error .indexTooLarge
  | _ => .error (.indexType kind key.typeName)

/-- The item or the slice of a sequence. -/
def fromSequence {α : Type} (kind : Sequence) (xs : List α) (key : Value) :
    Except Fault (α ⊕ List α) :=
  match key with
  | .slice start stop step => do
    let (a, b, c) ← sliceRange xs.length start stop step
    return .inr (sliceItems xs a b c)
  | _ => do
    let n ← index kind key
    match (place? xs.length n).bind (xs[·]?) with
    | some x => return .inl x
    | none => throw (.indexRange kind)

/-- The value at a key; `none` if the container has no keys. -/
def subscript? (h : Heap) (container key : Value) : Option Yield :=
  match container with
  | .mapping r =>
    some <|
      match key.unhashable? with
      | some t => .error (.unhashable t)
      | none =>
        match (h.entries r).get? key with
        | some v => .ok (v, h)
        | none => do throw (.missingKey (← h.listing key))
  | .list r =>
    some <| (fromSequence .list (h.items r) key).map fun
      | .inl v => (v, h)
      | .inr vs => h.newList vs
  | .tuple vs =>
    some <| (fromSequence .tuple vs key).map fun
      | .inl v => (v, h)
      | .inr vs => (.tuple vs, h)
  | .text s =>
    some <| (fromSequence .text s.toList key).map fun
      | .inl c => (.text c.toString, h)
      | .inr cs => (.text (String.ofList cs), h)
  | _ => none

/-! ## Items -/

/-- The items that a value gives one by one: those of a list or tuple, the characters of a text, the
    keys of a mapping. -/
def items? (h : Heap) (v : Value) : Option (List Value) :=
  match v with
  | .list r => some (h.items r)
  | .tuple vs => some vs
  | .text s => some (s.toList.map fun c => .text c.toString)
  | .mapping r => some ((h.entries r).map (·.1))
  | _ => none

/-- Replaces the item at a position. -/
def replaceAt {α : Type} (xs : List α) (i : Nat) (x : α) : List α :=
  xs.set i x

/-- Replaces the items at the positions of a slice by a list of the same length. -/
def replaceSlice {α : Type} (xs : List α) (start step : Int) : Nat → List α → List α
  | _, [] => xs
  | i, y :: ys => replaceSlice (xs.set (start + i * step).toNat y) start step (i + 1) ys

/-- The items of a list after an item or a slice of it is assigned. -/
def assignInList (h : Heap) (vs : List Value) (key v : Value) : Except Fault (List Value) :=
  match key with
  | .slice start stop step => do
    let (a, b, c) ← sliceRange vs.length start stop step
    if c = 1 then
      match items? h v with
      | none => throw .assignIterable
      | some ws => return vs.take a.toNat ++ ws ++ vs.drop (max a b).toNat
    else
      match items? h v with
      | none => throw .assignExtended
      | some ws =>
        let n := sliceCount a b c
        if ws.length = n then return replaceSlice vs a c 0 ws
        else throw (.extendedSliceSize ws.length n)
  | _ => do
    let n ← index .list key
    match place? vs.length n with
    | some i => return replaceAt vs i v
    | none => throw .assignmentRange

/-- The heap after an item of a mapping or a list is assigned. -/
def assign (h : Heap) (container key v : Value) : Except Fault Heap :=
  match container with
  | .mapping r =>
    match key.unhashable? with
    | some t => .error (.unhashable t)
    | none => .ok (h.write r (.mapping ((h.entries r).insert key v)))
  | .list r => (assignInList h (h.items r) key v).map fun vs => h.write r (.list vs)
  | v => .error (.itemAssignment v.typeName)

end Operator

end Rulebook.Script
