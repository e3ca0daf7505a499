/-
  The functions that expressions and scripts may call.

  There is a closed list of functions, and a run may be given further ones.  `Function.apply` gives
  the value of a call, or the fault of arguments that the function does not take.
-/
import Rulebook.Data.Conversion
import Rulebook.Json.Reader
import Rulebook.Json.Writer
import Rulebook.Script.Machine
import Rulebook.Script.Operators
import Rulebook.Sorting

namespace Rulebook.Script

namespace Function

/-- The names of the functions that are always there. -/
def builtIn : List (String × Function) :=
  [("abs", abs), ("all", all), ("any", any), ("bool", bool), ("ceil", ceil), ("float", float),
    ("floor", floor), ("int", int), ("len", len), ("list", list), ("max", max), ("min", min),
    ("range", range), ("round", round), ("sorted", sorted), ("sqrt", sqrt), ("str", str),
    ("sum", sum), ("from_json", fromJson), ("to_json", toJson)]

/-- The function of a name, given further functions; these go first. -/
def ofName? (further : List (String × Function)) (name : String) : Option Function :=
  (further.lookup name).or (builtIn.lookup name)

/-! ## Arguments -/

/-- The fault of a wrong number of arguments for a function of exactly one. -/
def exactlyOne (name : String) (n : Nat) : Fault :=
  .argumentCount s!"{name}() takes exactly one argument ({n} given)"

/-- The fault of too many arguments for a type of at most one. -/
def atMostOne (name : String) (n : Nat) : Fault :=
  .argumentCount s!"{name} expected at most 1 argument, got {n}"

/-- The fault of a wrong number of arguments for a function with one named parameter. -/
def oneParameter (name parameter : String) (n : Nat) : Fault :=
  .argumentCount <|
    if n = 0 then name ++ "() missing 1 required positional argument: '" ++ parameter ++ "'"
    else name ++ s!"() takes 1 positional argument but {n} were given"

/-- The items of an argument. -/
def itemsOf (h : Heap) (v : Value) : Except Fault (List Value) :=
  match Operator.items? h v with
  | some vs => .ok vs
  | none => .error (.notIterable v.typeName)

/-! ## Numbers -/

/-- A number rounded up or down. -/
def bounded (rounding : Parts → Int) (v : Value) : Except Fault Value :=
  match v.number? with
  | some (.int n) => .ok (.int n)
  | some (.float x) => (Data.roundedFloat rounding x).map .int
  | none => .error (.wantedReal v.typeName)

/-- The square root of a number. -/
def squareRoot (v : Value) : Except Fault Value :=
  match v.number? with
  | some n => do
    let x ← n.toFloat
    if x < 0.0 then throw .domain else return .float x.sqrt
  | none => .error (.wantedReal v.typeName)

/-- The magnitude of a number. -/
def magnitude (v : Value) : Except Fault Value :=
  match v.number?, v with
  | some n, _ => .ok (Value.ofNumber n.abs)
  | none, .duration d => .ok (.duration d.natAbs)
  | none, _ => .error (.absoluteValue v.typeName)

/-! ## Lists -/

/-- How many items a range has. -/
def rangeSize (start stop step : Int) : Nat :=
  if 0 < step then
    if start < stop then ((stop - start - 1) / step + 1).toNat else 0
  else if stop < start then ((start - stop - 1) / (-step) + 1).toNat
  else 0

/-- The whole numbers of a range. -/
def rangeItems (start stop step : Int) : Run (List Value) := do
  if step = 0 then throw (.fault .rangeStepZero)
  let n := rangeSize start stop step
  if Word.largest < n then throw (.fault (.machineInteger "ssize_t"))
  if maxRange < n then Run.refuse .rangeTooLong
  return (List.range n).map fun (i : Nat) => .int (start + (i : Int) * step)

/-- The greatest or the least of several items: the first that none of the later ones beats. -/
def extreme (h : Heap) (c : Data.Comparison) (name : String) : List Value → Except Fault Value
  | [] => .error (.emptyExtreme name)
  | v :: vs =>
    vs.foldlM (fun best w => do
      return if ← h.compareBy c w best then w else best) v

/-- The extreme of the items of one argument, or of several arguments. -/
def extremeOf (h : Heap) (c : Data.Comparison) (name : String) :
    List Value → Except Fault Value
  | [] => .error (.extremeArguments name)
  | [v] => do extreme h c name (← itemsOf h v)
  | vs => extreme h c name vs

/-- The sum of several items and a start. -/
def total (h : Heap) (start : Value) (vs : List Value) : Yield :=
  vs.foldlM (fun (acc, h) v => Operator.binary h .add acc v) (start, h)

/-- The items in ascending order. -/
def inOrder (h : Heap) (vs : List Value) : Except Fault (List Value) :=
  Sorting.sort (h.compareBy .lt) vs

/-- The number of items of a value; sizes are machine words. -/
def size (h : Heap) (v : Value) : Except Fault Value :=
  let counted (n : Nat) : Except Fault Value :=
    if Word.largest < n then .error .indexSizedInteger else .ok (.int n)
  match v with
  | .text s => counted s.length
  | _ =>
    match Operator.items? h v with
    | some vs => counted vs.length
    | none => .error (.noLength v.typeName)

/-! ## Texts -/

/-- The text of a value, with the arguments that only raw bytes take. -/
def toText (h : Heap) : List Value → Except Fault Value
  | [] => .ok (.text "")
  | [v] => do return .text (← h.asText v)
  | v :: options =>
    if 2 < options.length then
      .error (.argumentCount s!"str() takes at most 3 arguments ({options.length + 1} given)")
    else
      let isText (w : Value) : Bool := match w with | .text _ => true | _ => false
      match options with
      | [e] =>
        if isText e then .error (.textDecoding v.typeName)
        else .error (.textEncodingArgument "encoding" e.typeName)
      | e :: f :: _ =>
        if !isText e then .error (.textEncodingArgument "encoding" e.typeName)
        else if !isText f then .error (.textEncodingArgument "errors" f.typeName)
        else .error (.textDecoding v.typeName)
      | [] => .error (.textDecoding v.typeName)

/-- The data that a JSON text writes, on the heap. -/
def readJson (h : Heap) (v : Value) : Yield :=
  match v with
  | .text s => (Json.read s).map h.load
  | _ => .error (.jsonSource v.typeName)

/-! ## Calls -/

/-- A value that leaves the heap as it is. -/
def alone (h : Heap) (r : Except Fault Value) : Yield :=
  r.map fun v => (v, h)

/-- A new list. -/
def listed (h : Heap) (r : Except Fault (List Value)) : Yield :=
  r.map h.newList

/-- The data that a function from outside gives, on the heap. -/
def fromHost (h : Heap) (r : Except Fault Data) : Yield :=
  r.map h.load

/-- A call of a function other than the log and the range. -/
def pure? (h : Heap) (f : Function) (vs : List Value) : Yield :=
  match f, vs with
  | abs, [v] => alone h (magnitude v)
  | abs, _ => .error (exactlyOne "abs" vs.length)
  | all, [v] => alone h ((itemsOf h v).map fun ws => .bool (ws.all h.truth))
  | all, _ => .error (exactlyOne "all" vs.length)
  | any, [v] => alone h ((itemsOf h v).map fun ws => .bool (ws.any h.truth))
  | any, _ => .error (exactlyOne "any" vs.length)
  | bool, [] => .ok (.bool false, h)
  | bool, [v] => .ok (.bool (h.truth v), h)
  | bool, _ => .error (atMostOne "bool" vs.length)
  | ceil, [v] => alone h (bounded Binary64.ceil v)
  | ceil, _ => .error (exactlyOne "math.ceil" vs.length)
  | floor, [v] => alone h (bounded Binary64.floor v)
  | floor, _ => .error (exactlyOne "math.floor" vs.length)
  | float, [] => .ok (.float 0.0, h)
  | float, [v] => alone h ((h.plain v).toDouble.map .float)
  | float, _ => .error (atMostOne "float" vs.length)
  | int, [] => .ok (.int 0, h)
  | int, [v] => alone h ((h.plain v).toWhole.map .int)
  | int, [v, b] => alone h (((h.plain v).toWholeInBase (h.plain b)).map .int)
  | int, _ => .error (.argumentCount s!"int() takes at most 2 arguments ({vs.length} given)")
  | len, [v] => alone h (size h v)
  | len, _ => .error (exactlyOne "len" vs.length)
  | list, [] => .ok (h.newList [])
  | list, [v] => listed h (itemsOf h v)
  | list, _ => .error (atMostOne "list" vs.length)
  | max, _ => alone h (extremeOf h .gt "max" vs)
  | min, _ => alone h (extremeOf h .lt "min" vs)
  | round, [] => .error (.argumentCount "round() missing required argument 'number' (pos 1)")
  | round, [v] => alone h (((h.plain v).rounded none).map Value.ofNumber)
  | round, [v, .null] => alone h (((h.plain v).rounded none).map Value.ofNumber)
  | round, [v, p] => alone h (((h.plain v).rounded (some (h.plain p))).map Value.ofNumber)
  | round, _ => .error (.argumentCount s!"round() takes at most 2 arguments ({vs.length} given)")
  | sorted, [v] => listed h (do inOrder h (← itemsOf h v))
  | sorted, _ => .error (.argumentCount s!"sorted expected 1 argument, got {vs.length}")
  | sqrt, [v] => alone h (squareRoot v)
  | sqrt, _ => .error (exactlyOne "math.sqrt" vs.length)
  | str, _ => alone h (toText h vs)
  | sum, [] => .error (.argumentCount "sum() takes at least 1 positional argument (0 given)")
  | sum, [v] => do total h (.int 0) (← itemsOf h v)
  | sum, [v, start] => do
    let ws ← itemsOf h v
    match start with
    | .text _ => throw .sumOfTexts
    | _ => total h start ws
  | sum, _ => .error (.argumentCount s!"sum() takes at most 2 arguments ({vs.length} given)")
  | fromJson, [v] => readJson h v
  | fromJson, _ => .error (oneParameter "loads" "s" vs.length)
  | toJson, [v] => alone h ((Json.write Json.inText (h.plain v)).map .text)
  | toJson, _ => .error (oneParameter "<lambda>" "value" vs.length)
  | host read, vs => fromHost h (read (vs.map h.plain))
  | range, _ => .ok (.null, h)
  | log, _ => .ok (.null, h)

/-- A range by its bounds and step. -/
def rangeCall (vs : List Value) : Run Value := do
  let h ← Run.heap
  let wholeOf (v : Value) : Except Fault Int := (h.plain v).asWhole
  let bounds ← Run.ofExcept (
    match vs with
    | [b] => do return (0, ← wholeOf b, 1)
    | [a, b] => do return (← wholeOf a, ← wholeOf b, 1)
    | [a, b, c] => do return (← wholeOf a, ← wholeOf b, ← wholeOf c)
    | _ => .error (.rangeArguments vs.length) : Except Fault (Int × Int × Int))
  let items ← rangeItems bounds.1 bounds.2.1 bounds.2.2
  Run.keeping ((← Run.heap).newList items)

/-- Logs the texts of the arguments as one line. -/
def logCall (vs : List Value) : Run Value := do
  let texts ← Run.ofExcept (vs.mapM (← Run.heap).asText)
  modify fun m => { m with log := m.log ++ [String.intercalate " " texts] }
  return .null

/-- A call; its faults are raised as they are. -/
def apply (f : Function) (vs : List Value) : Run Value := do
  match f with
  | range => rangeCall vs
  | log => logCall vs
  | _ => Run.keeping (← Run.ofExcept (f.pure? (← Run.heap) vs))

end Function

end Rulebook.Script
