/-
  Evaluation of expressions and scripts.

  `Expr.eval` and `Stmt.exec` follow the syntax tree; each form takes a step when it is entered.
  A loop runs over the items that its container has when the loop begins.  Leaving a loop, going on
  with its next item and returning are stops, which the loop or the whole script ends.
-/
import Rulebook.Script.Functions
import Rulebook.Script.Program

namespace Rulebook.Script

/-! ## Operators with their limits -/

/-- The number of bits of a whole number's magnitude. -/
def bitLength (n : Int) : Nat :=
  if n = 0 then 0 else n.natAbs.log2 + 1

/-- Refuses a power whose exponent or result would be too large. -/
def checkPower (base exponent : Value) : Except Error Unit := do
  match exponent.number? with
  | some e =>
    if e.abs.order (.int maxExponent) = some .gt then throw .exponentTooLarge
  | none => pure ()
  match base.number?, exponent.number? with
  | some (.int b), some (.int e) =>
    if 0 < e ∧ 1 < b.natAbs ∧ maxBits < bitLength b * e.toNat then throw .powerTooLarge
  | _, _ => pure ()

/-- Refuses a product of whole numbers that would be too large. -/
def checkProduct (v w : Value) : Except Error Unit :=
  match v.number?, w.number? with
  | some (.int a), some (.int b) =>
    if maxBits + 1 < bitLength a + bitLength b then throw .productTooLarge else pure ()
  | _, _ => pure ()

/-- The length of a text, list or tuple. -/
def sequenceLength? (h : Heap) : Value → Option Nat
  | .text s => some s.length
  | .tuple vs => some vs.length
  | .list r => some (h.items r).length
  | _ => none

/-- Refuses a repetition that would be too long. -/
def checkRepetition (h : Heap) (v w : Value) : Except Error Unit :=
  let tooLong (sequence count : Value) : Bool :=
    match sequenceLength? h sequence, count.number? with
    | some n, some (.int k) => (maxSize : Int) < n * k
    | _, _ => false
  if tooLong v w || tooLong w v then throw .repetitionTooLarge else pure ()

/-- Refuses a result that is too large. -/
def checkResult (h : Heap) (v : Value) : Except Error Unit :=
  match sequenceLength? h v, v with
  | some n, _ => if maxSize < n then throw .resultTooLarge else pure ()
  | none, .int n => if maxBits < bitLength n then throw .integerTooLarge else pure ()
  | none, _ => pure ()

/-- How a fault of an operator ends the run. -/
def operatorStop (f : Fault) : Stop :=
  match f.kind with
  | .zeroDivision => .error .division
  | .overflow => .error (.overflow f)
  | .type => .error (.operands f)
  | _ => .fault f

/-- The checks before an operator is applied. -/
def checkOperands (h : Heap) (op : BinaryOp) (v w : Value) : Except Error Unit :=
  match op with
  | .pow => checkPower v w
  | .mul => do
    checkProduct v w
    checkRepetition h v w
  | .unsupported name => throw (.unsupportedOperator name)
  | _ => pure ()

/-- Passes a check or refuses. -/
def Run.check : Except Error Unit → Run Unit
  | .ok () => pure ()
  | .error e => Run.refuse e

/-- An operator between two values, within the limits. -/
def applyBinary (op : BinaryOp) (v w : Value) : Run Value := do
  Run.check (checkOperands (← Run.heap) op v w)
  let r ← Run.keeping (← Run.orElse operatorStop (Operator.binary (← Run.heap) op v w))
  Run.check (checkResult (← Run.heap) r)
  return r

/-- An operator before a value. -/
def applyUnary (op : UnaryOp) (v : Value) : Run Value := do
  match op with
  | .not => return .bool !((← Run.heap).truth v)
  | _ => Run.ofExcept (Operator.signed op v)

/-- The value at a key of a container. -/
def applySubscript (container key : Value) : Run Value := do
  match Operator.subscript? (← Run.heap) container key with
  | none => Run.refuse .notSubscriptable
  | some r =>
    let stop (f : Fault) : Stop :=
      match f.kind with
      | .key => .error (.subscript f)
      | .index => .error (.subscript f)
      | .type => .error (.subscript f)
      | _ => .fault f
    Run.keeping (← Run.orElse stop r)

/-- Whether a value can have subscripts. -/
def isSubscriptable : Value → Bool
  | .mapping _ => true
  | .list _ => true
  | .tuple _ => true
  | .text _ => true
  | _ => false

/-- A call, whose faults are refusals that name the function. -/
def applyFunction (name : String) (f : Function) (vs : List Value) : Run Value := do
  let m ← get
  match f.apply vs m with
  | .ok v m => set m; return v
  | .error (.fault e) m =>
    set m
    match e.kind with
    | .type => Run.refuse (.call name e)
    | .value => Run.refuse (.call name e)
    | .overflow => Run.refuse (.call name e)
    | _ => throw (.fault e)
  | .error stop m => set m; throw stop

/-- The value of a literal. -/
def Constant.value? : Constant → Option Value
  | .null => some .null
  | .bool b => some (.bool b)
  | .int n => some (.int n)
  | .float x => some (.float x)
  | .text s => some (.text s)
  | .foreign => none

/-! ## Expressions -/

mutual

/-- The value of an expression. -/
def Expr.eval (s : Scope) : Expr → Run Value
  | .constant c => do
    Run.tick s
    match c.value? with
    | some v => return v
    | none => Run.refuse .unsupportedConstant
  | .name id => do
    Run.tick s
    Run.lookUp s id
  | .binary op left right => do
    Run.tick s
    let v ← left.eval s
    let w ← right.eval s
    applyBinary op v w
  | .unary op operand => do
    Run.tick s
    match op with
    | .invert => Run.refuse (.unsupportedOperator "Invert")
    | _ => applyUnary op (← operand.eval s)
  | .both operands => do
    Run.tick s
    evalBoth s operands
  | .either operands => do
    Run.tick s
    evalEither s operands
  | .compare first rest => do
    Run.tick s
    let v ← first.eval s
    evalComparisons s v rest
  | .conditional test body orelse => do
    Run.tick s
    let v ← test.eval s
    if (← Run.heap).truth v then body.eval s else orelse.eval s
  | .list items => do
    Run.tick s
    let vs ← evalAll s items
    Run.keeping ((← Run.heap).newList vs)
  | .tuple items => do
    Run.tick s
    return .tuple (← evalAll s items)
  | .mapping entries unpacks => do
    Run.tick s
    if unpacks then Run.refuse .entryUnpacking
    else
      let es ← evalEntries s entries []
      Run.keeping ((← Run.heap).newMapping es)
  | .subscript container key => do
    Run.tick s
    let v ← container.eval s
    if isSubscriptable v then applySubscript v (← key.eval s) else Run.refuse .notSubscriptable
  | .slice start stop step => do
    Run.tick s
    let a ← evalBound s start
    let b ← evalBound s stop
    let c ← evalBound s step
    return .slice a b c
  | .call function arguments keywords => do
    Run.tick s
    match function with
    | .name id =>
      match Function.ofName? s.functions id with
      | none => Run.refuse (.forbiddenFunction id)
      | some f =>
        if keywords then Run.refuse .namedArguments
        else applyFunction id f (← evalArguments s arguments)
    | _ => Run.refuse (.forbiddenFunction function.kind)
  | .member .. => do
    Run.tick s
    Run.refuse .memberAccess
  | .starred _ => do
    Run.tick s
    Run.refuse (.unsupportedExpression "Starred")
  | .unsupported kind => do
    Run.tick s
    Run.refuse (.unsupportedExpression kind)

/-- The values of several expressions, in order. -/
def evalAll (s : Scope) : List Expr → Run (List Value)
  | [] => return []
  | e :: es => do
    let v ← e.eval s
    let vs ← evalAll s es
    return v :: vs

/-- The values of the arguments of a call. -/
def evalArguments (s : Scope) : List Expr → Run (List Value)
  | [] => return []
  | .starred _ :: _ => Run.refuse .argumentUnpacking
  | e :: es => do
    let v ← e.eval s
    let vs ← evalArguments s es
    return v :: vs

/-- The value of a bound of a slice, if it is given. -/
def evalBound (s : Scope) : Option Expr → Run Value
  | none => return .null
  | some e => e.eval s

/-- The entries of a mapping after those before. -/
def evalEntries (s : Scope) : List (Expr × Expr) → Entries → Run Entries
  | [], before => return before
  | (k, e) :: es, before => do
    let key ← k.eval s
    let v ← e.eval s
    match key.unhashable? with
    | some t => throw (.fault (.unhashable t))
    | none => evalEntries s es (before.insert key v)

/-- The first operand that is false, else the last one. -/
def evalBoth (s : Scope) : List Expr → Run Value
  | [] => return .null
  | [e] => e.eval s
  | e :: es => do
    let v ← e.eval s
    if (← Run.heap).truth v then evalBoth s es else return v

/-- The first operand that is true, else the last one. -/
def evalEither (s : Scope) : List Expr → Run Value
  | [] => return .null
  | [e] => e.eval s
  | e :: es => do
    let v ← e.eval s
    if (← Run.heap).truth v then return v else evalEither s es

/-- A chain of comparisons from its left operand on; it ends at the first that does not hold. -/
def evalComparisons (s : Scope) (left : Value) : List (CompareOp × Expr) → Run Value
  | [] => return .bool true
  | (op, e) :: rest => do
    let right ← e.eval s
    let stop (f : Fault) : Stop :=
      match f.kind with
      | .type => .error (.operands f)
      | _ => .fault f
    let holds ← Run.orElse stop (Operator.compare (← Run.heap) op left right)
    if holds then evalComparisons s right rest else return .bool false

end

/-! ## Statements -/

/-- Assigns a value to a place. -/
def assignTo (s : Scope) (target : Expr) (v : Value) : Run Unit :=
  match target with
  | .name id => Run.bind id v
  | .subscript container key => do
    let c ← container.eval s
    match c with
    | .mapping _ | .list _ =>
      let k ← key.eval s
      let h ← Run.ofExcept (Operator.assign (← Run.heap) c k v)
      modify fun m => { m with heap := h }
    | _ => Run.refuse .noItemAssignment
  | e => Run.refuse (.unsupportedTarget e.kind)

/-- Assigns a value to several places, in order. -/
def assignAll (s : Scope) : List Expr → Value → Run Unit
  | [], _ => return ()
  | t :: ts, v => do
    assignTo s t v
    assignAll s ts v

/-- How the body of a loop went for one item. -/
inductive Pass where
  /-- The body ran to its end, with the value of its last statement. -/
  | done (v : Value)
  /-- The loop was left. -/
  | left
  /-- The rest of the body was skipped. -/
  | skipped

/-- Runs the body of a loop and takes the stops that are meant for the loop. -/
def Run.pass (body : Run Value) : Run Pass := fun m =>
  match body m with
  | .ok v m => .ok (.done v) m
  | .error .leaveLoop m => .ok .left m
  | .error .nextItem m => .ok .skipped m
  | .error stop m => .error stop m

/-- Runs a loop over items; the flag says whether it was left. The value is that of the last body
    that ran to its end. -/
def runLoop (name : String) (body : Run Value) : List Value → Value → Run (Value × Bool)
  | [], last => return (last, false)
  | v :: vs, last => do
    Run.bind name v
    match ← Run.pass body with
    | .done w => runLoop name body vs w
    | .left => return (last, true)
    | .skipped => runLoop name body vs last

mutual

/-- Runs a statement; the value is what it leaves as its last one. -/
def Stmt.exec (s : Scope) : Stmt → Run Value
  | .expr e => do
    Run.tick s
    e.eval s
  | .assign targets value => do
    Run.tick s
    assignAll s targets (← value.eval s)
    return .null
  | .update target op value => do
    Run.tick s
    match target with
    | .name id =>
      let v ← (Expr.name id).eval s
      let w ← value.eval s
      Run.bind id (← applyBinary op v w)
      return .null
    | _ => Run.refuse .updateTarget
  | .branch test body orelse => do
    Run.tick s
    let v ← test.eval s
    if (← Run.heap).truth v then execBlock s body .null else execBlock s orelse .null
  | .forEach target items body orelse => do
    Run.tick s
    match target with
    | .name id =>
      let v ← items.eval s
      match Operator.items? (← Run.heap) v with
      | none => Run.refuse .noItems
      | some vs =>
        let (last, left) ← runLoop id (execBlock s body .null) vs .null
        match left, orelse with
        | false, _ :: _ => execBlock s orelse .null
        | _, _ => return last
    | _ => Run.refuse .loopTarget
  | .ret none => do
    Run.tick s
    throw (.finish .null)
  | .ret (some e) => do
    Run.tick s
    let v ← e.eval s
    throw (.finish v)
  | .breakLoop => do
    Run.tick s
    throw .leaveLoop
  | .continueLoop => do
    Run.tick s
    throw .nextItem
  | .pass => do
    Run.tick s
    return .null
  | .unsupported kind => do
    Run.tick s
    Run.refuse (.unsupportedStatement kind)

/-- Runs statements in order; the value is that of the last one. -/
def execBlock (s : Scope) : List Stmt → Value → Run Value
  | [], last => return last
  | c :: cs, _ => do
    let v ← c.exec s
    execBlock s cs v

end

/-! ## Whole texts -/

/-- The expression of a text. -/
def parseExpression (names : Text.CharNames) (source : Value) : Except Error Expr :=
  match source with
  | .text t =>
    let t := Text.trim t
    if t.isEmpty then .error .empty
    else
      match Expr.ofText? names t with
      | some e => .ok e
      | none => .error .malformed
  | _ => .error .empty

/-- The statements of a text. -/
def parseScript (names : Text.CharNames) (source : Value) : Except Error (List Stmt) :=
  match source with
  | .text t =>
    if (Text.trim t).isEmpty then .error .empty
    else
      match Stmt.ofText? names t with
      | some ss => .ok ss
      | none => .error .malformed
  | _ => .error .empty

/-- Evaluates the expression that a text writes. -/
def evaluate (s : Scope) (source : Value) : Run Value :=
  match parseExpression s.charNames source with
  | .ok e => e.eval s
  | .error e => Run.refuse e

theorem evaluate_of_read {s : Scope} {source : Value} {e : Expr}
    (h : parseExpression s.charNames source = .ok e) : evaluate s source = e.eval s := by
  rw [evaluate, h]

theorem evaluate_of_unread {s : Scope} {source : Value} {e : Error}
    (h : parseExpression s.charNames source = .error e) : evaluate s source = Run.refuse e := by
  rw [evaluate, h]

/-- Runs statements as a whole script: its value is what it returns, else the local name "result",
    else the value of its last statement. -/
def runStatements (s : Scope) (ss : List Stmt) : Run Value := fun m =>
  match execBlock s ss .null m with
  | .ok v m => .ok ((m.locals.lookup "result").getD v) m
  | .error (.finish v) m => .ok v m
  | .error .leaveLoop m => .error (.error .strayLoopControl) m
  | .error .nextItem m => .error (.error .strayLoopControl) m
  | .error stop m => .error stop m

/-- Runs the script that a text writes. -/
def run (s : Scope) (source : Value) : Run Value :=
  match parseScript s.charNames source with
  | .ok ss => runStatements s ss
  | .error e => Run.refuse e

theorem run_of_read {s : Scope} {source : Value} {ss : List Stmt}
    (h : parseScript s.charNames source = .ok ss) : run s source = runStatements s ss := by
  rw [run, h]

theorem run_of_unread {s : Scope} {source : Value} {e : Error}
    (h : parseScript s.charNames source = .error e) : run s source = Run.refuse e := by
  rw [run, h]

end Rulebook.Script
