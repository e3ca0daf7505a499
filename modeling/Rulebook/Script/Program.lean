/-
  The grammar of scripts.

  A script is a list of statements, one or several to a line; the body of a compound statement is an
  indented block or the rest of its line.  `Stmt.ofText?` reads a whole script.  Statements that are
  never run are read as carefully as the others and kept by name.
-/
import Rulebook.Script.Grammar

namespace Rulebook.Script.Grammar

/-! ## Parts of statements -/

/-- Names with points between them. -/
def dottedName? : Nat → List Token → Option (List Token)
  | 0, _ => none
  | n + 1, ts => do
    let (_, rest) ← name? ts
    match rest with
    | .sign "." :: more => dottedName? n more
    | _ => some rest

/-- What follows a name that is given by "as", if one is. -/
def givenName? (ts : List Token) : Option (List Token) :=
  match ts with
  | .word "as" :: rest => (name? rest).map (·.2)
  | _ => some ts

/-- Imported modules. -/
def modules? : Nat → List Token → Option (List Token)
  | 0, _ => none
  | n + 1, ts => do
    let rest ← dottedName? (ts.length + 1) ts
    let rest ← givenName? rest
    match rest with
    | .sign "," :: more => modules? n more
    | _ => some rest

/-- Imported names, one comma at the end allowed if `bracketed`. -/
def importedNames? (bracketed : Bool) : Nat → List Token → Option (List Token)
  | 0, _ => none
  | n + 1, ts => do
    let (_, rest) ← name? ts
    let rest ← givenName? rest
    match rest with
    | .sign "," :: .sign ")" :: more => if bracketed then some (.sign ")" :: more) else none
    | .sign "," :: more => importedNames? bracketed n more
    | _ => some rest

/-- Names with commas between them. -/
def names? : Nat → List Token → Option (List Token)
  | 0, _ => none
  | n + 1, ts => do
    let (_, rest) ← name? ts
    match rest with
    | .sign "," :: more => names? n more
    | _ => some rest

/-- Drops the points before the name of a module. -/
def skipPoints : List Token → List Token
  | .sign "." :: rest => skipPoints rest
  | .sign "..." :: rest => skipPoints rest
  | ts => ts

/-- An import of names from a module, after "from". -/
def importFrom? (ts : List Token) : Option (List Token) := do
  let n := ts.length + 1
  let rest := skipPoints ts
  let rest ← if rest.length < ts.length ∧ (word? "import" rest).isSome then some rest
    else dottedName? n rest
  let rest ← word? "import" rest
  match rest with
  | .sign "*" :: rest => some rest
  | .sign "(" :: rest => do
    let rest ← importedNames? true n rest
    sign? ")" rest
  | _ => importedNames? false n rest

/-- Whether an expression is one place: no tuple, list or unpacked operand. -/
def isSinglePlace : Expr → Bool
  | .name _ => true
  | .member .. => true
  | .subscript .. => true
  | _ => false

mutual

/-- Whether an expression can be deleted. -/
def isDeletable : Expr → Bool
  | .name _ => true
  | .member .. => true
  | .subscript .. => true
  | .tuple es => areDeletable es
  | .list es => areDeletable es
  | _ => false

/-- Whether all expressions can be deleted. -/
def areDeletable : List Expr → Bool
  | [] => true
  | e :: es => isDeletable e && areDeletable es

end

/-- The operator of an update sign. -/
def update? (s : String) : Option BinaryOp :=
  match s with
  | "+=" => some .add
  | "-=" => some .sub
  | "*=" => some .mul
  | "/=" => some .div
  | "//=" => some .floorDiv
  | "%=" => some .mod
  | "**=" => some .pow
  | "@=" => some (.unsupported "MatMult")
  | "&=" => some (.unsupported "BitAnd")
  | "|=" => some (.unsupported "BitOr")
  | "^=" => some (.unsupported "BitXor")
  | "<<=" => some (.unsupported "LShift")
  | ">>=" => some (.unsupported "RShift")
  | _ => none

/-- A yield expression or a list of expressions: what may stand after an assignment sign. -/
def assigned? (n : Nat) (ts : List Token) : Option (Expr × List Token) :=
  match ts with
  | .word "yield" :: _ => yielded? n ts
  | _ => (items? n .starred ts []).map fun (es, rest) => (tupled es, rest)

/-- The targets and the value of an assignment after its first sign, the targets before in
    reverse. -/
def assignment? : Nat → Nat → List Token → List Expr → Option (Stmt × List Token)
  | 0, _, _, _ => none
  | fuel + 1, n, ts, targets => do
    let (e, rest) ← assigned? n ts
    match rest with
    | .sign "=" :: more => if isTarget e then assignment? fuel n more (e :: targets) else none
    | _ => some (.assign targets.reverse e, rest)

/-- A statement that is an expression or assigns one. -/
def expressionStatement? (n : Nat) (ts : List Token) : Option (Stmt × List Token) := do
  let (e, rest) ← assigned? n ts
  match rest with
  | .sign ":" :: more =>
    if isSinglePlace e then
      let (_, rest) ← expression? n more
      match rest with
      | .sign "=" :: more =>
        let (_, rest) ← assigned? n more
        some (.unsupported "AnnAssign", rest)
      | _ => some (.unsupported "AnnAssign", rest)
    else none
  | .sign "=" :: more => if isTarget e then assignment? (more.length + 1) n more [e] else none
  | .sign s :: more =>
    match update? s with
    | some op =>
      if isSinglePlace e then
        let (value, rest) ← assigned? n more
        some (.update e op value, rest)
      else none
    | none => some (.expr e, rest)
  | _ => some (.expr e, rest)

/-- A statement that needs no block. -/
def simple? (n : Nat) (ts : List Token) : Option (Stmt × List Token) :=
  match ts with
  | .word "pass" :: rest => some (.pass, rest)
  | .word "break" :: rest => some (.breakLoop, rest)
  | .word "continue" :: rest => some (.continueLoop, rest)
  | .word "return" :: rest =>
    match items? n .starred rest [] with
    | some (es, rest) => some (.ret (some (tupled es)), rest)
    | none => some (.ret none, rest)
  | .word "raise" :: rest =>
    match expression? n rest with
    | some (_, .word "from" :: more) => do
      let (_, rest) ← expression? n more
      some (.unsupported "Raise", rest)
    | some (_, rest) => some (.unsupported "Raise", rest)
    | none => some (.unsupported "Raise", rest)
  | .word "global" :: rest => (names? (rest.length + 1) rest).map fun rest => (.unsupported "Global", rest)
  | .word "nonlocal" :: rest =>
    (names? (rest.length + 1) rest).map fun rest => (.unsupported "Nonlocal", rest)
  | .word "del" :: rest => do
    let ((es, _), rest) ← items? n .plain rest []
    if areDeletable es then some (.unsupported "Delete", rest) else none
  | .word "assert" :: rest => do
    let (_, rest) ← expression? n rest
    match rest with
    | .sign "," :: more =>
      let (_, rest) ← expression? n more
      some (.unsupported "Assert", rest)
    | _ => some (.unsupported "Assert", rest)
  | .word "import" :: rest =>
    (modules? (rest.length + 1) rest).map fun rest => (.unsupported "Import", rest)
  | .word "from" :: rest => (importFrom? rest).map fun rest => (.unsupported "ImportFrom", rest)
  | _ => expressionStatement? n ts

/-- The statements of one line. -/
def line? : Nat → Nat → List Token → Option (List Stmt × List Token)
  | 0, _, _ => none
  | fuel + 1, n, ts => do
    let (s, rest) ← simple? n ts
    match rest with
    | .newline :: rest => some ([s], rest)
    | .sign ";" :: .newline :: rest => some ([s], rest)
    | .sign ";" :: more =>
      let (ss, rest) ← line? fuel n more
      some (s :: ss, rest)
    | _ => none

/-! ## Patterns -/

/-- A number with or without a minus, perhaps with an imaginary part. -/
def patternNumber? (ts : List Token) : Option (List Token) :=
  let unsigned := match ts with | .sign "-" :: rest => rest | _ => ts
  let isReal (c : Constant) : Bool := match c with | .foreign => false | _ => true
  match unsigned with
  | .number c :: .sign s :: .number d :: rest =>
    if s = "+" ∨ s = "-" then if isReal c && !isReal d then some rest else none
    else some (.sign s :: .number d :: rest)
  | .number _ :: .sign s :: rest => if s = "+" ∨ s = "-" then none else some (.sign s :: rest)
  | .number _ :: rest => some rest
  | _ => none

/-- A literal of a pattern. -/
def patternLiteral? (n : Nat) (ts : List Token) : Option (List Token) :=
  match ts with
  | .word "None" :: rest => some rest
  | .word "True" :: rest => some rest
  | .word "False" :: rest => some rest
  | .quotation _ :: _ => (quotations? n ts []).map (·.2)
  | _ => patternNumber? ts

/-- A name other than the one that matches everything. -/
def captured? (ts : List Token) : Option (List Token) :=
  match name? ts with
  | some (s, rest) => if s = "_" then none else some rest
  | none => none

/-- The kinds of pattern lists. -/
inductive PatternKind where
  /-- Alternatives, with a name for the whole. -/
  | whole
  | closed
  /-- A list of patterns up to a sign that is left, stars allowed. -/
  | sequence
  /-- The entries of a mapping up to its closing brace. -/
  | entries
  /-- The arguments of a class up to their closing bracket; positional, then named ones. -/
  | positional
  | keyed
  deriving DecidableEq

/-- Reads a pattern; what follows it. -/
def pattern? : Nat → PatternKind → List Token → Option (List Token)
  | 0, _, _ => none
  | n + 1, kind, ts =>
    match kind with
    | .whole => do
      let rest ← pattern? n .closed ts
      match rest with
      | .sign "|" :: more => pattern? n .whole more
      | .word "as" :: more => captured? more
      | _ => some rest
    | .closed =>
      match ts with
      | .sign "(" :: .sign ")" :: rest => some rest
      | .sign "(" :: rest => do
        let rest' ← pattern? n .sequence rest
        match rest, rest' with
        | .sign "*" :: _, .sign ")" :: more =>
          if (ts.take (ts.length - more.length)).any (fun t => match t with | .sign "," => true | _ => false)
          then some more else none
        | _, .sign ")" :: more => some more
        | _, _ => none
      | .sign "[" :: .sign "]" :: rest => some rest
      | .sign "[" :: rest => do
        let rest ← pattern? n .sequence rest
        sign? "]" rest
      | .sign "\x7b" :: .sign "\x7d" :: rest => some rest
      | .sign "\x7b" :: rest => pattern? n .entries rest
      | _ =>
        match patternLiteral? n ts with
        | some rest => some rest
        | none => do
          let (_, _) ← name? ts
          let rest ← dottedName? n ts
          match rest with
          | .sign "(" :: .sign ")" :: rest => some rest
          | .sign "(" :: rest => pattern? n .positional rest
          | .sign "=" :: _ => none
          | _ => some rest
    | .sequence => do
      let rest ←
        match ts with
        | .sign "*" :: rest => (name? rest).map (·.2)
        | _ => pattern? n .whole ts
      match rest with
      | .sign "," :: more =>
        match pattern? n .sequence more with
        | some rest => some rest
        | none => some more
      | _ => some rest
    | .entries =>
      match ts with
      | .sign "\x7d" :: rest => some rest
      | .sign "**" :: rest => do
        let rest ← captured? rest
        match rest with
        | .sign "\x7d" :: rest => some rest
        | .sign "," :: .sign "\x7d" :: rest => some rest
        | _ => none
      | _ => do
        let rest ←
          match patternLiteral? n ts with
          | some rest => some rest
          | none =>
            match ts with
            | .word _ :: .sign "." :: _ => dottedName? n ts
            | _ => none
        let rest ← sign? ":" rest
        let rest ← pattern? n .whole rest
        match rest with
        | .sign "\x7d" :: rest => some rest
        | .sign "," :: more => pattern? n .entries more
        | _ => none
    | .positional =>
      match ts with
      | .sign ")" :: rest => some rest
      | .word _ :: .sign "=" :: _ => pattern? n .keyed ts
      | _ => do
        let rest ← pattern? n .whole ts
        match rest with
        | .sign ")" :: rest => some rest
        | .sign "," :: more => pattern? n .positional more
        | _ => none
    | .keyed =>
      match ts with
      | .sign ")" :: rest => some rest
      | _ => do
        let (_, rest) ← name? ts
        let rest ← sign? "=" rest
        let rest ← pattern? n .whole rest
        match rest with
        | .sign ")" :: rest => some rest
        | .sign "," :: more => pattern? n .keyed more
        | _ => none

/-- The pattern of a case: a list of patterns, or one pattern that is no star. -/
def casePattern? (n : Nat) (ts : List Token) : Option (List Token) := do
  let rest ← pattern? n .sequence ts
  match ts, rest with
  | .sign "*" :: _, _ =>
    if (ts.take (ts.length - rest.length)).any (fun t => match t with | .sign "," => true | _ => false)
    then some rest else none
  | _, _ => some rest

/-! ## Compound statements -/

/-- The managers of a "with" statement; one comma at the end is allowed if `bracketed`. -/
def managers? (bracketed : Bool) : Nat → Nat → List Token → Option (List Token)
  | 0, _, _ => none
  | fuel + 1, n, ts => do
    let (_, rest) ← expression? n ts
    let rest ←
      match rest with
      | .word "as" :: more => (item? n .target more).map (·.2)
      | _ => some rest
    match rest with
    | .sign "," :: .sign ")" :: more => if bracketed then some (.sign ")" :: more) else none
    | .sign "," :: more => managers? bracketed fuel n more
    | _ => some rest

/-- The managers of a "with" statement and the colon after them. -/
def withHead? (n : Nat) (ts : List Token) : Option (List Token) :=
  let bracketed : Option (List Token) := do
    let rest ← sign? "(" ts
    let rest ← managers? true (ts.length + 1) n rest
    let rest ← sign? ")" rest
    sign? ":" rest
  match bracketed with
  | some rest => some rest
  | none => do
    let rest ← managers? false (ts.length + 1) n ts
    sign? ":" rest

/-- The head of a function up to its colon, after "def". -/
def functionHead? (n : Nat) (ts : List Token) : Option (List Token) := do
  let (_, rest) ← name? ts
  let rest ← sign? "(" rest
  let rest ← parameters? n true true [] rest
  let rest ← sign? ")" rest
  let rest ←
    match rest with
    | .sign "->" :: more => (expression? n more).map (·.2)
    | _ => some rest
  sign? ":" rest

/-- The head of a class up to its colon, after "class". -/
def classHead? (n : Nat) (ts : List Token) : Option (List Token) := do
  let (_, rest) ← name? ts
  let rest ←
    match rest with
    | .sign "(" :: more => (arguments? n more).map (·.2)
    | _ => some rest
  sign? ":" rest

/-- The targets and the items of a loop up to its colon, after "for". -/
def loopHead? (n : Nat) (ts : List Token) : Option ((Expr × Expr) × List Token) := do
  let (targets, rest) ← items? n .target ts []
  let rest ← word? "in" rest
  let (items, rest) ← items? n .starred rest []
  let rest ← sign? ":" rest
  some ((tupled targets, tupled items), rest)

mutual

/-- Statements up to the end of their block. -/
def statements? : Nat → List Token → Option (List Stmt × List Token)
  | 0, _ => none
  | n + 1, ts =>
    match ts with
    | [] => some ([], [])
    | .dedent :: _ => some ([], ts)
    | _ => do
      let (s, rest) ← statement? n ts
      let (ss, rest) ← statements? n rest
      some (s ++ ss, rest)

/-- The body of a compound statement, after its colon. -/
def block? : Nat → List Token → Option (List Stmt × List Token)
  | 0, _ => none
  | n + 1, ts =>
    match ts with
    | .newline :: .indent :: rest => do
      let (ss, rest) ← statements? n rest
      match ss, rest with
      | [], _ => none
      | _, .dedent :: rest => some (ss, rest)
      | _, _ => none
    | .newline :: _ => none
    | _ => line? (ts.length + 1) n ts

/-- An "else" with its block, if there is one. -/
def alternative? : Nat → List Token → Option (List Stmt × List Token)
  | 0, _ => none
  | n + 1, ts =>
    match ts with
    | .word "else" :: .sign ":" :: rest => block? n rest
    | .word "else" :: _ => none
    | _ => some ([], ts)

/-- A conditional statement, after "if" or "elif". -/
def branch? : Nat → List Token → Option (Stmt × List Token)
  | 0, _ => none
  | n + 1, ts => do
    let (test, rest) ← named? n ts
    let rest ← sign? ":" rest
    let (body, rest) ← block? n rest
    match rest with
    | .word "elif" :: more =>
      let (s, rest) ← branch? n more
      some (.branch test body [s], rest)
    | _ =>
      let (orelse, rest) ← alternative? n rest
      some (.branch test body orelse, rest)

/-- The handlers of a "try" statement; whether there is one. `starred` says of which kind they are
    once one was read. -/
def handlers? : Nat → Option Bool → List Token → Option (Option Bool × List Token)
  | 0, _, _ => none
  | n + 1, starred, ts =>
    match ts with
    | .word "except" :: .sign ":" :: rest => do
      if starred = some true then none
      else
        let (_, rest) ← block? n rest
        handlers? n (some false) rest
    | .word "except" :: .sign "*" :: rest => do
      if starred = some false then none
      else
        let (_, rest) ← expression? n rest
        let rest ← givenName? rest
        let rest ← sign? ":" rest
        let (_, rest) ← block? n rest
        handlers? n (some true) rest
    | .word "except" :: rest => do
      if starred = some true then none
      else
        let (_, rest) ← expression? n rest
        let rest ← givenName? rest
        let rest ← sign? ":" rest
        let (_, rest) ← block? n rest
        handlers? n (some false) rest
    | _ => some (starred, ts)

/-- A "try" statement, after its colon. -/
def attempt? : Nat → List Token → Option (Stmt × List Token)
  | 0, _ => none
  | n + 1, ts => do
    let (_, rest) ← block? n ts
    let (starred, rest) ← handlers? n none rest
    let rest ← if starred.isSome then (alternative? n rest).map (·.2) else some rest
    let kind := if starred = some true then "TryStar" else "Try"
    match rest with
    | .word "finally" :: .sign ":" :: more =>
      let (_, rest) ← block? n more
      some (.unsupported kind, rest)
    | _ => if starred.isSome then some (.unsupported kind, rest) else none

/-- The cases of a "match" statement up to the end of their block; at least one. -/
def cases? : Nat → List Token → Option (List Token)
  | 0, _ => none
  | n + 1, ts => do
    let rest ← word? "case" ts
    let rest ← casePattern? n rest
    let rest ←
      match rest with
      | .word "if" :: more => (named? n more).map (·.2)
      | _ => some rest
    let rest ← sign? ":" rest
    let (_, rest) ← block? n rest
    match rest with
    | .dedent :: rest => some rest
    | _ => cases? n rest

/-- A "match" statement, after its first word. -/
def matching? : Nat → List Token → Option (Stmt × List Token)
  | 0, _ => none
  | n + 1, ts => do
    let ((es, comma), rest) ← items? n .named ts []
    match es, comma, rest with
    | [.starred _], false, _ => none
    | _, _, .sign ":" :: .newline :: .indent :: rest =>
      (cases? n rest).map fun rest => (.unsupported "Match", rest)
    | _, _, _ => none

/-- A decorated definition, from its first decorator on. -/
def decorated? : Nat → List Token → Option (Stmt × List Token)
  | 0, _ => none
  | n + 1, ts =>
    match ts with
    | .sign "@" :: rest => do
      let (_, rest) ← named? n rest
      match rest with
      | .newline :: rest => decorated? n rest
      | _ => none
    | .word "def" :: _ => compound? n ts
    | .word "class" :: _ => compound? n ts
    | .word "async" :: .word "def" :: _ => compound? n ts
    | _ => none

/-- A compound statement. -/
def compound? : Nat → List Token → Option (Stmt × List Token)
  | 0, _ => none
  | n + 1, ts =>
    match ts with
    | .word "if" :: rest => branch? n rest
    | .word "for" :: rest => do
      let ((target, items), rest) ← loopHead? n rest
      let (body, rest) ← block? n rest
      let (orelse, rest) ← alternative? n rest
      some (.forEach target items body orelse, rest)
    | .word "while" :: rest => do
      let (_, rest) ← named? n rest
      let rest ← sign? ":" rest
      let (_, rest) ← block? n rest
      let (_, rest) ← alternative? n rest
      some (.unsupported "While", rest)
    | .word "try" :: .sign ":" :: rest => attempt? n rest
    | .word "with" :: rest => do
      let rest ← withHead? n rest
      let (_, rest) ← block? n rest
      some (.unsupported "With", rest)
    | .word "def" :: rest => do
      let rest ← functionHead? n rest
      let (_, rest) ← block? n rest
      some (.unsupported "FunctionDef", rest)
    | .word "class" :: rest => do
      let rest ← classHead? n rest
      let (_, rest) ← block? n rest
      some (.unsupported "ClassDef", rest)
    | .word "async" :: rest => do
      let (s, rest) ← compound? n rest
      match s, ts with
      | .unsupported "FunctionDef", .word "async" :: .word "def" :: _ =>
        some (.unsupported "AsyncFunctionDef", rest)
      | .unsupported "With", .word "async" :: .word "with" :: _ => some (.unsupported "AsyncWith", rest)
      | .forEach .., _ => some (.unsupported "AsyncFor", rest)
      | _, _ => none
    | .sign "@" :: _ => decorated? n ts
    | _ => none

/-- The statements of a line, or a compound statement. -/
def statement? : Nat → List Token → Option (List Stmt × List Token)
  | 0, _ => none
  | n + 1, ts =>
    let plain : Option (List Stmt × List Token) := line? (ts.length + 1) n ts
    match ts with
    | .word "match" :: rest =>
      match matching? n rest with
      | some (s, rest) => some ([s], rest)
      | none => plain
    | .sign "@" :: _ => (compound? n ts).map fun (s, rest) => ([s], rest)
    | .word w :: _ =>
      if w ∈ ["if", "for", "while", "try", "with", "def", "class", "async"] then
        (compound? n ts).map fun (s, rest) => ([s], rest)
      else plain
    | _ => plain

end

end Grammar

/-- The statements of a whole script; `none` if the text is not well formed. -/
def Stmt.ofText? (names : Text.CharNames) (s : String) : Option (List Stmt) := do
  let cs := s.toList
  let cs := if cs.getLast? = some '\n' then cs else cs ++ ['\n']
  let ts := (← tokens? cs).map (Token.spellOut names)
  let (ss, rest) ← Grammar.statements? (Grammar.depthBound cs.length) ts
  if rest.isEmpty then some ss else none

end Rulebook.Script
