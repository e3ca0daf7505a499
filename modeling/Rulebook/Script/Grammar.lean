/-
  The grammar of expressions.

  Each function reads one form at the start of the tokens and returns it with the tokens after it,
  or nothing if the form does not stand there.  The first argument bounds the depth of the reading;
  `Expr.ofTokens?` takes a bound that no text exceeds.  Forms that are never evaluated are read as
  carefully as the others, since a text with a malformed part is refused as a whole.
-/
import Rulebook.Script.Token

namespace Rulebook.Script.Grammar

/-- The words that are no names. -/
def keywords : List String :=
  ["False", "None", "True", "and", "as", "assert", "async", "await", "break", "class", "continue",
    "def", "del", "elif", "else", "except", "finally", "for", "from", "global", "if", "import",
    "in", "is", "lambda", "nonlocal", "not", "or", "pass", "raise", "return", "try", "while",
    "with", "yield"]

/-- A name at the start of the tokens. -/
def name? : List Token → Option (String × List Token)
  | .word s :: rest => if s ∈ keywords then none else some (s, rest)
  | _ => none

/-- What follows a given sign. -/
def sign? (s : String) : List Token → Option (List Token)
  | .sign t :: rest => if s == t then some rest else none
  | _ => none

/-- What follows a given word. -/
def word? (s : String) : List Token → Option (List Token)
  | .word t :: rest => if s == t then some rest else none
  | _ => none

/-- Whether a name is given at the start of the tokens. -/
def isNaming : List Token → Bool
  | .word _ :: .sign ":=" :: _ => true
  | _ => false

/-- The operators of each level of precedence, the loosest level first. -/
def operator? (level : Nat) (s : String) : Option BinaryOp :=
  match level, s with
  | 0, "|" => some (.unsupported "BitOr")
  | 1, "^" => some (.unsupported "BitXor")
  | 2, "&" => some (.unsupported "BitAnd")
  | 3, "<<" => some (.unsupported "LShift")
  | 3, ">>" => some (.unsupported "RShift")
  | 4, "+" => some .add
  | 4, "-" => some .sub
  | 5, "*" => some .mul
  | 5, "/" => some .div
  | 5, "//" => some .floorDiv
  | 5, "%" => some .mod
  | 5, "@" => some (.unsupported "MatMult")
  | _, _ => none

/-- A comparison sign at the start of the tokens. -/
def comparison? : List Token → Option (CompareOp × List Token)
  | .sign "==" :: rest => some (.eq, rest)
  | .sign "!=" :: rest => some (.ne, rest)
  | .sign "<" :: rest => some (.lt, rest)
  | .sign "<=" :: rest => some (.le, rest)
  | .sign ">" :: rest => some (.gt, rest)
  | .sign ">=" :: rest => some (.ge, rest)
  | .word "not" :: .word "in" :: rest => some (.notIn, rest)
  | .word "in" :: rest => some (.isIn, rest)
  | .word "is" :: .word "not" :: rest => some (.notSame, rest)
  | .word "is" :: rest => some (.same, rest)
  | _ => none

/-- Which items may stand in a list of expressions. -/
inductive ItemKind where
  /-- Expressions. -/
  | plain
  /-- Expressions, and unpacked operands. -/
  | starred
  /-- Expressions that may be named, and unpacked operands. -/
  | named
  /-- Places that values are assigned to. -/
  | target
  deriving DecidableEq

/-- What stands between brackets. -/
inductive Members where
  | comprehension
  | items (es : List Expr) (comma : Bool)

/-- The tuple of a list that has a comma, else its only item. -/
def tupled : List Expr × Bool → Expr
  | ([e], false) => e
  | (es, _) => .tuple es

mutual

/-- Whether an expression is a place that a value can be assigned to. -/
def isTarget : Expr → Bool
  | .name _ => true
  | .member .. => true
  | .subscript .. => true
  | .starred e => isTarget e
  | .tuple es => areTargets es
  | .list es => areTargets es
  | _ => false

/-- Whether all expressions are places that values can be assigned to. -/
def areTargets : List Expr → Bool
  | [] => true
  | e :: es => isTarget e && areTargets es

end

/-! ## Formatted texts

The parts of a formatted text are not evaluated; here they are cut out, so that the grammar can
judge the embedded expressions. -/

/-- A formatted text: the embedded expressions in order, with their nested formats taken apart
    likewise.  Reads up to the end, or up to a closing brace if `nested`. -/
def skipSpaces (cs : List Char) : List Char :=
  cs.dropWhile fun c => c = ' ' ∨ (9 ≤ c.toNat ∧ c.toNat ≤ 13)

/-- What ends an embedded expression at its outermost level. -/
def endsEmbedded (cs : List Char) : Bool :=
  match cs with
  | '!' :: '=' :: _ => false
  | '=' :: '=' :: _ => false
  | '<' :: _ => false
  | '>' :: _ => false
  | '!' :: _ => true
  | ':' :: _ => true
  | '\x7d' :: _ => true
  | '=' :: _ => true
  | _ => false

/-- The characters of an embedded expression and what follows them. `quote` is the quote that is
    open, with its size; `brackets` are the open brackets. -/
def embedded? : Nat → Option (Char × Nat) → List Char → List Char → List Char →
    Option (List Char × List Char)
  | 0, _, _, _, _ => none
  | _ + 1, _, _, [], _ => none
  | fuel + 1, quote, brackets, c :: rest, out =>
    if c = '\\' then none
    else
      match quote with
      | some (q, size) =>
        if c = q ∧ (c :: rest).take size = List.replicate size q then
          embedded? fuel none brackets (rest.drop (size - 1)) (List.replicate size q ++ out)
        else embedded? fuel quote brackets rest (c :: out)
      | none =>
        if c = '\'' ∨ c = '"' then
          if rest.take 2 = [c, c] then
            embedded? fuel (some (c, 3)) brackets (rest.drop 2) (c :: c :: c :: out)
          else embedded? fuel (some (c, 1)) brackets rest (c :: out)
        else if c = '(' ∨ c = '[' ∨ c = '\x7b' then
          embedded? fuel none (c :: brackets) rest (c :: out)
        else if c = '#' then none
        else if brackets.isEmpty && endsEmbedded (c :: rest) then some (out.reverse, c :: rest)
        else if brackets.isEmpty && (c :: rest).take 2 ∈ [['!', '='], ['=', '='], ['<', '='], ['>', '=']]
        then
          embedded? fuel none brackets (rest.drop 1) ('=' :: c :: out)
        else if c = ')' ∨ c = ']' ∨ c = '\x7d' then
          match brackets with
          | b :: more =>
            if Token.closing b = c then embedded? fuel none more rest (c :: out) else none
          | [] => none
        else embedded? fuel none brackets rest (c :: out)

/-- What follows the mark of a conversion. -/
def conversion? : List Char → Option (List Char)
  | '!' :: c :: rest => if c = 's' ∨ c = 'r' ∨ c = 'a' then some rest else none
  | '!' :: [] => none
  | cs => some cs

/-- The embedded expressions of a formatted text, in order, and the characters that are left.
    `depth` counts the formats around this one. -/
def embeddings? (raw : Bool) : Nat → Nat → List Char → List (List Char) →
    Option (List (List Char) × List Char)
  | 0, _, _, _ => none
  | _ + 1, depth, [], out => if depth = 0 then some (out, []) else none
  | fuel + 1, depth, c :: rest, out =>
    if c = '\x7b' then
      if depth = 0 ∧ rest.head? = some '\x7b' then embeddings? raw fuel depth (rest.drop 1) out
      else if 2 ≤ depth then none
      else do
        let (e, rest) ← embedded? (rest.length + 1) none [] rest []
        if e.all fun c => c = ' ' ∨ (9 ≤ c.toNat ∧ c.toNat ≤ 13) then none
        else
          let rest := match rest with | '=' :: more => skipSpaces more | _ => rest
          let rest ← conversion? rest
          match rest with
          | '\x7d' :: more => embeddings? raw fuel depth more (out ++ [e])
          | ':' :: more =>
            let (out, more) ← embeddings? raw fuel (depth + 1) more (out ++ [e])
            match more with
            | '\x7d' :: more => embeddings? raw fuel depth more out
            | _ => none
          | _ => none
    else if c = '\x7d' then
      if 0 < depth then some (out, c :: rest)
      else if rest.head? = some '\x7d' then embeddings? raw fuel depth (rest.drop 1) out
      else none
    else if c = '\\' ∧ !raw then
      match rest with
      | '\x7b' :: _ => embeddings? raw fuel depth rest out
      | '\x7d' :: _ => embeddings? raw fuel depth rest out
      | 'N' :: '\x7b' :: more =>
        embeddings? raw fuel depth ((more.dropWhile (· ≠ '\x7d')).drop 1) out
      | _ :: more => embeddings? raw fuel depth more out
      | [] => none
    else embeddings? raw fuel depth rest out

/-- A formatted text with its embedded expressions and doubled braces left out, to judge its
    escapes. -/
def outsideEmbeddings : Nat → Nat → List Char → List Char
  | 0, _, _ => []
  | _ + 1, _, [] => []
  | fuel + 1, depth, c :: rest =>
    if c = '\\' ∧ rest.take 2 = ['N', '\x7b'] ∧ depth = 0 then
      let name := rest.takeWhile (· ≠ '\x7d')
      '\\' :: name ++ '\x7d' :: outsideEmbeddings fuel depth (rest.drop (name.length + 1))
    else if c = '\\' ∧ depth = 0 then
      match rest with
      | [] => ['\\', '\\']
      | d :: more =>
        if d = '\x7b' ∨ d = '\x7d' then '\\' :: '\\' :: outsideEmbeddings fuel depth rest
        else '\\' :: d :: outsideEmbeddings fuel depth more
    else if c = '\x7b' then
      if rest.head? = some '\x7b' ∧ depth = 0 then outsideEmbeddings fuel depth (rest.drop 1)
      else outsideEmbeddings fuel (depth + 1) rest
    else if c = '\x7d' then outsideEmbeddings fuel (depth - 1) rest
    else if depth = 0 then c :: outsideEmbeddings fuel depth rest
    else outsideEmbeddings fuel depth rest

/-! ## Expressions -/

mutual

/-- A list of items with commas between them, perhaps with one at its end; also whether there is a
    comma. -/
def items? : Nat → ItemKind → List Token → List Expr → Option ((List Expr × Bool) × List Token)
  | 0, _, _, _ => none
  | n + 1, kind, ts, before => do
    let (e, rest) ← item? n kind ts
    match rest with
    | .sign "," :: more =>
      match items? n kind more (e :: before) with
      | some ((es, _), rest) => some ((es, true), rest)
      | none => some (((e :: before).reverse, true), more)
    | _ => some (((e :: before).reverse, !before.isEmpty), rest)

/-- One item of a list. -/
def item? : Nat → ItemKind → List Token → Option (Expr × List Token)
  | 0, _, _ => none
  | n + 1, kind, ts =>
    match kind with
    | .plain => expression? n ts
    | .starred =>
      match ts with
      | .sign "*" :: rest => do
        let (e, rest) ← binary? n 0 rest
        some (.starred e, rest)
      | _ => expression? n ts
    | .named =>
      match ts with
      | .sign "*" :: rest => do
        let (e, rest) ← binary? n 0 rest
        some (.starred e, rest)
      | _ => named? n ts
    | .target =>
      match ts with
      | .sign "*" :: .sign "*" :: _ => none
      | .sign "*" :: rest => do
        let (e, rest) ← item? n .target rest
        some (.starred e, rest)
      | _ => do
        let (e, rest) ← primary? n ts
        if isTarget e then some (e, rest) else none

/-- An expression that may be given a name. -/
def named? : Nat → List Token → Option (Expr × List Token)
  | 0, _ => none
  | n + 1, ts =>
    match ts with
    | .word s :: .sign ":=" :: rest =>
      if s ∈ keywords then none
      else do
        let (_, rest) ← expression? n rest
        some (.unsupported "NamedExpr", rest)
    | _ => do
      let (e, rest) ← expression? n ts
      match rest with
      | .sign ":=" :: _ => none
      | _ => some (e, rest)

/-- An expression. -/
def expression? : Nat → List Token → Option (Expr × List Token)
  | 0, _ => none
  | n + 1, ts =>
    match ts with
    | .word "lambda" :: rest => do
      let rest ← if (sign? ":" rest).isSome then some rest else parameters? n false true [] rest
      let rest ← sign? ":" rest
      let (_, rest) ← expression? n rest
      some (.unsupported "Lambda", rest)
    | _ => do
      let (body, rest) ← disjunction? n ts
      match rest with
      | .word "if" :: more =>
        match conditionalRest? n body more with
        | some r => some r
        | none => some (body, rest)
      | _ => some (body, rest)

/-- The test and the alternative of a conditional expression. -/
def conditionalRest? : Nat → Expr → List Token → Option (Expr × List Token)
  | 0, _, _ => none
  | n + 1, body, ts => do
    let (test, rest) ← disjunction? n ts
    let rest ← word? "else" rest
    let (orelse, rest) ← expression? n rest
    some (.conditional test body orelse, rest)

/-- Operands joined by "or". -/
def disjunction? : Nat → List Token → Option (Expr × List Token)
  | 0, _ => none
  | n + 1, ts => do
    let (e, rest) ← conjunction? n ts
    match rest with
    | .word "or" :: _ =>
      let (es, rest) ← disjuncts? n rest
      some (.either (e :: es), rest)
    | _ => some (e, rest)

/-- The operands after an "or". -/
def disjuncts? : Nat → List Token → Option (List Expr × List Token)
  | 0, _ => none
  | n + 1, ts =>
    match ts with
    | .word "or" :: rest => do
      let (e, rest) ← conjunction? n rest
      let (es, rest) ← disjuncts? n rest
      some (e :: es, rest)
    | _ => some ([], ts)

/-- Operands joined by "and". -/
def conjunction? : Nat → List Token → Option (Expr × List Token)
  | 0, _ => none
  | n + 1, ts => do
    let (e, rest) ← inversion? n ts
    match rest with
    | .word "and" :: _ =>
      let (es, rest) ← conjuncts? n rest
      some (.both (e :: es), rest)
    | _ => some (e, rest)

/-- The operands after an "and". -/
def conjuncts? : Nat → List Token → Option (List Expr × List Token)
  | 0, _ => none
  | n + 1, ts =>
    match ts with
    | .word "and" :: rest => do
      let (e, rest) ← inversion? n rest
      let (es, rest) ← conjuncts? n rest
      some (e :: es, rest)
    | _ => some ([], ts)

/-- A negation or a comparison. -/
def inversion? : Nat → List Token → Option (Expr × List Token)
  | 0, _ => none
  | n + 1, ts =>
    match ts with
    | .word "not" :: rest => do
      let (e, rest) ← inversion? n rest
      some (.unary .not e, rest)
    | _ => do
      let (e, rest) ← binary? n 0 ts
      match comparison? rest with
      | some _ =>
        let (es, rest) ← comparisons? n rest
        some (.compare e es, rest)
      | none => some (e, rest)

/-- The comparisons after a first operand. -/
def comparisons? : Nat → List Token → Option (List (CompareOp × Expr) × List Token)
  | 0, _ => none
  | n + 1, ts =>
    match comparison? ts with
    | some (op, rest) => do
      let (e, rest) ← binary? n 0 rest
      let (es, rest) ← comparisons? n rest
      some ((op, e) :: es, rest)
    | none => some ([], ts)

/-- Operands joined by the operators of a level of precedence and of the tighter ones. -/
def binary? : Nat → Nat → List Token → Option (Expr × List Token)
  | 0, _, _ => none
  | n + 1, level, ts => do
    let (e, rest) ← if 5 < level then factor? n ts else binary? n (level + 1) ts
    binaryRest? n level e rest

/-- The operators and operands of a level after a first operand. -/
def binaryRest? : Nat → Nat → Expr → List Token → Option (Expr × List Token)
  | 0, _, _, _ => none
  | n + 1, level, left, ts =>
    match ts with
    | .sign s :: rest =>
      match operator? level s with
      | some op => do
        let (right, rest) ← binary? n (level + 1) rest
        binaryRest? n level (.binary op left right) rest
      | none => some (left, ts)
    | _ => some (left, ts)

/-- An operand with its signs, or a power. -/
def factor? : Nat → List Token → Option (Expr × List Token)
  | 0, _ => none
  | n + 1, ts =>
    let unary (op : UnaryOp) : Expr × List Token → Option (Expr × List Token)
      | (e, rest) => some (.unary op e, rest)
    match ts with
    | .sign "+" :: rest => (factor? n rest).bind (unary .plus)
    | .sign "-" :: rest => (factor? n rest).bind (unary .minus)
    | .sign "~" :: rest => (factor? n rest).bind (unary .invert)
    | _ => do
      let (e, rest) ← (
        match ts with
        | .word "await" :: more => do
          let (_, rest) ← primary? n more
          some (.unsupported "Await", rest)
        | _ => primary? n ts : Option (Expr × List Token))
      match rest with
      | .sign "**" :: more =>
        let (exponent, rest) ← factor? n more
        some (.binary .pow e exponent, rest)
      | _ => some (e, rest)

/-- An atom with its members, calls and subscripts. -/
def primary? : Nat → List Token → Option (Expr × List Token)
  | 0, _ => none
  | n + 1, ts => do
    let (e, rest) ← atom? n ts
    trailers? n e rest

/-- The members, calls and subscripts after an atom. -/
def trailers? : Nat → Expr → List Token → Option (Expr × List Token)
  | 0, _, _ => none
  | n + 1, e, ts =>
    match ts with
    | .sign "." :: rest => do
      let (id, rest) ← name? rest
      trailers? n (.member e id) rest
    | .sign "(" :: rest => do
      let ((arguments, keywords), rest) ← arguments? n rest
      trailers? n (.call e arguments keywords) rest
    | .sign "[" :: rest => do
      let (key, rest) ← subscripts? n rest []
      trailers? n (.subscript e key) rest
    | _ => some (e, ts)

/-- The arguments of a call up to its closing bracket; also whether one is given by name. -/
def arguments? : Nat → List Token → Option ((List Expr × Bool) × List Token)
  | 0, _ => none
  | n + 1, ts =>
    match ts with
    | .sign ")" :: rest => some (([], false), rest)
    | _ => argumentList? n 0 ts []

/-- Arguments from here on: positional ones (phase 0) come before named ones (phase 1), and those
    before unpacked mappings (phase 2). -/
def argumentList? : Nat → Nat → List Token → List Expr → Option ((List Expr × Bool) × List Token)
  | 0, _, _, _ => none
  | n + 1, phase, ts, before =>
    let next (phase : Nat) (before : List Expr) (rest : List Token) :
        Option ((List Expr × Bool) × List Token) :=
      match rest with
      | .sign ")" :: rest => some ((before.reverse, phase != 0), rest)
      | .sign "," :: .sign ")" :: rest => some ((before.reverse, phase != 0), rest)
      | .sign "," :: rest => argumentList? n phase rest before
      | _ => none
    match ts with
    | .sign "**" :: rest => do
      let (_, rest) ← expression? n rest
      next 2 before rest
    | .sign "*" :: rest => do
      let (e, rest) ← expression? n rest
      if phase = 2 then none else next phase (.starred e :: before) rest
    | .word s :: .sign "=" :: rest =>
      if s ∈ keywords then none
      else do
        let (_, rest) ← expression? n rest
        next (max phase 1) before rest
    | _ =>
      if phase = 0 then do
        let (e, rest) ← named? n ts
        match rest, before with
        | .word _ :: _, [] =>
          let rest ← clauses? n rest
          let rest ← sign? ")" rest
          some (([.unsupported "GeneratorExp"], false), rest)
        | _, _ => next 0 (e :: before) rest
      else none

/-- The key of a subscript up to its closing bracket. -/
def subscripts? : Nat → List Token → List Expr → Option (Expr × List Token)
  | 0, _, _ => none
  | n + 1, ts, before => do
    let (e, rest) ← subscriptItem? n ts
    match rest, e, before with
    | .sign "]" :: rest, .starred _, _ => some (.tuple (e :: before).reverse, rest)
    | .sign "]" :: rest, _, [] => some (e, rest)
    | .sign "]" :: rest, _, _ => some (.tuple (e :: before).reverse, rest)
    | .sign "," :: .sign "]" :: rest, _, _ => some (.tuple (e :: before).reverse, rest)
    | .sign "," :: rest, _, _ => subscripts? n rest (e :: before)
    | _, _, _ => none

/-- One item of a subscript: a slice, an unpacked operand or an expression. -/
def subscriptItem? : Nat → List Token → Option (Expr × List Token)
  | 0, _ => none
  | n + 1, ts =>
    match ts with
    | .sign "*" :: rest => do
      let (e, rest) ← expression? n rest
      some (.starred e, rest)
    | .sign ":" :: rest => sliceRest? n none rest
    | _ => do
      let (e, rest) ← named? n ts
      match rest with
      | .sign ":" :: more =>
        if isNaming ts then none else sliceRest? n (some e) more
      | _ => some (e, rest)

/-- The stop and the step of a slice, after its first colon. -/
def sliceRest? : Nat → Option Expr → List Token → Option (Expr × List Token)
  | 0, _, _ => none
  | n + 1, start, ts =>
    let optional (ts : List Token) : Option (Option Expr × List Token) :=
      match ts with
      | .sign "]" :: _ => some (none, ts)
      | .sign "," :: _ => some (none, ts)
      | .sign ":" :: _ => some (none, ts)
      | _ => (expression? n ts).map fun (e, rest) => (some e, rest)
    do
      let (stop, rest) ← optional ts
      match rest with
      | .sign ":" :: more =>
        let (step, rest) ← optional more
        some (.slice start stop step, rest)
      | _ => some (.slice start stop none, rest)

/-- The clauses of a comprehension; what follows them. -/
def clauses? : Nat → List Token → Option (List Token)
  | 0, _ => none
  | n + 1, ts => do
    let ts := (word? "async" ts).getD ts
    let rest ← word? "for" ts
    let (_, rest) ← items? n .target rest []
    let rest ← word? "in" rest
    let (_, rest) ← disjunction? n rest
    let rest ← filters? n rest
    match rest with
    | .word "for" :: _ => clauses? n rest
    | .word "async" :: _ => clauses? n rest
    | _ => some rest

/-- The conditions of a clause; what follows them. -/
def filters? : Nat → List Token → Option (List Token)
  | 0, _ => none
  | n + 1, ts =>
    match ts with
    | .word "if" :: rest => do
      let (_, rest) ← disjunction? n rest
      filters? n rest
    | _ => some ts

/-- The members of a bracketed display, at least one. -/
def members? : Nat → List Token → Option (Members × List Token)
  | 0, _ => none
  | n + 1, ts => do
    let (e, rest) ← item? n .named ts
    membersRest? n e rest

/-- The members of a bracketed display after the first one. -/
def membersRest? : Nat → Expr → List Token → Option (Members × List Token)
  | 0, _, _ => none
  | n + 1, e, ts =>
    match ts with
    | .sign "," :: rest =>
      match items? n .named rest [e] with
      | some ((es, _), rest) => some (.items es true, rest)
      | none => some (.items [e] true, rest)
    | .word _ :: _ =>
      match e with
      | .starred _ => none
      | _ => (clauses? n ts).map fun rest => (.comprehension, rest)
    | _ => some (.items [e] false, ts)

/-- An atom. -/
def atom? : Nat → List Token → Option (Expr × List Token)
  | 0, _ => none
  | n + 1, ts =>
    match ts with
    | .word "True" :: rest => some (.constant (.bool true), rest)
    | .word "False" :: rest => some (.constant (.bool false), rest)
    | .word "None" :: rest => some (.constant .null, rest)
    | .word s :: rest => if s ∈ keywords then none else some (.name s, rest)
    | .number c :: rest => some (.constant c, rest)
    | .sign "..." :: rest => some (.constant .foreign, rest)
    | .quotation _ :: _ => quotations? n ts []
    | .sign "(" :: rest =>
      match rest with
      | .sign ")" :: rest => some (.tuple [], rest)
      | .word "yield" :: _ => do
        let (e, rest) ← yielded? n rest
        let rest ← sign? ")" rest
        some (e, rest)
      | _ => do
        let (ms, rest) ← members? n rest
        let rest ← sign? ")" rest
        match ms with
        | .comprehension => some (.unsupported "GeneratorExp", rest)
        | .items [.starred _] false => none
        | .items es comma => some (tupled (es, comma), rest)
    | .sign "[" :: rest =>
      match rest with
      | .sign "]" :: rest => some (.list [], rest)
      | _ => do
        let (ms, rest) ← members? n rest
        let rest ← sign? "]" rest
        match ms with
        | .comprehension => some (.unsupported "ListComp", rest)
        | .items es _ => some (.list es, rest)
    | .sign "\x7b" :: rest => braces? n rest
    | _ => none

/-- A mapping or a set, after its opening brace. -/
def braces? : Nat → List Token → Option (Expr × List Token)
  | 0, _ => none
  | n + 1, ts =>
    match ts with
    | .sign "\x7d" :: rest => some (.mapping [] false, rest)
    | .sign "**" :: _ => entries? n ts [] false
    | _ => do
      let (e, rest) ← item? n .named ts
      match rest with
      | .sign ":" :: more =>
        match e with
        | .starred _ => none
        | _ => if isNaming ts then none else entryRest? n e more
      | _ =>
        let (ms, rest) ← membersRest? n e rest
        let rest ← sign? "\x7d" rest
        match ms with
        | .comprehension => some (.unsupported "SetComp", rest)
        | .items .. => some (.unsupported "Set", rest)

/-- A mapping from the value of its first entry on. -/
def entryRest? : Nat → Expr → List Token → Option (Expr × List Token)
  | 0, _, _ => none
  | n + 1, k, ts => do
    let (v, rest) ← expression? n ts
    match rest with
    | .word _ :: _ =>
      let rest ← clauses? n rest
      (sign? "\x7d" rest).map fun rest => (.unsupported "DictComp", rest)
    | .sign "\x7d" :: rest => some (.mapping [(k, v)] false, rest)
    | .sign "," :: .sign "\x7d" :: rest => some (.mapping [(k, v)] false, rest)
    | .sign "," :: rest => entries? n rest [(k, v)] false
    | _ => none

/-- The entries of a mapping up to its closing brace, those before in reverse. -/
def entries? : Nat → List Token → List (Expr × Expr) → Bool → Option (Expr × List Token)
  | 0, _, _, _ => none
  | n + 1, ts, before, unpacks =>
    let next (before : List (Expr × Expr)) (unpacks : Bool) (rest : List Token) :
        Option (Expr × List Token) :=
      match rest with
      | .sign "\x7d" :: rest => some (.mapping before.reverse unpacks, rest)
      | .sign "," :: .sign "\x7d" :: rest => some (.mapping before.reverse unpacks, rest)
      | .sign "," :: rest => entries? n rest before unpacks
      | _ => none
    match ts with
    | .sign "**" :: rest => do
      let (_, rest) ← binary? n 0 rest
      next before true rest
    | _ => do
      let (k, rest) ← expression? n ts
      let rest ← sign? ":" rest
      let (v, rest) ← expression? n rest
      next ((k, v) :: before) unpacks rest

/-- A yield expression. -/
def yielded? : Nat → List Token → Option (Expr × List Token)
  | 0, _ => none
  | n + 1, ts =>
    match ts with
    | .word "yield" :: .word "from" :: rest => do
      let (_, rest) ← expression? n rest
      some (.unsupported "YieldFrom", rest)
    | .word "yield" :: rest =>
      match items? n .starred rest [] with
      | some (_, rest) => some (.unsupported "Yield", rest)
      | none => some (.unsupported "Yield", rest)
    | _ => none

/-- Parameters up to the sign that ends them, which is left. `annotated` parameters may have types.
    The flags seen so far: "default", "slash", "star", "bare", "last", "any". -/
def parameters? : Nat → Bool → Bool → List String → List Token → Option (List Token)
  | 0, _, _, _, _ => none
  | n + 1, annotated, first, seen, ts =>
    let has (f : String) : Bool := seen.contains f
    let ends (ts : List Token) : Bool := (sign? (if annotated then ")" else ":") ts).isSome
    let type? (starred : Bool) (rest : List Token) : Option (List Token) :=
      match annotated, rest with
      | true, .sign ":" :: rest =>
        (item? n (if starred then .starred else .plain) rest).map (·.2)
      | _, _ => some rest
    let next (seen : List String) (rest : List Token) : Option (List Token) :=
      if ends rest then if seen.contains "bare" then none else some rest
      else
        match rest with
        | .sign "," :: rest =>
          if ends rest then if seen.contains "bare" then none else some rest
          else parameters? n annotated false seen rest
        | _ => none
    if ends ts then if first then some ts else none
    else if has "last" then none
    else
      match ts with
      | .sign "/" :: rest =>
        if has "slash" || has "star" || !has "any" then none else next ("slash" :: seen) rest
      | .sign "**" :: rest => do
        if has "bare" then none
        else
          let (_, rest) ← name? rest
          let rest ← type? false rest
          next ("last" :: seen) rest
      | .sign "*" :: .sign "," :: _ =>
        if has "star" then none else next ("star" :: "bare" :: seen) (ts.drop 1)
      | .sign "*" :: rest => do
        if has "star" then none
        else
          let (_, rest) ← name? rest
          let rest ← type? true rest
          next ("star" :: seen) rest
      | _ => do
        let (_, rest) ← name? ts
        let rest ← type? false rest
        let seen := "any" :: seen.filter (· != "bare")
        match rest with
        | .sign "=" :: rest =>
          let (_, rest) ← expression? n rest
          next ("default" :: seen) rest
        | _ => if has "default" && !has "star" then none else next seen rest

/-- Quoted texts one after the other, which are one text. -/
def quotations? : Nat → List Token → List Quotation → Option (Expr × List Token)
  | 0, _, _ => none
  | n + 1, ts, before =>
    match ts with
    | .quotation q :: rest => quotations? n rest (q :: before)
    | _ => do
      let qs := before.reverse
      let isBytes := qs.any (·.isBytes)
      if isBytes && !qs.all (·.isBytes) then none
      else if isBytes then
        if qs.all fun q => q.body.all (fun c => c.toNat < 128) &&
            (q.isRaw || (unescape? true q.body).isSome) then
          some (.constant .foreign, ts)
        else none
      else
        let texts ← qs.mapM fun q =>
          let body := if q.isFormatted then outsideEmbeddings (q.body.length + 1) 0 q.body else q.body
          if q.isRaw then some (String.ofList body) else unescape? false body
        if qs.any (·.isFormatted) then
          if formatted? n (qs.filter (·.isFormatted)) then some (.unsupported "JoinedStr", ts)
          else none
        else some (.constant (.text (String.join texts)), ts)

/-- Whether formatted texts are well formed, embedded expressions included. -/
def formatted? : Nat → List Quotation → Bool
  | 0, _ => false
  | _ + 1, [] => true
  | n + 1, q :: qs =>
    (match embeddings? q.isRaw (q.body.length + 1) 0 q.body [] with
      | some (es, _) => embeddedAll? n es
      | none => false) && formatted? n qs

/-- Whether all these characters are expressions. -/
def embeddedAll? : Nat → List (List Char) → Bool
  | 0, _ => false
  | _ + 1, [] => true
  | n + 1, e :: es =>
    (match tokens? ('(' :: e ++ [')']) with
      | some ts =>
        match items? n .starred ts [] with
        | some (_, []) => true
        | _ => false
      | none => false) && embeddedAll? n es

end

/-- A bound on the depth of reading these tokens. -/
def depthBound (size : Nat) : Nat :=
  40 * size + 400

end Grammar

/-- The expression that the tokens of a text of a size make; `none` if they are not well formed. -/
def Expr.ofTokens? (size : Nat) (ts : List Token) : Option Expr := do
  let ((es, comma), rest) ← Grammar.items? (Grammar.depthBound size) .plain ts []
  if rest.all fun t => match t with | .newline => true | _ => false then
    some (Grammar.tupled (es, comma))
  else none

/-- The expression of a whole text; `none` if the text is not well formed. -/
def Expr.ofText? (names : Text.CharNames) (s : String) : Option Expr :=
  (tokens? s.toList).bind fun ts => ofTokens? s.length (ts.map (Token.spellOut names))

end Rulebook.Script
