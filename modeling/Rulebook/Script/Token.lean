/-
  Tokens of guards and scripts.

  `tokens?` cuts a text into words, numbers, quoted texts and signs.  Outside brackets the ends of
  lines are tokens too, and so are the beginning and the end of an indented block.  `spellOut`
  replaces the characters that quoted texts give by name.
-/
import Rulebook.Script.Literal
import Rulebook.Text.Quoted
import Rulebook.Text.Names

namespace Rulebook.Script

/-- A quoted text as it stands in the source. -/
structure Quotation where
  isBytes : Bool
  isRaw : Bool
  isFormatted : Bool
  body : List Char

/-- A token. -/
inductive Token where
  | word (s : String)
  | number (c : Constant)
  | quotation (q : Quotation)
  | sign (s : String)
  | newline
  | indent
  | dedent
  deriving Inhabited

namespace Token

/-- The signs, the longer ones first. -/
def signs : List String :=
  ["**=", "//=", ">>=", "<<=", "...", "==", "!=", "<=", ">=", "->", ":=", "**", "//", "<<", ">>",
    "+=", "-=", "*=", "/=", "%=", "&=", "|=", "^=", "@=", "+", "-", "*", "/", "%", "@", "&", "|",
    "^", "~", "<", ">", "(", ")", "[", "]", "\x7b", "\x7d", ",", ":", ".", ";", "="]

/-- The sign at the start of the characters. -/
def sign? (cs : List Char) : Option (String × List Char) :=
  (signs.find? fun s => cs.take s.length == s.toList).map fun s => (s, cs.drop s.length)

/-- Line ends written in one way. -/
def unifyLines : List Char → List Char
  | '\x0d' :: '\n' :: rest => '\n' :: unifyLines rest
  | '\x0d' :: rest => '\n' :: unifyLines rest
  | c :: rest => c :: unifyLines rest
  | [] => []

/-! ## Quoted texts -/

/-- The characters up to the closing quotes (`size` of `q`), and what follows them. -/
def quotedBody (q : Char) (size : Nat) : Nat → List Char → List Char → Option (List Char × List Char)
  | 0, _, _ => none
  | _ + 1, [], _ => none
  | fuel + 1, c :: rest, out =>
    if c = q ∧ (c :: rest).take size == List.replicate size q then
      some (out.reverse, (c :: rest).drop size)
    else if c = '\n' ∧ size = 1 then none
    else if c = '\\' then
      match rest with
      | d :: more => quotedBody q size fuel more (d :: c :: out)
      | [] => none
    else quotedBody q size fuel rest (c :: out)

/-- A quoted text from its first quote on. -/
def quotation? (mark : List Char) (cs : List Char) : Option (Quotation × List Char) :=
  match cs with
  | [] => none
  | q :: rest =>
    let has (c : Char) : Bool := mark.any fun d => d.toLower == c
    let make (body : List Char) : Quotation := ⟨has 'b', has 'r', has 'f', body⟩
    let size := if rest.take 2 == [q, q] then 3 else 1
    if size = 1 ∧ rest.head? = some q then some (make [], rest.drop 1)
    else
      (quotedBody q size (rest.length + 1) (cs.drop size) []).map fun (body, rest) =>
        (make body, rest)

/-- Whether letters may stand before a quote. -/
def isMark (letters : List Char) : Bool :=
  (String.ofList (letters.map Char.toLower)) ∈ ["", "b", "r", "u", "f", "br", "rb", "fr", "rf"]

/-! ## Lines and blocks -/

/-- How far the text has been read: the columns of the open blocks (with tabs to multiples of
    eight, and with tabs as one column), and the open brackets. -/
structure State where
  blocks : List (Nat × Nat)
  brackets : List Char

/-- The closing bracket for an opening one. -/
def closing (c : Char) : Char :=
  if c = '(' then ')' else if c = '[' then ']' else '\x7d'

/-- The columns of a line's first character, and the characters from there on. A line that goes on
    in the next keeps its own column, `kept`, unless that is zero. -/
def indentation : Nat → Nat → Nat → Nat → List Char → Option (Nat × Nat × List Char)
  | 0, col, alt, kept, cs => columns col alt kept cs
  | fuel + 1, col, alt, kept, cs =>
    match cs with
    | ' ' :: rest => indentation fuel (col + 1) (alt + 1) kept rest
    | '\t' :: rest => indentation fuel ((col / 8 + 1) * 8) (alt + 1) kept rest
    | '\x0c' :: rest => indentation fuel 0 0 kept rest
    | '\\' :: '\n' :: rest =>
      if rest.isEmpty then none else indentation fuel col alt (if kept = 0 then col else kept) rest
    | '\\' :: _ => none
    | _ => columns col alt kept cs
where
  /-- The columns where the kept one, if there is one, comes first. -/
  columns (col alt kept : Nat) (cs : List Char) : Option (Nat × Nat × List Char) :=
    if kept = 0 then some (col, alt, cs) else some (kept, kept, cs)

/-- Closes blocks until one starts at a column; `none` if none does. -/
def closeBlocks (col alt : Nat) : List (Nat × Nat) → Nat → Option (List (Nat × Nat) × Nat)
  | [], n => if col = 0 then some ([], n) else none
  | (c, a) :: blocks, n =>
    if col < c then closeBlocks col alt blocks (n + 1)
    else if col = c ∧ alt = a then some ((c, a) :: blocks, n)
    else none

/-- The tokens for the start of a line at given columns. -/
def lineStart (col alt : Nat) (blocks : List (Nat × Nat)) : Option (List (Nat × Nat) × List Token) :=
  let (c, a) := blocks.headD (0, 0)
  if col = c then if alt = a then some (blocks, []) else none
  else if c < col then
    if alt ≤ a ∨ 99 ≤ blocks.length then none else some ((col, alt) :: blocks, [.indent])
  else
    (closeBlocks col alt blocks 0).map fun (blocks, n) => (blocks, List.replicate n .dedent)

/-- Reads tokens: at the start of a line its indentation, elsewhere the next token. The tokens
    before are in reverse. -/
def scan : Nat → Bool → State → List Char → List Token → Option (List Token)
  | 0, _, _, _, _ => none
  | fuel + 1, true, s, cs, out =>
    match indentation (cs.length + 1) 0 0 0 cs with
    | none => none
    | some (_, _, '\n' :: rest) => scan fuel true s rest out
    | some (_, _, '#' :: rest) =>
      match rest.dropWhile (· ≠ '\n') with
      | _ :: rest => scan fuel true s rest out
      | [] => scan fuel true s [] out
    | some (_, _, []) =>
      some ((List.replicate s.blocks.length Token.dedent ++ out).reverse)
    | some (col, alt, rest) =>
      match lineStart col alt s.blocks with
      | some (blocks, ts) => scan fuel false { s with blocks := blocks } rest (ts.reverse ++ out)
      | none => none
  | fuel + 1, false, s, cs, out =>
    match cs with
    | [] => if s.brackets.isEmpty then some (List.replicate s.blocks.length Token.dedent ++ out).reverse
      else none
    | '\n' :: rest =>
      if s.brackets.isEmpty then scan fuel true s rest (.newline :: out)
      else scan fuel false s rest out
    | '\\' :: '\n' :: rest => if rest.isEmpty then none else scan fuel false s rest out
    | '#' :: rest => scan fuel false s (rest.dropWhile (· ≠ '\n')) out
    | c :: rest =>
      if c = ' ' ∨ c = '\t' ∨ c = '\x0c' then scan fuel false s rest out
      else if c = '"' ∨ c = '\'' then
        match quotation? [] cs with
        | some (q, rest) => scan fuel false s rest (.quotation q :: out)
        | none => none
      else if Text.isIdentifierStart c then
        let letters := cs.takeWhile Text.isIdentifierPart
        let after := cs.dropWhile Text.isIdentifierPart
        match after with
        | q :: _ =>
          if (q = '"' ∨ q = '\'') && isMark letters then
            match quotation? letters after with
            | some (q, rest) => scan fuel false s rest (.quotation q :: out)
            | none => none
          else scan fuel false s after (.word (String.ofList letters) :: out)
        | [] => scan fuel false s after (.word (String.ofList letters) :: out)
      else if c.isDigit || (c = '.' && (rest.head?.map Char.isDigit).getD false) then
        match number? cs with
        | some (n, rest) => scan fuel false s rest (.number n :: out)
        | none => none
      else if c = '(' ∨ c = '[' ∨ c = '\x7b' then
        if 200 ≤ s.brackets.length then none
        else scan fuel false { s with brackets := c :: s.brackets } rest (.sign c.toString :: out)
      else if c = ')' ∨ c = ']' ∨ c = '\x7d' then
        match s.brackets with
        | b :: brackets =>
          if closing b = c then
            scan fuel false { s with brackets := brackets } rest (.sign c.toString :: out)
          else none
        | [] => none
      else
        match sign? cs with
        | some (t, rest) => scan fuel false s rest (.sign t :: out)
        | none => none

/-! ## Characters by name -/

/-- The characters between quotes, those that are given by name as escapes by number. A name that
    is not in the table stays. -/
def spelledOut (names : Text.CharNames) : Nat → List Char → List Char
  | fuel + 1, '\\' :: 'N' :: '\x7b' :: rest =>
    let name := rest.takeWhile (· ≠ '\x7d')
    match names (String.ofList name), rest.drop name.length with
    | some c, _ :: rest => '\\' :: 'U' :: Text.hexPadded 8 c.toNat ++ spelledOut names fuel rest
    | _, _ => '\\' :: 'N' :: '\x7b' :: spelledOut names fuel rest
  | fuel + 1, '\\' :: c :: rest => '\\' :: c :: spelledOut names fuel rest
  | fuel + 1, c :: rest => c :: spelledOut names fuel rest
  | _, cs => cs

/-- A token whose characters by name are spelled out, if it is a text where names count. -/
def spellOut (names : Text.CharNames) : Token → Token
  | .quotation q =>
    if q.isRaw || q.isBytes then .quotation q
    else .quotation { q with body := spelledOut names q.body.length q.body }
  | t => t

/-- Whether a token is no text with an escape. -/
def isPlain : Token → Bool
  | .quotation q => !q.body.contains '\\'
  | _ => true

theorem spelledOut_of_notMem (names : Text.CharNames) {cs : List Char} (h : '\\' ∉ cs)
    (fuel : Nat) : spelledOut names fuel cs = cs := by
  induction fuel generalizing cs with
  | zero => simp [spelledOut]
  | succ fuel ih =>
    cases cs with
    | nil => simp [spelledOut]
    | cons c cs =>
      have hc : c ≠ '\\' := fun hc => h (hc ▸ List.mem_cons_self)
      rw [spelledOut, ih fun hm => h (List.mem_cons_of_mem c hm)]
      · exact fun _ h => absurd h hc
      · exact fun _ _ h => absurd h hc

theorem spellOut_of_isPlain (names : Text.CharNames) {t : Token} (h : t.isPlain) :
    t.spellOut names = t := by
  cases t with
  | quotation q =>
    have hbody : '\\' ∉ q.body := by simpa [isPlain] using h
    simp only [spellOut, spelledOut_of_notMem names hbody, ite_self]
  | _ => rfl

theorem map_spellOut (names : Text.CharNames) {ts : List Token} (h : ∀ t ∈ ts, t.isPlain = true) :
    ts.map (spellOut names) = ts := by
  rw [List.map_congr_left fun t ht => spellOut_of_isPlain names (h t ht), List.map_id']

end Token

/-- The tokens of a text; `none` if it cannot be cut into tokens. -/
def tokens? (cs : List Char) : Option (List Token) :=
  let cs := Token.unifyLines cs
  Token.scan (2 * cs.length + 3) true ⟨[], []⟩ cs []

end Rulebook.Script
