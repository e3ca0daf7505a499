/-
  Finding patterns in text.

  `Pattern.run` tries a pattern at a cursor and hands every way in which it fits to the rest of the
  work, the preferred way first, until the rest succeeds.  A repetition that has its least count
  ends when a round consumes nothing.  `Pattern.foundIn` says whether a pattern fits anywhere in a
  text.
-/
import Rulebook.Pattern.Reader
import Rulebook.Text.Blank
import Rulebook.Text.CaseMap
import Rulebook.Text.Digit

namespace Rulebook.Pattern

/-! ## Characters -/

/-- The lower case of a character, as far as flags let characters have cases. -/
def lowered (flags : PatternFlags) (c : Char) : Char :=
  if flags.ascii then c.toLower else Text.simpleLower c

/-- Whether a character has another case under flags. -/
def hasCase (flags : PatternFlags) (c : Char) : Bool :=
  if flags.ascii then c.isAlpha else Text.isCased c

/-- The characters that count as the same small letter. -/
def variants (flags : PatternFlags) (c : Char) : List Char :=
  if flags.ascii then [c] else Text.sameCapital c

/-- Whether a character fits the one of a code. -/
def fitsChar (flags : PatternFlags) (code : Nat) (c : Char) : Bool :=
  let p := Char.ofNat code
  if flags.ignoreCase && p.toNat = code && hasCase flags p then
    (variants flags (lowered flags p)).contains (lowered flags c)
  else c.toNat = code

/-- Whether a character is in a class. -/
def CharClass.mem (flags : PatternFlags) (k : CharClass) (c : Char) : Bool :=
  match k, flags.ascii with
  | .digit, true => c.isDigit
  | .digit, false => Text.isDecimal c
  | .space, true => isFiller c
  | .space, false => Text.isBlank c
  | .word, true => c.isAlphanum || c = '_'
  | .word, false => Text.isAlphanumeric c || c = '_'

/-- Whether a character, as it stands, fits a member of a set. -/
def SetItem.mem (flags : PatternFlags) (c : Char) : SetItem → Bool
  | .char code => c.toNat = code
  | .range low high => low ≤ c.toNat && c.toNat ≤ high
  | .inClass k negated => k.mem flags c != negated

/-- The characters whose lower case is a given one. -/
def raised (flags : PatternFlags) (c : Char) : List Char :=
  if flags.ascii then [c, c.toUpper]
  else
    let n := c.toNat
    let shifted := Text.lowerRuns.toList.filterMap fun (first, last, step, shift) =>
      let m := ((n : Int) - shift).toNat
      if first ≤ m && m ≤ last && (m - first) % step == 0 then some (Char.ofNat m) else none
    [c, c.toUpper] ++ shifted ++ (if c = 'i' then [Char.ofNat 0x130] else [])

/-- The first code point that sets do not fold. -/
def unfolded : Nat := 0x10000

/-- Whether a lower case character fits a member of a set in either case. -/
def SetItem.memFolded (flags : PatternFlags) (c : Char) : SetItem → Bool
  | .char code =>
    if unfolded ≤ code then c.toNat = code
    else (variants flags (lowered flags (Char.ofNat code))).contains c
  | .range low high =>
    ((variants flags c).any fun d =>
      lowered flags d = d && (raised flags d).any fun e =>
        e.toNat < unfolded && low ≤ e.toNat && e.toNat ≤ high && lowered flags e = d) ||
      (unfolded ≤ high &&
        ((low ≤ c.toNat && c.toNat ≤ high) ||
          (match Text.upperChar c with
            | u :: _ => low ≤ u.toNat && u.toNat ≤ high
            | [] => false)))
  | .inClass k negated => k.mem flags c != negated

/-- Whether a member of a set stands for characters with cases. -/
def SetItem.hasCases (flags : PatternFlags) : SetItem → Bool
  | .char code => unfolded ≤ code || hasCase flags (Char.ofNat code)
  | .range low high =>
    unfolded ≤ high || (List.range' low (high + 1 - low)).any fun n =>
      hasCase flags (Char.ofNat n) && (Char.ofNat n).toNat = n
  | .inClass .. => false

/-- Whether a character fits a set. -/
def fitsSet (flags : PatternFlags) (negated : Bool) (items : List SetItem) (c : Char) : Bool :=
  (if flags.ignoreCase && items.any (·.hasCases flags) then
    items.any (·.memFolded flags (lowered flags c))
  else items.any (·.mem flags c)) != negated

/-- Whether a character fits the point. -/
def fitsAny (flags : PatternFlags) (c : Char) : Bool :=
  flags.dotAll || c != '\n'

/-! ## Cursors -/

/-- A place in a text, and the marks of the groups: the start and the end of group `n` are the marks
    `2 n` and `2 n + 1`. -/
structure Cursor where
  pos : Nat
  marks : Array (Option Nat)

/-- Sets a mark. -/
def Cursor.mark (c : Cursor) (i : Nat) : Cursor :=
  { c with marks := c.marks.setIfInBounds i (some c.pos) }

/-- The span of a group that has fitted. -/
def Cursor.span? (c : Cursor) (number : Nat) : Option (Nat × Nat) :=
  match c.marks[2 * number]?, c.marks[2 * number + 1]? with
  | some (some a), some (some b) => if a ≤ b then some (a, b) else none
  | _, _ => none

/-- The rest of the work after a pattern has fitted. -/
abbrev Rest := Cursor → Option Cursor

/-- Whether a character of the text passes a test. -/
def testAt (text : Array Char) (i : Nat) (p : Char → Bool) : Bool :=
  match text[i]? with
  | some c => p c
  | none => false

/-- Whether a place between characters is at a cursor. -/
def atPlace (text : Array Char) (flags : PatternFlags) (p : Place) (i : Nat) : Bool :=
  let isWord (c : Char) : Bool := CharClass.word.mem flags c
  let before (q : Char → Bool) : Bool := 0 < i && testAt text (i - 1) q
  match p with
  | .textStart => i = 0
  | .textEnd => i = text.size
  | .lineStart => i = 0 || (flags.multiline && before (· = '\n'))
  | .lineEnd =>
    i = text.size ||
      (testAt text i (· = '\n') && (flags.multiline || i + 1 = text.size))
  | .boundary => !text.isEmpty && before isWord != testAt text i isWord
  | .noBoundary => !text.isEmpty && before isWord == testAt text i isWord

/-- Whether the text of a span stands again at a place. -/
def sameAt (text : Array Char) (flags : PatternFlags) (start i : Nat) : Nat → Bool
  | 0 => true
  | n + 1 =>
    (match text[start]?, text[i]? with
      | some a, some b => if flags.ignoreCase then lowered flags a = lowered flags b else a = b
      | _, _ => false) && sameAt text flags (start + 1) (i + 1) n

/-! ## Repetitions -/

/-- Whether a count may grow. -/
def mayGrow (count : Nat) : Option Nat → Bool
  | some most => count < most
  | none => true

/-- How many characters from a place on pass a test, up to a bound. -/
def runLength (text : Array Char) (p : Char → Bool) (i : Nat) : Nat → Nat → Nat
  | 0, found => found
  | n + 1, found => if testAt text i p then runLength text p (i + 1) n (found + 1) else found

/-- Tries the rest after `low + extra` characters, then after fewer, down to `low`. -/
def backOff (k : Rest) (c : Cursor) (low : Nat) : Nat → Option Cursor
  | 0 => k { c with pos := c.pos + low }
  | extra + 1 =>
    match k { c with pos := c.pos + low + (extra + 1) } with
    | some r => some r
    | none => backOff k c low extra

/-- Tries the rest after `low` characters, then after more, up to `extra` more. -/
def reachOn (k : Rest) (c : Cursor) (low : Nat) : Nat → Option Cursor
  | 0 => k { c with pos := c.pos + low }
  | extra + 1 =>
    match k { c with pos := c.pos + low } with
    | some r => some r
    | none => reachOn k c (low + 1) extra

/-- A repetition of single characters. -/
def repeatChars (text : Array Char) (p : Char → Bool) (least : Nat) (most : Option Nat)
    (greed : Greed) (c : Cursor) (k : Rest) : Option Cursor :=
  let room := text.size - c.pos
  let found := runLength text p c.pos (match most with | some m => min m room | none => room) 0
  if found < least then none
  else
    match greed with
    | .greedy => backOff k c least (found - least)
    | .lazy => reachOn k c least (found - least)
    | .possessive => k { c with pos := c.pos + found }

/-- Rounds of a repetition, as many as possible first. `last` is where the last round beyond the
    least count began. -/
def greedyRounds (body : Cursor → Rest → Option Cursor) (least : Nat) (most : Option Nat)
    (k : Rest) : Nat → Nat → Option Nat → Cursor → Option Cursor
  | 0, _, _, _ => none
  | fuel + 1, count, last, c =>
    if count < least then body c (greedyRounds body least most k fuel (count + 1) last)
    else if mayGrow count most && last != some c.pos then
      match body c (greedyRounds body least most k fuel (count + 1) (some c.pos)) with
      | some r => some r
      | none => k c
    else k c

/-- Rounds of a repetition, as few as possible first. -/
def lazyRounds (body : Cursor → Rest → Option Cursor) (least : Nat) (most : Option Nat)
    (k : Rest) : Nat → Nat → Option Nat → Cursor → Option Cursor
  | 0, _, _, _ => none
  | fuel + 1, count, last, c =>
    if count < least then body c (lazyRounds body least most k fuel (count + 1) last)
    else
      match k c with
      | some r => some r
      | none =>
        if mayGrow count most && last != some c.pos then
          body c (lazyRounds body least most k fuel (count + 1) (some c.pos))
        else none

/-- Rounds of a repetition without a second thought: each fits in its preferred way. -/
def possessiveRounds (body : Cursor → Rest → Option Cursor) (least : Nat) (most : Option Nat) :
    Nat → Nat → Option Nat → Cursor → Option Cursor
  | 0, _, _, _ => none
  | fuel + 1, count, last, c =>
    if count < least then
      match body c some with
      | some d => possessiveRounds body least most fuel (count + 1) none d
      | none => none
    else if mayGrow count most && last != some c.pos then
      match body c some with
      | some d => possessiveRounds body least most fuel (count + 1) (some c.pos) d
      | none => some c
    else some c

/-! ## Patterns -/

/-- The test of a pattern for one character. -/
def charTest? : Pattern → Option (Char → Bool)
  | .char flags code => some (fitsChar flags code)
  | .set flags negated items => some (fitsSet flags negated items)
  | .any flags => some (fitsAny flags)
  | .sequence [.char flags code] => some (fitsChar flags code)
  | .sequence [.set flags negated items] => some (fitsSet flags negated items)
  | .sequence [.any flags] => some (fitsAny flags)
  | _ => none

mutual

/-- Tries a pattern at a cursor. -/
def run (text : Array Char) : Pattern → Cursor → Rest → Option Cursor
  | .char flags code, c, k =>
    if testAt text c.pos (fitsChar flags code) then k { c with pos := c.pos + 1 } else none
  | .set flags negated items, c, k =>
    if testAt text c.pos (fitsSet flags negated items) then k { c with pos := c.pos + 1 } else none
  | .any flags, c, k =>
    if testAt text c.pos (fitsAny flags) then k { c with pos := c.pos + 1 } else none
  | .place flags p, c, k => if atPlace text flags p c.pos then k c else none
  | .sequence ps, c, k => runAll text ps c k
  | .choice ps, c, k => runAny text ps c k
  | .repeated least most greed body, c, k =>
    match charTest? body with
    | some p => repeatChars text p least most greed c k
    | none =>
      let fuel := least + (text.size - c.pos) + 2
      match greed with
      | .greedy => greedyRounds (fun c k => run text body c k) least most k fuel 0 none c
      | .lazy => lazyRounds (fun c k => run text body c k) least most k fuel 0 none c
      | .possessive =>
        match possessiveRounds (fun c k => run text body c k) least most fuel 0 none c with
        | some d => k d
        | none => none
  | .group number body, c, k =>
    run text body (c.mark (2 * number)) fun d => k (d.mark (2 * number + 1))
  | .again flags number _ _, c, k =>
    match c.span? number with
    | some (a, b) =>
      if sameAt text flags a c.pos (b - a) then k { c with pos := c.pos + (b - a) } else none
    | none => none
  | .ifGroup number yes no, c, k =>
    match c.span? number with
    | some _ => run text yes c k
    | none => run text no c k
  | .ahead negated body, c, k =>
    match run text body c some, negated with
    | some d, false => k { d with pos := c.pos }
    | none, true => k c
    | _, _ => none
  | .behind negated length body, c, k =>
    if c.pos < length then if negated then k c else none
    else
      match run text body { c with pos := c.pos - length } some, negated with
      | some d, false => k { d with pos := c.pos }
      | none, true => k c
      | _, _ => none
  | .atomic body, c, k =>
    match run text body c some with
    | some d => k d
    | none => none

/-- Tries patterns one after another. -/
def runAll (text : Array Char) : List Pattern → Cursor → Rest → Option Cursor
  | [], c, k => k c
  | p :: ps, c, k => run text p c fun d => runAll text ps d k

/-- Tries alternatives in order. -/
def runAny (text : Array Char) : List Pattern → Cursor → Rest → Option Cursor
  | [], _, _ => none
  | p :: ps, c, k =>
    match run text p c k with
    | some r => some r
    | none => runAny text ps c k

end

/-- Whether a pattern with a number of groups fits somewhere in a text. -/
def foundIn (p : Pattern) (groups : Nat) (s : String) : Bool :=
  let text := s.toList.toArray
  let marks := Array.replicate (2 * groups + 2) none
  (List.range (text.size + 1)).any fun i => (run text p ⟨i, marks⟩ some).isSome

end Rulebook.Pattern
