/-
  Reading patterns from text.

  `Pattern.read` gives the pattern that a text writes and the number of its groups, or says why it
  writes none.  A backslash and the character behind it are one token.  The reader goes through the
  tokens once; the number of tokens bounds every recursion.
-/
import Rulebook.Number.Reading
import Rulebook.Pattern.Syntax
import Rulebook.Text.Identifier
import Rulebook.Text.Names

namespace Rulebook.Pattern

/-! ## Tokens and the state of the reader -/

/-- A token of a pattern. -/
inductive Token where
  | plain (c : Char)
  | escaped (c : Char)
  /-- A backslash at the very end. -/
  | dangling
  deriving DecidableEq

/-- The tokens of a text. -/
def tokens : List Char → List Token
  | [] => []
  | ['\\'] => [.dangling]
  | '\\' :: c :: rest => .escaped c :: tokens rest
  | c :: rest => .plain c :: tokens rest

/-- The text of tokens. -/
def Token.chars : Token → List Char
  | plain c => [c]
  | escaped c => ['\\', c]
  | dangling => ['\\']

/-- Why a text is no pattern. -/
inductive Refusal where
  /-- It breaks the rules. -/
  | malformed
  /-- A count is too large, or flags exclude each other. -/
  | unusable
  deriving DecidableEq, Repr

/-- What the reader knows. -/
structure Progress where
  rest : List Token
  /-- The characters that may be given by name. -/
  charNames : Text.CharNames
  /-- The flags of the whole pattern. -/
  flags : PatternFlags := {}
  /-- Whether the flags of the whole pattern ask for all characters. -/
  allChars : Bool := false
  names : List (String × Nat) := []
  /-- The bounds of the groups that are closed, the whole pattern first. -/
  widths : Array (Option (Nat × Nat)) := #[none]
  /-- Inside a look behind, the number of groups before it. -/
  groupsBefore : Option Nat := none
  /-- The group numbers that conditions name. -/
  conditions : List Nat := []
  /-- Whether some look behind has no fixed length. -/
  looseLook : Bool := false

/-- A step of the reader. -/
abbrev Read := StateT Progress (Except Refusal)

namespace Read

variable {α : Type}

/-- Gives up. -/
def malformed : Read α :=
  throw .malformed

/-- The next token. -/
def peek : Read (Option Token) := do
  return (← get).rest.head?

/-- Takes the next token. A dangling backslash shows as soon as it is next. -/
def take : Read (Option Token) := do
  match (← get).rest with
  | [] => return none
  | t :: rest =>
    if rest.head? = some .dangling then malformed
    modify fun s => { s with rest }
    return some t

/-- Takes the next token if it is a given character. -/
def accept (c : Char) : Read Bool := do
  if (← peek) = some (.plain c) then
    let _ ← take
    return true
  else return false

/-- Takes a given character. -/
def expect (c : Char) : Read Unit := do
  if !(← accept c) then malformed

/-- Takes at most `n` characters that pass a test. -/
def takeSome (p : Char → Bool) : Nat → Read (List Char)
  | 0 => return []
  | n + 1 => do
    match ← peek with
    | some (.plain c) =>
      if p c then
        let _ ← take
        return c :: (← takeSome p n)
      else return []
    | _ => return []

/-- Takes all characters that pass a test. -/
def takeAll (p : Char → Bool) : Read (List Char) := do
  takeSome p (← get).rest.length

/-- The characters up to an end mark, which is taken too; `fuel` bounds their number. -/
def untilMark (mark : Char) : Nat → Read (List Char)
  | 0 => malformed
  | fuel + 1 => do
    match ← take with
    | none => malformed
    | some t => if t = .plain mark then return [] else return t.chars ++ (← untilMark mark fuel)

/-- A name up to an end mark. -/
def nameUntil (mark : Char) : Read String := do
  let cs ← untilMark mark ((← get).rest.length + 1)
  if cs.isEmpty then malformed
  return String.ofList cs

end Read

open Read

/-! ## Escapes -/

/-- The digits from `0` to `7`. -/
def isOctal (c : Char) : Bool :=
  '0' ≤ c ∧ c ≤ '7'

/-- The number that digits write. -/
def ofDigits (base : Nat) (cs : List Char) : Nat :=
  cs.foldl (fun n c => base * n + (Reading.digitValue? c).getD 0) 0

/-- Whether a character is a hexadecimal digit. -/
def isHex (c : Char) : Bool :=
  c.isDigit || ('a' ≤ c && c ≤ 'f') || ('A' ≤ c && c ≤ 'F')

/-- The code that exactly `n` hexadecimal digits write. -/
def hexCode (n : Nat) : Read Nat := do
  let cs ← takeSome isHex n
  if cs.length ≠ n then malformed
  return ofDigits 16 cs

/-- The code of an escape for one character, if a character starts such an escape. -/
def simpleEscape (c : Char) : Read (Option Nat) := do
  match c with
  | 'a' => return some 0x07
  | 'f' => return some 0x0c
  | 'n' => return some 0x0a
  | 'r' => return some 0x0d
  | 't' => return some 0x09
  | 'v' => return some 0x0b
  | '\\' => return some 0x5c
  | 'x' => return some (← hexCode 2)
  | 'u' => return some (← hexCode 4)
  | 'U' =>
    let n ← hexCode 8
    if n < 0x110000 then return some n else malformed
  | 'N' =>
    expect '\x7b'
    match (← get).charNames (← nameUntil '\x7d') with
    | some c => return some c.toNat
    | none => malformed
  | _ => return none

/-- The class that an escape names, and whether it stands for the others. -/
def classOf? (c : Char) : Option (CharClass × Bool) :=
  match c with
  | 'd' => some (.digit, false)
  | 'D' => some (.digit, true)
  | 's' => some (.space, false)
  | 'S' => some (.space, true)
  | 'w' => some (.word, false)
  | 'W' => some (.word, true)
  | _ => none

/-- Whether a character is a basic Latin letter. -/
def isLatin (c : Char) : Bool :=
  c.isAlpha

/-- The member of a set that an escape writes. -/
def setEscape (c : Char) : Read SetItem := do
  match classOf? c with
  | some (k, negated) => return .inClass k negated
  | none =>
    if c = 'b' then return .char 0x08
    match ← simpleEscape c with
    | some n => return .char n
    | none =>
      if isOctal c then
        let n := ofDigits 8 (c :: (← takeSome isOctal 2))
        if 0o377 < n then malformed
        return .char n
      else if c.isDigit || isLatin c then malformed
      else return .char c.toNat

/-- Whether a group may be referred to here: it is closed, and not part of the look behind that
    refers to it. -/
def checkGroup (number : Nat) : Read Unit := do
  let s ← get
  match s.groupsBefore with
  | none => return ()
  | some before =>
    if (s.widths[number]?.bind id).isNone || before ≤ number then malformed

/-- A reference to a closed group. -/
def reference (flags : PatternFlags) (number : Nat) : Read Pattern := do
  match (← get).widths[number]? with
  | some (some (low, high)) =>
    checkGroup number
    return .again flags number low high
  | _ => malformed

/-- The pattern of an escape outside sets. -/
def escape (flags : PatternFlags) (c : Char) : Read Pattern := do
  match c, classOf? c with
  | _, some (k, negated) => return .set flags false [.inClass k negated]
  | 'A', _ => return .place flags .textStart
  | 'Z', _ => return .place flags .textEnd
  | 'b', _ => return .place flags .boundary
  | 'B', _ => return .place flags .noBoundary
  | _, none =>
    match ← simpleEscape c with
    | some n => return .char flags n
    | none =>
      if c = '0' then
        return .char flags (ofDigits 8 (← takeSome isOctal 2))
      else if c.isDigit then
        match ← takeSome Char.isDigit 1 with
        | [] => reference flags (ofDigits 10 [c])
        | d :: _ =>
          let third ← if isOctal c && isOctal d then takeSome isOctal 1 else pure []
          match third with
          | e :: _ =>
            let n := ofDigits 8 [c, d, e]
            if 0o377 < n then malformed
            return .char flags n
          | [] => reference flags (ofDigits 10 [c, d])
      else if isLatin c then malformed
      else return .char flags c.toNat

/-! ## Sets -/

/-- A member of a set from its first token. -/
def setMember : Token → Read SetItem
  | .plain c => return .char c.toNat
  | .escaped c => setEscape c
  | .dangling => malformed

/-- The members of a set up to its end, after those before (the last first). -/
def setItems : Nat → List SetItem → Read (List SetItem)
  | 0, _ => malformed
  | fuel + 1, before => do
    match ← take with
    | none => malformed
    | some t =>
      if t = .plain ']' && !before.isEmpty then return before.reverse
      let low ← setMember t
      if ← accept '-' then
        match ← take with
        | none => malformed
        | some u =>
          if u = .plain ']' then return (SetItem.char '-'.toNat :: low :: before).reverse
          match low, ← setMember u with
          | .char a, .char b =>
            if b < a then malformed
            setItems fuel (.range a b :: before)
          | _, _ => malformed
      else setItems fuel (low :: before)

/-! ## Repetitions -/

/-- Counts have to be smaller than this. -/
def countLimit : Nat := Nat.pow 2 32 - 1

/-- A count in digits. -/
def count (cs : List Char) : Read Nat := do
  if Reading.maxDigits < cs.length then throw .unusable
  let n := ofDigits 10 cs
  if countLimit ≤ n then throw .unusable
  return n

/-- The bounds in braces after the opening one; `none` if no bounds are written there. -/
def bounds : Read (Option (Nat × Option Nat)) := do
  let start := (← get).rest
  if (← peek) = some (.plain '\x7d') then return none
  let low ← takeAll Char.isDigit
  let high ← if ← accept ',' then takeAll Char.isDigit else pure low
  if !(← accept '\x7d') then
    modify fun s => { s with rest := start }
    return none
  let least ← if low.isEmpty then pure 0 else count low
  if high.isEmpty then return some (least, none)
  let most ← count high
  if most < least then malformed
  return some (least, some most)

/-- Whether something can be repeated: it is no bare place and no repetition. -/
def isRepeatable : Pattern → Bool
  | .place .. => false
  | .repeated .. => false
  | _ => true

/-- The mark behind a count that says which counts are tried first. -/
def greedMark : Read Greed := do
  if ← accept '?' then return .lazy
  if ← accept '+' then return .possessive
  return .greedy

/-- The parts (the last first) with the last one repeated. -/
def repeatLast (least : Nat) (most : Option Nat) : List Pattern → Read (List Pattern)
  | [] => malformed
  | p :: before => do
    if !isRepeatable p then malformed
    return .repeated least most (← greedMark) p :: before

/-! ## Flags -/

/-- Flags that are turned on or off. -/
structure FlagSet where
  flags : PatternFlags := {}
  allChars : Bool := false

/-- Adds a flag by its letter. -/
def FlagSet.add? (s : FlagSet) (c : Char) : Option FlagSet :=
  match c with
  | 'i' => some { s with flags := { s.flags with ignoreCase := true } }
  | 'm' => some { s with flags := { s.flags with multiline := true } }
  | 's' => some { s with flags := { s.flags with dotAll := true } }
  | 'x' => some { s with flags := { s.flags with verbose := true } }
  | 't' => some { s with flags := { s.flags with template := true } }
  | 'a' => if s.allChars then none else some { s with flags := { s.flags with ascii := true } }
  | 'u' => if s.flags.ascii then none else some { s with allChars := true }
  | _ => none

/-- Flags with some turned on. -/
def FlagSet.turnOn (s : FlagSet) (f : PatternFlags) : PatternFlags where
  ignoreCase := f.ignoreCase || s.flags.ignoreCase
  multiline := f.multiline || s.flags.multiline
  dotAll := f.dotAll || s.flags.dotAll
  verbose := f.verbose || s.flags.verbose
  ascii := if s.allChars then false else f.ascii || s.flags.ascii
  template := f.template || s.flags.template

/-- Flags of a whole pattern with some turned on; none is turned off by that. -/
def FlagSet.forWhole (s : FlagSet) (f : PatternFlags) : PatternFlags :=
  { s.turnOn f with ascii := f.ascii || s.flags.ascii }

/-- Flags with some turned off. -/
def FlagSet.turnOff (s : FlagSet) (f : PatternFlags) : PatternFlags :=
  { f with
    ignoreCase := f.ignoreCase && !s.flags.ignoreCase
    multiline := f.multiline && !s.flags.multiline
    dotAll := f.dotAll && !s.flags.dotAll
    verbose := f.verbose && !s.flags.verbose }

/-- Whether two sets of flags have one in common. -/
def FlagSet.overlaps (s t : FlagSet) : Bool :=
  (s.flags.ignoreCase && t.flags.ignoreCase) || (s.flags.multiline && t.flags.multiline) ||
    (s.flags.dotAll && t.flags.dotAll) || (s.flags.verbose && t.flags.verbose)

/-- The flags from a letter on up to one of the end marks, and that mark. -/
def flagsFrom (marks : List Char) : Nat → FlagSet → Char → Read (FlagSet × Char)
  | 0, _, _ => malformed
  | fuel + 1, s, c => do
    match s.add? c with
    | none => malformed
    | some s =>
      match ← take with
      | some (.plain d) => if d ∈ marks then return (s, d) else flagsFrom marks fuel s d
      | _ => malformed

/-- What flags in brackets are for. -/
inductive FlagScope where
  | whole (on : FlagSet)
  | group (on off : FlagSet)

/-- The flags in brackets, from their first character on. -/
def flagScope (c : Char) : Read FlagScope := do
  let fuel := (← get).rest.length + 1
  let (on, mark) ← if c = '-' then pure ({}, '-') else flagsFrom [')', '-', ':'] fuel {} c
  if mark = ')' then return .whole on
  if on.flags.template then malformed
  if mark = ':' then return .group on {}
  match ← take with
  | some (.plain d) =>
    let (off, _) ← flagsFrom [':'] fuel {} d
    if off.flags.template || off.flags.ascii || off.allChars || on.overlaps off then malformed
    return .group on off
  | _ => malformed

/-! ## Groups -/

/-- Whether a text is a name for a group. -/
def isName (s : String) : Bool :=
  match s.toList with
  | [] => false
  | c :: cs => Text.isIdentifierStart c && cs.all Text.isIdentifierPart

/-- Opens a group, with a name or without. -/
def openGroup (name : Option String) : Read Nat := do
  let s ← get
  let number := s.widths.size
  match name with
  | none => modify fun s => { s with widths := s.widths.push none }
  | some name =>
    if (s.names.lookup name).isSome then malformed
    modify fun s => { s with widths := s.widths.push none, names := (name, number) :: s.names }
  return number

/-- Closes a group. -/
def closeGroup (number : Nat) (p : Pattern) : Read Pattern := do
  modify fun s => { s with widths := s.widths.setIfInBounds number (some p.width) }
  return .group number p

/-- The number of the group that a condition names. -/
def conditionGroup (name : String) : Read Nat := do
  let s ← get
  if isName name then
    match s.names.lookup name with
    | some n => return n
    | none => malformed
  else
    match Reading.readInt name 10 with
    | .ok (.ofNat (n + 1)) =>
      modify fun s => { s with conditions := (n + 1) :: s.conditions }
      return n + 1
    | _ => malformed

/-- The members of the set that an alternative of one character stands for. -/
def asSet? (flags : PatternFlags) : Pattern → Option (List SetItem)
  | .sequence [.char f n] => if f = flags then some [.char n] else none
  | .sequence [.set f false items] => if f = flags then some items else none
  | _ => none

/-- One pattern, or a choice of several; a choice of single characters is a set. -/
def oneOf (flags : PatternFlags) : List Pattern → Pattern
  | [p] => p
  | ps =>
    match ps.mapM (asSet? flags) with
    | some items => .sequence [.set flags false items.flatten]
    | none => .choice ps

/-- Passes over a comment in brackets. -/
def skipComment : Nat → Read Unit
  | 0 => malformed
  | fuel + 1 => do
    match ← take with
    | none => malformed
    | some t => if t = .plain ')' then return () else skipComment fuel

/-- Passes over a comment up to the end of its line. -/
def skipLine : Nat → Read Unit
  | 0 => return ()
  | fuel + 1 => do
    match ← take with
    | none => return ()
    | some t => if t = .plain '\n' then return () else skipLine fuel

/-- Blanks that verbose patterns may hold. -/
def isFiller (c : Char) : Bool :=
  c ∈ [' ', '\t', '\n', '\r', '\x0b', '\x0c']

/-- What brackets stand for. -/
inductive Bracket where
  /-- Nothing: a comment. -/
  | nothing
  /-- Flags for the whole pattern. -/
  | flags (on : FlagSet)
  | part (p : Pattern)

mutual

/-- The alternatives up to a closing bracket or the end. `first` says that flags for the whole
    pattern may stand here. -/
def alternatives : Nat → PatternFlags → Bool → Bool → Read (List Pattern)
  | 0, _, _, _ => malformed
  | fuel + 1, flags, top, first => do
    let p ← sequenceFrom fuel flags first []
    if ← accept '|' then
      let s ← get
      let flags := if top then s.flags else flags
      return p :: (← alternatives fuel flags top false)
    else return [p]

/-- The parts up to a bar, a closing bracket or the end, after those before (the last first). -/
def sequenceFrom : Nat → PatternFlags → Bool → List Pattern → Read Pattern
  | 0, _, _, _ => malformed
  | fuel + 1, flags, first, before => do
    match ← peek with
    | none => return .sequence before.reverse
    | some .dangling => malformed
    | some (.escaped c) =>
      let _ ← take
      sequenceFrom fuel flags first ((← escape flags c) :: before)
    | some (.plain c) =>
      if c = '|' ∨ c = ')' then return .sequence before.reverse
      let _ ← take
      if flags.verbose && isFiller c then sequenceFrom fuel flags first before
      else if flags.verbose && c = '#' then
        skipLine ((← get).rest.length + 1)
        sequenceFrom fuel flags first before
      else
        match c with
        | '[' =>
          let negated ← accept '^'
          let items ← setItems ((← get).rest.length + 1) []
          let p :=
            match items with
            | [.char n] => if negated then .set flags true [.char n] else .char flags n
            | _ => .set flags negated items
          sequenceFrom fuel flags first (p :: before)
        | '?' => sequenceFrom fuel flags first (← repeatLast 0 (some 1) before)
        | '*' => sequenceFrom fuel flags first (← repeatLast 0 none before)
        | '+' => sequenceFrom fuel flags first (← repeatLast 1 none before)
        | '\x7b' =>
          match ← bounds with
          | none => sequenceFrom fuel flags first (.char flags c.toNat :: before)
          | some (least, most) =>
            sequenceFrom fuel flags first (← repeatLast least most before)
        | '.' => sequenceFrom fuel flags first (.any flags :: before)
        | '^' => sequenceFrom fuel flags first (.place flags .lineStart :: before)
        | '$' => sequenceFrom fuel flags first (.place flags .lineEnd :: before)
        | '(' =>
          match ← bracket fuel flags with
          | .nothing => sequenceFrom fuel flags first before
          | .part p => sequenceFrom fuel flags first (p :: before)
          | .flags on =>
            if !first || !before.isEmpty then malformed
            modify fun s =>
              { s with flags := on.forWhole s.flags, allChars := s.allChars || on.allChars }
            sequenceFrom fuel (on.forWhole flags) first before
        | _ => sequenceFrom fuel flags first (.char flags c.toNat :: before)

/-- What stands in brackets, after the opening one. -/
def bracket : Nat → PatternFlags → Read Bracket
  | 0, _ => malformed
  | fuel + 1, flags => do
    if !(← accept '?') then
      let number ← openGroup none
      let p := oneOf flags (← alternatives fuel flags false false)
      expect ')'
      return .part (← closeGroup number p)
    match ← take with
    | some (.plain 'P') =>
      if ← accept '<' then
        let name ← nameUntil '>'
        if !isName name then malformed
        let number ← openGroup (some name)
        let p := oneOf flags (← alternatives fuel flags false false)
        expect ')'
        return .part (← closeGroup number p)
      else if ← accept '=' then
        let name ← nameUntil ')'
        if !isName name then malformed
        match (← get).names.lookup name with
        | some number => return .part (← reference flags number)
        | none => malformed
      else malformed
    | some (.plain ':') =>
      let p := oneOf flags (← alternatives fuel flags false false)
      expect ')'
      return .part (.sequence [p])
    | some (.plain '#') =>
      skipComment ((← get).rest.length + 1)
      return .nothing
    | some (.plain '=') => lookAhead fuel flags false
    | some (.plain '!') => lookAhead fuel flags true
    | some (.plain '<') =>
      match ← take with
      | some (.plain '=') => lookBehind fuel flags false
      | some (.plain '!') => lookBehind fuel flags true
      | _ => malformed
    | some (.plain '(') =>
      let number ← conditionGroup (← nameUntil ')')
      checkGroup number
      let yes ← sequenceFrom fuel flags false []
      let no ← if ← accept '|' then sequenceFrom fuel flags false [] else pure (.sequence [])
      expect ')'
      return .part (.ifGroup number yes no)
    | some (.plain '>') =>
      let p := oneOf flags (← alternatives fuel flags false false)
      expect ')'
      return .part (.atomic p)
    | some (.plain c) =>
      match ← flagScope c with
      | .whole on => return .flags on
      | .group on off =>
        let flags := off.turnOff (on.turnOn flags)
        let p := oneOf flags (← alternatives fuel flags false false)
        expect ')'
        return .part (.sequence [p])
    | _ => malformed

/-- A look ahead. -/
def lookAhead : Nat → PatternFlags → Bool → Read Bracket
  | 0, _, _ => malformed
  | fuel + 1, flags, negated => do
    let p := oneOf flags (← alternatives fuel flags false false)
    expect ')'
    return .part (.ahead negated p)

/-- A look behind. -/
def lookBehind : Nat → PatternFlags → Bool → Read Bracket
  | 0, _, _ => malformed
  | fuel + 1, flags, negated => do
    let outer := (← get).groupsBefore
    modify fun s => { s with groupsBefore := some (outer.getD s.widths.size) }
    let p := oneOf flags (← alternatives fuel flags false false)
    modify fun s => { s with groupsBefore := outer }
    expect ')'
    if p.width.1 ≠ p.width.2 then modify fun s => { s with looseLook := true }
    return .part (.behind negated p.width.1 p)

end

/-! ## Whole patterns -/

/-- Reads a whole pattern. -/
def whole : Read Pattern := do
  if (← peek) = some .dangling then malformed
  let fuel := 4 * (← get).rest.length + 4
  let ps ← alternatives fuel {} true true
  let s ← get
  let p := oneOf s.flags ps
  if s.flags.ascii && s.allChars then throw .unusable
  if !s.rest.isEmpty then malformed
  if s.conditions.any (s.widths.size ≤ ·) then malformed
  if s.looseLook || (s.flags.template && p.repeats) then malformed
  return p

/-- The pattern that a text writes, and the number of its groups. -/
def read (names : Text.CharNames) (s : String) : Except Refusal (Pattern × Nat) :=
  (whole { rest := tokens s.toList, charNames := names }).map fun (p, s) => (p, s.widths.size - 1)

end Rulebook.Pattern
