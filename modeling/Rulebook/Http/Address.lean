/-
  Numeric addresses of hosts.

  * `isVersion4`: four numbers of one byte between points;
  * `isVersion6`: eight groups of hexadecimal digits between colons, a run of zero groups written
    as two colons in a row, the last two groups maybe in the form of version 4.
-/
import Rulebook.Http.Percent

namespace Rulebook.Http.Address

/-- The parts of a text between separators. -/
def splitAt (separator : Char) : List Char → List (List Char)
  | [] => [[]]
  | c :: cs =>
    if c = separator then [] :: splitAt separator cs
    else
      match splitAt separator cs with
      | [] => [[c]]
      | p :: ps => (c :: p) :: ps

/-! ## Version 4 -/

/-- The value of decimal digits. -/
def decimal (ds : List Char) : Nat :=
  ds.foldl (fun n d => 10 * n + (d.toNat - '0'.toNat)) 0

/-- Whether a text is a number of one byte without needless zeros. -/
def isByte (ds : List Char) : Bool :=
  !ds.isEmpty && ds.all Char.isDigit && ds.length ≤ 3 && (ds = ['0'] || ds.head? != some '0') &&
    decimal ds ≤ 255

/-- Whether a text is an address of version 4. -/
def isVersion4 (cs : List Char) : Bool :=
  let parts := splitAt '.' cs
  parts.length == 4 && parts.all isByte

/-- Whether a text consists of four numbers with one character between each two, which need not be
    a point. -/
def looksLikeVersion4 (cs : List Char) : Bool :=
  numbers 3 0 cs
where
  /-- Whether a text is a number, of which some digits were read, followed by so many others; the last
      one is all that is left. -/
  numbers : Nat → Nat → List Char → Bool
    | 0, _, cs => !cs.isEmpty && cs.all Char.isDigit
    | _ + 1, _, [] => false
    | n + 1, read, c :: cs =>
      (read ≠ 0 && numbers n 0 cs) || (c.isDigit && numbers (n + 1) (read + 1) cs)

/-! ## Version 6 -/

/-- Whether a text is a group of hexadecimal digits. -/
def isGroup (ds : List Char) : Bool :=
  !ds.isEmpty && ds.length ≤ 4 && ds.all fun d => (hexValue? d).isSome

/-- Groups with the last one, if it is in the form of version 4, replaced by two groups; `none` if
    that form is at fault. -/
def expanded? (parts : List (List Char)) : Option (List (List Char)) :=
  match parts.getLast? with
  | none => some []
  | some last =>
    if !last.contains '.' then some parts
    else if isVersion4 last then some (parts.dropLast ++ [['0'], ['0']])
    else none

/-- Whether groups on both sides of a run of zero groups leave room for it. An end of the address
    is an empty group. -/
def fits (before after : List (List Char)) : Bool :=
  let before := if before = [[]] then [] else before
  let after := if after = [[]] then [] else after
  before.length + after.length ≤ 7 && before.all isGroup && after.all isGroup

/-- Whether groups make an address, given those before the ones at hand. -/
def isGroups : List (List Char) → List (List Char) → Bool
  | before, [] => before.length == 8 && before.all isGroup
  | before, [p] => isGroups (before ++ [p]) []
  | before, [] :: q :: rest =>
    if before.isEmpty then isGroups [[]] (q :: rest)
    else fits before (q :: rest)
  | before, p :: q :: rest => isGroups (before ++ [p]) (q :: rest)

/-- Whether a text is an address of version 6, maybe with a zone. -/
def isVersion6 (cs : List Char) : Bool :=
  match splitAt '%' cs with
  | [address] => isAddress address
  | [address, zone] => !zone.isEmpty && !zone.contains '/' && isAddress address
  | _ => false
where
  /-- Whether a text is an address without a zone. -/
  isAddress (cs : List Char) : Bool :=
    let parts := splitAt ':' cs
    3 ≤ parts.length &&
      match expanded? parts with
      | some parts => isGroups [] parts
      | none => false

end Rulebook.Http.Address
