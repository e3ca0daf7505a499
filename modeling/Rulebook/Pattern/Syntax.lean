/-
  Patterns of text.

  A `Pattern` says which spans of a text it fits: characters and sets of characters, places between
  characters, sequences and alternatives, repetitions, groups that are remembered, and looks ahead or
  behind.  How characters are compared is written into the leaves.  `Pattern.width` bounds the length
  of the spans that a pattern fits.
-/

namespace Rulebook

/-- How the parts of a pattern are read. -/
structure PatternFlags where
  /-- Letters fit in either case. -/
  ignoreCase : Bool := false
  /-- Line starts and ends are found inside the text. -/
  multiline : Bool := false
  /-- The point fits line ends. -/
  dotAll : Bool := false
  /-- Blanks and comments in the pattern are passed over. -/
  verbose : Bool := false
  /-- Classes and cases know basic Latin characters only. -/
  ascii : Bool := false
  /-- Repetitions are not allowed. -/
  template : Bool := false
  deriving DecidableEq, Repr, Inhabited

namespace Pattern

/-- Classes of characters. -/
inductive CharClass where
  | digit | space | word
  deriving DecidableEq, Repr

/-- A member of a set of characters, by code points. -/
inductive SetItem where
  | char (code : Nat)
  | range (low high : Nat)
  | inClass (c : CharClass) (negated : Bool)
  deriving DecidableEq, Repr

/-- Places between characters. -/
inductive Place where
  | textStart | textEnd | lineStart | lineEnd | boundary | noBoundary
  deriving DecidableEq, Repr

/-- Which of several counts a repetition tries first, and whether it tries others. -/
inductive Greed where
  | greedy | lazy | possessive
  deriving DecidableEq, Repr

end Pattern

open Pattern in
/-- A pattern. Groups are numbered from one. -/
inductive Pattern where
  | char (flags : PatternFlags) (code : Nat)
  | set (flags : PatternFlags) (negated : Bool) (items : List SetItem)
  | any (flags : PatternFlags)
  | place (flags : PatternFlags) (p : Place)
  | sequence (parts : List Pattern)
  | choice (alternatives : List Pattern)
  /-- A repetition; without `most` there is no bound. -/
  | repeated (least : Nat) (most : Option Nat) (greed : Greed) (body : Pattern)
  | group (number : Nat) (body : Pattern)
  /-- The text of an earlier group again; `low` and `high` bound its length. -/
  | again (flags : PatternFlags) (number low high : Nat)
  /-- One pattern if a group has fitted, else another. -/
  | ifGroup (number : Nat) (yes no : Pattern)
  | ahead (negated : Bool) (body : Pattern)
  /-- A look at the span of a given length before a place. -/
  | behind (negated : Bool) (length : Nat) (body : Pattern)
  | atomic (body : Pattern)
  deriving Inhabited

namespace Pattern

/-- Stands for lengths without a bound. -/
def unbounded : Nat := Nat.pow 2 64

mutual

/-- The least and the greatest length of the spans that a pattern fits. -/
def width : Pattern → Nat × Nat
  | char .. => (1, 1)
  | set .. => (1, 1)
  | any _ => (1, 1)
  | place .. => (0, 0)
  | sequence ps =>
    let (low, high) := widthOfAll ps
    (min low unbounded, min high unbounded)
  | choice ps =>
    let (low, high) := widthOfAny ps
    (min low unbounded, min high unbounded)
  | repeated least most _ body =>
    let (low, high) := width body
    let high :=
      match most with
      | some n => high * n
      | none => if high = 0 then 0 else unbounded
    (min (low * least) unbounded, min high unbounded)
  | group _ body => width body
  | again _ _ low high => (low, high)
  | ifGroup _ yes no =>
    let (a, b) := width yes
    let (c, d) := width no
    (min a c, max b d)
  | ahead .. => (0, 0)
  | behind .. => (0, 0)
  | atomic body => width body

/-- The bounds of a sequence. -/
def widthOfAll : List Pattern → Nat × Nat
  | [] => (0, 0)
  | p :: ps =>
    let (a, b) := width p
    let (c, d) := widthOfAll ps
    (a + c, b + d)

/-- The bounds of several alternatives. -/
def widthOfAny : List Pattern → Nat × Nat
  | [] => (unbounded, 0)
  | p :: ps =>
    let (a, b) := width p
    let (c, d) := widthOfAny ps
    (min a c, max b d)

end

mutual

/-- Whether a pattern holds a repetition. -/
def repeats : Pattern → Bool
  | repeated .. => true
  | sequence ps => repeatsAny ps
  | choice ps => repeatsAny ps
  | group _ body => repeats body
  | ifGroup _ yes no => repeats yes || repeats no
  | ahead _ body => repeats body
  | behind _ _ body => repeats body
  | atomic body => repeats body
  | _ => false

/-- Whether one of several patterns holds a repetition. -/
def repeatsAny : List Pattern → Bool
  | [] => false
  | p :: ps => repeats p || repeatsAny ps

end

end Pattern

end Rulebook
