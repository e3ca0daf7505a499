/-
  Conditions of rules.

  A condition compares a field of the entity, or an identifier of the context, with a value by a
  named test.  A test is told the whole condition and may do something to the surroundings.  An
  unknown test and a test that faults make the condition false, whether it is negated or not.
  `Combination.holds` joins the results of several conditions.

  * `standardTests`: the tests that are always there;
  * `Condition.outcome`: what comes of the test of a condition;
  * `Combination.holds`: several conditions, each tested on what those before it left.
-/
import Rulebook.Context
import Rulebook.Path
import Rulebook.Pattern.Matching
import Rulebook.Surroundings
import Rulebook.Text.Search

namespace Rulebook

/-- A condition of a rule. -/
structure Condition where
  field : Data
  operator : String
  value : Data := .null
  negate : Bool := false

namespace Condition

/-! ## Fields -/

/-- The value of a field: an identifier of the context by its name, else what a path in the entity
    leads to. -/
def fieldValue (c : Context) (h : Heap) (field : Data) : Except Fault Value :=
  match field.unhashable?, field with
  | some t, _ => .error (.unhashable t)
  | none, .text name =>
    match c.identifiers.lookup name with
    | some v => .ok v
    | none => (h.follow c.entity (Path.ofField name)).map (·.getD .null)
  | none, d => .error (.textExpected d.typeName)

/-! ## Comparisons -/

/-- Whether data equal a value: as they are, or by their texts. Nothing equals nothing only. -/
def equals (field value : Data) : Except Fault Bool :=
  match field, value with
  | .null, .null => .ok true
  | .null, _ => .ok false
  | _, .null => .ok false
  | _, _ =>
    if field.equal value then .ok true
    else do return (← field.asText) == (← value.asText)

/-- Compares by number; what has no number is in no order. -/
def byNumber (test : Float → Float → Bool) (field value : Data) : Except Fault Bool := do
  let a ← field.numeric?
  let b ← value.numeric?
  match a, b with
  | some x, some y => return test x y
  | _, _ => return false

/-- The items of a list or tuple. -/
def listed? : Data → Option (List Data)
  | .list ds => some ds
  | .tuple ds => some ds
  | _ => none

/-- The lower case text of data that counts as true; nothing for all other data. -/
def loweredText (d : Data) : Except Fault String :=
  if d.truth then d.asText.map Text.lower else .ok ""

/-- Whether a list has a value as a member, or a text has it within, in either case. -/
def contains (field value : Data) : Except Fault Bool :=
  match listed? field with
  | some ds => .ok (ds.any fun d => d.equal value)
  | none => do
    let needle ←
      match value with
      | .null => .ok ""
      | d => d.asText.map Text.lower
    let text ← loweredText field
    return Text.isWithin needle.toList text.toList

/-- Whether a text starts with another, in either case. -/
def startsWith (field value : Data) : Except Fault Bool := do
  let text ← loweredText field
  let start ← loweredText value
  return start.toList.isPrefixOf text.toList

/-- Whether a text ends with another, in either case. -/
def endsWith (field value : Data) : Except Fault Bool := do
  let text ← loweredText field
  let tail ← loweredText value
  return tail.toList.isSuffixOf text.toList

/-- Whether a value that is a list has the field as a member. -/
def isIn (field value : Data) : Except Fault Bool :=
  match listed? value with
  | some ds => .ok (ds.any fun d => d.equal field)
  | none => .ok false

/-- Whether the number of a field lies between two others or is one of them. -/
def between (field value : Data) : Except Fault Bool :=
  match listed? value with
  | some [low, high] => do
    let x ← field.numeric?
    let a ← low.numeric?
    let b ← high.numeric?
    match x, a, b with
    | some x, some a, some b => return a ≤ x && x ≤ b
    | _, _, _ => return false
  | _ => .ok false

/-- Whether the pattern that a value writes is found in the text of a field. -/
def fits (names : Text.CharNames) (field value : Data) : Except Fault Bool := do
  let pattern ← value.asText
  let text ←
    match field with
    | .null => .ok ""
    | d => d.asText
  match Pattern.read names pattern with
  | .ok (p, groups) => return p.foundIn groups text
  | .error .malformed => return false
  | .error .unusable => throw .unusablePattern

end Condition

/-! ## Tests by name -/

/-- A test of the field of a condition. -/
abbrev Test := Condition → Context → Value → EStateM Fault Surroundings Bool

/-- Tests by name, in order of registration. -/
abbrev Tests := List (String × Test)

/-- The test that compares a field with the value of a condition, by the characters that have
    names. -/
def Test.comparing (f : Text.CharNames → Data → Data → Except Fault Bool) : Test :=
  fun c _ field => do
    let s ← get
    ofExcept (f s.charNames (s.heap.plain field) c.value)

/-- The tests that are always there. -/
def standardTests : Tests :=
  let simple (f : Data → Data → Except Fault Bool) := Test.comparing fun _ => f
  let negated (f : Data → Data → Except Fault Bool) := simple fun field value =>
    (f field value).map (!·)
  [("equals", simple Condition.equals),
    ("not_equals", negated Condition.equals),
    ("greater_than", simple (Condition.byNumber fun x y => x > y)),
    ("greater_than_or_equal", simple (Condition.byNumber fun x y => x ≥ y)),
    ("less_than", simple (Condition.byNumber fun x y => x < y)),
    ("less_than_or_equal", simple (Condition.byNumber fun x y => x ≤ y)),
    ("contains", simple Condition.contains),
    ("not_contains", negated Condition.contains),
    ("starts_with", simple Condition.startsWith),
    ("ends_with", simple Condition.endsWith),
    ("in", simple Condition.isIn),
    ("not_in", negated Condition.isIn),
    ("between", simple Condition.between),
    ("is_null", simple fun field _ => .ok (field matches .null)),
    ("is_not_null", simple fun field _ => .ok !(field matches .null)),
    ("regex", Test.comparing Condition.fits)]

/-- Adds a test, or replaces the one of that name in its place. -/
def Tests.register (tests : Tests) (name : String) (test : Test) : Tests :=
  if tests.any fun e => e.1 == name then
    tests.map fun e => if e.1 == name then (name, test) else e
  else tests ++ [(name, test)]

namespace Condition

/-- The result of the test of a condition, if it has one, and the surroundings after it. -/
def outcome (tests : Tests) (c : Condition) (context : Context) (s : Surroundings) :
    Option Bool × Surroundings :=
  match tests.lookup c.operator with
  | none => (none, s)
  | some test =>
    match fieldValue context s.heap c.field with
    | .error _ => (none, s)
    | .ok field =>
      match test c context field s with
      | .ok b s => (some b, s)
      | .error _ s => (none, s)

/-- Whether a condition holds whose test has a result, if it has one. -/
def verdict (c : Condition) : Option Bool → Bool
  | some b => b != c.negate
  | none => false

/-- Whether a condition holds, and the surroundings after its test. -/
def holds (tests : Tests) (c : Condition) (context : Context) (s : Surroundings) :
    Bool × Surroundings :=
  let (result, s) := c.outcome tests context s
  (c.verdict result, s)

end Condition

/-! ## Several conditions -/

/-- How the results of several conditions are joined. -/
inductive Combination where
  | all | any | exactlyOne
  deriving DecidableEq, Repr

namespace Combination

/-- The combination of a name; all conditions have to hold unless another is named. -/
def ofData : Data → Combination
  | .text "OR" => any
  | .text "XOR" => exactlyOne
  | _ => all

/-- Whether results are as the combination asks. -/
def joins (k : Combination) (results : List Bool) : Bool :=
  match k with
  | all => results.all id
  | any => results.any id
  | exactlyOne => results.count true == 1

/-- Whether each of several conditions holds, one tested after the other. -/
def results (tests : Tests) (context : Context) :
    List Condition → Surroundings → List Bool × Surroundings
  | [], s => ([], s)
  | c :: cs, s =>
    let (b, s) := c.holds tests context s
    let (bs, s) := results tests context cs s
    (b :: bs, s)

/-- Whether conditions hold together; no conditions always hold. -/
def holds (k : Combination) (tests : Tests) (cs : List Condition) (context : Context)
    (s : Surroundings) : Bool × Surroundings :=
  if cs.isEmpty then (true, s)
  else
    let (bs, s) := results tests context cs s
    (k.joins bs, s)

end Combination

end Rulebook
