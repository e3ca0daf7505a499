/-
  Checking data against what is expected of it.

  A check reads data as a text, a whole number, a double, a truth value, a list of texts or a
  mapping, or tells its `Flaw`.  Numbers and truth values may also be written as texts, since
  settings come from the environment.  A `Form` checks several fields and collects an `Issue` for
  every one that is flawed, so that all of them are told at once.

  What is read from which data is what pydantic documents in its table of conversions for the lax
  mode: a double or a text is read as a whole number if it writes one, zeros after a point included,
  and the words for truth values are those of that table.  Codes and wordings of flaws are those of
  its list of validation errors.
-/
import Rulebook.Data.Conversion
import Rulebook.Number.Word
import Rulebook.Text.CaseMap

namespace Rulebook

/-! ## Flaws -/

/-- What is wrong with data. -/
inductive Flaw where
  | noText
  | noWhole
  | wholeText
  | wholeFraction
  | wholeTooLarge
  | notFinite
  | noNumber
  | numberText
  | noTruth
  | truthText
  | noList
  | noMapping
  | tooSmall (least : Int)
  deriving DecidableEq, Repr

namespace Flaw

/-- The code of a flaw. -/
def code : Flaw → String
  | noText => "string_type"
  | noWhole => "int_type"
  | wholeText => "int_parsing"
  | wholeFraction => "int_from_float"
  | wholeTooLarge => "int_parsing_size"
  | notFinite => "finite_number"
  | noNumber => "float_type"
  | numberText => "float_parsing"
  | noTruth => "bool_type"
  | truthText => "bool_parsing"
  | noList => "list_type"
  | noMapping => "dict_type"
  | tooSmall _ => "greater_than_equal"

/-- The wording of a flaw. -/
def message : Flaw → String
  | noText => "Input should be a valid string"
  | noWhole => "Input should be a valid integer"
  | wholeText => "Input should be a valid integer, unable to parse string as an integer"
  | wholeFraction => "Input should be a valid integer, got a number with a fractional part"
  | wholeTooLarge => "Unable to parse input string as an integer, exceeded maximum size"
  | notFinite => "Input should be a finite number"
  | noNumber => "Input should be a valid number"
  | numberText => "Input should be a valid number, unable to parse string as a number"
  | noTruth => "Input should be a valid boolean"
  | truthText => "Input should be a valid boolean, unable to interpret input"
  | noList => "Input should be a valid list"
  | noMapping => "Input should be a valid dictionary"
  | tooSmall least => s!"Input should be greater than or equal to {least}"

end Flaw

/-- A flaw and where it is. -/
structure Issue where
  location : List String
  flaw : Flaw
  deriving DecidableEq, Repr

namespace Schema

/-! ## Single data -/

/-- A text. -/
def text : Data → Except Flaw String
  | .text s => .ok s
  | _ => .error .noText

/-- Digits without the zeros after a point, if only zeros stand there. -/
def withoutZeroFraction (cs : List Char) : List Char :=
  let rest := cs.dropWhile (· ≠ '.')
  if rest.drop 1 |>.all (· = '0') then cs.takeWhile (· ≠ '.') else cs

/-- The whole number that a text writes. -/
def wholeOfText (s : String) : Except Flaw Int :=
  let (negative, cs) := Reading.sign (Text.trim s).toList
  match Reading.joinDigits false (withoutZeroFraction cs) with
  | some ds =>
    if ds.isEmpty || !ds.all Char.isDigit then .error .wholeText
    else if Reading.maxDigits < ds.length then .error .wholeTooLarge
    else .ok (if negative then -(Reading.decimalOf ds : Int) else Reading.decimalOf ds)
  | none => .error .wholeText

/-- The whole number that a double is. -/
def wholeOfFloat (x : Float) : Except Flaw Int :=
  match Binary64.parts x with
  | .finite negative m e =>
    let p := Parts.finite negative m e
    if !Binary64.isWhole p then .error .wholeFraction
    else
      let n := Binary64.truncate p
      if n.natAbs ≤ Word.largest then .ok n else .error .wholeTooLarge
  | _ => .error .notFinite

/-- A whole number. -/
def whole : Data → Except Flaw Int
  | .int n => .ok n
  | .bool b => .ok (if b then 1 else 0)
  | .float x => wholeOfFloat x
  | .text s => wholeOfText s
  | _ => .error .noWhole

/-- A whole number that is not below a bound. -/
def wholeFrom (least : Int) (d : Data) : Except Flaw Int := do
  let n ← whole d
  if n < least then throw (.tooSmall least) else return n

/-- The double that a text of basic Latin characters writes. -/
def numberOfText (s : String) : Except Flaw Float :=
  match if s.toList.all (fun c => c.toNat < 128) then Reading.readFloat? s else none with
  | some x => .ok x
  | none => .error .numberText

/-- A double. -/
def number : Data → Except Flaw Float
  | .text s => numberOfText s
  | d =>
    match d.number? with
    | some n =>
      match n.toFloat with
      | .ok x => .ok x
      | .error _ => .error .noNumber
    | none => .error .noNumber

/-- A double that is not below zero. -/
def numberFromZero (d : Data) : Except Flaw Float := do
  let x ← number d
  if x < 0.0 then throw (.tooSmall 0) else return x

/-- The words for true and for false. -/
def truthWords : List (String × Bool) :=
  [("1", true), ("on", true), ("t", true), ("true", true), ("y", true), ("yes", true),
    ("0", false), ("off", false), ("f", false), ("false", false), ("n", false), ("no", false)]

/-- The truth value that a whole number is. -/
def truthOfWhole (n : Int) : Except Flaw Bool :=
  if n = 0 then .ok false
  else if n = 1 then .ok true
  else if n.natAbs ≤ Word.largest then .error .truthText
  else .error .noTruth

/-- A truth value. -/
def truth : Data → Except Flaw Bool
  | .bool b => .ok b
  | .int n => truthOfWhole n
  | .float x =>
    match wholeOfFloat x with
    | .ok n => truthOfWhole n
    | .error _ => .error .noTruth
  | .text s =>
    match truthWords.lookup s.toLower with
    | some b => .ok b
    | none => .error .truthText
  | _ => .error .noTruth

/-! ## Several data -/

/-- A check of data that stands at a place. -/
abbrev Check (α : Type) := List String → Data → Except (List Issue) α

/-- A check of single data. -/
def single {α : Type} (check : Data → Except Flaw α) : Check α := fun place d =>
  (check d).mapError fun flaw => [⟨place, flaw⟩]

/-- Absent data, or what a check reads. -/
def optional {α : Type} (check : Check α) : Check (Option α) := fun place d =>
  match d with
  | .null => .ok none
  | d => (check place d).map some

/-- The texts of a list, their places counted from `n`, with an issue for each item that is no
    text. -/
def textsFrom (place : List String) : Nat → List Data → List String × List Issue
  | _, [] => ([], [])
  | n, d :: ds =>
    let (ss, issues) := textsFrom place (n + 1) ds
    match text d with
    | .ok s => (s :: ss, issues)
    | .error flaw => (ss, ⟨place ++ [toString n], flaw⟩ :: issues)

/-- A list of texts. -/
def texts : Check (List String) := fun place d =>
  match d with
  | .list ds | .tuple ds =>
    match textsFrom place 0 ds with
    | (ss, []) => .ok ss
    | (_, issues) => .error issues
  | _ => .error [⟨place, .noList⟩]

/-- A key that is no text, as part of a place. -/
def keyText (k : Data) : String :=
  match k.number? with
  | some (.int n) => toString n
  | _ => k.listing.toOption.getD ""

/-- The entries of a mapping whose keys are texts. -/
def entries : Check (List (Data × Data)) := fun place d =>
  match d with
  | .mapping es =>
    match es.filterMap fun e =>
      match e.1 with
      | .text _ => none
      | k => some (⟨place ++ [keyText k, "[key]"], .noText⟩ : Issue) with
    | [] => .ok es
    | issues => .error issues
  | _ => .error [⟨place, .noMapping⟩]

/-- Any data. -/
def anything : Check Data := fun _ d => .ok d

/-! ## Forms -/

/-- Fields that are checked one after the other, and the issues so far. -/
abbrev Form (α : Type) := StateM (List Issue) α

/-- A field: what a check reads if the field is given, else a default. -/
def field {α : Type} (place : List String) (given : Option Data) (check : Check α) (absent : α) :
    Form α :=
  match given with
  | none => pure absent
  | some d =>
    match check place d with
    | .ok a => pure a
    | .error issues => do
      modify (· ++ issues)
      return absent

/-- What a form reads, unless there are issues. -/
def Form.read {α : Type} (form : Form α) : Except (List Issue) α :=
  match form.run [] with
  | (a, []) => .ok a
  | (_, issues) => .error issues

end Schema

end Rulebook
