/-
  What users send in to make and to change groups.

  Both forms have the same fields, two of which go by two names.  A form is sent in as data, or read
  beforehand.
-/
import Rulebook.Group.Check

namespace Rulebook

open Schema

/-! ## Fields -/

/-- The entry of a field that goes by two names; the first counts more. -/
def entryOf (es : List (Data × Data)) (name other : String) : Option Data :=
  (Data.entry? es name).or (Data.entry? es other)

/-- What a user wants a new group to be. -/
structure GroupDraft where
  name : Option String := none
  mode : Data := .null
  members : List String := []
  description : Option String := none
  metadata : Details := []

/-- What a user wants changed about a group: nothing about a field that is not given, and maybe
    nothing instead of what it was. -/
structure GroupChanges where
  name : Option (Option String) := none
  mode : Option Data := none
  members : Option (Option (List String)) := none
  description : Option (Option String) := none
  metadata : Option (Option Details) := none

/-- Reads a draft. -/
def GroupDraft.read (es : List (Data × Data)) : Except (List Issue) GroupDraft :=
  Form.read do
    let name ← field ["name"] (Data.entry? es "name") (optional (single text)) none
    let mode ← field ["executionMode"] (entryOf es "executionMode" "execution_mode") anything .null
    let members ← field ["ruleIds"] (entryOf es "ruleIds" "rule_ids") texts []
    let description ←
      field ["description"] (Data.entry? es "description") (optional (single text)) none
    let metadata ← field ["metadata"] (Data.entry? es "metadata") entries []
    return { name, mode, members, description, metadata }

/-- A check of a field that is given. -/
def given {α : Type} (check : Check α) : Check (Option α) := fun place d =>
  (check place d).map some

/-- Reads changes. -/
def GroupChanges.read (es : List (Data × Data)) : Except (List Issue) GroupChanges :=
  Form.read do
    let name ← field ["name"] (Data.entry? es "name") (given (optional (single text))) none
    let mode ←
      field ["executionMode"] (entryOf es "executionMode" "execution_mode") (given anything) none
    let members ←
      field ["ruleIds"] (entryOf es "ruleIds" "rule_ids") (given (optional texts)) none
    let description ←
      field ["description"] (Data.entry? es "description") (given (optional (single text))) none
    let metadata ← field ["metadata"] (Data.entry? es "metadata") (given (optional entries)) none
    return { name, mode, members, description, metadata }

/-! ## Submissions -/

/-- A form that is sent in. -/
inductive Submission (α : Type) where
  | data (d : Data)
  | form (a : α)

/-- Reads what is sent in; whatever is wrong with it is told at once. -/
def Submission.read {α : Type} (reader : List (Data × Data) → Except (List Issue) α) :
    Submission α → Except EngineError α
  | .form a => .ok a
  | .data d =>
    match d.toEntries with
    | .error f => .error (Findings.error { errors := [Finding.invalidField none f.message] })
    | .ok es =>
      match reader es with
      | .ok a => .ok a
      | .error issues => .error (Findings.error { errors := issues.map Finding.ofIssue })

end Rulebook
