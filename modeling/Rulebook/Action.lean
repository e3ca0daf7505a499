/-
  Actions: effects that rules ask for.

  An action names its type and gives the parameters for it; what a type does is up to its handler.
  Actions of a batch run in ascending order, and an action whose guard fails is skipped.
-/
import Rulebook.Data.Conversion

namespace Rulebook

/-- An action. -/
structure Action where
  id : Data
  type : String
  parameters : List (Data × Data) := []
  order : Data := .int 0
  /-- The source of an expression that has to hold; data that counts as false asks for nothing. -/
  guard : Data := .null

namespace Action

/-- Reads an action from entries. `fresh` is its id if none is given. -/
def ofEntries (fresh : String) (es : List (Data × Data)) : Except Fault Action := do
  let entry (name : String) (absent : Data) : Data := (Data.entry? es name).getD absent
  let id := entry "id" .null
  match Data.entry? es "type" with
  | none => throw (.missingKey (Text.quoted "type"))
  | some type => do
    let parameters := entry "parameters" .null
    return { id := if id.truth then id else .text fresh
             type := ← type.asText
             parameters := ← if parameters.truth then parameters.toEntries else .ok []
             order := entry "order" (.int 0)
             guard := entry "condition" .null }

end Action

end Rulebook
