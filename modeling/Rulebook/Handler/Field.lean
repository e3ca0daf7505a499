/-
  Handlers that write to the entity.

  * `setField` writes a value at the end of a path;
  * `calculate` evaluates a formula and may write its result.

  Both write last, so an action that fails leaves the entity as it was.
-/
import Rulebook.Handler.Basic
import Rulebook.Script.Arithmetic

namespace Rulebook.Handler

/-! ## Setting fields -/

/-- The type of actions that set a field. -/
def setFieldType : String := "SET_FIELD"

/-- Writes a value at the end of a path into the entity of a context. -/
def writeEntity (c : Context) (path : String) (v : Value) : Act Unit := do
  Act.setHeap (← Act.lift ((← Act.heap).setPath c.entity (Path.split path) v))

/-- Sets a field to a value. -/
def setField : Handler :=
  requiring setFieldType ["field"] fun ps c _ => do
    match ps.parameter "field" with
    | .text path =>
      if path.isEmpty then refusePath
      else do
        let v ← Act.resolve c (ps.parameter "value")
        let before ← Act.lift ((← Act.heap).follow c.entity (Path.split path))
        writeEntity c path v
        Act.give [("field", .text path), ("value", v), ("previous_value", before.getD .null)]
    | _ => refusePath
where
  /-- Refuses what is no path. -/
  refusePath : Act Value :=
    Act.refuse "SET_FIELD \"field\" must be a non-empty dot path"

/-! ## Calculating -/

/-- The type of actions that calculate. -/
def calculateType : String := "CALCULATE"

/-- The names that formulas read before those of the context: variables, and over them the fields
    of the entity. -/
def formulaNames (c : Context) (given : Value) : Act Entries := do
  match given with
  | .mapping r =>
    match c.entity with
    | .mapping e => return ((← Act.heap).entries r).merge ((← Act.heap).entries e)
    | v => Act.fail (.fault (.notMapping v.typeName))
  | _ => Act.refuse "CALCULATE \"variables\" must be a mapping"

/-- A number rounded to decimal places, or as it is. -/
def toPlaces (n : Number) : Data → Except Fault Number
  | .null => .ok n
  | d => do
    let x ← n.toFloat
    let places ← d.toWhole
    return .float (← Data.roundedTo x places)

/-- Evaluates a formula, after its placeholders are replaced. -/
def calculate (stamps : Stamps) : Handler :=
  requiring calculateType ["expression"] fun ps c _ => do
    let formula := ps.parameter "expression"
    let given ← Act.resolve c (ps.parameter "variables" (.mapping []))
    let extra ← formulaNames c given
    let template ← Act.lift formula.asText
    let filled ← Act.lift (Template.resolveText { context := c, extra } (← Act.heap) template)
    let text ← Act.lift ((← Act.heap).asText filled)
    match Script.calculate text with
    | .error e => Act.refuse ("Expression evaluation error: " ++ e.message)
    | .ok n => do
      let result := Value.ofNumber (← Act.lift (toPlaces n (ps.parameter "precision")))
      let target := ps.parameter "targetField"
      if target.truth then
        match target with
        | .text path => writeEntity c path result
        | d => Act.fail (.fault (.noAttribute d.typeName "split"))
      Act.give [("expression", ← Act.load formula), ("evaluated_expression", .text text),
        ("result", result), ("variables", given), ("target_field", ← Act.load target),
        ("calculated_at", stamps.timeOf)]

end Rulebook.Handler
