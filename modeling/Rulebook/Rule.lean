/-
  Rules: conditions and the actions that follow from them.
-/
import Rulebook.Condition
import Rulebook.Executor

namespace Rulebook

/-- A rule. -/
structure Rule where
  id : String
  name : String
  conditions : List Condition := []
  actions : List Action := []
  /-- How the conditions are joined. -/
  combination : Combination := .all
  /-- Rules of a group run in ascending order of this. -/
  priority : Data := .int 0
  enabled : Bool := true
  category : Option String := none

/-- Whether the conditions of a rule hold, and the surroundings after them. -/
def Rule.holds (tests : Tests) (r : Rule) (c : Context) (s : Surroundings) :
    Bool × Surroundings :=
  r.combination.holds tests r.conditions c s

/-- What came of a rule. -/
structure RuleResult where
  rule : String
  name : String
  matched : Bool
  actions : List ActionResult := []
  error : Option RuleError := none

namespace RuleResult

/-- Whether a rule came to its result without an error. -/
def success (r : RuleResult) : Bool :=
  r.error.isNone && r.actions.all (·.success)

/-- The report about actions that failed, if there are any. -/
def errorOf (rule : Rule) (actions : List ActionResult) : Option RuleError :=
  match actions.filter fun a => !a.success with
  | [] => none
  | a :: others =>
    some (.actionsFailed rule.id rule.name a.actionId (a.error.getD "") (others.map (·.actionId)))

/-- What came of a rule whose actions are done. -/
def ofActions (rule : Rule) (matched : Bool) (actions : List ActionResult) : RuleResult where
  rule := rule.id
  name := rule.name
  matched := matched
  actions := actions
  error := errorOf rule actions

theorem success_ofActions (rule : Rule) (matched : Bool) (actions : List ActionResult) :
    (ofActions rule matched actions).success = actions.all (·.success) := by
  simp only [success, ofActions, errorOf]
  split
  · next h =>
    simp only [Option.isNone_none, Bool.true_and]
  · next a others h =>
    have ha : a ∈ actions ∧ (!a.success) = true := List.mem_filter.1 (h ▸ List.mem_cons_self)
    simp only [Option.isNone_some, Bool.false_and]
    exact (List.all_eq_false.2 ⟨a, ha.1, by simpa using ha.2⟩).symm

end RuleResult

end Rulebook
