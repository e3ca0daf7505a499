/-
  A summary of all statistics, for dashboards.
-/
import Rulebook.Config
import Rulebook.Statistics

namespace Rulebook

/-- The state of an engine in numbers. -/
structure StatisticsSummary (τ : Type) where
  /-- All executions of rules. -/
  total : Record τ
  rules : Nat
  /-- The rules that were executed lately. -/
  active : Nat
  errorRate : τ
  popular : List (RuleStatistics τ)
  /-- The errors in the feed, the oldest first. -/
  recentErrors : List RuleError
  categories : Tally String
  hours : Tally String
  actions : Keyed String (ActionStatistics τ)

namespace Statistics

variable {τ : Type} [Quantity τ]

/-- The summary at a time; a fault means that the time for which rules count as active has no
    beginning. -/
def summary (s : Statistics τ) (config : Config) (now : Instant) :
    Except Fault (StatisticsSummary τ) := do
  let since ← secondsBefore now config.activeWindow
  return { total := s.total
           rules := s.rules.size
           active := s.activeSince since
           errorRate := s.errorRate
           popular := s.popular config.popularLimit
           recentErrors := s.feed
           categories := s.categories
           hours := s.hours
           actions := s.actions }

end Statistics

end Rulebook
