import Rulebook.Action
import Rulebook.Breaker
import Rulebook.Condition
import Rulebook.Config
import Rulebook.Context
import Rulebook.Copy
import Rulebook.Data.Basic
import Rulebook.Data.Conversion
import Rulebook.Data.Percent
import Rulebook.Description
import Rulebook.Engine
import Rulebook.EngineError
import Rulebook.ErrorResponse
import Rulebook.Executor
import Rulebook.Fault
import Rulebook.Group.Basic
import Rulebook.Group.Check
import Rulebook.Group.Draft
import Rulebook.Group.Edit
import Rulebook.Group.Mode
import Rulebook.Handler.Basic
import Rulebook.Handler.Decision
import Rulebook.Handler.Field
import Rulebook.Handler.Notice
import Rulebook.Handler.Script
import Rulebook.Handler.Service
import Rulebook.Handler.Standard
import Rulebook.Heap
import Rulebook.Heap.Comparison
import Rulebook.Http.Address
import Rulebook.Http.Percent
import Rulebook.Http.Punycode
import Rulebook.Http.Query
import Rulebook.Http.Request
import Rulebook.Http.Url
import Rulebook.Instant
import Rulebook.Json.Reader
import Rulebook.Json.Writer
import Rulebook.Keyed
import Rulebook.Log.Context
import Rulebook.Log.Line
import Rulebook.Metrics
import Rulebook.Number.Arithmetic
import Rulebook.Number.Binary64
import Rulebook.Number.Decimal
import Rulebook.Number.Quantity
import Rulebook.Number.Reading
import Rulebook.Number.Rounding
import Rulebook.Number.Word
import Rulebook.Path
import Rulebook.Pattern.Matching
import Rulebook.Pattern.Reader
import Rulebook.Pattern.Syntax
import Rulebook.Proofs.Atomicity
import Rulebook.Proofs.Batch
import Rulebook.Proofs.Breaker.Blame
import Rulebook.Proofs.Breaker.GivingUp
import Rulebook.Proofs.Breaker.Hosts
import Rulebook.Proofs.Breaker.Marks
import Rulebook.Proofs.Breaker.Overlap
import Rulebook.Proofs.Breaker.Retries
import Rulebook.Proofs.Breaker.Sequence
import Rulebook.Proofs.Calculation
import Rulebook.Proofs.Comparison
import Rulebook.Proofs.Conditions
import Rulebook.Proofs.Confinement
import Rulebook.Proofs.Counts.Feed
import Rulebook.Proofs.Counts.Rankings
import Rulebook.Proofs.Counts.Recorders
import Rulebook.Proofs.Counts.Recount
import Rulebook.Proofs.Counts.Runs
import Rulebook.Proofs.Counts.Service
import Rulebook.Proofs.Execution
import Rulebook.Proofs.Extension
import Rulebook.Proofs.Faults
import Rulebook.Proofs.Forms
import Rulebook.Proofs.Formula.Agreement
import Rulebook.Proofs.Formula.Basic
import Rulebook.Proofs.Formula.Exponent
import Rulebook.Proofs.Formula.Filling
import Rulebook.Proofs.Formula.Literal
import Rulebook.Proofs.Formula.Operand
import Rulebook.Proofs.Formula.Operators
import Rulebook.Proofs.Formula.Reading
import Rulebook.Proofs.Formula.Spelling
import Rulebook.Proofs.Formula.Tokens
import Rulebook.Proofs.Formula.Trees
import Rulebook.Proofs.Group.Edits
import Rulebook.Proofs.Group.Findings
import Rulebook.Proofs.Group.Gauge
import Rulebook.Proofs.Group.History
import Rulebook.Proofs.Group.Interleaving
import Rulebook.Proofs.Group.Members
import Rulebook.Proofs.Group.Membership
import Rulebook.Proofs.Group.Merging
import Rulebook.Proofs.Group.Versions
import Rulebook.Proofs.Handlers
import Rulebook.Proofs.Mirror.Basic
import Rulebook.Proofs.Mirror.Comparisons
import Rulebook.Proofs.Mirror.Copies
import Rulebook.Proofs.Mirror.Evaluation
import Rulebook.Proofs.Mirror.Functions
import Rulebook.Proofs.Mirror.Operators
import Rulebook.Proofs.Mirror.Runs
import Rulebook.Proofs.Modes
import Rulebook.Proofs.Number.Bits
import Rulebook.Proofs.Number.Differences
import Rulebook.Proofs.Number.Digits
import Rulebook.Proofs.Number.Nearest
import Rulebook.Proofs.Number.Products
import Rulebook.Proofs.Number.Range
import Rulebook.Proofs.Number.Shortest
import Rulebook.Proofs.Number.Sums
import Rulebook.Proofs.PathLaws
import Rulebook.Proofs.Preservation
import Rulebook.Proofs.Scopes
import Rulebook.Proofs.Script.Cap
import Rulebook.Proofs.Script.Containment
import Rulebook.Proofs.Script.Contract
import Rulebook.Proofs.Script.Excess
import Rulebook.Proofs.Script.Faults
import Rulebook.Proofs.Script.Isolation
import Rulebook.Proofs.Script.Jumps
import Rulebook.Proofs.Script.Limits
import Rulebook.Proofs.Script.Loops
import Rulebook.Proofs.Script.NumberText
import Rulebook.Proofs.Script.Numeral
import Rulebook.Proofs.Script.Operators
import Rulebook.Proofs.Script.Purity
import Rulebook.Proofs.Script.Region
import Rulebook.Proofs.Script.Results
import Rulebook.Proofs.Script.Sizes
import Rulebook.Proofs.Script.Traversal
import Rulebook.Proofs.Script.Width
import Rulebook.Proofs.Sorting
import Rulebook.Proofs.Template.Fields
import Rulebook.Proofs.Template.Grammar
import Rulebook.Proofs.Template.Paths
import Rulebook.Proofs.Template.Resolution
import Rulebook.Proofs.Template.Scanning
import Rulebook.Proofs.Template.Substitution
import Rulebook.Proofs.Text.CodeSets
import Rulebook.Proofs.Texts
import Rulebook.Proofs.Tree
import Rulebook.Proofs.Update.Copies
import Rulebook.Proofs.Update.Drawings
import Rulebook.Proofs.Update.Entities
import Rulebook.Proofs.Update.Fold
import Rulebook.Proofs.Update.Values
import Rulebook.Proofs.Update.Writes
import Rulebook.Proofs.View
import Rulebook.Report
import Rulebook.Retry
import Rulebook.Rule
import Rulebook.RuleError
import Rulebook.Schema
import Rulebook.Script.Arithmetic
import Rulebook.Script.Error
import Rulebook.Script.Evaluate
import Rulebook.Script.Functions
import Rulebook.Script.Grammar
import Rulebook.Script.Guard
import Rulebook.Script.Literal
import Rulebook.Script.Machine
import Rulebook.Script.Operators
import Rulebook.Script.Program
import Rulebook.Script.Syntax
import Rulebook.Script.Token
import Rulebook.Service
import Rulebook.Sorting
import Rulebook.Span
import Rulebook.Statistics
import Rulebook.Statistics.Summary
import Rulebook.Surroundings
import Rulebook.Template.Placeholder
import Rulebook.Template.Resolve
import Rulebook.Text.Blank
import Rulebook.Text.CaseMap
import Rulebook.Text.CodeSet
import Rulebook.Text.Digit
import Rulebook.Text.Identifier
import Rulebook.Text.Letter
import Rulebook.Text.Names
import Rulebook.Text.Printable
import Rulebook.Text.Quoted
import Rulebook.Text.Search
import Rulebook.Trace
