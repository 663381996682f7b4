import StatementPlan.Text.Quoted
import StatementPlan.Binary64.Numeral
import StatementPlan.Document
import StatementPlan.Tree.Node
import StatementPlan.Tree.Outline
import StatementPlan.Tree.Edit
import StatementPlan.Tree.Build
import StatementPlan.Tree.Stored
import StatementPlan.Symbol.Registry
import StatementPlan.Catalog
import StatementPlan.Settings
import StatementPlan.Fault
import StatementPlan.Expression.Basic
import StatementPlan.Expression.Text
import StatementPlan.Expression.Compile
import StatementPlan.Expression.Stored
import StatementPlan.Plan.Explain
import StatementPlan.Plan.Stored
import StatementPlan.Columns.Naming
import StatementPlan.Columns.Binding
import StatementPlan.Columns.PushDown
import StatementPlan.Aggregation
import StatementPlan.Planning.Run
import StatementPlan.Planning.Entry
import StatementPlan.Metrics
import StatementPlan.Proofs.Outcome
import StatementPlan.Proofs.Tree.References
import StatementPlan.Proofs.Columns.Placement
import StatementPlan.Proofs.Expression.Substitution
import StatementPlan.Proofs.Expression.Placement
import StatementPlan.Proofs.Columns.Slots
import StatementPlan.Proofs.Columns.PushDown
import StatementPlan.Proofs.Plan.Views
import StatementPlan.Proofs.Planning.Result
import StatementPlan.Proofs.Aggregation
import StatementPlan.Proofs.Planning.SelectList
import StatementPlan.Proofs.Planning.Rows
import StatementPlan.Proofs.Planning.Grouping
import StatementPlan.Proofs.Planning.Meaning
import StatementPlan.Proofs.Planning.Series
import StatementPlan.Proofs.Planning.Scope
import StatementPlan.Proofs.Planning.Alongside
import StatementPlan.Proofs.Planning.Simulation
import StatementPlan.Proofs.Planning.SeriesName
import StatementPlan.Proofs.Planning.SharedSlots
import StatementPlan.Proofs.Expression.Tally
import StatementPlan.Proofs.Planning.Stops
import StatementPlan.Proofs.Planning.Course
import StatementPlan.Proofs.Planning.Layers
import StatementPlan.Proofs.Planning.Nesting
import StatementPlan.Proofs.Expression.Charges
import StatementPlan.Proofs.Planning.Aggregates
import StatementPlan.Proofs.Planning.Clauses
import StatementPlan.Proofs.Tree.Built
import StatementPlan.Proofs.Expression.Acceptance
import StatementPlan.Proofs.Planning.Drafts
import StatementPlan.Proofs.Planning.Acceptance
import StatementPlan.Proofs.Plan.Stored
import StatementPlan.Proofs.Tree.Positions
import StatementPlan.Proofs.Planning.Dispatch
import StatementPlan.Proofs.Planning.Overflow
import StatementPlan.Proofs.Expression.Unbound
import StatementPlan.Proofs.Planning.UserErrors
import StatementPlan.Proofs.Tree.Stored
import StatementPlan.Proofs.Planning.Correspondence
import StatementPlan.Proofs.Planning.ClauseOrder
import StatementPlan.Proofs.Planning.Alignment
import StatementPlan.Proofs.Planning.SeriesColumns
import StatementPlan.Proofs.Expression.Evaluated
import StatementPlan.Proofs.Planning.Conditions
import StatementPlan.Proofs.Plan.Numbers
import StatementPlan.Proofs.Planning.Constants
import StatementPlan.Proofs.Planning.SeriesInput
import StatementPlan.Proofs.Tree.Relabel
import StatementPlan.Proofs.Tree.Rewording
import StatementPlan.Proofs.Columns.Rewording
import StatementPlan.Proofs.Expression.Rewording
import StatementPlan.Proofs.Planning.Rewording
import StatementPlan.Proofs.Planning.Spelling
import StatementPlan.Proofs.Planning.Respelling
import StatementPlan.Proofs.Planning.FunctionNames
import StatementPlan.Proofs.Planning.Mentions
import StatementPlan.Proofs.Counters
import StatementPlan.Proofs.Planning.Policy
import StatementPlan.Proofs.Columns.Counts
import StatementPlan.Proofs.Planning.Record
import StatementPlan.Proofs.Planning.Counting
import StatementPlan.Proofs.Planning.OutputNames
import StatementPlan.Proofs.Planning.Trace
import StatementPlan.Proofs.Columns.Occurrences
import StatementPlan.Proofs.Columns.Lossless
import StatementPlan.Proofs.Columns.Idempotence
import StatementPlan.Proofs.Expression.Aggregation
import StatementPlan.Proofs.Binary64.Rounding
import StatementPlan.Proofs.Binary64.Shortest
import StatementPlan.Proofs.Binary64.Written
import StatementPlan.Proofs.Expression.Numbers
import StatementPlan.Proofs.Tree.Steps
import StatementPlan.Proofs.Planning.Limits
import StatementPlan.Proofs.Text.Separated
import StatementPlan.Proofs.Text.AsciiCase
import StatementPlan.Proofs.Text.Quoted
import StatementPlan.Proofs.Expression.Text
import StatementPlan.Proofs.Plan.Explained
import StatementPlan.Proofs.Symbol.History
import StatementPlan.Proofs.Tree.Outline
import StatementPlan.Proofs.Columns.Binding
import StatementPlan.Proofs.Expression.Search
