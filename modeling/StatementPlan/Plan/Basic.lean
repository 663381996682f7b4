/-
Plans: what a statement becomes.  A scan of a table or a SELECT without a table makes rows; a
limit, a grouping or a series works on the rows of its input; a chart stands alone.
-/
import StatementPlan.Expression.Basic

namespace StatementPlan

/-- Charts that can be drawn. -/
inductive Chart where
  | bar
  | line
  | area
  deriving DecidableEq, Repr

/-- A plan. -/
inductive Plan where
  /-- The rows of a table that satisfy the predicate. -/
  | tableScan (table : String) (columns : List String) (select : Compiled)
      (predicate : Option Compiled)
  /-- One row of constants. -/
  | tablelessSelect (columns : List String) (select : Compiled)
  /-- At most `count` rows of the input, after `offset` of them. -/
  | limit (count offset : Nat) (input : Plan)
  /-- One row for each group of input rows with equal keys. -/
  | groupBy (columns : List String) (select keys : Expr) (scratchpad : Nat) (input : Plan)
  /-- The input's rows by the name of the series they belong to. -/
  | series (columns : List String) (name : Expr) (input : Plan)
  | draw (chart : Chart)
  deriving DecidableEq

namespace Plan

/-- The name of the operator. -/
def name : Plan → String
  | tableScan .. => "TableScan"
  | tablelessSelect .. => "TablelessSelect"
  | limit .. => "Limit"
  | groupBy .. => "GroupBy"
  | series .. => "Series"
  | draw .. => "Draw"

/-- The names of the columns that come out; a limit passes its input's on. -/
def outputColumns : Plan → List String
  | tableScan _ columns _ _ => columns
  | tablelessSelect columns _ => columns
  | limit _ _ input => outputColumns input
  | groupBy columns _ _ _ _ => columns
  | series columns _ _ => columns
  | draw _ => []

/-- The plans whose rows this one works on. -/
def inputs : Plan → List Plan
  | limit _ _ input | groupBy _ _ _ _ input | series _ _ input => [input]
  | tableScan .. | tablelessSelect .. | draw _ => []

end Plan

end StatementPlan
