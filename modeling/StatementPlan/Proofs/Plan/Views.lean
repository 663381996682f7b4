/-
What a plan does apart from how its positions are numbered: its operators from the top down, the
table it reads, and the values of its columns and group keys over the columns of that table.

`entries?` and `keys?` replace every position by the entry of the input that it refers to, down
to the table; a position that refers to nothing leaves them without an answer.
-/
import StatementPlan.Plan.Basic
import StatementPlan.Proofs.Expression.Substitution

namespace StatementPlan

/-- An operator with what it carries besides names, positions and its input. -/
inductive Stage where
  | tableScan (table : String) (scratchpad : Nat) (predicate : Option Compiled)
  | tablelessSelect (scratchpad : Nat)
  | limit (count offset : Nat)
  | groupBy (scratchpad : Nat)
  | series
  | draw (chart : Chart)
  deriving DecidableEq

/-- The operator groups rows. -/
def Stage.groups : Stage → Bool
  | groupBy _ => true
  | _ => false

/-- The table that the operator reads. -/
def Stage.table? : Stage → Option String
  | tableScan table _ _ => some table
  | _ => none

namespace Plan

/-- The operators from the top down. -/
def stages : Plan → List Stage
  | tableScan table _ select predicate => [.tableScan table select.scratchpad predicate]
  | tablelessSelect _ select => [.tablelessSelect select.scratchpad]
  | limit count offset input => .limit count offset :: stages input
  | groupBy _ _ _ scratchpad input => .groupBy scratchpad :: stages input
  | series _ _ input => .series :: stages input
  | draw chart => [.draw chart]

/-- The number of columns of each operator, from the top down. -/
def widths : Plan → List Nat
  | tableScan _ columns _ _ => [columns.length]
  | tablelessSelect columns _ => [columns.length]
  | limit _ _ input => (outputColumns input).length :: widths input
  | groupBy columns _ _ _ input => columns.length :: widths input
  | series columns _ input => columns.length :: widths input
  | draw _ => [0]

/-- The table that the rows come from. -/
def table? : Plan → Option String
  | tableScan table _ _ _ => some table
  | limit _ _ input | groupBy _ _ _ _ input | series _ _ input => table? input
  | tablelessSelect _ _ | draw _ => none

/-- The plan and all plans below it, from the top down. -/
def parts : Plan → List Plan
  | tableScan table columns select predicate => [.tableScan table columns select predicate]
  | tablelessSelect columns select => [.tablelessSelect columns select]
  | limit count offset input => .limit count offset input :: parts input
  | groupBy columns select keys scratchpad input =>
    .groupBy columns select keys scratchpad input :: parts input
  | series columns name input => .series columns name input :: parts input
  | draw chart => [.draw chart]

/-- The plan below all limits. -/
def core : Plan → Plan
  | limit _ _ input => core input
  | p => p

/-- The values of the columns that come out, over the columns of the table.  Those of a series are
its name and the columns of its input that it shows. -/
def entries? : Plan → Option (List Expr)
  | tableScan _ _ select _ => select.expr.items?
  | tablelessSelect _ select => select.expr.items?
  | limit _ _ input => entries? input
  | groupBy _ select _ _ input =>
    (entries? input).bind fun entries => (select.substitute? entries).bind Expr.items?
  | series columns name input =>
    (entries? input).bind fun entries =>
      (name.substitute? entries).map fun name => name :: entries.take (columns.length - 1)
  | draw _ => some []

/-- The keys of each grouping from the top down, over the columns of the table. -/
def keys? : Plan → Option (List Expr)
  | groupBy _ _ keys _ input =>
    (entries? input).bind fun entries =>
      (keys.substitute? entries).bind fun first => (keys? input).map fun others => first :: others
  | limit _ _ input | series _ _ input => keys? input
  | tableScan .. | tablelessSelect .. | draw _ => some []

theorem table?_eq_findSome? (p : Plan) : p.table? = p.stages.findSome? Stage.table? := by
  induction p with
  | limit _ _ _ ih => simpa [table?, stages, List.findSome?_cons, Stage.table?] using ih
  | groupBy _ _ _ _ _ ih => simpa [table?, stages, List.findSome?_cons, Stage.table?] using ih
  | series _ _ _ ih => simpa [table?, stages, List.findSome?_cons, Stage.table?] using ih
  | _ => simp [table?, stages, Stage.table?]

/-- Plans of the same operators read the same table. -/
theorem table?_eq_of_stages {p q : Plan} (h : p.stages = q.stages) : p.table? = q.table? := by
  rw [table?_eq_findSome?, table?_eq_findSome?, h]

end Plan

end StatementPlan
