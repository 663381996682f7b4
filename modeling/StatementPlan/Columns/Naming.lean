/-
Names of output columns.  An item is named by its alias, else by the column it consists of,
else it is unnamed.  An alias without a text does not count.
-/
import StatementPlan.Tree.Node

namespace StatementPlan

/-- The name of columns that have no name to borrow. -/
def unnamed : String := "unnamed"

/-- The name of an item's output column. -/
def outputName (item : Node) : String :=
  match (item.findChild? .columnAlias).bind Node.text? with
  | some name => name
  | none =>
    match item.children with
    | expr :: _ => if expr.kind = .columnName then expr.text?.getD unnamed else unnamed
    | [] => unnamed

end StatementPlan
