/-
Explanations: a plan as text, its operator on one line, its expressions on lines below and two
blanks deeper, its input after them at the same depth.
-/
import StatementPlan.Expression.Text
import StatementPlan.Plan.Basic

namespace StatementPlan

def Chart.text : Chart → String
  | bar => "bar"
  | line => "line"
  | area => "area"

namespace Plan

/-- Names in brackets, as they are. -/
def bracketed (names : List String) : String :=
  "[" ++ ", ".intercalate names ++ "]"

/-- The lines of an operator itself, without indentation. -/
def ownLines : Plan → List String
  | tableScan table columns select predicate =>
    ("TableScan table=" ++ table ++ " columns=" ++ bracketed columns) ::
    ("  select=" ++ select.expr.text) ::
    predicate.toList.map fun p => "  where=" ++ p.expr.text
  | tablelessSelect columns select =>
    ["TablelessSelect columns=" ++ bracketed columns, "  select=" ++ select.expr.text]
  | limit count offset _ =>
    ["Limit n=" ++ Numeral.writeNat count ++ " offset=" ++ Numeral.writeNat offset]
  | groupBy columns select keys scratchpad _ =>
    ["GroupBy columns=" ++ bracketed columns ++ " scratchpad=" ++ Numeral.writeNat scratchpad,
      "  select=" ++ select.text, "  group=" ++ keys.text]
  | series columns name _ =>
    ["Series columns=" ++ bracketed columns, "  name=" ++ name.text]
  | draw chart => ["Draw chart=" ++ chart.text]

/-- The lines of a plan, the operators below it indented. -/
def explainLines : Plan → List String
  | limit count offset input =>
    ownLines (.limit count offset input) ++ (explainLines input).map ("  " ++ ·)
  | groupBy columns select keys scratchpad input =>
    ownLines (.groupBy columns select keys scratchpad input) ++
      (explainLines input).map ("  " ++ ·)
  | series columns name input =>
    ownLines (.series columns name input) ++ (explainLines input).map ("  " ++ ·)
  | plan => ownLines plan

/-- The explanation of a plan; every line ends in a line feed. -/
def explain (plan : Plan) : String :=
  String.join (plan.explainLines.map (· ++ "\n"))

end Plan

end StatementPlan
