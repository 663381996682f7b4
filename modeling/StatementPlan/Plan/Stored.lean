/-
Plans as documents: a record with the operator's name as its one key over a record of the
operator's fields.  An absent predicate is stored as null and may be missing in reading; all
other fields are needed, unknown ones are ignored.  The operator's fields may also be given as
the list of their values, the predicate among them.
-/
import StatementPlan.Expression.Stored
import StatementPlan.Plan.Basic

namespace StatementPlan

namespace Chart

/-- The name the chart is stored under. -/
def name : Chart → String
  | bar => "bar_chart"
  | line => "line_chart"
  | area => "area_chart"

def ofName? : String → Option Chart
  | "bar_chart" => some bar
  | "line_chart" => some line
  | "area_chart" => some area
  | _ => none

end Chart

namespace Plan

def toDocument : Plan → Document
  | tableScan table columns select predicate =>
    .record [("TableScan", .record [("table", .text table),
      ("column_names", .ofTexts columns), ("select_expr", select.toDocument),
      ("predicate", (predicate.map Compiled.toDocument).getD .null)])]
  | tablelessSelect columns select =>
    .record [("TablelessSelect", .record [("column_names", .ofTexts columns),
      ("select_expr", select.toDocument)])]
  | limit count offset input =>
    .record [("Limit", .record [("limit", .size count), ("offset", .size offset),
      ("input", toDocument input)])]
  | groupBy columns select keys scratchpad input =>
    .record [("GroupBy", .record [("column_names", .ofTexts columns),
      ("select_expr", select.toDocument), ("group_expr", keys.toDocument),
      ("scratchpad_size", .size scratchpad), ("input", toDocument input)])]
  | series columns name input =>
    .record [("Series", .record [("column_names", .ofTexts columns),
      ("name_expr", name.toDocument), ("input", toDocument input)])]
  | draw chart => .record [("Draw", .record [("chart", .text chart.name)])]

/-- The order of the fields of the operator of this name. -/
def layout? : String → Option Document.Layout
  | "TableScan" => some { needed := ["table", "column_names", "select_expr", "predicate"] }
  | "TablelessSelect" => some { needed := ["column_names", "select_expr"] }
  | "Limit" => some { needed := ["limit", "offset", "input"] }
  | "GroupBy" => some
      { needed := ["column_names", "select_expr", "group_expr", "scratchpad_size", "input"] }
  | "Series" => some { needed := ["column_names", "name_expr", "input"] }
  | "Draw" => some { needed := ["chart"] }
  | _ => none

/-- The plan of the operator of this name with these fields, over an input that is read
already. -/
def ofFields? (operator : String) (fields : List (String × Document)) (input : Option Plan) :
    Option Plan :=
  match operator with
  | "TableScan" => do
    let table ← Document.required? fields "table" Document.text?
    let columns ← Document.required? fields "column_names" Document.texts?
    let select ← Document.required? fields "select_expr" Compiled.ofDocument?
    let predicate ← Document.optional? fields "predicate" Compiled.ofDocument?
    return .tableScan table columns select predicate
  | "TablelessSelect" => do
    let columns ← Document.required? fields "column_names" Document.texts?
    let select ← Document.required? fields "select_expr" Compiled.ofDocument?
    return .tablelessSelect columns select
  | "Limit" => do
    let count ← Document.required? fields "limit" Document.size?
    let offset ← Document.required? fields "offset" Document.size?
    let input ← input
    return .limit count offset input
  | "GroupBy" => do
    let columns ← Document.required? fields "column_names" Document.texts?
    let select ← Document.required? fields "select_expr" Expr.ofDocument?
    let keys ← Document.required? fields "group_expr" Expr.ofDocument?
    let scratchpad ← Document.required? fields "scratchpad_size" Document.size?
    let input ← input
    return .groupBy columns select keys scratchpad input
  | "Series" => do
    let columns ← Document.required? fields "column_names" Document.texts?
    let name ← Document.required? fields "name_expr" Expr.ofDocument?
    let input ← input
    return .series columns name input
  | "Draw" => do
    let chart ← Document.required? fields "chart" fun d => d.name?.bind Chart.ofName?
    return .draw chart
  | _ => none

mutual

/-- The plan a document stores. -/
def ofDocument? : Document → Option Plan
  | .record [(operator, .record fields)] => ofFields? operator fields (inputOf? fields)
  | .record [(operator, .list values)] =>
    match layout? operator with
    | some layout =>
      if layout.admits values then
        ofFields? operator (layout.names.zip values) (inputAmong? layout.names values)
      else none
    | none => none
  | _ => none

/-- The plan in the first field named for the input. -/
def inputOf? : List (String × Document) → Option Plan
  | [] => none
  | (key, value) :: rest => if key = "input" then ofDocument? value else inputOf? rest

/-- The plan in the value whose place is named for the input. -/
def inputAmong? : List String → List Document → Option Plan
  | name :: names, value :: values =>
    if name = "input" then ofDocument? value else inputAmong? names values
  | _, _ => none

end

/-- All sizes, positions and literals of the plan fit the stored form. -/
def storable : Plan → Bool
  | tableScan _ _ select predicate => select.storable && predicate.all Compiled.storable
  | tablelessSelect _ select => select.storable
  | limit count offset input =>
    count < Numeral.sizeLimit && offset < Numeral.sizeLimit && storable input
  | groupBy _ select keys scratchpad input =>
    select.storable && keys.storable && scratchpad < Numeral.sizeLimit && storable input
  | series _ name input => name.storable && storable input
  | draw _ => true

end Plan

end StatementPlan
