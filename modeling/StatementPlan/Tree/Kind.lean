/-
The kinds of tree nodes.  Operators are kinds of their own; each one is evaluated by the
function its symbol names.

`ofName?_name`: a kind is determined by the name it is stored under.
`heading_injective`: and by its heading.
-/
namespace StatementPlan

/-- Unary and binary operators. -/
inductive Operator where
  | eq | neq | lt | lte | gt | gte
  | and | or | not
  | negate | add | sub | mul | div | mod | pow
  deriving DecidableEq, Repr

namespace Operator

/-- The function that evaluates the operator. -/
def symbol : Operator → String
  | eq => "eq" | neq => "neq" | lt => "lt" | lte => "lte" | gt => "gt" | gte => "gte"
  | and => "and" | or => "or" | not => "not"
  | negate => "neg" | add => "add" | sub => "sub" | mul => "mul" | div => "div"
  | mod => "mod" | pow => "pow"

/-- The name the operator is stored under. -/
def name : Operator → String
  | eq => "Eq" | neq => "Neq" | lt => "Lt" | lte => "Lte" | gt => "Gt" | gte => "Gte"
  | and => "And" | or => "Or" | not => "Not"
  | negate => "Negate" | add => "Add" | sub => "Sub" | mul => "Mul" | div => "Div"
  | mod => "Mod" | pow => "Pow"

/-- The heading of the operator in an outline. -/
def heading : Operator → String
  | eq => "EQ_EXPR" | neq => "NEQ_EXPR" | lt => "LT_EXPR" | lte => "LTE_EXPR"
  | gt => "GT_EXPR" | gte => "GTE_EXPR"
  | and => "AND_EXPR" | or => "OR_EXPR" | not => "NOT_EXPR"
  | negate => "NEGATE_EXPR" | add => "ADD_EXPR" | sub => "SUB_EXPR" | mul => "MUL_EXPR"
  | div => "DIV_EXPR" | mod => "MOD_EXPR" | pow => "POW_EXPR"

def all : List Operator :=
  [eq, neq, lt, lte, gt, gte, and, or, not, negate, add, sub, mul, div, mod, pow]

theorem mem_all (op : Operator) : op ∈ all := by
  cases op <;> decide

end Operator

/-- What a node of a statement tree stands for. -/
inductive Kind where
  /-- A select list, then clauses in any order. -/
  | select
  /-- The items of a SELECT. -/
  | selectList
  /-- All columns of the table, as an item. -/
  | all
  /-- An expression as an item, with an alias after it if it has one. -/
  | derivedColumn
  /-- A column by its position; made by rewriting only. -/
  | resolvedColumn
  | columnName
  | columnAlias
  | tableName
  | «from»
  | «where»
  | groupBy
  | having
  | orderBy
  | sortSpec
  /-- A row count, with an offset below it if there is one. -/
  | limit
  | offset
  /-- A call; the token names the function. -/
  | methodCall
  | literal
  /-- A name and a SELECT. -/
  | series
  | seriesName
  /-- A chart; the token tells which. -/
  | draw
  | operator (op : Operator)
  deriving DecidableEq, Repr

namespace Kind

/-- The name the kind is stored under. -/
def name : Kind → String
  | select => "Select" | selectList => "SelectList" | all => "All"
  | derivedColumn => "DerivedColumn" | resolvedColumn => "ResolvedColumn"
  | columnName => "ColumnName" | columnAlias => "ColumnAlias" | tableName => "TableName"
  | «from» => "From" | «where» => "Where" | groupBy => "GroupBy" | having => "Having"
  | orderBy => "OrderBy" | sortSpec => "SortSpec" | limit => "Limit" | offset => "Offset"
  | methodCall => "MethodCall" | literal => "Literal" | series => "Series"
  | seriesName => "SeriesName" | draw => "Draw"
  | operator op => op.name

/-- The heading of the kind in outlines and messages. -/
def heading : Kind → String
  | select => "SELECT" | selectList => "SELECT_LIST" | all => "ALL"
  | derivedColumn => "DERIVED_COLUMN" | resolvedColumn => "RESOLVED_COLUMN"
  | columnName => "COLUMN_NAME" | columnAlias => "COLUMN_ALIAS" | tableName => "TABLE_NAME"
  | «from» => "FROM" | «where» => "WHERE" | groupBy => "GROUP_BY" | having => "HAVING"
  | orderBy => "ORDER_BY" | sortSpec => "SORT_SPEC" | limit => "LIMIT" | offset => "OFFSET"
  | methodCall => "METHOD_CALL" | literal => "LITERAL" | series => "SERIES"
  | seriesName => "SERIES_NAME" | draw => "DRAW"
  | operator op => op.heading

/-- The operator of an operator kind. -/
def operator? : Kind → Option Operator
  | operator op => some op
  | _ => none

def everyKind : List Kind :=
  [select, selectList, all, derivedColumn, resolvedColumn, columnName, columnAlias, tableName,
    «from», «where», groupBy, having, orderBy, sortSpec, limit, offset, methodCall, literal,
    series, seriesName, draw] ++ Operator.all.map operator

/-- The kind stored under a name. -/
def ofName? (name : String) : Option Kind :=
  everyKind.find? fun kind => kind.name == name

theorem ofName?_name (kind : Kind) : ofName? kind.name = some kind := by
  cases kind with
  | operator op => cases op <;> rfl
  | _ => rfl

theorem find?_heading (kind : Kind) : everyKind.find? (·.heading == kind.heading) = some kind := by
  cases kind with
  | operator op => cases op <;> rfl
  | _ => rfl

theorem heading_injective {a b : Kind} (h : a.heading = b.heading) : a = b := by
  have found := find?_heading a
  rw [h, find?_heading b] at found
  exact (Option.some.inj found).symm

end Kind

end StatementPlan
