/-
Trees in the shapes the planner reads: literals, calls, items, statements.  A SELECT is
assembled from steps in any order; its clauses always come out in one order.

`build_children`: the clauses of an assembled SELECT, each at most once.
-/
import StatementPlan.Tree.Node
import StatementPlan.Binary64.Numeral

namespace StatementPlan.Node

def ofToken (kind : Kind) (token : Token) : Node := { kind, token := some token }

def ofChildren (kind : Kind) (children : List Node) : Node := { kind, children }

/-- A column by name. -/
def column (name : String) : Node := ofToken .columnName (.identifier name)

/-- An integer literal in decimal. -/
def int (value : Int64) : Node := ofToken .literal (.numeric (Numeral.writeInt value.toInt))

/-- A binary number literal in its shortest decimal. -/
def float (value : Binary64) : Node := ofToken .literal (.numeric value.write)

def string (value : String) : Node := ofToken .literal (.string value)

def boolean (value : Bool) : Node :=
  ofToken .literal (.keyword (if value then .true else .false))

/-- A function call. -/
def call (name : String) (args : List Node) : Node :=
  { kind := .methodCall, token := some (.identifier name), children := args }

/-- Two operands under a kind. -/
def binary (kind : Kind) (left right : Node) : Node := ofChildren kind [left, right]

/-- An expression as an item. -/
def derived (expr : Node) : Node := ofChildren .derivedColumn [expr]

/-- An expression as an item with an alias. -/
def derivedAs (expr : Node) (name : String) : Node :=
  ofChildren .derivedColumn [expr, ofToken .columnAlias (.identifier name)]

/-- A SERIES under a fixed name. -/
def seriesNamed (name : String) (select : Node) : Node :=
  ofChildren .series [ofToken .seriesName (.string name), select]

/-- A SERIES under a computed name. -/
def seriesFrom (name select : Node) : Node := ofChildren .series [name, select]

/-- A chart. -/
def draw (kind : TokenKind) : Node := ofToken .draw (.keyword kind)

end Node

/-- One step of assembling a SELECT. -/
inductive SelectStep where
  | column (name : String)
  | item (expr : Node)
  | itemAs (expr : Node) (name : String)
  | all
  | table (name : String)
  | filter (predicate : Node)
  | groupBy (key : Node)
  | having (predicate : Node)
  | orderBy (expr : Node) (descending : Bool)
  /-- A row count, with or without an offset. -/
  | limit (count : Nat) (offset : Option Nat)

/-- A SELECT under assembly: items, keys and sort specifications add up, of every other
clause the last step counts. -/
structure SelectDraft where
  items : List Node := []
  table : Option String := none
  predicate : Option Node := none
  keys : List Node := []
  having : Option Node := none
  order : List (Node × Bool) := []
  limit : Option (Nat × Option Nat) := none

namespace SelectDraft

/-- The draft after one more step. -/
def step (d : SelectDraft) : SelectStep → SelectDraft
  | .column name => { d with items := d.items ++ [.derived (.column name)] }
  | .item expr => { d with items := d.items ++ [.derived expr] }
  | .itemAs expr name => { d with items := d.items ++ [.derivedAs expr name] }
  | .all => { d with items := d.items ++ [{ kind := .all }] }
  | .table name => { d with table := some name }
  | .filter predicate => { d with predicate := some predicate }
  | .groupBy key => { d with keys := d.keys ++ [key] }
  | .having predicate => { d with having := some predicate }
  | .orderBy expr descending => { d with order := d.order ++ [(expr, descending)] }
  | .limit count offset => { d with limit := some (count, offset) }

def fromClause (table : String) : Node :=
  .ofChildren .from [.ofToken .tableName (.identifier table)]

def sortSpec (spec : Node × Bool) : Node :=
  { kind := .sortSpec, token := some (.keyword (if spec.2 then .desc else .asc)),
    children := [spec.1] }

/-- A row count, and below it the offset. -/
def limitClause (count : Nat) (offset : Option Nat) : Node :=
  { kind := .limit, token := some (.numeric (Numeral.writeNat count)),
    children := offset.toList.map fun n => .ofToken .offset (.numeric (Numeral.writeNat n)) }

/-- The clauses that the steps gave, in their one order. -/
def clauses (d : SelectDraft) : List Node :=
  d.table.toList.map fromClause ++
  d.predicate.toList.map (fun p => .ofChildren .where [p]) ++
  (if d.keys.isEmpty then [] else [.ofChildren .groupBy d.keys]) ++
  d.having.toList.map (fun p => .ofChildren .having [p]) ++
  (if d.order.isEmpty then [] else [.ofChildren .orderBy (d.order.map sortSpec)]) ++
  d.limit.toList.map fun (count, offset) => limitClause count offset

/-- The assembled statement. -/
def build (d : SelectDraft) : Node :=
  .ofChildren .select (.ofChildren .selectList d.items :: d.clauses)

theorem build_children (d : SelectDraft) :
    d.build.children = .ofChildren .selectList d.items :: d.clauses := rfl

end SelectDraft

/-- The SELECT that steps assemble. -/
def Node.select (steps : List SelectStep) : Node :=
  (steps.foldl SelectDraft.step {}).build

end StatementPlan
