/-
SELECTs that make rows themselves: from a table, whose columns the names are bound to, or one
row of constants.  Neither takes HAVING or ORDER BY, and neither evaluates aggregates.

`scan_declines`, `constants_declines`: a SELECT belongs to the one or the other by its FROM.
-/
import StatementPlan.Columns.Binding
import StatementPlan.Columns.Naming
import StatementPlan.Plan.Basic
import StatementPlan.Planning.Environment
import StatementPlan.Tree.Build

namespace StatementPlan

/-- The select list at the head of a SELECT. -/
def Node.selectList? (statement : Node) : Option Node :=
  match statement.children with
  | list :: _ => if list.kind = .selectList then some list else none
  | [] => none

namespace RowSource

/-- The clauses that no row source evaluates. -/
def refuseClauses (statement : Node) : Except PlanError Unit :=
  if statement.hasChild .having then .error (.unsupported .having)
  else if statement.hasChild .orderBy then .error (.unsupported .orderBy)
  else .ok ()

/-- The select list, or the defect of having none. -/
def selectList (statement : Node) : Except PlanError Node :=
  match statement.selectList? with
  | some list => .ok list
  | none => .error (.malformed .selectWithoutList)

/-- The table that a FROM clause names, and its columns. -/
def tableOf (env : Environment) (fromClause : Node) : Except PlanError (String × List String) :=
  match (fromClause.findChild? .tableName).bind Node.text? with
  | none => .error (.malformed .fromWithoutTable)
  | some table =>
    match env.columns? table with
    | none => .error (.rejected (.unknownTable table))
    | some columns => .ok (table, columns)

/-- A tree bound to the columns of a table. -/
def bound (table : String) (columns : List String) (n : Node) : Except PlanError Node :=
  match Columns.bind table columns n with
  | .ok n => .ok n
  | .error rejection => .error (.rejected rejection)

/-- The items that all columns of a table stand for, with their names. -/
def everyColumn (columns : List String) : List (Node × String) :=
  columns.mapIdx fun position name => (.derived ((Node.column name).resolveTo position), name)

/-- The bound items that one item of a select list stands for, with their names. -/
def scanItem (table : String) (columns : List String) (item : Node) :
    Except PlanError (List (Node × String)) :=
  match item.kind with
  | .all => .ok (everyColumn columns)
  | .derivedColumn =>
    match bound table columns item with
    | .ok resolved => .ok [(resolved, outputName item)]
    | .error error => .error error
  | kind => .error (.malformed (.strayItem kind))

/-- The bound items of a select list with their names. -/
def scanItems (table : String) (columns : List String) :
    List Node → Except PlanError (List (Node × String))
  | [] => .ok []
  | item :: rest => do
    let first ← scanItem table columns item
    let others ← scanItems table columns rest
    return first ++ others

/-- Turns errors into stops. -/
def orFail : Except PlanError α → Except Stop α
  | .ok a => .ok a
  | .error error => .error (.failed error)

/-- A compiled expression without state, or the error that state is here. -/
def stateless (error : Nat → PlanError) (c : Compiled) : Except Stop Compiled :=
  if c.scratchpad = 0 then .ok c else .error (.failed (error c.scratchpad))

/-- The bound and compiled predicate of a WHERE clause. -/
def predicateOf (env : Environment) (table : String) (columns : List String)
    (condition : Node) : Except Stop Compiled := do
  let resolved ← orFail (bound table columns condition)
  let compiled ← compile env.calls resolved
  stateless (fun _ => .rejected .aggregateInWhere) compiled

/-- The condition of the first WHERE clause. -/
def condition? (statement : Node) : Option Node :=
  (statement.findChild? .where).bind fun clause => clause.children.head?

/-- The plan of a SELECT with a FROM clause; other statements are declined. -/
def scan (env : Environment) (statement : Node) : Except Stop (Option Plan) :=
  if statement.kind = .select then
    match statement.findChild? .from with
    | none => .ok none
    | some fromClause => do
      orFail (refuseClauses statement)
      let (table, columns) ← orFail (tableOf env fromClause)
      let list ← orFail (selectList statement)
      let items ← orFail (scanItems table columns list.children)
      let compiled ← compile env.calls (.ofChildren .selectList (items.map (·.1)))
      let select ← stateless (fun bytes => .defect (.scratchpadNeeded .scanSelectList bytes))
        compiled
      let predicate ← (condition? statement).mapM (predicateOf env table columns)
      return some (.tableScan table (items.map (·.2)) select predicate)
  else .ok none

/-- The plan of a SELECT without a FROM clause; other statements are declined. -/
def constants (env : Environment) (statement : Node) : Except Stop (Option Plan) :=
  if statement.kind = .select ∧ statement.hasChild .from = false then do
    orFail (refuseClauses statement)
    if statement.hasChild .where then
      Compile.fail (.unsupported .whereWithoutFrom)
    let list ← orFail (selectList statement)
    if list.hasChild .all then
      Compile.fail (.rejected .wildcardWithoutFrom)
    let compiled ← compile env.calls list
    let select ← stateless (fun _ => .rejected .aggregateWithoutFrom) compiled
    return some (.tablelessSelect (list.children.map outputName) select)
  else .ok none

theorem findChild?_eq_none_iff (n : Node) (kind : Kind) :
    n.findChild? kind = none ↔ n.hasChild kind = false := by
  simp [Node.findChild?, Node.hasChild]

theorem scan_declines (env : Environment) {statement : Node}
    (h : statement.hasChild .from = false) : scan env statement = .ok none := by
  simp [scan, (findChild?_eq_none_iff statement .from).2 h]

theorem constants_declines (env : Environment) {statement : Node}
    (h : statement.hasChild .from = true) : constants env statement = .ok none := by
  simp [constants, h]

end RowSource

end StatementPlan
