/-
Planning a statement.  A SELECT with a limit is planned without it first; a SELECT that
groups or aggregates is split into a grouping over an internal SELECT of the columns it
needs, which is planned in turn; a SERIES plans its SELECT; a chart stands alone.

The planner is written over the function that plans the statements below, and `planWithin`
ties the knot for a number of nested statements.  `nestingBound` is how deep statements nest:
one level for each SERIES around the SELECT, one for each of its limits, one for the SELECT
and one for the internal SELECT below it.  A statement runs out of levels only if the internal
SELECT is grouped again, which takes a column name with an aggregate call beneath.
-/
import StatementPlan.Aggregation
import StatementPlan.Columns.PushDown
import StatementPlan.Planning.RowSource

namespace StatementPlan

namespace Planning

/-- The count that a clause carries. -/
def countOf (clause : CountClause) (token : Option Token) : Except PlanError Nat :=
  match token with
  | none => .error (.malformed (.countMissing clause))
  | some token =>
    match Numeral.size? token.text with
    | some n => .ok n
    | none => .error (.rejected (.badCount clause token.text))

/-- The row count and the offset of a limit; no offset is 0. -/
def countsOf (clause : Node) : Except PlanError (Nat × Nat) := do
  let count ← countOf .limit clause.token
  match clause.findChild? .offset with
  | some offset => return (count, ← countOf .offset offset.token)
  | none => return (count, 0)

/-- The plan of a SELECT with a limit; other statements are declined. -/
def limit (below : Node → Run Plan) (statement : Node) : Run (Option Plan) :=
  if statement.kind = .select then
    match statement.findChild? .limit with
    | none => pure none
    | some clause => do
      let (count, offset) ← Run.ofExcept (countsOf clause)
      let rest := { statement with children := statement.children.eraseP (·.kind == .limit) }
      let input ← below rest
      return some (.limit count offset input)
  else pure none

/-- The expressions of all group clauses in order. -/
def groupKeys (statement : Node) : List Node :=
  (statement.children.filter (·.kind == .groupBy)).flatMap Node.children

/-- The SELECT below a grouping: another select list in place of the first child, and no group
clauses. -/
def ungrouped (statement list : Node) : Node :=
  { statement with
    children := list :: statement.children.tail.filter fun clause => clause.kind != .groupBy }

/-- The names of the columns of a grouping. -/
def groupedNames (settings : Settings) (items : List Node) : List String :=
  items.map fun item => if settings.resolvedNames then outputName item else unnamed

/-- The plan of a grouped SELECT: its columns and keys are pushed down into the select list of
an internal SELECT. -/
def group (env : Environment) (below : Node → Run Plan) (statement : Node) : Run Plan := do
  Run.note (.built .groupBy)
  match statement.selectList? with
  | none => Run.fail (.malformed .groupedSelectWithoutList)
  | some source =>
    if source.hasChild .all then
      Run.fail (.unsupported .wildcardInGrouped)
    else
      let start : PushDown := { shared := env.settings.sharedSlots }
      let items := start.apply source { kind := .selectList }
      let keys := items.counts.applyAll (groupKeys statement) items.target
      if !(items.accepted && keys.accepted) then
        Run.fail (.malformed .pushDownTarget)
      else
        Run.note (.pushedDown keys.counts.inserted keys.counts.reused)
        Run.note (.event (.regrouped keys.target.children.length keys.rewritten.length
          keys.counts.reused))
        let select ← Run.ofResult (compile env.calls items.rewritten)
        let group ← Run.ofResult (compile env.calls (.ofChildren .groupBy keys.rewritten))
        let group ← Run.ofResult (RowSource.stateless
          (fun bytes => .defect (.scratchpadNeeded .groupKeys bytes)) group)
        let input ← below (ungrouped statement keys.target)
        return .groupBy (groupedNames env.settings source.children) select.expr group.expr
          select.scratchpad input

/-- The name of a series as an expression over the columns of its SELECT, and the SELECT with
the columns that the name needs. -/
def seriesName (env : Environment) (name select list : Node) : Run (Node × Node) :=
  if name.kind = .seriesName then
    match name.token with
    | some token => pure (.ofToken .literal token, select)
    | none => Run.fail (.malformed .seriesNameWithoutToken)
  else if list.hasChild .all then
    Run.fail (.unsupported .wildcardUnderComputedName)
  else
    let start : PushDown := { shared := env.settings.sharedSlots }
    let pushed := start.apply name list
    if pushed.accepted then do
      Run.note (.pushedDown pushed.counts.inserted pushed.counts.reused)
      return (pushed.rewritten, { select with children := pushed.target :: select.children.tail })
    else Run.fail (.malformed .pushDownTarget)

/-- The plan of a SERIES: its SELECT's rows under a name; the columns that only the name needs
are not among its own. -/
def series (env : Environment) (below : Node → Run Plan) (statement : Node) : Run Plan := do
  Run.note (.built .series)
  match statement.children with
  | [name, select] =>
    match select.selectList? with
    | none => Run.fail (.malformed .seriesSelectWithoutList)
    | some list =>
      let axes := list.children.length
      let (name, select) ← seriesName env name select list
      let input ← below select
      let compiled ← Run.ofResult (compile env.calls name)
      let name ← Run.ofResult (RowSource.stateless
        (fun bytes => .defect (.scratchpadNeeded .seriesName bytes)) compiled)
      let columns := "series" :: input.outputColumns.take axes
      Run.note (.event (.seriesBuilt axes columns))
      return .series columns name.expr input
  | children => Run.fail (.malformed (.seriesArity children.length))

/-- The chart that a token names. -/
def chart? : TokenKind → Option Chart
  | .bar => some .bar
  | .line => some .line
  | .area => some .area
  | _ => none

/-- The plan of a chart. -/
def draw (statement : Node) : Run Plan := do
  Run.note (.built .draw)
  match statement.token with
  | none => Run.fail (.defect (.unknownChart "<none>"))
  | some token =>
    match chart? token.kind with
    | some chart => return .draw chart
    | none => Run.fail (.defect (.unknownChart token.kind.heading))

/-- What a leaf builder makes of a statement; nothing, if it declines. -/
def build (env : Environment) (below : Node → Run Plan) (leaf : Leaf) (statement : Node) :
    Run (Option Plan) :=
  match leaf with
  | .limit => limit below statement
  | .tableScan => Run.ofResult (RowSource.scan env statement)
  | .tablelessSelect => Run.ofResult (RowSource.constants env statement)

/-- Offers a statement to a leaf builder. -/
def offer (env : Environment) (below : Node → Run Plan) (leaf : Leaf) (statement : Node) :
    Run (Option Plan) := do
  Run.note (.offered leaf statement)
  if env.declines leaf then
    return none
  else
    match ← build env below leaf statement with
    | none => return none
    | some plan =>
      Run.note (.event (.accepted leaf))
      Run.note (.built (.leaf leaf))
      return some plan

/-- Whether a SELECT is grouped; its group keys settle it before its calls are looked at. -/
def isGrouped (env : Environment) (statement : Node) : Except PlanError Bool :=
  if hasGroupKeys statement then .ok true
  else
    match selectsAggregate env.routing statement with
    | .ok grouped => .ok grouped
    | .error defect => .error (.defect defect)

/-- The plan of a SELECT: the limit first, then grouping, then the row sources. -/
def select (env : Environment) (below : Node → Run Plan) (statement : Node) : Run Plan := do
  match ← offer env below .limit statement with
  | some plan => return plan
  | none =>
    if ← Run.ofExcept (isGrouped env statement) then
      Run.note (.event .planningGrouped)
      group env below statement
    else
      match ← offer env below .tableScan statement with
      | some plan => return plan
      | none =>
        match ← offer env below .tablelessSelect statement with
        | some plan => return plan
        | none => Run.fail (.defect (.noBuilder Kind.select.heading))

/-- The plan of a statement, given the plans of statements below it. -/
def step (env : Environment) (below : Node → Run Plan) (statement : Node) : Run Plan :=
  match statement.kind with
  | .series => do
    Run.note (.event .planningSeries)
    series env below statement
  | .draw => do
    Run.note (.event .planningDraw)
    draw statement
  | .select => select env below statement
  | kind => Run.fail (.defect (.noBuilder kind.heading))

/-- The plan of a statement whose statements nest at most `depth` deep. -/
def planWithin (env : Environment) : Nat → Node → Run Plan
  | 0, _ => ⟨[], .error .endless⟩
  | depth + 1, statement => step env (planWithin env depth) statement

/-- How deep the statements below a statement nest, itself included. -/
def nestingBound : Node → Nat
  | ⟨.series, _, [_, select], _⟩ => nestingBound select + 1
  | ⟨_, _, children, _⟩ => children.countP (·.kind == .limit) + 2

end Planning

/-- Plans a statement. -/
def plan (env : Environment) (statement : Node) : Run Plan :=
  Planning.planWithin env (Planning.nestingBound statement) statement

end StatementPlan
