/-
What a SERIES may be over.  Only the first child of the statement below it is looked at, which has
to be a select list; what kind of statement that is, is left to its own planning.  So the input of a
series is the plan of a SELECT, but also a chart or another series if they are given a select list.

`planWithin_kind`: what a plan is for.
`series_over`: the input of a planned SERIES.
-/
import StatementPlan.Proofs.Planning.Layers
import StatementPlan.Proofs.Planning.Scope

namespace StatementPlan

/-- The kind of statement that a plan is for. -/
def Plan.statementKind : Plan → Kind
  | tableScan .. | tablelessSelect .. | limit .. | groupBy .. => .select
  | series .. => .series
  | draw _ => .draw

namespace Planning

variable {env : Environment} {statement : Node}

theorem step_kind {below : Node → Run Plan} {p : Plan} (h : (step env below statement).result = .ok p) :
    statement.kind = p.statementKind := by
  rcases step_eq_ok h with alone | ⟨_, _, _, asked, _, around⟩
  · cases alone with
    | rows _ rows kind => cases rows <;> exact kind
    | draw _ kind => exact kind
  · cases asked with
    | limit kind => cases around; exact kind
    | group kind => cases around; exact kind
    | series kind => cases around; exact kind

theorem planWithin_kind {depth : Nat} {p : Plan} (h : (planWithin env depth statement).result = .ok p) :
    statement.kind = p.statementKind := by
  cases depth with
  | zero => cases h
  | succ depth => exact step_kind h

/-- A series over the plan of the statement below it. -/
inductive SeriesOver (below : Node) : Plan → Prop
  | select (kind : below.kind = .select) (columns : List String) (name : Expr) {input : Plan}
      (rows : input.name ∈ ["Limit", "GroupBy", "TableScan", "TablelessSelect"]) :
      SeriesOver below (.series columns name input)
  | draw (kind : below.kind = .draw) (columns : List String) (name : Expr) (chart : Chart) :
      SeriesOver below (.series columns name (.draw chart))
  | series (kind : below.kind = .series) (columns : List String) (name : Expr) (columns' : List String)
      (name' : Expr) (input : Plan) :
      SeriesOver below (.series columns name (.series columns' name' input))

/-- A planned SERIES has a name and a statement that starts with a select list, a SELECT or else a
chart or another SERIES; its plan is a series over the plan of that. -/
theorem series_over (kind : statement.kind = .series) {p : Plan}
    (made : (buildPlan env statement).result = .ok p) :
    ∃ name below list, statement.children = [name, below] ∧ below.selectList? = some list ∧
      SeriesOver below p := by
  obtain ⟨depth, same⟩ := plan_step env statement
  rw [buildPlan_eq_ok, same] at made
  rcases step_eq_ok made with alone | ⟨_, rest, input, asked, inner, around⟩
  · cases alone with
    | rows _ _ kind' => cases kind.symm.trans kind'
    | draw _ kind' => cases kind.symm.trans kind'
  · cases asked with
    | limit kind' => cases kind.symm.trans kind'
    | group kind' => cases kind.symm.trans kind'
    | @series name below list rs _ children found =>
      refine ⟨name, below, list, children, found, ?_⟩
      cases around with
      | series =>
        have planned := planWithin_kind inner
        rw [Node.withList_kind] at planned
        cases input with
        | draw chart => exact .draw planned _ _ chart
        | series columns' name' input' => exact .series planned _ _ columns' name' input'
        | _ => exact .select planned _ _ (by simp [Plan.name])

theorem series_over_sales : ∃ name below list, salesByNet.children = [name, below] ∧
    below.selectList? = some list ∧ SeriesOver below salesByNetPlan := by
  have made : (buildPlan salesEnvironment salesByNet).result = .ok salesByNetPlan := by decide +kernel
  exact series_over rfl made

/-- SERIES "sales" over a bar chart that has a select list. -/
def salesChart : Node :=
  .seriesNamed "sales" { Node.draw .bar with children := [{ kind := .selectList }] }

/-- SERIES "sales" over a SERIES that has a select list for a name. -/
def salesTwiceNamed : Node :=
  .seriesNamed "sales" (.seriesFrom { kind := .selectList } (.select [.column "city", .table "sales"]))

/-- A chart with a select list is planned as the input of a series, and so is a SERIES with one. -/
theorem series_over_others_planned :
    (buildPlan salesEnvironment salesChart).result =
      .ok (.series ["series"] (.literal (.utf8 "sales")) (.draw .bar)) ∧
    (buildPlan salesEnvironment salesTwiceNamed).result =
      .ok (.series ["series"] (.literal (.utf8 "sales")) (.series ["series", "city"] (.list [])
        (.tableScan "sales" ["city"] ⟨.list [.column 0], 0⟩ none))) := by
  decide +kernel

end Planning

end StatementPlan
