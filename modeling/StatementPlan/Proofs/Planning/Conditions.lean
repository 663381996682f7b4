/-
Aggregates in the condition of a SELECT.  The condition goes along through all limits and groupings
down to the scan, where it may not need any bytes.  So whatever calls an aggregate there is refused,
unless that aggregate is registered without bytes: a scan takes such a condition as it is.

`Below.same_condition`: the statement below a SELECT has its condition.
`planWithin_condition`: the functions that the condition of a planned SELECT calls have no bytes.
`aggregate_in_condition_refused`: a SELECT with an aggregate in its condition has no plan.
-/
import StatementPlan.Proofs.Expression.Evaluated
import StatementPlan.Proofs.Planning.Layers
import StatementPlan.Proofs.Planning.Clauses

namespace StatementPlan

namespace Planning

open RowSource

variable {env : Environment} {statement rest condition : Node}

theorem Below.same_condition {layer : Layer} (h : Below env statement layer rest)
    (kind : statement.kind = .select) : rest.kind = .select ∧ condition? rest = condition? statement := by
  cases h with
  | limit =>
    refine ⟨kind, ?_⟩
    rw [condition?, condition?, Node.findChild?_withoutFirstLimit _ (by simp)]
  | group _ _ found =>
    refine ⟨kind, ?_⟩
    rw [condition?, condition?, findChild?_ungrouped found rfl (by simp) (by simp)]
  | series series => cases kind.symm.trans series

/-- The functions that the condition calls are known, and have no bytes. -/
def Unpaid (table : SymbolTable) (condition : Node) : Prop :=
  ∀ name ∈ condition.callees, ∃ s, table name = some s ∧ s.scratchpad = 0

theorem predicate_unpaid {table : String} {columns : List String} {c : Compiled}
    (h : predicateOf env table columns condition = .ok c) : Unpaid env.calls condition := by
  obtain ⟨m, placed, compiled, none⟩ := predicateOf_eq_ok.1 h
  intro name called
  rw [placed.callees] at called
  obtain ⟨s, known, paid⟩ := compile_charges compiled called
  exact ⟨s, known, by omega⟩

theorem RowsOf.unpaid {list : Node} {p : Plan} (h : RowsOf env statement list p)
    (found : condition? statement = some condition) : Unpaid env.calls condition := by
  cases h with
  | scan _ _ _ _ filtered =>
    rw [found] at filtered
    obtain ⟨made⟩ := mapM_option_eq_ok.1 filtered
    exact predicate_unpaid made
  | constants _ _ _ _ _ unfiltered =>
    obtain ⟨clause, here, _⟩ := Option.bind_eq_some_iff.1 found
    rw [Node.hasChild_eq_isSome, here] at unfiltered
    cases unfiltered

/-- What a step plans has no bytes in its condition, if that holds of the plans below. -/
theorem step_condition {below : Node → Run Plan} {p : Plan} (kind : statement.kind = .select)
    (found : condition? statement = some condition)
    (inner : ∀ {rest input}, rest.kind = .select → condition? rest = some condition →
      (below rest).result = .ok input → Unpaid env.calls condition)
    (h : (step env below statement).result = .ok p) : Unpaid env.calls condition := by
  rcases step_eq_ok h with alone | ⟨_, rest, _, asked, made, _⟩
  · cases alone with
    | rows _ rows => exact rows.unpaid found
    | draw _ draw => cases kind.symm.trans draw
  · obtain ⟨kind', same⟩ := asked.same_condition kind
    exact inner kind' (same.trans found) made

theorem planWithin_condition {depth : Nat} {p : Plan} (kind : statement.kind = .select)
    (found : condition? statement = some condition)
    (h : (planWithin env depth statement).result = .ok p) : Unpaid env.calls condition := by
  induction depth generalizing statement p with
  | zero => cases h
  | succ depth ih => exact step_condition kind found (fun kind found made => ih kind found made) h

/-- A SELECT whose condition calls an aggregate that has bytes of state has no plan. -/
theorem aggregate_in_condition_refused (kind : statement.kind = .select)
    (found : condition? statement = some condition) {name : String} {s : Symbol}
    (called : name ∈ condition.callees) (known : env.calls name = some s) (bytes : s.scratchpad ≠ 0) :
    ∃ stop, (buildPlan env statement).result = .error stop := by
  cases made : (buildPlan env statement).result with
  | error stop => exact ⟨stop, rfl⟩
  | ok p =>
    obtain ⟨s', known', none⟩ := planWithin_condition kind found (buildPlan_eq_ok.1 made) name called
    obtain rfl := Option.some.inj (known.symm.trans known')
    exact absurd none bytes

/-- SELECT city, sum(total) FROM sales WHERE total > 2 * mean(tax) GROUP BY city LIMIT 3 -/
def salesAboveMean : Node :=
  .select [.column "city", .item (.call "sum" [.column "total"]), .table "sales",
    .filter (.binary (.operator .gt) (.column "total")
      (.binary (.operator .mul) (.int 2) (.call "mean" [.column "tax"]))),
    .groupBy (.column "city"), .limit 3 none]

theorem aggregate_in_condition_refused_sales :
    (∃ condition, condition? salesAboveMean = some condition ∧ "mean" ∈ condition.callees) ∧
      ∃ stop, (buildPlan salesEnvironment salesAboveMean).result = .error stop := by
  have called : "mean" ∈ (Node.binary (.operator .gt) (.column "total") (.binary (.operator .mul)
      (.int 2) (.call "mean" [.column "tax"]))).callees := by decide +kernel
  have known : salesEnvironment.calls "mean" = some (.aggregate "mean" 16) := by decide +kernel
  exact ⟨⟨_, rfl, called⟩, aggregate_in_condition_refused rfl rfl called known (by decide)⟩

/-- The surroundings of the sales with one more aggregate, which keeps no state. -/
def flagEnvironment : Environment :=
  .ofRegistry {} (Registry.builtins.register (.aggregate "flag" 0))
    (Catalog.register {} "sales" ["city", "total", "tax"])

/-- SELECT city FROM sales WHERE flag(total) -/
def salesFlagged : Node :=
  .select [.column "city", .table "sales", .filter (.call "flag" [.column "total"])]

/-- An aggregate without bytes of state is let into a condition. -/
theorem aggregate_in_condition_planned :
    (∃ condition s, condition? salesFlagged = some condition ∧ "flag" ∈ condition.callees ∧
      flagEnvironment.calls "flag" = some s ∧ s.isAggregate = true) ∧
    (buildPlan flagEnvironment salesFlagged).result =
      .ok (.tableScan "sales" ["city"] ⟨.list [.column 0], 0⟩
        (some ⟨.call "flag" true [.column 1], 0⟩)) := by
  have called : "flag" ∈ (Node.call "flag" [.column "total"]).callees := by decide +kernel
  have known : flagEnvironment.calls "flag" = some (.aggregate "flag" 0) := by decide +kernel
  exact ⟨⟨_, _, rfl, called, known, rfl⟩, by decide +kernel⟩

end Planning

end StatementPlan
