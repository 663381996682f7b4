/-
Where plans call aggregates: only in the list of a grouping, which keeps the bytes of just those
calls.  What decides whether a SELECT is grouped has no part in this, and may go by other symbols;
it is enough that no other expression is let into a plan with bytes of state.

`step_aggregates`: a step keeps to that, if the plan that it is over does.
`aggregates_only_grouped`: so does every plan.
-/
import StatementPlan.Proofs.Expression.Charges
import StatementPlan.Proofs.Planning.Layers
import StatementPlan.Proofs.Planning.Scope

namespace StatementPlan

/-- The expression calls no aggregate, and needs no state. -/
structure Compiled.Stateless (c : Compiled) : Prop where
  quiet : c.expr.aggregates = []
  scratchpad : c.scratchpad = 0

/-- Only groupings call aggregates, in their lists, and a grouping has the bytes of those that its
own list calls. -/
def Plan.AggregatesGrouped (table : SymbolTable) : Plan → Prop
  | tableScan _ _ select predicate => select.Stateless ∧ ∀ c ∈ predicate, c.Stateless
  | tablelessSelect _ select => select.Stateless
  | limit _ _ input => input.AggregatesGrouped table
  | groupBy _ select keys scratchpad input =>
    Charged table select.aggregates scratchpad ∧ keys.aggregates = [] ∧ input.AggregatesGrouped table
  | series _ name input => name.aggregates = [] ∧ input.AggregatesGrouped table
  | draw _ => True

/-- What compiles without bytes calls no aggregate. -/
theorem stateless_of_compile {table : SymbolTable} (sized : table.Sized) {n : Node} {c : Compiled}
    (h : compile table n = .ok c) (none : c.scratchpad = 0) : c.Stateless := by
  have charged := compile_charged h
  rw [none] at charged
  exact ⟨charged.quiet sized, none⟩

namespace Planning

variable {env : Environment} {statement : Node}

theorem Alone.aggregates (sized : env.calls.Sized) {p : Plan} (h : Alone env statement p) :
    p.AggregatesGrouped env.calls := by
  cases h with
  | draw => trivial
  | rows _ rows =>
    cases rows with
    | constants _ compiled none => exact stateless_of_compile sized compiled none
    | scan _ _ compiled none filtered =>
      refine ⟨stateless_of_compile sized compiled none, ?_⟩
      rintro c rfl
      generalize RowSource.condition? statement = condition? at filtered
      obtain ⟨made⟩ := mapM_option_eq_ok.1 filtered
      obtain ⟨m, _, compiled', none'⟩ := predicateOf_eq_ok.1 made
      exact stateless_of_compile sized compiled' none'

theorem Over.aggregates (sized : env.calls.Sized) {layer : Layer} {input p : Plan}
    (h : Over env statement input layer p) (inner : input.AggregatesGrouped env.calls) :
    p.AggregatesGrouped env.calls := by
  cases h with
  | limit => exact inner
  | group selected grouped none =>
    exact ⟨compile_charged selected, (stateless_of_compile sized grouped none).quiet, inner⟩
  | series compiled none => exact ⟨(stateless_of_compile sized compiled none).quiet, inner⟩

/-- A step calls aggregates only in the list of a grouping, if the plan that it is over does. -/
theorem step_aggregates (sized : env.calls.Sized) {below : Node → Run Plan}
    (inner : ∀ rest input, (below rest).result = .ok input → input.AggregatesGrouped env.calls)
    {p : Plan} (h : (step env below statement).result = .ok p) : p.AggregatesGrouped env.calls := by
  rcases step_eq_ok h with alone | ⟨layer, rest, input, _, made, around⟩
  · exact alone.aggregates sized
  · exact around.aggregates sized (inner rest input made)

theorem planWithin_aggregates (sized : env.calls.Sized) {depth : Nat} {p : Plan}
    (h : (planWithin env depth statement).result = .ok p) : p.AggregatesGrouped env.calls := by
  induction depth generalizing statement p with
  | zero => cases h
  | succ depth ih => exact step_aggregates sized (fun _ _ made => ih made) h

/-- Every plan calls aggregates only in the lists of its groupings. -/
theorem aggregates_only_grouped (sized : env.calls.Sized) {p : Plan}
    (made : (buildPlan env statement).result = .ok p) : p.AggregatesGrouped env.calls :=
  planWithin_aggregates sized (buildPlan_eq_ok.1 made)

theorem aggregates_only_grouped_sales : salesByNetPlan.AggregatesGrouped salesEnvironment.calls := by
  have planned : (buildPlan salesEnvironment salesByNet).result = .ok salesByNetPlan := by
    decide +kernel
  exact aggregates_only_grouped Registry.builtins_sized planned

end Planning

end StatementPlan
