/-
Assembled SELECTs as statements: their clauses, and the SELECT below a grouping of one, which is
assembled from the columns that its items and keys name.

`ungrouped_build`: the SELECT below a grouping is assembled too.
`inner_built`, `inner_named`, `inner_scalar`: what its items are made of.
-/
import StatementPlan.Proofs.Expression.Acceptance
import StatementPlan.Proofs.Planning.Clauses

namespace StatementPlan

namespace SelectDraft

variable {d : SelectDraft}

theorem selectList?_build (d : SelectDraft) :
    d.build.selectList? = some (.ofChildren .selectList d.items) := rfl

theorem build_having (d : SelectDraft) : d.build.hasChild .having = d.having.isSome := by
  rw [Node.hasChild_eq_isSome, findChild?_having, Option.isSome_map]

theorem build_orderBy (d : SelectDraft) : d.build.hasChild .orderBy = !d.order.isEmpty := by
  rw [Node.hasChild_eq_isSome, findChild?_orderBy]
  cases d.order <;> rfl

theorem build_groupBy (d : SelectDraft) : d.build.hasChild .groupBy = !d.keys.isEmpty := by
  rw [Node.hasChild_eq_isSome, findChild?_groupBy]
  cases d.keys <;> rfl

theorem build_limits (d : SelectDraft) :
    d.build.limits = d.limit.toList.map fun l => limitClause l.1 l.2 := by
  rw [Node.limits, filter_build d (· == .limit)]
  simp [kept, clauses]

theorem build_withoutLimits (d : SelectDraft) :
    d.build.withoutLimits = { d with limit := none }.build := by
  rw [Node.withoutLimits, filter_build d (· != .limit)]
  simp [kept, build, Node.ofChildren]

theorem groupKeys_build (d : SelectDraft) : Planning.groupKeys d.build = d.keys := by
  rw [Planning.groupKeys, filter_build d (· == .groupBy)]
  cases keys : d.keys <;> simp [kept, clauses, keys, Node.ofChildren]

theorem condition?_build (d : SelectDraft) : RowSource.condition? d.build = d.predicate := by
  rw [RowSource.condition?, build_where]
  cases d.predicate <;> rfl

theorem clauses_eq_nil (d : SelectDraft) : d.clauses = [] ↔
    d.table = none ∧ d.predicate = none ∧ d.keys = [] ∧ d.having = none ∧ d.order = [] ∧ d.limit = none := by
  simp [clauses]

/-- The draft of the SELECT below a grouping. -/
def below (d : SelectDraft) (rs : List Node) : SelectDraft :=
  { d with items := rs.map .derived, keys := [] }

/-- With the columns that the grouping needs. -/
def inner (env : Environment) (d : SelectDraft) : SelectDraft :=
  d.below (Planning.neededColumns env d.build (.ofChildren .selectList d.items))

theorem ungrouped_build (d : SelectDraft) (rs : List Node) :
    Planning.ungrouped d.build (Planning.columnList rs) = (d.below rs).build := by
  rw [Planning.ungrouped, build_children, List.tail_cons, clauses_kept (· != .groupBy)]
  simp [kept, build, below, clauses, Node.ofChildren, Planning.columnList, Node.extend]

end SelectDraft

namespace Planning

variable {env : Environment} {d : SelectDraft}

/-- The columns that are needed below a grouping are those of the items and the keys. -/
theorem mem_neededColumns_build {r : Node} :
    r ∈ neededColumns env d.build (.ofChildren .selectList d.items) ↔
      r ∈ Node.referencesAll (d.items ++ d.keys) := by
  rw [mem_neededColumns, d.groupKeys_build, Node.referencesAll_append]
  rfl

theorem neededColumns_built (built : d.Built) :
    ∀ r ∈ neededColumns env d.build (.ofChildren .selectList d.items), r.Built := by
  intro r mem
  rw [mem_neededColumns_build, Node.referencesAll_eq_flatMap, List.mem_flatMap] at mem
  obtain ⟨n, mem, here⟩ := mem
  rcases List.mem_append.1 mem with item | key
  · exact (built.items n item).references r here
  · exact (built.keys n key).part r (Node.mem_references r here).2

theorem inner_built (built : d.Built) : (d.inner env).Built where
  items := by
    intro item mem
    obtain ⟨r, here, rfl⟩ := List.mem_map.1 mem
    exact .derived (neededColumns_built built r here)
  predicate := built.predicate
  keys := by simp [SelectDraft.inner, SelectDraft.below]
  limit := built.limit

theorem inner_named (built : d.Built) (columns : List String) :
    ColumnsIn columns (Node.subtreesAll (d.inner env).items) ↔
      ColumnsIn columns (Node.subtreesAll (d.items ++ d.keys)) := by
  have bare : ∀ n ∈ d.items ++ d.keys, n.BareNames := fun n mem =>
    (List.mem_append.1 mem).elim (fun item => (built.items n item).bareNames)
      fun key => (built.keys n key).bareNames
  have bareInner := fun n mem => ((@inner_built env d built).items n mem).bareNames
  have same : ∀ r, r ∈ Node.referencesAll (d.inner env).items ↔
      r ∈ Node.referencesAll (d.items ++ d.keys) := fun r => by
    rw [SelectDraft.inner, SelectDraft.below, Node.referencesAll_map_derived neededColumns_kind,
      mem_neededColumns_build]
  simp only [ColumnsIn, ← and_imp, ← Node.mem_referencesAll_iff bare, ← Node.mem_referencesAll_iff bareInner,
    same]

theorem columns_calls {rs : List Node} (built : ∀ r ∈ rs, r.Built)
    (columns : ∀ r ∈ rs, r.kind = .columnName) :
    ∀ n ∈ Node.subtreesAll (rs.map .derived), n.kind ≠ .methodCall := by
  intro n part
  simp only [Node.mem_subtreesAll, List.mem_map] at part
  obtain ⟨_, ⟨r, mem, rfl⟩, part⟩ := part
  have column := columns r mem
  have bare := (built r mem).bareNames r r.self_mem_subtrees column
  obtain ⟨kind, token, children, id⟩ := r
  simp only at bare column
  subst bare column
  simp only [Node.derived, Node.ofChildren, Node.subtrees, Node.subtreesAll, List.append_nil,
    List.mem_cons, List.not_mem_nil, or_false] at part
  rcases part with rfl | rfl
  · simp
  · simp

theorem inner_calls (built : d.Built) :
    ∀ n ∈ Node.subtreesAll (d.inner env).items, n.kind ≠ .methodCall :=
  columns_calls (neededColumns_built built) neededColumns_kind

theorem inner_scalar (built : d.Built) :
    ScalarCalls env.calls (Node.subtreesAll (d.inner env).items) := by
  refine ⟨fun n part call => absurd call (inner_calls built n part), ?_⟩
  rintro ⟨n, part, aggregate⟩
  simp [namesAggregate, inner_calls built n part] at aggregate

end Planning

end StatementPlan
