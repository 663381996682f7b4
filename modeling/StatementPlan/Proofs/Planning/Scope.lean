/-
No plan reads a column that is not there: scans read columns of their table, groupings and series
those of their input, and rows of constants none.

`compile_lt`: a placed tree compiles to an expression over the positions it was placed at.
`plan_wellScoped`: so it is everywhere in a plan.
-/
import StatementPlan.Proofs.Planning.Series

namespace StatementPlan

/-- Every position in the plan is that of a column which the rows below have. -/
def Plan.WellScoped (columns? : String → Option (List String)) : Plan → Prop
  | .tableScan table _ select predicate => ∃ columns, columns? table = some columns ∧
    (∀ i ∈ select.expr.columns, i < columns.length) ∧
    ∀ c ∈ predicate, ∀ i ∈ c.expr.columns, i < columns.length
  | .tablelessSelect _ select => select.expr.columns = []
  | .limit _ _ input => WellScoped columns? input
  | .groupBy _ select keys _ input => (∀ i ∈ select.columns, i < input.outputColumns.length) ∧
    (∀ i ∈ keys.columns, i < input.outputColumns.length) ∧ WellScoped columns? input
  | .series _ name input => (∀ i ∈ name.columns, i < input.outputColumns.length) ∧
    WellScoped columns? input
  | .draw _ => True

namespace Planning

open RowSource

variable {env : Environment} {statement source name select list : Node}

theorem compile_lt {R : Node → Nat → Prop} {n m : Node} {width : Nat} (unplaced : n.Unplaced)
    (placed : Placed R n m) (inside : ∀ {r i}, R r i → i < width) {c : Compiled}
    (h : compile env.calls m = .ok c) : ∀ i ∈ c.expr.columns, i < width := by
  intro i mem
  obtain ⟨p, part, resolved, found⟩ := compile_columns h i mem
  obtain ⟨r, j, here, found'⟩ := placed.positions unplaced p part resolved
  obtain rfl := Option.some.inj (found.symm.trans found')
  exact inside here

theorem unplaced_condition {condition : Node} (unplaced : statement.Unplaced)
    (h : condition? statement = some condition) : condition.Unplaced := by
  obtain ⟨clause, found, head⟩ := Option.bind_eq_some_iff.1 h
  exact (unplaced.child (List.mem_of_find?_eq_some found)).child (List.mem_of_mem_head? head)

theorem RowsOf.wellScoped {p : Plan} (h : RowsOf env statement source p)
    (unplaced : statement.Unplaced) (found : statement.selectList? = some source) :
    p.WellScoped env.columns? := by
  have list := unplaced_list unplaced found
  cases h with
  | @scan table columns items select predicate known listed compiled _ filtered =>
    refine ⟨columns, known, ?_, ?_⟩
    · intro i mem
      obtain ⟨m, part, resolved, here⟩ := compile_columns compiled i mem
      simp only [Node.ofChildren, Node.subtrees, List.mem_cons, Node.mem_subtreesAll,
        List.mem_map] at part
      rcases part with rfl | ⟨_, ⟨item, mem, rfl⟩, part⟩
      · cases resolved
      · obtain ⟨j, there, inside⟩ := scanItems_positions (fun n mem => list.child mem) listed item mem
          m part resolved
        obtain rfl := Option.some.inj (here.symm.trans there)
        exact inside
    · rintro c rfl
      generalize taken : condition? statement = condition? at filtered
      obtain ⟨made⟩ := mapM_option_eq_ok.1 filtered
      obtain ⟨m, placed, compiled', _⟩ := predicateOf_eq_ok.1 made
      exact compile_lt (unplaced_condition unplaced taken) placed Columns.position?_lt compiled'
  | constants _ compiled _ =>
    refine List.eq_nil_iff_forall_not_mem.2 fun i mem => ?_
    obtain ⟨m, part, resolved, _⟩ := compile_columns compiled i mem
    exact list m part resolved

theorem unplaced_below (unplaced : statement.Unplaced) (found : statement.selectList? = some source) :
    (ungrouped statement (columnList (neededColumns env statement source))).Unplaced := by
  have list := unplaced_list unplaced found
  have keys := unplaced_keys unplaced
  refine Node.unplaced_iff.2 ⟨unplaced.root, fun c mem => ?_⟩
  rcases List.mem_cons.1 mem with rfl | mem
  · refine Node.Unplaced.extend (by decide) fun r mem => ?_
    rcases List.mem_append.1 (PushDown.mem_of_mem_fresh mem) with mem | mem
    · exact list.references r mem
    · exact keys.references r (by rwa [Node.references_ofChildren (by simp)])
  · exact unplaced.child (List.mem_of_mem_tail (List.mem_filter.1 mem).1)

theorem GroupedBy.wellScoped {p : Plan} (h : GroupedBy env statement source p)
    (unplaced : statement.Unplaced) (found : statement.selectList? = some source) :
    p.WellScoped env.columns? := by
  cases h with
  | @intro list keys select group input _ listPlaced keysPlaced selected grouped _ rows =>
    obtain ⟨_, _, _, width⟩ := rows.entries rfl (columnList_plain _)
    have inside : ∀ {r i}, ColumnAt (neededColumns env statement source) r i →
        i < input.outputColumns.length := by
      intro r i here
      obtain ⟨bound, _⟩ := List.getElem?_eq_some_iff.1 here
      simpa [width, columnList, Node.extend] using bound
    have below := rows.wellScoped (unplaced_below unplaced found) (ungrouped_shape statement rfl).1
    exact ⟨compile_lt (unplaced_list unplaced found) listPlaced inside selected,
      compile_lt (unplaced_keys unplaced) keysPlaced inside grouped, below⟩

theorem select_wellScoped (complete : env.Complete) (kind : statement.kind = .select)
    (unplaced : statement.Unplaced) {p : Plan} (planned : (plan env statement).result = .ok p) :
    p.WellScoped env.columns? := by
  refine plan_select_ok complete kind (fun _ _ h => h) ?_ planned
  intro list q found ways
  rcases ways with split | rows
  · exact split.wellScoped unplaced.withoutLimits found
  · exact rows.wellScoped unplaced.withoutLimits found

theorem series_fixed_wellScoped (complete : env.Complete) (kind : statement.kind = .series)
    (children : statement.children = [name, select]) (selectKind : select.kind = .select)
    (found : select.selectList? = some list) (fixed : name.kind = .seriesName)
    (unplaced : statement.Unplaced) {p : Plan} (planned : (plan env statement).result = .ok p) :
    p.WellScoped env.columns? := by
  have part : select ∈ statement.children := by simp [children]
  rw [plan_series_fixed kind children found fixed] at planned
  split at planned
  · cases planned
  · obtain ⟨input, c, made, compiled, _, rfl⟩ := seriesOver_eq_ok planned
    have below := select_wellScoped complete selectKind (unplaced.child part) made
    refine ⟨fun i mem => ?_, below⟩
    -- the name is a literal, and a literal reads no column
    obtain ⟨m, inside, resolved, _⟩ := compile_columns compiled i mem
    simp only [Node.ofToken, Node.subtrees, Node.subtreesAll, List.mem_singleton] at inside
    subst inside
    cases resolved

theorem series_computed_wellScoped (complete : env.Complete) (kind : statement.kind = .series)
    (children : statement.children = [name, select]) (selectKind : select.kind = .select)
    (found : select.selectList? = some list) (computed : name.kind ≠ .seriesName)
    (unplaced : statement.Unplaced) {p : Plan} (planned : (plan env statement).result = .ok p) :
    p.WellScoped env.columns? := by
  have unplacedName : name.Unplaced := unplaced.child (by simp [children])
  have unplacedSelect : select.Unplaced := unplaced.child (by simp [children])
  obtain ⟨name', placed, shape⟩ := plan_series_computed env kind children selectKind found computed
  rw [shape] at planned
  split at planned
  · cases planned
  · rename_i wildcard
    have plain := Bool.eq_false_iff.2 wildcard
    obtain ⟨input, c, made, compiled, _, rfl⟩ := seriesOver_eq_ok planned
    have below := select_wellScoped complete (by exact selectKind)
      (unplaced_named unplacedSelect unplacedName found) made
    have computes := named_computes complete selectKind found plain unplacedSelect unplacedName made
    -- the name was placed at items of the list, and the plan below has a column for each of them
    refine ⟨compile_lt unplacedName placed ?_ compiled, below⟩
    intro r i item
    obtain ⟨item, here, _⟩ := item
    rw [computes.width]
    exact (List.getElem?_eq_some_iff.1 here).1

/-- No plan reads a column that is not there. -/
theorem plan_wellScoped (complete : env.Complete) (unplaced : statement.Unplaced)
    (overSelect : statement.SeriesOfSelect) {p : Plan}
    (planned : (buildPlan env statement).result = .ok p) : p.WellScoped env.columns? := by
  rw [buildPlan_eq_ok] at planned
  cases kind : statement.kind with
  | select => exact select_wellScoped complete kind unplaced planned
  | series =>
    obtain ⟨name, select, list, children, found⟩ := series_list kind planned
    have selectKind := overSelect name select kind children
    by_cases fixed : name.kind = .seriesName
    · exact series_fixed_wellScoped complete kind children selectKind found fixed unplaced planned
    · exact series_computed_wellScoped complete kind children selectKind found fixed unplaced planned
  | draw =>
    rw [plan_draw kind] at planned
    obtain ⟨chart, rfl⟩ := draw_eq_ok planned
    exact trivial
  | _ =>
    rw [plan_unplanned (by simp [kind]) (by simp [kind]) (by simp [kind])] at planned
    cases planned

/-- SERIES total - tax OF the sales by city -/
def salesByNet : Node :=
  .seriesFrom (.binary (.operator .sub) (.column "total") (.column "tax")) salesByCity

/-- The plan of the series. -/
def salesByNetPlan : Plan :=
  .series ["series", "gross", "city"] (.call "sub" false [.column 2, .column 3])
    (.limit 3 0 (.groupBy ["gross", "city", "total", "tax"]
      (.list [.call "sum" true [.call "add" false [.column 0, .column 1]], .column 2, .column 0,
        .column 1])
      (.list [.column 2]) 8
      (.tableScan "sales" ["total", "tax", "city"]
        ⟨.list [.column 1, .column 2, .column 0], 0⟩ none)))

theorem plan_wellScoped_sales : salesByNetPlan.WellScoped salesEnvironment.columns? := by
  have overSelect : salesByNet.SeriesOfSelect := by
    rintro name select - ⟨⟩
    rfl
  have planned : (buildPlan salesEnvironment salesByNet).result = .ok salesByNetPlan := by
    decide +kernel
  exact plan_wellScoped (fun _ => rfl) (by decide +kernel) overSelect planned

end Planning

end StatementPlan
