/-
What the plan of a SELECT computes.  Its entries are the select list compiled over the columns of
the table, as if nothing had been pushed down, and the keys of a grouping are the expressions of
the group clauses.

`substitute_placed`: the columns of a placed tree, put back, make the tree over the table.
`grouping_preserves_meaning`: the split of a grouped SELECT keeps its list and its keys.
`plan_computes`: what the plan of any SELECT without a wildcard computes.
-/
import StatementPlan.Planning.Entry
import StatementPlan.Proofs.Planning.Grouping

namespace StatementPlan

namespace Planning

variable {env : Environment} {statement source : Node}

theorem reads_unique {table? : Option String} {r : Node} {i j : Nat} (h : env.Reads table? r i)
    (h' : env.Reads table? r j) : i = j := by
  obtain ⟨table, columns, rfl, known, here⟩ := h
  obtain ⟨table', columns', same, known', there⟩ := h'
  obtain rfl := Option.some.inj same
  obtain rfl := Option.some.inj (known.symm.trans known')
  exact Option.some.inj (here.symm.trans there)

/-- The columns of a placed tree, put back, make the tree over the table. -/
theorem substitute_placed {R : Node → Nat → Prop} {table? : Option String} {entries : List Expr}
    (known : ∀ table ∈ table?, ∃ columns, env.columns? table = some columns)
    (columns : ∀ {r i}, R r i → ∃ j, entries[i]? = some (.column j) ∧ env.Reads table? r j)
    {n m : Node} (unplaced : n.Unplaced) (placed : Placed R n m) {c : Compiled}
    (compiled : compile env.calls m = .ok c) :
    ∃ e, c.expr.substitute? entries = some e ∧ env.compileOver table? n = .ok ⟨e, c.scratchpad⟩ := by
  have positions : ∀ r ∈ n.references, ∃ j, env.Reads table? r j := by
    intro r mem
    obtain ⟨i, here⟩ := exists_placed_iff.1 ⟨m, placed⟩ r mem
    obtain ⟨j, _, reads⟩ := columns here
    exact ⟨j, reads⟩
  obtain ⟨resolved, direct⟩ := exists_placed_iff.2 positions
  have alike := compile_placed env.calls unplaced placed direct
  rw [compiled] at alike
  obtain ⟨⟨e, bytes⟩, compiled', renamed, rfl⟩ := alike.ok_left
  refine ⟨e, renamed.substitute? ?_, (compileOver_placed known direct).trans compiled'⟩
  intro i j h
  obtain ⟨r, here, reads⟩ := h
  obtain ⟨j', entry, reads'⟩ := columns here
  rw [entry, reads_unique reads' reads]

theorem columnList_plain (rs : List Node) : (columnList rs).hasChild .all = false :=
  Node.hasChild_extend ..

/-- A grouping computes the list and the keys of its SELECT over the table. -/
theorem GroupedBy.substituted {columns : List String} {select keys : Expr} {pad : Nat} {input : Plan}
    (h : GroupedBy env statement source (.groupBy columns select keys pad input))
    (unplaced : statement.Unplaced) (found : statement.selectList? = some source) :
    ∃ rest list entries e k, RowsOf env rest list input ∧ list.kind = .selectList ∧
      input.entries? = some entries ∧ select.substitute? entries = some e ∧
      env.compileOver input.table? source = .ok ⟨e, pad⟩ ∧ keys.substitute? entries = some k ∧
      env.compileOver input.table? (.ofChildren .groupBy (groupKeys statement)) = .ok ⟨k, 0⟩ := by
  cases h with
  | @intro list keys select group _ plain listPlaced keysPlaced selected grouped stateless rows =>
    obtain ⟨entries, read, meant, _⟩ := rows.entries rfl (columnList_plain _)
    have known := known_of_compileOver meant
    have each : ∀ {r i}, ColumnAt (neededColumns env statement source) r i →
        ∃ j, entries[i]? = some (.column j) ∧ env.Reads input.table? r j := fun here =>
      entries_itemAt rfl meant ((itemAt_columnList neededColumns_kind).2 here)
    obtain ⟨e, listed, direct⟩ := substitute_placed known each (unplaced_list unplaced found)
      listPlaced selected
    obtain ⟨k, keyed, direct'⟩ := substitute_placed known each (unplaced_keys unplaced) keysPlaced grouped
    rw [stateless] at direct'
    exact ⟨_, _, entries, e, k, rows, rfl, read, listed, direct, keyed, direct'⟩

/-- A select list and group keys mean over a row source what they do without the split: the
columns that the source makes, put back, give them bound to the table and compiled. -/
inductive SplitOver (env : Environment) (list : Node) (keys : List Node) (select group : Expr)
    (pad : Nat) : Plan → Prop
  | scan {table : String} {names columns : List String} {leaf : Compiled}
      {predicate : Option Compiled} {entries : List Expr} {list' : Node} {keys' : List Node}
      {e k : Expr} (known : env.columns? table = some columns) (items : leaf.expr = .list entries)
      (listBound : Columns.bind table columns list = .ok list')
      (keysBound : Columns.bindAll table columns keys = .ok keys')
      (listCompiled : compile env.calls list' = .ok ⟨e, pad⟩)
      (keysCompiled : compile env.calls (.ofChildren .groupBy keys') = .ok ⟨k, 0⟩)
      (listRestored : select.substitute? entries = some e)
      (keysRestored : group.substitute? entries = some k) :
      SplitOver env list keys select group pad (.tableScan table names leaf predicate)
  | constants {names : List String} {leaf : Compiled}
      (listFree : ∀ m ∈ list.subtrees, m.kind ≠ .columnName)
      (keysFree : ∀ key ∈ keys, ∀ m ∈ key.subtrees, m.kind ≠ .columnName)
      (listCompiled : compile env.calls list = .ok ⟨select, pad⟩)
      (keysCompiled : compile env.calls (.ofChildren .groupBy keys) = .ok ⟨group, 0⟩) :
      SplitOver env list keys select group pad (.tablelessSelect names leaf)

theorem GroupedBy.splitOver {columns : List String} {select keys : Expr} {pad : Nat} {input : Plan}
    (h : GroupedBy env statement source (.groupBy columns select keys pad input))
    (unplaced : statement.Unplaced) (found : statement.selectList? = some source) :
    SplitOver env source (groupKeys statement) select keys pad input := by
  have split := h
  cases h with
  | @intro list keys select group _ plain listPlaced keysPlaced selected grouped stateless rows =>
    obtain ⟨entries, read, meant, _⟩ := rows.entries rfl (columnList_plain _)
    cases rows with
    | @scan table columns items leaf predicate known _ _ _ _ =>
      obtain ⟨_, _, entries', e, k, _, _, read', listed, direct, keyed, direct'⟩ :=
        split.substituted unplaced found
      obtain rfl := Option.some.inj (read.symm.trans read')
      simp only [Plan.table?, Environment.compileOver, known, bind_eq_ok_iff, orFail_eq_ok,
        bound_eq_ok] at direct direct'
      obtain ⟨list', placed, compiled⟩ := direct
      obtain ⟨keys', placed', compiled'⟩ := direct'
      cases placed' with
      | column other => cases other
      | inner _ below =>
        exact .scan known (Expr.items?_eq_some.1 read) (bind_eq_ok_iff_placed.2 placed)
          ((bindAll_eq_ok_iff_placed fun _ _ _ => bind_eq_ok_iff_placed).2 below) compiled compiled'
          listed keyed
    | @constants leaf _ compiled none =>
      -- a column needed would be one of a table, and there is none
      have empty : neededColumns env statement source = [] := by
        refine List.eq_nil_iff_forall_not_mem.2 fun r mem => ?_
        obtain ⟨i, here⟩ := List.mem_iff_getElem?.1 mem
        obtain ⟨_, _, table, _, from', _⟩ := entries_itemAt rfl meant
          ((itemAt_columnList neededColumns_kind).2 here)
        cases from'
      obtain ⟨listFree, keysFree⟩ := references_of_neededColumns_nil empty
      rw [listPlaced.eq_self listFree] at selected
      have free : (Node.ofChildren .groupBy (groupKeys statement)).references = [] :=
        (Node.references_ofChildren (by simp) _).trans keysFree
      rw [keysPlaced.eq_self free] at grouped
      refine .constants (Node.no_columnName listFree) ?_ selected ?_
      · intro key mem
        rw [Node.referencesAll_eq_flatMap, List.flatMap_eq_nil_iff] at keysFree
        exact Node.no_columnName (keysFree key mem)
      · rw [grouped, ← stateless]

/-- The split of a grouped SELECT keeps the meaning of its list and its keys. -/
theorem grouping_preserves_meaning (complete : env.Complete) (kind : statement.kind = .select)
    (unplaced : statement.Unplaced) {p input : Plan} {columns : List String} {select keys : Expr}
    {pad : Nat} (planned : (buildPlan env statement).result = .ok p)
    (grouped : p.core = .groupBy columns select keys pad input) :
    ∃ list, statement.withoutLimits.selectList? = some list ∧
      SplitOver env list (groupKeys statement) select keys pad input := by
  rw [buildPlan_eq_ok] at planned
  refine plan_select_ok (P := fun p => p.core = .groupBy columns select keys pad input → ∃ list,
    statement.withoutLimits.selectList? = some list ∧
      SplitOver env list (groupKeys statement) select keys pad input)
    complete kind (fun _ _ h => h) ?_ planned grouped
  intro list q found ways core
  rcases ways with split | rows
  · have same : q = .groupBy columns select keys pad input := by
      cases split
      exact core
    subst same
    have meaning := split.splitOver unplaced.withoutLimits found
    rw [Node.groupKeys_withoutLimits] at meaning
    exact ⟨list, found, meaning⟩
  · cases rows <;> cases core

/-- The standard surroundings with one table. -/
def salesEnvironment : Environment :=
  .standard (Catalog.register {} "sales" ["city", "total", "tax"])

/-- SELECT sum(total + tax) AS gross, city FROM sales GROUP BY city LIMIT 3 -/
def salesByCity : Node :=
  .select [
    .itemAs (.call "sum" [.binary (.operator .add) (.column "total") (.column "tax")]) "gross",
    .column "city", .table "sales", .groupBy (.column "city"), .limit 3 none]

theorem grouping_preserves_meaning_sales :
    ∃ list, salesByCity.withoutLimits.selectList? = some list ∧
      SplitOver salesEnvironment list (groupKeys salesByCity)
        (.list [.call "sum" true [.call "add" false [.column 0, .column 1]], .column 2])
        (.list [.column 2]) 8
        (.tableScan "sales" ["total", "tax", "city"]
          ⟨.list [.column 1, .column 2, .column 0], 0⟩ none) := by
  have planned : (buildPlan salesEnvironment salesByCity).result =
      .ok (.limit 3 0 (.groupBy ["gross", "city"]
        (.list [.call "sum" true [.call "add" false [.column 0, .column 1]], .column 2])
        (.list [.column 2]) 8
        (.tableScan "sales" ["total", "tax", "city"]
          ⟨.list [.column 1, .column 2, .column 0], 0⟩ none))) := by decide +kernel
  exact grouping_preserves_meaning (fun _ => rfl) rfl (by decide +kernel) planned rfl

/-- The plan's entries are the items of the list, and the keys of its grouping those given, over
the columns of the table. -/
structure Computes (env : Environment) (keys : List Node) (list : Node) (p : Plan) : Prop where
  entries : ∃ es pad, p.entries? = some es ∧ env.compileOver p.table? list = .ok ⟨.list es, pad⟩
  keys : ∃ ks, p.keys? = some ks ∧ ks.length = p.stages.countP Stage.groups ∧ ∀ k ∈ ks,
    env.compileOver p.table? (.ofChildren .groupBy keys) = .ok ⟨k, 0⟩
  width : p.outputColumns.length = list.children.length

theorem compileOver_selectList {table? : Option String} {list : Node} (kind : list.kind = .selectList)
    {c : Compiled} (h : env.compileOver table? list = .ok c) : ∃ es, c.expr = .list es := by
  cases table? with
  | none =>
    obtain ⟨es, _, whole⟩ := (compile_list_eq_ok kind).1 h
    exact ⟨es, whole⟩
  | some table =>
    obtain ⟨columns, known⟩ := known_of_compileOver h table rfl
    obtain ⟨_, es, _, _, whole⟩ := (compileOver_list_eq_ok known kind).1 h
    exact ⟨es, whole⟩

theorem RowsOf.computes {list : Node} {p : Plan} (h : RowsOf env statement list p)
    (kind : list.kind = .selectList) (plain : list.hasChild .all = false) (keys : List Node) :
    Computes env keys list p := by
  obtain ⟨es, read, meant, width⟩ := h.entries kind plain
  refine ⟨⟨es, 0, read, meant⟩, ⟨[], ?_⟩, width⟩
  cases h with
  | scan => exact ⟨rfl, rfl, by simp⟩
  | constants => exact ⟨rfl, rfl, by simp⟩

theorem GroupedBy.computes {p : Plan} (h : GroupedBy env statement source p)
    (unplaced : statement.Unplaced) (found : statement.selectList? = some source) :
    Computes env (groupKeys statement) source p := by
  obtain ⟨columns, select, keys, pad, input, rfl⟩ : ∃ columns select keys pad input,
      p = .groupBy columns select keys pad input := by
    cases h
    exact ⟨_, _, _, _, _, rfl⟩
  obtain ⟨rest, list, entries, e, k, rows, kind, read, listed, direct, keyed, direct'⟩ :=
    h.substituted unplaced found
  obtain ⟨es, rfl⟩ := compileOver_selectList (Node.selectList?_kind found) direct
  refine ⟨⟨es, pad, ?_, direct⟩, ⟨[k], ?_, ?_, ?_⟩, ?_⟩
  · simp [Plan.entries?, read, listed, Expr.items?]
  · cases rows <;> simp [Plan.keys?, read, keyed]
  · cases rows <;> rfl
  · exact fun k' mem => List.mem_singleton.1 mem ▸ direct'
  · cases h
    exact List.length_map ..

theorem Computes.limit {keys : List Node} {list : Node} {p : Plan} (h : Computes env keys list p)
    (count offset : Nat) : Computes env keys list (.limit count offset p) := by
  obtain ⟨ks, read, length, each⟩ := h.keys
  exact ⟨h.entries, ⟨ks, read, by simpa [Plan.stages, Stage.groups] using length, each⟩, h.width⟩

/-- What the plan of a SELECT without a wildcard computes. -/
theorem plan_computes (complete : env.Complete) (kind : statement.kind = .select)
    (unplaced : statement.Unplaced) {list : Node}
    (found : statement.withoutLimits.selectList? = some list) (plain : list.hasChild .all = false)
    {p : Plan} (planned : (plan env statement).result = .ok p) :
    Computes env (groupKeys statement) list p := by
  refine plan_select_ok complete kind (fun count offset h => h.limit count offset) ?_ planned
  intro list' q found' ways
  obtain rfl := Option.some.inj (found.symm.trans found')
  rcases ways with split | rows
  · have computed := split.computes unplaced.withoutLimits found
    rw [Node.groupKeys_withoutLimits] at computed
    exact computed
  · exact rows.computes (Node.selectList?_kind found) plain _

end Planning

end StatementPlan
