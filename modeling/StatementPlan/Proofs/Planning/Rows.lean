/-
What row sources make of a SELECT: a scan whose items are bound to the columns of a table, or one
row of constants.

`rows_eq_ok`, `RowsOf.rows_eq`: the rows of a SELECT, if there are any.
`scanItems_placed`: without a wildcard the items are placed one by one.
`scanItems_derived`: pushed columns are bound as a check of one after the other.
`RowsOf.entries`: the rows are the select list compiled over the columns of the table.
-/
import StatementPlan.Proofs.Expression.Placement
import StatementPlan.Proofs.Plan.Views
import StatementPlan.Proofs.Planning.SelectList

namespace StatementPlan

open RowSource

/-- A tree compiled over the columns of a table, or over none as it is. -/
def Environment.compileOver (env : Environment) (table? : Option String) (n : Node) :
    Except Stop Compiled :=
  match table? with
  | none => compile env.calls n
  | some table =>
    match env.columns? table with
    | none => Compile.fail (.rejected (.unknownTable table))
    | some columns => do
      let resolved ← orFail (bound table columns n)
      compile env.calls resolved

/-- The name of the table in a FROM clause. -/
def Node.tableText? (clause : Node) : Option String := (clause.findChild? .tableName).bind Node.text?

/-- The reference names the column of the table at the position. -/
def Environment.Reads (env : Environment) (table? : Option String) (r : Node) (i : Nat) : Prop :=
  ∃ table columns, table? = some table ∧ env.columns? table = some columns ∧ NamedBy columns r i

namespace Planning

variable {env : Environment} {statement list : Node}

/-- What a row source makes of a SELECT with a list. -/
inductive RowsOf (env : Environment) (statement list : Node) : Plan → Prop
  | scan {table : String} {columns : List String} {items : List (Node × String)} {select : Compiled}
      {predicate : Option Compiled} (known : env.columns? table = some columns)
      (bound : scanItems table columns list.children = .ok items)
      (compiled : compile env.calls (.ofChildren .selectList (items.map (·.1))) = .ok select)
      (stateless : select.scratchpad = 0)
      (filtered : (condition? statement).mapM (predicateOf env table columns) = .ok predicate)
      (plain : statement.hasChild .having = false ∧ statement.hasChild .orderBy = false)
      {clause : Node} (sourced : statement.findChild? .from = some clause)
      (named : clause.tableText? = some table) :
      RowsOf env statement list (.tableScan table (items.map (·.2)) select predicate)
  | constants {select : Compiled} (items : list.hasChild .all = false)
      (compiled : compile env.calls list = .ok select) (stateless : select.scratchpad = 0)
      (plain : statement.hasChild .having = false ∧ statement.hasChild .orderBy = false)
      (unsourced : statement.hasChild .from = false) (unfiltered : statement.hasChild .where = false) :
      RowsOf env statement list (.tablelessSelect (list.children.map outputName) select)

@[simp] theorem orFail_ok (a : α) : orFail (.ok a) = .ok a := rfl

theorem orFail_eq_ok {x : Except PlanError α} {a : α} : orFail x = .ok a ↔ x = .ok a := by
  cases x <;> simp [orFail]

theorem stateless_eq_ok {error : Nat → PlanError} {c d : Compiled} :
    stateless error c = .ok d ↔ c = d ∧ c.scratchpad = 0 := by
  by_cases none : c.scratchpad = 0
  · simp [RowSource.stateless, none]
  · simp [RowSource.stateless, none]

theorem bound_eq_ok {table : String} {columns : List String} {n m : Node} :
    bound table columns n = .ok m ↔ Placed (NamedBy columns) n m := by
  rw [← @bind_eq_ok_iff_placed table, bound]
  cases Columns.bind table columns n <;> simp

theorem selectList_eq_ok : selectList statement = .ok list ↔ statement.selectList? = some list := by
  rw [selectList]
  cases statement.selectList? <;> simp

theorem tableOf_eq_ok {clause : Node} {table : String} {columns : List String} :
    tableOf env clause = .ok (table, columns) ↔
      clause.tableText? = some table ∧ env.columns? table = some columns := by
  rw [tableOf, Node.tableText?]
  cases (clause.findChild? .tableName).bind Node.text? with
  | none => simp
  | some name =>
    dsimp only
    constructor
    · intro h
      split at h
      · cases h
      · rename_i known
        obtain ⟨rfl, rfl⟩ := Prod.mk.inj (Except.ok.inj h)
        exact ⟨rfl, known⟩
    · rintro ⟨⟨⟩, known⟩
      rw [known]

/-- The compiled predicate of a scan is the condition over the columns of the table. -/
theorem predicateOf_eq_ok {table : String} {columns : List String} {condition : Node} {c : Compiled} :
    predicateOf env table columns condition = .ok c ↔
      ∃ m, Placed (NamedBy columns) condition m ∧ compile env.calls m = .ok c ∧ c.scratchpad = 0 := by
  simp only [predicateOf, bind_eq_ok_iff, orFail_eq_ok, bound_eq_ok]
  constructor
  · rintro ⟨m, placed, d, compiled, taken⟩
    obtain ⟨rfl, none⟩ := stateless_eq_ok.1 taken
    exact ⟨m, placed, compiled, none⟩
  · rintro ⟨m, placed, compiled, none⟩
    exact ⟨m, placed, c, compiled, stateless_eq_ok.2 ⟨rfl, none⟩⟩

theorem refuseClauses_eq_ok : refuseClauses statement = .ok () ↔
    statement.hasChild .having = false ∧ statement.hasChild .orderBy = false := by
  unfold refuseClauses
  cases statement.hasChild .having <;> cases statement.hasChild .orderBy <;> simp

theorem scan_eq_some {p : Plan} (h : scan env statement = .ok (some p)) :
    ∃ list, statement.selectList? = some list ∧ RowsOf env statement list p := by
  unfold scan at h
  split at h
  · split at h
    · cases h
    · rename_i clause sourced
      simp only [bind_eq_ok_iff, orFail_eq_ok] at h
      obtain ⟨_, plain, ⟨table, columns⟩, named, list, found, items, listed, c, compiled, select, pure,
        predicate, filtered, h⟩ := h
      obtain ⟨named, known⟩ := tableOf_eq_ok.1 named
      obtain ⟨rfl, none⟩ := stateless_eq_ok.1 pure
      obtain rfl := Option.some.inj (Except.ok.inj h)
      exact ⟨list, selectList_eq_ok.1 found,
        .scan known listed compiled none filtered (refuseClauses_eq_ok.1 plain) sourced named⟩
  · cases h

theorem constants_eq_some {p : Plan} (h : constants env statement = .ok (some p)) :
    ∃ list, statement.selectList? = some list ∧ RowsOf env statement list p := by
  unfold constants at h
  split at h
  · rename_i unsourced
    simp only [bind_eq_ok_iff, orFail_eq_ok] at h
    obtain ⟨_, plain, h⟩ := h
    split at h
    · cases h
    · rename_i unfiltered
      simp only [bind_eq_ok_iff, orFail_eq_ok] at h
      obtain ⟨list, found, h⟩ := h
      split at h
      · cases h
      · rename_i items
        simp only [bind_eq_ok_iff] at h
        obtain ⟨c, compiled, select, pure, h⟩ := h
        obtain ⟨rfl, none⟩ := stateless_eq_ok.1 pure
        obtain rfl := Option.some.inj (Except.ok.inj h)
        exact ⟨list, selectList_eq_ok.1 found, .constants (Bool.eq_false_iff.2 items) compiled none
          (refuseClauses_eq_ok.1 plain) unsourced.2 (Bool.eq_false_iff.2 unfiltered)⟩
  · cases h

/-- The rows of a SELECT, if there are any. -/
theorem rows_eq_ok {p : Plan} (h : rows env statement = .ok p) :
    ∃ list, statement.selectList? = some list ∧ RowsOf env statement list p := by
  rw [rows, bind_eq_ok_iff] at h
  obtain ⟨answer, scanned, h⟩ := h
  cases answer with
  | some q =>
    obtain rfl := Except.ok.inj h
    exact scan_eq_some scanned
  | none =>
    simp only [bind_eq_ok_iff] at h
    obtain ⟨answer, made, h⟩ := h
    cases answer with
    | some q =>
      obtain rfl := Except.ok.inj h
      exact constants_eq_some made
    | none => cases h

/-- What a row source makes are the rows of the SELECT. -/
theorem RowsOf.rows_eq {p : Plan} (h : RowsOf env statement list p) (kind : statement.kind = .select)
    (found : statement.selectList? = some list) : rows env statement = .ok p := by
  have listed := selectList_eq_ok.2 found
  cases h with
  | scan known bound compiled none filtered plain sourced named =>
    have table := tableOf_eq_ok.2 ⟨named, known⟩
    have taken : ∀ error, RowSource.stateless error _ = .ok _ := fun _ => stateless_eq_ok.2 ⟨rfl, none⟩
    simp only [rows, RowSource.scan, kind, sourced, refuseClauses_eq_ok.2 plain, table, listed, bound,
      compiled, filtered, taken, orFail_ok, ok_bind, if_true]
    rfl
  | constants items compiled none plain unsourced unfiltered =>
    have taken : ∀ error, RowSource.stateless error _ = .ok _ := fun _ => stateless_eq_ok.2 ⟨rfl, none⟩
    simp only [rows, scan_declines env unsourced, RowSource.constants, kind, unsourced, unfiltered, listed,
      items, compiled, taken, refuseClauses_eq_ok.2 plain, orFail_ok, ok_bind, and_self, if_true,
      Bool.false_eq_true, if_false]
    rfl

theorem scanItems_append (table : String) (columns : List String) (ms ns : List Node) :
    scanItems table columns (ms ++ ns) = (do
      let first ← scanItems table columns ms
      let others ← scanItems table columns ns
      return first ++ others) := by
  induction ms with
  | nil => simp [scanItems]
  | cons m rest ih =>
    simp only [List.cons_append, scanItems, ih, bind_assoc, pure_bind, List.append_assoc]

theorem scanItems_cons_eq_ok {table : String} {columns : List String} {item : Node} {rest : List Node}
    {items : List (Node × String)} : scanItems table columns (item :: rest) = .ok items ↔
      ∃ first others, scanItem table columns item = .ok first ∧
        scanItems table columns rest = .ok others ∧ items = first ++ others := by
  simp only [scanItems, bind_eq_ok_iff]
  constructor
  · rintro ⟨first, here, others, below, h⟩
    exact ⟨first, others, here, below, (Except.ok.inj h).symm⟩
  · rintro ⟨first, others, here, below, rfl⟩
    exact ⟨first, here, others, below, rfl⟩

theorem scanItem_eq_ok {table : String} {columns : List String} {item : Node}
    {items : List (Node × String)} (h : scanItem table columns item = .ok items) :
    item.kind = .all ∧ items = everyColumn columns ∨
      ∃ m, Placed (NamedBy columns) item m ∧ items = [(m, outputName item)] := by
  unfold scanItem at h
  split at h
  · rename_i all
    exact .inl ⟨all, (Except.ok.inj h).symm⟩
  · split at h
    · rename_i m found
      exact .inr ⟨m, bound_eq_ok.1 found, (Except.ok.inj h).symm⟩
    · cases h
  · cases h

/-- The columns that a wildcard stands for compile to their positions, and cost nothing. -/
theorem compileAll_everyColumn (calls : SymbolTable) (columns : List String) (used : Nat) :
    Compile.compileAll calls ((everyColumn columns).map (·.1)) used =
      .ok (columns.mapIdx fun position _ => .column position, used) := by
  -- on the columns, the position of the first one being any
  have each : ∀ (shift : Nat → Nat), Compile.compileAll calls
      (columns.mapIdx fun position name => .derived ((Node.column name).resolveTo (shift position)))
        used = .ok (columns.mapIdx fun position _ => .column (shift position), used) := by
    induction columns with
    | nil => exact fun _ => rfl
    | cons name rest ih =>
      intro shift
      simp only [List.mapIdx_cons, Compile.compileAll, Node.derived, Node.ofChildren, Node.resolveTo,
        Compile.compileNode, ok_bind] at ih ⊢
      rw [ih fun position => shift (position + 1)]
      rfl
  have items : (everyColumn columns).map (·.1) =
      columns.mapIdx fun position name => .derived ((Node.column name).resolveTo position) :=
    List.ext_getElem? fun i => by simp [everyColumn, Function.comp_def]
  rw [items]
  exact each id

/-- Without a wildcard the items are placed one by one. -/
theorem scanItems_placed {table : String} {columns : List String} {ns : List Node}
    {items : List (Node × String)} (plain : ∀ n ∈ ns, n.kind ≠ .all)
    (h : scanItems table columns ns = .ok items) :
    List.Forall₂ (Placed (NamedBy columns)) ns (items.map (·.1)) := by
  induction ns generalizing items with
  | nil =>
    obtain rfl := Except.ok.inj h
    exact .nil
  | cons n rest ih =>
    obtain ⟨first, others, here, below, rfl⟩ := scanItems_cons_eq_ok.1 h
    have placed := ih (fun m mem => plain m (by simp [mem])) below
    rcases scanItem_eq_ok here with ⟨all, _⟩ | ⟨m, item, rfl⟩
    · exact absurd all (plain n (by simp))
    · exact .cons item placed

/-- The columns by position among the items of a scan are columns of the table. -/
theorem scanItems_positions {table : String} {columns : List String} {ns : List Node}
    {items : List (Node × String)} (unplaced : ∀ n ∈ ns, n.Unplaced)
    (h : scanItems table columns ns = .ok items) :
    ∀ item ∈ items, ∀ m ∈ item.1.subtrees, m.kind = .resolvedColumn →
      ∃ i, m.id = some i ∧ i < columns.length := by
  induction ns generalizing items with
  | nil =>
    obtain rfl := Except.ok.inj h
    simp
  | cons n rest ih =>
    obtain ⟨first, others, here, below, rfl⟩ := scanItems_cons_eq_ok.1 h
    intro item mem m part resolved
    rcases List.mem_append.1 mem with mem | mem
    · rcases scanItem_eq_ok here with ⟨_, rfl⟩ | ⟨placed, item', rfl⟩
      · obtain ⟨i, bound, rfl⟩ := List.mem_mapIdx.1 mem
        simp [Node.derived, Node.ofChildren, Node.resolveTo, Node.column, Node.ofToken, Node.subtrees,
          Node.subtreesAll] at part
        rcases part with rfl | rfl
        · cases resolved
        · exact ⟨i, rfl, bound⟩
      · obtain rfl := List.mem_singleton.1 mem
        obtain ⟨r, i, named, found⟩ := item'.positions (unplaced n (by simp)) m part resolved
        exact ⟨i, found, Columns.position?_lt named⟩
    · exact ih (fun m mem => unplaced m (by simp [mem])) below item mem m part resolved

/-- The check that a reference names a column. -/
def named (table : String) (columns : List String) (r : Node) : Except PlanError Unit :=
  (fun _ => ()) <$> bound table columns r

theorem scanItem_derived {table : String} {columns : List String} (r : Node) :
    scanItem table columns (.derived r) =
      (fun m => [(.derived m, outputName (.derived r))]) <$> bound table columns r := by
  simp only [Node.derived, Node.ofChildren, scanItem, bound, Columns.bind, Columns.bindAll,
    reduceCtorEq, if_false]
  cases Columns.bind table columns r <;> rfl

theorem scanItems_derived (table : String) (columns : List String) (rs : List Node) :
    Follows True (fun _ items => List.Forall₂ (Placed (NamedBy columns)) (rs.map .derived)
      (items.map (·.1))) (forM rs (named table columns)) (scanItems table columns (rs.map .derived)) := by
  induction rs with
  | nil => exact .nil
  | cons r rest ih =>
    rw [List.forM_cons, List.map_cons, scanItems, scanItem_derived, named]
    cases found : bound table columns r with
    | error e => exact fun _ => rfl
    | ok m =>
      rw [map_ok, map_ok, ok_bind, ok_bind]
      revert ih
      cases forM rest (named table columns) <;> cases scanItems table columns (rest.map .derived)
      · exact id
      · exact id
      · exact id
      · exact fun below => .cons (.inner (by simp) (.cons (bound_eq_ok.1 found) .nil)) below

/-- Over a table a list compiles item by item, each bound to the columns. -/
theorem compileOver_list_eq_ok {table : String} {columns : List String}
    (known : env.columns? table = some columns) (kind : list.kind = .selectList) {c : Compiled} :
    env.compileOver (some table) list = .ok c ↔
      ∃ ms es, List.Forall₂ (Placed (NamedBy columns)) list.children ms ∧
        Compile.compileAll env.calls ms 0 = .ok (es, c.scratchpad) ∧ c.expr = .list es := by
  simp only [Environment.compileOver, known, bind_eq_ok_iff, orFail_eq_ok, bound_eq_ok]
  obtain ⟨_, token, children, id⟩ := list
  simp only at kind
  subst kind
  constructor
  · intro h
    obtain ⟨m, placed, compiled⟩ := h
    cases placed with
    | column other => cases other
    | inner _ below =>
      obtain ⟨es, items, whole⟩ := (compile_list_eq_ok rfl).1 compiled
      exact ⟨_, es, below, items, whole⟩
  · intro h
    obtain ⟨ms, es, below, items, whole⟩ := h
    exact ⟨_, .inner (by simp) below, (compile_list_eq_ok rfl).2 ⟨es, items, whole⟩⟩

/-- The rows of a SELECT without a wildcard are its list over the columns of the table. -/
theorem RowsOf.entries {p : Plan} (h : RowsOf env statement list p) (kind : list.kind = .selectList)
    (plain : list.hasChild .all = false) :
    ∃ es, p.entries? = some es ∧ env.compileOver p.table? list = .ok ⟨.list es, 0⟩ ∧
      p.outputColumns.length = list.children.length := by
  cases h with
  | @scan table columns items select _ known listed compiled stateless filtered =>
    have others : ∀ n ∈ list.children, n.kind ≠ .all := by simpa [Node.hasChild] using plain
    have placed := scanItems_placed others listed
    obtain ⟨es, below, whole⟩ := (compile_list_eq_ok rfl).1 compiled
    rw [stateless] at below
    have direct : env.compileOver (some table) list = .ok ⟨.list es, 0⟩ :=
      (compileOver_list_eq_ok known kind).2 ⟨_, es, placed, below, rfl⟩
    have width := placed.length_eq.symm
    exact ⟨es, Expr.items?_eq_some.2 whole, direct, by simpa [Plan.outputColumns] using width⟩
  | @constants select _ compiled stateless =>
    obtain ⟨es, below, whole⟩ := (compile_list_eq_ok kind).1 compiled
    rw [stateless] at below
    have direct : compile env.calls list = .ok ⟨.list es, 0⟩ :=
      (compile_list_eq_ok kind).2 ⟨es, below, rfl⟩
    exact ⟨es, Expr.items?_eq_some.2 whole, direct, List.length_map ..⟩

theorem RowsOf.read {p : Plan} (h : RowsOf env statement list p) (kind : list.kind = .selectList) :
    ∃ entries, p.entries? = some entries := by
  cases h with
  | scan _ _ compiled =>
    obtain ⟨es, _, whole⟩ := (compile_list_eq_ok rfl).1 compiled
    exact ⟨es, Expr.items?_eq_some.2 whole⟩
  | constants _ compiled =>
    obtain ⟨es, _, whole⟩ := (compile_list_eq_ok kind).1 compiled
    exact ⟨es, Expr.items?_eq_some.2 whole⟩

theorem RowsOf.unkeyed {p : Plan} (h : RowsOf env statement list p) : p.keys? = some [] := by
  cases h <;> rfl

theorem known_of_compileOver {table? : Option String} {n : Node} {c : Compiled}
    (h : env.compileOver table? n = .ok c) :
    ∀ table ∈ table?, ∃ columns, env.columns? table = some columns := by
  intro table same
  subst same
  cases known : env.columns? table with
  | none =>
    simp only [Environment.compileOver, known] at h
    cases h
  | some columns => exact ⟨columns, rfl⟩

/-- A tree placed at the columns of a known table compiles as the tree does over the table. -/
theorem compileOver_placed {table? : Option String}
    (known : ∀ table ∈ table?, ∃ columns, env.columns? table = some columns) {n m : Node}
    (h : Placed (env.Reads table?) n m) : env.compileOver table? n = compile env.calls m := by
  cases table? with
  | none =>
    have positions := exists_placed_iff.1 ⟨m, h⟩
    have free : n.references = [] := by
      refine List.eq_nil_iff_forall_not_mem.2 fun r mem => ?_
      obtain ⟨_, _, _, table, _⟩ := positions r mem
      cases table
    rw [h.eq_self free]
    rfl
  | some table =>
    obtain ⟨columns, known⟩ := known table rfl
    have named : Placed (NamedBy columns) n m := by
      refine h.mono ?_
      intro r i h
      obtain ⟨_, columns', same, known', here⟩ := h
      obtain rfl := Option.some.inj same
      obtain rfl := Option.some.inj (known.symm.trans known')
      exact here
    simp only [Environment.compileOver, known, bound_eq_ok.2 named]
    rfl

theorem compileAll_items {table : SymbolTable} {ms : List Node} {used total : Nat} {es : List Expr}
    (h : Compile.compileAll table ms used = .ok (es, total)) :
    List.Forall₂ (fun m e => ∃ before after, Compile.compileNode table m before = .ok (e, after))
      ms es := by
  induction ms generalizing used total es with
  | nil =>
    obtain ⟨rfl, _⟩ := Prod.mk.inj (Except.ok.inj h)
    exact .nil
  | cons m rest ih =>
    obtain ⟨e, between, others, first, below, rfl⟩ := Compile.compileAll_cons_eq_ok h
    exact .cons ⟨used, between, first⟩ (ih below)

/-- The error that a column is where there is no table. -/
def unbound (r : Node) : Except Stop α :=
  Compile.fail (.rejected (.unboundColumn (r.text?.getD "?")))

theorem plainColumn?_shape {item r : Node} (plain : item.plainColumn? = some r) :
    ∃ token rest id, item = ⟨.derivedColumn, token, r :: rest, id⟩ ∧ r.kind = .columnName := by
  obtain ⟨derived, column, head⟩ := Node.plainColumn?_eq_some plain
  obtain ⟨kind, token, children, id⟩ := item
  simp only at derived head
  subst derived
  cases children with
  | nil => cases head
  | cons first rest =>
    obtain rfl := Option.some.inj head
    exact ⟨token, rest, id, rfl, column⟩

theorem compileNode_plain {table : SymbolTable} {item r : Node} (plain : item.plainColumn? = some r)
    (used : Nat) : Compile.compileNode table item used = unbound r := by
  obtain ⟨token, rest, id, rfl, column⟩ := plainColumn?_shape plain
  cases r
  simp only at column
  subst column
  rfl

/-- An item that consists of a column is that column of the table. -/
theorem entries_itemAt {table? : Option String} (kind : list.kind = .selectList) {es : List Expr}
    {used : Nat} (h : env.compileOver table? list = .ok ⟨.list es, used⟩) {r : Node} {i : Nat}
    (item : Node.ItemAt list.children r i) :
    ∃ j, es[i]? = some (.column j) ∧ env.Reads table? r j := by
  obtain ⟨item, here, plain⟩ := item
  cases table? with
  | none =>
    obtain ⟨es', compiled, _⟩ := (compile_list_eq_ok kind).1 h
    obtain ⟨e, _, before, after, one⟩ := exists_getElem? (compileAll_items compiled) here
    rw [compileNode_plain plain] at one
    cases one
  | some table =>
    obtain ⟨columns, known⟩ := known_of_compileOver h table rfl
    obtain ⟨ms, es', below, compiled, whole⟩ := (compileOver_list_eq_ok known kind).1 h
    obtain rfl := Expr.list.inj whole
    obtain ⟨m, there, placed⟩ := exists_getElem? below here
    obtain ⟨e, found, before, after, one⟩ := exists_getElem? (compileAll_items compiled) there
    obtain ⟨token, rest, id, rfl, column⟩ := plainColumn?_shape plain
    cases placed with
    | column other => cases other
    | inner _ below =>
      cases below with
      | cons first _ =>
        cases first with
        | inner other => exact absurd column other
        | @column _ j _ named =>
          obtain ⟨rfl, _⟩ := Prod.mk.inj (Except.ok.inj one)
          exact ⟨j, found, table, columns, rfl, known, named⟩

end Planning

end StatementPlan
