/-
Which assembled SELECTs have a plan.

`rows_table_iff`, `rows_tableless_iff`: which make rows, with a table and without.
`group_succeeds_iff`: which are grouped over a SELECT that makes rows.
`planning_accepts_iff`: which have a plan.
-/
import StatementPlan.Proofs.Planning.Drafts

namespace StatementPlan

namespace Planning

open RowSource Compile

variable {env : Environment} {d : SelectDraft} {table : String} {columns : List String}

theorem scanItem_succeeds_iff {item : Node} (built : item.BuiltItem) :
    (∃ items, scanItem table columns item = .ok items) ↔ ColumnsIn columns item.subtrees := by
  by_cases all : item.kind = .all
  · cases built with
    | all => simp [scanItem, ColumnsIn, Node.subtrees, Node.subtreesAll]
    | derived | derivedAs => cases all
  · have kind : item.kind = .derivedColumn := by
      cases built with
      | all => exact absurd rfl all
      | derived | derivedAs => rfl
    rw [← exists_placed_columns built.bareNames]
    simp only [← @bound_eq_ok table, scanItem, kind]
    cases bound table columns item <;> simp

theorem scanItems_succeeds_iff {ns : List Node} (built : ∀ n ∈ ns, n.BuiltItem) :
    (∃ items, scanItems table columns ns = .ok items) ↔ ColumnsIn columns (Node.subtreesAll ns) := by
  induction ns with
  | nil => simp [scanItems, ColumnsIn, Node.subtreesAll]
  | cons n rest ih =>
    obtain ⟨here, others⟩ := List.forall_mem_cons.1 built
    rw [Node.subtreesAll, columnsIn_append, ← scanItem_succeeds_iff here, ← ih others]
    simp only [scanItems_cons_eq_ok]
    constructor
    · rintro ⟨_, first, rest, here, below, _⟩
      exact ⟨⟨first, here⟩, rest, below⟩
    · rintro ⟨⟨first, here⟩, rest, below⟩
      exact ⟨_, first, rest, here, below, rfl⟩

theorem scanItems_costs {calls : SymbolTable} (scalars : calls.ScalarOperators) {ns : List Node}
    (built : ∀ n ∈ ns, n.BuiltItem) {items : List (Node × String)}
    (h : scanItems table columns ns = .ok items) :
    Costs calls (Node.subtreesAll ns) (compileAll calls (items.map (·.1))) := by
  induction ns generalizing items with
  | nil =>
    obtain rfl := Except.ok.inj h
    exact .pure [] (by simp [Node.subtreesAll])
  | cons n rest ih =>
    obtain ⟨here, others⟩ := List.forall_mem_cons.1 built
    obtain ⟨first, more, item, below, rfl⟩ := scanItems_cons_eq_ok.1 h
    have head : Costs calls n.subtrees (compileAll calls (first.map (·.1))) := by
      by_cases all : n.kind = .all
      · cases here with
        | all =>
          obtain rfl := Except.ok.inj item
          rw [funext (compileAll_everyColumn calls columns)]
          exact .pure _ (by simp [Node.subtrees, Node.subtreesAll])
        | derived | derivedAs => cases all
      · obtain ⟨m, placed, rfl⟩ := (scanItem_eq_ok item).resolve_left fun h => all h.1
        have one := compileAll_costs (.cons (compileNode_item scalars here all placed) .nil)
        rwa [Node.subtreesAll, Node.subtreesAll, List.append_nil] at one
    rw [List.map_append, funext (compileAll_append _ _)]
    exact head.seq (ih others below) (· ++ ·)

/-- The condition of a scan is accepted if it reads columns of the table and calls scalars. -/
theorem predicate_succeeds_iff (scalars : env.calls.ScalarOperators) (sized : env.calls.Sized)
    {x : Option Node} (built : ∀ p ∈ x, p.Built) :
    (∃ c, x.mapM (predicateOf env table columns) = .ok c) ↔
      ColumnsIn columns (Node.subtreesAll x.toList) ∧
        ScalarCalls env.calls (Node.subtreesAll x.toList) := by
  cases x with
  | none =>
    exact ⟨fun _ => ⟨nofun, nofun, nofun⟩, fun _ => ⟨none, rfl⟩⟩
  | some p =>
    have built := built p rfl
    simp only [mapM_option_eq_ok, Option.toList_some, Node.subtreesAll, List.append_nil]
    rw [← exists_placed_columns built.bareNames]
    constructor
    · rintro ⟨_, ⟨made⟩⟩
      obtain ⟨m, placed, compiled, none⟩ := predicateOf_eq_ok.1 made
      have costs := compileNode_built scalars built placed
      exact ⟨⟨m, placed⟩, (compile_stateless_iff sized costs).1 ⟨_, compiled, none⟩⟩
    · rintro ⟨⟨m, placed⟩, calls⟩
      have costs := compileNode_built scalars built placed
      obtain ⟨c, compiled, none⟩ := (compile_stateless_iff sized costs).2 calls
      exact ⟨some c, .some (predicateOf_eq_ok.2 ⟨m, placed, compiled, none⟩)⟩

theorem rows_eq_ok_iff {p : Plan} :
    rows env d.build = .ok p ↔ RowsOf env d.build (.ofChildren .selectList d.items) p := by
  constructor
  · intro made
    obtain ⟨list, found, rows⟩ := rows_eq_ok made
    obtain rfl := Option.some.inj (d.selectList?_build.symm.trans found)
    exact rows
  · exact fun rows => rows.rows_eq rfl d.selectList?_build

theorem plain_build : d.build.hasChild .having = false ∧ d.build.hasChild .orderBy = false ↔
    d.having = none ∧ d.order = [] := by
  rw [d.build_having, d.build_orderBy]
  simp

/-- Which assembled SELECTs are scans of their table. -/
theorem rows_table_iff (scalars : env.calls.ScalarOperators) (sized : env.calls.Sized) (built : d.Built)
    (sourced : d.table = some table) :
    (∃ p, rows env d.build = .ok p) ↔ (d.having = none ∧ d.order = []) ∧
      ∃ columns, env.columns? table = some columns ∧
        (ColumnsIn columns (Node.subtreesAll d.items) ∧
          ScalarCalls env.calls (Node.subtreesAll d.items)) ∧
        ColumnsIn columns (Node.subtreesAll d.predicate.toList) ∧
          ScalarCalls env.calls (Node.subtreesAll d.predicate.toList) := by
  have source : d.build.findChild? .from = some (SelectDraft.fromClause table) := by
    rw [d.build_from, sourced]
    rfl
  have costs : ∀ {columns items}, scanItems table columns d.items = .ok items →
      Costs env.calls (Node.subtreesAll d.items)
        (compileNode env.calls (.ofChildren .selectList (items.map (·.1)))) := fun bound =>
    compileNode_parts (.inl rfl) (scanItems_costs scalars built.items bound)
  simp only [rows_eq_ok_iff]
  constructor
  · rintro ⟨p, rows⟩
    cases rows with
    | @scan _ columns _ _ _ known bound compiled none filtered plain _ sourced' named =>
      obtain rfl := Option.some.inj (source.symm.trans sourced')
      obtain rfl : table = _ := Option.some.inj named
      rw [d.condition?_build] at filtered
      refine ⟨plain_build.1 plain, columns, known, ⟨?_, ?_⟩, ?_⟩
      · exact (scanItems_succeeds_iff built.items).1 ⟨_, bound⟩
      · exact (compile_stateless_iff sized (costs bound)).1 ⟨_, compiled, none⟩
      · exact (predicate_succeeds_iff scalars sized built.predicate).1 ⟨_, filtered⟩
    | constants _ _ _ _ unsourced =>
      rw [Node.hasChild_eq_isSome, source] at unsourced
      cases unsourced
  · rintro ⟨plain, columns, known, ⟨named, calls⟩, condition⟩
    obtain ⟨items, bound⟩ := (@scanItems_succeeds_iff table columns d.items built.items).2 named
    obtain ⟨select, compiled, none⟩ := (compile_stateless_iff sized (costs bound)).2 calls
    obtain ⟨predicate, filtered⟩ := (predicate_succeeds_iff scalars sized built.predicate).2 condition
    rw [← d.condition?_build] at filtered
    exact ⟨_, .scan known bound compiled none filtered (plain_build.2 plain) source rfl⟩

/-- Items without column names are as good as bound. -/
theorem unbound_costs {calls : SymbolTable} (scalars : calls.ScalarOperators) {items : List Node}
    (built : ∀ item ∈ items, item.BuiltItem) (plain : ∀ item ∈ items, item.kind ≠ .all)
    (none : ColumnsIn [] (Node.subtreesAll items)) :
    Costs calls (Node.subtreesAll items) (compileAll calls items) := by
  refine compileAll_costs (List.forall₂_same.2 fun item mem => ?_)
  have here : ColumnsIn [] item.subtrees := fun c part => none c (Node.mem_subtreesAll.2 ⟨item, mem, part⟩)
  have bare := (built item mem).bareNames
  obtain ⟨m, placed⟩ := (exists_placed_columns bare).2 here
  have unnamed : item.references = [] := by
    refine List.eq_nil_iff_forall_not_mem.2 fun r mem => ?_
    obtain ⟨part, column⟩ := bare.mem_references_iff.1 mem
    simpa using here r part column
  have costs := compileNode_item scalars (built item mem) (plain item mem) placed
  rwa [placed.eq_self unnamed] at costs

/-- Which assembled SELECTs are rows of constants. -/
theorem rows_tableless_iff (scalars : env.calls.ScalarOperators) (sized : env.calls.Sized)
    (built : d.Built) (unsourced : d.table = none) :
    (∃ p, rows env d.build = .ok p) ↔ (d.having = none ∧ d.order = []) ∧ d.predicate = none ∧
      (∀ item ∈ d.items, item.kind ≠ .all) ∧ ColumnsIn [] (Node.subtreesAll d.items) ∧
        ScalarCalls env.calls (Node.subtreesAll d.items) := by
  have source : d.build.hasChild .from = false := by
    rw [Node.hasChild_eq_isSome, d.build_from, unsourced]
    rfl
  have condition : d.build.hasChild .where = false ↔ d.predicate = none := by
    rw [Node.hasChild_eq_isSome, d.build_where]
    simp
  have wildcard : (Node.ofChildren .selectList d.items).hasChild .all = false ↔
      ∀ item ∈ d.items, item.kind ≠ .all := by
    simp [Node.hasChild, Node.ofChildren]
  have costs := fun plain none => compileNode_parts (m := .ofChildren .selectList d.items) (.inl rfl)
    (unbound_costs scalars built.items plain none)
  simp only [rows_eq_ok_iff]
  constructor
  · rintro ⟨p, rows⟩
    cases rows with
    | scan _ _ _ _ _ _ sourced =>
      rw [d.build_from, unsourced] at sourced
      cases sourced
    | constants items compiled none plain _ unfiltered =>
      have plainItems := wildcard.1 items
      have named : ColumnsIn [] (Node.subtreesAll d.items) := by
        obtain ⟨es, each, _⟩ := (compile_list_eq_ok rfl).1 compiled
        intro c part column
        obtain ⟨item, mem, part⟩ := Node.mem_subtreesAll.1 part
        obtain ⟨_, _, _, done⟩ := compileAll_each each item mem
        have nothing := references_of_compiledItem (built.items item mem) done
        exact absurd column (Node.no_columnName nothing c part)
      exact ⟨plain_build.1 plain, condition.1 unfiltered, plainItems, named,
        (compile_stateless_iff sized (costs plainItems named)).1 ⟨_, compiled, none⟩⟩
  · rintro ⟨plain, unfiltered, plainItems, named, calls⟩
    obtain ⟨select, compiled, none⟩ := (compile_stateless_iff sized (costs plainItems named)).2 calls
    exact ⟨_, .constants (wildcard.2 plainItems) compiled none (plain_build.2 plain) source
      (condition.2 unfiltered)⟩

theorem items_costs (scalars : env.calls.ScalarOperators) (built : d.Built)
    (plain : ∀ item ∈ d.items, item.kind ≠ .all) {R : Node → Nat → Prop} {list : Node}
    (placed : Placed R (.ofChildren .selectList d.items) list) :
    Costs env.calls (Node.subtreesAll d.items) (compileNode env.calls list) := by
  cases placed with
  | column kind => cases kind
  | inner _ placed =>
    refine compileNode_parts (.inl rfl) (compileAll_costs (forall₂_imp_mem placed ?_))
    exact fun item mem _ placed => compileNode_item scalars (built.items item mem) (plain item mem) placed

theorem keys_costs (scalars : env.calls.ScalarOperators) (built : d.Built) {R : Node → Nat → Prop}
    {keys : Node} (placed : Placed R (.ofChildren .groupBy (groupKeys d.build)) keys) :
    Costs env.calls (Node.subtreesAll d.keys) (compileNode env.calls keys) := by
  rw [d.groupKeys_build] at placed
  cases placed with
  | column kind => cases kind
  | inner _ placed =>
    refine compileNode_parts (.inr rfl) (compileAll_costs (forall₂_imp_mem placed ?_))
    exact fun key mem _ placed => compileNode_built scalars (built.keys key mem) placed

/-- Which assembled SELECTs are grouped, over a SELECT that has a plan. -/
theorem group_succeeds_iff (scalars : env.calls.ScalarOperators) (sized : env.calls.Sized)
    (built : d.Built) (fits : bytesOf env.calls (Node.subtreesAll d.items) < Numeral.sizeLimit)
    (below : Node → Run Plan) :
    (∃ p, (group env below d.build).result = .ok p) ↔
      (∀ item ∈ d.items, item.kind ≠ .all) ∧ CallsKnown env.calls (Node.subtreesAll d.items) ∧
        ScalarCalls env.calls (Node.subtreesAll d.keys) ∧
          ∃ input, (below (d.inner env).build).result = .ok input := by
  obtain ⟨list, keys, listPlaced, keysPlaced, shape⟩ := group_result env below d.selectList?_build
  have wildcard : (Node.ofChildren .selectList d.items).hasChild .all = true ↔
      ¬∀ item ∈ d.items, item.kind ≠ .all := by
    simp [Node.hasChild, Node.ofChildren]
  rw [shape, d.ungrouped_build, ← SelectDraft.inner]
  by_cases plain : ∀ item ∈ d.items, item.kind ≠ .all
  · have listCosts := items_costs scalars built plain listPlaced
    have keyCosts := keys_costs scalars built keysPlaced
    rw [if_neg (fun all => wildcard.1 all plain), ← compile_succeeds_iff listCosts fits,
      ← compile_stateless_iff sized keyCosts]
    simp only [bind_eq_ok_iff, stateless_eq_ok]
    constructor
    · rintro ⟨_, select, selected, group, grouped, _, ⟨_, none⟩, input, made, _⟩
      exact ⟨plain, ⟨select, selected⟩, ⟨group, grouped, none⟩, input, made⟩
    · rintro ⟨_, ⟨select, selected⟩, ⟨group, grouped, none⟩, input, made⟩
      exact ⟨_, select, selected, group, grouped, group, ⟨rfl, none⟩, input, made, rfl⟩
  · rw [if_pos (wildcard.2 plain)]
    constructor
    · rintro ⟨_, made⟩
      cases made
    · exact fun h => absurd h.1 plain

/-- Whether an assembled SELECT is grouped, where all calls of its items are known. -/
theorem isGrouped_build (oneTable : env.routing = env.calls)
    (known : CallsKnown env.calls (Node.subtreesAll d.items)) :
    isGrouped env d.build = .ok (decide (d.clauses ≠ [] ∧
      (d.keys ≠ [] ∨ Aggregates env.calls (Node.subtreesAll d.items)))) := by
  have searched : callsAggregate env.routing (.ofChildren .selectList d.items) =
      .ok ((Node.subtreesAll d.items).any (namesAggregate env.calls)) := by
    rw [oneTable, callsAggregate_known _ (callsKnown_cons.2 ⟨by simp, known⟩)]
    rfl
  rw [isGrouped_eq rfl d.selectList?_build, d.build_groupBy, searched, SelectDraft.build_children,
    List.tail_cons]
  by_cases alone : d.clauses = []
  · simp [alone]
  · by_cases keys : d.keys = []
    · simp only [alone, keys, if_false, List.isEmpty_nil, Bool.not_true, Bool.false_eq_true, ne_eq,
        not_true, false_or, not_false_iff, true_and, Except.mapError, Except.ok.injEq]
      rw [Bool.eq_iff_iff, List.any_eq_true, decide_eq_true_iff, Aggregates]
    · simp [alone, keys]

/-- The SELECT below a grouping is not grouped. -/
theorem inner_result (complete : env.Complete) (oneTable : env.routing = env.calls) (built : d.Built)
    (unlimited : d.limit = none) :
    (planWithin env 1 (d.inner env).build).result = rows env (d.inner env).build := by
  have free : (d.inner env).build.hasChild .limit = false := by
    rw [Node.hasChild_eq_isSome, SelectDraft.findChild?_build _ (by decide)]
    simp [SelectDraft.kept, SelectDraft.inner, SelectDraft.below, SelectDraft.clauses, unlimited]
  obtain ⟨known, quiet⟩ := @inner_scalar env d built
  have plain : ¬((d.inner env).clauses ≠ [] ∧ ((d.inner env).keys ≠ [] ∨
      Aggregates env.calls (Node.subtreesAll (d.inner env).items))) := by
    rintro ⟨_, keys | aggregates⟩
    · exact keys rfl
    · exact quiet aggregates
  rw [planWithin_select 0 rfl, select_unlimited complete _ rfl free, Planning.unlimited,
    isGrouped_build oneTable known, decide_eq_false plain]
  rfl

/-- Which SELECTs below a grouping make rows. -/
theorem inner_rows_iff (scalars : env.calls.ScalarOperators) (sized : env.calls.Sized)
    (built : d.Built) :
    (∃ p, rows env (d.inner env).build = .ok p) ↔ (d.having = none ∧ d.order = []) ∧
      ((∃ table columns, d.table = some table ∧ env.columns? table = some columns ∧
        ColumnsIn columns (Node.subtreesAll (d.items ++ d.keys)) ∧
        ColumnsIn columns (Node.subtreesAll d.predicate.toList) ∧
          ScalarCalls env.calls (Node.subtreesAll d.predicate.toList)) ∨
      d.table = none ∧ d.predicate = none ∧
        ColumnsIn [] (Node.subtreesAll (d.items ++ d.keys))) := by
  have scalar := @inner_scalar env d built
  have plain : ∀ item ∈ (d.inner env).items, item.kind ≠ .all := fun item mem => by
    obtain ⟨r, _, rfl⟩ := List.mem_map.1 mem
    nofun
  cases source : d.table with
  | none =>
    rw [rows_tableless_iff scalars sized (inner_built built) source, inner_named built]
    simp only [eq_true plain, scalar, true_and, and_true]
    simp [SelectDraft.inner, SelectDraft.below]
  | some table =>
    rw [rows_table_iff scalars sized (inner_built built) source]
    simp only [inner_named built, scalar, and_true]
    simp [SelectDraft.inner, SelectDraft.below]

end Planning

namespace SelectDraft

/-- The expressions of the draft. -/
def exprs (d : SelectDraft) : List Node := d.items ++ d.predicate.toList ++ d.keys

/-- What planning asks of a SELECT from a table with such columns. -/
structure OverTable (env : Environment) (columns : List String) (d : SelectDraft) : Prop where
  named : ColumnsIn columns (Node.subtreesAll d.exprs)
  condition : ¬Aggregates env.calls (Node.subtreesAll d.predicate.toList)
  wildcard : d.keys ≠ [] ∨ Aggregates env.calls (Node.subtreesAll d.items) →
    ∀ item ∈ d.items, item.kind ≠ .all

/-- What planning asks of a SELECT without a table. -/
structure OverNothing (env : Environment) (d : SelectDraft) : Prop where
  condition : d.predicate = none
  wildcard : ∀ item ∈ d.items, item.kind ≠ .all
  unnamed : ∀ n ∈ Node.subtreesAll d.exprs, n.kind ≠ .columnName
  keyed : Aggregates env.calls (Node.subtreesAll d.items) → d.keys ≠ []

/-- What planning asks of a SELECT. -/
structure Supported (env : Environment) (d : SelectDraft) : Prop where
  known : CallsKnown env.calls (Node.subtreesAll d.exprs)
  keys : ¬Aggregates env.calls (Node.subtreesAll d.keys)
  source : (∃ table columns, d.table = some table ∧ env.columns? table = some columns ∧
    d.OverTable env columns) ∨ d.table = none ∧ d.OverNothing env

end SelectDraft

namespace Planning

variable {env : Environment} {d : SelectDraft}

/-- Where the calls of the items are known, that decides which way a SELECT goes. -/
theorem unlimited_eq_ok_iff (oneTable : env.routing = env.calls)
    (known : CallsKnown env.calls (Node.subtreesAll d.items)) {below : Node → Run Plan} {p : Plan} :
    unlimited env below d.build = .ok p ↔
      if d.clauses ≠ [] ∧ (d.keys ≠ [] ∨ Aggregates env.calls (Node.subtreesAll d.items))
      then (group env below d.build).result = .ok p else rows env d.build = .ok p := by
  rw [unlimited, isGrouped_build oneTable known, orFail_ok, ok_bind]
  split
  · rename_i grouped
    rw [if_pos]
    exact of_decide_eq_true grouped
  · rename_i plain
    rw [if_neg]
    exact fun grouped => plain (decide_eq_true grouped)

theorem known_of_unlimited (scalars : env.calls.ScalarOperators) (sized : env.calls.Sized)
    (built : d.Built) (fits : bytesOf env.calls (Node.subtreesAll d.items) < Numeral.sizeLimit)
    {below : Node → Run Plan} {p : Plan} (made : unlimited env below d.build = .ok p) :
    CallsKnown env.calls (Node.subtreesAll d.items) := by
  obtain ⟨grouped, _, made⟩ := bind_eq_ok_iff.1 made
  cases grouped with
  | true => exact ((group_succeeds_iff scalars sized built fits below).1 ⟨p, made⟩).2.1
  | false =>
    cases source : d.table with
    | none =>
      obtain ⟨_, _, _, _, calls⟩ := (rows_tableless_iff scalars sized built source).1 ⟨p, made⟩
      exact calls.1
    | some table =>
      obtain ⟨_, _, _, items, _⟩ := (rows_table_iff scalars sized built source).1 ⟨p, made⟩
      exact items.2.1

theorem calls_exprs {calls : SymbolTable} : CallsKnown calls (Node.subtreesAll d.exprs) ↔
    CallsKnown calls (Node.subtreesAll d.items) ∧
      CallsKnown calls (Node.subtreesAll d.predicate.toList) ∧
        CallsKnown calls (Node.subtreesAll d.keys) := by
  simp only [SelectDraft.exprs, Node.subtreesAll_append, callsKnown_append, and_assoc]

theorem columns_exprs {columns : List String} : ColumnsIn columns (Node.subtreesAll d.exprs) ↔
    ColumnsIn columns (Node.subtreesAll d.items) ∧
      ColumnsIn columns (Node.subtreesAll d.predicate.toList) ∧
        ColumnsIn columns (Node.subtreesAll d.keys) := by
  simp only [SelectDraft.exprs, Node.subtreesAll_append, columnsIn_append, and_assoc]

section Supported

variable (scalars : env.calls.ScalarOperators) (sized : env.calls.Sized) (built : d.Built)
  (known : CallsKnown env.calls (Node.subtreesAll d.items))

include scalars sized built known

/-- Which SELECTs have a plan among those that are grouped. -/
theorem grouped_supported_iff (complete : env.Complete) (oneTable : env.routing = env.calls)
    (fits : bytesOf env.calls (Node.subtreesAll d.items) < Numeral.sizeLimit) (free : d.limit = none)
    (grouped : d.clauses ≠ [] ∧ (d.keys ≠ [] ∨ Aggregates env.calls (Node.subtreesAll d.items))) :
    (∃ p, (group env (planWithin env 1) d.build).result = .ok p) ↔
      (d.having = none ∧ d.order = []) ∧ d.Supported env := by
  rw [group_succeeds_iff scalars sized built fits, inner_result complete oneTable built free,
    inner_rows_iff scalars sized built]
  simp only [Node.subtreesAll_append, columnsIn_append]
  constructor
  · rintro ⟨wildcard, _, keys, plain, source⟩
    rcases source with ⟨table, columns, sourced, tableKnown, named, condition, scalar⟩ |
      ⟨unsourced, unfiltered, unnamed⟩
    · refine ⟨plain, calls_exprs.2 ⟨known, scalar.1, keys.1⟩, keys.2,
        .inl ⟨table, columns, sourced, tableKnown, ?_, scalar.2, fun _ => wildcard⟩⟩
      exact columns_exprs.2 ⟨named.1, condition, named.2⟩
    · have nothing : d.predicate.toList = [] := by rw [unfiltered]; rfl
      refine ⟨plain, calls_exprs.2 ⟨known, by rw [nothing]; nofun, keys.1⟩, keys.2,
        .inr ⟨unsourced, unfiltered, wildcard, ?_, fun _ keyless => ?_⟩⟩
      · exact columnsIn_nil.1 (columns_exprs.2 ⟨unnamed.1, by rw [nothing]; nofun, unnamed.2⟩)
      -- without keys there would be no clause at all, and a list alone is not grouped
      · exact grouped.1 (d.clauses_eq_nil.2 ⟨unsourced, unfiltered, keyless, plain.1, plain.2, free⟩)
  · rintro ⟨plain, supported⟩
    obtain ⟨_, condition, keys⟩ := calls_exprs.1 supported.known
    rcases supported.source with ⟨table, columns, sourced, tableKnown, suits⟩ | ⟨unsourced, suits⟩
    · obtain ⟨items, filtered, keyed⟩ := columns_exprs.1 suits.named
      exact ⟨suits.wildcard grouped.2, known, ⟨keys, supported.keys⟩, plain,
        .inl ⟨table, columns, sourced, tableKnown, ⟨items, keyed⟩, filtered, condition, suits.condition⟩⟩
    · obtain ⟨items, _, keyed⟩ := columns_exprs.1 (columnsIn_nil.2 suits.unnamed)
      exact ⟨suits.wildcard, known, ⟨keys, supported.keys⟩, plain,
        .inr ⟨unsourced, suits.condition, items, keyed⟩⟩

/-- Which SELECTs have a plan among those that are not. -/
theorem direct_supported_iff
    (direct : ¬(d.clauses ≠ [] ∧ (d.keys ≠ [] ∨ Aggregates env.calls (Node.subtreesAll d.items)))) :
    (∃ p, rows env d.build = .ok p) ↔ (d.having = none ∧ d.order = []) ∧ d.Supported env := by
  have keyless : d.keys = [] := by
    by_contra keys
    exact direct ⟨fun alone => keys (d.clauses_eq_nil.1 alone).2.2.1, .inl keys⟩
  have noKeys : ∀ {P : Node → Prop}, ∀ n ∈ Node.subtreesAll d.keys, P n := by
    rw [keyless]
    nofun
  have quiet : ¬Aggregates env.calls (Node.subtreesAll d.keys) := fun ⟨n, mem, _⟩ =>
    noKeys (P := fun _ => False) n mem
  cases source : d.table with
  | none =>
    rw [rows_tableless_iff scalars sized built source]
    constructor
    · rintro ⟨plain, unfiltered, wildcard, unnamed, calls⟩
      have nothing : d.predicate.toList = [] := by rw [unfiltered]; rfl
      refine ⟨plain, calls_exprs.2 ⟨known, by rw [nothing]; nofun, noKeys⟩, quiet,
        .inr ⟨source, unfiltered, wildcard, ?_, fun aggregates => absurd aggregates calls.2⟩⟩
      exact columnsIn_nil.1 (columns_exprs.2 ⟨unnamed, by rw [nothing]; nofun, noKeys⟩)
    · rintro ⟨plain, supported⟩
      rcases supported.source with ⟨table, columns, sourced, _⟩ | ⟨_, suits⟩
      · cases source.symm.trans sourced
      · have items := (columns_exprs.1 (columnsIn_nil.2 suits.unnamed)).1
        exact ⟨plain, suits.condition, suits.wildcard, items, known, fun aggregates =>
          suits.keyed aggregates keyless⟩
  | some table =>
    have more : d.clauses ≠ [] := fun alone => by
      cases source.symm.trans (d.clauses_eq_nil.1 alone).1
    have scalar : ¬Aggregates env.calls (Node.subtreesAll d.items) := fun aggregates =>
      direct ⟨more, .inr aggregates⟩
    rw [rows_table_iff scalars sized built source]
    constructor
    · rintro ⟨plain, columns, tableKnown, ⟨items, _⟩, filtered, condition⟩
      refine ⟨plain, calls_exprs.2 ⟨known, condition.1, noKeys⟩, quiet,
        .inl ⟨table, columns, source, tableKnown, ?_, condition.2, fun either => ?_⟩⟩
      · exact columns_exprs.2 ⟨items, filtered, noKeys⟩
      · exact absurd either (not_or.2 ⟨not_not.2 keyless, scalar⟩)
    · rintro ⟨plain, supported⟩
      obtain ⟨_, condition, _⟩ := calls_exprs.1 supported.known
      rcases supported.source with ⟨table', columns, sourced, tableKnown, suits⟩ | ⟨unsourced, _⟩
      · obtain rfl := Option.some.inj (source.symm.trans sourced)
        obtain ⟨items, filtered, _⟩ := columns_exprs.1 suits.named
        exact ⟨plain, columns, tableKnown, ⟨items, known, scalar⟩, filtered, condition, suits.condition⟩
      · cases source.symm.trans unsourced

end Supported

/-- Which assembled SELECTs without a limit have a plan. -/
theorem unlimited_succeeds_iff (complete : env.Complete) (oneTable : env.routing = env.calls)
    (scalars : env.calls.ScalarOperators) (sized : env.calls.Sized) (built : d.Built)
    (fits : bytesOf env.calls (Node.subtreesAll d.items) < Numeral.sizeLimit)
    (free : d.limit = none) :
    (∃ p, unlimited env (planWithin env 1) d.build = .ok p) ↔
      (d.having = none ∧ d.order = []) ∧ d.Supported env := by
  by_cases known : CallsKnown env.calls (Node.subtreesAll d.items)
  · simp only [unlimited_eq_ok_iff oneTable known]
    split
    · rename_i grouped
      exact grouped_supported_iff scalars sized built known complete oneTable fits free grouped
    · rename_i direct
      exact direct_supported_iff scalars sized built known direct
  -- where a call is unknown the search may still end, at an aggregate before it
  · constructor
    · rintro ⟨p, made⟩
      exact absurd (known_of_unlimited scalars sized built fits made) known
    · rintro ⟨_, supported⟩
      exact absurd (calls_exprs.1 supported.known).1 known

theorem limitsTo_limitClause {count : Nat} {offset : Option Nat} (fits : count < Numeral.sizeLimit)
    (fits' : ∀ n ∈ offset, n < Numeral.sizeLimit) :
    LimitsTo (SelectDraft.limitClause count offset) (count, offset.getD 0) := by
  have read : ∀ {n : Nat} {kind : Kind} {children : List Node}, n < Numeral.sizeLimit →
      Node.count? { kind, token := some (.numeric (Numeral.writeNat n)), children } = some n := by
    intro n kind children fits
    simp [Node.count?, Node.text?, Token.numeric, Numeral.size?_writeNat, fits]
  refine ⟨read fits, ?_⟩
  cases offset with
  | none => rfl
  | some n => exact read (fits' n rfl)

/-- What planning asks of a SELECT does not depend on its limit. -/
theorem supported_limited (h : d.Supported env) (limit : Option (Nat × Option Nat)) :
    { d with limit := limit }.Supported env where
  known := h.known
  keys := h.keys
  source := by
    rcases h.source with ⟨table, columns, sourced, known, suits⟩ | ⟨unsourced, suits⟩
    · exact .inl ⟨table, columns, sourced, known, suits.named, suits.condition, suits.wildcard⟩
    · exact .inr ⟨unsourced, suits.condition, suits.wildcard, suits.unnamed, suits.keyed⟩

/-- Which assembled SELECTs have a plan. -/
theorem build_succeeds_iff (complete : env.Complete) (oneTable : env.routing = env.calls)
    (scalars : env.calls.ScalarOperators) (sized : env.calls.Sized) (built : d.Built)
    (fits : bytesOf env.calls (Node.subtreesAll d.items) < Numeral.sizeLimit) :
    (∃ p, (buildPlan env d.build).result = .ok p) ↔
      (d.having = none ∧ d.order = []) ∧ d.Supported env := by
  have core := unlimited_succeeds_iff (d := { d with limit := none }) complete oneTable scalars sized
    ⟨built.items, built.predicate, built.keys, by simp⟩ fits rfl
  have limits : ∃ counts, List.Forall₂ LimitsTo d.build.limits counts := by
    rw [d.build_limits]
    cases found : d.limit with
    | none => exact ⟨[], .nil⟩
    | some l =>
      obtain ⟨fits, fits'⟩ := built.limit l found
      exact ⟨[_], .cons (limitsTo_limitClause fits fits') .nil⟩
  simp only [buildPlan_eq_ok, plan_select complete (rfl : d.build.kind = .select), limited_eq_ok,
    d.build_withoutLimits]
  constructor
  · rintro ⟨_, _, p, _, made, _⟩
    obtain ⟨plain, supported⟩ := core.1 ⟨p, made⟩
    exact ⟨plain, supported_limited supported d.limit⟩
  · rintro ⟨plain, supported⟩
    obtain ⟨p, made⟩ := core.2 ⟨plain, supported_limited supported none⟩
    obtain ⟨counts, each⟩ := limits
    exact ⟨_, counts, p, each, made, rfl⟩

/-- An assembled SELECT has a plan exactly if it has no HAVING and no ORDER BY, its calls are known,
its keys call no aggregate, and its columns, its wildcards and its condition suit its table, or the
lack of one. -/
theorem planning_accepts_iff (complete : env.Complete) (oneTable : env.routing = env.calls)
    (scalars : env.calls.ScalarOperators) (sized : env.calls.Sized) {steps : List SelectStep}
    (built : ∀ s ∈ steps, s.Built)
    (fits : bytesOf env.calls (Node.subtreesAll (drafted steps).items) < Numeral.sizeLimit) :
    (∃ p, (buildPlan env (.select steps)).result = .ok p) ↔
      (∀ s ∈ steps, s.evaluated = true) ∧ (drafted steps).Supported env := by
  have plain : (drafted steps).having = none ∧ (drafted steps).order = [] ↔
      ∀ s ∈ steps, s.evaluated = true := by
    rw [drafted, SelectDraft.evaluated_iff]
    simp
  rw [← plain]
  exact build_succeeds_iff complete oneTable scalars sized (drafted_built built) fits

/-- SELECT sum(total - tax) AS net, city FROM sales WHERE tax < total GROUP BY city LIMIT 3 -/
def salesByNetTotal : List SelectStep :=
  [.itemAs (.call "sum" [.binary (.operator .sub) (.column "total") (.column "tax")]) "net",
    .column "city", .table "sales",
    .filter (.binary (.operator .lt) (.column "tax") (.column "total")), .groupBy (.column "city"),
    .limit 3 none]

theorem planning_accepts_iff_sales :
    (∃ p, (buildPlan salesEnvironment (.select salesByNetTotal)).result = .ok p) ∧
      (drafted salesByNetTotal).Supported salesEnvironment := by
  have both : ∀ op a b, (Node.binary (.operator op) (.column a) (.column b)).Built := fun op a b =>
    .operator op none none (by simpa using ⟨.column a, .column b⟩)
  have built : ∀ s ∈ salesByNetTotal, s.Built := by
    simp only [salesByNetTotal, List.forall_mem_cons]
    exact ⟨.call "sum" (by simpa using both .sub "total" "tax"), trivial, trivial,
      both .lt "tax" "total", .column "city", ⟨by decide, nofun⟩, nofun⟩
  have planned : (buildPlan salesEnvironment (.select salesByNetTotal)).result =
      .ok (.limit 3 0 (.groupBy ["net", "city"]
        (.list [.call "sum" true [.call "sub" false [.column 0, .column 1]], .column 2])
        (.list [.column 2]) 8
        (.tableScan "sales" ["total", "tax", "city"] ⟨.list [.column 1, .column 2, .column 0], 0⟩
          (some ⟨.call "lt" false [.column 2, .column 1], 0⟩)))) := by decide +kernel
  have complete : salesEnvironment.Complete := fun _ => rfl
  have accepted := planning_accepts_iff complete rfl Registry.builtins_scalarOperators
    Registry.builtins_sized built (by decide +kernel)
  exact ⟨⟨_, planned⟩, (accepted.1 ⟨_, planned⟩).2⟩

end Planning

end StatementPlan
