/-
The columns that a SERIES shows: its name, and of the columns of its SELECT as many as the list of
that has items.  Those that only the name needs come after them, so none of these is shown.  But a
wildcard is one item, however many columns it stands for, and then the last columns are not shown.

`plan_alone`: a SELECT has a plan by itself if it has one with more columns at the end.
`plan_width`, `plan_wild`: how many columns the plan of a SELECT has.
`series_columns`: the columns of a SERIES against those of its SELECT.
-/
import Mathlib.Data.List.TakeDrop
import StatementPlan.Proofs.Planning.SeriesName

namespace StatementPlan.Planning

open RowSource

variable {env : Environment} {statement name select list : Node} {rs : List Node}

/-- Columns at the end of a list that makes rows do not make a SELECT grouped. -/
theorem quiet_of_rows (kind : statement.kind = .select) (headed : list.kind = .selectList)
    (columns : ∀ r ∈ rs, r.kind = .columnName) {p : Plan}
    (decided : isGrouped env (statement.withList (list.extend rs)) = .ok false)
    (rows : RowsOf env (statement.withList (list.extend rs)) (list.extend rs) p) :
    ∀ r ∈ rs, QuietColumn env.routing r := by
  have headed' := Node.extend_headed headed rs
  rw [isGrouped_eq (by exact kind) (Node.selectList?_withList headed')] at decided
  split at decided
  -- the search is not made if there is only a list, but then there is no table for columns
  · rename_i alone
    cases rows with
    | scan _ _ _ _ _ _ sourced =>
      simp only [Node.withList, List.tail_cons] at alone
      simp [Node.findChild?, Node.withList, alone, headed'] at sourced
    | @constants compiled _ whole =>
      obtain ⟨es, _, shape⟩ := (compile_list_eq_ok headed').1 whole
      obtain ⟨expr, pad⟩ := compiled
      simp only at shape
      subst shape
      simp [nil_of_compileOver_none headed columns (show env.compileOver none _ = _ from whole)]
  · split at decided
    · cases decided
    · have searched : callsAggregate env.routing (list.extend rs) = .ok false := by
        cases called : callsAggregate env.routing (list.extend rs) with
        | error defect =>
          rw [called] at decided
          cases decided
        | ok answer =>
          rw [called] at decided
          exact congrArg Except.ok (Except.ok.inj decided)
      have each : ∀ n ∈ (list.extend rs).children, callsAggregate env.routing n = .ok false := by
        cases list
        simp only at headed
        subst headed
        simp only [Node.extend, callsAggregate, reduceCtorEq, if_false] at searched
        exact anyCallsAggregate_eq_false searched
      intro r mem
      have here := each (.derived r) (List.mem_append_right _ (List.mem_map_of_mem mem))
      rw [callsAggregate_derived] at here
      exact ⟨columns r mem, by simp [here]⟩

/-- The columns below a grouping that has a plan do not make the SELECT below grouped. -/
theorem quiet_of_planned (complete : env.Complete) (kind : statement.kind = .select)
    (none : statement.hasChild .limit = false) (columns : ∀ r ∈ rs, r.kind = .columnName) {p : Plan}
    (made : (planWithin env 1 (ungrouped statement (columnList rs))).result = .ok p) :
    ∀ r ∈ rs, QuietColumn env.routing r := by
  have free : (ungrouped statement (columnList rs)).hasChild .limit = false :=
    ungrouped_unlimited rfl none
  rw [planWithin_select 0 (by exact kind), select_unlimited complete _ (by exact kind) free, unlimited,
    bind_eq_ok_iff] at made
  obtain ⟨grouped, decided, made⟩ := made
  rw [orFail_eq_ok] at decided
  cases grouped with
  | true =>
    -- a grouping here would need the plan of one more SELECT, and no level is left for it
    obtain ⟨_, _, endless⟩ := below_of_group made
    cases endless
  | false =>
    obtain ⟨list, found, rows⟩ := rows_eq_ok made
    rw [(ungrouped_shape statement rfl).1] at found
    obtain rfl := Option.some.inj found
    have same : ungrouped statement (columnList rs) =
        (ungrouped statement { kind := .selectList }).withList
          (Node.extend { kind := .selectList } rs) := rfl
    rw [same] at decided rows
    exact quiet_of_rows (by exact kind) rfl columns decided rows

section Alone

variable (kind : statement.kind = .select) (found : statement.selectList? = some list)
  (columns : ∀ r ∈ rs, r.kind = .columnName)

include found

theorem withList_none : statement.withList (list.extend []) = statement := by
  rw [Node.extend_nil, Node.withList_self found]

include columns

/-- The columns below a grouping are those of its list, of what is at the end of that, and of its
keys. -/
theorem mem_needed {r : Node} :
    r ∈ neededColumns env (statement.withList (list.extend rs)) (list.extend rs) ↔
      r ∈ list.references ++ rs ++ Node.referencesAll (groupKeys statement) := by
  have headed := Node.selectList?_kind found
  rw [mem_neededColumns, references_extend headed columns,
    Node.groupKeys_withList found (Node.extend_headed headed rs)]

include kind

/-- A SELECT makes rows if it does with more columns at the end. -/
theorem rows_alone {q : Plan}
    (decided : isGrouped env (statement.withList (list.extend rs)) = .ok false)
    (made : rows env (statement.withList (list.extend rs)) = .ok q) :
    (∀ r ∈ rs, QuietColumn env.routing r) ∧
      ∃ p, rows env statement = .ok p ∧ p.Beside 0 rs.length q := by
  have headed := Node.selectList?_kind found
  obtain ⟨_, found', rows'⟩ := rows_eq_ok made
  rw [Node.selectList?_withList (Node.extend_headed headed rs)] at found'
  obtain rfl := Option.some.inj found'
  have follows : Follows False (Plan.Beside 0 rs.length)
      (rows env (statement.withList (list.extend []))) (rows env (statement.withList (list.extend rs))) :=
    rows_follows kind found (Represents.nil _ rs) (by simp) columns
  rw [withList_none found, made] at follows
  exact ⟨quiet_of_rows kind headed columns decided rows', follows.ok⟩

/-- The columns that a grouping with a plan pushes down do not make a SELECT grouped. -/
theorem quiet_of_group (complete : env.Complete) (none : statement.hasChild .limit = false) {q : Plan}
    (made : (group env (planWithin env 1) (statement.withList (list.extend rs))).result = .ok q) :
    ∀ r ∈ list.references ++ rs ++ Node.referencesAll (groupKeys statement),
      QuietColumn env.routing r := by
  obtain ⟨_, _, _, _, shape⟩ := group_result env (planWithin env 1)
    (Node.selectList?_withList (Node.extend_headed (Node.selectList?_kind found) rs))
  rw [shape] at made
  split at made
  · cases made
  · simp only [bind_eq_ok_iff] at made
    obtain ⟨_, _, _, _, _, _, input, inner, _⟩ := made
    intro r mem
    exact quiet_of_planned complete kind none neededColumns_kind inner r
      ((mem_needed found columns).2 mem)

theorem group_alone (complete : env.Complete) (none : statement.hasChild .limit = false) {q : Plan}
    (made : (group env (planWithin env 1) (statement.withList (list.extend rs))).result = .ok q) :
    (∀ r ∈ rs, QuietColumn env.routing r) ∧
      ∃ p, (group env (planWithin env 1) statement).result = .ok p ∧ p.Beside 0 rs.length q := by
  have quiet := quiet_of_group kind found columns complete none made
  have below : ∀ r ∈ neededColumns env (statement.withList (list.extend rs)) (list.extend rs),
      QuietColumn env.routing r := fun r mem => quiet r ((mem_needed found columns).1 mem)
  have alone : ∀ r ∈ neededColumns env (statement.withList (list.extend [])) (list.extend []),
      QuietColumn env.routing r := fun r mem => by
    have part := (mem_needed found (by simp)).1 mem
    rw [List.append_nil] at part
    refine quiet r ?_
    rcases List.mem_append.1 part with item | key
    · simp [item]
    · simp [key]
  have order : env.settings.sharedSlots = true ∨ env.settings.sharedSlots = false := by
    cases env.settings.sharedSlots <;> simp
  have needed : Represents False []
      (neededColumns env (statement.withList (list.extend [])) (list.extend []))
      (neededColumns env (statement.withList (list.extend rs)) (list.extend rs)) :=
    neededColumns_represents env found (Represents.nil _ rs) (by simp) columns order
  have follows : Follows False (Plan.Beside 0 rs.length)
      (group env (planWithin env 1) (statement.withList (list.extend []))).result
      (group env (planWithin env 1) (statement.withList (list.extend rs))).result :=
    group_follows found (by simp) columns (Nat.zero_le _)
      (innermost_follows complete kind none needed alone below)
  rw [withList_none found, made] at follows
  exact ⟨fun r mem => quiet r (by simp [mem]), follows.ok⟩

theorem unlimited_alone (complete : env.Complete) (none : statement.hasChild .limit = false)
    {q : Plan}
    (made : unlimited env (planWithin env 1) (statement.withList (list.extend rs)) = .ok q) :
    ∃ p, unlimited env (planWithin env 1) statement = .ok p ∧ p.Beside 0 rs.length q := by
  obtain ⟨grouped, decided, made⟩ := bind_eq_ok_iff.1 made
  rw [orFail_eq_ok] at decided
  -- either way the plan shows that the columns do not decide whether the SELECT is grouped
  have both : (∀ r ∈ rs, QuietColumn env.routing r) ∧ ∃ p, (if grouped then
      (group env (planWithin env 1) statement).result else rows env statement) = .ok p ∧
        p.Beside 0 rs.length q := by
    cases grouped with
    | true => exact group_alone kind found columns complete none made
    | false => exact rows_alone kind found columns decided made
  obtain ⟨quiet, p, planned, beside⟩ := both
  have follows : Follows False Eq (isGrouped env (statement.withList (list.extend [])))
      (isGrouped env (statement.withList (list.extend rs))) :=
    isGrouped_follows found (Represents.nil _ rs) (by simp) quiet
  rw [withList_none found, decided] at follows
  obtain ⟨_, decided', rfl⟩ := follows.ok
  exact ⟨p, bind_eq_ok_iff.2 ⟨_, orFail_eq_ok.2 decided', planned⟩, beside⟩

/-- A SELECT has a plan by itself if it has one with more columns at the end. -/
theorem plan_alone (complete : env.Complete) {q : Plan}
    (made : (plan env (statement.withList (list.extend rs))).result = .ok q) :
    ∃ p, (plan env statement).result = .ok p ∧ p.Beside 0 rs.length q := by
  have headed := Node.extend_headed (Node.selectList?_kind found) rs
  have kind' : statement.withoutLimits.kind = .select := kind
  rw [plan_select complete (by exact kind), Node.limits_withList found headed,
    Node.withoutLimits_withList found headed] at made
  have follows : Follows False (Plan.Beside 0 rs.length)
      (unlimited env (planWithin env 1) statement.withoutLimits)
      (unlimited env (planWithin env 1) (statement.withoutLimits.withList (list.extend rs))) :=
    .of_ok fun q made => unlimited_alone kind' (Node.selectList?_withoutLimits found) columns complete
      Node.withoutLimits_unlimited made
  have limited := limited_follows (Nat.zero_le _) follows statement.limits
  rw [made] at limited
  rw [plan_select complete kind]
  exact limited.ok

end Alone

/-- Without a wildcard a SELECT has one column for each item. -/
theorem plan_width (complete : env.Complete) (kind : select.kind = .select)
    (found : select.selectList? = some list) (plain : list.hasChild .all = false) {p : Plan}
    (made : (plan env select).result = .ok p) : p.outputColumns.length = list.children.length := by
  refine plan_select_ok complete kind (P := fun p => p.outputColumns.length = list.children.length)
    (fun _ _ => id) ?_ made
  intro list' q found' ways
  rw [Node.selectList?_withoutLimits found] at found'
  obtain rfl := Option.some.inj found'
  rcases ways with grouped | rows
  · cases grouped with
    | intro => exact List.length_map ..
  · obtain ⟨_, _, _, width⟩ := rows.entries (Node.selectList?_kind found) plain
    exact width

/-- An item of a scanned list stands for one column, a wildcard for those of the table. -/
theorem length_scanItems {table : String} {columns : List String} {ns : List Node}
    {items : List (Node × String)} (h : scanItems table columns ns = .ok items) :
    items.length + ns.countP (·.kind == .all) =
      ns.length + ns.countP (·.kind == .all) * columns.length := by
  induction ns generalizing items with
  | nil =>
    obtain rfl := Except.ok.inj h
    simp
  | cons n rest ih =>
    obtain ⟨first, others, here, below, rfl⟩ := scanItems_cons_eq_ok.1 h
    have more := ih below
    by_cases all : n.kind = .all
    · have wide : first.length = columns.length := by
        simp only [scanItem, all] at here
        rw [← Except.ok.inj here]
        simp [everyColumn]
      rw [List.countP_cons_of_pos (by simpa using all), Nat.succ_mul]
      simp only [List.length_append, List.length_cons]
      omega
    · obtain ⟨m, _, rfl⟩ := (scanItem_eq_ok here).resolve_left fun h => all h.1
      rw [List.countP_cons_of_neg (by simpa using all)]
      simp only [List.length_append, List.length_cons, List.length_nil]
      omega

/-- With a wildcard a SELECT reads a table, and has a column for each item and no more if the table
has at most one. -/
theorem plan_wild (complete : env.Complete) (kind : select.kind = .select)
    (found : select.selectList? = some list) (wild : list.hasChild .all = true) {p : Plan}
    (made : (plan env select).result = .ok p) :
    ∃ table columns, p.table? = some table ∧ env.columns? table = some columns ∧
      (p.outputColumns.length ≤ list.children.length ↔ columns.length ≤ 1) := by
  refine plan_select_ok complete kind (P := fun p => ∃ table columns, p.table? = some table ∧
    env.columns? table = some columns ∧
      (p.outputColumns.length ≤ list.children.length ↔ columns.length ≤ 1)) (fun _ _ => id) ?_ made
  intro list' q found' ways
  rw [Node.selectList?_withoutLimits found] at found'
  obtain rfl := Option.some.inj found'
  rcases ways with grouped | rows
  · cases grouped with
    | intro plain => exact absurd wild (by simp [plain])
  · cases rows with
    | constants plain => exact absurd wild (by simp [plain])
    | @scan table columns items _ _ known listed =>
      refine ⟨table, columns, rfl, known, ?_⟩
      have length := length_scanItems listed
      have some : 0 < list.children.countP (·.kind == .all) := by
        rw [List.countP_pos_iff]
        simpa [Node.hasChild] using wild
      have factor : list.children.countP (·.kind == .all) * columns.length ≤
          list.children.countP (·.kind == .all) * 1 ↔ columns.length ≤ 1 :=
        Nat.mul_le_mul_left_iff some
      simp only [Plan.outputColumns, List.length_map]
      omega

/-- The columns of a series over a SELECT: its name, and as many columns of the SELECT as its list
has items.  These are all of them, unless a wildcard stands for more than one. -/
structure ShowsItems (env : Environment) (list : Node) (p : Plan) (columns : List String) : Prop where
  shown : columns = "series" :: p.outputColumns.take list.children.length
  whole : columns = "series" :: p.outputColumns ↔
    (list.hasChild .all = true → ∀ table names, p.table? = some table →
      env.columns? table = some names → names.length ≤ 1)

/-- As many columns as items of the list. -/
theorem showsItems (complete : env.Complete) (kind : select.kind = .select)
    (found : select.selectList? = some list) {p : Plan} (made : (plan env select).result = .ok p) :
    ShowsItems env list p ("series" :: p.outputColumns.take list.children.length) where
  shown := rfl
  whole := by
    have all : "series" :: p.outputColumns.take list.children.length = "series" :: p.outputColumns ↔
        p.outputColumns.length ≤ list.children.length := by
      rw [List.cons.injEq, List.take_eq_self_iff]
      simp
    rw [all]
    cases wild : list.hasChild .all with
    | false => simp [plan_width complete kind found wild made]
    | true =>
      obtain ⟨table, names, read, known, width⟩ := plan_wild complete kind found wild made
      rw [width]
      constructor
      · intro narrow _ table' names' read' known'
        obtain rfl := Option.some.inj (read.symm.trans read')
        obtain rfl := Option.some.inj (known.symm.trans known')
        exact narrow
      · exact fun narrow => narrow rfl table names read known

/-- A SERIES shows none of the columns that only its name needs, and of those of its SELECT as many
as the list has items. -/
theorem series_columns (complete : env.Complete) (kind : statement.kind = .series)
    (children : statement.children = [name, select]) (selectKind : select.kind = .select) {q : Plan}
    (planned : (buildPlan env statement).result = .ok q) :
    ∃ list columns nameExpr input p, select.selectList? = some list ∧
      q = .series columns nameExpr input ∧ (buildPlan env select).result = .ok p ∧
      ShowsItems env list p columns := by
  rw [buildPlan_eq_ok] at planned
  obtain ⟨_, _, list, children', found⟩ := series_list kind planned
  rw [children] at children'
  obtain ⟨rfl, rfl⟩ : _ ∧ _ := by simpa using children'
  by_cases fixed : name.kind = .seriesName
  · rw [plan_series_fixed kind children found fixed] at planned
    split at planned
    · cases planned
    · obtain ⟨input, c, made, _, _, rfl⟩ := seriesOver_eq_ok planned
      exact ⟨list, _, c.expr, input, input, found, rfl, buildPlan_eq_ok.2 made,
        showsItems complete selectKind found made⟩
  · obtain ⟨name', _, shape⟩ := plan_series_computed env kind children selectKind found fixed
    rw [shape] at planned
    split at planned
    · cases planned
    · rename_i unwild
      obtain ⟨input, c, made, _, _, rfl⟩ := seriesOver_eq_ok planned
      obtain ⟨p, alone, beside⟩ := plan_alone selectKind found nameColumns_kind complete made
      have width := plan_width complete selectKind found (Bool.eq_false_iff.2 unwild) alone
      have shown : input.outputColumns.take list.children.length =
          p.outputColumns.take list.children.length := by
        obtain ⟨own, _, more, left, right, none, _⟩ := beside.columns
        rw [List.length_eq_zero_iff.1 none, List.append_nil] at left
        rw [right, left, ← width, left, List.take_left, List.take_length]
      rw [shown]
      exact ⟨list, _, c.expr, input, p, found, rfl, buildPlan_eq_ok.2 alone,
        showsItems complete selectKind found alone⟩

theorem series_columns_sales :
    ∃ list columns nameExpr input p, salesByCity.selectList? = some list ∧
      salesByNetPlan = .series columns nameExpr input ∧
      (buildPlan salesEnvironment salesByCity).result = .ok p ∧
      ShowsItems salesEnvironment list p columns := by
  have planned : (buildPlan salesEnvironment salesByNet).result = .ok salesByNetPlan := by
    decide +kernel
  exact series_columns (fun _ => rfl) rfl rfl rfl planned

/-- SERIES "all" (SELECT * FROM sales) shows the first column of three. -/
theorem series_drops_wildcard_columns :
    ∃ p, (buildPlan salesEnvironment (.seriesNamed "all" (.select [.all, .table "sales"]))).result =
        .ok (.series ["series", "city"] (.literal (.utf8 "all")) p) ∧
      (buildPlan salesEnvironment (.select [.all, .table "sales"])).result = .ok p ∧
      p.outputColumns = ["city", "total", "tax"] :=
  ⟨.tableScan "sales" ["city", "total", "tax"] ⟨.list [.column 0, .column 1, .column 2], 0⟩ none,
    by decide +kernel, by decide +kernel, rfl⟩

end StatementPlan.Planning
