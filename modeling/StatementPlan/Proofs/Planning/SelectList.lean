/-
A SELECT with another select list: its clauses, keys and limits are what they were.  The SELECT
below a grouping is one without limits and keys; it is not grouped again unless its list calls an
aggregate.

`isGrouped_eq`: keys, or else the list, decide whether a SELECT is grouped.
`isGrouped_follows`: columns at the end of a list do not decide whether a SELECT is grouped.
-/
import StatementPlan.Proofs.Aggregation
import StatementPlan.Proofs.Planning.Result

namespace StatementPlan

namespace Node

/-- The SELECT with another list at its head. -/
def withList (statement list : Node) : Node :=
  { statement with children := list :: statement.children.tail }

variable {statement list list' : Node}

theorem selectList?_eq_some :
    statement.selectList? = some list ↔
      list.kind = .selectList ∧ statement.children = list :: statement.children.tail := by
  unfold selectList?
  cases statement.children with
  | nil => simp
  | cons first rest =>
    simp only [List.tail_cons, List.cons.injEq, and_true]
    constructor
    · intro h
      split at h
      · rename_i kind
        obtain rfl := Option.some.inj h
        exact ⟨kind, rfl⟩
      · cases h
    · intro h
      obtain ⟨kind, rfl⟩ := h
      rw [if_pos kind]

theorem selectList?_kind (found : statement.selectList? = some list) : list.kind = .selectList :=
  (selectList?_eq_some.1 found).1

theorem extend_headed (kind : list.kind = .selectList) (rs : List Node) :
    (list.extend rs).kind = .selectList := kind

theorem selectList?_withList (kind : list.kind = .selectList) :
    (statement.withList list).selectList? = some list :=
  selectList?_eq_some.2 ⟨kind, rfl⟩

theorem withList_self (found : statement.selectList? = some list) :
    statement.withList list = statement := by
  have shape := (selectList?_eq_some.1 found).2
  cases statement
  exact congrArg (Node.mk _ _ · _) shape.symm

@[simp] theorem withList_kind : (statement.withList list).kind = statement.kind := rfl

variable (found : statement.selectList? = some list) (kind : list'.kind = .selectList)

include found kind

theorem filter_withList (keep : Kind → Bool) (drop : keep .selectList = false) :
    (statement.withList list').children.filter (keep ·.kind) =
      statement.children.filter (keep ·.kind) := by
  obtain ⟨kind', shape⟩ := selectList?_eq_some.1 found
  rw [shape]
  simp [withList, kind, kind', drop]

theorem findChild?_withList (clause : Kind) (other : clause ≠ .selectList) :
    (statement.withList list').findChild? clause = statement.findChild? clause := by
  have same := filter_withList found kind (· == clause) (by simpa using other.symm)
  rw [findChild?, findChild?, ← List.head?_filter, same, List.head?_filter]

theorem hasChild_withList (clause : Kind) :
    (statement.withList list').hasChild clause = statement.hasChild clause := by
  obtain ⟨kind', shape⟩ := selectList?_eq_some.1 found
  rw [hasChild, hasChild, shape]
  simp [withList, kind, kind']

theorem refuseClauses_withList :
    RowSource.refuseClauses (statement.withList list') = RowSource.refuseClauses statement := by
  rw [RowSource.refuseClauses, RowSource.refuseClauses, hasChild_withList found kind,
    hasChild_withList found kind]

theorem condition?_withList :
    RowSource.condition? (statement.withList list') = RowSource.condition? statement := by
  rw [RowSource.condition?, RowSource.condition?, findChild?_withList found kind .where (by simp)]

theorem limits_withList : (statement.withList list').limits = statement.limits :=
  filter_withList found kind (· == .limit) rfl

theorem withoutLimits_withList :
    (statement.withList list').withoutLimits = statement.withoutLimits.withList list' := by
  obtain ⟨kind', shape⟩ := selectList?_eq_some.1 found
  simp only [withoutLimits, withList]
  rw [shape]
  simp [kind, kind']

theorem groupKeys_withList :
    Planning.groupKeys (statement.withList list') = Planning.groupKeys statement := by
  rw [Planning.groupKeys, Planning.groupKeys]
  exact congrArg _ (filter_withList found kind (· == .groupBy) rfl)

theorem hasGroupKeys_withList :
    hasGroupKeys (statement.withList list') = hasGroupKeys statement := by
  have same := hasChild_withList found kind .groupBy
  obtain ⟨_, shape⟩ := selectList?_eq_some.1 found
  rw [hasGroupKeys, hasGroupKeys, same]
  conv_rhs => rw [shape]
  rfl

omit kind in
theorem selectList?_withoutLimits : statement.withoutLimits.selectList? = some list := by
  obtain ⟨kind, shape⟩ := selectList?_eq_some.1 found
  refine selectList?_eq_some.2 ⟨kind, ?_⟩
  simp only [withoutLimits]
  rw [shape]
  simp [kind]

omit found kind

theorem withoutLimits_unlimited : statement.withoutLimits.hasChild .limit = false := by
  simp [withoutLimits, hasChild]

theorem groupKeys_withoutLimits :
    Planning.groupKeys statement.withoutLimits = Planning.groupKeys statement := by
  simp only [Planning.groupKeys, withoutLimits, List.filter_filter]
  congr 1
  refine List.filter_congr fun c _ => ?_
  by_cases clause : c.kind = .groupBy
  · simp [clause]
  · simp [clause]

theorem hasChild_extend (list : Node) (rs : List Node) :
    (list.extend rs).hasChild .all = list.hasChild .all := by
  simp [extend, hasChild, derived, ofChildren]

theorem Unplaced.extend (h : list.Unplaced) {rs : List Node} (more : ∀ r ∈ rs, r.Unplaced) :
    (list.extend rs).Unplaced := by
  refine unplaced_iff.2 ⟨h.root, fun c mem => ?_⟩
  rcases List.mem_append.1 mem with old | new
  · exact h.child old
  · obtain ⟨r, needed, rfl⟩ := List.mem_map.1 new
    exact (more r needed).derived

theorem Unplaced.withList (h : statement.Unplaced) (head : list.Unplaced) :
    (statement.withList list).Unplaced := by
  refine unplaced_iff.2 ⟨h.root, fun c mem => ?_⟩
  rcases List.mem_cons.1 mem with rfl | mem
  · exact head
  · exact h.child (List.mem_of_mem_tail mem)

theorem Unplaced.withoutLimits (h : statement.Unplaced) : statement.withoutLimits.Unplaced :=
  unplaced_iff.2 ⟨h.root, fun _ mem => h.child (List.mem_filter.1 mem).1⟩

end Node

namespace Planning

variable {env : Environment} {statement list : Node}

theorem unplaced_list (unplaced : statement.Unplaced) (found : statement.selectList? = some list) :
    list.Unplaced := by
  obtain ⟨_, shape⟩ := Node.selectList?_eq_some.1 found
  exact unplaced.child (by rw [shape]; exact List.mem_cons_self)

theorem unplaced_keys (unplaced : statement.Unplaced) :
    (Node.ofChildren .groupBy (groupKeys statement)).Unplaced := by
  refine Node.unplaced_iff.2 ⟨by simp [Node.ofChildren], fun key mem => ?_⟩
  obtain ⟨clause, part, child⟩ := List.mem_flatMap.1 mem
  exact (unplaced.child (List.mem_filter.1 part).1).child child

theorem callsAggregate_extend {table : SymbolTable} (kind : list.kind = .selectList) {rs : List Node}
    (quiet : ∀ r ∈ rs, QuietColumn table r) :
    callsAggregate table (list.extend rs) =
      match anyCallsAggregate table list.children with
      | .ok false => (fun _ => false) <$> forM rs (searched table)
      | decided => decided := by
  cases list
  simp only at kind
  subst kind
  simp only [Node.extend, callsAggregate, reduceCtorEq, if_false]
  rw [← anyCallsAggregate_derived quiet]
  exact anyCallsAggregate_append ..

theorem selectsAggregate_eq {table : SymbolTable} (found : statement.selectList? = some list) :
    selectsAggregate table statement =
      if statement.kind = .select ∧ statement.children.tail ≠ [] then callsAggregate table list
      else .ok false := by
  obtain ⟨kind, shape⟩ := Node.selectList?_eq_some.1 found
  rw [selectsAggregate, shape]
  by_cases select : statement.kind = .select
  · cases statement.children.tail with
    | nil => simp
    | cons clause rest => simp [select, kind]
  · simp [select]

theorem selectsAggregate_withList {table : SymbolTable} (kind : list.kind = .selectList) :
    selectsAggregate table (statement.withList list) =
      if statement.kind = .select ∧ statement.children.tail ≠ [] then callsAggregate table list
      else .ok false :=
  selectsAggregate_eq (Node.selectList?_withList kind)

theorem isGrouped_eq (kind : statement.kind = .select) (found : statement.selectList? = some list) :
    isGrouped env statement =
      if statement.children.tail = [] then .ok false
      else if statement.hasChild .groupBy then .ok true
      else (callsAggregate env.routing list).mapError .defect := by
  obtain ⟨headed, shape⟩ := Node.selectList?_eq_some.1 found
  have keys : hasGroupKeys statement =
      (decide (statement.children.tail ≠ []) && statement.hasChild .groupBy) := by
    rw [hasGroupKeys, kind]
    congr 1
    conv_lhs => rw [shape]
    cases statement.children.tail <;> simp
  rw [isGrouped, keys, selectsAggregate_eq found]
  by_cases alone : statement.children.tail = []
  · simp [alone]
  · by_cases grouped : statement.hasChild .groupBy = true
    · simp [alone, grouped]
    · simp only [alone, grouped, kind, Bool.and_false, Bool.false_eq_true, if_false, ne_eq, not_false_iff,
        and_self, if_true]
      cases callsAggregate env.routing list <;> rfl

theorem selectsAggregate_follows {table : SymbolTable} {strict : Prop}
    (found : statement.selectList? = some list) {rs rs' : List Node}
    (same : Represents strict (Node.plainColumns list.children) rs rs')
    (quiet : ∀ r ∈ rs, QuietColumn table r) (quiet' : ∀ r ∈ rs', QuietColumn table r) :
    Follows strict Eq (selectsAggregate table (statement.withList (list.extend rs)))
      (selectsAggregate table (statement.withList (list.extend rs'))) := by
  have kind := Node.selectList?_kind found
  have headed := Node.extend_headed kind
  rw [selectsAggregate_withList (headed rs), selectsAggregate_withList (headed rs')]
  split
  · rw [callsAggregate_extend kind quiet, callsAggregate_extend kind quiet']
    cases items : anyCallsAggregate table list.children with
    | error d => exact fun _ => rfl
    | ok called =>
      cases called with
      | true => rfl
      | false => exact (same.check (searched_plainColumns items)).map fun _ => rfl
  · rfl

/-- Columns at the end of a list do not decide whether a SELECT is grouped. -/
theorem isGrouped_follows {strict : Prop} (found : statement.selectList? = some list)
    {rs rs' : List Node} (same : Represents strict (Node.plainColumns list.children) rs rs')
    (quiet : ∀ r ∈ rs, QuietColumn env.routing r) (quiet' : ∀ r ∈ rs', QuietColumn env.routing r) :
    Follows strict Eq (isGrouped env (statement.withList (list.extend rs)))
      (isGrouped env (statement.withList (list.extend rs'))) := by
  have calls := selectsAggregate_follows found same quiet quiet'
  have headed := Node.extend_headed (Node.selectList?_kind found)
  rw [isGrouped, isGrouped, Node.hasGroupKeys_withList found (headed rs),
    Node.hasGroupKeys_withList found (headed rs')]
  by_cases keys : hasGroupKeys statement = true
  · rw [if_pos keys, if_pos keys]
    rfl
  · rw [if_neg keys, if_neg keys]
    revert calls
    cases selectsAggregate env.routing (statement.withList (list.extend rs)) <;>
      cases selectsAggregate env.routing (statement.withList (list.extend rs'))
    · exact fun h s => congrArg PlanError.defect (h s)
    · exact id
    · exact id
    · exact id

/-- The SELECT below a grouping has no keys and no limits of its own. -/
theorem ungrouped_shape (statement : Node) (kind : list.kind = .selectList) :
    (ungrouped statement list).selectList? = some list ∧
      hasGroupKeys (ungrouped statement list) = false :=
  ⟨Node.selectList?_eq_some.2 ⟨kind, rfl⟩, by
    simp [hasGroupKeys, ungrouped, Node.hasChild, kind]⟩

theorem ungrouped_unlimited (kind : list.kind = .selectList)
    (none : statement.hasChild .limit = false) :
    (ungrouped statement list).hasChild .limit = false := by
  simp only [Node.hasChild, List.any_eq_false] at none ⊢
  intro c mem
  rcases List.mem_cons.1 mem with rfl | mem
  · simp [kind]
  · exact none c (List.mem_of_mem_tail (List.mem_filter.1 mem).1)

/-- A SELECT that will not be grouped: it has no keys, and its list calls no aggregate. -/
structure Ungrouped (env : Environment) (statement : Node) : Prop where
  keys : statement.hasChild .groupBy = false
  list : ∃ list, statement.selectList? = some list ∧ callsAggregate env.routing list ≠ .ok true

theorem Ungrouped.not_grouped {statement : Node} (h : Ungrouped env statement) :
    isGrouped env statement ≠ .ok true := by
  obtain ⟨list, found, calls⟩ := h.list
  rw [isGrouped, hasGroupKeys, h.keys, Bool.and_false, if_neg Bool.false_ne_true,
    selectsAggregate_eq found]
  split
  · rename_i searched
    split at searched
    · intro same
      obtain rfl := Except.ok.inj same
      exact calls searched
    · obtain rfl := Except.ok.inj searched
      nofun
  · nofun

/-- A list of quiet columns calls no aggregate. -/
theorem quietColumns_ne_true {table : SymbolTable} {rs : List Node}
    (quiet : ∀ r ∈ rs, QuietColumn table r) :
    callsAggregate table (Node.extend { kind := .selectList } rs) ≠ .ok true := by
  rw [callsAggregate_extend rfl quiet, anyCallsAggregate]
  cases forM rs (searched table) <;> simp

/-- The SELECT below a grouping is not grouped if its list only has quiet columns. -/
theorem ungrouped_quiet {rs : List Node} (quiet : ∀ r ∈ rs, QuietColumn env.routing r) :
    Ungrouped env (ungrouped statement (Node.extend { kind := .selectList } rs)) where
  keys := by simp [ungrouped, Node.hasChild, Node.extend]
  list := ⟨_, (ungrouped_shape statement rfl).1, quietColumns_ne_true quiet⟩

end Planning

end StatementPlan
