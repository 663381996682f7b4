/-
Planning with shared slots and without, and with more or fewer columns at the end of the list: the
runs go side by side through the grouping, the limits and the SELECT as a whole.

`group_follows`: a grouping, over SELECTs that go side by side themselves.
`unlimited_follows`: a SELECT without limits.
`plan_select_follows`: the plan of a SELECT.
-/
import StatementPlan.Proofs.Planning.Alongside
import StatementPlan.Proofs.Planning.Grouping

namespace StatementPlan

/-- The surroundings with slots shared or not. -/
def Environment.sharing (env : Environment) (shared : Bool) : Environment :=
  { env with settings := { env.settings with sharedSlots := shared } }

theorem Environment.Complete.sharing {env : Environment} (h : env.Complete) (shared : Bool) :
    (env.sharing shared).Complete := h

namespace Planning

variable {env : Environment} {statement list : Node} {strict : Prop} {rs rs' : List Node}
  {b b' : Bool}

theorem references_extend (kind : list.kind = .selectList) (columns : ∀ r ∈ rs, r.kind = .columnName) :
    (list.extend rs).references = list.references ++ rs := by
  have other : list.kind ≠ .columnName := by simp [kind]
  have other' : (list.extend rs).kind ≠ .columnName := other
  rw [Node.references_of_ne other, Node.references_of_ne other', Node.extend,
    Node.referencesAll_append, Node.referencesAll_map_derived columns]

/-- The columns below a grouping whose list has more columns at its end. -/
theorem neededColumns_extend (found : statement.selectList? = some list)
    (columns : ∀ r ∈ rs, r.kind = .columnName) :
    neededColumns (env.sharing b) (statement.withList (list.extend rs)) (list.extend rs) =
      PushDown.fresh b []
        (list.references ++ rs ++ Node.referencesAll (groupKeys statement)) := by
  have kind := Node.selectList?_kind found
  have headed := Node.extend_headed kind rs
  rw [neededColumns, references_extend kind columns, Node.groupKeys_withList found headed]
  rfl

theorem neededColumns_represents (env : Environment)
    (found : statement.selectList? = some list)
    (same : Represents strict (Node.plainColumns list.children) rs rs')
    (columns : ∀ r ∈ rs, r.kind = .columnName) (columns' : ∀ r ∈ rs', r.kind = .columnName)
    (order : b = true ∨ b' = false) :
    Represents strict []
      (neededColumns (env.sharing b) (statement.withList (list.extend rs)) (list.extend rs))
      (neededColumns (env.sharing b') (statement.withList (list.extend rs')) (list.extend rs')) := by
  have kind := Node.selectList?_kind found
  rw [neededColumns_extend found columns, neededColumns_extend found columns']
  refine same.between (fun r mem => ?_) order
  rw [Node.references_of_ne (by simp [kind])]
  exact Node.mem_referencesAll_of_mem_plainColumns mem

theorem neededColumns_quiet (found : statement.selectList? = some list)
    (plain : statement.PlainNames env.routing) (quiet : ∀ r ∈ rs, QuietColumn env.routing r) :
    ∀ r ∈ neededColumns (env.sharing b) (statement.withList (list.extend rs)) (list.extend rs),
      QuietColumn env.routing r := by
  obtain ⟨_, shape⟩ := Node.selectList?_eq_some.1 found
  have head : list ∈ statement.children := by
    rw [shape]
    exact List.mem_cons_self
  rw [neededColumns_extend found fun r mem => (quiet r mem).kind]
  intro r mem
  have mem := PushDown.mem_of_mem_fresh mem
  simp only [List.mem_append, Node.referencesAll_eq_flatMap, List.mem_flatMap, groupKeys] at mem
  rcases mem with (mem | mem) | ⟨key, ⟨clause, part, child⟩, mem⟩
  · exact (plain.child head).references r mem
  · exact quiet r mem
  · exact ((plain.child (List.mem_filter.1 part).1).child child).references r mem

/-- A grouping, over SELECTs that go side by side themselves. -/
theorem group_follows (found : statement.selectList? = some list)
    (columns : ∀ r ∈ rs, r.kind = .columnName) (columns' : ∀ r ∈ rs', r.kind = .columnName)
    (shorter : rs.length ≤ rs'.length) {below below' : Node → Run Plan} {m n : Nat}
    (inner : Follows strict (Plan.Beside m n)
      (below (ungrouped statement (columnList (neededColumns (env.sharing b)
        (statement.withList (list.extend rs)) (list.extend rs))))).result
      (below' (ungrouped statement (columnList (neededColumns (env.sharing b')
        (statement.withList (list.extend rs')) (list.extend rs'))))).result) :
    Follows strict (Plan.Beside rs.length rs'.length)
      (group (env.sharing b) below (statement.withList (list.extend rs))).result
      (group (env.sharing b') below' (statement.withList (list.extend rs'))).result := by
  have kind := Node.selectList?_kind found
  have headed := Node.extend_headed kind
  obtain ⟨select, keys, selectPlaced, keysPlaced, shape⟩ := group_result (env.sharing b) below
    (Node.selectList?_withList (headed rs))
  obtain ⟨select', keys', selectPlaced', keysPlaced', shape'⟩ := group_result (env.sharing b') below'
    (Node.selectList?_withList (headed rs'))
  rw [shape, shape', Node.hasChild_extend, Node.hasChild_extend]
  rw [Node.groupKeys_withList found (headed _)] at keysPlaced keysPlaced'
  split
  · exact fun _ => rfl
  · refine (compile_extend_follows kind columns columns' selectPlaced selectPlaced').relax.bind
      fun bytes => ?_
    refine (compile_bytes env.calls keysPlaced keysPlaced').relax.bind fun grouped => ?_
    refine (stateless_follows _ grouped).bind fun _ => ?_
    refine inner.bind ?_
    intro p q beside
    obtain ⟨stages, _, widths⟩ := beside
    refine ⟨?_, ⟨groupedNames env.settings list.children, groupedNames env.settings (rs.map .derived),
      groupedNames env.settings (rs'.map .derived), ?_⟩, ?_⟩
    · simp [Plan.stages, stages, bytes]
    · exact ⟨List.map_append .., List.map_append .., by simp [groupedNames], by simp [groupedNames]⟩
    · have narrower : (groupedNames env.settings (list.extend rs).children).length ≤
          (groupedNames env.settings (list.extend rs').children).length := by
        simp only [groupedNames, Node.extend, List.length_map, List.length_append]
        omega
      exact .cons narrower widths

/-- The SELECTs below the two groupings. -/
theorem innermost_follows (complete : env.Complete) (kind : statement.kind = .select)
    (none : statement.hasChild .limit = false) (same : Represents strict [] rs rs')
    (quiet : ∀ r ∈ rs, QuietColumn env.routing r) (quiet' : ∀ r ∈ rs', QuietColumn env.routing r) :
    Follows strict (Plan.Beside rs.length rs'.length)
      (planWithin (env.sharing b) 1 (ungrouped statement (columnList rs))).result
      (planWithin (env.sharing b') 1 (ungrouped statement (columnList rs'))).result := by
  have headed : ({ kind := .selectList } : Node).kind = .selectList := rfl
  have found := (ungrouped_shape statement headed).1
  have kinds : ∀ more, (ungrouped statement (columnList more)).kind = .select := fun _ => kind
  have free : ∀ more, (ungrouped statement (columnList more)).hasChild .limit = false := fun more =>
    ungrouped_unlimited rfl none
  rw [planWithin_select 0 (kinds rs), planWithin_select 0 (kinds rs'),
    select_unlimited (complete.sharing b) _ (kinds rs) (free rs),
    select_unlimited (complete.sharing b') _ (kinds rs') (free rs'), unlimited, unlimited]
  have grouped : Follows strict Eq (isGrouped env (ungrouped statement (columnList rs)))
      (isGrouped env (ungrouped statement (columnList rs'))) :=
    isGrouped_follows found same quiet quiet'
  -- the columns are quiet, so neither is grouped again; the search may still fail
  have never := (orFail_follows grouped).with_left (P := (· = false)) fun answer decided => by
    cases answer with
    | true => exact absurd (orFail_eq_ok.1 decided) (ungrouped_quiet quiet).not_grouped
    | false => rfl
  refine never.bind ?_
  intro _ _ both
  obtain ⟨rfl, rfl⟩ := both
  exact rows_follows (kinds []) found same (fun r mem => (quiet r mem).kind) fun r mem =>
    (quiet' r mem).kind

theorem unlimited_follows (complete : env.Complete) (kind : statement.kind = .select)
    (none : statement.hasChild .limit = false) (found : statement.selectList? = some list)
    (plain : statement.PlainNames env.routing)
    (same : Represents strict (Node.plainColumns list.children) rs rs')
    (quiet : ∀ r ∈ rs, QuietColumn env.routing r) (quiet' : ∀ r ∈ rs', QuietColumn env.routing r)
    (order : b = true ∨ b' = false) :
    Follows strict (Plan.Beside rs.length rs'.length)
      (unlimited (env.sharing b) (planWithin (env.sharing b) 1) (statement.withList (list.extend rs)))
      (unlimited (env.sharing b') (planWithin (env.sharing b') 1)
        (statement.withList (list.extend rs'))) := by
  have columns : ∀ r ∈ rs, r.kind = .columnName := fun r mem => (quiet r mem).kind
  have columns' : ∀ r ∈ rs', r.kind = .columnName := fun r mem => (quiet' r mem).kind
  have grouped : Follows strict Eq (isGrouped env (statement.withList (list.extend rs)))
      (isGrouped env (statement.withList (list.extend rs'))) :=
    isGrouped_follows found same quiet quiet'
  refine (orFail_follows grouped).bind ?_
  -- both are grouped or neither is
  intro answer _ same
  subst same
  cases answer with
  | true =>
    have needed := neededColumns_represents env found same columns columns' order
    exact group_follows found columns columns' same.length_le
      (innermost_follows complete kind none needed (neededColumns_quiet found plain quiet)
        (neededColumns_quiet found plain quiet'))
  | false => exact rows_follows kind found same columns columns'

theorem limited_follows {m n : Nat} (narrower : m ≤ n) {x y : Except Stop Plan}
    (h : Follows strict (Plan.Beside m n) x y) (clauses : List Node) :
    Follows strict (Plan.Beside m n) (limited clauses x) (limited clauses y) := by
  induction clauses with
  | nil => exact h
  | cons clause rest ih =>
    rw [limited, limited, List.foldr_cons, List.foldr_cons, ← limited, ← limited]
    refine .bind_same _ ?_
    intro counts
    obtain ⟨count, offset⟩ := counts
    refine ih.bind ?_
    intro p q beside
    obtain ⟨stages, ⟨shown, more, more', shape, shape', rfl, rfl⟩, widths⟩ := beside
    have wide : p.outputColumns.length ≤ q.outputColumns.length := by
      simp only [shape, shape', List.length_append]
      omega
    exact ⟨congrArg (Stage.limit count offset :: ·) stages,
      ⟨shown, more, more', shape, shape', rfl, rfl⟩, .cons wide widths⟩

theorem plainNames_withoutLimits (kind : statement.kind = .select)
    (plain : statement.PlainNames env.routing) : statement.withoutLimits.PlainNames env.routing := by
  have other : statement.withoutLimits.kind ≠ .columnName := fun column => by
    cases kind.symm.trans column
  exact .of_children other fun c mem => plain.child (List.mem_filter.1 mem).1

/-- The plan of a SELECT whose list has different columns at its end. -/
theorem plan_select_follows (complete : env.Complete) (kind : statement.kind = .select)
    (found : statement.selectList? = some list)
    (plain : statement.PlainNames env.routing)
    (same : Represents strict (Node.plainColumns list.children) rs rs')
    (quiet : ∀ r ∈ rs, QuietColumn env.routing r) (quiet' : ∀ r ∈ rs', QuietColumn env.routing r)
    (order : b = true ∨ b' = false) :
    Follows strict (Plan.Beside rs.length rs'.length)
      (plan (env.sharing b) (statement.withList (list.extend rs))).result
      (plan (env.sharing b') (statement.withList (list.extend rs'))).result := by
  have headed := Node.extend_headed (Node.selectList?_kind found)
  have kinds : ∀ more, (statement.withList (list.extend more)).kind = .select := fun _ => kind
  rw [plan_select (complete.sharing b) (kinds rs), plan_select (complete.sharing b') (kinds rs'),
    Node.limits_withList found (headed rs), Node.limits_withList found (headed rs'),
    Node.withoutLimits_withList found (headed rs), Node.withoutLimits_withList found (headed rs')]
  exact limited_follows same.length_le (unlimited_follows complete (by exact kind)
    Node.withoutLimits_unlimited (Node.selectList?_withoutLimits found)
    (plainNames_withoutLimits kind plain) same quiet quiet' order) _

end Planning

end StatementPlan
