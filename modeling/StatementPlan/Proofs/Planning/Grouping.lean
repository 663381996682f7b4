/-
What planning makes of a grouped SELECT: its list and its keys, placed at the columns of the
SELECT below, over the rows of that SELECT.

`pushed_down`: the list, and then the keys, pushed down into an empty list.
`group_run`, `group_result`: planning a grouped SELECT, push-downs done, and how it ends.
`group_eq_ok`: the plan, if there is one, has a row source below.
-/
import StatementPlan.Proofs.Columns.PushDown
import StatementPlan.Proofs.Planning.Rows

namespace StatementPlan.Planning

/-- The items of a grouped SELECT over the columns of the SELECT below. -/
def pushedItems (env : Environment) (source : Node) : Pushed Node :=
  PushDown.apply { shared := env.settings.sharedSlots } source { kind := .selectList }

/-- Its keys after them. -/
def pushedKeys (env : Environment) (statement source : Node) : Pushed (List Node) :=
  (pushedItems env source).counts.applyAll (groupKeys statement) (pushedItems env source).target

/-- The columns of the SELECT below a grouping. -/
def neededColumns (env : Environment) (statement source : Node) : List Node :=
  PushDown.fresh env.settings.sharedSlots []
    (source.references ++ Node.referencesAll (groupKeys statement))

/-- The select list of such columns. -/
def columnList (rs : List Node) : Node := Node.extend { kind := .selectList } rs

/-- The reference is the column at the position. -/
def ColumnAt (rs : List Node) (r : Node) (i : Nat) : Prop := rs[i]? = some r

variable {env : Environment} {below : Node → Run Plan} {statement source : Node}

theorem neededColumns_kind : ∀ r ∈ neededColumns env statement source, r.kind = .columnName := by
  intro r mem
  rcases List.mem_append.1 (PushDown.mem_of_mem_fresh mem) with mem | mem
  · exact (Node.mem_references r mem).1
  · rw [Node.referencesAll_eq_flatMap, List.mem_flatMap] at mem
    obtain ⟨n, _, mem⟩ := mem
    exact (Node.mem_references r mem).1

/-- The columns needed below are those of the list and of the keys. -/
theorem mem_neededColumns {r : Node} : r ∈ neededColumns env statement source ↔
    r ∈ source.references ++ Node.referencesAll (groupKeys statement) :=
  ⟨PushDown.mem_of_mem_fresh, fun mem =>
    (PushDown.mem_seen_or_fresh env.settings.sharedSlots [] mem).resolve_left List.not_mem_nil⟩

theorem references_of_neededColumns_nil (h : neededColumns env statement source = []) :
    source.references = [] ∧ Node.referencesAll (groupKeys statement) = [] := by
  rw [← List.append_eq_nil_iff, List.eq_nil_iff_forall_not_mem]
  intro r mem
  have below := (@mem_neededColumns env statement source r).2 mem
  rw [h] at below
  exact absurd below List.not_mem_nil

theorem itemAt_columnList {rs : List Node} (kinds : ∀ r ∈ rs, r.kind = .columnName) {r : Node}
    {i : Nat} : Node.ItemAt (columnList rs).children r i ↔ ColumnAt rs r i := by
  rw [columnList, Node.extend, List.nil_append]
  exact Node.itemAt_map_derived kinds

theorem pushedItems_headed (env : Environment) (source : Node) :
    (pushedItems env source).target.kind = .selectList :=
  (PushDown.apply_accepted _ source rfl).2

theorem pushedItems_pushes (env : Environment) (source : Node) :
    PushDown.Pushes { shared := env.settings.sharedSlots } source.references { kind := .selectList }
        (pushedItems env source) ∧
      Placed (Node.SlotAt env.settings.sharedSlots (pushedItems env source).target.children) source
        (pushedItems env source).rewritten :=
  PushDown.apply_pushes { shared := env.settings.sharedSlots } source rfl

/-- What comes of the list of a grouping, and then its keys, pushed down into an empty list. -/
structure PushedDown (env : Environment) (statement source : Node) : Prop where
  itemsAccepted : (pushedItems env source).accepted = true
  keysAccepted : (pushedKeys env statement source).accepted = true
  target : (pushedKeys env statement source).target = columnList (neededColumns env statement source)
  items : Placed (ColumnAt (neededColumns env statement source)) source (pushedItems env source).rewritten
  keys : List.Forall₂ (Placed (ColumnAt (neededColumns env statement source))) (groupKeys statement)
    (pushedKeys env statement source).rewritten

theorem pushed_down (env : Environment) (statement source : Node) :
    PushedDown env statement source := by
  have headed := pushedItems_headed env source
  obtain ⟨first, list⟩ := pushedItems_pushes env source
  obtain ⟨second, below⟩ := @PushDown.applyAll_pushes (groupKeys statement)
    (fun n _ p _ => PushDown.apply_pushes p n) (pushedItems env source).counts _ headed
  have target : (pushedKeys env statement source).target =
      columnList (neededColumns env statement source) :=
    (first.append (fun r mem => (Node.mem_references r mem).1) second).target
  have at' : ∀ {r i}, Node.ItemAt (pushedKeys env statement source).target.children r i →
      ColumnAt (neededColumns env statement source) r i := by
    intro r i item
    rw [target] at item
    exact (itemAt_columnList neededColumns_kind).1 item
  constructor
  case itemsAccepted => exact (PushDown.apply_accepted _ source rfl).1
  case keysAccepted => exact (PushDown.applyAll_accepted _ (groupKeys statement) headed).1
  case target => exact target
  case items =>
    -- the keys add to what the list left, so the positions of the list stay valid
    refine list.mono ?_
    intro r i slot
    refine at' ?_
    rw [show (pushedKeys env statement source).target = _ from second.target]
    exact slot.item.append
  case keys =>
    exact forall₂_imp_mem below fun _ _ _ placed => placed.mono fun slot => at' slot.item

/-- What a grouping notes before the SELECT below it is planned. -/
def groupNotes (env : Environment) (statement source : Node) : List Note :=
  [.built .groupBy,
    .pushedDown (pushedKeys env statement source).counts.inserted
      (pushedKeys env statement source).counts.reused,
    .event (.regrouped (neededColumns env statement source).length (groupKeys statement).length
      (pushedKeys env statement source).counts.reused)]

/-- Planning a grouping, push-downs done; these always find a place. -/
theorem group_run (env : Environment) (below : Node → Run Plan)
    (found : statement.selectList? = some source) :
    group env below statement =
      if source.hasChild .all then ⟨[.built .groupBy], .error (.failed (.unsupported .wildcardInGrouped))⟩
      else (⟨groupNotes env statement source, .ok ()⟩ : Run Unit) >>= fun _ => do
        let select ← Run.ofResult (compile env.calls (pushedItems env source).rewritten)
        let group ← Run.ofResult
          (compile env.calls (.ofChildren .groupBy (pushedKeys env statement source).rewritten))
        let group ← Run.ofResult (RowSource.stateless
          (fun bytes => .defect (.scratchpadNeeded .groupKeys bytes)) group)
        let input ← below (ungrouped statement (columnList (neededColumns env statement source)))
        return .groupBy (groupedNames env.settings source.children) select.expr group.expr
          select.scratchpad input := by
  have pushed := pushed_down env statement source
  have width : (columnList (neededColumns env statement source)).children.length =
      (neededColumns env statement source).length := by simp [columnList, Node.extend]
  rw [groupNotes, pushed.keys.length_eq, ← width, ← pushed.target]
  simp only [group, found]
  split
  · rfl
  · show Run.note (.built .groupBy) >>= (fun _ =>
      if !((pushedItems env source).accepted && (pushedKeys env statement source).accepted) then _ else _) = _
    rw [pushed.itemsAccepted, pushed.keysAccepted]
    rfl

theorem group_result (env : Environment) (below : Node → Run Plan)
    (found : statement.selectList? = some source) :
    ∃ list keys, Placed (ColumnAt (neededColumns env statement source)) source list ∧
      Placed (ColumnAt (neededColumns env statement source))
        (.ofChildren .groupBy (groupKeys statement)) keys ∧
      (group env below statement).result =
        if source.hasChild .all then Compile.fail (.unsupported .wildcardInGrouped)
        else do
          let select ← compile env.calls list
          let group ← compile env.calls keys
          let group ← RowSource.stateless
            (fun bytes => .defect (.scratchpadNeeded .groupKeys bytes)) group
          let input ← (below (ungrouped statement
            (columnList (neededColumns env statement source)))).result
          return .groupBy (groupedNames env.settings source.children) select.expr group.expr
            select.scratchpad input := by
  have pushed := pushed_down env statement source
  refine ⟨_, _, pushed.items, .inner (by simp) pushed.keys, ?_⟩
  rw [group_run env below found]
  split
  · rfl
  · simp only [Run.bind_result, Run.ofResult_result, ok_bind, Run.pure_result]
    rfl

/-- A grouped SELECT over the rows of the SELECT below. -/
inductive GroupedBy (env : Environment) (statement source : Node) : Plan → Prop
  | intro {list keys : Node} {select group : Compiled} {input : Plan}
      (plain : source.hasChild .all = false)
      (listPlaced : Placed (ColumnAt (neededColumns env statement source)) source list)
      (keysPlaced : Placed (ColumnAt (neededColumns env statement source))
        (.ofChildren .groupBy (groupKeys statement)) keys)
      (selected : compile env.calls list = .ok select)
      (grouped : compile env.calls keys = .ok group) (stateless : group.scratchpad = 0)
      (rows : RowsOf env (ungrouped statement (columnList (neededColumns env statement source)))
        (columnList (neededColumns env statement source)) input) :
      GroupedBy env statement source (.groupBy (groupedNames env.settings source.children)
        select.expr group.expr select.scratchpad input)

theorem group_list {p : Plan} (h : (group env below statement).result = .ok p) :
    ∃ source, statement.selectList? = some source := by
  cases found : statement.selectList? with
  | none =>
    simp only [group, Run.bind_result, Run.note_result, ok_bind, found] at h
    cases h
  | some source => exact ⟨source, rfl⟩

/-- A grouping has a plan only if the SELECT below has one. -/
theorem below_of_group {p : Plan} (h : (group env below statement).result = .ok p) :
    ∃ rest input, (below rest).result = .ok input := by
  obtain ⟨source, found⟩ := group_list h
  obtain ⟨list, keys, _, _, shape⟩ := group_result env below found
  rw [shape] at h
  split at h
  · cases h
  · simp only [bind_eq_ok_iff] at h
    obtain ⟨_, _, _, _, _, _, input, made, _⟩ := h
    exact ⟨_, input, made⟩

/-- At the innermost level a SELECT is a row source or nothing. -/
theorem innermost_eq_ok (complete : env.Complete) (kind : statement.kind = .select)
    (none : statement.hasChild .limit = false) {p : Plan}
    (h : (planWithin env 1 statement).result = .ok p) :
    ∃ source, statement.selectList? = some source ∧ RowsOf env statement source p := by
  rw [planWithin_select 0 kind, select_unlimited complete _ kind none, unlimited, bind_eq_ok_iff] at h
  obtain ⟨grouped, _, h⟩ := h
  cases grouped with
  | true =>
    -- a grouping here would need the plan of one more SELECT, and no level is left for it
    obtain ⟨_, _, endless⟩ := below_of_group h
    cases endless
  | false => exact rows_eq_ok h

/-- The plan of a grouped SELECT, if there is one. -/
theorem group_eq_ok (complete : env.Complete) (kind : statement.kind = .select)
    (none : statement.hasChild .limit = false) {p : Plan}
    (h : (group env (planWithin env 1) statement).result = .ok p) :
    ∃ source, statement.selectList? = some source ∧ GroupedBy env statement source p := by
  obtain ⟨source, found⟩ := group_list h
  obtain ⟨list, keys, listPlaced, keysPlaced, shape⟩ := group_result env (planWithin env 1) found
  rw [shape] at h
  split at h
  · cases h
  · rename_i plain
    simp only [bind_eq_ok_iff] at h
    obtain ⟨select, selected, _, grouped, group, pure, input, made, h⟩ := h
    obtain ⟨rfl, stateless⟩ := stateless_eq_ok.1 pure
    obtain rfl := Except.ok.inj h
    have headed : (columnList (neededColumns env statement source)).kind = .selectList := rfl
    have unlimited := ungrouped_unlimited headed none
    obtain ⟨_, same, rows⟩ := innermost_eq_ok complete (by exact kind) unlimited made
    rw [(ungrouped_shape statement headed).1] at same
    obtain rfl := Option.some.inj same
    exact ⟨source, found, .intro (Bool.eq_false_iff.2 plain) listPlaced keysPlaced selected grouped
      stateless rows⟩

/-- A SELECT without limits is grouped or makes rows. -/
theorem unlimited_eq_ok (complete : env.Complete) (kind : statement.kind = .select)
    (none : statement.hasChild .limit = false) {p : Plan}
    (h : unlimited env (planWithin env 1) statement = .ok p) :
    ∃ source, statement.selectList? = some source ∧
      (GroupedBy env statement source p ∨ RowsOf env statement source p) := by
  obtain ⟨grouped, _, h⟩ := bind_eq_ok_iff.1 h
  cases grouped with
  | true =>
    obtain ⟨source, found, split⟩ := group_eq_ok complete kind none h
    exact ⟨source, found, .inl split⟩
  | false =>
    obtain ⟨source, found, rows⟩ := rows_eq_ok h
    exact ⟨source, found, .inr rows⟩

/-- What holds of grouped SELECTs and of rows, and is kept by limits, holds of the plan of any
SELECT. -/
theorem plan_select_ok (complete : env.Complete) (kind : statement.kind = .select)
    {P : Plan → Prop} (around : ∀ {p} count offset, P p → P (.limit count offset p))
    (inner : ∀ list p, statement.withoutLimits.selectList? = some list →
      GroupedBy env statement.withoutLimits list p ∨ RowsOf env statement.withoutLimits list p → P p)
    {p : Plan} (planned : (plan env statement).result = .ok p) : P p := by
  rw [plan_select complete kind] at planned
  refine limited_ok around ?_ planned
  intro q made
  have kind' : statement.withoutLimits.kind = .select := kind
  obtain ⟨list, found, ways⟩ := unlimited_eq_ok complete kind' Node.withoutLimits_unlimited made
  exact inner list q found ways

end StatementPlan.Planning
