/-
What planning makes of a SERIES over a SELECT: the plan of that SELECT with the columns of the
name at the end of its list, under the name placed at items of this list.

`plan_series_fixed`, `plan_series_computed`: the end of planning, push-down done.
`seriesOver_eq_ok`: the plan, if there is one.
`named_computes`: what the plan below a computed name computes.
-/
import StatementPlan.Proofs.Planning.Meaning

namespace StatementPlan

/-- What a SERIES is over, if it is over one thing under a name, is a SELECT. -/
def Node.SeriesOfSelect (statement : Node) : Prop :=
  ∀ name select, statement.kind = .series → statement.children = [name, select] →
    select.kind = .select

namespace Planning

/-- The columns that a name needs at the end of a select list. -/
def nameColumns (env : Environment) (name list : Node) : List Node :=
  PushDown.fresh env.settings.sharedSlots (Node.plainColumns list.children) name.references

/-- The name over the columns of the SELECT, pushed into its list. -/
def pushedName (env : Environment) (name list : Node) : Pushed Node :=
  PushDown.apply { shared := env.settings.sharedSlots } name list

/-- A series over the plan of its SELECT. -/
def seriesOver (env : Environment) (axes : Nat) (name : Node) (input : Except Stop Plan) :
    Except Stop Plan := do
  let input ← input
  let compiled ← compile env.calls name
  let c ← RowSource.stateless (fun bytes => .defect (.scratchpadNeeded .seriesName bytes)) compiled
  return .series ("series" :: input.outputColumns.take axes) c.expr input

variable {env : Environment} {statement name select list : Node}

theorem nestingBound_withList {list' : Node} (kind : select.kind = .select)
    (found : select.selectList? = some list) (kind' : list'.kind = .selectList) :
    nestingBound (select.withList list') = nestingBound select := by
  have same := Node.limits_withList found kind'
  have kind'' : (select.withList list').kind = .select := kind
  rw [nestingBound_select kind, nestingBound_select kind'', List.countP_eq_length_filter,
    List.countP_eq_length_filter]
  exact congrArg (·.length + 2) same

/-- The columns of a computed name always find a place. -/
theorem seriesName_computed (env : Environment) (select : Node) (computed : name.kind ≠ .seriesName)
    (kind : list.kind = .selectList) :
    seriesName env name select list =
      if list.hasChild .all then Run.fail (.unsupported .wildcardUnderComputedName)
      else do
        Run.note (.pushedDown (pushedName env name list).counts.inserted
          (pushedName env name list).counts.reused)
        return ((pushedName env name list).rewritten, select.withList (pushedName env name list).target) := by
  have accepted : (pushedName env name list).accepted = true := (PushDown.apply_accepted _ name kind).1
  rw [seriesName, if_neg computed]
  split
  · rfl
  · show (if (pushedName env name list).accepted then _ else _) = _
    rw [if_pos accepted]
    rfl

theorem plan_series_step (kind : statement.kind = .series)
    (children : statement.children = [name, select]) :
    (plan env statement).result =
      (series env (planWithin env (nestingBound select)) statement).result := by
  obtain ⟨_, token, _, id⟩ := statement
  simp only at kind children
  subst kind children
  rfl

theorem plan_series_fixed (kind : statement.kind = .series)
    (children : statement.children = [name, select]) (found : select.selectList? = some list)
    (fixed : name.kind = .seriesName) :
    (plan env statement).result = match name.token with
      | none => Compile.fail (.malformed .seriesNameWithoutToken)
      | some token =>
        seriesOver env list.children.length (.ofToken .literal token) (plan env select).result := by
  rw [plan_series_step kind children]
  simp only [series, children, found, seriesName, fixed, if_true, Run.bind_result, Run.note_result,
    ok_bind]
  cases name.token with
  | none => rfl
  | some token => rfl

theorem plan_series_computed (env : Environment) (kind : statement.kind = .series)
    (children : statement.children = [name, select]) (selectKind : select.kind = .select)
    (found : select.selectList? = some list) (computed : name.kind ≠ .seriesName) :
    ∃ name', Placed (Node.ItemAt (list.extend (nameColumns env name list)).children) name name' ∧
      (plan env statement).result =
        if list.hasChild .all then Compile.fail (.unsupported .wildcardUnderComputedName)
        else seriesOver env list.children.length name'
          (plan env (select.withList (list.extend (nameColumns env name list)))).result := by
  have headed := Node.selectList?_kind found
  obtain ⟨pushes, placed⟩ := PushDown.apply_pushes { shared := env.settings.sharedSlots } name headed
  have accepted := (PushDown.apply_accepted { shared := env.settings.sharedSlots } name headed).1
  have target := pushes.target
  rw [target] at placed
  refine ⟨_, placed.mono fun slot => slot.item, ?_⟩
  have depth := nestingBound_withList selectKind found
    (Node.extend_headed headed (nameColumns env name list))
  rw [plan_series_step kind children]
  simp only [series, children, found, seriesName, computed, accepted, if_false, if_true,
    Run.bind_result, Run.note_result, ok_bind]
  split
  · rfl
  · simp only [Run.bind_result, Run.note_result, ok_bind, Run.pure_result, target, seriesOver, plan,
      depth]
    rfl

theorem seriesOver_eq_ok {axes : Nat} {x : Except Stop Plan} {p : Plan}
    (h : seriesOver env axes name x = .ok p) :
    ∃ input c, x = .ok input ∧ compile env.calls name = .ok c ∧ c.scratchpad = 0 ∧
      p = .series ("series" :: input.outputColumns.take axes) c.expr input := by
  simp only [seriesOver, bind_eq_ok_iff] at h
  obtain ⟨input, made, c, compiled, _, pure, h⟩ := h
  obtain ⟨rfl, stateless⟩ := stateless_eq_ok.1 pure
  exact ⟨input, c, made, compiled, stateless, (Except.ok.inj h).symm⟩

/-- A SERIES has a plan only over something with a select list. -/
theorem series_list (kind : statement.kind = .series) {p : Plan}
    (planned : (plan env statement).result = .ok p) :
    ∃ name select list, statement.children = [name, select] ∧ select.selectList? = some list := by
  obtain ⟨depth, same⟩ := plan_step env statement
  rw [same, step, kind] at planned
  simp only [series, Run.bind_result, Run.note_result, ok_bind] at planned
  split at planned
  · rename_i name select children
    split at planned
    · cases planned
    · rename_i list found
      exact ⟨name, select, list, children, found⟩
  · cases planned

theorem nameColumns_kind : ∀ r ∈ nameColumns env name list, r.kind = .columnName := fun r mem =>
  (Node.mem_references r (PushDown.mem_of_mem_fresh mem)).1

theorem unplaced_named (unplaced : select.Unplaced) (unplacedName : name.Unplaced)
    (found : select.selectList? = some list) :
    (select.withList (list.extend (nameColumns env name list))).Unplaced := by
  refine unplaced.withList ((unplaced_list unplaced found).extend fun r mem => ?_)
  exact unplacedName.references r (PushDown.mem_of_mem_fresh mem)

theorem named_computes (complete : env.Complete) (kind : select.kind = .select)
    (found : select.selectList? = some list) (plain : list.hasChild .all = false)
    (unplaced : select.Unplaced) (unplacedName : name.Unplaced) {input : Plan}
    (made : (plan env (select.withList (list.extend (nameColumns env name list)))).result =
      .ok input) :
    Computes env (groupKeys select) (list.extend (nameColumns env name list)) input := by
  have headed := Node.extend_headed (Node.selectList?_kind found) (nameColumns env name list)
  have plain' : (list.extend (nameColumns env name list)).hasChild .all = false :=
    (Node.hasChild_extend ..).trans plain
  have computes := plan_computes complete (by exact kind)
    (unplaced_named unplaced unplacedName found)
    (Node.selectList?_withoutLimits (Node.selectList?_withList headed)) plain' made
  rw [Node.groupKeys_withList found headed] at computes
  exact computes

end Planning

end StatementPlan
