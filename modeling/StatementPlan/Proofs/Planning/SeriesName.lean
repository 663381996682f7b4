/-
A SERIES under a computed name.  The name adds columns at the end of the list of its SELECT, and
that is all it changes below.

`compileOver_extend`: a list with columns at its end is the list, and the columns after it.
`named_entries`: the entries of the plan below, and the name over them.
`computed_name_extends_select`: the plan below against the plan of the SELECT alone.
-/
import StatementPlan.Proofs.Planning.Scope
import StatementPlan.Proofs.Planning.Simulation

namespace StatementPlan

namespace Planning

open RowSource

variable {env : Environment} {statement name select list : Node} {rs : List Node}

/-- The expressions are the columns of the table that the references name. -/
def ColumnsOf (env : Environment) (table? : Option String) (rs : List Node) (es : List Expr) : Prop :=
  List.Forall₂ (fun r e => ∃ i, e = .column i ∧ env.Reads table? r i) rs es

/-- Without a table a list that compiles has no columns at its end. -/
theorem nil_of_compileOver_none (kind : list.kind = .selectList)
    (columns : ∀ r ∈ rs, r.kind = .columnName) {es : List Expr} {pad : Nat}
    (h : env.compileOver none (list.extend rs) = .ok ⟨.list es, pad⟩) : rs = [] := by
  refine List.eq_nil_iff_forall_not_mem.2 fun r mem => ?_
  obtain ⟨i, here⟩ := List.mem_iff_getElem?.1
    (List.mem_append_right list.children (List.mem_map_of_mem (f := Node.derived) mem))
  obtain ⟨_, _, _, _, none, _⟩ := entries_itemAt (Node.extend_headed kind rs) h
    ⟨_, here, Node.plainColumn?_derived (columns r mem)⟩
  cases none

/-- A list with columns at its end is the list over the table, and the columns after it. -/
theorem compileOver_extend {table? : Option String} (kind : list.kind = .selectList)
    (columns : ∀ r ∈ rs, r.kind = .columnName) {es : List Expr} {pad : Nat}
    (h : env.compileOver table? (list.extend rs) = .ok ⟨.list es, pad⟩) :
    ∃ entries hidden, es = entries ++ hidden ∧
      env.compileOver table? list = .ok ⟨.list entries, pad⟩ ∧
      entries.length = list.children.length ∧ ColumnsOf env table? rs hidden := by
  cases table? with
  | none =>
    obtain rfl := nil_of_compileOver_none kind columns h
    rw [Node.extend_nil] at h
    obtain ⟨es', items, whole⟩ := (compile_list_eq_ok kind).1 h
    obtain rfl := Expr.list.inj whole
    exact ⟨es, [], (List.append_nil _).symm, h, (compileAll_items items).length_eq.symm, .nil⟩
  | some table =>
    obtain ⟨names, known⟩ := known_of_compileOver h table rfl
    obtain ⟨ms, es', below, compiled, whole⟩ :=
      (compileOver_list_eq_ok known (Node.extend_headed kind rs)).1 h
    obtain rfl := Expr.list.inj whole
    obtain ⟨own, more, rfl, items, pushed⟩ := forall₂_append_left below
    obtain ⟨hidden, free, reads⟩ := Compile.compileAll_derived env.calls columns pushed
    rw [Compile.compileAll_append, bind_eq_ok_iff] at compiled
    obtain ⟨⟨entries, used⟩, alone, joined⟩ := compiled
    simp only [free, ok_bind, pure, Except.pure, Except.ok.injEq, Prod.mk.injEq] at joined
    obtain ⟨rfl, rfl⟩ := joined
    have width := items.length_eq.trans (compileAll_items alone).length_eq
    refine ⟨entries, hidden, rfl, (compileOver_list_eq_ok known kind).2
      ⟨own, entries, items, alone, rfl⟩, width.symm, ?_⟩
    refine reads.imp fun r e => ?_
    intro h
    obtain ⟨i, named, rfl⟩ := h
    exact ⟨i, rfl, table, names, rfl, known, named⟩

/-- The entries below a computed name, and the name over them. -/
theorem named_entries {keys : List Node} {input : Plan}
    (computes : Computes env keys (list.extend (nameColumns env name list)) input)
    (kind : list.kind = .selectList) (unplacedName : name.Unplaced) {name' : Node}
    (placed : Placed (Node.ItemAt (list.extend (nameColumns env name list)).children) name name')
    {c : Compiled} (compiled : compile env.calls name' = .ok c) :
    ∃ entries hidden pad e, input.entries? = some (entries ++ hidden) ∧
      env.compileOver input.table? list = .ok ⟨.list entries, pad⟩ ∧
      entries.length = list.children.length ∧
      ColumnsOf env input.table? (nameColumns env name list) hidden ∧
      c.expr.substitute? (entries ++ hidden) = some e ∧
      env.compileOver input.table? name = .ok ⟨e, c.scratchpad⟩ := by
  have headed := Node.extend_headed kind (nameColumns env name list)
  obtain ⟨es, pad, read, meant⟩ := computes.entries
  obtain ⟨entries, hidden, rfl, alone, width, columns⟩ := compileOver_extend kind nameColumns_kind meant
  obtain ⟨e, restored, direct⟩ := substitute_placed (known_of_compileOver meant)
    (fun item => entries_itemAt headed meant item) unplacedName placed compiled
  exact ⟨entries, hidden, pad, e, read, alone, width, columns, restored, direct⟩

theorem Computes.keys_eq {keys : List Node} {list list' : Node} {p q : Plan}
    (h : Computes env keys list p) (h' : Computes env keys list' q) (stages : p.stages = q.stages) :
    ∃ ks, p.keys? = some ks ∧ q.keys? = some ks := by
  obtain ⟨ks, read, length, each⟩ := h.keys
  obtain ⟨ks', read', length', each'⟩ := h'.keys
  have same : ks = ks' := by
    refine List.ext_getElem (by rw [length, length', stages]) fun i bound bound' => ?_
    have left := each ks[i] (List.getElem_mem bound)
    have right := each' ks'[i] (List.getElem_mem bound')
    rw [Plan.table?_eq_of_stages stages, right] at left
    exact (Compiled.mk.inj (Except.ok.inj left)).1.symm
  exact ⟨ks, read, same ▸ read'⟩

/-- The plan below a computed name is that of the SELECT alone, with more columns at the end: each
a column of the table that the name refers to, and the name means over them what it does over the
table. -/
structure ExtendsSelect (env : Environment) (list name : Node) (p input : Plan) (nameExpr : Expr) :
    Prop where
  stages : p.stages = input.stages
  columns : p.outputColumns <+: input.outputColumns
  width : p.outputColumns.length = list.children.length
  entries : ∃ entries hidden, p.entries? = some entries ∧
    input.entries? = some (entries ++ hidden) ∧
    (∀ e ∈ hidden, ∃ r ∈ name.references, ∃ i, e = .column i ∧ env.Reads input.table? r i) ∧
    ∃ e, nameExpr.substitute? (entries ++ hidden) = some e ∧
      env.compileOver input.table? name = .ok ⟨e, 0⟩
  keys : ∃ keys, p.keys? = some keys ∧ input.keys? = some keys

/-- A SELECT has a plan if it has one with the columns of a name. -/
theorem plan_select_alone (complete : env.Complete) (kind : select.kind = .select)
    (found : select.selectList? = some list) (plain : select.PlainNames env.routing)
    (plainName : name.PlainNames env.routing) {input : Plan}
    (made : (plan env (select.withList (list.extend (nameColumns env name list)))).result =
      .ok input) :
    ∃ p, (plan env select).result = .ok p ∧ p.Beside 0 (nameColumns env name list).length input := by
  have quiet : ∀ r ∈ nameColumns env name list, QuietColumn env.routing r := fun r mem =>
    plainName.references r (PushDown.mem_of_mem_fresh mem)
  -- the SELECT alone is the one with no columns at its end, under the same settings
  have order : env.settings.sharedSlots = true ∨ env.settings.sharedSlots = false := by
    cases env.settings.sharedSlots <;> simp
  have follows := plan_select_follows complete kind found plain
    (Represents.nil _ (nameColumns env name list)) (by simp) quiet order
  rw [Node.extend_nil, Node.withList_self found] at follows
  have made' : (plan (env.sharing env.settings.sharedSlots)
      (select.withList (list.extend (nameColumns env name list)))).result = .ok input := made
  rw [made'] at follows
  exact follows.ok

/-- A computed name extends the plan of its SELECT and changes nothing else. -/
theorem computed_name_extends_select (complete : env.Complete) (kind : statement.kind = .series)
    (children : statement.children = [name, select]) (computed : name.kind ≠ .seriesName)
    (selectKind : select.kind = .select) (unplaced : statement.Unplaced)
    (plain : statement.PlainNames env.routing) {q : Plan}
    (planned : (buildPlan env statement).result = .ok q) :
    ∃ list columns nameExpr input p, select.selectList? = some list ∧
      q = .series columns nameExpr input ∧ (buildPlan env select).result = .ok p ∧
      ExtendsSelect env list name p input nameExpr := by
  rw [buildPlan_eq_ok] at planned
  obtain ⟨_, _, list, children', found⟩ := series_list kind planned
  rw [children] at children'
  obtain ⟨rfl, rfl⟩ : _ ∧ _ := by simpa using children'
  have here : name ∈ statement.children ∧ select ∈ statement.children := by simp [children]
  have unplacedSelect := unplaced.child here.2
  obtain ⟨name', placed, shape⟩ := plan_series_computed env kind children selectKind found computed
  rw [shape] at planned
  split at planned
  · cases planned
  · rename_i wildcard
    have plainList := Bool.eq_false_iff.2 wildcard
    obtain ⟨input, c, made, compiled, stateless, rfl⟩ := seriesOver_eq_ok planned
    obtain ⟨p, alone, beside⟩ := (plan_select_alone complete selectKind found
      (plain.child here.2) (plain.child here.1) made)
    have computes := plan_computes complete selectKind unplacedSelect
      (Node.selectList?_withoutLimits found) plainList alone
    have computes' := named_computes complete selectKind found plainList unplacedSelect
      (unplaced.child here.1) made
    obtain ⟨entries, hidden, pad, e, read', direct, _, columns, restored, meant⟩ :=
      named_entries computes' (Node.selectList?_kind found) (unplaced.child here.1) placed
        compiled
    obtain ⟨es, pad', read, direct'⟩ := computes.entries
    rw [Plan.table?_eq_of_stages beside.stages, direct] at direct'
    obtain rfl := Expr.list.inj (Compiled.mk.inj (Except.ok.inj direct')).1
    rw [stateless] at meant
    refine ⟨list, _, c.expr, input, p, found, rfl, buildPlan_eq_ok.2 alone, beside.stages, ?_,
      computes.width, ⟨entries, hidden, read, read', ?_, e, restored, meant⟩,
      computes.keys_eq computes' beside.stages⟩
    · obtain ⟨shown, more, more', left, right, none, _⟩ := beside.columns
      rw [left, right, List.length_eq_zero_iff.1 none, List.append_nil]
      exact List.prefix_append ..
    · intro e mem
      obtain ⟨r, needed, i, column, reads⟩ := exists_of_mem_right columns mem
      exact ⟨r, PushDown.mem_of_mem_fresh needed, i, column, reads⟩

theorem computed_name_extends_select_sales :
    ∃ list columns nameExpr input p, salesByCity.selectList? = some list ∧
      salesByNetPlan = .series columns nameExpr input ∧
      (buildPlan salesEnvironment salesByCity).result = .ok p ∧
      ExtendsSelect salesEnvironment list
        (.binary (.operator .sub) (.column "total") (.column "tax")) p input nameExpr := by
  have planned : (buildPlan salesEnvironment salesByNet).result = .ok salesByNetPlan := by
    decide +kernel
  exact computed_name_extends_select (fun _ => rfl) rfl rfl (by decide) rfl (by decide +kernel)
    (by decide +kernel) planned

end Planning

end StatementPlan
