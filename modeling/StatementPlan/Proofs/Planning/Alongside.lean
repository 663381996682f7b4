/-
Two runs of planning side by side, over SELECTs whose lists differ in columns at the end.  As far
as these say the same about the columns needed, the runs end alike: with plans of the same
operators, or for the same reason.

`scan_follows`, `constants_follows`: the row sources.
`rows_follows`: the SELECTs that they make rows of.
`compile_extend_follows`: the lists of two groupings.
-/
import StatementPlan.Proofs.Planning.Rows

namespace StatementPlan

open RowSource

/-- Two plans with the same operators, whose columns are the same but for `m` and `n` of them at
the end; nowhere is the first one wider. -/
structure Plan.Beside (m n : Nat) (p q : Plan) : Prop where
  stages : p.stages = q.stages
  columns : ∃ shown more more', p.outputColumns = shown ++ more ∧ q.outputColumns = shown ++ more' ∧
    more.length = m ∧ more'.length = n
  widths : List.Forall₂ (· ≤ ·) p.widths q.widths

namespace Planning

variable {env : Environment} {statement list : Node} {strict : Prop} {rs rs' : List Node}

theorem orFail_follows {R : α → β → Prop} {x : Except PlanError α} {y : Except PlanError β}
    (h : Follows strict R x y) : Follows strict R (orFail x) (orFail y) := by
  cases x <;> cases y
  · exact fun s => congrArg Stop.failed (h s)
  · exact h
  · exact h
  · exact h

theorem stateless_follows (error : Nat → PlanError) {c d : Compiled}
    (h : c.scratchpad = d.scratchpad) :
    Follows strict (fun c d => c.scratchpad = d.scratchpad) (stateless error c)
      (stateless error d) := by
  rw [stateless, stateless, h]
  split
  · exact h
  · exact fun _ => rfl

/-- Items that consist of columns pass the check that they name columns of the table. -/
theorem named_plainColumns {table : String} {columns : List String} {ns : List Node}
    {items : List (Node × String)} (h : scanItems table columns ns = .ok items) :
    ∀ r ∈ Node.plainColumns ns, named table columns r = .ok () := by
  induction ns generalizing items with
  | nil => exact fun r mem => absurd mem List.not_mem_nil
  | cons n rest ih =>
    obtain ⟨first, others, here, below, _⟩ := scanItems_cons_eq_ok.1 h
    intro r mem
    obtain ⟨item, mem, plain⟩ := Node.mem_plainColumns.1 mem
    rcases List.mem_cons.1 mem with rfl | mem
    · obtain ⟨derived, column, head⟩ := Node.plainColumn?_eq_some plain
      rcases scanItem_eq_ok here with ⟨all, _⟩ | ⟨m, placed, _⟩
      · cases derived.symm.trans all
      · have position := exists_placed_iff.1 ⟨m, placed⟩ r (by
          rw [Node.references_of_ne (by simp [derived]), Node.referencesAll_eq_flatMap]
          exact List.mem_flatMap.2 ⟨r, List.mem_of_mem_head? head,
            by simp [Node.references_of_columnName column]⟩)
        obtain ⟨i, position⟩ := position
        rw [named, bound_eq_ok.2 (.column column position)]
        rfl
    · exact ih below r (Node.mem_plainColumns.2 ⟨item, mem, plain⟩)

theorem scanItems_follows {table : String} {columns : List String}
    (same : Represents strict (Node.plainColumns list.children) rs rs') :
    Follows strict (fun items items' => ∃ own more more', items = own ++ more ∧
      items' = own ++ more' ∧
      List.Forall₂ (Placed (NamedBy columns)) (rs.map .derived) (more.map (·.1)) ∧
      List.Forall₂ (Placed (NamedBy columns)) (rs'.map .derived) (more'.map (·.1)))
      (scanItems table columns (list.extend rs).children)
      (scanItems table columns (list.extend rs').children) := by
  simp only [Node.extend, scanItems_append]
  cases own : scanItems table columns list.children with
  | error e => exact fun _ => rfl
  | ok items =>
    -- what is at the end of each list is bound as a check, and the checks go side by side
    have left := (scanItems_derived table columns rs).symm id
    have right := scanItems_derived table columns rs'
    have checks := same.check (named_plainColumns own)
    have between := (left.relax.trans checks fun bound _ => bound).trans right.relax
      fun bound bound' => And.intro bound bound'
    refine between.bind ?_
    intro more more' both
    obtain ⟨bound, bound'⟩ := both
    exact ⟨items, more, more', rfl, rfl, bound, bound'⟩

theorem scan_follows (kind : statement.kind = .select) (found : statement.selectList? = some list)
    (same : Represents strict (Node.plainColumns list.children) rs rs')
    (columns : ∀ r ∈ rs, r.kind = .columnName) (columns' : ∀ r ∈ rs', r.kind = .columnName)
    {clause : Node} (source : statement.findChild? .from = some clause) :
    Follows strict (fun a b => ∃ p q, a = some p ∧ b = some q ∧ p.Beside rs.length rs'.length q)
      (scan env (statement.withList (list.extend rs)))
      (scan env (statement.withList (list.extend rs'))) := by
  have headed := Node.extend_headed (Node.selectList?_kind found)
  have listed : ∀ more, selectList (statement.withList (list.extend more)) = .ok (list.extend more) :=
    fun more => selectList_eq_ok.2 (Node.selectList?_withList (headed more))
  simp only [scan, Node.withList_kind, kind, if_true,
    Node.findChild?_withList found (headed _) .from (by simp), source,
    Node.refuseClauses_withList found (headed _), Node.condition?_withList found (headed _), listed]
  refine .bind_same _ fun _ => .bind_same _ ?_
  intro known
  obtain ⟨table, names⟩ := known
  refine (orFail_follows (scanItems_follows same)).bind ?_
  intro items items' h
  obtain ⟨own, more, more', rfl, rfl, bound, bound'⟩ := h
  obtain ⟨es, compiled, _⟩ := Compile.compileAll_derived env.calls columns bound
  obtain ⟨es', compiled', _⟩ := Compile.compileAll_derived env.calls columns' bound'
  have bytes : Follows strict (fun c d : Compiled => c.scratchpad = d.scratchpad)
      (compile env.calls (.ofChildren .selectList ((own ++ more).map (·.1))))
      (compile env.calls (.ofChildren .selectList ((own ++ more').map (·.1)))) := by
    rw [compile_append rfl (List.map_append ..) compiled,
      compile_append rfl (List.map_append ..) compiled']
    exact (Follows.of_eq rfl).map (congrArg Prod.snd)
  refine bytes.bind fun equal => ?_
  refine (stateless_follows _ equal).bind fun equal => ?_
  refine .bind_same _ fun predicate => ?_
  have length : rs.length = more.length := by simpa using bound.length_eq
  have length' : rs'.length = more'.length := by simpa using bound'.length_eq
  refine ⟨_, _, rfl, rfl, ?_, ⟨own.map (·.2), more.map (·.2), more'.map (·.2), ?_⟩, ?_⟩
  · simp [Plan.stages, equal]
  · simp [Plan.outputColumns, length, length']
  · have shorter := same.length_le
    have narrower : ((own ++ more).map (·.2)).length ≤ ((own ++ more').map (·.2)).length := by
      simp only [List.length_map, List.length_append]
      omega
    exact .cons narrower .nil

theorem compileAll_unbound (table : SymbolTable) (kinds : ∀ r ∈ rs, r.kind = .columnName)
    (used : Nat) : Follows True (fun _ answer => answer.2 = used) (forM rs unbound)
      (Compile.compileAll table (rs.map .derived) used) := by
  cases rs with
  | nil => exact rfl
  | cons r rest =>
    rw [List.map_cons, Compile.compileAll,
      compileNode_plain (Node.plainColumn?_derived (kinds r (by simp)))]
    exact fun _ => rfl

/-- Without a table there are no items that consist of columns. -/
theorem unbound_plainColumns {table : SymbolTable} {ns : List Node} {used total : Nat}
    {es : List Expr} (h : Compile.compileAll table ns used = .ok (es, total)) :
    ∀ r ∈ Node.plainColumns ns, unbound r = .ok () := by
  intro r mem
  obtain ⟨item, mem, plain⟩ := Node.mem_plainColumns.1 mem
  obtain ⟨i, here⟩ := List.mem_iff_getElem?.1 mem
  obtain ⟨e, _, before, after, one⟩ := exists_getElem? (compileAll_items h) here
  rw [compileNode_plain plain] at one
  cases one

theorem compile_unbound_follows {table : SymbolTable} (kind : list.kind = .selectList)
    (same : Represents strict (Node.plainColumns list.children) rs rs')
    (columns : ∀ r ∈ rs, r.kind = .columnName) (columns' : ∀ r ∈ rs', r.kind = .columnName) :
    Follows strict (fun c d => c.scratchpad = d.scratchpad) (compile table (list.extend rs))
      (compile table (list.extend rs')) := by
  have headed := Node.extend_headed kind
  rw [compile_parts (.inl (headed rs)), compile_parts (.inl (headed rs'))]
  refine Follows.map (R := fun x y => x.2 = y.2) ?_ id
  simp only [Node.extend, Compile.compileAll_append]
  cases own : Compile.compileAll table list.children 0 with
  | error e => exact fun _ => rfl
  | ok answer =>
    obtain ⟨es, used⟩ := answer
    have left := (compileAll_unbound table columns used).symm id
    have right := compileAll_unbound table columns' used
    have checks := same.check (unbound_plainColumns own)
    have between := (left.relax.trans checks fun bytes _ => bytes).trans right.relax
      fun bytes bytes' => bytes.trans bytes'.symm
    refine between.bind ?_
    intro left right same
    obtain ⟨xs, last⟩ := left
    obtain ⟨ys, _⟩ := right
    subst same
    exact rfl

theorem constants_follows (found : statement.selectList? = some list)
    (same : Represents strict (Node.plainColumns list.children) rs rs')
    (columns : ∀ r ∈ rs, r.kind = .columnName) (columns' : ∀ r ∈ rs', r.kind = .columnName) :
    Follows strict (fun a b => a = none ∧ b = none ∨
      ∃ p q, a = some p ∧ b = some q ∧ p.Beside rs.length rs'.length q)
      (constants env (statement.withList (list.extend rs)))
      (constants env (statement.withList (list.extend rs'))) := by
  have headed := Node.extend_headed (Node.selectList?_kind found)
  have listed : ∀ more, selectList (statement.withList (list.extend more)) = .ok (list.extend more) :=
    fun more => selectList_eq_ok.2 (Node.selectList?_withList (headed more))
  simp only [constants, Node.withList_kind, Node.hasChild_withList found (headed _),
    Node.refuseClauses_withList found (headed _), listed, orFail_ok, ok_bind, Node.hasChild_extend]
  split
  · refine .bind_same _ fun _ => ?_
    split
    · exact fun _ => rfl
    · split
      · exact fun _ => rfl
      · have kind : list.kind = .selectList := headed []
        refine (compile_unbound_follows kind same columns columns').bind fun equal => ?_
        refine (stateless_follows _ equal).bind fun equal => ?_
        have shorter := same.length_le
        have narrower : ((list.extend rs).children.map outputName).length ≤
            ((list.extend rs').children.map outputName).length := by
          simp only [Node.extend, List.length_map, List.length_append]
          omega
        refine .inr ⟨_, _, rfl, rfl, ?_, ⟨list.children.map outputName,
          (rs.map .derived).map outputName, (rs'.map .derived).map outputName, ?_⟩, ?_⟩
        · simp [Plan.stages, equal]
        · simp [Plan.outputColumns, Node.extend]
        · exact .cons narrower .nil
  · exact .inl ⟨rfl, rfl⟩

/-- The rows of the two SELECTs. -/
theorem rows_follows (kind : statement.kind = .select) (found : statement.selectList? = some list)
    (same : Represents strict (Node.plainColumns list.children) rs rs')
    (columns : ∀ r ∈ rs, r.kind = .columnName) (columns' : ∀ r ∈ rs', r.kind = .columnName) :
    Follows strict (Plan.Beside rs.length rs'.length)
      (rows env (statement.withList (list.extend rs)))
      (rows env (statement.withList (list.extend rs'))) := by
  cases source : statement.findChild? .from with
  | some clause =>
    refine (scan_follows kind found same columns columns' source).bind ?_
    intro _ _ h
    obtain ⟨p, q, rfl, rfl, beside⟩ := h
    exact beside
  | none =>
    have headed := Node.extend_headed (Node.selectList?_kind found)
    have sourceless : ∀ more, (statement.withList (list.extend more)).hasChild .from = false :=
      fun more => by
        rw [Node.hasChild_withList found (headed more)]
        exact (findChild?_eq_none_iff statement .from).1 source
    rw [rows, rows, scan_declines env (sourceless rs), scan_declines env (sourceless rs')]
    refine (constants_follows found same columns columns').bind ?_
    intro _ _ h
    rcases h with ⟨rfl, rfl⟩ | ⟨p, q, rfl, rfl, beside⟩
    · exact fun _ => rfl
    · exact beside

theorem compile_extend_follows {table : SymbolTable} {R Q : Node → Nat → Prop}
    (kind : list.kind = .selectList)
    (columns : ∀ r ∈ rs, r.kind = .columnName) (columns' : ∀ r ∈ rs', r.kind = .columnName)
    {m m' : Node} (left : Placed R (list.extend rs) m) (right : Placed Q (list.extend rs') m') :
    Follows True (fun c d => c.scratchpad = d.scratchpad) (compile table m) (compile table m') := by
  obtain ⟨_, token, children, id⟩ := list
  simp only at kind
  subst kind
  cases left with
  | column other => cases other
  | inner _ below =>
    cases right with
    | column other => cases other
    | inner _ below' =>
      obtain ⟨own, more, rfl, items, pushed⟩ := forall₂_append_left below
      obtain ⟨own', more', rfl, items', pushed'⟩ := forall₂_append_left below'
      obtain ⟨es, compiled, _⟩ := Compile.compileAll_derived table columns pushed
      obtain ⟨es', compiled', _⟩ := Compile.compileAll_derived table columns' pushed'
      rw [compile_append rfl rfl compiled, compile_append rfl rfl compiled']
      exact (Compile.compileAll_bytes items items' 0).map fun bytes => bytes

end Planning

end StatementPlan
