/-
Sharing slots changes nothing but the numbering of columns below groupings and series: planning
fails for the same reason with it and without, or the plans have the same operators and compute
the same, the one with shared slots over no more columns.

`select_transparent`, `series_transparent`: the statements with rows.
`plan_transparent`, `sharing_is_transparent`: every statement.
-/
import StatementPlan.Proofs.Planning.SeriesName

namespace StatementPlan

/-- The plans have the same operators and come to the same columns, entries and keys; nowhere has
the first one more columns. -/
structure Plan.SameButSlots (p q : Plan) : Prop where
  stages : p.stages = q.stages
  columns : p.outputColumns = q.outputColumns
  entries : ∃ entries, p.entries? = some entries ∧ q.entries? = some entries
  keys : ∃ keys, p.keys? = some keys ∧ q.keys? = some keys
  widths : List.Forall₂ (· ≤ ·) p.widths q.widths

namespace Planning

open RowSource

variable {env : Environment} {statement name select list : Node}

theorem sameButSlots_refl {p : Plan} {entries keys : List Expr} (read : p.entries? = some entries)
    (keyed : p.keys? = some keys) : p.SameButSlots p where
  stages := rfl
  columns := rfl
  entries := ⟨entries, read, read⟩
  keys := ⟨keys, keyed, keyed⟩
  widths := List.forall₂_same.2 fun n _ => Nat.le_refl n

theorem sameButSlots_limit {p q : Plan} (h : p.SameButSlots q) (count offset : Nat) :
    (Plan.limit count offset p).SameButSlots (.limit count offset q) where
  stages := congrArg (Stage.limit count offset :: ·) h.stages
  columns := h.columns
  entries := h.entries
  keys := h.keys
  widths := .cons (Nat.le_of_eq (congrArg List.length h.columns)) h.widths

/-- Plans that go side by side and compute the same. -/
theorem sameButSlots_of_computes {keys : List Node} {p q : Plan} (beside : p.Beside 0 0 q)
    (h : Computes env keys list p) (h' : Computes env keys list q) : p.SameButSlots q := by
  obtain ⟨es, pad, read, meant⟩ := h.entries
  obtain ⟨es', pad', read', meant'⟩ := h'.entries
  rw [Plan.table?_eq_of_stages beside.stages, meant'] at meant
  obtain rfl := Expr.list.inj (Compiled.mk.inj (Except.ok.inj meant)).1
  obtain ⟨shown, more, more', left, right, none, none'⟩ := beside.columns
  refine ⟨beside.stages, ?_, ⟨_, read, read'⟩, h.keys_eq h' beside.stages, beside.widths⟩
  rw [left, right, List.length_eq_zero_iff.1 none, List.length_eq_zero_iff.1 none']

theorem Computes.of_sharing {shared : Bool} {keys : List Node} {p : Plan}
    (h : Computes (env.sharing shared) keys list p) : Computes env keys list p :=
  ⟨h.entries, h.keys, h.width⟩

/-- A grouping is refused without a list, or if there is a wildcard in it. -/
theorem group_refused {env' : Environment} {below below' : Node → Run Plan}
    (wild : ∀ list, statement.selectList? = some list → list.hasChild .all = true) :
    (group env below statement).result = (group env' below' statement).result := by
  cases found : statement.selectList? with
  | none => simp only [group, Run.bind_result, Run.note_result, ok_bind, found, Run.fail_result]
  | some source =>
    obtain ⟨_, _, _, _, shape⟩ := group_result env below found
    obtain ⟨_, _, _, _, shape'⟩ := group_result env' below' found
    rw [shape, shape', if_pos (wild source found), if_pos (wild source found)]

/-- A SELECT with a list and without a wildcard in it. -/
theorem select_transparent_of_plain (complete : env.Complete) (kind : statement.kind = .select)
    (found : statement.withoutLimits.selectList? = some list) (unwild : list.hasChild .all = false)
    (unplaced : statement.Unplaced) (plain : statement.PlainNames env.routing) :
    Follows True Plan.SameButSlots (plan (env.sharing true) statement).result
      (plan (env.sharing false) statement).result := by
  have kind' : statement.withoutLimits.kind = .select := kind
  have follows := unlimited_follows complete kind' Node.withoutLimits_unlimited found
    (plainNames_withoutLimits kind plain) (Represents.refl True _ []) (by simp) (by simp)
    (.inl rfl : true = true ∨ false = false)
  rw [Node.extend_nil, Node.withList_self found] at follows
  have limited := limited_follows (Nat.le_refl _) follows statement.limits
  rw [← plan_select (complete.sharing true) kind, ← plan_select (complete.sharing false) kind]
    at limited
  obtain ⟨stop, left, right⟩ | ⟨p, q, left, right, beside⟩ := limited.cases_strict
  · rw [left, right]
    exact fun _ => rfl
  · have computes := plan_computes (complete.sharing true) kind unplaced found unwild left
    have computes' := plan_computes (complete.sharing false) kind unplaced found unwild right
    rw [left, right]
    exact sameButSlots_of_computes beside computes.of_sharing computes'.of_sharing

/-- A SELECT with a wildcard in its list, or no list.  It has no grouping, so no slots. -/
theorem select_transparent_of_wild (complete : env.Complete) (kind : statement.kind = .select)
    (wild : ∀ list, statement.withoutLimits.selectList? = some list → list.hasChild .all = true) :
    Follows True Plan.SameButSlots (plan (env.sharing true) statement).result
      (plan (env.sharing false) statement).result := by
  have equal : (plan (env.sharing true) statement).result =
      (plan (env.sharing false) statement).result := by
    rw [plan_select (complete.sharing true) kind, plan_select (complete.sharing false) kind,
      unlimited, unlimited, group_refused wild]
    rfl
  rw [equal]
  cases planned : (plan (env.sharing false) statement).result with
  | error stop => exact fun _ => rfl
  | ok p =>
    refine plan_select_ok (P := fun p => p.SameButSlots p) (complete.sharing false) kind
      (fun count offset same => sameButSlots_limit same count offset) ?_ planned
    intro list q found ways
    rcases ways with split | rows
    · cases split with
      | intro unwild => cases (wild list found).symm.trans unwild
    · obtain ⟨entries, read⟩ := rows.read (Node.selectList?_kind found)
      exact sameButSlots_refl read rows.unkeyed

theorem select_transparent (complete : env.Complete) (kind : statement.kind = .select)
    (unplaced : statement.Unplaced) (plain : statement.PlainNames env.routing) :
    Follows True Plan.SameButSlots (plan (env.sharing true) statement).result
      (plan (env.sharing false) statement).result := by
  by_cases wild : ∀ list, statement.withoutLimits.selectList? = some list →
      list.hasChild .all = true
  · exact select_transparent_of_wild complete kind wild
  · simp only [not_forall, Bool.not_eq_true] at wild
    obtain ⟨list, found, unwild⟩ := wild
    exact select_transparent_of_plain complete kind found unwild unplaced plain

/-- Series whose names come to the same, over plans that come to the same columns shown. -/
theorem sameButSlots_series {columns : List String} {x y e : Expr} {p q : Plan}
    {entries entries' : List Expr} (stages : p.stages = q.stages)
    (keys : ∃ keys, p.keys? = some keys ∧ q.keys? = some keys)
    (widths : List.Forall₂ (· ≤ ·) p.widths q.widths) (read : p.entries? = some entries)
    (read' : q.entries? = some entries') (restored : x.substitute? entries = some e)
    (restored' : y.substitute? entries' = some e)
    (shown : entries.take (columns.length - 1) = entries'.take (columns.length - 1)) :
    (Plan.series columns x p).SameButSlots (.series columns y q) where
  stages := congrArg (Stage.series :: ·) stages
  columns := rfl
  entries := ⟨e :: entries.take (columns.length - 1), by simp [Plan.entries?, read, restored],
    by simp [Plan.entries?, read', restored', shown]⟩
  keys := keys
  widths := .cons (Nat.le_refl _) widths

theorem seriesOver_fixed {axes : Nat} {token : Token} {x y : Except Stop Plan}
    (h : Follows True Plan.SameButSlots x y) :
    Follows True Plan.SameButSlots
      (seriesOver (env.sharing true) axes (.ofToken .literal token) x)
      (seriesOver (env.sharing false) axes (.ofToken .literal token) y) := by
  refine h.bind ?_
  intro p q same
  rw [compile_literal, compile_literal]
  cases Compile.literal (some token) with
  | error error => exact fun _ => rfl
  | ok value =>
    obtain ⟨entries, read, read'⟩ := same.entries
    show Plan.SameButSlots (.series _ _ p) (.series _ _ q)
    rw [same.columns]
    exact sameButSlots_series same.stages same.keys same.widths read read' rfl rfl rfl

/-- The plans below a computed name, with its columns shared or not. -/
theorem named_follows (complete : env.Complete) (kind : select.kind = .select)
    (found : select.selectList? = some list)
    (plain : select.PlainNames env.routing) (plainName : name.PlainNames env.routing) :
    Follows True (Plan.Beside (nameColumns (env.sharing true) name list).length
      (nameColumns (env.sharing false) name list).length)
      (plan (env.sharing true)
        (select.withList (list.extend (nameColumns (env.sharing true) name list)))).result
      (plan (env.sharing false)
        (select.withList (list.extend (nameColumns (env.sharing false) name list)))).result := by
  have quiet : ∀ shared, ∀ r ∈ nameColumns (env.sharing shared) name list,
      QuietColumn env.routing r := fun _ r mem =>
    plainName.references r (PushDown.mem_of_mem_fresh mem)
  have all : nameColumns (env.sharing false) name list = name.references :=
    PushDown.fresh_unshared ..
  have same : Represents True (Node.plainColumns list.children)
      (nameColumns (env.sharing true) name list) (nameColumns (env.sharing false) name list) := by
    rw [all]
    exact Represents.fresh True true _ _
  exact plan_select_follows complete kind found plain same (quiet true) (quiet false) (.inl rfl)

/-- The columns that plans side by side show. -/
theorem take_outputColumns {m n axes : Nat} {p q : Plan} (beside : p.Beside m n q)
    (width : p.outputColumns.length = axes + m) :
    p.outputColumns.take axes = q.outputColumns.take axes ∧
      (p.outputColumns.take axes).length = axes := by
  obtain ⟨shown, more, more', left, right, rfl, rfl⟩ := beside.columns
  obtain rfl : shown.length = axes := by
    rw [left, List.length_append] at width
    omega
  rw [left, right, List.take_left, List.take_left]
  exact ⟨rfl, rfl⟩

/-- Series under one computed name, over plans side by side that compute the list and the columns
of the name. -/
theorem sameButSlots_named {keys : List Node} {p q : Plan} (kind : list.kind = .selectList)
    (unplacedName : name.Unplaced)
    (beside : p.Beside (nameColumns (env.sharing true) name list).length
      (nameColumns (env.sharing false) name list).length q)
    (computes : Computes (env.sharing true) keys
      (list.extend (nameColumns (env.sharing true) name list)) p)
    (computes' : Computes (env.sharing false) keys
      (list.extend (nameColumns (env.sharing false) name list)) q)
    {x y : Node}
    (placed : Placed (Node.ItemAt (list.extend (nameColumns (env.sharing true) name list)).children)
      name x)
    (placed' : Placed
      (Node.ItemAt (list.extend (nameColumns (env.sharing false) name list)).children) name y)
    {c d : Compiled} (compiled : compile env.calls x = .ok c)
    (compiled' : compile env.calls y = .ok d) :
    (Plan.series ("series" :: p.outputColumns.take list.children.length) c.expr p).SameButSlots
      (.series ("series" :: q.outputColumns.take list.children.length) d.expr q) := by
  obtain ⟨es, more, pad, e, read, alone, width, _, restored, meant⟩ :=
    named_entries computes kind unplacedName placed compiled
  obtain ⟨es', more', pad', e', read', alone', width', _, restored', meant'⟩ :=
    named_entries computes' kind unplacedName placed' compiled'
  have table := Plan.table?_eq_of_stages beside.stages
  -- both runs compile the list and the name over the same table, so to the same
  have items : env.compileOver p.table? list = .ok ⟨.list es, pad⟩ := alone
  have items' : env.compileOver q.table? list = .ok ⟨.list es', pad'⟩ := alone'
  rw [table, items'] at items
  obtain rfl := Expr.list.inj (Compiled.mk.inj (Except.ok.inj items)).1
  have named : env.compileOver p.table? name = .ok ⟨e, c.scratchpad⟩ := meant
  have named' : env.compileOver q.table? name = .ok ⟨e', d.scratchpad⟩ := meant'
  rw [table, named'] at named
  obtain rfl := (Compiled.mk.inj (Except.ok.inj named)).1
  have whole := computes.width
  simp only [Node.extend, List.length_append, List.length_map] at whole
  obtain ⟨columns, axes⟩ := take_outputColumns beside whole
  rw [← columns]
  refine sameButSlots_series beside.stages
    (computes.of_sharing.keys_eq computes'.of_sharing beside.stages) beside.widths read read'
    restored restored' ?_
  rw [List.length_cons, Nat.add_sub_cancel, axes, ← width, List.take_left, List.take_left]

theorem series_computed_transparent (complete : env.Complete) (kind : statement.kind = .series)
    (children : statement.children = [name, select]) (selectKind : select.kind = .select)
    (found : select.selectList? = some list) (computed : name.kind ≠ .seriesName)
    (unplaced : statement.Unplaced) (plain : statement.PlainNames env.routing) :
    Follows True Plan.SameButSlots (plan (env.sharing true) statement).result
      (plan (env.sharing false) statement).result := by
  have here : name ∈ statement.children ∧ select ∈ statement.children := by simp [children]
  obtain ⟨x, placed, shape⟩ := plan_series_computed (env.sharing true) kind children selectKind found
    computed
  obtain ⟨y, placed', shape'⟩ := plan_series_computed (env.sharing false) kind children selectKind found
    computed
  rw [shape, shape']
  have unplacedSelect := unplaced.child here.2
  have unplacedName := unplaced.child here.1
  split
  · exact fun _ => rfl
  · rename_i wild
    have unwild := Bool.eq_false_iff.2 wild
    obtain ⟨stop, left, right⟩ | ⟨p, q, left, right, beside⟩ :=
      (named_follows complete selectKind found (plain.child here.2)
        (plain.child here.1)).cases_strict
    · rw [left, right]
      exact fun _ => rfl
    · obtain ⟨stop, bad, bad'⟩ | ⟨c, d, compiled, compiled', _, bytes⟩ :=
        (compile_placed env.calls unplacedName placed placed').cases_strict
      · simp only [seriesOver, left, right, ok_bind]
        show Follows True _ (compile env.calls x >>= _) (compile env.calls y >>= _)
        rw [bad, bad']
        exact fun _ => rfl
      · have computes := named_computes (complete.sharing true) selectKind found unwild unplacedSelect
          unplacedName left
        have computes' := named_computes (complete.sharing false) selectKind found unwild unplacedSelect
          unplacedName right
        have same := sameButSlots_named (Node.selectList?_kind found) unplacedName beside
          computes computes' placed placed' compiled compiled'
        simp only [seriesOver, left, right, ok_bind]
        show Follows True _ (compile env.calls x >>= _) (compile env.calls y >>= _)
        rw [compiled, compiled', ok_bind, ok_bind, RowSource.stateless, RowSource.stateless, bytes]
        split
        · exact same
        · exact fun _ => rfl

/-- A series without a name and a SELECT with a list is refused in all surroundings. -/
theorem series_refused (bad : ∀ name select list, statement.children = [name, select] →
    select.selectList? ≠ some list) :
    ∃ stop, ∀ env below, (series env below statement).result = .error stop := by
  rcases children : statement.children with _ | ⟨name, _ | ⟨select, _ | ⟨more, rest⟩⟩⟩
  · exact ⟨_, fun env below => by simp only [series, children, Run.bind_result]; rfl⟩
  · exact ⟨_, fun env below => by simp only [series, children, Run.bind_result]; rfl⟩
  · have none : select.selectList? = none := by
      cases found : select.selectList? with
      | none => rfl
      | some list => exact absurd found (bad name select list children)
    exact ⟨_, fun env below => by simp only [series, children, none, Run.bind_result]; rfl⟩
  · exact ⟨_, fun env below => by simp only [series, children, Run.bind_result]; rfl⟩

theorem series_transparent (complete : env.Complete) (kind : statement.kind = .series)
    (overSelect : statement.SeriesOfSelect) (unplaced : statement.Unplaced)
    (plain : statement.PlainNames env.routing) :
    Follows True Plan.SameButSlots (plan (env.sharing true) statement).result
      (plan (env.sharing false) statement).result := by
  by_cases shape : ∃ name select list, statement.children = [name, select] ∧
    select.selectList? = some list
  · obtain ⟨name, select, list, children, found⟩ := shape
    have selectKind := overSelect name select kind children
    have part : select ∈ statement.children := by simp [children]
    by_cases fixed : name.kind = .seriesName
    · rw [plan_series_fixed kind children found fixed, plan_series_fixed kind children found fixed]
      split
      · exact fun _ => rfl
      · exact seriesOver_fixed (select_transparent complete selectKind (unplaced.child part)
          (plain.child part))
    · exact series_computed_transparent complete kind children selectKind found fixed unplaced plain
  · obtain ⟨stop, refused⟩ := series_refused fun name select list children found =>
      shape ⟨name, select, list, children, found⟩
    obtain ⟨depth, same⟩ := plan_step (env.sharing true) statement
    obtain ⟨depth', same'⟩ := plan_step (env.sharing false) statement
    simp only [same, same', step, kind, Run.bind_result, Run.note_result, ok_bind, refused]
    exact fun _ => rfl

theorem plan_transparent (complete : env.Complete) (overSelect : statement.SeriesOfSelect)
    (unplaced : statement.Unplaced) (plain : statement.PlainNames env.routing) :
    Follows True Plan.SameButSlots (plan (env.sharing true) statement).result
      (plan (env.sharing false) statement).result := by
  cases kind : statement.kind with
  | select => exact select_transparent complete kind unplaced plain
  | series => exact series_transparent complete kind overSelect unplaced plain
  | draw =>
    rw [plan_draw kind, plan_draw kind]
    cases drawn : (draw statement).result with
    | error stop => exact fun _ => rfl
    | ok p =>
      obtain ⟨chart, rfl⟩ := draw_eq_ok drawn
      exact sameButSlots_refl rfl rfl
  | _ =>
    have refused : ∀ shared, (plan (env.sharing shared) statement).result =
        Compile.fail (.defect (.noBuilder statement.kind.heading)) := fun shared =>
      plan_unplanned (by simp [kind]) (by simp [kind]) (by simp [kind])
    rw [refused, refused]
    exact fun _ => rfl

/-- Whether slots are shared changes nothing but the numbering of columns below. -/
theorem sharing_is_transparent (complete : env.Complete) (overSelect : statement.SeriesOfSelect)
    (unplaced : statement.Unplaced) (plain : statement.PlainNames env.routing) :
    (∃ stop, (buildPlan (env.sharing true) statement).result = .error stop ∧
      (buildPlan (env.sharing false) statement).result = .error stop) ∨
    ∃ p q, (buildPlan (env.sharing true) statement).result = .ok p ∧
      (buildPlan (env.sharing false) statement).result = .ok q ∧ p.SameButSlots q := by
  rw [buildPlan_result, buildPlan_result]
  obtain ⟨stop, left, right⟩ | ⟨p, q, left, right, same⟩ :=
    (plan_transparent complete overSelect unplaced plain).cases_strict
  · rw [left, right]
    obtain ⟨ruled, h⟩ := env.settings.onDefect.ruled_error (α := Plan) stop
    exact .inl ⟨ruled, h, h⟩
  · rw [left, right]
    exact .inr ⟨p, q, rfl, rfl, same⟩

theorem sharing_is_transparent_sales :
    (∃ stop, (buildPlan (salesEnvironment.sharing true) salesByNet).result = .error stop ∧
      (buildPlan (salesEnvironment.sharing false) salesByNet).result = .error stop) ∨
    ∃ p q, (buildPlan (salesEnvironment.sharing true) salesByNet).result = .ok p ∧
      (buildPlan (salesEnvironment.sharing false) salesByNet).result = .ok q ∧ p.SameButSlots q := by
  have overSelect : salesByNet.SeriesOfSelect := by
    rintro name select - ⟨⟩
    rfl
  exact sharing_is_transparent (fun _ => rfl) overSelect (by decide +kernel) (by decide +kernel)

end Planning

end StatementPlan
