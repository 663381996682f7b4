/-
One step of planning, as far as it depends on the plans of other statements: not at all, or on the
plan of a single one, around which it puts a layer.

`step_layered`: a step by itself or with a layer, for every statement and whichever builders
decline.
`step_eq_ok`: the plan that a step makes, if it makes one.
-/
import StatementPlan.Proofs.Planning.Course

namespace StatementPlan

theorem filter_eraseP_apart {p q : α → Bool} (apart : ∀ a, p a = true → q a = false)
    (as : List α) : (as.eraseP p).filter q = as.filter q := by
  induction as with
  | nil => rfl
  | cons a rest ih =>
    by_cases here : p a = true
    · simp [here, apart a here]
    · simp [here, List.filter_cons, ih]

namespace Node

theorem filter_withoutFirstLimit (n : Node) (keep : Kind → Bool) (drop : keep .limit = false) :
    n.withoutFirstLimit.children.filter (keep ·.kind) = n.children.filter (keep ·.kind) := by
  refine filter_eraseP_apart (fun c here => ?_) n.children
  rw [eq_of_beq here]
  exact drop

theorem findChild?_withoutFirstLimit (n : Node) {kind : Kind} (other : kind ≠ .limit) :
    n.withoutFirstLimit.findChild? kind = n.findChild? kind := by
  rw [findChild?, findChild?, ← List.head?_filter, ← List.head?_filter]
  exact congrArg List.head? (filter_withoutFirstLimit n (· == kind) (by simpa using other.symm))

theorem withoutLimits_withoutFirstLimit (n : Node) :
    n.withoutFirstLimit.withoutLimits = n.withoutLimits :=
  congrArg (fun clauses => { n with children := clauses }) (filter_withoutFirstLimit n (· != .limit) rfl)

theorem selectList?_withoutFirstLimit {n list : Node} (found : n.selectList? = some list) :
    n.withoutFirstLimit.selectList? = some list := by
  obtain ⟨kind, shape⟩ := selectList?_eq_some.1 found
  refine selectList?_eq_some.2 ⟨kind, ?_⟩
  simp only [withoutFirstLimit]
  rw [shape]
  simp [kind]

end Node

namespace Planning

/-- What a step puts around the plan of another statement. -/
inductive Layer where
  | limit
  | group
  | series

/-- The statement below a layer of a statement. -/
inductive Below (env : Environment) (statement : Node) : Layer → Node → Prop
  | limit {clause : Node} (kind : statement.kind = .select)
      (found : statement.findChild? .limit = some clause) :
      Below env statement .limit statement.withoutFirstLimit
  | group {source : Node} (kind : statement.kind = .select)
      (grouped : isGrouped env statement = .ok true) (found : statement.selectList? = some source) :
      Below env statement .group
        (ungrouped statement (columnList (neededColumns env statement source)))
  | series {name select list : Node} {rs : List Node} (kind : statement.kind = .series)
      (children : statement.children = [name, select]) (found : select.selectList? = some list)
      (needed : ∀ r ∈ rs, r ∈ name.references) :
      Below env statement .series (select.withList (list.extend rs))

/-- What is compiled for the name of a series: a fixed name as a constant, a computed one over the
columns of the SELECT. -/
inductive NameOf (name : Node) : Node → Prop
  | fixed {token : Token} (kind : name.kind = .seriesName) (here : name.token = some token) :
      NameOf name (.ofToken .literal token)
  | computed {R : Node → Nat → Prop} {name' : Node} (placed : Placed R name name') : NameOf name name'

/-- What a layer of a statement makes of the plan below it. -/
inductive Over (env : Environment) (statement : Node) (below : Plan) : Layer → Plan → Prop
  | limit (count offset : Nat) : Over env statement below .limit (.limit count offset below)
  | group {source list keys : Node} {select group : Compiled} (selected : compile env.calls list = .ok select)
      (grouped : compile env.calls keys = .ok group) (stateless : group.scratchpad = 0)
      (found : statement.selectList? = some source)
      (listPlaced : Placed (ColumnAt (neededColumns env statement source)) source list)
      (keysPlaced : Placed (ColumnAt (neededColumns env statement source))
        (.ofChildren .groupBy (groupKeys statement)) keys) :
      Over env statement below .group (.groupBy (groupedNames env.settings source.children) select.expr
        group.expr select.scratchpad below)
  | series {name select list name' : Node} {c : Compiled} (compiled : compile env.calls name' = .ok c)
      (stateless : c.scratchpad = 0) (children : statement.children = [name, select])
      (found : select.selectList? = some list) (named : NameOf name name') :
      Over env statement below .series
        (.series ("series" :: below.outputColumns.take list.children.length) c.expr below)

/-- What a step makes of a statement by itself. -/
inductive Alone (env : Environment) (statement : Node) : Plan → Prop
  | rows {list : Node} {p : Plan} (found : statement.selectList? = some list)
      (rows : RowsOf env statement list p) (kind : statement.kind = .select) : Alone env statement p
  | draw (chart : Chart) (kind : statement.kind = .draw) : Alone env statement (.draw chart)

/-- A course that ends by itself, or that puts a layer around the plan of the statement below. -/
inductive Layered (env : Environment) (statement : Node) : Course → Prop
  | stopped (notes : List Note) {stop : Stop} (ended : stop ≠ .endless) :
      Layered env statement (.stopped notes stop)
  | made (notes : List Note) {p : Plan} (alone : Alone env statement p) :
      Layered env statement (.made notes p)
  | asking (before : List Note) {layer : Layer} {rest : Node} {after : Plan → Run Plan}
      (asked : Below env statement layer rest) (ends : ∀ input, Ends (after input).result)
      (plans : ∀ input p, (after input).result = .ok p → Over env statement input layer p) :
      Layered env statement (.asking before rest after)

variable {env : Environment} {statement : Node}

/-- The nodes of a list with more references are its own and theirs, apart from the list and its new
items. -/
theorem extend_nodes {list : Node} (kind : list.kind = .selectList) {rs : List Node} {m : Node}
    (part : m ∈ (list.extend rs).subtrees) : (m.kind = .selectList ∨ m.kind = .derivedColumn) ∨
      (∃ c ∈ list.children, m ∈ c.subtrees) ∨ ∃ r ∈ rs, m ∈ r.subtrees := by
  rw [Node.extend] at part
  simp only [Node.subtrees, List.mem_cons, Node.mem_subtreesAll, List.mem_append] at part
  rcases part with rfl | ⟨c, old | new, part⟩
  · exact .inl (.inl kind)
  · exact .inr (.inl ⟨c, old, part⟩)
  · obtain ⟨r, needed, rfl⟩ := List.mem_map.1 new
    simp only [Node.derived, Node.ofChildren, Node.subtrees, Node.subtreesAll, List.append_nil,
      List.mem_cons] at part
    rcases part with rfl | part
    · exact .inl (.inr rfl)
    · exact .inr (.inr ⟨r, needed, part⟩)

theorem key_part {key : Node} (mem : key ∈ groupKeys statement) {m : Node} (part : m ∈ key.subtrees) :
    ∃ d ∈ statement.children, m ∈ d.subtrees := by
  obtain ⟨clause, kept, child⟩ := List.mem_flatMap.1 mem
  exact ⟨clause, (List.mem_filter.1 kept).1, Node.subtrees_child child part⟩

/-- Below the root of the statement below a layer there are nodes of the statement, moved about, and
besides only a select list and its items. -/
theorem Below.nodes {layer : Layer} {rest : Node} (h : Below env statement layer rest) :
    ∀ c ∈ rest.children, ∀ m ∈ c.subtrees, (m.kind = .selectList ∨ m.kind = .derivedColumn) ∨
      ∃ d ∈ statement.children, m ∈ d.subtrees := by
  intro c mem m part
  cases h with
  | limit => exact .inr ⟨c, List.mem_of_mem_eraseP mem, part⟩
  | @group source _ _ found =>
    rcases List.mem_cons.1 mem with rfl | mem
    · rcases @extend_nodes { kind := .selectList } rfl _ _ part with own | ⟨_, ⟨⟩, _⟩ | ⟨r, needed, part⟩
      · exact .inl own
      · obtain ⟨_, shape⟩ := Node.selectList?_eq_some.1 found
        rcases List.mem_append.1 (mem_neededColumns.1 needed) with item | key
        · exact .inr ⟨source, shape ▸ List.mem_cons_self,
            Node.subtrees_trans (Node.mem_references r item).2 part⟩
        · rw [Node.referencesAll_eq_flatMap, List.mem_flatMap] at key
          obtain ⟨key, mem, here⟩ := key
          exact .inr (key_part mem (Node.subtrees_trans (Node.mem_references r here).2 part))
    · exact .inr ⟨c, List.mem_of_mem_tail (List.mem_filter.1 mem).1, part⟩
  | @series name select list rs _ pair found needed =>
    obtain ⟨kind, shape⟩ := Node.selectList?_eq_some.1 found
    have inSelect : ∀ {d}, d ∈ select.children → m ∈ d.subtrees → ∃ d ∈ statement.children, m ∈ d.subtrees :=
      fun child part => ⟨select, by simp [pair], Node.subtrees_child child part⟩
    rcases List.mem_cons.1 mem with rfl | mem
    · rcases extend_nodes kind part with own | ⟨item, child, part⟩ | ⟨r, here, part⟩
      · exact .inl own
      · exact .inr (inSelect (shape ▸ List.mem_cons_self) (Node.subtrees_child child part))
      · exact .inr ⟨name, by simp [pair], Node.subtrees_trans (Node.mem_references r (needed r here)).2 part⟩
    · exact .inr (inSelect (List.mem_of_mem_tail mem) part)

/-- The name of a series, the columns that it needs pushed into the list of its SELECT. -/
theorem Named.columns {name select list name' select' : Node} {notes : List Note}
    (found : select.selectList? = some list) (named : Named env name select list notes name' select') :
    ∃ rs, (∀ r ∈ rs, r ∈ name.references) ∧ select' = select.withList (list.extend rs) ∧
      NameOf name name' := by
  cases named with
  | fixed kind here =>
    refine ⟨[], by simp, ?_, .fixed kind here⟩
    rw [Node.extend_nil, Node.withList_self found]
  | computed =>
    have placed := (PushDown.apply_pushes { shared := env.settings.sharedSlots } name
      (Node.selectList?_kind found)).2
    exact ⟨_, fun r mem => PushDown.mem_of_mem_fresh mem, rfl, .computed placed⟩

theorem seriesName_eq_ok {name select list name' select' : Node}
    (found : select.selectList? = some list)
    (h : (seriesName env name select list).result = .ok (name', select')) :
    ∃ rs, (∀ r ∈ rs, r ∈ name.references) ∧ select' = select.withList (list.extend rs) ∧
      NameOf name name' :=
  (seriesName_named found (Run.ext rfl h)).columns found

theorem Layered.noted {c : Course} (h : Layered env statement c) (first : List Note) :
    Layered env statement (c.noted first) := by
  cases h with
  | stopped notes ended => exact .stopped _ ended
  | made notes alone => exact .made _ alone
  | asking before asked ends plans => exact .asking _ asked ends plans

/-- A grouping around the plan of the SELECT below it. -/
theorem GroupCourse.around {before : List Note} {rest : Node} {after : Plan → Run Plan}
    (h : GroupCourse env statement (.asking before rest after)) {input p : Plan}
    (made : (after input).result = .ok p) : Over env statement input .group p := by
  cases h with
  | @asking source _ _ found plain selected grouped stateless =>
    have pushed := pushed_down env statement source
    obtain rfl := Except.ok.inj made
    exact .group selected grouped stateless found pushed.items (.inner (by simp) pushed.keys)

theorem GroupCourse.layered {c : Course} (kind : statement.kind = .select)
    (decided : isGrouped env statement = .ok true) (h : GroupCourse env statement c) :
    Layered env statement c := by
  cases h with
  | refused => exact .stopped _ nofun
  | uncompiled _ stops => exact .stopped _ stops.ended
  | asking found plain selected grouped stateless =>
    have course := GroupCourse.asking found plain selected grouped stateless
    exact .asking _ (.group kind decided found) (fun _ => .ok _) fun input p => course.around

theorem SeriesCourse.layered {c : Course} (kind : statement.kind = .series)
    (h : SeriesCourse env statement c) : Layered env statement c := by
  cases h with
  | refused => exact .stopped _ nofun
  | @asking name select list name' _ _ children found pushed =>
    obtain ⟨rs, needed, rfl, named⟩ := (seriesName_named found pushed).columns found
    refine .asking _ (.series kind children found needed) (fun input => ?_) fun input p made => ?_
    · rcases seriesEnd_cases env list.children.length name' input with ⟨stop, stops, same⟩ | ⟨_, _, _, same⟩
      · rw [same]
        exact fun h => stops.ended (Except.error.inj h)
      · rw [same]
        exact .ok _
    · rcases seriesEnd_cases env list.children.length name' input with
        ⟨_, _, same⟩ | ⟨c, compiled, none, same⟩
      · rw [same] at made
        cases made
      · rw [same] at made
        obtain rfl := Except.ok.inj made
        exact .series compiled none children found named

/-- A SELECT that makes rows does so by itself. -/
theorem RowsCourse.layered {c : Course} (kind : statement.kind = .select)
    (h : RowsCourse env statement c) : Layered env statement c := by
  cases h with
  | scanStopped _ stopped =>
    exact .stopped _ fun endless => Ends.of_part (scan_stops env statement) (endless ▸ stopped)
  | constantsStopped _ _ stopped =>
    exact .stopped _ fun endless => Ends.of_part (constants_stops env statement) (endless ▸ stopped)
  | unserved => exact .stopped _ nofun
  | scanned _ made =>
    obtain ⟨list, found, rows⟩ := scan_eq_some made
    exact .made _ (.rows found rows kind)
  | constants _ _ made =>
    obtain ⟨list, found, rows⟩ := constants_eq_some made
    exact .made _ (.rows found rows kind)

/-- A step goes by itself, or it puts a layer around the plan of the statement below. -/
theorem StepCourse.layered {c : Course} (h : StepCourse env statement c) : Layered env statement c := by
  cases h with
  | series kind course => exact (course.layered kind).noted _
  | draw kind course =>
    cases course with
    | refused => exact .stopped _ nofun
    | made chart => exact .made _ (.draw chart kind)
  | unplanned => exact .stopped _ nofun
  | select kind course =>
    cases course with
    | miscounted => exact .stopped _ nofun
    | undecided => exact .stopped _ nofun
    | grouped _ decided course => exact (course.layered kind decided).noted _
    | direct _ _ course => exact (course.layered kind).noted _
    | limited _ found =>
      refine .asking _ (.limit kind found) (fun _ => .ok _) fun input p made => ?_
      obtain rfl := Except.ok.inj made
      exact .limit _ _

theorem step_layered (env : Environment) (statement : Node) :
    ∃ c, Layered env statement c ∧ ∀ below, step env below statement = c.run below := by
  obtain ⟨c, course, same⟩ := step_course env statement
  exact ⟨c, course.layered, same⟩

/-- The plan that a step makes, if it makes one. -/
theorem step_eq_ok {below : Node → Run Plan} {p : Plan}
    (h : (step env below statement).result = .ok p) :
    Alone env statement p ∨ ∃ layer rest input, Below env statement layer rest ∧
      (below rest).result = .ok input ∧ Over env statement input layer p := by
  obtain ⟨c, layered, same⟩ := step_layered env statement
  rw [same] at h
  cases layered with
  | stopped => cases h
  | made notes alone =>
    obtain rfl := Except.ok.inj h
    exact .inl alone
  | @asking before layer rest after asked _ plans =>
    rw [Course.asking_result, bind_eq_ok_iff] at h
    obtain ⟨input, made, h⟩ := h
    exact .inr ⟨layer, rest, input, asked, made, plans input p h⟩

end Planning

end StatementPlan
