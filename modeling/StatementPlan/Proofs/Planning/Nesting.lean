/-
How deep the statements of one planning nest, and that no level of it groups what is grouped
already.  The statements do not get smaller: a grouping plans a SELECT of much the same size.  But
that SELECT has no keys, and its list has only columns, so where no column name has an aggregate
call beneath it is not grouped again; each of its limits is taken off once, and each SERIES leads
one child down.

`levels_enough`: planning goes no deeper than the levels of a statement.
`groups_once`: a plan groups its rows at most once.
`planning_terminates`: the same of a run, whichever builders decline.
-/
import StatementPlan.Proofs.Planning.Layers
import StatementPlan.Proofs.Planning.Scope

namespace StatementPlan

namespace Node

/-- The number of SERIES on the chain of second children. -/
def seriesCount : Node → Nat
  | ⟨.series, _, _ :: select :: _, _⟩ => seriesCount select + 1
  | ⟨.series, _, _, _⟩ => 1
  | _ => 0

/-- The statement at the end of the chain of second children. -/
def underSeries : Node → Node
  | ⟨.series, _, _ :: select :: _, _⟩ => underSeries select
  | n => n

variable {table : SymbolTable} {n : Node}

theorem PlainNames.part (h : n.PlainNames table) {m : Node} (mem : m ∈ n.subtrees) :
    m.PlainNames table :=
  fun c inside => h c (subtrees_trans mem inside)

theorem PlainNames.list (h : n.PlainNames table) {list : Node} (found : n.selectList? = some list) :
    list.PlainNames table := by
  obtain ⟨_, shape⟩ := selectList?_eq_some.1 found
  exact h.child (by rw [shape]; exact List.mem_cons_self)

end Node

namespace Planning

variable {env : Environment} {statement rest : Node} {layer : Layer}

theorem Ungrouped.withoutFirstLimit (h : Ungrouped env statement) :
    Ungrouped env statement.withoutFirstLimit where
  keys := by
    have none := h.keys
    simp only [Node.hasChild, List.any_eq_false, Node.withoutFirstLimit] at none ⊢
    exact fun c mem => none c (List.mem_of_mem_eraseP mem)
  list := by
    obtain ⟨list, found, calls⟩ := h.list
    exact ⟨list, Node.selectList?_withoutFirstLimit found, calls⟩

theorem needed_plain (plain : statement.PlainNames env.routing) {source : Node}
    (found : statement.selectList? = some source) :
    ∀ r ∈ neededColumns env statement source, r.kind = .columnName ∧ r.PlainNames env.routing := by
  intro r mem
  refine ⟨neededColumns_kind r mem, ?_⟩
  simp only [mem_neededColumns, List.mem_append, Node.referencesAll_eq_flatMap, List.mem_flatMap,
    groupKeys] at mem
  rcases mem with mem | ⟨key, ⟨clause, part, child⟩, mem⟩
  · exact (plain.list found).part (Node.mem_references r mem).2
  · exact ((plain.child (List.mem_filter.1 part).1).child child).part (Node.mem_references r mem).2

theorem quiet_of_plain {table : SymbolTable} {r : Node} (kind : r.kind = .columnName)
    (plain : r.PlainNames table) : QuietColumn table r :=
  ⟨kind, callsAggregate_ne_true (plain r r.self_mem_subtrees kind)⟩

/-- The SELECT below a grouping will not be grouped again. -/
theorem ungrouped_final (plain : statement.PlainNames env.routing) {source : Node}
    (found : statement.selectList? = some source) :
    Ungrouped env (ungrouped statement (columnList (neededColumns env statement source))) := by
  refine ungrouped_quiet fun r mem => ?_
  obtain ⟨kind, plain⟩ := needed_plain plain found r mem
  exact quiet_of_plain kind plain

/-- Below a layer there is no aggregate call beneath a column name either. -/
theorem Below.plain (h : Below env statement layer rest) (plain : statement.PlainNames env.routing)
    (statementBelow : rest.kind ≠ .columnName) : rest.PlainNames env.routing := by
  refine .of_children statementBelow fun c mem m part column => ?_
  rcases h.nodes c mem m part with list | ⟨d, child, part⟩
  · rcases list with kind | kind <;> cases kind.symm.trans column
  · exact plain.child child m part column

/-- Planning the statement nests at most so many statements, itself included. -/
def NestsWithin (env : Environment) : Nat → Node → Prop
  | 0, _ => False
  | depth + 1, statement => ∀ layer rest, Below env statement layer rest → NestsWithin env depth rest

/-- How deep the statements below a statement nest at most, itself included. -/
def levels : Node → Nat
  | ⟨.series, _, [_, select], _⟩ => levels select + 1
  | ⟨.select, _, children, _⟩ => children.countP (·.kind == .limit) + 2
  | _ => 1

theorem countP_withoutFirstLimit {clause : Node} (found : statement.findChild? .limit = some clause) :
    statement.withoutFirstLimit.children.countP (·.kind == .limit) + 1 =
      statement.children.countP (·.kind == .limit) := by
  have taken := (filter_of_find? found).1
  simp only [Node.withoutFirstLimit, List.countP_eq_length_filter]
  rw [taken, List.length_cons]

theorem countP_ungrouped {source list : Node} (found : statement.selectList? = some source)
    (kind : list.kind = .selectList) :
    (ungrouped statement list).children.countP (·.kind == .limit) =
      statement.children.countP (·.kind == .limit) := by
  obtain ⟨kind', shape⟩ := Node.selectList?_eq_some.1 found
  rw [shape]
  simp only [ungrouped, List.countP_cons, List.countP_filter, kind, kind']
  congr 1
  refine List.countP_congr fun c _ => ?_
  by_cases limit : c.kind = .limit
  · simp [limit]
  · simp [limit]

/-- Only SELECT and SERIES have statements below. -/
theorem nests_alone (noSelect : statement.kind ≠ .select)
    (noSeries : statement.kind = .series → ∀ name select, statement.children ≠ [name, select])
    (depth : Nat) : NestsWithin env (depth + 1) statement := by
  intro layer rest below
  cases below with
  | limit kind => exact absurd kind noSelect
  | group kind => exact absurd kind noSelect
  | series kind children => exact absurd children (noSeries kind _ _)

theorem ungrouped_nests (kind : statement.kind = .select) (final : Ungrouped env statement) :
    NestsWithin env (statement.children.countP (·.kind == .limit) + 1) statement := by
  generalize count : statement.children.countP (·.kind == .limit) = limits
  induction limits using Nat.strongRecOn generalizing statement with
  | _ limits ih =>
    intro layer rest below
    cases below with
    | limit _ found =>
      have fewer := countP_withoutFirstLimit found
      obtain ⟨before, rfl⟩ : ∃ before, limits = before + 1 := ⟨limits - 1, by omega⟩
      exact ih before (by omega) kind final.withoutFirstLimit (by omega)
    | group _ grouped => exact absurd grouped final.not_grouped
    | series kind' => simp [kind] at kind'

theorem select_nests (kind : statement.kind = .select) (plain : statement.PlainNames env.routing) :
    NestsWithin env (statement.children.countP (·.kind == .limit) + 2) statement := by
  generalize count : statement.children.countP (·.kind == .limit) = limits
  induction limits using Nat.strongRecOn generalizing statement with
  | _ limits ih =>
    intro layer rest below
    have plainRest := fun other => Below.plain below plain other
    cases below with
    | limit _ found =>
      have fewer := countP_withoutFirstLimit found
      obtain ⟨before, rfl⟩ : ∃ before, limits = before + 1 := ⟨limits - 1, by omega⟩
      exact ih before (by omega) kind (plainRest (by simp [Node.withoutFirstLimit, kind])) (by omega)
    -- no limit is taken off here; what comes next is not grouped, and has the same limits
    | group _ _ found =>
      have nests := ungrouped_nests (by exact kind) (ungrouped_final plain found)
      rwa [countP_ungrouped found rfl, count] at nests
    | series kind' => simp [kind] at kind'

theorem levels_select (kind : statement.kind = .select) :
    levels statement = statement.children.countP (·.kind == .limit) + 2 := by
  cases statement
  simp only at kind
  subst kind
  rfl

theorem levels_pos (statement : Node) : 0 < levels statement := by
  unfold levels
  split <;> omega

/-- Another list at the head of what a SERIES is over leaves its levels as they are. -/
theorem levels_withList {select list list' : Node} (found : select.selectList? = some list)
    (kind : list'.kind = .selectList) : levels (select.withList list') = levels select := by
  obtain ⟨kind', shape⟩ := Node.selectList?_eq_some.1 found
  obtain ⟨kind'', token, children, id⟩ := select
  simp only at shape
  rw [shape, Node.withList, List.tail_cons]
  cases kind'' with
  | select => simp [levels, kind, kind']
  | series =>
    rcases children.tail with _ | ⟨select, _ | ⟨_, _⟩⟩
    · rfl
    · rfl
    · rfl
  | _ => rfl

/-- Planning goes no deeper than the levels of the statement. -/
theorem nests_levels (plain : statement.PlainNames env.routing) :
    NestsWithin env (levels statement) statement := by
  generalize depth : levels statement = d
  induction d generalizing statement with
  | zero => exact absurd depth (Nat.ne_of_gt (levels_pos statement))
  | succ d ih =>
    by_cases select : statement.kind = .select
    · have nests := select_nests select plain
      rwa [← levels_select select, depth] at nests
    · intro layer rest below
      have plainRest := fun other => Below.plain below plain other
      cases below with
      | limit kind => exact absurd kind select
      | group kind => exact absurd kind select
      | @series name nested list rs kind children found =>
        have same : levels (nested.withList (list.extend rs)) = d := by
          rw [levels_withList found (Node.extend_headed (Node.selectList?_kind found) rs)]
          obtain ⟨_, token, _, id⟩ := statement
          simp only at kind children
          subst kind children
          simpa [levels] using depth
        -- a column name may have an aggregate call beneath it here, but it has no plan
        by_cases column : nested.kind = .columnName
        · have positive := levels_pos (nested.withList (list.extend rs))
          obtain ⟨before, rfl⟩ : ∃ before, d = before + 1 := ⟨d - 1, by omega⟩
          exact nests_alone (by simp [column]) (by simp [column]) before
        · exact ih (plainRest column) same

theorem levels_le_nestingBound (statement : Node) : levels statement ≤ nestingBound statement := by
  fun_induction levels statement with
  | case1 _ _ select _ ih => exact Nat.succ_le_succ ih
  | case2 => exact Nat.le_refl _
  | case3 =>
    unfold nestingBound
    split <;> omega

theorem levels_le (statement : Node) :
    levels statement ≤ statement.seriesCount + statement.underSeries.limits.length + 2 := by
  fun_induction levels statement with
  | case1 _ _ select _ ih =>
    simp only [Node.seriesCount, Node.underSeries]
    omega
  | case2 =>
    simp only [Node.seriesCount, Node.underSeries, Node.limits, List.countP_eq_length_filter]
    omega
  | case3 => omega

/-- With a level for every statement that nests, planning does not run out of them, and more levels
make no difference. -/
theorem levels_enough {depth : Nat} (nests : NestsWithin env depth statement) :
    Ends (planWithin env depth statement).result ∧
      ∀ more, depth ≤ more → planWithin env more statement = planWithin env depth statement := by
  induction depth generalizing statement with
  | zero => exact nests.elim
  | succ depth ih =>
    obtain ⟨c, layered, same⟩ := step_layered env statement
    -- one level is the step's own, the others are those of the statement that it asks for
    suffices below : Ends (c.run (planWithin env depth)).result ∧
        ∀ more, depth ≤ more → c.run (planWithin env more) = c.run (planWithin env depth) by
      rw [planWithin, same]
      refine ⟨below.1, fun more le => ?_⟩
      obtain ⟨more, rfl⟩ : ∃ less, more = less + 1 := ⟨more - 1, by omega⟩
      rw [planWithin, same, below.2 more (by omega)]
    cases layered with
    | stopped notes ended => exact ⟨fun h => ended (Except.error.inj h), fun _ _ => rfl⟩
    | made notes => exact ⟨.ok _, fun _ _ => rfl⟩
    | asking before asked ends =>
      obtain ⟨endsBelow, stable⟩ := ih (nests _ _ asked)
      refine ⟨?_, fun more le => ?_⟩
      · rw [Course.asking_result]
        exact endsBelow.bind fun input _ => ends input
      · simp only [Course.run, stable more le]

theorem not_columnName {depth : Nat} {p : Plan} (h : (planWithin env depth statement).result = .ok p) :
    statement.kind ≠ .columnName := by
  intro column
  cases depth with
  | zero => cases h
  | succ depth =>
    rw [planWithin, step, column] at h
    cases h

/-- A plan groups its rows at most once, and not at all where nothing is to be grouped. -/
theorem groups_once {depth : Nat} (plain : statement.PlainNames env.routing) {p : Plan}
    (h : (planWithin env depth statement).result = .ok p) :
    p.stages.countP Stage.groups ≤ 1 ∧
      (statement.kind = .select → Ungrouped env statement → p.stages.countP Stage.groups = 0) := by
  induction depth generalizing statement p with
  | zero => cases h
  | succ depth ih =>
    rw [planWithin] at h
    rcases step_eq_ok h with alone | ⟨layer, rest, input, below, made, around⟩
    · cases alone with
      | rows _ rows => cases rows <;> simp [Plan.stages, Stage.groups]
      | draw => simp [Plan.stages, Stage.groups]
    · have plainRest := below.plain plain (not_columnName made)
      obtain ⟨once, never⟩ := ih plainRest made
      cases around with
      | limit count offset =>
        cases below with
        | limit kind found =>
          refine ⟨by simpa [Plan.stages, Stage.groups] using once, fun _ final => ?_⟩
          simpa [Plan.stages, Stage.groups] using never kind final.withoutFirstLimit
      | group =>
        cases below with
        | group kind grouped found =>
          have none := never kind (ungrouped_final plain found)
          refine ⟨Nat.le_of_eq ?_, fun _ final => absurd grouped final.not_grouped⟩
          rw [Plan.stages, List.countP_cons_of_pos rfl, none]
      | series =>
        cases below with
        | series kind =>
          refine ⟨by simpa [Plan.stages, Stage.groups] using once, fun kind' => ?_⟩
          simp [kind] at kind'

/-- The computation depends on the plan of the statement: with another plan for this one alone it
can go differently. -/
def Consults (f : (Node → Run Plan) → Run Plan) (rest : Node) : Prop :=
  ∃ below below', (∀ other, other ≠ rest → below other = below' other) ∧ f below ≠ f below'

theorem Course.consulted {c : Course} (consults : Consults c.run rest) :
    ∃ before after, c = .asking before rest after := by
  obtain ⟨below, below', others, differ⟩ := consults
  cases c with
  | stopped | made => exact absurd rfl differ
  | asking before asked after =>
    by_cases this : asked = rest
    · exact ⟨before, after, this ▸ rfl⟩
    · refine absurd ?_ differ
      simp only [Course.run, others asked this]

/-- Planning the first statement takes the plan of the second. -/
def PlannedThrough (env : Environment) (statement rest : Node) : Prop :=
  Consults (fun below => step env below statement) rest

theorem PlannedThrough.below (through : PlannedThrough env statement rest) :
    ∃ layer, Below env statement layer rest := by
  obtain ⟨c, layered, same⟩ := step_layered env statement
  rw [PlannedThrough, funext same] at through
  obtain ⟨before, after, rfl⟩ := Course.consulted through
  cases layered with
  | asking _ asked => exact ⟨_, asked⟩

/-- A chain of statements, each planned through the next, is no longer than they nest. -/
theorem chain_length_le {depth : Nat} {rests : List Node} (nests : NestsWithin env depth statement)
    (chain : List.IsChain (PlannedThrough env) (statement :: rests)) :
    (statement :: rests).length ≤ depth := by
  induction rests generalizing statement depth with
  | nil =>
    cases depth with
    | zero => exact nests.elim
    | succ depth => simp
  | cons rest others ih =>
    obtain ⟨first, chain⟩ := List.isChain_cons_cons.1 chain
    obtain ⟨layer, below⟩ := first.below
    cases depth with
    | zero => exact nests.elim
    | succ depth => exact Nat.succ_le_succ (ih (nests layer rest below) chain)

end Planning

namespace Plan

theorem countP_parts_le {p q : Plan} (mem : q ∈ p.parts) (test : Stage → Bool) :
    q.stages.countP test ≤ p.stages.countP test := by
  have around : ∀ (stage : Stage) (stages : List Stage),
      stages.countP test ≤ (stage :: stages).countP test := fun stage stages => by
    rw [List.countP_cons]
    exact Nat.le_add_right _ _
  induction p with
  | tableScan | tablelessSelect | draw => exact List.mem_singleton.1 mem ▸ Nat.le_refl _
  | limit _ _ _ ih | groupBy _ _ _ _ _ ih | series _ _ _ ih =>
    rcases List.mem_cons.1 mem with rfl | below
    · exact Nat.le_refl _
    · exact Nat.le_trans (ih below) (around _ _)

/-- In a plan that groups at most once the input of a grouping is not a grouping. -/
theorem input_not_grouped {p : Plan} (once : p.stages.countP Stage.groups ≤ 1) {columns : List String}
    {select keys : Expr} {pad : Nat} {input : Plan}
    (mem : .groupBy columns select keys pad input ∈ p.parts) :
    input.stages.countP Stage.groups = 0 := by
  have here := Nat.le_trans (countP_parts_le mem Stage.groups) once
  rw [stages, List.countP_cons_of_pos rfl] at here
  omega

end Plan

namespace Planning

variable {env : Environment} {statement : Node}

theorem isGrouped_kind (h : isGrouped env statement = .ok true) : statement.kind = .select := by
  by_contra other
  simp [isGrouped, hasGroupKeys, selectsAggregate, other] at h

/-- The SELECT that a grouping is planned over calls no aggregate in its list. -/
theorem group_consults {rest : Node} (plain : statement.PlainNames env.routing)
    (consults : Consults (fun below => group env below statement) rest) : Ungrouped env rest := by
  obtain ⟨c, course, same⟩ := group_course env statement
  rw [funext same] at consults
  obtain ⟨before, after, rfl⟩ := Course.consulted consults
  cases course with
  | asking found => exact ungrouped_final plain found

/-- Where planning comes to there is no aggregate call beneath a column name, unless it comes to
such a name, which has no plan. -/
theorem reached_plain {n : Node} (plain : statement.PlainNames env.routing)
    (reached : Relation.ReflTransGen (PlannedThrough env) statement n) :
    n.kind = .columnName ∨ n.PlainNames env.routing := by
  induction reached with
  | refl => exact .inr plain
  | @tail m n _ through ih =>
    obtain ⟨layer, below⟩ := through.below
    rcases ih with column | plain
    · cases below with
      | limit kind | group kind | series kind => cases column.symm.trans kind
    · by_cases column : n.kind = .columnName
      · exact .inl column
      · exact .inr (below.plain plain column)

/-- Planning a statement ends, and groups each SELECT at most once. -/
structure Terminates (env : Environment) (statement : Node) : Prop where
  ends : (plan env statement).result ≠ .error .endless
  /-- The SERIES and the limits make one level each, and there are two more. -/
  enough : ∀ depth, statement.seriesCount + statement.underSeries.limits.length + 2 ≤ depth →
    planWithin env depth statement = plan env statement
  /-- So long is a chain of statements at most, each planned through the next. -/
  nesting : ∀ rests, List.IsChain (PlannedThrough env) (statement :: rests) →
    (statement :: rests).length ≤ statement.seriesCount + statement.underSeries.limits.length + 2
  /-- A SELECT that a grouping is planned over calls no aggregate in its list, and is not grouped
  again. -/
  inner : ∀ n rest, Relation.ReflTransGen (PlannedThrough env) statement n →
    isGrouped env n = .ok true → Consults (fun below => group env below n) rest →
      (∃ list, rest.selectList? = some list ∧ callsAggregate env.routing list ≠ .ok true) ∧
        isGrouped env rest ≠ .ok true
  once : ∀ p, (buildPlan env statement).result = .ok p → p.stages.countP Stage.groups ≤ 1 ∧
    ∀ q ∈ p.parts, q.name = "GroupBy" → ∀ input ∈ q.inputs, input.name ≠ "GroupBy"

/-- Without an aggregate call beneath a column name planning ends, whichever builders decline. -/
theorem planning_terminates (plain : statement.PlainNames env.routing) : Terminates env statement := by
  have nests : NestsWithin env (levels statement) statement := nests_levels plain
  obtain ⟨ends, stable⟩ := levels_enough nests
  have enough := stable _ (levels_le_nestingBound statement)
  refine ⟨?_, fun depth le => ?_, fun rests chain => ?_, fun n rest reached grouped consults => ?_,
    fun p made => ?_⟩
  · rw [plan, enough]
    exact ends
  · rw [plan, enough, stable depth (Nat.le_trans (levels_le statement) le)]
  · exact Nat.le_trans (chain_length_le nests chain) (levels_le statement)
  · have final : Ungrouped env rest := by
      rcases reached_plain plain reached with column | plain
      · cases column.symm.trans (isGrouped_kind grouped)
      · exact group_consults plain consults
    exact ⟨final.list, final.not_grouped⟩
  · have once := (groups_once plain (buildPlan_eq_ok.1 made)).1
    refine ⟨once, fun q mem groups input below again => ?_⟩
    cases q with
    | groupBy =>
      obtain rfl := List.mem_singleton.1 below
      have none := Plan.input_not_grouped once mem
      cases input with
      | groupBy => simp [Plan.stages, Stage.groups] at none
      | _ => simp [Plan.name] at again
    | _ => simp [Plan.name] at groups

theorem planning_terminates_sales :
    salesByNet.seriesCount = 1 ∧ salesByNet.underSeries.limits.length = 1 ∧
      Terminates { salesEnvironment with declines := (· == .tableScan) } salesByNet := by
  have plain : salesByNet.PlainNames salesEnvironment.routing := by decide +kernel
  exact ⟨by decide +kernel, by decide +kernel, planning_terminates plain⟩

/-- With an aggregate call beneath a column name there is no end: the internal SELECT of the
grouping is grouped again. -/
example : (plan salesEnvironment (.select [.table "sales",
    .item ⟨.columnName, some (.identifier "total"), [.call "sum" []], none⟩])).result =
      .error .endless := by
  decide +kernel

end Planning

end StatementPlan
