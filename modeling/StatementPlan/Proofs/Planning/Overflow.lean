/-
Planning that neither answers nor fails: only where a tree that it hands to the compiler charges for
more bytes than a size can hold.  On every other statement, however malformed, it ends in a plan or
an error, every edit of a tree at a position finds the position there, and every number of bytes in
a plan is the sum over the symbols called.

`HandsOver`: the trees that planning one statement hands to the compiler.
`step_error`, `planWithin_error`: where a step stops, and where a run does.
`below_byPosition`: the statement below is made by edits at positions.
`planWithin_counted`: the bytes in a plan.
`overflow_only`: the whole of it, for planning that reports defects.
-/
import StatementPlan.Proofs.Planning.Course
import StatementPlan.Proofs.Planning.Nesting
import StatementPlan.Proofs.Tree.Positions

namespace StatementPlan

/-- The expressions of a plan that have their bytes in it. -/
def Plan.compiled : Plan → List Compiled
  | tableScan _ _ select predicate => select :: predicate.toList
  | tablelessSelect _ select => [select]
  | limit _ _ input => compiled input
  | groupBy _ select _ scratchpad input => ⟨select, scratchpad⟩ :: compiled input
  | series _ _ input => compiled input
  | draw _ => []

namespace Planning

variable {env : Environment} {below below' : Node → Run Plan} {statement rest m : Node} {stop : Stop}

/-- The trees that the row sources hand to the compiler, the second one in its turn. -/
inductive RowInput (env : Environment) (statement : Node) : Node → Prop
  | scan {m : Node} (offered : env.declines .tableScan = false) (input : ScanInput env statement m) :
      RowInput env statement m
  | constants {m : Node} (declined : Declined env .tableScan statement)
      (offered : env.declines .tablelessSelect = false) (input : ConstantsInput statement m) :
      RowInput env statement m

/-- The tree that a SERIES hands to the compiler: its name, once its SELECT has a plan. -/
inductive SeriesInput (env : Environment) (below : Node → Run Plan) (statement : Node) : Node → Prop
  | name {name select list name' select' : Node} {input : Plan}
      (children : statement.children = [name, select]) (found : select.selectList? = some list)
      (pushed : (seriesName env name select list).result = .ok (name', select'))
      (planned : (below select').result = .ok input) : SeriesInput env below statement name'

/-- The trees that planning a statement hands to the compiler, besides those of the statement that
it is planned through. -/
inductive HandsOver (env : Environment) (below : Node → Run Plan) (statement : Node) : Node → Prop
  | rows {m : Node} (kind : statement.kind = .select) (passed : PassesLimit env statement)
      (direct : isGrouped env statement = .ok false) (input : RowInput env statement m) :
      HandsOver env below statement m
  | group {m : Node} (passed : PassesLimit env statement) (grouped : isGrouped env statement = .ok true)
      (input : GroupInput env statement m) : HandsOver env below statement m
  | series {m : Node} (kind : statement.kind = .series) (input : SeriesInput env below statement m) :
      HandsOver env below statement m

/-- How planning a statement stops by itself. -/
inductive OwnStop (env : Environment) (below : Node → Run Plan) (statement : Node) : Stop → Prop
  | failed (error : PlanError) : OwnStop env below statement (.failed error)
  | overflow {m : Node} (handed : HandsOver env below statement m) (exceeds : Exceeds env.calls m) :
      OwnStop env below statement .overflow

theorem OwnStop.of_part {handed : Node → Prop} (h : PartStop env.calls handed stop)
    (handsOver : ∀ m, handed m → HandsOver env below statement m) : OwnStop env below statement stop := by
  cases h with
  | failed => exact .failed _
  | overflow here exceeds => exact .overflow (handsOver _ here) exceeds

/-- More plans for the statements below a SERIES do not take trees away. -/
theorem HandsOver.mono (h : HandsOver env below statement m)
    (more : ∀ rest input, Below env statement .series rest → (below rest).result = .ok input →
      (below' rest).result = .ok input) : HandsOver env below' statement m := by
  cases h with
  | rows kind passed direct input => exact .rows kind passed direct input
  | group passed grouped input => exact .group passed grouped input
  | series kind input =>
    cases input with
    | name children found pushed planned =>
      obtain ⟨rs, needed, rfl, _⟩ := seriesName_eq_ok found pushed
      exact .series kind (.name children found pushed
        (more _ _ (.series kind children found needed) planned))

/-- The run of one statement; without an end for any other. -/
def onlyRun (rest : Node) (x : Run Plan) (n : Node) : Run Plan :=
  if n = rest then x else ⟨[], .error .endless⟩

theorem onlyRun_self (rest : Node) (x : Run Plan) : onlyRun rest x rest = x := if_pos rfl

theorem Course.consults (before : List Note) (rest : Node) (after : Plan → Run Plan) :
    Consults (Course.asking before rest after).run rest := by
  refine ⟨onlyRun rest ⟨[], .error .overflow⟩, onlyRun rest ⟨[], .error .endless⟩, ?_, ?_⟩
  · intro other different
    simp only [onlyRun, if_neg different]
  · intro equal
    have results := congrArg Run.result equal
    simp only [Course.asking_result, onlyRun_self, error_bind] at results
    cases results

/-- A course that stops does so by itself, or with the plan that it asks for. -/
def StopsAt (env : Environment) (below : Node → Run Plan) (statement : Node) (stop : Stop)
    (c : Course) : Prop :=
  OwnStop env below statement stop ∨
    ∃ before rest after, c = .asking before rest after ∧ (below rest).result = .error stop

theorem StopsAt.noted {c : Course} (h : StopsAt env below statement stop c) (first : List Note) :
    StopsAt env below statement stop (c.noted first) := by
  refine h.imp_right ?_
  rintro ⟨before, rest, after, rfl, inside⟩
  exact ⟨_, rest, after, rfl, inside⟩

theorem GroupCourse.stopsAt {c : Course} (passed : PassesLimit env statement)
    (decided : isGrouped env statement = .ok true) (h : GroupCourse env statement c)
    (stopped : (c.run below).result = .error stop) : StopsAt env below statement stop c := by
  cases h with
  | refused =>
    obtain rfl := Except.error.inj stopped
    exact .inl (.failed _)
  | uncompiled _ stops =>
    obtain rfl := Except.error.inj stopped
    exact .inl (.of_part stops fun m => .group passed decided)
  | asking =>
    rw [Course.asking_result, bind_eq_error_iff] at stopped
    rcases stopped with inside | ⟨_, _, own⟩
    · exact .inr ⟨_, _, _, rfl, inside⟩
    · cases own

theorem SeriesCourse.stopsAt {c : Course} (kind : statement.kind = .series)
    (h : SeriesCourse env statement c)
    (stopped : (c.run below).result = .error stop) : StopsAt env below statement stop c := by
  cases h with
  | refused =>
    obtain rfl := Except.error.inj stopped
    exact .inl (.failed _)
  | @asking _ _ list name' _ _ children found pushed =>
    rw [Course.asking_result, bind_eq_error_iff] at stopped
    rcases stopped with inside | ⟨input, planned, own⟩
    · exact .inr ⟨_, _, _, rfl, inside⟩
    rcases seriesEnd_cases env list.children.length name' input with ⟨_, stops, same⟩ | ⟨_, _, _, same⟩
    · rw [same] at own
      obtain rfl := Except.error.inj own
      refine .inl (.of_part stops ?_)
      rintro _ rfl
      exact .series kind (.name children found (congrArg Run.result pushed) planned)
    · rw [same] at own
      cases own

theorem SelectCourse.stopsAt {c : Course} (kind : statement.kind = .select)
    (h : SelectCourse env statement c)
    (stopped : (c.run below).result = .error stop) : StopsAt env below statement stop c := by
  cases h with
  | miscounted | undecided =>
    obtain rfl := Except.error.inj stopped
    exact .inl (.failed _)
  | limited =>
    rw [Course.asking_result, bind_eq_error_iff] at stopped
    rcases stopped with inside | ⟨_, _, own⟩
    · exact .inr ⟨_, _, _, rfl, inside⟩
    · cases own
  | grouped passed decided course =>
    rw [Course.noted_result] at stopped
    exact (course.stopsAt passed decided stopped).noted _
  | direct passed decided course =>
    rw [Course.noted_result] at stopped
    have rows : ∀ {m}, RowInput env statement m → HandsOver env below statement m := .rows kind passed decided
    cases course with
    | scanned | constants => cases stopped
    | scanStopped offered here =>
      obtain rfl := Except.error.inj stopped
      exact .inl (.of_part (scan_stops env statement _ here) fun m input => rows (.scan offered input))
    | constantsStopped declined offered here =>
      obtain rfl := Except.error.inj stopped
      exact .inl (.of_part (constants_stops env statement _ here) fun m input =>
        rows (.constants declined offered input))
    | unserved =>
      obtain rfl := Except.error.inj stopped
      exact .inl (.failed _)

theorem StepCourse.stopsAt {c : Course} (h : StepCourse env statement c)
    (stopped : (c.run below).result = .error stop) : StopsAt env below statement stop c := by
  cases h with
  | series kind course =>
    rw [Course.noted_result] at stopped
    exact (course.stopsAt kind stopped).noted _
  | select kind course => exact course.stopsAt kind stopped
  | unplanned =>
    obtain rfl := Except.error.inj stopped
    exact .inl (.failed _)
  | draw _ course =>
    cases course with
    | made => cases stopped
    | refused =>
      obtain rfl := Except.error.inj stopped
      exact .inl (.failed _)

/-- A step stops by itself, or with the plan of the statement that it is planned through. -/
theorem step_error (h : (step env below statement).result = .error stop) :
    OwnStop env below statement stop ∨ ∃ layer rest, Below env statement layer rest ∧
      PlannedThrough env statement rest ∧ (below rest).result = .error stop := by
  obtain ⟨c, course, same⟩ := step_course env statement
  rw [same] at h
  refine (course.stopsAt h).imp_right ?_
  rintro ⟨before, rest, after, rfl, inside⟩
  cases course.layered with
  | asking _ asked =>
    refine ⟨_, rest, asked, ?_, inside⟩
    rw [PlannedThrough, funext same]
    exact Course.consults before rest after

/-- A run within its levels stops with an error, or over the bytes of a tree that one of the
statements hands on which it is planned through. -/
theorem planWithin_error {depth : Nat} (nests : NestsWithin env depth statement)
    (h : (planWithin env depth statement).result = .error stop) :
    (∃ error, stop = .failed error) ∨ stop = .overflow ∧ ∃ n m depth,
      Relation.ReflTransGen (PlannedThrough env) statement n ∧
        HandsOver env (planWithin env depth) n m ∧ Exceeds env.calls m := by
  induction depth generalizing statement with
  | zero => exact nests.elim
  | succ depth ih =>
    rw [planWithin] at h
    rcases step_error h with own | ⟨layer, rest, asked, through, inside⟩
    · cases own with
      | failed error => exact .inl ⟨error, rfl⟩
      | overflow handed exceeds => exact .inr ⟨rfl, statement, _, depth, .refl, handed, exceeds⟩
    · have further := ih (nests layer rest asked) inside
      rcases further with failed | ⟨stopped, n, m, depth', reached, handed, exceeds⟩
      · exact .inl failed
      · exact .inr ⟨stopped, n, m, depth', .head through reached, handed, exceeds⟩

theorem step_mono (more : ∀ rest p, (below rest).result = .ok p → (below' rest).result = .ok p)
    {p : Plan}
    (h : (step env below statement).result = .ok p) : (step env below' statement).result = .ok p := by
  obtain ⟨c, _, same⟩ := step_course env statement
  rw [same] at h ⊢
  cases c with
  | stopped | made => exact h
  | asking before rest after =>
    rw [Course.asking_result, bind_eq_ok_iff] at h ⊢
    obtain ⟨input, made, h⟩ := h
    exact ⟨input, more rest input made, h⟩

/-- More levels do not take a plan away. -/
theorem planWithin_mono {depth more : Nat} (le : depth ≤ more) {p : Plan}
    (h : (planWithin env depth statement).result = .ok p) :
    (planWithin env more statement).result = .ok p := by
  induction depth generalizing statement more p with
  | zero => cases h
  | succ depth ih =>
    obtain ⟨more, rfl⟩ : ∃ less, more = less + 1 := ⟨more - 1, by omega⟩
    rw [planWithin] at h ⊢
    exact step_mono (fun rest q made => ih (by omega) made) h

/-- A plan at any number of levels is the plan. -/
theorem plan_of_planWithin (plain : statement.PlainNames env.routing) {depth : Nat} {p : Plan}
    (h : (planWithin env depth statement).result = .ok p) : (plan env statement).result = .ok p := by
  have stable := (levels_enough (nests_levels plain)).2
  have made := planWithin_mono (Nat.le_max_left depth (levels statement)) h
  rw [stable _ (Nat.le_max_right depth (levels statement))] at made
  rw [plan, stable _ (levels_le_nestingBound statement), made]

theorem handsOver_plan {n : Node} (plain : statement.PlainNames env.routing)
    (reached : Relation.ReflTransGen (PlannedThrough env) statement n) {depth : Nat}
    (h : HandsOver env (planWithin env depth) n m) : HandsOver env (plan env) n m := by
  refine h.mono fun rest input asked planned => plan_of_planWithin ?_ planned
  rcases reached_plain plain reached with column | plain
  · cases asked with
    | series kind => cases column.symm.trans kind
  · exact asked.plain plain (not_columnName planned)

/-- Where planning neither answers nor fails. -/
theorem plan_error (plain : statement.PlainNames env.routing)
    (h : (plan env statement).result = .error stop) :
    (∃ error, stop = .failed error) ∨ stop = .overflow ∧ ∃ n m,
      Relation.ReflTransGen (PlannedThrough env) statement n ∧
        HandsOver env (plan env) n m ∧ Exceeds env.calls m := by
  obtain ⟨_, stable⟩ := levels_enough (nests_levels plain)
  rw [plan, stable _ (levels_le_nestingBound statement)] at h
  rcases planWithin_error (nests_levels plain) h with failed | ⟨stopped, n, m, _, reached, handed, exceeds⟩
  · exact .inl failed
  · exact .inr ⟨stopped, n, m, reached, handsOver_plan plain reached handed, exceeds⟩

/-- The bytes are those of the expression. -/
def CountedBy (env : Environment) (c : Compiled) : Prop :=
  Counted env.calls c.expr.calls c.scratchpad

/-- What a step makes by itself has the bytes of the symbols that it calls. -/
theorem Alone.counted {p : Plan} (h : Alone env statement p) : ∀ c ∈ p.compiled, CountedBy env c := by
  intro c mem
  cases h with
  | draw => simp [Plan.compiled] at mem
  | rows _ rows =>
    cases rows with
    | constants _ compiled =>
      obtain rfl := List.mem_singleton.1 mem
      exact compile_counted compiled
    | @scan _ _ _ _ predicate _ _ compiled _ filtered =>
      rcases List.mem_cons.1 mem with rfl | mem
      · exact compile_counted compiled
      · rw [mapM_option_eq_ok] at filtered
        generalize RowSource.condition? statement = condition at filtered
        cases filtered with
        | none => simp at mem
        | some made =>
          obtain rfl := List.mem_singleton.1 mem
          obtain ⟨_, _, compiled, _⟩ := predicateOf_eq_ok.1 made
          exact compile_counted compiled

theorem Over.counted {layer : Layer} {input p : Plan} (h : Over env statement input layer p)
    (inside : ∀ c ∈ input.compiled, CountedBy env c) : ∀ c ∈ p.compiled, CountedBy env c := by
  cases h with
  | limit | series => exact inside
  | group selected =>
    intro c mem
    rcases List.mem_cons.1 mem with rfl | mem
    · exact compile_counted selected
    · exact inside c mem

theorem planWithin_counted {depth : Nat} {p : Plan}
    (h : (planWithin env depth statement).result = .ok p) : ∀ c ∈ p.compiled, CountedBy env c := by
  induction depth generalizing statement p with
  | zero => cases h
  | succ depth ih =>
    rw [planWithin] at h
    rcases step_eq_ok h with alone | ⟨layer, rest, input, _, made, around⟩
    · exact alone.counted
    · exact around.counted (ih made)

/-- The statement below a layer as edits at positions make it, each of them in range. -/
inductive ByPosition (n : Node) : Layer → Node → Prop
  | limit {i : Nat} {clause rest : Node} (found : n.positionOf? .limit = some i)
      (removed : n.removeChild? i = some (clause, rest)) : ByPosition n .limit rest
  | group {list old edited rest : Node} (replaced : n.replaceChild? 0 list = some (old, edited))
      (cleared : Node.Cleared .groupBy edited rest) : ByPosition n .group rest
  | series {select list old rest : Node} (found : n.child? 1 = some select)
      (replaced : select.replaceChild? 0 list = some (old, rest)) : ByPosition n .series rest

theorem below_byPosition {layer : Layer} (h : Below env statement layer rest) :
    ByPosition statement layer rest := by
  cases h with
  | @limit clause kind found =>
    obtain ⟨i, position⟩ := Node.exists_positionOf (List.mem_of_find?_eq_some found)
      (by simpa using List.find?_some found)
    obtain ⟨_, _, removed⟩ := Node.removeChild?_positionOf position
    exact .limit position removed
  | @group source kind grouped found =>
    obtain ⟨_, shape⟩ := Node.selectList?_eq_some.1 found
    have replaced := Node.replaceChild?_first shape (columnList (neededColumns env statement source))
    refine .group replaced ?_
    exact Node.cleared .groupBy { statement with
      children := columnList (neededColumns env statement source) :: statement.children.tail }
  | @series name select list rs kind children found needed =>
    obtain ⟨_, shape⟩ := Node.selectList?_eq_some.1 found
    have second : statement.child? 1 = some select := by simp [Node.child?, children]
    exact .series second (Node.replaceChild?_first shape _)

/-- Whether the select list calls an aggregate, the list read at its position; nothing, if there is
no child at the position. -/
def selectsAggregateAt? (table : SymbolTable) (n : Node) : Option (Except Defect Bool) :=
  if n.kind = .select ∧ 2 ≤ n.children.length then
    (n.child? 0).map fun list =>
      if list.kind = .selectList then callsAggregate table list
      else .error (.malformed (.selectStartsWith list.kind))
  else some (.ok false)

theorem selectsAggregateAt?_eq (table : SymbolTable) (n : Node) :
    selectsAggregateAt? table n = some (selectsAggregate table n) := by
  obtain ⟨kind, token, children, id⟩ := n
  unfold selectsAggregateAt? selectsAggregate
  by_cases select : kind = .select
  · rcases children with _ | ⟨list, _ | ⟨second, rest⟩⟩ <;> simp [select, Node.child?]
  · simp [select]

/-- Planning answers or fails, but for trees that charge for too much. -/
structure OverflowsOnly (env : Environment) (statement : Node) : Prop where
  ends : (∃ p, (buildPlan env statement).result = .ok p) ∨
    (∃ error, (buildPlan env statement).result = .error (.failed error)) ∨
    (buildPlan env statement).result = .error .overflow ∧ ∃ n m,
      Relation.ReflTransGen (PlannedThrough env) statement n ∧
        HandsOver env (plan env) n m ∧ Exceeds env.calls m
  /-- Every statement that planning goes on with is made by edits in range. -/
  edits : ∀ n layer rest, Relation.ReflTransGen (PlannedThrough env) statement n →
    Below env n layer rest → ByPosition n layer rest
  /-- The list that is searched for a call of an aggregate is read in range. -/
  reads : ∀ n, Relation.ReflTransGen (PlannedThrough env) statement n →
    selectsAggregateAt? env.routing n = some (selectsAggregate env.routing n)
  /-- The bytes of a compiled tree are the sum over the symbols called, without a limit. -/
  compiled : ∀ m c, compile env.calls m = .ok c → Counted env.calls c.expr.calls c.scratchpad
  /-- So are the bytes in a plan. -/
  counted : ∀ p, (buildPlan env statement).result = .ok p → ∀ c ∈ p.compiled,
    Counted env.calls c.expr.calls c.scratchpad

/-- Where defects are reported, planning ends abruptly only where bytes add up to more than a size. -/
theorem overflow_only (reported : env.settings.onDefect = .report)
    (plain : statement.PlainNames env.routing) : OverflowsOnly env statement where
  ends := by
    have same : (buildPlan env statement).result = (plan env statement).result := by
      rw [buildPlan_result, reported]
      unfold DefectPolicy.ruled
      split <;> simp_all
    rw [same]
    cases here : (plan env statement).result with
    | ok p => exact .inl ⟨p, rfl⟩
    | error stop =>
      rcases plan_error plain here with ⟨error, rfl⟩ | ⟨rfl, exceeds⟩
      · exact .inr (.inl ⟨error, rfl⟩)
      · exact .inr (.inr ⟨rfl, exceeds⟩)
  edits _ _ _ _ asked := below_byPosition asked
  reads n _ := selectsAggregateAt?_eq env.routing n
  compiled _ _ made := compile_counted made
  counted _ made := planWithin_counted (buildPlan_eq_ok.1 made)

/-- The sales, where a sum keeps half of what a size can hold, and defects are reported. -/
def wideSums : Environment :=
  .ofRegistry { onDefect := .report } (Registry.builtins.register (.aggregate "sum" (Nat.pow 2 63)))
    (Catalog.register {} "sales" ["city", "total", "tax"])

/-- SELECT city, sum(total) - sum(tax) FROM sales GROUP BY city -/
def salesOfTwoSums : Node :=
  .select [.column "city", .item (.binary (.operator .sub) (.call "sum" [.column "total"])
    (.call "sum" [.column "tax"])), .table "sales", .groupBy (.column "city")]

theorem overflow_only_sums : (buildPlan wideSums salesOfTwoSums).result = .error .overflow ∧
    OverflowsOnly wideSums salesOfTwoSums := by
  have plain : salesOfTwoSums.PlainNames wideSums.routing := by decide +kernel
  exact ⟨by decide +kernel, overflow_only rfl plain⟩

end Planning

end StatementPlan
