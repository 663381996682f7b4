/-
The course of planning one statement.  A step stops or makes a plan by itself, or it asks for the
plan of one statement below and goes on from there; what it notes, and what it asks for, does not
depend on any plan below.  What holds of a step is shown by going through its courses, so that the
builders are looked into here and nowhere else.

`group_course`, `series_course`, `draw_course`, `rows_course`: the courses of the builders.
`step_course`: those of a step.
`Course.asking_eq_ok`, `Course.asking_result`: how a course that asks ends, over the plan below.
-/
import StatementPlan.Proofs.Planning.Stops
import StatementPlan.Proofs.Planning.Series

namespace StatementPlan

theorem Run.ofResult_ok_bind (a : α) (f : α → Run β) : (Run.ofResult (.ok a) >>= f) = f a :=
  Run.pure_bind a f

/-- The SELECT without its first limit. -/
def Node.withoutFirstLimit (statement : Node) : Node :=
  { statement with children := statement.children.eraseP (·.kind == .limit) }

/-- How a step goes: it ends by itself, or it asks for the plan of a statement and goes on. -/
inductive Course where
  | stopped (notes : List Note) (stop : Stop)
  | made (notes : List Note) (p : Plan)
  | asking (before : List Note) (rest : Node) (after : Plan → Run Plan)

namespace Course

/-- The run, over the runs of the statements below. -/
def run (below : Node → Run Plan) : Course → Run Plan
  | stopped notes stop => ⟨notes, .error stop⟩
  | made notes p => ⟨notes, .ok p⟩
  | asking before rest after => (⟨before, .ok ()⟩ : Run Unit) >>= fun _ => below rest >>= after

/-- The course with other notes first. -/
def noted (first : List Note) : Course → Course
  | stopped notes stop => stopped (first ++ notes) stop
  | made notes p => made (first ++ notes) p
  | asking before rest after => asking (first ++ before) rest after

theorem noted_run (first : List Note) (below : Node → Run Plan) (c : Course) :
    (c.noted first).run below = (⟨first, .ok ()⟩ : Run Unit) >>= fun _ => c.run below := by
  cases c with
  | stopped | made => rfl
  | asking before rest after =>
    rw [run, ← Run.bind_assoc]
    rfl

theorem noted_result (first : List Note) (below : Node → Run Plan) (c : Course) :
    ((c.noted first).run below).result = (c.run below).result := by
  rw [noted_run, Run.bind_result, ok_bind]

variable {below : Node → Run Plan} {notes before : List Note} {rest : Node} {after : Plan → Run Plan}

theorem noted_eq_ok {first : List Note} {c : Course} {p : Plan} :
    (c.noted first).run below = ⟨notes, .ok p⟩ ↔
      ∃ own, c.run below = ⟨own, .ok p⟩ ∧ notes = first ++ own := by
  rw [noted_run]
  cases c.run below with
  | mk own result =>
    cases result with
    | error stop =>
      exact ⟨fun h => (nomatch congrArg Run.result h),
        fun ⟨_, h, _⟩ => (nomatch congrArg Run.result h)⟩
    | ok q =>
      constructor
      · rintro ⟨⟩
        exact ⟨own, rfl, rfl⟩
      · rintro ⟨_, ⟨⟩, rfl⟩
        rfl

theorem asking_eq_ok {p : Plan} : (asking before rest after).run below = ⟨notes, .ok p⟩ ↔
    ∃ inner input last, below rest = ⟨inner, .ok input⟩ ∧ after input = ⟨last, .ok p⟩ ∧
      notes = before ++ (inner ++ last) := by
  constructor
  · intro h
    cases here : below rest with
    | mk inner result =>
      cases result with
      | error stop =>
        simp only [run, here] at h
        cases congrArg Run.result h
      | ok input =>
        cases ended : after input with
        | mk last result =>
          have same : (⟨before ++ (inner ++ last), result⟩ : Run Plan) = ⟨notes, .ok p⟩ := by
            rw [← h, run, here]
            show _ = (⟨before ++ (inner ++ (after input).notes), (after input).result⟩ : Run Plan)
            rw [ended]
          obtain ⟨rfl, rfl⟩ := Run.mk.inj same
          exact ⟨inner, input, last, rfl, ended, rfl⟩
  · rintro ⟨inner, input, last, here, ended, rfl⟩
    rw [run, here]
    show (⟨before ++ (inner ++ (after input).notes), (after input).result⟩ : Run Plan) = _
    rw [ended]

theorem asking_result : ((asking before rest after).run below).result =
    (below rest).result >>= fun input => (after input).result := by
  simp [run]

end Course

namespace Planning

open RowSource

variable {env : Environment} {statement : Node}

/-- The trees that a grouping hands to the compiler: its items, then its keys. -/
inductive GroupInput (env : Environment) (statement : Node) : Node → Prop
  | items {source : Node} (found : statement.selectList? = some source)
      (plain : source.hasChild .all = false) : GroupInput env statement (pushedItems env source).rewritten
  | keys {source : Node} {c : Compiled} (found : statement.selectList? = some source)
      (plain : source.hasChild .all = false)
      (selected : compile env.calls (pushedItems env source).rewritten = .ok c) :
      GroupInput env statement (.ofChildren .groupBy (pushedKeys env statement source).rewritten)

/-- The courses of grouping a SELECT. -/
inductive GroupCourse (env : Environment) (statement : Node) : Course → Prop
  | refused {error : PlanError} (matched : error.unmatched = false) :
      GroupCourse env statement (.stopped [.built .groupBy] (.failed error))
  | uncompiled (source : Node) {stop : Stop} (stops : PartStop env.calls (GroupInput env statement) stop) :
      GroupCourse env statement (.stopped (groupNotes env statement source) stop)
  | asking {source : Node} {select group : Compiled} (found : statement.selectList? = some source)
      (plain : source.hasChild .all = false)
      (selected : compile env.calls (pushedItems env source).rewritten = .ok select)
      (grouped : compile env.calls (.ofChildren .groupBy (pushedKeys env statement source).rewritten) =
        .ok group)
      (stateless : group.scratchpad = 0) :
      GroupCourse env statement (.asking (groupNotes env statement source)
        (ungrouped statement (columnList (neededColumns env statement source)))
        fun input => pure (.groupBy (groupedNames env.settings source.children) select.expr group.expr
          select.scratchpad input))

theorem group_course (env : Environment) (statement : Node) :
    ∃ c, GroupCourse env statement c ∧ ∀ below, group env below statement = c.run below := by
  cases found : statement.selectList? with
  | none => exact ⟨_, .refused rfl, fun below => by rw [group, found]; rfl⟩
  | some source =>
    have shape := fun below => group_run env below found
    by_cases wild : source.hasChild .all = true
    · exact ⟨_, .refused rfl, fun below => by rw [shape, if_pos wild]; rfl⟩
    · simp only [if_neg wild] at shape
      have plain := Bool.eq_false_iff.2 wild
      cases selected : compile env.calls (pushedItems env source).rewritten with
      | error stop =>
        have stops := compile_stops (GroupInput.items found plain) stop selected
        exact ⟨_, .uncompiled source stops, fun below => by rw [shape, selected]; rfl⟩
      | ok select =>
        cases grouped : compile env.calls
            (.ofChildren .groupBy (pushedKeys env statement source).rewritten) with
        | error stop =>
          have stops := compile_stops (GroupInput.keys found plain selected) stop grouped
          exact ⟨_, .uncompiled source stops, fun below => by rw [shape, selected, grouped]; rfl⟩
        | ok group =>
          cases pure : stateless (fun bytes => .defect (.scratchpadNeeded .groupKeys bytes)) group with
          | error stop =>
            refine ⟨_, .uncompiled source (stateless_stops (fun _ => rfl) group stop pure), fun below => ?_⟩
            simp only [shape, selected, grouped, Run.ofResult_ok_bind, pure]
            rfl
          | ok c =>
            obtain ⟨rfl, none⟩ := stateless_eq_ok.1 pure
            refine ⟨_, .asking found plain selected grouped none, fun below => ?_⟩
            simp only [shape, selected, grouped, Run.ofResult_ok_bind, pure]
            rfl

/-- What a series is named by, and the SELECT below it: with the columns of a computed name. -/
inductive Named (env : Environment) (name select list : Node) : List Note → Node → Node → Prop
  | fixed {token : Token} (kind : name.kind = .seriesName) (here : name.token = some token) :
      Named env name select list [] (.ofToken .literal token) select
  | computed (kind : name.kind ≠ .seriesName) (plain : list.hasChild .all = false) :
      Named env name select list
        [.pushedDown (pushedName env name list).counts.inserted (pushedName env name list).counts.reused]
        (pushedName env name list).rewritten
        (select.withList (list.extend (nameColumns env name list)))

theorem seriesName_cases {name select list : Node} (found : select.selectList? = some list) :
    (∃ error, error.unmatched = false ∧ seriesName env name select list = Run.fail error) ∨
      ∃ notes name' select', Named env name select list notes name' select' ∧
        seriesName env name select list = ⟨notes, .ok (name', select')⟩ := by
  by_cases fixed : name.kind = .seriesName
  · rw [seriesName, if_pos fixed]
    cases here : name.token with
    | none => exact .inl ⟨_, rfl, rfl⟩
    | some token => exact .inr ⟨_, _, _, .fixed fixed here, rfl⟩
  · have kind := Node.selectList?_kind found
    have target : (pushedName env name list).target = list.extend (nameColumns env name list) :=
      (PushDown.apply_pushes _ name kind).1.target
    rw [seriesName_computed env select fixed kind, target]
    by_cases wild : list.hasChild .all = true
    · exact .inl ⟨_, rfl, if_pos wild⟩
    · exact .inr ⟨_, _, _, .computed fixed (Bool.eq_false_iff.2 wild), if_neg wild⟩

theorem seriesName_named {name select list name' select' : Node} {notes : List Note}
    (found : select.selectList? = some list)
    (pushed : seriesName env name select list = ⟨notes, .ok (name', select')⟩) :
    Named env name select list notes name' select' := by
  rcases seriesName_cases found with ⟨error, _, refused⟩ | ⟨_, _, _, named, same⟩
  · cases refused.symm.trans pushed
  · cases same.symm.trans pushed
    exact named

/-- The end of planning a series, from the plan of its SELECT. -/
def seriesEnd (env : Environment) (axes : Nat) (name : Node) (input : Plan) : Run Plan := do
  let compiled ← Run.ofResult (compile env.calls name)
  let name ← Run.ofResult (stateless
    (fun bytes => .defect (.scratchpadNeeded .seriesName bytes)) compiled)
  Run.note (.event (.seriesBuilt axes ("series" :: input.outputColumns.take axes)))
  return .series ("series" :: input.outputColumns.take axes) name.expr input

theorem seriesEnd_cases (env : Environment) (axes : Nat) (name : Node) (input : Plan) :
    (∃ stop, PartStop env.calls (· = name) stop ∧ seriesEnd env axes name input = ⟨[], .error stop⟩) ∨
      ∃ c, compile env.calls name = .ok c ∧ c.scratchpad = 0 ∧ seriesEnd env axes name input =
        ⟨[.event (.seriesBuilt axes ("series" :: input.outputColumns.take axes))],
          .ok (.series ("series" :: input.outputColumns.take axes) c.expr input)⟩ := by
  cases compiled : compile env.calls name with
  | error stop =>
    have stops : PartStop env.calls (· = name) stop := compile_stops (by rfl) stop compiled
    exact .inl ⟨stop, stops, by rw [seriesEnd, compiled]; rfl⟩
  | ok c =>
    cases pure : stateless (fun bytes => .defect (.scratchpadNeeded .seriesName bytes)) c with
    | error stop =>
      refine .inl ⟨stop, stateless_stops (fun _ => rfl) c stop pure, ?_⟩
      simp only [seriesEnd, compiled, Run.ofResult_ok_bind, pure]
      rfl
    | ok d =>
      obtain ⟨rfl, none⟩ := stateless_eq_ok.1 pure
      refine .inr ⟨c, rfl, none, ?_⟩
      simp only [seriesEnd, compiled, Run.ofResult_ok_bind, pure]
      rfl

/-- The courses of planning a SERIES. -/
inductive SeriesCourse (env : Environment) (statement : Node) : Course → Prop
  | refused {error : PlanError} (matched : error.unmatched = false) :
      SeriesCourse env statement (.stopped [.built .series] (.failed error))
  | asking {name select list name' select' : Node} {notes : List Note}
      (children : statement.children = [name, select]) (found : select.selectList? = some list)
      (pushed : seriesName env name select list = ⟨notes, .ok (name', select')⟩) :
      SeriesCourse env statement
        (.asking (.built .series :: notes) select' (seriesEnd env list.children.length name'))

theorem series_course (env : Environment) (statement : Node) :
    ∃ c, SeriesCourse env statement c ∧ ∀ below, series env below statement = c.run below := by
  unfold series
  split
  · rename_i name select children
    cases found : select.selectList? with
    | none => exact ⟨_, .refused rfl, fun below => rfl⟩
    | some list =>
      rcases @seriesName_cases env name select list found with
        ⟨error, matched, refused⟩ | ⟨notes, name', select', _, pushed⟩
      · exact ⟨_, .refused matched, fun below => by simp only [refused]; rfl⟩
      · exact ⟨_, .asking children found pushed, fun below => by simp only [pushed]; rfl⟩
  · exact ⟨_, .refused rfl, fun below => rfl⟩

/-- The courses of planning a chart. -/
inductive DrawCourse : Course → Prop
  | refused {error : PlanError} (matched : error.unmatched = false) :
      DrawCourse (.stopped [.built .draw] (.failed error))
  | made (chart : Chart) : DrawCourse (.made [.built .draw] (.draw chart))

theorem draw_course (statement : Node) : ∃ c, DrawCourse c ∧ ∀ below, draw statement = c.run below := by
  unfold draw
  split
  · exact ⟨_, .refused rfl, fun below => rfl⟩
  · split
    · exact ⟨_, .made _, fun below => rfl⟩
    · exact ⟨_, .refused rfl, fun below => rfl⟩

/-- What a leaf builder notes that makes a plan. -/
def acceptance (leaf : Leaf) : List Note := [.event (.accepted leaf), .built (.leaf leaf)]

/-- What comes of offering a statement to a row source that answers so. -/
inductive Offered (env : Environment) (leaf : Leaf) (statement : Node) (answer : Except Stop (Option Plan)) :
    Run (Option Plan) → Prop
  | declined (here : env.declines leaf = true ∨ answer = .ok none) :
      Offered env leaf statement answer ⟨[.offered leaf statement], .ok none⟩
  | stopped {stop : Stop} (offered : env.declines leaf = false) (stopped : answer = .error stop) :
      Offered env leaf statement answer ⟨[.offered leaf statement], .error stop⟩
  | made {p : Plan} (offered : env.declines leaf = false) (made : answer = .ok (some p)) :
      Offered env leaf statement answer ⟨.offered leaf statement :: acceptance leaf, .ok (some p)⟩

theorem offer_cases (env : Environment) (statement : Node) {leaf : Leaf}
    {answer : Except Stop (Option Plan)}
    (built : ∀ below, build env below leaf statement = Run.ofResult answer) :
    ∃ x, Offered env leaf statement answer x ∧ ∀ below, offer env below leaf statement = x := by
  by_cases declines : env.declines leaf = true
  · exact ⟨_, .declined (.inl declines), fun below => by rw [offer, if_pos declines]; rfl⟩
  · have offered := Bool.eq_false_iff.2 declines
    have shape : ∀ below, offer env below leaf statement = _ := fun below => by
      rw [offer, if_neg declines, built]
    cases answer with
    | error stop => exact ⟨_, .stopped offered rfl, shape⟩
    | ok answer =>
      cases answer with
      | none => exact ⟨_, .declined (.inr rfl), shape⟩
      | some p => exact ⟨_, .made offered rfl, shape⟩

/-- A leaf builder makes nothing of a statement, or is told to. -/
def Declined (env : Environment) (leaf : Leaf) (statement : Node) : Prop :=
  env.declines leaf = true ∨ (buildLeaf env leaf statement).result = .ok none

/-- Offering a SELECT to the row sources. -/
def rowsRun (env : Environment) (below : Node → Run Plan) (statement : Node) : Run Plan := do
  match ← offer env below .tableScan statement with
  | some plan => return plan
  | none =>
    match ← offer env below .tablelessSelect statement with
    | some plan => return plan
    | none => Run.fail (.defect (.noBuilder Kind.select.heading))

/-- The courses of a SELECT that makes rows: it is offered to the one row source, and once that has
declined it, to the other. -/
inductive RowsCourse (env : Environment) (statement : Node) : Course → Prop
  | scanStopped {stop : Stop} (offered : env.declines .tableScan = false)
      (stopped : scan env statement = .error stop) :
      RowsCourse env statement (.stopped [.offered .tableScan statement] stop)
  | scanned {p : Plan} (offered : env.declines .tableScan = false)
      (made : scan env statement = .ok (some p)) :
      RowsCourse env statement (.made (.offered .tableScan statement :: acceptance .tableScan) p)
  | constantsStopped {stop : Stop} (declined : Declined env .tableScan statement)
      (offered : env.declines .tablelessSelect = false) (stopped : constants env statement = .error stop) :
      RowsCourse env statement
        (.stopped [.offered .tableScan statement, .offered .tablelessSelect statement] stop)
  | constants {p : Plan} (declined : Declined env .tableScan statement)
      (offered : env.declines .tablelessSelect = false)
      (made : constants env statement = .ok (some p)) :
      RowsCourse env statement (.made (.offered .tableScan statement ::
        .offered .tablelessSelect statement :: acceptance .tablelessSelect) p)
  | unserved (declined : Declined env .tableScan statement)
      (declined' : Declined env .tablelessSelect statement) :
      RowsCourse env statement
        (.stopped [.offered .tableScan statement, .offered .tablelessSelect statement]
          (.failed (.defect (.noBuilder Kind.select.heading))))

theorem rows_course (env : Environment) (statement : Node) :
    ∃ c, RowsCourse env statement c ∧ ∀ below, rowsRun env below statement = c.run below := by
  obtain ⟨x, scan, first⟩ := @offer_cases env statement .tableScan _ fun _ => rfl
  obtain ⟨y, constants, second⟩ := @offer_cases env statement .tablelessSelect _ fun _ => rfl
  have shape : ∀ below, rowsRun env below statement = _ := fun below => by rw [rowsRun, first, second]
  cases scan with
  | stopped offered stopped => exact ⟨_, .scanStopped offered stopped, shape⟩
  | made offered made => exact ⟨_, .scanned offered made, shape⟩
  | declined here =>
    cases constants with
    | stopped offered stopped => exact ⟨_, .constantsStopped here offered stopped, shape⟩
    | made offered made => exact ⟨_, .constants here offered made, shape⟩
    | declined here' => exact ⟨_, .unserved here here', shape⟩

/-- Planning a SELECT of which no limit is taken off: grouping, then the row sources. -/
def unlimitedRun (env : Environment) (below : Node → Run Plan) (statement : Node) : Run Plan := do
  if ← Run.ofExcept (isGrouped env statement) then
    Run.note (.event .planningGrouped)
    group env below statement
  else rowsRun env below statement

/-- The SELECT has no limit, or the builder is told to decline it. -/
def PassesLimit (env : Environment) (statement : Node) : Prop :=
  env.declines .limit = true ∨ statement.findChild? .limit = none

theorem not_passesLimit : ¬PassesLimit env statement ↔
    env.declines .limit = false ∧ ∃ clause, statement.findChild? .limit = some clause := by
  rw [PassesLimit, not_or, Bool.not_eq_true, ← ne_eq, Option.ne_none_iff_exists']

/-- The first limit is taken off, unless the builder is told to decline. -/
theorem select_limited (kind : statement.kind = .select) (offered : env.declines .limit = false)
    {clause : Node} (found : statement.findChild? .limit = some clause) (below : Node → Run Plan) :
    select env below statement =
      Run.note (.offered .limit statement) >>= fun _ =>
        Run.ofExcept (countsOf clause) >>= fun counts =>
          below statement.withoutFirstLimit >>= fun input => do
            Run.note (.event (.accepted .limit))
            Run.note (.built (.leaf .limit))
            return .limit counts.1 counts.2 input := by
  simp only [select, offer, offered, build, limit, kind, found, if_true, Bool.false_eq_true,
    if_false, bind_assoc, pure_bind, Node.withoutFirstLimit]

/-- Otherwise the SELECT is passed on as it is. -/
theorem select_passed (kind : statement.kind = .select) (passed : PassesLimit env statement)
    (below : Node → Run Plan) :
    select env below statement =
      Run.note (.offered .limit statement) >>= fun _ => unlimitedRun env below statement := by
  have declined : offer env below .limit statement =
      Run.note (.offered .limit statement) >>= fun _ => pure none := by
    by_cases offered : env.declines .limit = true
    · simp only [offer, offered, if_true]
    · have none := passed.resolve_left offered
      simp only [offer, offered, build, limit, kind, none, if_true, Bool.false_eq_true, if_false,
        pure_bind]
  rw [select, declined, bind_assoc]
  simp only [pure_bind]
  rfl

/-- The courses of planning a SELECT. -/
inductive SelectCourse (env : Environment) (statement : Node) : Course → Prop
  | miscounted {clause : Node} {error : PlanError} (offered : env.declines .limit = false)
      (found : statement.findChild? .limit = some clause) (miscounted : countsOf clause = .error error) :
      SelectCourse env statement (.stopped [.offered .limit statement] (.failed error))
  | limited {clause : Node} {count offset : Nat} (offered : env.declines .limit = false)
      (found : statement.findChild? .limit = some clause) (counted : countsOf clause = .ok (count, offset)) :
      SelectCourse env statement (.asking [.offered .limit statement] statement.withoutFirstLimit
        fun input => ⟨acceptance .limit, .ok (.limit count offset input)⟩)
  | undecided {error : PlanError} (passed : PassesLimit env statement)
      (undecided : isGrouped env statement = .error error) :
      SelectCourse env statement (.stopped [.offered .limit statement] (.failed error))
  | grouped {c : Course} (passed : PassesLimit env statement) (grouped : isGrouped env statement = .ok true)
      (course : GroupCourse env statement c) :
      SelectCourse env statement (c.noted [.offered .limit statement, .event .planningGrouped])
  | direct {c : Course} (passed : PassesLimit env statement) (direct : isGrouped env statement = .ok false)
      (course : RowsCourse env statement c) :
      SelectCourse env statement (c.noted [.offered .limit statement])

theorem select_course (env : Environment) (kind : statement.kind = .select) :
    ∃ c, SelectCourse env statement c ∧ ∀ below, select env below statement = c.run below := by
  by_cases passed : PassesLimit env statement
  · have shape := select_passed kind passed
    cases decided : isGrouped env statement with
    | error error =>
      exact ⟨_, .undecided passed decided, fun below => by rw [shape, unlimitedRun, decided]; rfl⟩
    | ok answer =>
      cases answer with
      | true =>
        obtain ⟨c, course, same⟩ := group_course env statement
        refine ⟨_, .grouped passed decided course, fun below => ?_⟩
        rw [shape, unlimitedRun, decided, Course.noted_run, ← same]
        rfl
      | false =>
        obtain ⟨c, course, same⟩ := rows_course env statement
        refine ⟨_, .direct passed decided course, fun below => ?_⟩
        rw [shape, unlimitedRun, decided, Course.noted_run, ← same]
        rfl
  · obtain ⟨offered, clause, found⟩ := not_passesLimit.1 passed
    have shape := select_limited kind offered found
    cases counted : countsOf clause with
    | error error => exact ⟨_, .miscounted offered found counted, fun below => by rw [shape, counted]; rfl⟩
    | ok counts => exact ⟨_, .limited offered found counted, fun below => by rw [shape, counted]; rfl⟩

/-- The courses of planning a statement. -/
inductive StepCourse (env : Environment) (statement : Node) : Course → Prop
  | series {c : Course} (kind : statement.kind = .series) (course : SeriesCourse env statement c) :
      StepCourse env statement (c.noted [.event .planningSeries])
  | draw {c : Course} (kind : statement.kind = .draw) (course : DrawCourse c) :
      StepCourse env statement (c.noted [.event .planningDraw])
  | select {c : Course} (kind : statement.kind = .select) (course : SelectCourse env statement c) :
      StepCourse env statement c
  | unplanned (noSelect : statement.kind ≠ .select) :
      StepCourse env statement (.stopped [] (.failed (.defect (.noBuilder statement.kind.heading))))

theorem step_course (env : Environment) (statement : Node) :
    ∃ c, StepCourse env statement c ∧ ∀ below, step env below statement = c.run below := by
  unfold step
  split
  · rename_i kind
    obtain ⟨c, course, same⟩ := series_course env statement
    exact ⟨_, .series kind course, fun below => by rw [same, Course.noted_run]; rfl⟩
  · rename_i kind
    obtain ⟨c, course, same⟩ := draw_course statement
    exact ⟨_, .draw kind course, fun below => by rw [same below, Course.noted_run]; rfl⟩
  · rename_i kind
    obtain ⟨c, course, same⟩ := select_course env kind
    exact ⟨_, .select kind course, same⟩
  · rename_i noSelect
    exact ⟨_, .unplanned noSelect, fun below => rfl⟩

end Planning

end StatementPlan
