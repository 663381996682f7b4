/-
The notes of a run that ends in a plan, one by one.  They are those of the statements that it is
planned through, in between what each of them adds by itself, so that the plan tells nearly all of
them.

`step_recorded`, `planWithin_recorded`: the notes of a step, given those of the statements below,
and of a run.
`Recorded.width`, `Recorded.groupedWidth`: the plan of a SELECT has a column for each item.
-/
import StatementPlan.Proofs.Planning.Nesting

namespace StatementPlan.Planning

/-- The notes of planning a statement that has a plan, with no builder declining. -/
inductive Recorded (env : Environment) : Node → List Note → Plan → Prop
  | limit {statement clause : Node} {notes : List Note} {input : Plan} (count offset : Nat)
      (kind : statement.kind = .select) (found : statement.findChild? .limit = some clause)
      (below : Recorded env statement.withoutFirstLimit notes input) :
      Recorded env statement (.offered .limit statement :: notes ++ acceptance .limit)
        (.limit count offset input)
  | scan {statement list : Node} {table : String} {columns : List String} {select : Compiled}
      {predicate : Option Compiled} (kind : statement.kind = .select)
      (found : statement.selectList? = some list)
      (rows : RowsOf env statement list (.tableScan table columns select predicate)) :
      Recorded env statement
        (.offered .limit statement :: .offered .tableScan statement :: acceptance .tableScan)
        (.tableScan table columns select predicate)
  | constants {statement list : Node} {columns : List String} {select : Compiled}
      (kind : statement.kind = .select) (found : statement.selectList? = some list)
      (rows : RowsOf env statement list (.tablelessSelect columns select)) :
      Recorded env statement (.offered .limit statement :: .offered .tableScan statement ::
        .offered .tablelessSelect statement :: acceptance .tablelessSelect) (.tablelessSelect columns select)
  | group {statement source : Node} {notes : List Note} {select group : Expr} {bytes : Nat} {input : Plan}
      (kind : statement.kind = .select) (free : statement.hasChild .limit = false)
      (grouped : isGrouped env statement = .ok true) (found : statement.selectList? = some source)
      (around : Over env statement input .group
        (.groupBy (groupedNames env.settings source.children) select group bytes input))
      (below : Recorded env
        (ungrouped statement (columnList (neededColumns env statement source))) notes input) :
      Recorded env statement
        (.offered .limit statement :: .event .planningGrouped :: groupNotes env statement source ++ notes)
        (.groupBy (groupedNames env.settings source.children) select group bytes input)
  | series {statement name select list name' rest : Node} {named notes : List Note} {e : Expr} {input : Plan}
      (kind : statement.kind = .series) (children : statement.children = [name, select])
      (found : select.selectList? = some list) (pushed : Named env name select list named name' rest)
      (below : Recorded env rest notes input) :
      Recorded env statement
        ([.event .planningSeries, .built .series] ++ named ++ notes ++
          [.event (.seriesBuilt list.children.length
            ("series" :: input.outputColumns.take list.children.length))])
        (.series ("series" :: input.outputColumns.take list.children.length) e input)
  | draw {statement : Node} (chart : Chart) (kind : statement.kind = .draw) :
      Recorded env statement [.event .planningDraw, .built .draw] (.draw chart)

variable {env : Environment} {below : Node → Run Plan} {statement name list : Node}
  {notes : List Note} {p : Plan}

/-- A SELECT with a FROM clause is scanned, one without is not. -/
theorem RowsCourse.recorded {c : Course} (kind : statement.kind = .select)
    (h : RowsCourse env statement c) (made : c.run below = ⟨notes, .ok p⟩) :
    Recorded env statement (.offered .limit statement :: notes) p := by
  cases h with
  | scanStopped | constantsStopped | unserved => cases congrArg Run.result made
  | scanned _ scanned =>
    obtain ⟨rfl, same⟩ := Run.mk.inj made
    obtain rfl := Except.ok.inj same
    obtain ⟨list, found, rows⟩ := scan_eq_some scanned
    cases rows with
    | scan known bound compiled stateless filtered plain sourced named =>
      exact .scan kind found (.scan known bound compiled stateless filtered plain sourced named)
    | constants items compiled stateless plain unsourced =>
      rw [RowSource.scan_declines env unsourced] at scanned
      cases scanned
  | constants _ _ constant =>
    obtain ⟨rfl, same⟩ := Run.mk.inj made
    obtain rfl := Except.ok.inj same
    obtain ⟨list, found, rows⟩ := constants_eq_some constant
    cases rows with
    | scan _ _ _ _ _ _ sourced =>
      have present : statement.hasChild .from = true := by
        rw [← Bool.not_eq_false, ← RowSource.findChild?_eq_none_iff, sourced]
        exact Option.some_ne_none _
      rw [RowSource.constants_declines env present] at constant
      cases constant
    | constants items compiled stateless plain unsourced unfiltered =>
      exact .constants kind found (.constants items compiled stateless plain unsourced unfiltered)

section

variable (each : ∀ {n notes q}, below n = ⟨notes, .ok q⟩ → Recorded env n notes q)

include each

theorem SeriesCourse.recorded {c : Course} (kind : statement.kind = .series)
    (h : SeriesCourse env statement c) (made : c.run below = ⟨notes, .ok p⟩) :
    Recorded env statement (.event .planningSeries :: notes) p := by
  cases h with
  | refused => cases congrArg Run.result made
  | @asking _ _ list name' _ _ children found pushed =>
    obtain ⟨inner, input, last, planned, ended, rfl⟩ := Course.asking_eq_ok.1 made
    rcases seriesEnd_cases env list.children.length name' input with ⟨_, _, same⟩ | ⟨c, _, _, same⟩
    · cases congrArg Run.result (same.symm.trans ended)
    · obtain ⟨rfl, rest⟩ := Run.mk.inj (same.symm.trans ended)
      obtain rfl := Except.ok.inj rest
      have record := Recorded.series (e := c.expr) kind children found (seriesName_named found pushed)
        (each planned)
      simpa using record

theorem GroupCourse.recorded {c : Course} (kind : statement.kind = .select)
    (free : statement.hasChild .limit = false) (decided : isGrouped env statement = .ok true)
    (h : GroupCourse env statement c) (made : c.run below = ⟨notes, .ok p⟩) :
    Recorded env statement ([.offered .limit statement, .event .planningGrouped] ++ notes) p := by
  cases h with
  | refused | uncompiled => cases congrArg Run.result made
  | asking found plain selected grouped stateless =>
    obtain ⟨inner, input, last, planned, ended, rfl⟩ := Course.asking_eq_ok.1 made
    have course := GroupCourse.asking found plain selected grouped stateless
    have around := course.around (congrArg Run.result ended)
    obtain ⟨rfl, same⟩ := Run.mk.inj ended
    obtain rfl := Except.ok.inj same
    rw [List.append_nil]
    exact .group kind free decided found around (each planned)

theorem SelectCourse.recorded {c : Course} (complete : env.Complete) (kind : statement.kind = .select)
    (h : SelectCourse env statement c) (made : c.run below = ⟨notes, .ok p⟩) :
    Recorded env statement notes p := by
  cases h with
  | miscounted | undecided => cases congrArg Run.result made
  | direct _ _ course =>
    obtain ⟨own, here, rfl⟩ := Course.noted_eq_ok.1 made
    exact course.recorded kind here
  | limited _ found =>
    obtain ⟨inner, input, last, planned, ended, rfl⟩ := Course.asking_eq_ok.1 made
    obtain ⟨rfl, same⟩ := Run.mk.inj ended
    obtain rfl := Except.ok.inj same
    exact .limit _ _ kind found (each planned)
  | grouped passed decided course =>
    obtain ⟨own, here, rfl⟩ := Course.noted_eq_ok.1 made
    have none := passed.resolve_left (by rw [complete]; exact Bool.false_ne_true)
    exact course.recorded each kind ((RowSource.findChild?_eq_none_iff ..).1 none) decided here

/-- The notes of a step that makes a plan, given those of the statements below. -/
theorem step_recorded (complete : env.Complete) (h : step env below statement = ⟨notes, .ok p⟩) :
    Recorded env statement notes p := by
  obtain ⟨c, course, same⟩ := step_course env statement
  rw [same] at h
  cases course with
  | unplanned => cases congrArg Run.result h
  | select kind course => exact course.recorded each complete kind h
  | series kind course =>
    obtain ⟨own, here, rfl⟩ := Course.noted_eq_ok.1 h
    exact course.recorded each kind here
  | draw kind course =>
    obtain ⟨own, here, rfl⟩ := Course.noted_eq_ok.1 h
    cases course with
    | refused => cases congrArg Run.result here
    | made chart =>
      obtain ⟨rfl, same⟩ := Run.mk.inj here
      obtain rfl := Except.ok.inj same
      exact .draw chart kind

end

theorem planWithin_recorded (complete : env.Complete) {depth : Nat}
    (h : planWithin env depth statement = ⟨notes, .ok p⟩) : Recorded env statement notes p := by
  induction depth generalizing statement notes p with
  | zero => cases h
  | succ depth ih => exact step_recorded ih complete h

theorem plan_recorded (complete : env.Complete) (h : (plan env statement).result = .ok p) :
    Recorded env statement (plan env statement).notes p :=
  planWithin_recorded complete (Run.ext rfl h)

/-- The plan of a SELECT without a wildcard has a column for each item. -/
theorem Recorded.width (h : Recorded env statement notes p) (kind : statement.kind = .select)
    (found : statement.selectList? = some list) (plain : list.hasChild .all = false) :
    p.outputColumns.length = list.children.length := by
  induction h with
  | limit _ _ _ _ _ ih => exact ih kind (Node.selectList?_withoutFirstLimit found)
  | scan _ listed rows | constants _ listed rows =>
    obtain rfl := Option.some.inj (listed.symm.trans found)
    obtain ⟨_, _, _, width⟩ := rows.entries (Node.selectList?_kind found) plain
    exact width
  | group _ _ _ listed =>
    obtain rfl := Option.some.inj (listed.symm.trans found)
    exact List.length_map ..
  | series series => cases kind.symm.trans series
  | draw _ draw => cases kind.symm.trans draw

/-- The SELECT below a grouping has the columns that the grouping needs. -/
theorem Recorded.groupedWidth {rs : List Node}
    (h : Recorded env (ungrouped statement (columnList rs)) notes p)
    (kind : statement.kind = .select) : p.outputColumns.length = rs.length := by
  have width := h.width kind (ungrouped_shape statement (by rfl)).1 (Node.hasChild_extend ..)
  simpa [columnList, Node.extend] using width

end Planning

end StatementPlan
