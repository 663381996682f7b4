/-
The trace of a run that ends in a plan.  A leaf shows that it was accepted, and so does a limit,
after what is below it; a grouping shows what it was split into before the SELECT below is planned,
a SERIES its columns after that.  So the plan tells the trace: its lines, their order, and what they
show but two counts, of the columns that share a slot and of the items that a SERIES is given.

`Recorded.traced`: the lines of recorded notes.
`trace_mirrors_plan`: the trace of planning a statement that has a plan.
-/
import StatementPlan.Proofs.Planning.Record

namespace StatementPlan

/-- A line of a trace, with the values shown by name. -/
structure TraceLine where
  level : String
  message : String
  shows : List (String × String)
  deriving DecidableEq

namespace TraceLine

/-- A line for those who follow planning. -/
def debug (message : String) (shows : List (String × String) := []) : TraceLine := ⟨"DEBUG", message, shows⟩

/-- A leaf builder made a plan. -/
def accepted (builder : String) : TraceLine := debug "leaf builder accepted statement" [("builder", builder)]

end TraceLine

/-- The values that no plan tells. -/
def Event.untold : List String := ["reused", "axes"]

/-- The line of an event, as far as plans tell it. -/
def Event.line (e : Event) : TraceLine :=
  ⟨e.level, e.message, e.fields.filter fun shown => !untold.contains shown.1⟩

/-- The line of a note, if it is an event. -/
def Note.line? : Note → Option TraceLine
  | event e => some e.line
  | _ => none

theorem Run.lines_eq (x : Run α) : x.events.map Event.line = x.notes.filterMap Note.line? := by
  rw [events, List.map_filterMap]
  exact List.filterMap_congr fun n _ => by cases n <;> rfl

/-- The trace that a plan leaves. -/
def Plan.trace : Plan → List TraceLine
  | tableScan .. => [.accepted "table_scan"]
  | tablelessSelect .. => [.accepted "tableless_select"]
  | limit _ _ input => trace input ++ [.accepted "limit"]
  | groupBy _ _ keys _ input =>
    .debug "planning grouped SELECT" ::
      .debug "rewrote grouped select"
        [("internal_columns", Numeral.writeNat input.outputColumns.length),
          ("group_exprs", Numeral.writeNat (keys.items?.getD []).length)] ::
      trace input
  | series columns _ input =>
    .debug "planning SERIES statement" ::
      trace input ++ [.debug "built series statement" [("columns", Quoted.quoteList columns)]]
  | draw _ => [.debug "planning DRAW statement"]

namespace Planning

variable {env : Environment} {statement name list : Node} {notes : List Note} {p : Plan}

/-- The keys of a grouping, one for each expression of its clauses. -/
theorem Over.keys {columns : List String} {select keys : Expr} {bytes : Nat} {input : Plan}
    (h : Over env statement input .group (.groupBy columns select keys bytes input)) :
    ∃ es, keys = .list es ∧ es.length = (groupKeys statement).length := by
  cases h with
  | group _ grouped _ _ _ keysPlaced =>
    cases keysPlaced with
    | column kind => cases kind
    | inner _ below =>
      obtain ⟨es, items, whole⟩ := (compile_parts_eq_ok (.inr rfl)).1 grouped
      exact ⟨es, whole, (below.length_eq.trans (compileAll_items items).length_eq).symm⟩

/-- Naming a series leaves no trace. -/
theorem Named.untraced {select name' rest : Node} {named : List Note}
    (h : Named env name select list named name' rest) : named.filterMap Note.line? = [] := by
  cases h <;> rfl

/-- The lines of recorded notes. -/
theorem Recorded.traced (h : Recorded env statement notes p) :
    notes.filterMap Note.line? = p.trace := by
  induction h with
  | limit _ _ _ _ _ ih =>
    simp only [List.filterMap_cons, List.filterMap_append, Note.line?, acceptance, ih, Plan.trace]
    rfl
  | scan | constants | draw => rfl
  | group kind _ _ _ around below ih =>
    obtain ⟨es, rfl, width⟩ := around.keys
    simp only [groupNotes, List.filterMap_cons, List.filterMap_append, Note.line?, ih, Plan.trace,
      below.groupedWidth kind, Expr.items?, Option.getD_some, width]
    rfl
  | series _ _ _ named _ ih =>
    simp only [List.filterMap_cons, List.filterMap_append, Note.line?, named.untraced, ih, Plan.trace]
    rfl

/-- The trace of planning a statement that has a plan is the one that the plan leaves. -/
theorem trace_mirrors_plan (complete : env.Complete) (planned : (plan env statement).result = .ok p) :
    (plan env statement).events.map Event.line = p.trace :=
  (Run.lines_eq _).trans (plan_recorded complete planned).traced

theorem trace_mirrors_plan_sales : (plan salesEnvironment salesByNet).events.map Event.line =
    [⟨"DEBUG", "planning SERIES statement", []⟩,
      ⟨"DEBUG", "planning grouped SELECT", []⟩,
      ⟨"DEBUG", "rewrote grouped select", [("internal_columns", "3"), ("group_exprs", "1")]⟩,
      ⟨"DEBUG", "leaf builder accepted statement", [("builder", "table_scan")]⟩,
      ⟨"DEBUG", "leaf builder accepted statement", [("builder", "limit")]⟩,
      ⟨"DEBUG", "built series statement", [("columns", "[\"series\", \"gross\", \"city\"]")]⟩] := by
  have planned : (plan salesEnvironment salesByNet).result = .ok salesByNetPlan := by decide +kernel
  refine (trace_mirrors_plan (fun _ => rfl) planned).trans ?_
  decide +kernel

end Planning

end StatementPlan
