/-
Planning with the columns of groupings named, and with all of them unnamed.  Names are given when a
grouping is put around the plan below it.  From there they go up through limits into the columns of
a series, and nothing reads them on the way: no push-down, no binding, no check.  So the two runs do
the same things, with the same end but for names.

`namingOnly`, `naming_kept`: what goes together in the two runs.
`naming_changes_names`: planning a statement with names and without.
-/
import StatementPlan.Metrics
import StatementPlan.Proofs.Planning.Correspondence
import StatementPlan.Proofs.Planning.SeriesInput

namespace StatementPlan

/-- The surroundings with the columns of groupings named, or unnamed. -/
def Environment.naming (env : Environment) (resolved : Bool) : Environment :=
  { env with settings := { env.settings with resolvedNames := resolved } }

namespace Plan

/-- Names for as many columns as have names, none of which has one to borrow. -/
def unnamedAll (columns : List String) : List String := columns.map fun _ => unnamed

/-- Names after the first one taken away. -/
def unnamedAfterFirst (columns : List String) : List String := columns.take 1 ++ unnamedAll (columns.drop 1)

/-- The operator groups rows. -/
def isGroupBy : Plan → Bool
  | groupBy .. => true
  | _ => false

/-- The plan with the columns of its groupings unnamed, also those that a series shows after its
first. -/
def unnameGroups : Plan → Plan
  | limit count offset input => .limit count offset (unnameGroups input)
  | groupBy columns select keys scratchpad input =>
    .groupBy (unnamedAll columns) select keys scratchpad (unnameGroups input)
  | series columns name input =>
    .series (if input.core.isGroupBy then unnamedAfterFirst columns else columns) name (unnameGroups input)
  | tableScan table columns select predicate => .tableScan table columns select predicate
  | tablelessSelect columns select => .tablelessSelect columns select
  | draw chart => .draw chart

/-- The columns of a SELECT are unnamed if it is grouped. -/
theorem outputColumns_unnameGroups {p : Plan} (kind : p.core.statementKind = .select) :
    p.unnameGroups.outputColumns =
      if p.core.isGroupBy then unnamedAll p.outputColumns else p.outputColumns := by
  induction p with
  | limit _ _ _ ih => exact ih kind
  | series => cases kind
  | _ => rfl

end Plan

/-- The note without the columns of a series. -/
def Note.withoutColumns : Note → Note
  | event (.seriesBuilt axes _) => event (.seriesBuilt axes [])
  | note => note

theorem Metrics.record_withoutColumns (m : Metrics) (n : Note) :
    m.record n.withoutColumns = m.record n := by
  cases n with
  | event e => cases e <;> rfl
  | _ => rfl

namespace Planning

variable {env : Environment} {statement : Node}

theorem groupedNames_naming (items : List Node) : groupedNames (env.naming false).settings items =
    Plan.unnamedAll (groupedNames (env.naming true).settings items) := by
  simp only [groupedNames, Plan.unnamedAll, List.map_map]
  rfl

/-- What a SERIES shows of its input, named and unnamed. -/
theorem shown_naming {input : Plan} (kind : input.core.statementKind = .select) (axes : Nat) :
    "series" :: input.unnameGroups.outputColumns.take axes =
      if input.core.isGroupBy then Plan.unnamedAfterFirst ("series" :: input.outputColumns.take axes)
      else "series" :: input.outputColumns.take axes := by
  rw [Plan.outputColumns_unnameGroups kind]
  split
  · simp [Plan.unnamedAfterFirst, Plan.unnamedAll, List.map_take]
  · rfl

/-- A run with names and one without: they plan the same statements, and stop for the same reasons.
What is planned for a SELECT has rows or groups below its limits. -/
def namingOnly : Correspondence where
  notes note note' := note'.withoutColumns = note.withoutColumns
  stops := Eq
  statements n n' := n' = n ∧ n.SeriesOfSelect
  plans n p q := q = p.unnameGroups ∧ (n.kind = .select → p.core.statementKind = .select)
  note_self _ := rfl
  stop_self := Eq.refl
  offered _ h := by rw [h.1]
  kind h := congrArg Node.kind h.1
  depth h := congrArg nestingBound h.1
  defect h := ⟨_, h.symm, rfl, rfl, rfl⟩
  defect' := @Correspondence.defect_of_same

theorem seriesOfSelect_of_select {n : Node} (kind : n.kind = .select) : n.SeriesOfSelect := by
  intro _ _ series
  cases kind.symm.trans series

/-- A SELECT that makes rows names nothing. -/
theorem rowsOf_naming {list : Node} {p : Plan} (rows : RowsOf env statement list p) :
    namingOnly.plans statement p p := by
  cases rows <;> exact ⟨rfl, fun _ => rfl⟩

theorem groups_naming (kind : statement.kind = .select) (source : Node) :
    namingOnly.Groups (env.naming true) (env.naming false) statement statement source source where
  wildcard := rfl
  notes := rfl
  items := namingOnly.same _
  keys := namingOnly.same _
  rest := ⟨rfl, seriesOfSelect_of_select (by exact kind)⟩
  plans h select keys bytes := ⟨by rw [groupedNames_naming, h.1]; rfl, fun _ => rfl⟩

theorem selects_naming (kind : statement.kind = .select) :
    namingOnly.Selects (env.naming true) (env.naming false) statement statement where
  limit := optionRel_self fun _ _ => rfl
  rest _ := ⟨rfl, seriesOfSelect_of_select (by exact kind)⟩
  limited h count offset := ⟨by rw [h.1]; rfl, fun _ => h.2 kind⟩
  decided := namingOnly.same_error (isGrouped env statement)
  grouped _ := optionRel_self fun source _ => groups_naming kind source
  scanned := .self (fun _ => rfl) fun answer made => optionRel_self fun p here => by
    obtain ⟨_, _, rows⟩ := scan_eq_some (here ▸ made)
    exact rowsOf_naming rows
  constants := .self (fun _ => rfl) fun answer made => optionRel_self fun p here => by
    obtain ⟨_, _, rows⟩ := constants_eq_some (here ▸ made)
    exact rowsOf_naming rows

theorem series_naming {name select list : Node} (series : statement.kind = .series)
    (kind : select.kind = .select) (found : select.selectList? = some list) :
    namingOnly.Series (env.naming true) (env.naming false) statement name name select select list list where
  axes := rfl
  named := by
    refine .self fun named made => ?_
    obtain ⟨rs, _, below, _⟩ := seriesName_eq_ok found made
    have kind' : named.2.kind = .select := by rw [below]; exact kind
    refine ⟨namingOnly.same _, ⟨rfl, seriesOfSelect_of_select kind'⟩, fun _ => rfl, ?_⟩
    rintro p _ ⟨rfl, core⟩ name'
    rw [shown_naming (core kind')]
    exact ⟨rfl, fun select => nomatch series.symm.trans select⟩

theorem naming_kept (env : Environment) : namingOnly.Kept (env.naming true) (env.naming false) where
  declines := rfl
  onDefect := rfl
  select := by
    rintro n n' ⟨rfl, _⟩ kind
    exact selects_naming kind
  series := by
    rintro n n' ⟨rfl, overSelect⟩ kind
    rcases children : n'.children with _ | ⟨name, _ | ⟨select, _ | ⟨more, rest⟩⟩⟩
    · exact .others rfl (by simp)
    · exact .others rfl (by simp)
    · refine .named (optionRel_self fun list found => ?_)
      exact series_naming kind (overSelect name select kind children) found
    · exact .others rfl (by simp)
  chart h _ := congrArg Node.token h.1
  drawn _ kind chart := ⟨rfl, fun select => nomatch kind.symm.trans select⟩

/-- Planning with the columns of groupings named, and unnamed. -/
structure NamesOnly (named unnamed : Run Plan) : Prop where
  /-- Both end with the same error, or with plans that are the same but for these names. -/
  result : unnamed.result = Plan.unnameGroups <$> named.result
  counters : ∀ m : Metrics, m.recordRun unnamed = m.recordRun named

theorem namesOnly_of_runs {x y : Run Plan} (runs : namingOnly.Runs (namingOnly.plans statement) x y) :
    NamesOnly x y := by
  obtain ⟨notes, result⟩ := runs
  refine ⟨?_, fun m => ?_⟩
  · generalize x.result = named at result ⊢
    generalize y.result = unnamed at result ⊢
    cases result with
    | ok plans => rw [plans.1, map_ok]
    | error same => rw [← same, map_error]
  · rw [Metrics.recordRun, Metrics.recordRun]
    generalize x.notes = named at notes ⊢
    generalize y.notes = unnamed at notes ⊢
    induction notes generalizing m with
    | nil => rfl
    | @cons note note' _ _ same _ ih =>
      rw [List.foldl_cons, List.foldl_cons, ← m.record_withoutColumns note', same, m.record_withoutColumns]
      exact ih _

/-- Whether the columns of groupings are named changes names only: those of groupings, and what a
series over one shows of them. -/
theorem naming_changes_names (env : Environment) (overSelect : statement.SeriesOfSelect) :
    NamesOnly (plan (env.naming true) statement) (plan (env.naming false) statement) ∧
      NamesOnly (buildPlan (env.naming true) statement) (buildPlan (env.naming false) statement) := by
  have same : namingOnly.statements statement statement := ⟨rfl, overSelect⟩
  exact ⟨namesOnly_of_runs (plan_corresponds (naming_kept env) same),
    namesOnly_of_runs (buildPlan_corresponds (naming_kept env) same)⟩

/-- Without names the sales by net have the same plan. -/
theorem naming_changes_names_sales : (plan (salesEnvironment.naming false) salesByNet).result =
    .ok (.series ["series", "unnamed", "unnamed"] (.call "sub" false [.column 2, .column 3])
      (.limit 3 0 (.groupBy ["unnamed", "unnamed", "unnamed", "unnamed"]
        (.list [.call "sum" true [.call "add" false [.column 0, .column 1]], .column 2, .column 0, .column 1])
        (.list [.column 2]) 8
        (.tableScan "sales" ["total", "tax", "city"] ⟨.list [.column 1, .column 2, .column 0], 0⟩ none)))) := by
  have overSelect : salesByNet.SeriesOfSelect := by
    rintro name select - ⟨⟩
    rfl
  have named : (plan (salesEnvironment.naming true) salesByNet).result = .ok salesByNetPlan := by
    decide +kernel
  rw [(naming_changes_names salesEnvironment overSelect).1.result, named]
  rfl

end Planning

end StatementPlan
