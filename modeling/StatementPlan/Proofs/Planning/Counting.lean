/-
What the counters tell of a plan: a builder is counted once for each operator that it made, and so
are the columns pushed down, those with an item of their own being the columns of the input of a
grouping and those that only a computed name needs.

`Recorded.builds`: the builders.
`Recorded.inserted`, `Recorded.rewrites`, `Recorded.unshared`: the columns pushed down.
`counters_tell_plan`: the counters after a run that ends in a plan.
-/
import StatementPlan.Proofs.Columns.Counts
import StatementPlan.Proofs.Planning.Policy
import StatementPlan.Proofs.Planning.Record

namespace StatementPlan

/-- The builder that made the operator. -/
def Stage.builder : Stage → Builder
  | tableScan .. => .leaf .tableScan
  | tablelessSelect _ => .leaf .tablelessSelect
  | limit .. => .leaf .limit
  | groupBy _ => .groupBy
  | series => .series
  | draw _ => .draw

namespace Builder

/-- All of them. -/
def all : List Builder := [.leaf .limit, .leaf .tableScan, .leaf .tablelessSelect, .groupBy, .series, .draw]

theorem mem_all (b : Builder) : b ∈ all := by
  cases b with
  | leaf l => cases l <;> decide
  | _ => decide

theorem digest_names : ∀ a ∈ all, ∀ b ∈ all, digest a.name = digest b.name → a = b := by decide +kernel

theorem digest_name_inj {a b : Builder} : digest a.name = digest b.name ↔ a = b :=
  ⟨digest_names a a.mem_all b b.mem_all, fun same => same ▸ rfl⟩

end Builder

namespace Note

/-- The note counts the builder. -/
def builds (b : Builder) : Note → Bool
  | built b' => b' == b
  | _ => false

/-- The columns that the note counts as inserted. -/
def inserted : Note → Nat
  | pushedDown inserted _ => inserted
  | _ => 0

/-- The columns that the note counts as reused. -/
def reused : Note → Nat
  | pushedDown _ reused => reused
  | _ => 0

theorem totalFor_built (b : Builder) (notes : List Note) :
    Samples.totalFor b.name (notes.flatMap builderAmounts) = notes.countP (builds b) := by
  induction notes with
  | nil => rfl
  | cons n rest ih =>
    rw [List.flatMap_cons, Samples.totalFor_append, ih, List.countP_cons, Nat.add_comm]
    cases n with
    | built b' => simp [builderAmounts, Samples.totalFor, builds, Builder.digest_name_inj]
    | _ => rfl

theorem totalFor_inserted (notes : List Note) :
    Samples.totalFor "inserted" (notes.flatMap pushDownAmounts) = (notes.map inserted).sum := by
  have apart : digest "reused" ≠ digest "inserted" := by decide +kernel
  refine Samples.totalFor_flatMap (fun n => ?_) notes
  cases n <;> simp [pushDownAmounts, Samples.totalFor, inserted, apart]

theorem totalFor_reused (notes : List Note) :
    Samples.totalFor "reused" (notes.flatMap pushDownAmounts) = (notes.map reused).sum := by
  have apart : digest "inserted" ≠ digest "reused" := by decide +kernel
  refine Samples.totalFor_flatMap (fun n => ?_) notes
  cases n <;> simp [pushDownAmounts, Samples.totalFor, reused, apart]

theorem mem_builderAmounts {notes : List Note} {amount : String × Nat}
    (mem : amount ∈ notes.flatMap builderAmounts) : ∃ b : Builder, amount.1 = b.name := by
  obtain ⟨n, _, mem⟩ := List.mem_flatMap.1 mem
  cases n with
  | built b => exact ⟨b, congrArg Prod.fst (List.mem_singleton.1 mem)⟩
  | _ => cases mem

theorem mem_pushDownAmounts {notes : List Note} {amount : String × Nat}
    (mem : amount ∈ notes.flatMap pushDownAmounts) : amount.1 = "inserted" ∨ amount.1 = "reused" := by
  obtain ⟨n, _, mem⟩ := List.mem_flatMap.1 mem
  cases n with
  | pushedDown =>
    rcases List.mem_pair.1 mem with rfl | rfl
    · exact .inl rfl
    · exact .inr rfl
  | _ => cases mem

end Note

/-- The columns of the inputs of groupings. -/
def Plan.groupedWidth : Plan → Nat
  | groupBy _ _ _ _ input => input.outputColumns.length + groupedWidth input
  | limit _ _ input | series _ _ input => groupedWidth input
  | tableScan .. | tablelessSelect .. | draw _ => 0

namespace Planning

variable {env : Environment} {statement source name list : Node} {notes : List Note} {p : Plan}

/-- The references of a SELECT that a grouping pushes down: those of its list, then those of its
keys. -/
def groupReferences (select : Node) : List Node :=
  select.withoutLimits.selectList?.toList.flatMap Node.references ++
    Node.referencesAll (groupKeys select.withoutLimits)

/-- What a grouping counts: a column of the SELECT below as inserted, and each reference once. -/
theorem pushedKeys_counted (env : Environment) (statement source : Node) :
    PushDown.Counted { shared := env.settings.sharedSlots }
      (source.references ++ Node.referencesAll (groupKeys statement)) { kind := .selectList }
      (pushedKeys env statement source).counts := by
  have empty : ({ kind := .selectList } : Node).kind = .selectList := rfl
  have headed := pushedItems_headed env source
  have items := PushDown.apply_counted { shared := env.settings.sharedSlots } source empty
  have pushes := (pushedItems_pushes env source).1
  refine items.append pushes (fun r mem => (Node.mem_references r mem).1) ?_
  exact PushDown.applyAll_counted (fun n _ p _ => PushDown.apply_counted p n) _ headed

theorem pushedKeys_inserted (env : Environment) (statement source : Node) :
    (pushedKeys env statement source).counts.inserted = (neededColumns env statement source).length :=
  (pushedKeys_counted env statement source).inserted.trans (Nat.zero_add _)

theorem pushedKeys_total (env : Environment) (statement source : Node) :
    (pushedKeys env statement source).counts.inserted + (pushedKeys env statement source).counts.reused =
      (source.references ++ Node.referencesAll (groupKeys statement)).length :=
  (pushedKeys_counted env statement source).total.trans (Nat.zero_add _)

theorem pushedName_counted (env : Environment) (name : Node) (kind : list.kind = .selectList) :
    PushDown.Counted { shared := env.settings.sharedSlots } name.references list
      (pushedName env name list).counts :=
  PushDown.apply_counted _ name kind

namespace Named

variable {named : List Note} {select name' rest : Node}

theorem builds (h : Named env name select list named name' rest) (b : Builder) :
    named.countP (Note.builds b) = 0 := by
  cases h <;> rfl

theorem unshared (h : Named env name select list named name' rest) (kind : list.kind = .selectList)
    (own : env.settings.sharedSlots = false) : (named.map Note.reused).sum = 0 := by
  cases h with
  | fixed => rfl
  | computed => simpa [Note.reused] using (pushedName_counted env name kind).reused_of_unshared own

end Named

namespace Recorded

/-- A builder is counted once for each operator that it made. -/
theorem builds (h : Recorded env statement notes p) (b : Builder) :
    notes.countP (Note.builds b) = p.stages.countP (·.builder == b) := by
  induction h with
  | limit _ _ _ _ _ ih => simp [acceptance, Plan.stages, List.countP_cons, Note.builds, Stage.builder, ih]
  | scan | constants | draw => simp [acceptance, Plan.stages, List.countP_cons, Note.builds, Stage.builder]
  | group _ _ _ _ _ _ ih =>
    simp [groupNotes, Plan.stages, List.countP_cons, Note.builds, Stage.builder, ih, Nat.add_comm]
  | series _ _ _ named _ ih =>
    simp [Plan.stages, List.countP_cons, Note.builds, Stage.builder, named.builds, ih, Nat.add_comm]

/-- Without shared slots nothing is counted as reused. -/
theorem unshared (h : Recorded env statement notes p) (own : env.settings.sharedSlots = false) :
    (notes.map Note.reused).sum = 0 := by
  induction h with
  | limit _ _ _ _ _ ih => simp [acceptance, Note.reused, ih]
  | scan | constants | draw => rfl
  | @group statement source _ _ _ _ _ _ _ _ _ _ _ ih =>
    have none : (pushedKeys env statement source).counts.reused = 0 :=
      (pushedKeys_counted env statement source).reused_of_unshared own
    simp [groupNotes, Note.reused, none, ih]
  | series _ _ found named _ ih => simp [Note.reused, named.unshared (Node.selectList?_kind found) own, ih]

/-- Planning a SELECT inserts the columns of the inputs of its groupings. -/
theorem inserted (h : Recorded env statement notes p) (kind : statement.kind = .select) :
    (notes.map Note.inserted).sum = p.groupedWidth := by
  induction h with
  | limit _ _ _ _ _ ih => simp [acceptance, Note.inserted, Plan.groupedWidth, ih kind]
  | scan | constants | draw => rfl
  | group _ _ _ _ _ below ih =>
    simp [groupNotes, Note.inserted, Plan.groupedWidth, pushedKeys_inserted, below.groupedWidth kind, ih kind]
  | series series => cases kind.symm.trans series

/-- A SELECT that is not to be grouped pushes nothing down. -/
theorem unpushed (h : Recorded env statement notes p) (kind : statement.kind = .select)
    (final : Ungrouped env statement) : (notes.map Note.inserted).sum + (notes.map Note.reused).sum = 0 := by
  induction h with
  | limit _ _ _ _ _ ih => simpa [acceptance, Note.inserted, Note.reused] using ih kind final.withoutFirstLimit
  | scan | constants | draw => rfl
  | group _ _ grouped => exact absurd grouped final.not_grouped
  | series series => cases kind.symm.trans series

/-- Planning a SELECT counts each reference that a grouping of it pushes down. -/
theorem rewrites (h : Recorded env statement notes p) (kind : statement.kind = .select)
    (plain : statement.PlainNames env.routing) :
    (notes.map Note.inserted).sum + (notes.map Note.reused).sum =
      (if p.stages.any Stage.groups then groupReferences statement else []).length := by
  induction h with
  | limit _ _ _ found _ ih =>
    have same : ∀ n : Node, groupReferences n.withoutFirstLimit = groupReferences n := fun n => by
      rw [groupReferences, Node.withoutLimits_withoutFirstLimit, groupReferences]
    have below := ih kind ((Below.limit kind found).plain plain (by simp [Node.withoutFirstLimit, kind]))
    simpa [acceptance, Note.inserted, Note.reused, Plan.stages, Stage.groups, same] using below
  | scan | constants | draw => rfl
  | @group statement source _ _ _ _ _ _ free _ found _ below ih =>
    have none := below.unpushed kind (ungrouped_final plain found)
    have all := pushedKeys_total env statement source
    rw [if_pos (by simp [Plan.stages, Stage.groups]), groupReferences, Node.withoutLimits_self free, found]
    simp only [List.map_append, List.sum_append, Option.toList_some, List.flatMap_singleton, ← all]
    simp [groupNotes, Note.inserted, Note.reused] at none ⊢
    omega
  | series series => cases kind.symm.trans series

end Recorded

/-- The SELECT of a statement, below a SERIES with the columns of a computed name at the end of its
list. -/
def selectBelow (env : Environment) (statement : Node) : Node :=
  match statement.kind, statement.children with
  | .series, [name, select] =>
    match select.selectList? with
    | some list =>
      if name.kind = .seriesName then select else select.withList (list.extend (nameColumns env name list))
    | none => select
  | _, _ => statement

/-- The references of a computed name. -/
def nameReferences (statement : Node) : List Node :=
  match statement.kind, statement.children with
  | .series, [name, _] => if name.kind = .seriesName then [] else name.references
  | _, _ => []

/-- The references that planning rewrites to positions: those of a computed name, then those of a
grouping. -/
def rewrittenReferences (env : Environment) (statement : Node) (p : Plan) : List Node :=
  nameReferences statement ++
    if p.stages.any Stage.groups then groupReferences (selectBelow env statement) else []

/-- How many columns the input of a series under a computed name has besides the items of its
SELECT. -/
def hiddenWidth (statement : Node) (p : Plan) : Nat :=
  match statement.kind, statement.children, p with
  | .series, [name, select], .series _ _ input =>
    if name.kind = .seriesName then 0
    else input.outputColumns.length - (select.selectList?.toList.flatMap Node.children).length
  | _, _, _ => 0

/-- The columns that get an item of their own: those of the input of a grouping, and the hidden
ones. -/
def insertedColumns (statement : Node) (p : Plan) : Nat := p.groupedWidth + hiddenWidth statement p

/-- Under a computed name the plan below has a column for each item, and for each column that was
added. -/
theorem Named.width {named : List Note} {select name' rest : Node} {input : Plan}
    (h : Named env name select list named name' rest) (kind : select.kind = .select)
    (found : select.selectList? = some list) (below : Recorded env rest notes input)
    (computed : name.kind ≠ .seriesName) :
    input.outputColumns.length = list.children.length + (nameColumns env name list).length := by
  cases h with
  | fixed fixed => exact absurd fixed computed
  | computed _ plain =>
    have headed := Node.extend_headed (Node.selectList?_kind found) (nameColumns env name list)
    have width := below.width kind (Node.selectList?_withList headed) ((Node.hasChild_extend ..).trans plain)
    simpa [Node.extend] using width

/-- The columns that a name pushes down. -/
theorem Named.pushDowns {named : List Note} {select name' rest : Node} (columns : List String)
    (e : Expr) {input : Plan} (h : Named env name select list named name' rest)
    (kind : statement.kind = .series)
    (children : statement.children = [name, select]) (found : select.selectList? = some list)
    (width : name.kind ≠ .seriesName →
      input.outputColumns.length = list.children.length + (nameColumns env name list).length) :
    selectBelow env statement = rest ∧
      (named.map Note.inserted).sum = hiddenWidth statement (.series columns e input) ∧
      (named.map Note.inserted).sum + (named.map Note.reused).sum = (nameReferences statement).length := by
  cases h with
  | fixed fixed =>
    refine ⟨?_, ?_, ?_⟩
    · simp [selectBelow, kind, children, found, fixed]
    · simp [hiddenWidth, kind, children, fixed]
    · simp [nameReferences, kind, children, fixed]
  | computed computed =>
    have counted := pushedName_counted env name (Node.selectList?_kind found)
    have inserted : (pushedName env name list).counts.inserted = (nameColumns env name list).length :=
      counted.inserted.trans (Nat.zero_add _)
    have total : (pushedName env name list).counts.inserted + (pushedName env name list).counts.reused =
        name.references.length := counted.total.trans (Nat.zero_add _)
    refine ⟨?_, ?_, ?_⟩
    · simp [selectBelow, kind, children, found, computed]
    · simp [hiddenWidth, kind, children, found, computed, Note.inserted, inserted, width computed]
    · simpa [nameReferences, kind, children, computed, Note.inserted, Note.reused] using total

theorem Recorded.pushDowns (h : Recorded env statement notes p) (overSelect : statement.SeriesOfSelect)
    (plain : statement.PlainNames env.routing) :
    (notes.map Note.inserted).sum = insertedColumns statement p ∧
      (notes.map Note.inserted).sum + (notes.map Note.reused).sum =
        (rewrittenReferences env statement p).length := by
  by_cases kind : statement.kind = .select
  · rw [h.rewrites kind plain, h.inserted kind]
    simp [insertedColumns, hiddenWidth, rewrittenReferences, nameReferences, selectBelow, kind]
  cases h with
  | limit _ _ select | scan select | constants select | group select => exact absurd select kind
  | draw _ draw =>
    simp [insertedColumns, hiddenWidth, Plan.groupedWidth, rewrittenReferences, nameReferences, draw,
      Plan.stages, Stage.groups, Note.inserted, Note.reused]
  | @series _ name select list name' rest named notes e input series children found pushed below =>
    have selectKind := overSelect name select series children
    obtain ⟨restKind, restPlain⟩ : rest.kind = .select ∧ rest.PlainNames env.routing := by
      cases pushed with
      | fixed => exact ⟨selectKind, plain.child (by simp [children])⟩
      | computed =>
        have under : Below env statement .series
            (select.withList (list.extend (nameColumns env name list))) :=
          .series series children found fun r mem => PushDown.mem_of_mem_fresh mem
        exact ⟨selectKind, under.plain plain (by simp [selectKind])⟩
    generalize "series" :: input.outputColumns.take list.children.length = columns
    obtain ⟨same, inserted, total⟩ :=
      pushed.pushDowns columns e series children found (pushed.width selectKind found below)
    have inner := below.inserted restKind
    have all := below.rewrites restKind restPlain
    have stages : (Plan.series columns e input).stages.any Stage.groups = input.stages.any Stage.groups := by
      simp [Plan.stages, Stage.groups]
    simp only [insertedColumns, Plan.groupedWidth, rewrittenReferences, List.length_append, same,
      stages, ← inserted, ← total, ← inner, ← all]
    simp [Note.inserted, Note.reused]
    omega

theorem Recorded.hidden {select : Node} {columns : List String} {e : Expr} {input : Plan}
    (h : Recorded env statement notes (.series columns e input)) (overSelect : statement.SeriesOfSelect)
    (children : statement.children = [name, select]) (found : select.selectList? = some list)
    (computed : name.kind ≠ .seriesName) :
    input.outputColumns.length = list.children.length + hiddenWidth statement (.series columns e input) := by
  cases h with
  | series series children' found' pushed below =>
    obtain ⟨rfl, rfl⟩ : name = _ ∧ select = _ := by simpa using children.symm.trans children'
    obtain rfl := Option.some.inj (found.symm.trans found')
    have width := pushed.width (overSelect _ _ series children) found below computed
    simp [hiddenWidth, series, children, found, computed, width]

/-- No counter gets beyond 53 bits with what it is to count. -/
structure HasRoom (env : Environment) (statement : Node) (p : Plan) (m : Metrics) : Prop where
  builders : ∀ b : Builder, m.builders.value b.name + p.stages.countP (·.builder == b) < Nat.pow 2 53
  inserted : m.pushDowns.value "inserted" + insertedColumns statement p < Nat.pow 2 53
  reused : m.pushDowns.value "reused" +
    ((rewrittenReferences env statement p).length - insertedColumns statement p) < Nat.pow 2 53

/-- The counters before and after a statement was planned that has this plan. -/
structure CountersTell (env : Environment) (statement : Node) (p : Plan) (before after : Metrics) : Prop where
  builders : ∀ b : Builder,
    after.builders.value b.name = before.builders.value b.name + p.stages.countP (·.builder == b)
  otherBuilders : ∀ label, (∀ b : Builder, digest b.name ≠ digest label) →
    after.builders.value label = before.builders.value label
  inserted : after.pushDowns.value "inserted" =
    before.pushDowns.value "inserted" + insertedColumns statement p
  rewritten : after.pushDowns.value "inserted" + after.pushDowns.value "reused" =
    before.pushDowns.value "inserted" + before.pushDowns.value "reused" +
      (rewrittenReferences env statement p).length
  unshared : env.settings.sharedSlots = false →
    after.pushDowns.value "reused" = before.pushDowns.value "reused"
  otherPushDowns : ∀ label, digest "inserted" ≠ digest label → digest "reused" ≠ digest label →
    after.pushDowns.value label = before.pushDowns.value label
  defects : after.defects = before.defects
  /-- The columns of the inputs of groupings are those of one at most. -/
  once : p.stages.countP Stage.groups ≤ 1
  /-- The hidden columns come besides the items. -/
  hidden : ∀ name select list columns e input, statement.children = [name, select] →
    select.selectList? = some list → name.kind ≠ .seriesName → p = .series columns e input →
    input.outputColumns.length = list.children.length + hiddenWidth statement p

/-- The counters after a run with recorded notes. -/
theorem Recorded.counters {x : Run Plan} (h : Recorded env statement x.notes p) (raw : x.Raw)
    (overSelect : statement.SeriesOfSelect) (plain : statement.PlainNames env.routing)
    (once : p.stages.countP Stage.groups ≤ 1) {m : Metrics} (room : HasRoom env statement p m) :
    CountersTell env statement p m (m.recordRun x) := by
  obtain ⟨inserted, total⟩ := h.pushDowns overSelect plain
  rw [← Note.totalFor_inserted] at inserted
  rw [← Note.totalFor_inserted, ← Note.totalFor_reused, inserted] at total
  have built : ∀ b : Builder, Samples.totalFor b.name (x.notes.flatMap Note.builderAmounts) =
      p.stages.countP (·.builder == b) := fun b => (Note.totalFor_built b _).trans (h.builds b)
  have insertedAfter : (m.recordRun x).pushDowns.value "inserted" =
      m.pushDowns.value "inserted" + insertedColumns statement p := by
    rw [Metrics.recordRun_eq, ← inserted]
    exact Samples.value_addAll (inserted ▸ room.inserted)
  have reusedAfter : (m.recordRun x).pushDowns.value "reused" =
      m.pushDowns.value "reused" + Samples.totalFor "reused" (x.notes.flatMap Note.pushDownAmounts) := by
    have small := room.reused
    rw [← total, Nat.add_sub_cancel_left] at small
    rw [Metrics.recordRun_eq]
    exact Samples.value_addAll small
  refine { inserted := insertedAfter, builders := fun b => ?_, otherBuilders := fun label other => ?_,
           rewritten := ?_, unshared := fun own => ?_, otherPushDowns := fun label left right => ?_,
           defects := raw.defects_recordRun m, once, hidden := ?_ }
  · rw [Metrics.recordRun_eq, ← built b]
    exact Samples.value_addAll (built b ▸ room.builders b)
  · rw [Metrics.recordRun_eq]
    refine Samples.value_addAll_other fun amount mem => ?_
    obtain ⟨b, named⟩ := Note.mem_builderAmounts mem
    exact named ▸ other b
  · rw [insertedAfter, reusedAfter]
    omega
  · rw [reusedAfter, Note.totalFor_reused, h.unshared own, Nat.add_zero]
  · rw [Metrics.recordRun_eq]
    refine Samples.value_addAll_other fun amount mem => ?_
    rcases Note.mem_pushDownAmounts mem with named | named
    · exact named ▸ left
    · exact named ▸ right
  · rintro name select list columns e input children found computed rfl
    exact h.hidden overSelect children found computed

/-- The counters tell which operators a plan has, and how many columns were pushed down for it. -/
theorem counters_tell_plan (complete : env.Complete) (overSelect : statement.SeriesOfSelect)
    (plain : statement.PlainNames env.routing) (planned : (buildPlan env statement).result = .ok p)
    {m : Metrics} (room : HasRoom env statement p m) :
    CountersTell env statement p m (m.recordRun (buildPlan env statement)) := by
  have made := buildPlan_eq_ok.1 planned
  rw [buildPlan_of_ok made]
  exact (plan_recorded complete made).counters (plan_raw env statement) overSelect plain
    (groups_once plain made).1 room

theorem counters_tell_plan_sales :
    insertedColumns salesByNet salesByNetPlan = 5 ∧
      (rewrittenReferences salesEnvironment salesByNet salesByNetPlan).length = 8 ∧
      CountersTell salesEnvironment salesByNet salesByNetPlan {}
        (Metrics.recordRun {} (buildPlan salesEnvironment salesByNet)) := by
  have planned : (buildPlan salesEnvironment salesByNet).result = .ok salesByNetPlan := by decide +kernel
  have builders : ∀ b ∈ Builder.all, Samples.value {} b.name + salesByNetPlan.stages.countP (·.builder == b) <
      Nat.pow 2 53 := by decide +kernel
  refine ⟨by decide +kernel, by decide +kernel, ?_⟩
  refine counters_tell_plan (fun _ => rfl) ?_ (by decide +kernel) planned
    ⟨?_, by decide +kernel, by decide +kernel⟩
  · rintro name select - ⟨⟩
    rfl
  · exact fun b => builders b b.mem_all

end Planning

end StatementPlan
