/-
Planning a statement whose names are put otherwise, in surroundings that find what it names under
these other names.  The two runs do the same, but for the names that they show: in the statements
offered to builders, in the columns of plans and in errors.  What is looked up is named by a node
somewhere below the statement, also after the statement was rewritten: rewriting moves columns about
and adds no call and no table.

`Below.known`: nothing is named below a layer that is not named below the statement.
`scan_reword`, `constants_reword`, `groups_reword`, `series_reword`: what the builders read.
`rewording`, `rewording_kept`: what goes together in the two runs.
`plan_reword`, `buildPlan_reword`: planning a reworded statement.
-/
import StatementPlan.Proofs.Expression.Rewording
import StatementPlan.Proofs.Planning.Constants
import StatementPlan.Proofs.Planning.Correspondence

namespace StatementPlan

open RowSource

/-- The note with its names put otherwise. -/
def Note.reword (ρ : Rewording) : Note → Note
  | event (.defectMet d) => .event (.defectMet (d.reword ρ))
  | event (.seriesBuilt axes columns) => .event (.seriesBuilt axes (columns.map ρ.columns))
  | offered leaf statement => .offered leaf (statement.reword ρ)
  | defect d => .defect (d.reword ρ)
  | note => note

namespace Plan

/-- The plan with the names of its columns changed. -/
def mapColumns (f : String → String) : Plan → Plan
  | tableScan table columns select predicate => .tableScan table (columns.map f) select predicate
  | tablelessSelect columns select => .tablelessSelect (columns.map f) select
  | limit count offset input => .limit count offset (mapColumns f input)
  | groupBy columns select keys scratchpad input =>
    .groupBy (columns.map f) select keys scratchpad (mapColumns f input)
  | series columns name input => .series (columns.map f) name (mapColumns f input)
  | draw chart => .draw chart

/-- The same plan, up to how its columns are named. -/
def Alike (ρ : Rewording) (p q : Plan) : Prop := p.mapColumns ρ.columns = q.mapColumns ρ.columns

theorem mapColumns_self (p : Plan) : p.mapColumns (fun name => name) = p := by
  induction p <;> simp_all [mapColumns]

theorem outputColumns_mapColumns (f : String → String) (p : Plan) :
    (p.mapColumns f).outputColumns = p.outputColumns.map f := by
  induction p with
  | limit _ _ _ ih => exact ih
  | _ => rfl

theorem Alike.shown {ρ : Rewording} {p q : Plan} (h : p.Alike ρ q) (axes : Nat) :
    ("series" :: p.outputColumns.take axes).map ρ.columns =
      ("series" :: q.outputColumns.take axes).map ρ.columns := by
  rw [List.map_cons, List.map_cons, List.map_take, List.map_take, ← outputColumns_mapColumns,
    ← outputColumns_mapColumns, h]

end Plan

/-- The same error, up to how things are named. -/
def PlanError.Alike (ρ : Rewording) (error error' : PlanError) : Prop := error.reword ρ = error'.reword ρ

/-- The second surroundings are those of the first, apart from what is looked up by name. -/
structure Environment.SameButLookups (env env' : Environment) : Prop where
  settings : env'.settings = env.settings
  declines : env'.declines = env.declines

/-- What the node names is found in the second surroundings, as it is put there. -/
structure Node.Known (ρ : Rewording) (env env' : Environment) (n : Node) : Prop where
  routed : RoutesAlike ρ env.routing env'.routing n
  called : ∀ name, n.callee? = some name → env'.calls (ρ.calls name) = env.calls name
  sourced : n.kind = .from → ∀ table, n.tableText? = some table → env'.columns? table = env.columns? table
  located : ∀ table columns, env.columns? table = some columns → Columns.Located ρ columns n
  /-- With shared slots, columns are told apart by what is beneath them, too. -/
  kept : env.settings.sharedSlots = true → n.kind = .columnName → n.reword ρ = n

/-- So is what the nodes of the tree name. -/
def Node.AllKnown (ρ : Rewording) (env env' : Environment) (n : Node) : Prop :=
  ∀ m ∈ n.subtrees, m.Known ρ env env'

/-- So is what the nodes below the root name. -/
def Node.KnownBelow (ρ : Rewording) (env env' : Environment) (n : Node) : Prop :=
  ∀ c ∈ n.children, c.AllKnown ρ env env'

variable {ρ : Rewording} {env env' : Environment}

namespace Node

variable {n c statement : Node}

theorem AllKnown.below (known : n.AllKnown ρ env env') : n.KnownBelow ρ env env' :=
  fun _ child _ part => known _ (subtrees_child child part)

/-- A select list and its items name nothing themselves. -/
theorem known_of_list (kind : n.kind = .selectList ∨ n.kind = .derivedColumn) : n.Known ρ env env' := by
  rcases kind with kind | kind <;>
    exact ⟨by simp [RoutesAlike, kind], by simp [callee?, kind], by simp [kind],
      by simp [Columns.Located, kind], by simp [kind]⟩

theorem KnownBelow.child (known : n.KnownBelow ρ env env') {found : Kind}
    (here : n.findChild? found = some c) : c.AllKnown ρ env env' :=
  known c (List.mem_of_find?_eq_some here)

theorem KnownBelow.list (known : statement.KnownBelow ρ env env')
    (found : statement.selectList? = some c) : c.AllKnown ρ env env' := by
  obtain ⟨_, shape⟩ := selectList?_eq_some.1 found
  exact known c (shape ▸ List.mem_cons_self)

theorem AllKnown.namesAlike (known : n.AllKnown ρ env env') : NamesAlike ρ env.calls env'.calls n := by
  intro name mem
  obtain ⟨m, used, callee⟩ := List.mem_filterMap.1 mem
  exact (known m (n.evaluated_subset used)).called name callee

theorem AllKnown.apart (known : n.AllKnown ρ env env') :
    PushDown.Apart ρ env.settings.sharedSlots n.references :=
  fun shared r mem => (known r (mem_references r mem).2).kept shared (mem_references r mem).1

end Node

theorem Placed.namesAlike {R : Node → Nat → Prop} {n m : Node} {table table' : SymbolTable}
    (placed : Placed R n m)
    (alike : NamesAlike ρ table table' n) : NamesAlike ρ table table' m := by
  rw [NamesAlike, ← placed.callees]
  exact alike

namespace Planning

open Compile

variable {table : String} {columns : List String} {statement source name list : Node}

theorem keys_known (known : statement.KnownBelow ρ env env') :
    ∀ key ∈ groupKeys statement, key.AllKnown ρ env env' := by
  intro key mem m part
  obtain ⟨d, child, part⟩ := key_part mem part
  exact known d child m part

/-- Nothing is named below a layer that is not named below the statement. -/
theorem Below.known {layer : Layer} {rest : Node} (h : Below env statement layer rest)
    (known : statement.KnownBelow ρ env env') : rest.KnownBelow ρ env env' := by
  intro c mem m part
  rcases h.nodes c mem m part with list | ⟨d, child, part⟩
  · exact Node.known_of_list list
  · exact known d child m part

theorem NameOf.namesAlike {name' : Node} {table table' : SymbolTable} (named : NameOf name name')
    (alike : NamesAlike ρ table table' name) : NamesAlike ρ table table' name' := by
  cases named with
  | fixed => exact fun _ mem => absurd mem List.not_mem_nil
  | computed placed => exact placed.namesAlike alike

theorem orFail_alike {R : α → β → Prop} {x : Except PlanError α} {y : Except PlanError β}
    (h : EndAlike (PlanError.Alike ρ) R x y) : EndAlike (Stop.Alike ρ) R (orFail x) (orFail y) := by
  cases h with
  | ok here => exact .ok here
  | error here => exact .error (congrArg Stop.failed here)

/-- The bound tree and its rewording compile alike. -/
theorem bound_reword {n : Node} (known : n.AllKnown ρ env env')
    (sourced : env.columns? table = some columns) :
    EndAlike (PlanError.Alike ρ) (CompilesAlike ρ env.calls env'.calls) (bound table columns n)
      (bound table columns (n.reword ρ)) := by
  have binds : Columns.BindsAlike ρ table columns n :=
    Columns.bind_reword fun m part => (known m part).located table columns sourced
  rw [bound, bound]
  obtain ⟨cause, cause', left, right, same⟩ | ⟨m, m', left, right, rfl⟩ := binds.ends
  · rw [left, right]
    exact .error (congrArg PlanError.rejected same)
  · have placed : bound table columns n = .ok m := by rw [bound, left]
    rw [left, right]
    exact .ok (compileNode_reword m ((bound_eq_ok.1 placed).namesAlike known.namesAlike))

/-- The items compile alike, and their names are the same up to how columns are named. -/
def ItemsAlike (ρ : Rewording) (table table' : SymbolTable) (items items' : List (Node × String)) : Prop :=
  List.Forall₂ (CompilesAlike ρ table table') (items.map (·.1)) (items'.map (·.1)) ∧
    (items.map (·.2)).map ρ.columns = (items'.map (·.2)).map ρ.columns

theorem everyColumn_alike (ρ : Rewording) (table table' : SymbolTable) (columns : List String) :
    ItemsAlike ρ table table' (everyColumn columns) (everyColumn columns) := by
  refine ⟨List.forall₂_same.2 fun item mem => ?_, rfl⟩
  obtain ⟨⟨_, name⟩, here, rfl⟩ := List.mem_map.1 mem
  obtain ⟨position, _, same⟩ := List.mem_mapIdx.1 here
  obtain ⟨rfl, _⟩ := Prod.mk.inj same
  exact fun used => .ok rfl

theorem scanItem_reword {item : Node} (known : item.AllKnown ρ env env')
    (sourced : env.columns? table = some columns) :
    EndAlike (PlanError.Alike ρ) (ItemsAlike ρ env.calls env'.calls) (scanItem table columns item)
      (scanItem table columns (item.reword ρ)) := by
  rw [scanItem, scanItem, Node.relabel_kind]
  split
  · exact .ok (everyColumn_alike ..)
  · obtain ⟨error, error', left, right, same⟩ | ⟨m, m', left, right, same⟩ :=
      (bound_reword known sourced).ends
    · rw [left, right]
      exact .error same
    · rw [left, right]
      exact .ok ⟨.cons same .nil, congrArg (fun name => [name]) (outputName_reword item).symm⟩
  · exact .error rfl

theorem scanItems_reword {ns : List Node} (known : ∀ n ∈ ns, n.AllKnown ρ env env')
    (sourced : env.columns? table = some columns) :
    EndAlike (PlanError.Alike ρ) (ItemsAlike ρ env.calls env'.calls) (scanItems table columns ns)
      (scanItems table columns (ns.map (Node.reword ρ))) := by
  induction ns with
  | nil => exact .ok ⟨.nil, rfl⟩
  | cons n rest ih =>
    have others := ih fun m mem => known m (by simp [mem])
    rw [List.map_cons, scanItems, scanItems]
    refine (scanItem_reword (known n (by simp)) sourced).bind fun here => others.bind fun there => .ok ?_
    rw [ItemsAlike, List.map_append, List.map_append, List.map_append, List.map_append, List.map_append,
      List.map_append, here.2, there.2]
    exact ⟨List.rel_append here.1 there.1, rfl⟩

theorem tableOf_reword {clause : Node} (known : clause.Known ρ env env') (kind : clause.kind = .from) :
    tableOf env' (clause.reword ρ) = tableOf env clause := by
  rw [tableOf, tableOf, Node.childText_relabel fun _ => rfl]
  cases found : (clause.findChild? .tableName).bind Node.text? with
  | none => rfl
  | some table =>
    dsimp only
    rw [known.sourced kind table found]

theorem selectList_reword (statement : Node) : EndAlike (PlanError.Alike ρ)
    (fun list list' => statement.selectList? = some list ∧ list' = list.reword ρ)
    (selectList statement) (selectList (statement.reword ρ)) := by
  rw [selectList_relabel]
  cases found : selectList statement with
  | error error => exact .error rfl
  | ok list => exact .ok ⟨selectList_eq_ok.1 found, rfl⟩

theorem predicateOf_reword {condition : Node} (known : condition.AllKnown ρ env env')
    (sourced : env.columns? table = some columns) :
    EndAlike (Stop.Alike ρ) Eq (predicateOf env table columns condition)
      (predicateOf env' table columns (condition.reword ρ)) := by
  refine (orFail_alike (bound_reword known sourced)).bind fun alike => ?_
  exact (compile_alike alike).bind fun here => here ▸ same _

theorem predicates_reword {condition : Option Node} (known : ∀ n ∈ condition, n.AllKnown ρ env env')
    (sourced : env.columns? table = some columns) :
    EndAlike (Stop.Alike ρ) Eq (condition.mapM (predicateOf env table columns))
      ((condition.map (Node.reword ρ)).mapM (predicateOf env' table columns)) := by
  cases condition with
  | none => exact .ok rfl
  | some n =>
    rw [Option.map_some, Option.mapM_some, Option.mapM_some]
    exact (predicateOf_reword (known n rfl) sourced).map fun here => congrArg some here

theorem condition_known (known : statement.KnownBelow ρ env env') :
    ∀ n ∈ condition? statement, n.AllKnown ρ env env' := by
  intro n here
  obtain ⟨clause, found, head⟩ := Option.bind_eq_some_iff.1 here
  exact (known.child found).below n (List.mem_of_mem_head? head)

theorem scan_reword (known : statement.KnownBelow ρ env env') :
    EndAlike (Stop.Alike ρ) (Option.Rel (Plan.Alike ρ))
      (scan env statement) (scan env' (statement.reword ρ)) := by
  rw [scan, scan, Node.relabel_kind, Node.findChild?_relabel, refuseClauses_relabel, condition?_relabel]
  split
  · cases clauses : statement.findChild? .from with
    | none => exact .ok .none
    | some clause =>
      have kind : clause.kind = .from := by simpa using List.find?_some clauses
      have table := tableOf_reword (known.child clauses clause clause.self_mem_subtrees) kind
      simp only [Option.map_some, table]
      refine .bind_same .refl _ fun _ _ => .bind_same .refl _ fun named here => ?_
      obtain ⟨table, columns⟩ := named
      have sourced := (tableOf_eq_ok.1 (orFail_eq_ok.1 here)).2
      refine (orFail_alike (selectList_reword statement)).bind fun {list _} listed => ?_
      obtain ⟨found, rfl⟩ := listed
      rw [Node.relabel_children]
      have items := scanItems_reword (known.list found).below sourced
      refine (orFail_alike items).bind fun {items items'} alike => ?_
      refine (compile_alike (.list (.inl rfl) alike.1)).bind fun {c _} here => ?_
      subst here
      refine .bind_same .refl _ fun select _ => ?_
      refine (predicates_reword (condition_known known) sourced).bind fun {predicate _} here => ?_
      subst here
      refine .ok (.some ?_)
      rw [Plan.Alike, Plan.mapColumns, Plan.mapColumns, alike.2]
  · exact .ok .none

theorem constants_reword (known : statement.KnownBelow ρ env env') :
    EndAlike (Stop.Alike ρ) (Option.Rel (Plan.Alike ρ)) (constants env statement)
      (constants env' (statement.reword ρ)) := by
  rw [constants, constants, Node.relabel_kind, Node.hasChild_relabel, Node.hasChild_relabel,
    refuseClauses_relabel]
  split
  · refine .bind_same .refl _ fun _ _ => ?_
    split
    · exact .error rfl
    · refine (orFail_alike (selectList_reword statement)).bind fun {list _} listed => ?_
      obtain ⟨found, rfl⟩ := listed
      rw [Node.hasChild_relabel, Node.relabel_children]
      split
      · exact .error rfl
      · have alike := compileNode_reword list (known.list found).namesAlike
        refine (compile_alike alike).bind fun {c _} here => ?_
        subst here
        refine .bind_same .refl _ fun select _ => .ok (.some ?_)
        simp [Plan.Alike, Plan.mapColumns, Function.comp_def, outputName_reword]
  · exact .ok .none

theorem selectsAggregate_reword (known : statement.KnownBelow ρ env env') :
    EndAlike (Defect.Alike ρ) Eq (selectsAggregate env.routing statement)
      (selectsAggregate env'.routing (statement.reword ρ)) := by
  rw [selectsAggregate, selectsAggregate, Node.relabel_kind, Node.relabel_children]
  split
  · cases children : statement.children with
    | nil => exact .ok rfl
    | cons list rest =>
      cases rest with
      | nil => exact .ok rfl
      | cons clause rest =>
        have listKnown := known list (by simp [children])
        simp only [List.map_cons, Node.relabel_kind]
        split
        · exact callsAggregate_reword fun m part => (listKnown m part).routed
        · exact .error rfl
  · exact .ok rfl

theorem isGrouped_reword (known : statement.KnownBelow ρ env env') :
    EndAlike (PlanError.Alike ρ) Eq (isGrouped env statement) (isGrouped env' (statement.reword ρ)) := by
  rw [isGrouped, isGrouped, hasGroupKeys_relabel]
  split
  · exact .ok rfl
  · obtain ⟨d, d', left, right, same⟩ | ⟨grouped, _, left, right, rfl⟩ := (selectsAggregate_reword known).ends
    · rw [left, right]
      exact .error (congrArg PlanError.defect same)
    · rw [left, right]
      exact .ok rfl

theorem pushedItems_reword (same : env.SameButLookups env') (known : source.AllKnown ρ env env') :
    pushedItems env' (source.reword ρ) =
      PushDown.rewordPushed ρ (Node.reword ρ) (pushedItems env source) := by
  rw [pushedItems, pushedItems, same.settings]
  exact @PushDown.apply_reword ρ source _ { kind := .selectList } rfl known.apart
    fun _ _ mem => absurd mem List.not_mem_nil

theorem pushedKeys_reword (same : env.SameButLookups env')
    (known : statement.KnownBelow ρ env env') (found : statement.selectList? = some source) :
    pushedKeys env' (statement.reword ρ) (source.reword ρ) =
      PushDown.rewordPushed ρ (List.map (Node.reword ρ)) (pushedKeys env statement source) := by
  have listKnown := known.list found
  have headed := pushedItems_headed env source
  have pushes := (pushedItems_pushes env source).1
  -- the keys are pushed into what the items left, which must not come to be reworded either
  have keeps := pushes.apart (fun r mem => (Node.mem_references r mem).1) listKnown.apart
    fun _ _ mem => absurd mem List.not_mem_nil
  have keys : PushDown.Apart ρ env.settings.sharedSlots (Node.referencesAll (groupKeys statement)) := by
    intro shared r mem
    rw [Node.referencesAll_eq_flatMap, List.mem_flatMap] at mem
    obtain ⟨key, mem, here⟩ := mem
    exact (keys_known known key mem).apart shared r here
  rw [pushedKeys, pushedKeys, pushedItems_reword same listKnown, groupKeys_relabel]
  exact PushDown.applyAll_reword (fun n _ => PushDown.apply_reword n) headed
    (pushes.shared.symm ▸ keys) keeps

/-- What goes together in planning a statement and its rewording. -/
def rewording (ρ : Rewording) (env env' : Environment) : Correspondence where
  notes note note' := note.reword ρ = note'.reword ρ
  stops := Stop.Alike ρ
  statements n n' := n' = n.reword ρ ∧ n.KnownBelow ρ env env'
  plans _ := Plan.Alike ρ
  note_self _ := rfl
  stop_self := .refl
  offered leaf h := by rw [h.1, Note.reword, Note.reword, Node.reword_reword]
  kind h := by rw [h.1, Node.relabel_kind]
  depth h := by rw [h.1, nestingBound_relabel]
  defect := by
    intro d stop' h
    cases stop' with
    | failed error =>
      cases error with
      | defect d' =>
        have same : d.reword ρ = d'.reword ρ := PlanError.defect.inj (Stop.failed.inj h)
        refine ⟨d', rfl, congrArg Note.defect same, ?_, congrArg Stop.panicked same⟩
        exact congrArg (fun d => Note.event (.defectMet d)) same
      | _ => cases h
    | _ => cases h
  defect' := by
    intro stop d' h
    cases stop with
    | failed error =>
      cases error with
      | defect d => exact ⟨d, rfl⟩
      | _ => cases h
    | _ => cases h

/-- The SELECTs below a grouping have the same columns, put otherwise. -/
theorem columnList_reword (same : env.SameButLookups env') (known : statement.KnownBelow ρ env env')
    (found : statement.selectList? = some source) :
    columnList (neededColumns env' (statement.reword ρ) (source.reword ρ)) =
      (columnList (neededColumns env statement source)).reword ρ := by
  rw [← (pushed_down env statement source).target,
    ← (pushed_down env' (statement.reword ρ) (source.reword ρ)).target,
    pushedKeys_reword same known found]
  rfl

theorem groupedNames_reword (settings : Settings) (items : List Node) :
    (groupedNames settings (items.map (Node.reword ρ))).map ρ.columns =
      (groupedNames settings items).map ρ.columns := by
  rw [groupedNames, groupedNames, List.map_map, List.map_map, List.map_map]
  refine List.map_congr_left fun item _ => ?_
  simp only [Function.comp_apply]
  split
  · exact outputName_reword item
  · rfl

theorem groups_reword (same : env.SameButLookups env') (kind : statement.kind = .select)
    (grouped : isGrouped env statement = .ok true) (known : statement.KnownBelow ρ env env')
    (found : statement.selectList? = some source) :
    (rewording ρ env env').Groups env env' statement (statement.reword ρ) source (source.reword ρ) := by
  have listKnown := known.list found
  have items := pushedItems_reword same listKnown
  have keys := pushedKeys_reword same known found
  have columns := columnList_reword same known found
  have pushed := pushed_down env statement source
  constructor
  case wildcard => exact Node.hasChild_relabel source .all
  case notes =>
    -- the note counts the columns below, and a reworded list has as many
    have width : ∀ rs : List Node, rs.length = (columnList rs).children.length := fun rs => by
      simp [columnList, Node.extend]
    have wide : (neededColumns env' (statement.reword ρ) (source.reword ρ)).length =
        (neededColumns env statement source).length := by
      rw [width, columns, Node.relabel_children, List.length_map, ← width]
    rw [groupNotes, groupNotes, keys, wide, groupKeys_relabel, List.length_map]
    rfl
  case items =>
    rw [items]
    exact compile_alike (compileNode_reword _ (pushed.items.namesAlike listKnown.namesAlike))
  case keys =>
    rw [keys]
    refine compile_alike (.list (.inr rfl) ?_)
    refine List.forall₂_map_right_iff.2 (List.forall₂_same.2 fun key mem => ?_)
    obtain ⟨original, mem, placed⟩ := exists_of_mem_right pushed.keys mem
    exact compileNode_reword key (placed.namesAlike (keys_known known original mem).namesAlike)
  case rest =>
    rw [columns]
    exact ⟨ungrouped_relabel .., (Below.group kind grouped found).known known⟩
  case plans =>
    intro p q alike select keys bytes
    show Plan.groupBy _ select keys bytes _ = .groupBy _ select keys bytes _
    rw [same.settings, Node.relabel_children, groupedNames_reword, alike]

theorem selects_reword (same : env.SameButLookups env') (kind : statement.kind = .select)
    (known : statement.KnownBelow ρ env env') :
    (rewording ρ env env').Selects env env' statement (statement.reword ρ) where
  limit := by
    rw [Node.findChild?_relabel]
    refine optionRel_map fun clause found => ?_
    exact countsOf_relabel (fun _ => rfl) (fun _ => rfl) (by simpa using List.find?_some found)
  rest found := ⟨withoutFirstLimit_relabel, (Below.limit kind found).known known⟩
  limited alike count offset := congrArg (Plan.limit count offset) alike
  decided := (isGrouped_reword known).mono (fun here => congrArg Stop.failed here) id
  grouped grouped := by
    rw [Node.selectList?_relabel]
    exact optionRel_map fun source found => groups_reword same kind grouped known found
  scanned := scan_reword known
  constants := constants_reword known

theorem pushedName_reword (same : env.SameButLookups env') (nameKnown : name.AllKnown ρ env env')
    (listKnown : list.AllKnown ρ env env') (kind : list.kind = .selectList) :
    pushedName env' (name.reword ρ) (list.reword ρ) =
      PushDown.rewordPushed ρ (Node.reword ρ) (pushedName env name list) := by
  have keeps : PushDown.Apart ρ env.settings.sharedSlots (Node.plainColumns list.children) := by
    intro shared r mem
    refine listKnown.apart shared r ?_
    rw [Node.references_of_ne (by simp [kind])]
    exact Node.mem_referencesAll_of_mem_plainColumns mem
  rw [pushedName, pushedName, same.settings]
  exact PushDown.apply_reword name kind nameKnown.apart keeps

/-- Whatever a name becomes, it is compiled alike, over the same SELECT put otherwise. -/
theorem names_reword {select name' select' : Node} {notes : List Note} (kind : statement.kind = .series)
    (children : statement.children = [name, select]) (known : statement.KnownBelow ρ env env')
    (found : select.selectList? = some list)
    (made : seriesName env name select list = ⟨notes, .ok (name', select')⟩) :
    (rewording ρ env env').Names env env' statement list.children.length (name', select')
      (name'.reword ρ, select'.reword ρ) := by
  have nameKnown : name.AllKnown ρ env env' := known name (by simp [children])
  obtain ⟨rs, needed, below, named⟩ := seriesName_eq_ok found (congrArg Run.result made)
  have rest : Below env statement .series select' := below ▸ .series kind children found needed
  constructor
  case compiled => exact compile_alike (compileNode_reword _ (named.namesAlike nameKnown.namesAlike))
  case rest => exact ⟨rfl, rest.known known⟩
  case noted =>
    intro p q alike
    exact congrArg (fun columns => Note.event (.seriesBuilt _ columns)) (alike.shown _)
  case plans =>
    intro p q alike name
    show Plan.series _ name _ = .series _ name _
    rw [alike.shown, alike]

/-- The name of a series over the reworded SELECT, and that SELECT. -/
theorem series_reword {select : Node} (same : env.SameButLookups env') (kind : statement.kind = .series)
    (children : statement.children = [name, select]) (known : statement.KnownBelow ρ env env')
    (found : select.selectList? = some list) :
    (rewording ρ env env').Series env env' statement name (name.reword ρ) select (select.reword ρ) list
      (list.reword ρ) := by
  refine ⟨by rw [Node.relabel_children, List.length_map], ?_⟩
  by_cases fixed : name.kind = .seriesName
  · have fixed' : (name.reword ρ).kind = .seriesName := (Node.relabel_kind name).trans fixed
    have token' : (name.reword ρ).token = name.token := Node.relabel_kept (fixed ▸ fun _ => rfl)
    have shape : seriesName env name select list = _ := if_pos fixed
    rw [shape, seriesName, if_pos fixed', token']
    cases token : name.token with
    | none => exact .fail _
    | some token =>
      rw [token] at shape
      exact .pure (names_reword kind children known found shape)
  · have headed := Node.selectList?_kind found
    have shape := seriesName_computed env select fixed headed
    have fixed' : (name.reword ρ).kind ≠ .seriesName := by simpa using fixed
    have headed' : (list.reword ρ).kind = .selectList := (Node.relabel_kind list).trans headed
    have selectKnown : select.AllKnown ρ env env' := known select (by simp [children])
    have nameKnown : name.AllKnown ρ env env' := known name (by simp [children])
    have pushed := pushedName_reword same nameKnown (selectKnown.below.list found) headed
    rw [shape, seriesName_computed env' _ fixed' headed', Node.hasChild_relabel, pushed]
    by_cases wild : list.hasChild .all = true
    · rw [if_pos wild, if_pos wild]
      exact .fail _
    · have select' : (select.withList (pushedName env name list).target).reword ρ =
          (select.reword ρ).withList ((pushedName env name list).target.reword ρ) := by
        rw [Node.withList, Node.withList, Node.relabel_children, ← List.map_tail, ← List.map_cons]
        exact Node.relabel_withChildren select _
      rw [if_neg wild] at shape
      have made := names_reword kind children known found shape
      rw [select'] at made
      rw [if_neg wild, if_neg wild]
      exact .bind (.note rfl) fun _ => .pure made

/-- What a step reads of a known statement and of its rewording goes together. -/
theorem rewording_kept (same : env.SameButLookups env') : (rewording ρ env env').Kept env env' where
  declines := same.declines
  onDefect := by rw [same.settings]
  select := by
    rintro n _ ⟨rfl, known⟩ kind
    exact selects_reword same kind known
  series := by
    rintro n _ ⟨rfl, known⟩ kind
    rw [Node.relabel_children]
    rcases children : n.children with _ | ⟨name, _ | ⟨select, _ | ⟨more, rest⟩⟩⟩
    · exact .others rfl (by simp)
    · exact .others rfl (by simp)
    · refine .named ?_
      rw [Node.selectList?_relabel]
      exact optionRel_map fun list found => series_reword same kind children known found
    · exact .others (by simp) (by simp)
  chart := by
    rintro n _ ⟨rfl, _⟩ kind
    exact Node.relabel_kept (kind ▸ fun _ => rfl)
  drawn _ _ _ := rfl

/-- Planning a reworded statement. -/
theorem plan_reword (same : env.SameButLookups env') (known : statement.AllKnown ρ env env') :
    (rewording ρ env env').Runs (Plan.Alike ρ) (plan env statement) (plan env' (statement.reword ρ)) :=
  plan_corresponds (rewording_kept same) ⟨rfl, known.below⟩

/-- Defects are dealt with alike, too. -/
theorem buildPlan_reword (same : env.SameButLookups env') (known : statement.AllKnown ρ env env') :
    (rewording ρ env env').Runs (Plan.Alike ρ)
      (buildPlan env statement) (buildPlan env' (statement.reword ρ)) :=
  buildPlan_corresponds (rewording_kept same) ⟨rfl, known.below⟩

end Planning

end StatementPlan
