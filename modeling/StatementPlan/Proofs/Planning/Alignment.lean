/-
Names and expressions of output columns side by side.  Each operator with a select list has one
expression for each of its column names, and the two come from one item of the list that it was
planned from: an item has its own name and its own expression, a wildcard all columns of the table.

`outputName_named`: the name of an item.
`scanItems_contribute`: what each item of a scanned list adds to the names and to the expressions.
`step_aligned`: a step keeps them side by side, if the plan that it is over does.
`output_names_aligned`: so does every plan.
-/
import StatementPlan.Proofs.Planning.Layers

namespace StatementPlan

namespace Node

/-- The text of the first column alias, if that has one. -/
def nameGiven? (item : Node) : Option String := (item.findChild? .columnAlias).bind text?

/-- The name of an item: the one it is given, or else that of the column it consists of. -/
inductive NamedAs (item : Node) : String → Prop
  | given {name : String} (here : item.nameGiven? = some name) : NamedAs item name
  | column {expr : Node} {name : String} (none : item.nameGiven? = none)
      (head : item.children.head? = some expr) (column : expr.kind = .columnName)
      (named : expr.text? = some name) : NamedAs item name
  | unnamed (none : item.nameGiven? = none)
      (nameless : ∀ expr, item.children.head? = some expr → expr.kind = .columnName →
        expr.text? = Option.none) : NamedAs item unnamed

end Node

theorem outputName_named (item : Node) : item.NamedAs (outputName item) := by
  unfold outputName
  split
  · rename_i name here
    exact .given here
  · rename_i none
    split
    · rename_i expr rest shape
      have head : item.children.head? = some expr := by rw [shape]; rfl
      split
      · rename_i column
        cases named : expr.text? with
        | some name => exact .column none head column named
        | none =>
          refine .unnamed none fun other head' _ => ?_
          obtain rfl := Option.some.inj (head.symm.trans head')
          exact named
      · rename_i other
        refine .unnamed none fun expr' head' column => ?_
        obtain rfl := Option.some.inj (head.symm.trans head')
        exact absurd column other
    · rename_i empty
      refine .unnamed none fun expr head _ => ?_
      rw [empty] at head
      cases head

namespace Plan

/-- The select expression of an operator that has one. -/
def selectExpr? : Plan → Option Expr
  | tableScan _ _ select _ | tablelessSelect _ select => some select.expr
  | groupBy _ select _ _ _ => some select
  | limit .. | series .. | draw _ => none

/-- The select expression, if there is one, is a list of as many entries as there are columns. -/
def Listed (p : Plan) : Prop :=
  ∀ e, p.selectExpr? = some e → ∃ es, e = .list es ∧ es.length = p.outputColumns.length

/-- The names and the expressions of the columns are those of the pairs, in order. -/
structure Lists (p : Plan) (pairs : List (String × Expr)) : Prop where
  names : p.outputColumns = pairs.map (·.1)
  exprs : p.selectExpr? = some (.list (pairs.map (·.2)))

theorem Lists.listed {p : Plan} {pairs : List (String × Expr)} (h : p.Lists pairs) : p.Listed := by
  intro e same
  obtain rfl := Option.some.inj (h.exprs.symm.trans same)
  exact ⟨_, rfl, by rw [h.names, List.length_map, List.length_map]⟩

end Plan

namespace Planning

open RowSource

variable {env : Environment} {statement list : Node}

/-- What an item of a scanned list adds: a wildcard all columns of the table by their positions,
another item its name and what it compiles to, bound to the table. -/
inductive Contributes (env : Environment) (table : String) (columns : List String) (item : Node) :
    List (String × Expr) → Prop
  | all (kind : item.kind = .all) :
      Contributes env table columns item (columns.mapIdx fun position name => (name, .column position))
  | derived {name : String} {m : Node} {e : Expr} (kind : item.kind = .derivedColumn)
      (named : item.NamedAs name) (bound : Columns.bind table columns item = .ok m)
      (compiled : compile env.calls m = .ok ⟨e, 0⟩) : Contributes env table columns item [(name, e)]

/-- The name of an item and what it compiles to as it is. -/
structure ConstantItem (env : Environment) (item : Node) (pair : String × Expr) : Prop where
  named : item.NamedAs pair.1
  compiled : compile env.calls item = .ok ⟨pair.2, 0⟩

/-- The name of an item of a grouped list, if names are kept, and what it compiles to over the
columns below. -/
structure GroupedItem (env : Environment) (columns : List Node) (item : Node)
    (pair : String × Expr) : Prop where
  named : if env.settings.resolvedNames then item.NamedAs pair.1 else pair.1 = unnamed
  compiled : ∃ m pad, Placed (ColumnAt columns) item m ∧ compile env.calls m = .ok ⟨pair.2, pad⟩

/-- Names and expressions go side by side in a plan of the statement and in the plans below it, in
the order of the items of the lists that these were planned from. -/
inductive Aligned (env : Environment) : Node → Plan → Prop
  | scan {statement list clause : Node} {table : String} {columns names : List String}
      {select : Compiled} {pairs : List (List (String × Expr))} (predicate : Option Compiled)
      (found : statement.selectList? = some list) (sourced : statement.findChild? .from = some clause)
      (tabled : clause.tableText? = some table) (known : env.columns? table = some columns)
      (items : List.Forall₂ (Contributes env table columns) list.children pairs)
      (listed : (Plan.tableScan table names select predicate).Lists pairs.flatten) :
      Aligned env statement (.tableScan table names select predicate)
  | constants {statement list : Node} {names : List String} {select : Compiled}
      {pairs : List (String × Expr)} (found : statement.selectList? = some list)
      (items : List.Forall₂ (ConstantItem env) list.children pairs)
      (listed : (Plan.tablelessSelect names select).Lists pairs) :
      Aligned env statement (.tablelessSelect names select)
  | limit {statement : Node} {input : Plan} (count offset : Nat)
      (below : Aligned env statement.withoutFirstLimit input) :
      Aligned env statement (.limit count offset input)
  | group {statement list : Node} {names : List String} {select : Expr}
      {pairs : List (String × Expr)} {input : Plan} (keys : Expr) (pad : Nat)
      (found : statement.selectList? = some list)
      (items : List.Forall₂ (GroupedItem env (neededColumns env statement list)) list.children pairs)
      (listed : (Plan.groupBy names select keys pad input).Lists pairs)
      (below : Aligned env (ungrouped statement (columnList (neededColumns env statement list))) input) :
      Aligned env statement (.groupBy names select keys pad input)
  | series {statement name select list : Node} {rs : List Node} {input : Plan}
      (columns : List String) (nameExpr : Expr) (children : statement.children = [name, select])
      (found : select.selectList? = some list) (needed : ∀ r ∈ rs, r ∈ name.references)
      (below : Aligned env (select.withList (list.extend rs)) input) :
      Aligned env statement (.series columns nameExpr input)
  | draw {statement : Node} (chart : Chart) : Aligned env statement (.draw chart)

theorem Aligned.listed {p : Plan} (h : Aligned env statement p) : ∀ part ∈ p.parts, part.Listed := by
  induction h with
  | scan _ _ _ _ _ _ listed => exact List.forall_mem_singleton.2 (listed.listed)
  | constants _ _ listed => exact List.forall_mem_singleton.2 (listed.listed)
  | limit _ _ _ ih => exact List.forall_mem_cons.2 ⟨nofun, ih⟩
  | group _ _ _ _ listed _ ih => exact List.forall_mem_cons.2 ⟨listed.listed, ih⟩
  | series _ _ _ _ _ _ ih => exact List.forall_mem_cons.2 ⟨nofun, ih⟩
  | draw => exact List.forall_mem_singleton.2 nofun

/-- What an item of a scanned list adds to the names and to the expressions. -/
theorem scanItem_contributes {table : String} {columns : List String} {item : Node}
    {items : List (Node × String)} (h : scanItem table columns item = .ok items) {es : List Expr}
    (compiled : List.Forall₂ (fun m e => compile env.calls m = .ok ⟨e, 0⟩) (items.map (·.1)) es) :
    ∃ pairs, Contributes env table columns item pairs ∧ items.map (·.2) = pairs.map (·.1) ∧
      es = pairs.map (·.2) := by
  unfold scanItem at h
  split at h
  · rename_i all
    obtain rfl := Except.ok.inj h
    refine ⟨_, .all all, ?_, ?_⟩
    · exact List.ext_getElem? fun i => by simp [everyColumn, Function.comp_def]
    · have direct := compileAll_everyColumn env.calls columns 0
      rw [compileAll_free.2 compiled] at direct
      rw [(Prod.mk.inj (Except.ok.inj direct)).1]
      exact List.ext_getElem? fun i => by simp [Function.comp_def]
  · rename_i derived
    split at h
    · rename_i m found
      obtain rfl := Except.ok.inj h
      obtain ⟨e, _, here, none, rfl⟩ := List.forall₂_cons_left_iff.1 compiled
      cases none
      exact ⟨_, .derived derived (outputName_named item)
        (bind_eq_ok_iff_placed.2 (bound_eq_ok.1 found)) here, rfl, rfl⟩
    · cases h
  · cases h

theorem scanItems_contribute {table : String} {columns : List String} {ns : List Node}
    {items : List (Node × String)} (h : scanItems table columns ns = .ok items) {es : List Expr}
    (compiled : List.Forall₂ (fun m e => compile env.calls m = .ok ⟨e, 0⟩) (items.map (·.1)) es) :
    ∃ pairs, List.Forall₂ (Contributes env table columns) ns pairs ∧
      items.map (·.2) = pairs.flatten.map (·.1) ∧ es = pairs.flatten.map (·.2) := by
  induction ns generalizing items es with
  | nil =>
    obtain rfl := Except.ok.inj h
    cases compiled
    exact ⟨[], .nil, rfl, rfl⟩
  | cons n rest ih =>
    obtain ⟨first, others, here, below, rfl⟩ := scanItems_cons_eq_ok.1 h
    rw [List.map_append] at compiled
    obtain ⟨cs, ds, rfl, own, rest'⟩ := forall₂_append_left compiled
    obtain ⟨pairs, item, names, exprs⟩ := scanItem_contributes here own
    obtain ⟨pairs', items, names', exprs'⟩ := ih below rest'
    refine ⟨pairs :: pairs', .cons item items, ?_, ?_⟩
    · rw [List.map_append, names, names', List.flatten_cons, List.map_append]
    · rw [exprs, exprs', List.flatten_cons, List.map_append]

/-- Items with a name and an expression each, in pairs. -/
theorem exists_pairs {Q : Node → Expr → Prop} {items : List Node} {es : List Expr}
    (h : List.Forall₂ Q items es) (name : Node → String) :
    ∃ pairs : List (String × Expr),
      List.Forall₂ (fun item pair => pair.1 = name item ∧ Q item pair.2) items pairs ∧
      items.map name = pairs.map (·.1) ∧ es = pairs.map (·.2) := by
  induction h with
  | nil => exact ⟨[], .nil, rfl, rfl⟩
  | @cons item e items es here _ ih =>
    obtain ⟨pairs, each, names, exprs⟩ := ih
    exact ⟨(name item, e) :: pairs, .cons ⟨rfl, here⟩ each, congrArg (name item :: ·) names,
      congrArg (e :: ·) exprs⟩

theorem RowsOf.aligned (found : statement.selectList? = some list) {p : Plan}
    (h : RowsOf env statement list p) : Aligned env statement p := by
  cases h with
  | @scan table columns items select predicate known listed compiled none _ _ clause sourced tabled =>
    obtain ⟨es, parts, whole⟩ := (compile_list_eq_ok rfl).1 compiled
    rw [none] at parts
    obtain ⟨pairs, items, names, exprs⟩ := scanItems_contribute listed (compileAll_free.1 parts)
    exact .scan predicate found sourced tabled known items ⟨names, by rw [← exprs, ← whole]; rfl⟩
  | constants _ compiled none =>
    obtain ⟨es, parts, whole⟩ := (compile_list_eq_ok (Node.selectList?_kind found)).1 compiled
    rw [none] at parts
    obtain ⟨pairs, items, names, exprs⟩ := exists_pairs (compileAll_free.1 parts) outputName
    refine .constants found (items.imp ?_) ⟨names, by rw [← exprs, ← whole]; rfl⟩
    rintro item ⟨name, e⟩ ⟨rfl, compiled⟩
    exact ⟨outputName_named item, compiled⟩

theorem group_aligned {source list : Node} {select : Compiled} {input : Plan} (keys : Expr)
    (found : statement.selectList? = some source)
    (listPlaced : Placed (ColumnAt (neededColumns env statement source)) source list)
    (selected : compile env.calls list = .ok select)
    (below : Aligned env (ungrouped statement (columnList (neededColumns env statement source))) input) :
    Aligned env statement (.groupBy (groupedNames env.settings source.children) select.expr keys
      select.scratchpad input) := by
  have kind := Node.selectList?_kind found
  obtain ⟨_, token, children, id⟩ := source
  simp only at kind
  subst kind
  cases listPlaced with
  | column other => cases other
  | inner _ placed =>
    obtain ⟨es, parts, whole⟩ := (compile_list_eq_ok rfl).1 selected
    obtain ⟨pairs, items, names, exprs⟩ := exists_pairs
      (forall₂_comp placed (compileAll_items parts)) fun item =>
        if env.settings.resolvedNames then outputName item else unnamed
    refine .group _ _ found (items.imp ?_) ⟨names, by rw [← exprs, ← whole]; rfl⟩ below
    rintro item ⟨name, e⟩ ⟨rfl, m, placed, before, after, compiled⟩
    obtain ⟨pad, compiled⟩ := compile_part compiled
    refine ⟨?_, m, pad, placed, compiled⟩
    split
    · exact outputName_named item
    · rfl

/-- A step keeps names and expressions side by side, if the plan that it is over does. -/
theorem step_aligned {below : Node → Run Plan}
    (inner : ∀ rest input, (below rest).result = .ok input → Aligned env rest input) {p : Plan}
    (h : (step env below statement).result = .ok p) : Aligned env statement p := by
  rcases step_eq_ok h with alone | ⟨layer, rest, input, asked, made, around⟩
  · cases alone with
    | rows found rows => exact rows.aligned found
    | draw chart => exact .draw chart
  · cases asked with
    | limit =>
      cases around with
      | limit count offset => exact .limit count offset (inner _ input made)
    | group _ _ found =>
      cases around with
      | group selected _ _ found' listPlaced =>
        obtain rfl := Option.some.inj (found'.symm.trans found)
        exact group_aligned _ found listPlaced selected (inner _ input made)
    | series _ children found needed =>
      cases around with
      | series => exact .series _ _ children found needed (inner _ input made)

theorem planWithin_aligned {depth : Nat} {p : Plan}
    (h : (planWithin env depth statement).result = .ok p) : Aligned env statement p := by
  induction depth generalizing statement p with
  | zero => cases h
  | succ depth ih => exact step_aligned (fun _ _ made => ih made) h

/-- In every plan, names and expressions of output columns go side by side, item by item. -/
theorem output_names_aligned {p : Plan} (made : (buildPlan env statement).result = .ok p) :
    Aligned env statement p ∧ ∀ part ∈ p.parts, part.Listed := by
  have aligned := planWithin_aligned (buildPlan_eq_ok.1 made)
  exact ⟨aligned, aligned.listed⟩

/-- SELECT *, total + tax, city AS place, * FROM sales LIMIT 2 -/
def salesTwice : Node :=
  .select [.all, .item (.binary (.operator .add) (.column "total") (.column "tax")),
    .itemAs (.column "city") "place", .all, .table "sales", .limit 2 none]

/-- The plan of the SELECT. -/
def salesTwicePlan : Plan :=
  .limit 2 0 (.tableScan "sales"
    ["city", "total", "tax", "unnamed", "place", "city", "total", "tax"]
    ⟨.list [.column 0, .column 1, .column 2, .call "add" false [.column 1, .column 2], .column 0,
      .column 0, .column 1, .column 2], 0⟩ none)

theorem output_names_aligned_sales :
    Aligned salesEnvironment salesTwice salesTwicePlan ∧
      ∀ part ∈ salesTwicePlan.parts, part.Listed := by
  have planned : (buildPlan salesEnvironment salesTwice).result = .ok salesTwicePlan := by
    decide +kernel
  exact output_names_aligned planned

end Planning

end StatementPlan
