/-
What assembled statements are refused for.  Where all calls are known, neither a group key nor the
name of a series calls an aggregate, and bytes stay within a size, that is their own fault or
something the planner does not cover: no assembled statement is a tree that no parser makes, and
none meets a defect in what planning makes of it.

`rows_user`, `group_user`: a SELECT that makes rows, and one that is grouped.
`draft_user`: any assembled SELECT, also with the columns that a computed name adds.
`assembled_user_errors`: any assembled statement.
-/
import StatementPlan.Proofs.Expression.Unbound
import StatementPlan.Proofs.Planning.Acceptance
import StatementPlan.Proofs.Planning.Stops

namespace StatementPlan

namespace Planning

open RowSource Compile

variable {env : Environment} {d : SelectDraft}

theorem refuseClauses_user (statement : Node) : ForUser (orFail (refuseClauses statement)) := by
  refine .orFail ((refuseClauses_stops statement).mono ?_)
  rintro _ ⟨cause, rfl⟩
  exact .unsupported cause

theorem tableOf_user (env : Environment) (table : String) :
    ForUser (orFail (tableOf env (SelectDraft.fromClause table))) := by
  refine .orFail ?_
  have named : ((SelectDraft.fromClause table).findChild? .tableName).bind Node.text? = some table := rfl
  unfold tableOf
  rw [named]
  dsimp only
  split
  · exact .error (.rejected _)
  · exact .ok _

theorem bound_user (table : String) (columns : List String) (n : Node) :
    StopsIn (fun error => UserStop (.failed error)) (bound table columns n) := by
  refine (bound_stops table columns n).mono ?_
  rintro _ ⟨cause, rfl⟩
  exact .rejected cause

theorem scanItems_user {table : String} {columns : List String} {items : List Node}
    (built : ∀ item ∈ items, item.BuiltItem) : ForUser (orFail (scanItems table columns items)) := by
  refine .orFail ?_
  induction items with
  | nil => exact .ok []
  | cons item rest ih =>
    obtain ⟨here, others⟩ := List.forall_mem_cons.1 built
    rw [scanItems]
    refine StopsIn.bind ?_ fun first _ => (ih others).bind fun _ _ => .ok _
    have bound := bound_user table columns item
    cases here with
    | all => exact .ok _
    | derived | derivedAs =>
      simp only [scanItem, Node.derived, Node.derivedAs, Node.ofChildren] at bound ⊢
      split
      · exact .ok _
      · rename_i e stopped
        exact .error (bound e stopped)

/-- What is asked of the calls in a draft: they are known, no key calls an aggregate, and bytes stay
within a size. -/
structure Callable (calls : SymbolTable) (d : SelectDraft) : Prop where
  known : CallsKnown calls (Node.subtreesAll d.exprs)
  keys : ¬Aggregates calls (Node.subtreesAll d.keys)
  items : bytesOf calls (Node.subtreesAll d.items) < Numeral.sizeLimit
  predicate : bytesOf calls (Node.subtreesAll d.predicate.toList) < Numeral.sizeLimit

/-- And it is made of assembled expressions. -/
structure Sound (calls : SymbolTable) (d : SelectDraft) : Prop extends Callable calls d where
  built : d.Built

/-- The SELECT below a grouping asks for no more. -/
theorem Sound.inner (sound : Sound env.calls d) : Sound env.calls (d.inner env) := by
  have scalar := @inner_scalar env d sound.built
  have noKeys : (d.inner env).keys = [] := rfl
  refine ⟨⟨calls_exprs.2 ⟨scalar.1, ?_, ?_⟩, ?_, ?_, sound.predicate⟩, inner_built sound.built⟩
  · exact (calls_exprs.1 sound.known).2.1
  · rw [noKeys]
    nofun
  · rw [noKeys]
    rintro ⟨n, mem, _⟩
    cases mem
  · rw [bytesOf_scalar scalar.2]
    decide

theorem Sound.withoutLimit {calls : SymbolTable} (sound : Sound calls d) :
    Sound calls { d with limit := none } where
  known := sound.known
  keys := sound.keys
  items := sound.items
  predicate := sound.predicate
  built := ⟨sound.built.items, sound.built.predicate, sound.built.keys, by simp⟩

/-- Nor does a SELECT with more columns at the end of its list. -/
theorem Sound.withColumns {calls : SymbolTable} (sound : Sound calls d) {rs : List Node}
    (built : ∀ r ∈ rs, r.Built) (columns : ∀ r ∈ rs, r.kind = .columnName) :
    Sound calls { d with items := d.items ++ rs.map .derived } := by
  have noCalls := columns_calls built columns
  obtain ⟨items, predicate, keys⟩ := calls_exprs.1 sound.known
  refine ⟨⟨calls_exprs.2 ⟨?_, predicate, keys⟩, sound.keys, ?_, sound.predicate⟩, ?_⟩
  · rw [Node.subtreesAll_append, callsKnown_append]
    exact ⟨items, fun n part call => absurd call (noCalls n part)⟩
  · have free : bytesOf calls (Node.subtreesAll (rs.map .derived)) = 0 :=
      bytesOf_eq_zero_iff.2 fun n part => if_neg (noCalls n part)
    rw [Node.subtreesAll_append, bytesOf_append, free]
    exact sound.items
  · refine ⟨List.forall_mem_append.2 ⟨sound.built.items, fun item mem => ?_⟩, sound.built.predicate,
      sound.built.keys, sound.built.limit⟩
    obtain ⟨r, here, rfl⟩ := List.mem_map.1 mem
    exact .derived (built r here)

theorem withList_build (d : SelectDraft) (rs : List Node) :
    d.build.withList ((Node.ofChildren .selectList d.items).extend rs) =
      { d with items := d.items ++ rs.map Node.derived }.build := rfl

section Selects

variable (scalars : env.calls.ScalarOperators) (sound : Sound env.calls d)

include scalars sound

theorem predicate_user {table : String} {columns : List String} :
    ForUser (d.predicate.mapM (predicateOf env table columns)) := by
  obtain ⟨_, known, _⟩ := calls_exprs.1 sound.known
  have fits := sound.predicate
  have built := sound.built.predicate
  generalize d.predicate = x at known fits built ⊢
  cases x with
  | none => exact .ok _
  | some p =>
    rw [Option.mapM_some]
    refine StopsIn.map (StopsIn.bind (.orFail (bound_user table columns p)) fun m placed => ?_) _
    rw [orFail_eq_ok, bound_eq_ok] at placed
    have costs := compileNode_built scalars (built p rfl) placed
    simp only [Option.toList_some, Node.subtreesAll, List.append_nil] at known fits
    obtain ⟨c, compiled⟩ := (compile_succeeds_iff costs fits).2 known
    rw [compiled, ok_bind]
    exact .stateless (fun _ => .rejected _) c

theorem scan_user (quiet : d.table.isSome = true → ¬Aggregates env.calls (Node.subtreesAll d.items)) :
    ForUser (scan env d.build) := by
  cases source : d.table with
  | none =>
    have none : d.build.hasChild .from = false := by
      rw [Node.hasChild_eq_isSome, d.build_from, source]
      rfl
    rw [scan_declines env none]
    exact .ok _
  | some table =>
    have sourced : d.build.findChild? .from = some (SelectDraft.fromClause table) := by
      rw [d.build_from, source]
      rfl
    have scalar : ScalarCalls env.calls (Node.subtreesAll d.items) :=
      ⟨(calls_exprs.1 sound.known).1, quiet (by rw [source]; rfl)⟩
    simp only [scan, sourced]
    refine (refuseClauses_user d.build).bind fun _ _ => (tableOf_user env table).bind fun named _ => ?_
    obtain ⟨table', columns⟩ := named
    rw [selectList, d.selectList?_build]
    dsimp only
    rw [orFail_ok, ok_bind]
    refine (scanItems_user sound.built.items).bind fun items bound => ?_
    rw [orFail_eq_ok] at bound
    have costs : Costs env.calls (Node.subtreesAll d.items)
        (compileNode env.calls (.ofChildren .selectList (items.map (·.1)))) :=
      compileNode_parts (.inl rfl) (scanItems_costs scalars sound.built.items bound)
    obtain ⟨select, compiled, none⟩ := compile_scalar costs scalar
    rw [compiled, ok_bind, stateless_eq_ok.2 ⟨rfl, none⟩, ok_bind, d.condition?_build]
    exact (predicate_user scalars sound).bind fun _ _ => .ok _

theorem constants_user : ForUser (constants env d.build) := by
  have known := (calls_exprs.1 sound.known).1
  unfold constants
  split
  · refine (refuseClauses_user d.build).bind fun _ _ => ?_
    split
    · exact .error (.unsupported _)
    · rw [selectList, d.selectList?_build]
      dsimp only
      rw [orFail_ok, ok_bind]
      split
      · exact .error (.rejected _)
      · rename_i wildcard
        have plain : ∀ item ∈ d.items, item.kind ≠ .all := by
          simpa [Node.hasChild, Node.ofChildren] using wildcard
        refine (compile_unbound scalars sound.built.items plain known sound.items).bind fun c _ => ?_
        exact (StopsIn.stateless (fun _ => .rejected _) c).bind fun _ _ => .ok _
  · exact .ok none

/-- A SELECT that makes rows; it belongs to the one or the other source. -/
theorem rows_user (quiet : d.table.isSome = true → ¬Aggregates env.calls (Node.subtreesAll d.items)) :
    ForUser (rows env d.build) := by
  refine (scan_user scalars sound quiet).bind fun answer scanned => ?_
  cases answer with
  | some p => exact .ok p
  | none =>
    refine (constants_user scalars sound).bind fun answer made => ?_
    cases answer with
    | some p => exact .ok p
    | none =>
      have unsourced := (findChild?_eq_none_iff _ _).1 (scan_declined rfl scanned)
      rw [constants_declined rfl made] at unsourced
      cases unsourced

theorem group_user (complete : env.Complete) (oneTable : env.routing = env.calls)
    (free : d.limit = none) : ForUser (group env (planWithin env 1) d.build).result := by
  obtain ⟨items, _, keys⟩ := calls_exprs.1 sound.known
  obtain ⟨list, group, listPlaced, groupPlaced, shape⟩ :=
    group_result env (planWithin env 1) d.selectList?_build
  rw [shape, d.ungrouped_build, ← SelectDraft.inner]
  split
  · exact .error (.unsupported _)
  · rename_i wildcard
    have plain : ∀ item ∈ d.items, item.kind ≠ .all := by
      simpa [Node.hasChild, Node.ofChildren] using wildcard
    obtain ⟨select, selected⟩ :=
      (compile_succeeds_iff (items_costs scalars sound.built plain listPlaced) sound.items).2 items
    obtain ⟨c, grouped, none⟩ :=
      compile_scalar (keys_costs scalars sound.built groupPlaced) ⟨keys, sound.keys⟩
    rw [selected, ok_bind, grouped, ok_bind, stateless_eq_ok.2 ⟨rfl, none⟩, ok_bind,
      inner_result complete oneTable sound.built free]
    have scalar := @inner_scalar env d sound.built
    exact (rows_user scalars sound.inner fun _ => scalar.2).bind fun _ _ => .ok _

theorem unlimited_user (complete : env.Complete) (oneTable : env.routing = env.calls)
    (free : d.limit = none) : ForUser (unlimited env (planWithin env 1) d.build) := by
  rw [unlimited, isGrouped_build oneTable (calls_exprs.1 sound.known).1, orFail_ok, ok_bind]
  split
  · exact group_user scalars sound complete oneTable free
  · rename_i direct
    refine rows_user scalars sound fun sourced aggregates => direct (decide_eq_true ⟨?_, .inr aggregates⟩)
    intro alone
    rw [(d.clauses_eq_nil.1 alone).1] at sourced
    cases sourced

omit scalars sound in
/-- Limits whose counts can be read. -/
theorem limited_user {clauses : List Node} (each : ∀ clause ∈ clauses, ∃ counts, LimitsTo clause counts)
    {x : Except Stop Plan} (h : ForUser x) : ForUser (limited clauses x) := by
  induction clauses with
  | nil => exact h
  | cons clause rest ih =>
    obtain ⟨⟨counts, here⟩, others⟩ := List.forall_mem_cons.1 each
    rw [limited, List.foldr_cons, ← limited, countsOf_eq_ok.2 here, orFail_ok, ok_bind]
    exact (ih others).bind fun _ _ => .ok _

/-- An assembled SELECT. -/
theorem draft_user (complete : env.Complete) (oneTable : env.routing = env.calls) :
    ForUser (plan env d.build).result := by
  rw [plan_select complete rfl, d.build_withoutLimits]
  refine limited_user (fun clause mem => ?_) (unlimited_user scalars sound.withoutLimit complete oneTable rfl)
  rw [d.build_limits, List.mem_map] at mem
  obtain ⟨l, here, rfl⟩ := mem
  obtain ⟨fits, fits'⟩ := sound.built.limit l (Option.mem_toList.1 here)
  exact ⟨_, limitsTo_limitClause fits fits'⟩

omit scalars sound in
theorem seriesOver_user {axes : Nat} {name : Node} {c : Compiled}
    (compiled : compile env.calls name = .ok c) (none : c.scratchpad = 0) {x : Except Stop Plan}
    (h : ForUser x) : ForUser (seriesOver env axes name x) := by
  refine h.bind fun input _ => ?_
  rw [compiled, ok_bind, stateless_eq_ok.2 ⟨rfl, none⟩]
  exact .ok _

/-- A SERIES over it under a fixed name. -/
theorem seriesNamed_user (complete : env.Complete) (oneTable : env.routing = env.calls)
    (name : String) : ForUser (plan env (.seriesNamed name d.build)).result := by
  rw [plan_series_fixed rfl rfl d.selectList?_build rfl]
  exact seriesOver_user (compile_literal _ _) rfl (draft_user scalars sound complete oneTable)

/-- A SERIES over it under a name that calls no aggregate. -/
theorem seriesFrom_user (complete : env.Complete) (oneTable : env.routing = env.calls) {name : Node}
    (built : name.Built) (calls : ScalarCalls env.calls name.subtrees) :
    ForUser (plan env (.seriesFrom name d.build)).result := by
  have computed : name.kind ≠ .seriesName := by
    cases built <;> nofun
  have children : (Node.seriesFrom name d.build).children = [name, d.build] := rfl
  obtain ⟨name', placed, shape⟩ := plan_series_computed env rfl children rfl d.selectList?_build computed
  rw [shape]
  split
  · exact .error (.unsupported _)
  · obtain ⟨c, compiled, none⟩ := compile_scalar (compileNode_built scalars built placed) calls
    refine seriesOver_user compiled none ?_
    rw [withList_build]
    have columns : ∀ r ∈ nameColumns env name (.ofChildren .selectList d.items), r.Built := fun r mem =>
      built.part r (Node.mem_references r (PushDown.mem_of_mem_fresh mem)).2
    exact draft_user scalars (sound.withColumns columns nameColumns_kind) complete oneTable

end Selects

/-- A statement as it is assembled, with calls as they are asked for. -/
inductive Assembled (calls : SymbolTable) : Node → Prop
  | select {steps : List SelectStep} (built : ∀ s ∈ steps, s.Built)
      (callable : Callable calls (drafted steps)) : Assembled calls (.select steps)
  | seriesNamed (name : String) {steps : List SelectStep} (built : ∀ s ∈ steps, s.Built)
      (callable : Callable calls (drafted steps)) : Assembled calls (.seriesNamed name (.select steps))
  | seriesFrom {name : Node} (named : name.Built) (scalar : ScalarCalls calls name.subtrees)
      {steps : List SelectStep} (built : ∀ s ∈ steps, s.Built)
      (callable : Callable calls (drafted steps)) : Assembled calls (.seriesFrom name (.select steps))
  | draw {kind : TokenKind} (chart : kind = .bar ∨ kind = .line ∨ kind = .area) : Assembled calls (.draw kind)

theorem plan_user (complete : env.Complete) (oneTable : env.routing = env.calls)
    (scalars : env.calls.ScalarOperators) {statement : Node} (assembled : Assembled env.calls statement) :
    ForUser (plan env statement).result := by
  cases assembled with
  | select built callable =>
    exact draft_user scalars ⟨callable, drafted_built built⟩ complete oneTable
  | seriesNamed name built callable =>
    exact seriesNamed_user scalars ⟨callable, drafted_built built⟩ complete oneTable name
  | seriesFrom named scalar built callable =>
    exact seriesFrom_user scalars ⟨callable, drafted_built built⟩ complete oneTable named scalar
  | draw chart =>
    rw [plan_draw rfl]
    rcases chart with rfl | rfl | rfl <;> exact .ok _

/-- An assembled statement has a plan, or is rejected for a name or a number in it, or is not
supported; that is never a defect, whatever the settings make of one, and never an overflow. -/
theorem assembled_user_errors (complete : env.Complete) (oneTable : env.routing = env.calls)
    (scalars : env.calls.ScalarOperators) {statement : Node} (assembled : Assembled env.calls statement) :
    (∃ p, (buildPlan env statement).result = .ok p) ∨
      (∃ cause, (buildPlan env statement).result = .error (.failed (.rejected cause))) ∨
        ∃ cause, (buildPlan env statement).result = .error (.failed (.unsupported cause)) := by
  have user := plan_user complete oneTable scalars assembled
  rw [buildPlan_result]
  cases here : (plan env statement).result with
  | ok p => exact .inl ⟨p, rfl⟩
  | error stop =>
    cases user stop here with
    | rejected cause => exact .inr (.inl ⟨cause, rfl⟩)
    | unsupported cause => exact .inr (.inr ⟨cause, rfl⟩)

/-- SELECT city, sum(total) FROM sales WHERE max(tax) > 1 GROUP BY city LIMIT 3 -/
def salesMostTaxed : List SelectStep :=
  [.column "city", .item (.call "sum" [.column "total"]), .table "sales",
    .filter (.binary (.operator .gt) (.call "max" [.column "tax"]) (.int 1)), .groupBy (.column "city"),
    .limit 3 none]

/-- SERIES round(tax) OF it -/
def salesByTax : Node := .seriesFrom (.call "round" [.column "tax"]) (.select salesMostTaxed)

theorem assembled_user_errors_sales : Assembled salesEnvironment.calls salesByTax ∧
    (buildPlan salesEnvironment salesByTax).result = .error (.failed (.rejected .aggregateInWhere)) ∧
      ((∃ p, (buildPlan salesEnvironment salesByTax).result = .ok p) ∨
        (∃ cause, (buildPlan salesEnvironment salesByTax).result = .error (.failed (.rejected cause))) ∨
          ∃ cause, (buildPlan salesEnvironment salesByTax).result =
            .error (.failed (.unsupported cause))) := by
  have call : ∀ name column, (Node.call name [.column column]).Built := fun name column =>
    .call name (by simpa using .column column)
  have built : ∀ s ∈ salesMostTaxed, s.Built := by
    have compared := And.intro (call "max" "tax") (.int 1 : (Node.int 1).Built)
    simp only [salesMostTaxed, List.forall_mem_cons]
    exact ⟨trivial, call "sum" "total", trivial, .operator .gt none none (by simpa using compared),
      .column "city", ⟨by decide, nofun⟩, nofun⟩
  have callable : Callable salesEnvironment.calls (drafted salesMostTaxed) :=
    ⟨by decide +kernel, by decide +kernel, by decide +kernel, by decide +kernel⟩
  have scalar : ScalarCalls salesEnvironment.calls (Node.call "round" [.column "tax"]).subtrees :=
    ⟨by decide +kernel, by decide +kernel⟩
  have assembled : Assembled salesEnvironment.calls salesByTax :=
    .seriesFrom (call "round" "tax") scalar built callable
  exact ⟨assembled, by decide +kernel,
    assembled_user_errors (fun _ => rfl) rfl Registry.builtins_scalarOperators assembled⟩

end Planning

end StatementPlan
