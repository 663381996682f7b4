/-
What becomes of the clauses of a SELECT in its plan.  Each of its limits is an operator, its keys
are those of the one grouping, its table is the one that is read and its condition the predicate;
what has no place in a plan keeps the SELECT from having one.

`countsOf_eq_ok`, `limited_eq_ok`: the limits of a plan.
`RowsOf.leaf`: the clauses that a row source reads, though it is given another SELECT.
`clauses_accounted`: the clauses of any SELECT in its plan.
-/
import StatementPlan.Proofs.Planning.Scope

namespace StatementPlan

namespace Node

/-- The number that a clause carries. -/
def count? (clause : Node) : Option Nat := clause.text?.bind Numeral.size?

theorem hasChild_eq_isSome (n : Node) (kind : Kind) : n.hasChild kind = (n.findChild? kind).isSome := by
  rw [Bool.eq_iff_iff, hasChild, List.any_eq_true, findChild?, List.find?_isSome]

theorem findChild?_withoutLimits (n : Node) {kind : Kind} (other : kind ≠ .limit) :
    n.withoutLimits.findChild? kind = n.findChild? kind := by
  simp only [findChild?, withoutLimits, List.find?_filter]
  congr 1
  funext c
  by_cases here : c.kind = kind
  · simp [here, other]
  · simp [here]

end Node

/-- Limits around a plan, the first outermost. -/
def Plan.limitedBy (core : Plan) (counts : List (Nat × Nat)) : Plan :=
  counts.foldr (fun count input => .limit count.1 count.2 input) core

namespace Planning

open RowSource

variable {env : Environment} {statement source list : Node}

theorem findChild?_ungrouped (found : statement.selectList? = some source)
    (headed : list.kind = .selectList) {kind : Kind} (noList : kind ≠ .selectList)
    (noKeys : kind ≠ .groupBy) : (ungrouped statement list).findChild? kind = statement.findChild? kind := by
  obtain ⟨headed', shape⟩ := Node.selectList?_eq_some.1 found
  simp only [Node.findChild?, ungrouped]
  rw [shape, List.find?_cons_of_neg (by simpa [headed] using noList.symm),
    List.find?_cons_of_neg (by simpa [headed'] using noList.symm), List.find?_filter]
  simp only [List.tail_cons]
  congr 1
  funext c
  by_cases here : c.kind = kind
  · simp [here, noKeys]
  · simp [here]

/-- The clause limits to a count after an offset: the number of its OFFSET, or 0. -/
structure LimitsTo (clause : Node) (counts : Nat × Nat) : Prop where
  count : clause.count? = some counts.1
  offset : (clause.findChild? .offset).elim (some 0) Node.count? = some counts.2

theorem countOf_eq_ok {clause : CountClause} {n : Node} {count : Nat} :
    countOf clause n.token = .ok count ↔ n.count? = some count := by
  unfold countOf Node.count? Node.text?
  cases n.token with
  | none => simp
  | some token =>
    dsimp only [Option.map_some, Option.bind_some]
    cases Numeral.size? token.text <;> simp

theorem countsOf_eq_ok {clause : Node} {counts : Nat × Nat} :
    countsOf clause = .ok counts ↔ LimitsTo clause counts := by
  have parts : LimitsTo clause counts ↔ clause.count? = some counts.1 ∧
      (clause.findChild? .offset).elim (some 0) Node.count? = some counts.2 :=
    ⟨fun h => ⟨h.count, h.offset⟩, fun h => ⟨h.1, h.2⟩⟩
  rw [parts, countsOf]
  cases clause.findChild? .offset with
  | none =>
    simp only [bind_eq_ok_iff, countOf_eq_ok, Option.elim_none, Option.some.injEq]
    constructor
    · rintro ⟨count, here, ⟨⟩⟩
      exact ⟨here, rfl⟩
    · intro h
      obtain ⟨here, none⟩ := h
      exact ⟨_, here, congrArg Except.ok (Prod.ext rfl none)⟩
  | some offset =>
    simp only [bind_eq_ok_iff, countOf_eq_ok, Option.elim_some]
    constructor
    · rintro ⟨count, here, after, there, ⟨⟩⟩
      exact ⟨here, there⟩
    · rintro ⟨here, there⟩
      exact ⟨_, here, _, there, rfl⟩

/-- Each limit is an operator around the plan without. -/
theorem limited_eq_ok {clauses : List Node} {x : Except Stop Plan} {p : Plan} :
    limited clauses x = .ok p ↔ ∃ counts core, List.Forall₂ LimitsTo clauses counts ∧
      x = .ok core ∧ p = core.limitedBy counts := by
  induction clauses generalizing p with
  | nil => simp [limited, Plan.limitedBy]
  | cons clause rest ih =>
    rw [limited, List.foldr_cons, ← limited]
    simp only [bind_eq_ok_iff, orFail_eq_ok, ih, countsOf_eq_ok, List.forall₂_cons_left_iff]
    constructor
    · rintro ⟨counts, here, input, ⟨others, core, below, inner, rfl⟩, ⟨⟩⟩
      exact ⟨counts :: others, core, ⟨counts, others, here, below, rfl⟩, inner, rfl⟩
    · rintro ⟨_, core, ⟨counts, others, here, below, rfl⟩, inner, rfl⟩
      exact ⟨counts, here, _, ⟨others, core, below, inner, rfl⟩, rfl⟩

/-- There is more than a list, and there are keys or the list calls an aggregate. -/
def MustGroup (env : Environment) (statement : Node) : Prop :=
  2 ≤ statement.children.length ∧ (statement.hasChild .groupBy = true ∨
    ∃ list, statement.children.head? = some list ∧ callsAggregate env.routing list = .ok true)

theorem isGrouped_eq_ok (kind : statement.kind = .select) (found : statement.selectList? = some list)
    {grouped : Bool} (h : isGrouped env statement = .ok grouped) :
    grouped = true ↔ MustGroup env statement := by
  obtain ⟨_, shape⟩ := Node.selectList?_eq_some.1 found
  have must : MustGroup env statement ↔ statement.children.tail ≠ [] ∧
      (statement.hasChild .groupBy = true ∨ callsAggregate env.routing list = .ok true) := by
    rw [MustGroup, shape]
    cases statement.children.tail <;> simp
  rw [must]
  rw [isGrouped_eq kind found] at h
  split at h
  · rename_i alone
    simp [alone, ← Except.ok.inj h]
  · rename_i more
    split at h
    · rename_i keys
      simp [more, keys, ← Except.ok.inj h]
    · rename_i free
      cases called : callsAggregate env.routing list with
      | ok called =>
        rw [called] at h
        simp [more, free, Except.ok.inj h]
      | error defect =>
        rw [called] at h
        cases h

/-- Where the rows of a SELECT come from: the table of its FROM, by its condition, or nowhere. -/
inductive LeafOf (env : Environment) (statement : Node) : Plan → Prop
  | scan {clause : Node} {table : String} {columns names : List String} {select : Compiled}
      {predicate : Option Compiled} (sourced : statement.findChild? .from = some clause)
      (named : clause.tableText? = some table) (known : env.columns? table = some columns)
      (filtered : Option.Rel
        (fun condition c => ∃ m, Columns.bind table columns condition = .ok m ∧
          compile env.calls m = .ok c ∧ c.scratchpad = 0) (condition? statement) predicate) :
      LeafOf env statement (.tableScan table names select predicate)
  | constants {names : List String} {select : Compiled} (unsourced : statement.hasChild .from = false)
      (unfiltered : statement.hasChild .where = false) :
      LeafOf env statement (.tablelessSelect names select)

/-- The plan without limits: a grouping by the keys, if there must be one, over a row source. -/
inductive CoreOf (env : Environment) (statement : Node) : Plan → Prop
  | grouped {list : Node} {columns : List String} {select : Expr} {es : List Expr} {pad : Nat}
      {input : Plan} (must : MustGroup env statement.withoutLimits)
      (found : statement.withoutLimits.selectList? = some list)
      (keys : List.Forall₂ (fun key e => ∃ m,
        Placed (ColumnAt (neededColumns env statement.withoutLimits list)) key m ∧
          compile env.calls m = .ok ⟨e, 0⟩) (groupKeys statement) es)
      (leaf : LeafOf env statement input) :
      CoreOf env statement (.groupBy columns select (.list es) pad input)
  | plain {p : Plan} (free : ¬MustGroup env statement.withoutLimits) (leaf : LeafOf env statement p) :
      CoreOf env statement p

/-- All clauses of the SELECT are in the plan. -/
structure Accounts (env : Environment) (statement : Node) (p : Plan) : Prop where
  having : statement.hasChild .having = false
  orderBy : statement.hasChild .orderBy = false
  operators : ∃ counts core, List.Forall₂ LimitsTo statement.limits counts ∧
    p = core.limitedBy counts ∧ CoreOf env statement core

/-- The clauses that a row source reads are those of the SELECT from which it has its own. -/
theorem RowsOf.leaf {rest : Node} {p : Plan} (h : RowsOf env rest list p) (statement : Node)
    (same : ∀ kind ∈ [Kind.having, .orderBy, .from, .where],
      rest.findChild? kind = statement.findChild? kind) :
    statement.hasChild .having = false ∧ statement.hasChild .orderBy = false ∧
      LeafOf env statement p := by
  have same' : ∀ kind ∈ [Kind.having, .orderBy, .from, .where],
      rest.hasChild kind = statement.hasChild kind := fun kind mem => by
    rw [Node.hasChild_eq_isSome, Node.hasChild_eq_isSome, same kind mem]
  have conditions : condition? rest = condition? statement := by
    rw [condition?, condition?, same .where (by simp)]
  cases h with
  | scan known _ _ _ filtered plain sourced named =>
    rw [same' .having (by simp), same' .orderBy (by simp)] at plain
    rw [conditions, mapM_option_eq_ok] at filtered
    refine ⟨plain.1, plain.2, .scan (same .from (by simp) ▸ sourced) named known ?_⟩
    simpa only [predicateOf_eq_ok, bind_eq_ok_iff_placed] using filtered
  | constants _ _ _ plain unsourced unfiltered =>
    rw [same' .having (by simp), same' .orderBy (by simp)] at plain
    rw [same' .from (by simp)] at unsourced
    rw [same' .where (by simp)] at unfiltered
    exact ⟨plain.1, plain.2, .constants unsourced unfiltered⟩

theorem compiled_keys {R : Node → Nat → Prop} {keys : List Node} {m : Node} {c : Compiled}
    (placed : Placed R (.ofChildren .groupBy keys) m) (compiled : compile env.calls m = .ok c)
    (none : c.scratchpad = 0) :
    ∃ es, c.expr = .list es ∧
      List.Forall₂ (fun key e => ∃ m, Placed R key m ∧ compile env.calls m = .ok ⟨e, 0⟩) keys es := by
  cases placed with
  | column kind => cases kind
  | inner _ below =>
    obtain ⟨es, items, whole⟩ := (compile_parts_eq_ok (.inr rfl)).1 compiled
    rw [none, compileAll_free] at items
    exact ⟨es, whole, forall₂_comp below items⟩

theorem unlimited_core (complete : env.Complete) (kind : statement.kind = .select) {core : Plan}
    (made : unlimited env (planWithin env 1) statement.withoutLimits = .ok core) :
    statement.hasChild .having = false ∧ statement.hasChild .orderBy = false ∧
      CoreOf env statement core := by
  have kind' : statement.withoutLimits.kind = .select := kind
  have unlimited := @Node.withoutLimits_unlimited statement
  have frame : ∀ kind ∈ [Kind.having, .orderBy, .from, .where],
      statement.withoutLimits.findChild? kind = statement.findChild? kind := fun kind mem =>
    statement.findChild?_withoutLimits fun limit => by simp [limit] at mem
  obtain ⟨grouped, decided, made⟩ := bind_eq_ok_iff.1 made
  rw [orFail_eq_ok] at decided
  cases grouped with
  | true =>
    obtain ⟨list, found, split⟩ := group_eq_ok complete kind' unlimited made
    have must := (isGrouped_eq_ok kind' found decided).1 rfl
    cases split with
    | @intro _ keys _ group _ _ _ placed _ compiled none rows =>
      -- the row source is given the SELECT below, which has all clauses but the keys
      obtain ⟨having, orderBy, leaf⟩ := rows.leaf statement fun kind mem => by
        rw [findChild?_ungrouped found rfl (fun here => by simp [here] at mem)
          (fun here => by simp [here] at mem), frame kind mem]
      obtain ⟨es, whole, each⟩ := compiled_keys placed compiled none
      rw [whole]
      rw [Node.groupKeys_withoutLimits] at each
      exact ⟨having, orderBy, .grouped must found each leaf⟩
  | false =>
    obtain ⟨list, found, rows⟩ := rows_eq_ok made
    obtain ⟨having, orderBy, leaf⟩ := rows.leaf statement frame
    refine ⟨having, orderBy, .plain (fun must => ?_) leaf⟩
    exact absurd ((isGrouped_eq_ok kind' found decided).2 must) Bool.false_ne_true

/-- All clauses of a SELECT are in its plan. -/
theorem clauses_accounted (complete : env.Complete) (kind : statement.kind = .select) {p : Plan}
    (made : (buildPlan env statement).result = .ok p) : Accounts env statement p := by
  rw [buildPlan_eq_ok, plan_select complete kind, limited_eq_ok] at made
  obtain ⟨counts, core, limits, inner, rfl⟩ := made
  obtain ⟨having, orderBy, whole⟩ := unlimited_core complete kind inner
  exact ⟨having, orderBy, counts, core, limits, rfl, whole⟩

/-- SELECT city, sum(total) AS gross FROM sales WHERE tax > 0 GROUP BY city LIMIT 3 OFFSET 1 -/
def salesTaxed : Node :=
  .select [.column "city", .itemAs (.call "sum" [.column "total"]) "gross", .table "sales",
    .filter (.binary (.operator .gt) (.column "tax") (.int 0)), .groupBy (.column "city"),
    .limit 3 (some 1)]

theorem clauses_accounted_sales :
    Accounts salesEnvironment salesTaxed (.limit 3 1 (.groupBy ["city", "gross"]
      (.list [.column 0, .call "sum" true [.column 1]]) (.list [.column 0]) 8
      (.tableScan "sales" ["city", "total"] ⟨.list [.column 0, .column 1], 0⟩
        (some ⟨.call "gt" false [.column 2, .literal (.int64 0)], 0⟩)))) := by
  have planned : (buildPlan salesEnvironment salesTaxed).result =
      .ok (.limit 3 1 (.groupBy ["city", "gross"]
        (.list [.column 0, .call "sum" true [.column 1]]) (.list [.column 0]) 8
        (.tableScan "sales" ["city", "total"] ⟨.list [.column 0, .column 1], 0⟩
          (some ⟨.call "gt" false [.column 2, .literal (.int64 0)], 0⟩)))) := by decide +kernel
  exact clauses_accounted (fun _ => rfl) rfl planned

end Planning

end StatementPlan
