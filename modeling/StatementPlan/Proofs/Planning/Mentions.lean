/-
What planning looks up: the tables that FROM clauses of the statement name, the functions that its
calls name, and the functions of its operators.  Surroundings that agree on these make no difference
to the run, whatever else they know.

`mentions_determine_planning`: two surroundings that agree on what the statement names, and
surroundings before and after changes to what it does not name.
-/
import StatementPlan.Proofs.Planning.Rewording
import StatementPlan.Proofs.Planning.Scope

namespace StatementPlan

namespace Node

/-- The tables that FROM clauses name. -/
def tables (n : Node) : List String :=
  n.subtrees.filterMap fun m => if m.kind = .from then m.tableText? else none

/-- The functions that calls name. -/
def functions (n : Node) : List String :=
  n.subtrees.filterMap fun m => if m.kind = .methodCall then m.text? else none

/-- The functions that evaluate operators. -/
def operators (n : Node) : List String :=
  n.subtrees.filterMap fun m => m.kind.operator?.map Operator.symbol

variable {n m : Node} {name : String}

theorem mem_tables (part : m ∈ n.subtrees) (kind : m.kind = .from) (named : m.tableText? = some name) :
    name ∈ n.tables := List.mem_filterMap.2 ⟨m, part, (if_pos kind).trans named⟩

theorem mem_functions (part : m ∈ n.subtrees) (kind : m.kind = .methodCall)
    (named : m.text? = some name) :
    name ∈ n.functions := List.mem_filterMap.2 ⟨m, part, (if_pos kind).trans named⟩

theorem mem_operators (part : m ∈ n.subtrees) {op : Operator} (kind : m.kind = .operator op) :
    op.symbol ∈ n.operators := List.mem_filterMap.2 ⟨m, part, by rw [kind]; rfl⟩

end Node

theorem Node.reword_none (n : Node) : n.reword .none = n := by
  refine relabel_self (fun kind token => ?_) n
  cases kind <;> rfl

theorem Defect.reword_none (d : Defect) : d.reword .none = d := by
  cases d <;> rfl

theorem Stop.reword_none (stop : Stop) : stop.reword .none = stop := by
  cases stop with
  | failed error =>
    cases error with
    | rejected cause => cases cause <;> rfl
    | defect d => exact congrArg (fun d => failed (.defect d)) d.reword_none
    | _ => rfl
  | panicked d => exact congrArg panicked d.reword_none
  | _ => rfl

theorem Note.reword_none (note : Note) : note.reword .none = note := by
  cases note with
  | event e =>
    cases e with
    | defectMet d => exact congrArg (fun d => event (.defectMet d)) d.reword_none
    | seriesBuilt axes columns =>
      exact congrArg (fun columns => event (.seriesBuilt axes columns)) columns.map_id'
    | _ => rfl
  | offered leaf statement => exact congrArg (offered leaf) statement.reword_none
  | defect d => exact congrArg defect d.reword_none
  | _ => rfl

/-- The surroundings agree on what the statement names. -/
structure Environment.AgreeOn (env env' : Environment) (statement : Node) : Prop where
  settings : env'.settings = env.settings
  declines : env'.declines = env.declines
  tables : ∀ table ∈ statement.tables, env'.columns? table = env.columns? table
  functions : ∀ name ∈ statement.functions,
    env'.routing name = env.routing name ∧ env'.calls name = env.calls name
  operators : ∀ name ∈ statement.operators, env'.calls name = env.calls name

/-- The changes to symbols and tables that the statement does not name. -/
inductive Unrelated (statement : Node) : Registry × Catalog → Registry × Catalog → Prop
  /-- A table comes, goes or gets other columns. -/
  | table {symbols : Registry} {catalog catalog' : Catalog} {table : String}
      (unnamed : table ∉ statement.tables)
      (others : ∀ other, other ≠ table → catalog'.columns? other = catalog.columns? other) :
      Unrelated statement (symbols, catalog) (symbols, catalog')
  | registered {symbols : Registry} {catalog : Catalog} {symbol : Symbol}
      (unnamed : ∀ name ∈ statement.functions ++ statement.operators, symbol.name ≠ foldCase name) :
      Unrelated statement (symbols, catalog) (symbols.register symbol, catalog)
  | deregistered {symbols : Registry} {catalog : Catalog} {name : String}
      (unnamed : ∀ other ∈ statement.functions ++ statement.operators, foldCase other ≠ foldCase name) :
      Unrelated statement (symbols, catalog) (symbols.deregister name, catalog)

namespace Planning

variable {env env' : Environment} {statement : Node}

/-- Under the same names, what a node of the statement names is known. -/
theorem known_of_agree (agree : env.AgreeOn env' statement) : statement.AllKnown .none env env' := by
  intro m part
  constructor
  case routed => exact fun call name named => (agree.functions name (Node.mem_functions part call named)).1
  case called =>
    intro name callee
    unfold Node.callee? at callee
    split at callee
    · rename_i call
      exact (agree.functions name (Node.mem_functions part call callee)).2
    · rename_i op kind
      obtain rfl := Option.some.inj callee
      exact agree.operators _ (Node.mem_operators part kind)
    · cases callee
  case sourced => exact fun kind table named => agree.tables table (Node.mem_tables part kind named)
  case located =>
    intro table columns _ _
    rw [Node.reword_none]
  case kept => exact fun _ _ => m.reword_none

theorem eq_of_runs {x y : Run Plan} (runs : (rewording .none env env').Runs (Plan.Alike .none) x y) :
    y = x := by
  refine Run.ext ?_ ?_
  · have notes : List.Forall₂ Eq x.notes y.notes := runs.notes.imp fun note note' same => by
      rw [← note.reword_none, ← note'.reword_none]
      exact same
    exact (List.forall₂_eq_eq_eq ▸ notes).symm
  · obtain ⟨stop, stop', left, right, same⟩ | ⟨p, q, left, right, same⟩ := runs.result.ends
    · rw [left, right, ← stop.reword_none, ← stop'.reword_none, same]
    · rw [left, right, ← p.mapColumns_self, ← q.mapColumns_self]
      exact congrArg Except.ok same.symm

theorem runs_of_agree (agree : env.AgreeOn env' statement) :
    plan env' statement = plan env statement ∧ buildPlan env' statement = buildPlan env statement := by
  have same : env.SameButLookups env' := ⟨agree.settings, agree.declines⟩
  have known := known_of_agree agree
  have raw := plan_reword same known
  have entry := buildPlan_reword same known
  rw [Node.reword_none] at raw entry
  exact ⟨eq_of_runs raw, eq_of_runs entry⟩

/-- One change to what the statement does not name leaves what it names. -/
theorem agree_of_unrelated {before after : Registry × Catalog}
    (change : Unrelated statement before after)
    (settings : Settings) : (Environment.ofRegistry settings before.1 before.2).AgreeOn
      (.ofRegistry settings after.1 after.2) statement := by
  have named : ∀ {symbols symbols' : Registry} {catalog : Catalog},
      (∀ name ∈ statement.functions ++ statement.operators, symbols'.lookup name = symbols.lookup name) →
        (Environment.ofRegistry settings symbols catalog).AgreeOn (.ofRegistry settings symbols' catalog)
          statement := by
    intro symbols symbols' catalog same
    rw [List.forall_mem_append] at same
    exact ⟨rfl, rfl, fun _ _ => rfl, fun name mem => ⟨same.1 name mem, same.1 name mem⟩, same.2⟩
  cases change with
  | table unnamed others =>
    refine ⟨rfl, rfl, fun table mem => others table ?_, fun _ _ => ⟨rfl, rfl⟩, fun _ _ => rfl⟩
    rintro rfl
    exact unnamed mem
  | registered unnamed => exact named fun name mem => Registry.lookup_register_other _ (unnamed name mem)
  | deregistered unnamed => exact named fun name mem => Registry.lookup_deregister_other _ (unnamed name mem)

/-- Planning depends on nothing but what the statement names. -/
structure ReadsOnlyNamed (statement : Node) : Prop where
  /-- Surroundings that agree on this make the same run, to the same plan or the same error. -/
  surroundings : ∀ {env env' : Environment}, env.AgreeOn env' statement →
    plan env' statement = plan env statement ∧ buildPlan env' statement = buildPlan env statement
  /-- So do symbols and tables after any changes to others. -/
  changes : ∀ {before after : Registry × Catalog} (settings : Settings),
    Relation.ReflTransGen (Unrelated statement) before after →
      buildPlan (.ofRegistry settings after.1 after.2) statement =
        buildPlan (.ofRegistry settings before.1 before.2) statement

/-- Rewriting a statement adds no table, function or operator to what it names, so planning looks up
nothing else. -/
theorem mentions_determine_planning (statement : Node) : ReadsOnlyNamed statement := by
  refine ⟨runs_of_agree, fun settings changes => ?_⟩
  induction changes with
  | refl => rfl
  | tail _ change ih => exact (runs_of_agree (agree_of_unrelated change settings)).2.trans ih

/-- Another table and another function, and one function less. -/
theorem mentions_determine_planning_sales :
    (buildPlan (.ofRegistry {} ((Registry.builtins.register (.aggregate "median" 64)).deregister "max")
      (Catalog.register (Catalog.register {} "sales" ["city", "total", "tax"]) "stock" ["city"]))
      salesByNet).result = .ok salesByNetPlan := by
  have planned : (buildPlan salesEnvironment salesByNet).result = .ok salesByNetPlan := by decide +kernel
  have unnamed : "stock" ∉ salesByNet.tables := by decide +kernel
  have changes : Relation.ReflTransGen (Unrelated salesByNet)
      (Registry.builtins, Catalog.register {} "sales" ["city", "total", "tax"])
      ((Registry.builtins.register (.aggregate "median" 64)).deregister "max",
        Catalog.register (Catalog.register {} "sales" ["city", "total", "tax"]) "stock" ["city"]) := by
    refine .tail (.tail (.tail .refl (.table unnamed ?_)) (.registered ?_)) (.deregistered ?_)
    · exact fun other differs => Catalog.columns?_register_other _ _ differs
    · decide +kernel
    · decide +kernel
  rw [(mentions_determine_planning salesByNet).changes {} changes]
  exact planned

end Planning

end StatementPlan
