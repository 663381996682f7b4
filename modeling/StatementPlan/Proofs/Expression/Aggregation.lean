/-
Two answers to whether an expression aggregates: the search for an aggregate call in the tree as it
was written, and what the tree compiles to once its columns have positions.  The search looks below
every node, also where compiling never goes, and takes an operator for no call at all.  Both agree
where columns, constants and aliases are leaves and no operator is an aggregate.

`compileNode_agrees`: what compiles has the aggregate calls of the tree that was placed.
`callsAggregate_iff_compiled`: the search finds an aggregate call exactly if the compiled tree has
one.
-/
import StatementPlan.Proofs.Expression.Acceptance

namespace StatementPlan

/-- No operator is an aggregate. -/
def SymbolTable.NoAggregateOperators (table : SymbolTable) : Prop :=
  ∀ (op : Operator) (s : Symbol), table op.symbol = some s → s.isAggregate = false

theorem SymbolTable.ScalarOperators.noAggregate {table : SymbolTable}
    (scalars : table.ScalarOperators) : table.NoAggregateOperators := by
  intro op s found
  obtain ⟨s', found', scalar⟩ := scalars op
  obtain rfl := Option.some.inj (found.symm.trans found')
  exact scalar

namespace Node

/-- A column, constant or alias has no children, an item nothing but aliases after its expression. -/
def regular (n : Node) : Bool :=
  match n.kind with
  | .columnName | .resolvedColumn | .literal | .columnAlias => n.children.isEmpty
  | .derivedColumn => n.children.tail.all fun c => c.kind == .columnAlias
  | _ => true

/-- All nodes of the tree are regular. -/
def Regular (n : Node) : Prop := ∀ m ∈ n.subtrees, m.regular = true

instance (n : Node) : Decidable n.Regular := inferInstanceAs (Decidable (∀ m ∈ n.subtrees, _))

variable {n c : Node}

theorem Regular.self (h : n.Regular) : n.regular = true := h n n.self_mem_subtrees

theorem Regular.child (h : n.Regular) (mem : c ∈ n.children) : c.Regular :=
  fun m part => h m (subtrees_child mem part)

theorem subtrees_of_leaf (leaf : n.children = []) : n.subtrees = [n] := by
  cases n
  simp only at leaf
  subst leaf
  rfl

theorem Regular.leaf (h : n.Regular)
    (kind : n.kind = .columnName ∨ n.kind = .resolvedColumn ∨ n.kind = .literal ∨ n.kind = .columnAlias) :
    n.subtrees = [n] := by
  refine subtrees_of_leaf (List.isEmpty_iff.1 ?_)
  have self := h.self
  unfold regular at self
  rcases kind with kind | kind | kind | kind
  all_goals rwa [kind] at self

/-- After the expression of an item there is nothing below but aliases. -/
theorem Regular.after (h : n.Regular) (item : n.kind = .derivedColumn) :
    ∀ m ∈ subtreesAll n.children.tail, m.kind = .columnAlias := by
  have aliases : n.children.tail.all (fun c => c.kind == .columnAlias) = true := by
    have self := h.self
    unfold regular at self
    rwa [item] at self
  intro m part
  obtain ⟨c, mem, part⟩ := mem_subtreesAll.1 part
  have kind : c.kind = .columnAlias := by simpa using List.all_eq_true.1 aliases c mem
  rw [(h.child (List.mem_of_mem_tail mem)).leaf (by simp [kind]), List.mem_singleton] at part
  exact part ▸ kind

end Node

/-- The calls among the nodes are known, and one of them is of an aggregate exactly if there is a
name. -/
structure Agrees (table : SymbolTable) (parts : List Node) (names : List String) : Prop where
  known : CallsKnown table parts
  aggregates : Aggregates table parts ↔ names ≠ []

variable {table : SymbolTable} {R : Node → Nat → Prop}

namespace Agrees

variable {parts more : List Node} {names names' : List String} {n : Node}

theorem none (free : ∀ n ∈ parts, n.kind ≠ .methodCall) : Agrees table parts [] := by
  refine ⟨fun n mem call => absurd call (free n mem), ?_⟩
  constructor
  · rintro ⟨n, mem, named⟩
    simp [namesAggregate, free n mem] at named
  · exact fun some => absurd rfl some

theorem append (h : Agrees table parts names) (h' : Agrees table more names') :
    Agrees table (parts ++ more) (names ++ names') := by
  refine ⟨callsKnown_append.2 ⟨h.known, h'.known⟩, ?_⟩
  rw [ne_eq, List.append_eq_nil_iff, not_and_or, ← ne_eq, ← ne_eq, ← h.aggregates, ← h'.aggregates]
  simp only [Aggregates, List.mem_append, or_and_right, exists_or]

theorem cons_other (h : Agrees table parts names) (other : n.kind ≠ .methodCall) :
    Agrees table (n :: parts) names :=
  @append table [n] parts [] names (.none fun _ mem => List.mem_singleton.1 mem ▸ other) h

theorem call {s : Symbol} (h : Agrees table parts names) (kind : n.kind = .methodCall)
    (found : n.text?.bind table = some s) :
    Agrees table (n :: parts) (names ++ if s.isAggregate then [s.name] else []) := by
  refine ⟨callsKnown_cons.2 ⟨fun _ => by rw [found]; rfl, h.known⟩, ?_⟩
  have named : namesAggregate table n = s.isAggregate := by simp [namesAggregate, kind, found]
  simp only [Aggregates, List.exists_mem_cons_iff, named]
  cases s.isAggregate with
  | true => simp
  | false => simpa [Aggregates] using h.aggregates

theorem searched (h : Agrees table n.subtrees names) :
    ∃ found, callsAggregate table n = .ok found ∧ (found = true ↔ names ≠ []) := by
  refine ⟨_, callsAggregate_known n h.known, ?_⟩
  rw [List.any_eq_true, ← h.aggregates, Aggregates]

end Agrees

namespace Compile

/-- What the placed tree compiles to has an aggregate call exactly if the tree has. -/
def AgreesPlaced (table : SymbolTable) (R : Node → Nat → Prop) (n : Node) : Prop :=
  ∀ {m : Node} {used total : Nat} {e : Expr}, Placed R n m → compileNode table m used = .ok (e, total) →
    Agrees table n.subtrees e.aggregates

theorem compileAll_agrees {ns ms : List Node} (each : ∀ n ∈ ns, AgreesPlaced table R n)
    (placed : List.Forall₂ (Placed R) ns ms) {used total : Nat} {es : List Expr}
    (h : compileAll table ms used = .ok (es, total)) :
    Agrees table (Node.subtreesAll ns) (Expr.aggregatesAll es) := by
  induction placed generalizing used es total with
  | nil =>
    obtain ⟨rfl, _⟩ := Prod.mk.inj (Except.ok.inj h)
    exact .none nofun
  | cons first _ ih =>
    obtain ⟨e, between, others, here, below, rfl⟩ := compileAll_cons_eq_ok h
    exact (each _ (by simp) first here).append (ih (fun n mem => each n (by simp [mem])) below)

theorem compileNode_agrees (operators : table.NoAggregateOperators) {n : Node} (regular : n.Regular) :
    AgreesPlaced table R n := by
  refine Node.induct (motive := fun n => n.Regular → AgreesPlaced table R n) ?_ n regular
  intro n ih regular m used total e placed h
  cases placed with
  | column kind _ =>
    rw [compileNode_resolveTo] at h
    obtain ⟨rfl, _⟩ := Prod.mk.inj (Except.ok.inj h)
    rw [regular.leaf (.inl kind)]
    exact .none (by simp [kind])
  | @inner kind token children placed id other below =>
    have each : ∀ c ∈ children, AgreesPlaced table R c := fun c mem => ih c mem (regular.child mem)
    cases kind with
    | columnName => exact absurd rfl other
    | selectList | groupBy =>
      obtain ⟨es, items, rfl⟩ := list_eq_ok h
      exact (compileAll_agrees each below items).cons_other nofun
    | methodCall =>
      cases token with
      | none => cases h
      | some token =>
        obtain ⟨symbol, es, between, found, args, paid, rfl⟩ := call_eq_ok h
        exact (compileAll_agrees each below args).call rfl found
    | operator op =>
      obtain ⟨symbol, es, between, found, args, paid, rfl⟩ := call_eq_ok h
      rw [Expr.aggregates, operators op symbol found, if_neg Bool.false_ne_true, List.append_nil]
      exact (compileAll_agrees each below args).cons_other nofun
    | derivedColumn =>
      cases below with
      | nil => cases h
      | @cons expr _ rest _ first _ =>
        -- only the search looks at what follows the expression
        have aliases : Agrees table (Node.subtreesAll rest) [] :=
          .none fun m part => by simp [regular.after rfl m part]
        have item := (each expr (by simp) first h).append aliases
        rw [List.append_nil] at item
        exact item.cons_other nofun
    | literal =>
      obtain ⟨value, _, rfl, _⟩ := literal_eq_ok h
      rw [regular.leaf (by simp)]
      exact .none (by simp)
    | resolvedColumn =>
      obtain ⟨position, _, rfl, _⟩ := resolved_eq_ok h
      rw [regular.leaf (by simp)]
      exact .none (by simp)
    | _ => cases h

end Compile

/-- If a tree compiles once its columns are placed, the search for an aggregate call in it ends, and
finds one exactly if the compiled expression has one; where all aggregates keep state, exactly if it
keeps some. -/
theorem callsAggregate_iff_compiled (operators : table.NoAggregateOperators) {n m : Node}
    (regular : n.Regular) (placed : Placed R n m) {c : Compiled} (compiled : compile table m = .ok c) :
    ∃ found, callsAggregate table n = .ok found ∧ (found = true ↔ c.expr.aggregates ≠ []) ∧
      (table.Sized → (found = true ↔ c.scratchpad ≠ 0)) := by
  have agrees := Compile.compileNode_agrees operators regular placed (compile_eq_ok.1 compiled)
  obtain ⟨found, searched, some⟩ := agrees.searched
  refine ⟨found, searched, some, fun sized => ?_⟩
  rw [some, ne_eq, ne_eq, (compile_charged compiled).eq_nil_iff sized]

/-- SELECT region, 100 * round(sum(total)) AS share -/
def salesShares (region total : Node) : Node :=
  .ofChildren .selectList [.derived region,
    .derivedAs (.binary (.operator .mul) (.int 100) (.call "round" [.call "sum" [total]])) "share"]

def salesSharesCompiled : Compiled where
  expr := .list [.column 0,
    .call "mul" false [.literal (.int64 100), .call "round" false [.call "sum" true [.column 1]]]]
  scratchpad := 8

theorem callsAggregate_iff_compiled_sales :
    let table : SymbolTable := Registry.builtins.lookup
    let written := salesShares (.column "region") (.column "total")
    let bound := salesShares ((Node.column "region").resolveTo 0) ((Node.column "total").resolveTo 1)
    table.NoAggregateOperators ∧ written.Regular ∧ Placed (NamedBy ["region", "total"]) written bound ∧
      compile table bound = .ok salesSharesCompiled ∧ table.Sized ∧
        callsAggregate table written = .ok true ∧ salesSharesCompiled.scratchpad ≠ 0 := by
  intro table written bound
  have operators : table.NoAggregateOperators := Registry.builtins_scalarOperators.noAggregate
  have regular : written.Regular := by decide
  have placed : Placed (NamedBy ["region", "total"]) written bound :=
    (@bind_eq_ok_iff_placed "sales" ..).1 (by decide +kernel)
  have done : compile table bound = .ok salesSharesCompiled := by decide +kernel
  have sized : table.Sized := Registry.builtins_sized
  obtain ⟨found, searched, named, keeps⟩ := callsAggregate_iff_compiled operators regular placed done
  obtain rfl : found = true := named.2 (by decide)
  exact ⟨operators, regular, placed, done, sized, searched, (keeps sized).1 rfl⟩

/-- Below an alias the search finds a call of which the compiled tree knows nothing. -/
example :
    let name : Node := { kind := .columnAlias, token := some (.identifier "n"), children := [.call "sum" []] }
    let item : Node := .ofChildren .derivedColumn [.boolean true, name]
    callsAggregate Registry.builtins.lookup item = .ok true ∧
      compile Registry.builtins.lookup item = .ok ⟨.literal (.boolean true), 0⟩ := by
  decide +kernel

end StatementPlan
