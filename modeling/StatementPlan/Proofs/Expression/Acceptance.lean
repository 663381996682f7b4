/-
Which assembled expressions can be bound: those that name columns of the table.  Which of them
compile then: those all of whose calls name a symbol.  What they cost is up to these calls alone,
since operators are scalars.

`exists_placed_columns`: a tree can be bound if its column names are names of columns.
`compileNode_built`: an assembled expression compiles if its calls are known, for what they cost.
`callsAggregate_known`: the search for an aggregate call ends where all calls are known.
-/
import StatementPlan.Proofs.Aggregation
import StatementPlan.Proofs.Expression.Charges
import StatementPlan.Proofs.Tree.Built

namespace StatementPlan

/-- Every column name among the nodes is that of a column, exactly or up to ASCII case. -/
def ColumnsIn (columns : List String) (parts : List Node) : Prop :=
  ∀ c ∈ parts, c.kind = .columnName →
    ∃ column ∈ columns, column = c.columnText ∨ sameName column c.columnText = true

theorem columnsIn_append {columns : List String} {parts more : List Node} :
    ColumnsIn columns (parts ++ more) ↔ ColumnsIn columns parts ∧ ColumnsIn columns more :=
  List.forall_mem_append

theorem columnsIn_nil {parts : List Node} :
    ColumnsIn [] parts ↔ ∀ n ∈ parts, n.kind ≠ .columnName := by
  simp [ColumnsIn]

theorem exists_namedBy_iff {columns : List String} {r : Node} :
    (∃ i, NamedBy columns r i) ↔
      ∃ column ∈ columns, column = r.columnText ∨ sameName column r.columnText = true := by
  simp only [NamedBy, Columns.exists_position_iff]
  refine exists_congr fun column => and_congr_right fun _ => ⟨.inr, ?_⟩
  rintro (rfl | same)
  · exact sameName_iff.2 rfl
  · exact same

theorem exists_placed_columns {columns : List String} {n : Node} (bare : n.BareNames) :
    (∃ m, Placed (NamedBy columns) n m) ↔ ColumnsIn columns n.subtrees := by
  simp only [exists_placed_iff, exists_namedBy_iff, bare.mem_references_iff, ColumnsIn, and_imp]

/-- All operators are scalars of the table. -/
def SymbolTable.ScalarOperators (table : SymbolTable) : Prop :=
  ∀ op : Operator, ∃ s, table op.symbol = some s ∧ s.isAggregate = false

theorem Registry.builtins_scalarOperators : SymbolTable.ScalarOperators builtins.lookup := by
  have each : ∀ op ∈ Operator.all, (builtins.lookup op.symbol).map Symbol.isAggregate = some false := by
    decide +kernel
  exact fun op => Option.map_eq_some_iff.1 (each op op.mem_all)

/-- All calls among the nodes name a symbol. -/
def CallsKnown (table : SymbolTable) (parts : List Node) : Prop :=
  ∀ n ∈ parts, n.kind = .methodCall → (n.text?.bind table).isSome = true

instance (table : SymbolTable) (parts : List Node) : Decidable (CallsKnown table parts) :=
  inferInstanceAs (Decidable (∀ n ∈ parts, _))

/-- The bytes of state of the symbol that a call names. -/
def callBytes (table : SymbolTable) (n : Node) : Nat :=
  if n.kind = .methodCall then (n.text?.bind table).elim 0 Symbol.scratchpad else 0

/-- The bytes of state of all calls among the nodes. -/
def bytesOf (table : SymbolTable) (parts : List Node) : Nat := (parts.map (callBytes table)).sum

variable {table : SymbolTable} {parts more : List Node}

@[simp] theorem bytesOf_nil : bytesOf table [] = 0 := rfl

@[simp] theorem bytesOf_cons (n : Node) :
    bytesOf table (n :: parts) = callBytes table n + bytesOf table parts := by
  simp [bytesOf]

@[simp] theorem bytesOf_append :
    bytesOf table (parts ++ more) = bytesOf table parts + bytesOf table more := by
  simp [bytesOf]

theorem callsKnown_append :
    CallsKnown table (parts ++ more) ↔ CallsKnown table parts ∧ CallsKnown table more :=
  List.forall_mem_append

theorem callsKnown_cons {n : Node} : CallsKnown table (n :: parts) ↔
    (n.kind = .methodCall → (n.text?.bind table).isSome = true) ∧ CallsKnown table parts :=
  List.forall_mem_cons

theorem bytesOf_eq_zero_iff : bytesOf table parts = 0 ↔ ∀ n ∈ parts, callBytes table n = 0 := by
  induction parts with
  | nil => simp
  | cons n rest ih => rw [bytesOf_cons, Nat.add_eq_zero_iff, ih, List.forall_mem_cons]

theorem callBytes_of_scalar {n : Node} (scalar : namesAggregate table n = false) :
    callBytes table n = 0 := by
  unfold callBytes
  split
  · rename_i call
    cases found : n.text?.bind table with
    | none => rfl
    | some s =>
      have kind : s.isAggregate = false := by simpa [namesAggregate, call, found] using scalar
      exact Symbol.scratchpad_eq_zero_of_scalar kind
  · rfl

theorem callBytes_eq_zero (sized : table.Sized) (n : Node) :
    callBytes table n = 0 ↔ namesAggregate table n = false := by
  refine ⟨fun none => ?_, callBytes_of_scalar⟩
  unfold callBytes at none
  unfold namesAggregate
  by_cases call : n.kind = .methodCall
  · cases found : n.text?.bind table with
    | none => simp
    | some s =>
      obtain ⟨name, _, found'⟩ := Option.bind_eq_some_iff.1 found
      rw [if_pos call, found] at none
      cases aggregate : s.isAggregate with
      | false => simp [aggregate]
      | true => exact absurd none (sized name s found' aggregate)
  · simp [call]

/-- One of the nodes calls an aggregate. -/
def Aggregates (table : SymbolTable) (parts : List Node) : Prop :=
  ∃ n ∈ parts, namesAggregate table n = true

instance : Decidable (Aggregates table parts) := inferInstanceAs (Decidable (∃ n ∈ parts, _))

theorem bytesOf_scalar (quiet : ¬Aggregates table parts) : bytesOf table parts = 0 :=
  bytesOf_eq_zero_iff.2 fun n mem =>
    callBytes_of_scalar (Bool.eq_false_iff.2 fun aggregate => quiet ⟨n, mem, aggregate⟩)

theorem bytesOf_eq_zero (sized : table.Sized) : bytesOf table parts = 0 ↔ ¬Aggregates table parts := by
  simp [bytesOf_eq_zero_iff, callBytes_eq_zero sized, Aggregates]

namespace Compile

/-- The computation succeeds if the calls among the nodes are known, and as long as sizes allow, and
adds their bytes. -/
structure Costs (table : SymbolTable) (parts : List Node) (f : Nat → Except Stop (α × Nat)) : Prop where
  sound {used total : Nat} {a : α} : f used = .ok (a, total) →
    CallsKnown table parts ∧ total = used + bytesOf table parts
  complete : CallsKnown table parts → ∀ used, used + bytesOf table parts < Numeral.sizeLimit →
    ∃ a, f used = .ok (a, used + bytesOf table parts)

namespace Costs

variable {f : Nat → Except Stop (α × Nat)} {g : Nat → Except Stop (β × Nat)}

theorem pure (a : α) (free : ∀ n ∈ parts, n.kind ≠ .methodCall) :
    Costs table parts fun used => .ok (a, used) := by
  have nothing : bytesOf table parts = 0 := bytesOf_eq_zero_iff.2 fun n mem => if_neg (free n mem)
  refine ⟨fun done => ?_, fun _ used _ => ⟨a, by rw [nothing]; rfl⟩⟩
  simp only [Except.ok.injEq, Prod.mk.injEq] at done
  rw [nothing]
  exact ⟨fun n mem call => absurd call (free n mem), done.2.symm⟩

theorem seq (h : Costs table parts f) (h' : Costs table more g) (both : α → β → γ) :
    Costs table (parts ++ more) fun used => do
      let (a, used) ← f used
      let (b, used) ← g used
      return (both a b, used) := by
  constructor
  · intro used total c done
    simp only [bind_eq_ok_iff] at done
    obtain ⟨⟨a, between⟩, first, ⟨b, last⟩, second, done⟩ := done
    obtain ⟨known, rfl⟩ := h.sound first
    obtain ⟨known', rfl⟩ := h'.sound second
    obtain ⟨_, rfl⟩ := Prod.mk.inj (Except.ok.inj done)
    exact ⟨callsKnown_append.2 ⟨known, known'⟩, by rw [bytesOf_append, Nat.add_assoc]⟩
  · intro known used fits
    obtain ⟨known, known'⟩ := callsKnown_append.1 known
    rw [bytesOf_append] at fits ⊢
    obtain ⟨a, first⟩ := h.complete known used (by omega)
    obtain ⟨b, second⟩ := h'.complete known' (used + bytesOf table parts) (by omega)
    refine ⟨both a b, ?_⟩
    simp only [first, second, ok_bind, Nat.add_assoc]
    rfl

theorem call {f : Nat → Except Stop (List Expr × Nat)} (h : Costs table parts f) {n : Node}
    (name : String) (known : CallsKnown table [n] ↔ (table name).isSome = true)
    (price : ∀ s, table name = some s → callBytes table n = s.scratchpad) :
    Costs table (n :: parts) fun used => do
      let symbol ← symbolOf table name
      let (args, used) ← f used
      let used ← charge used symbol
      return (Expr.call symbol.name symbol.isAggregate args, used) := by
  have both : CallsKnown table (n :: parts) ↔ (table name).isSome = true ∧ CallsKnown table parts := by
    rw [← known]
    exact @callsKnown_append table [n] parts
  constructor
  · intro used total e done
    simp only [bind_eq_ok_iff, symbolOf_eq_ok] at done
    obtain ⟨symbol, found, ⟨args, between⟩, below, last, paid, done⟩ := done
    obtain ⟨known', rfl⟩ := h.sound below
    obtain ⟨rfl, _⟩ := charge_eq_ok paid
    obtain ⟨_, rfl⟩ := Prod.mk.inj (Except.ok.inj done)
    refine ⟨both.2 ⟨by rw [found]; rfl, known'⟩, ?_⟩
    rw [bytesOf_cons, price symbol found]
    omega
  · intro known' used fits
    obtain ⟨some', known'⟩ := both.1 known'
    obtain ⟨symbol, found⟩ := Option.isSome_iff_exists.1 some'
    rw [bytesOf_cons, price symbol found] at fits ⊢
    obtain ⟨args, below⟩ := h.complete known' used (by omega)
    have paid : charge (used + bytesOf table parts) symbol =
        .ok (used + bytesOf table parts + symbol.scratchpad) := if_pos (by omega)
    refine ⟨.call symbol.name symbol.isAggregate args, ?_⟩
    simp only [symbolOf_eq_ok.2 found, below, paid, ok_bind]
    rw [Nat.add_comm symbol.scratchpad, ← Nat.add_assoc]
    rfl

/-- Other nodes around are of no account unless they are calls. -/
theorem around (h : Costs table parts f) (before after : List Node)
    (free : ∀ n ∈ before ++ after, n.kind ≠ .methodCall) :
    Costs table (before ++ parts ++ after) f := by
  obtain ⟨free, free'⟩ := List.forall_mem_append.1 free
  have nothing : ∀ {ns : List Node}, (∀ n ∈ ns, n.kind ≠ .methodCall) →
      CallsKnown table ns ∧ bytesOf table ns = 0 := fun free =>
    ⟨fun n mem call => absurd call (free n mem), bytesOf_eq_zero_iff.2 fun n mem => if_neg (free n mem)⟩
  have known : CallsKnown table (before ++ parts ++ after) ↔ CallsKnown table parts := by
    simp [callsKnown_append, nothing free, nothing free']
  have bytes : bytesOf table (before ++ parts ++ after) = bytesOf table parts := by
    simp [nothing free, nothing free']
  refine ⟨fun done => ?_, fun known' used fits => ?_⟩
  · rw [known, bytes]
    exact h.sound done
  · rw [known] at known'
    rw [bytes] at fits ⊢
    exact h.complete known' used fits

theorem map (h : Costs table parts f) (g : α → β) :
    Costs table parts fun used => do
      let (a, used) ← f used
      return (g a, used) := by
  constructor
  · intro used total b done
    simp only [bind_eq_ok_iff] at done
    obtain ⟨⟨a, last⟩, below, done⟩ := done
    obtain ⟨_, rfl⟩ := Prod.mk.inj (Except.ok.inj done)
    exact h.sound below
  · intro known used fits
    obtain ⟨a, below⟩ := h.complete known used fits
    refine ⟨g a, ?_⟩
    simp only [below, ok_bind]
    rfl

end Costs

theorem compileAll_costs {ns ms : List Node}
    (each : List.Forall₂ (fun n m => Costs table n.subtrees (compileNode table m)) ns ms) :
    Costs table (Node.subtreesAll ns) (compileAll table ms) := by
  induction each with
  | nil => exact .pure [] (by simp [Node.subtreesAll])
  | cons first _ ih => exact first.seq ih List.cons

theorem compileNode_parts {m : Node} (kind : m.kind = .selectList ∨ m.kind = .groupBy)
    (h : Costs table parts (compileAll table m.children)) : Costs table parts (compileNode table m) := by
  cases m
  rcases kind with kind | kind
  all_goals
    simp only at kind
    subst kind
    exact h.map Expr.list

theorem compileNode_literal {token : Token} {value : Literal} (h : literal (some token) = .ok value)
    (used : Nat) : compileNode table (.ofToken .literal token) used = .ok (.literal value, used) := by
  simp only [Node.ofToken, compileNode, h]

theorem literal_costs {token : Token} (value : Literal) (h : literal (some token) = .ok value)
    {R : Node → Nat → Prop} {m : Node} (placed : Placed R (.ofToken .literal token) m) :
    Costs table (Node.ofToken .literal token).subtrees (compileNode table m) := by
  obtain rfl := placed.eq_self rfl
  have same : compileNode table (.ofToken .literal token) = fun used => .ok (.literal value, used) :=
    funext (compileNode_literal h)
  rw [same]
  exact .pure _ (by simp [Node.ofToken, Node.subtrees, Node.subtreesAll])

/-- An assembled expression compiles if its calls are known, for what they cost. -/
theorem compileNode_built (scalars : table.ScalarOperators) {R : Node → Nat → Prop} {n m : Node}
    (built : n.Built) (placed : Placed R n m) : Costs table n.subtrees (compileNode table m) := by
  induction built generalizing m with
  | column name =>
    cases placed with
    | column _ => exact .pure _ (by simp [Node.column, Node.ofToken, Node.subtrees, Node.subtreesAll])
    | inner other => exact absurd rfl other
  | int value =>
    refine literal_costs (.int64 value) ?_ placed
    simp only [Token.numeric, literal, Numeral.int64?_writeInt]
  | string value => exact literal_costs (.utf8 value) rfl placed
  | boolean value => cases value <;> exact literal_costs (.boolean _) rfl placed
  | call name _ ih =>
    cases placed with
    | column kind => cases kind
    | inner _ below =>
      have args := compileAll_costs (forall₂_imp_mem below fun a mem _ placed => ih a mem placed)
      refine args.call name ?_ fun s found => ?_
      · simp [CallsKnown, Node.text?, Token.identifier]
      · simp [callBytes, Node.text?, Token.identifier, found]
  | operator op token id _ ih =>
    cases placed with
    | column kind => cases kind
    | inner _ below =>
      have args := compileAll_costs (forall₂_imp_mem below fun a mem _ placed => ih a mem placed)
      obtain ⟨scalar, found, kind⟩ := scalars op
      refine args.call op.symbol ?_ fun s found' => ?_
      -- the node of an operator is no call, so it must be known and free by itself
      · simp [CallsKnown, found]
      · obtain rfl := Option.some.inj (found.symm.trans found')
        simp [callBytes, Symbol.scratchpad_eq_zero_of_scalar kind]

theorem compileNode_item (scalars : table.ScalarOperators) {R : Node → Nat → Prop} {item m : Node}
    (built : item.BuiltItem) (plain : item.kind ≠ .all) (placed : Placed R item m) :
    Costs table item.subtrees (compileNode table m) := by
  cases built with
  | all => exact absurd rfl plain
  | @derived expr built =>
    cases placed with
    | column kind => cases kind
    | inner _ below =>
      obtain ⟨m, _, first, rest, rfl⟩ := List.forall₂_cons_left_iff.1 below
      obtain rfl := List.forall₂_nil_left_iff.1 rest
      exact (compileNode_built scalars built first).around [.derived expr] []
        (by simp [Node.derived, Node.ofChildren])
  | @derivedAs expr built name =>
    cases placed with
    | column kind => cases kind
    | inner _ below =>
      obtain ⟨m, _, first, rest, rfl⟩ := List.forall₂_cons_left_iff.1 below
      exact (compileNode_built scalars built first).around [.derivedAs expr name]
        [.ofToken .columnAlias (.identifier name)]
        (by simp [Node.derivedAs, Node.ofChildren, Node.ofToken])

theorem compileAll_each {ns : List Node} {used total : Nat} {es : List Expr}
    (h : compileAll table ns used = .ok (es, total)) :
    ∀ n ∈ ns, ∃ used e total, compileNode table n used = .ok (e, total) := by
  induction ns generalizing used es with
  | nil => simp
  | cons n rest ih =>
    obtain ⟨e, between, others, first, below, _⟩ := compileAll_cons_eq_ok h
    exact List.forall_mem_cons.2 ⟨⟨used, e, between, first⟩, ih below⟩

/-- Where columns are still names nothing compiles but what has none. -/
theorem references_of_compiled {n : Node} (built : n.Built) {used total : Nat} {e : Expr}
    (h : compileNode table n used = .ok (e, total)) : n.references = [] := by
  induction built generalizing used e total with
  | column name => cases h
  | int | string | boolean => rfl
  | call name each ih =>
    obtain ⟨_, es, between, _, below, _⟩ := call_eq_ok h
    rw [Node.references_of_ne (by simp [Node.call]), Node.referencesAll_eq_flatMap,
      List.flatMap_eq_nil_iff]
    intro a mem
    obtain ⟨_, _, _, done⟩ := compileAll_each below a mem
    exact ih a mem done
  | operator op token id each ih =>
    obtain ⟨_, es, between, _, below, _⟩ := call_eq_ok h
    rw [Node.references_of_ne (by simp), Node.referencesAll_eq_flatMap, List.flatMap_eq_nil_iff]
    intro a mem
    obtain ⟨_, _, _, done⟩ := compileAll_each below a mem
    exact ih a mem done

theorem references_of_compiledItem {item : Node} (built : item.BuiltItem) {used total : Nat} {e : Expr}
    (h : compileNode table item used = .ok (e, total)) : item.references = [] := by
  cases built with
  | all => rfl
  | derived built =>
    have none := references_of_compiled built h
    simp [Node.derived, Node.ofChildren, Node.references, Node.referencesAll, none]
  | derivedAs built =>
    have none := references_of_compiled built h
    simp [Node.derivedAs, Node.ofChildren, Node.ofToken, Node.references, Node.referencesAll, none]

end Compile

open Compile in
theorem compile_succeeds_iff {m : Node} (h : Costs table parts (compileNode table m))
    (fits : bytesOf table parts < Numeral.sizeLimit) :
    (∃ c, compile table m = .ok c) ↔ CallsKnown table parts := by
  simp only [compile_eq_ok]
  constructor
  · rintro ⟨c, done⟩
    exact (h.sound done).1
  · intro known
    obtain ⟨e, done⟩ := h.complete known 0 (by omega)
    exact ⟨⟨e, _⟩, done⟩

/-- The calls among the nodes name symbols, and none that is an aggregate. -/
def ScalarCalls (table : SymbolTable) (parts : List Node) : Prop :=
  CallsKnown table parts ∧ ¬Aggregates table parts

open Compile in
theorem compile_scalar {m : Node} (h : Costs table parts (compileNode table m))
    (calls : ScalarCalls table parts) : ∃ c, compile table m = .ok c ∧ c.scratchpad = 0 := by
  have none := bytesOf_scalar calls.2
  obtain ⟨e, done⟩ := h.complete calls.1 0 (by rw [none]; decide)
  exact ⟨⟨e, _⟩, compile_eq_ok.2 done, by rw [none]⟩

open Compile in
theorem compile_stateless_iff (sized : table.Sized) {m : Node}
    (h : Costs table parts (compileNode table m)) :
    (∃ c, compile table m = .ok c ∧ c.scratchpad = 0) ↔ ScalarCalls table parts := by
  refine ⟨?_, compile_scalar h⟩
  rintro ⟨c, done, none⟩
  obtain ⟨known, total⟩ := h.sound (compile_eq_ok.1 done)
  exact ⟨known, (bytesOf_eq_zero sized).1 (by omega)⟩

/-- Where all calls are known the search for an aggregate call ends with an answer. -/
theorem callsAggregate_known (n : Node) (known : CallsKnown table n.subtrees) :
    callsAggregate table n = .ok (n.subtrees.any (namesAggregate table)) := by
  cases ended : callsAggregate table n with
  | error d =>
    obtain ⟨call, part, kind, fault⟩ := exists_verdict ended (by simp)
    have unknown : Faulty table call := faulty_iff.2 ⟨d, fault⟩
    have found := known call part kind
    rw [unknown] at found
    cases found
  | ok found =>
    cases found with
    | true =>
      obtain ⟨call, part, kind, told⟩ := exists_verdict ended (by simp)
      rw [List.any_eq_true.2 ⟨call, part, namesAggregate_iff.2 ⟨kind, told⟩⟩]
    | false =>
      rw [List.any_eq_false.2 fun call part named => ?_]
      obtain ⟨kind, told⟩ := namesAggregate_iff.1 named
      rw [callsAggregate_eq_false.1 ended call (mem_callsAmong.2 ⟨part, kind⟩)] at told
      cases told

end StatementPlan
