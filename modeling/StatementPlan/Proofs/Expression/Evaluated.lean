/-
The nodes of a tree that its evaluation uses, and what compiling makes of them: each call is charged
for, and each constant becomes a literal.  Everything else in the tree, such as an alias or what is
below a column name, leaves no trace.

`Placed.evaluated`: placing keeps the evaluated nodes, apart from the columns.
`compile_charges`: a compiled tree has the bytes of each of its calls.
`compile_literals`: its literals are the readings of its constants, in their order.
-/
import StatementPlan.Proofs.Columns.Placement
import StatementPlan.Proofs.Expression.Placement
import StatementPlan.Proofs.Expression.Tally

namespace StatementPlan

namespace Node

mutual

/-- The nodes that a tree is evaluated by, each before those below it: all below a list or a call,
the expression of an item. -/
def evaluated : Node → List Node
  | ⟨.selectList, token, children, id⟩ => ⟨.selectList, token, children, id⟩ :: evaluatedAll children
  | ⟨.groupBy, token, children, id⟩ => ⟨.groupBy, token, children, id⟩ :: evaluatedAll children
  | ⟨.methodCall, token, args, id⟩ => ⟨.methodCall, token, args, id⟩ :: evaluatedAll args
  | ⟨.operator op, token, args, id⟩ => ⟨.operator op, token, args, id⟩ :: evaluatedAll args
  | ⟨.derivedColumn, token, expr :: rest, id⟩ =>
    ⟨.derivedColumn, token, expr :: rest, id⟩ :: evaluated expr
  | n => [n]

def evaluatedAll : List Node → List Node
  | [] => []
  | c :: rest => evaluated c ++ evaluatedAll rest

end

/-- The name of the function that a node calls. -/
def callee? (n : Node) : Option String :=
  match n.kind with
  | .methodCall => n.text?
  | .operator op => some op.symbol
  | _ => none

/-- The token of a constant. -/
def constant? (n : Node) : Option Token := if n.kind = .literal then n.token else none

/-- The names of the functions that a tree calls. -/
def callees (n : Node) : List String := n.evaluated.filterMap callee?

/-- The constants of a tree. -/
def constants (n : Node) : List Token := n.evaluated.filterMap constant?

/-- The nodes call the same function and are the same constant, if they do or are. -/
def SameUse (n m : Node) : Prop := n.callee? = m.callee? ∧ n.constant? = m.constant?

theorem evaluatedAll_eq_flatMap (ns : List Node) : evaluatedAll ns = ns.flatMap evaluated := by
  induction ns with
  | nil => rfl
  | cons c rest ih => simp [evaluatedAll, ih]

theorem evaluatedAll_sameUse {P : Node → Node → Prop} {ns ms : List Node} (h : List.Forall₂ P ns ms)
    (each : ∀ n ∈ ns, ∀ m, P n m → List.Forall₂ SameUse n.evaluated m.evaluated) :
    List.Forall₂ SameUse (evaluatedAll ns) (evaluatedAll ms) := by
  induction h with
  | nil => exact .nil
  | cons first _ ih =>
    exact List.rel_append (each _ (by simp) _ first) (ih fun n mem => each n (by simp [mem]))

end Node

theorem Placed.evaluated {R : Node → Nat → Prop} {n m : Node} (h : Placed R n m) :
    List.Forall₂ Node.SameUse n.evaluated m.evaluated := by
  refine Node.induct (motive := fun n => ∀ m, Placed R n m →
    List.Forall₂ Node.SameUse n.evaluated m.evaluated) ?_ n m h
  intro n ih m h
  cases h with
  | column kind =>
    obtain ⟨_, token, children, id⟩ := n
    simp only at kind
    subst kind
    exact .cons ⟨rfl, rfl⟩ .nil
  | @inner kind token children placed id other below =>
    have all := Node.evaluatedAll_sameUse below ih
    cases kind with
    | selectList | groupBy | methodCall | operator => exact .cons ⟨rfl, rfl⟩ all
    | derivedColumn =>
      cases below with
      | nil => exact .cons ⟨rfl, rfl⟩ .nil
      | cons first _ => exact .cons ⟨rfl, rfl⟩ (ih _ (by simp) _ first)
    | _ => exact .cons ⟨rfl, rfl⟩ .nil

theorem filterMap_of_forall₂ {f : α → Option β} {as bs : List α}
    (h : List.Forall₂ (fun a b => f a = f b) as bs) : as.filterMap f = bs.filterMap f := by
  induction h with
  | nil => rfl
  | cons first _ ih => rw [List.filterMap_cons, List.filterMap_cons, first, ih]

theorem Placed.callees {R : Node → Nat → Prop} {n m : Node} (h : Placed R n m) :
    n.callees = m.callees :=
  filterMap_of_forall₂ (h.evaluated.imp fun _ _ same => same.1)

theorem Placed.constants {R : Node → Nat → Prop} {n m : Node} (h : Placed R n m) :
    n.constants = m.constants :=
  filterMap_of_forall₂ (h.evaluated.imp fun _ _ same => same.2)

namespace Compile

variable {table : SymbolTable}

/-- The symbols of all calls are charged. -/
def ChargesCalls (table : SymbolTable) (names : List String) (t : Tally) : Prop :=
  t.whole = true → ∀ name ∈ names, ∃ s ∈ t.symbols, table name = some s

theorem tallyAll_charges {ns : List Node} (each : ∀ n ∈ ns, ChargesCalls table n.callees (tally table n)) :
    ChargesCalls table ((Node.evaluatedAll ns).filterMap Node.callee?) (tallyAll table ns) := by
  induction ns with
  | nil => exact fun _ => nofun
  | cons n rest ih =>
    intro whole name mem
    rw [tallyAll] at whole ⊢
    cases first : (tally table n).whole with
    | false =>
      rw [Tally.andThen_partly first, first] at whole
      cases whole
    | true =>
      rw [Tally.andThen_whole first] at whole ⊢
      rw [Node.evaluatedAll, List.filterMap_append, List.mem_append] at mem
      rcases mem with here | below
      · obtain ⟨s, charged, found⟩ := each n (by simp) first name here
        exact ⟨s, List.mem_append_left _ charged, found⟩
      · obtain ⟨s, charged, found⟩ := ih (fun m mem => each m (by simp [mem])) whole name below
        exact ⟨s, List.mem_append_right _ charged, found⟩

theorem call_charges {names : List String} {t : Tally} (h : ChargesCalls table names t)
    (callee : String) : ChargesCalls table (callee :: names) (.call (table callee) t) := by
  intro whole name mem
  cases found : table callee with
  | none =>
    rw [found] at whole
    cases whole
  | some s =>
    rw [found, Tally.call] at whole
    cases args : t.whole with
    | false =>
      rw [Tally.andThen_partly args, args] at whole
      cases whole
    | true =>
      rw [Tally.call, Tally.andThen_whole args]
      rcases List.mem_cons.1 mem with rfl | below
      · exact ⟨s, by simp, found⟩
      · obtain ⟨s', charged, found'⟩ := h args name below
        exact ⟨s', List.mem_append_left _ charged, found'⟩

theorem tally_charges (table : SymbolTable) (n : Node) :
    ChargesCalls table n.callees (tally table n) := by
  refine Node.induct (motive := fun n => ChargesCalls table n.callees (tally table n)) ?_ n
  intro n ih
  obtain ⟨kind, token, children, id⟩ := n
  have below := tallyAll_charges ih
  cases kind with
  | selectList => exact below
  | groupBy => exact below
  | derivedColumn =>
    cases children with
    | nil => exact nofun
    | cons expr rest => exact ih expr (by simp)
  | methodCall =>
    cases token with
    | none => exact nofun
    | some token => exact call_charges below token.text
  | operator op => exact call_charges below op.symbol
  | _ => exact fun _ => nofun

end Compile

/-- A compiled tree has the bytes of each of its calls. -/
theorem compile_charges {table : SymbolTable} {n : Node} {c : Compiled} (h : compile table n = .ok c)
    {name : String} (mem : name ∈ n.callees) :
    ∃ s, table name = some s ∧ s.scratchpad ≤ c.scratchpad := by
  have outcome := compile_outcome table n
  rw [h] at outcome
  cases outcome with
  | done whole _ _ exact =>
    obtain ⟨s, charged, found⟩ := Compile.tally_charges table n whole name mem
    refine ⟨s, found, ?_⟩
    obtain ⟨before, after, split⟩ := List.append_of_mem charged
    rw [exact, Compile.Tally.bytes, split, List.map_append, List.map_cons, List.sum_append, List.sum_cons]
    omega

namespace Expr

mutual

/-- The literals of an expression, in their order. -/
def literals : Expr → List Literal
  | .literal value => [value]
  | .column _ => []
  | .call _ _ args => literalsAll args
  | .list items => literalsAll items

def literalsAll : List Expr → List Literal
  | [] => []
  | e :: rest => literals e ++ literalsAll rest

end

end Expr

/-- The literal is what the token of a constant stands for. -/
def Token.Denotes (token : Token) (value : Literal) : Prop := Compile.literal (some token) = .ok value

namespace Compile

/-- The literals are the readings of the constants. -/
def ReadsConstants (table : SymbolTable) (n : Node) : Prop :=
  ∀ {used total : Nat} {e : Expr}, compileNode table n used = .ok (e, total) →
    List.Forall₂ Token.Denotes n.constants e.literals

variable {table : SymbolTable}

theorem compileAll_literals {ns : List Node} (each : ∀ n ∈ ns, ReadsConstants table n)
    {used total : Nat} {es : List Expr} (h : compileAll table ns used = .ok (es, total)) :
    List.Forall₂ Token.Denotes ((Node.evaluatedAll ns).filterMap Node.constant?) (Expr.literalsAll es) := by
  induction ns generalizing used es total with
  | nil =>
    obtain ⟨rfl, _⟩ := Prod.mk.inj (Except.ok.inj h)
    exact .nil
  | cons n rest ih =>
    obtain ⟨e, between, others, first, below, rfl⟩ := compileAll_cons_eq_ok h
    rw [Node.evaluatedAll, List.filterMap_append, Expr.literalsAll]
    exact List.rel_append (each n (by simp) first) (ih (fun m mem => each m (by simp [mem])) below)

theorem compileNode_literals (table : SymbolTable) (n : Node) : ReadsConstants table n := by
  refine Node.induct (motive := ReadsConstants table) ?_ n
  intro n ih used total e h
  obtain ⟨kind, token, children, id⟩ := n
  cases kind with
  | selectList | groupBy =>
    obtain ⟨es, items, rfl⟩ := list_eq_ok h
    exact compileAll_literals ih items
  | derivedColumn =>
    cases children with
    | nil => cases h
    | cons expr rest => exact ih expr (by simp) h
  | methodCall =>
    cases token with
    | none => cases h
    | some token =>
      obtain ⟨symbol, es, between, found, args, paid, rfl⟩ := call_eq_ok h
      exact compileAll_literals ih args
  | operator op =>
    obtain ⟨symbol, es, between, found, args, paid, rfl⟩ := call_eq_ok h
    exact compileAll_literals ih args
  | literal =>
    obtain ⟨value, read, rfl, _⟩ := literal_eq_ok h
    cases token with
    | none => cases read
    | some token => exact .cons read .nil
  | resolvedColumn =>
    obtain ⟨position, _, rfl, _⟩ := resolved_eq_ok h
    exact .nil
  | _ => cases h

end Compile

/-- The literals of a compiled tree are the readings of its constants, in their order. -/
theorem compile_literals {table : SymbolTable} {n : Node} {c : Compiled} (h : compile table n = .ok c) :
    List.Forall₂ Token.Denotes n.constants c.expr.literals :=
  Compile.compileNode_literals table n (compile_eq_ok.1 h)

end StatementPlan
