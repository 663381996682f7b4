/-
What compiling charges for: the aggregates that the expression calls, each with the bytes of a
symbol registered for it.  Nothing charged means no aggregate called, as long as every aggregate
keeps some state.

`compile_charged`: the bytes of a compiled tree are those of its aggregate calls.
`Charged.quiet`: without bytes there is no aggregate call.
-/
import Mathlib.Algebra.GroupWithZero.Nat
import StatementPlan.Proofs.Expression.Placement
import StatementPlan.Symbol.Registry

namespace StatementPlan

namespace Expr

mutual

/-- The names of the aggregates that an expression calls, as often as it does, those in the
arguments of a call first. -/
def aggregates : Expr → List String
  | .literal _ | .column _ => []
  | .call symbol aggregate args => aggregatesAll args ++ if aggregate then [symbol] else []
  | .list items => aggregatesAll items

def aggregatesAll : List Expr → List String
  | [] => []
  | e :: rest => aggregates e ++ aggregatesAll rest

end

end Expr

/-- The bytes are those of the aggregates with these names, each as a symbol of the table. -/
def Charged (table : SymbolTable) (names : List String) (bytes : Nat) : Prop :=
  ∃ symbols : List Symbol, symbols.map Symbol.name = names ∧
    (∀ s ∈ symbols, s.isAggregate = true ∧ ∃ name, table name = some s) ∧
    bytes = (symbols.map Symbol.scratchpad).sum

/-- Every aggregate of the table keeps some state. -/
def SymbolTable.Sized (table : SymbolTable) : Prop :=
  ∀ name s, table name = some s → s.isAggregate = true → s.scratchpad ≠ 0

/-- The aggregates that every registry may start with keep some state. -/
theorem Registry.builtins_sized : SymbolTable.Sized builtins.lookup := by
  have each : ∀ s ∈ builtins.symbols, s.isAggregate = true → s.scratchpad ≠ 0 := by decide +kernel
  exact fun name s found => each s (List.mem_of_find?_eq_some found)

variable {table : SymbolTable}

namespace Charged

variable {names names' : List String} {bytes bytes' : Nat}

theorem none : Charged table [] 0 := ⟨[], rfl, by simp, rfl⟩

theorem append (h : Charged table names bytes) (h' : Charged table names' bytes') :
    Charged table (names ++ names') (bytes + bytes') := by
  obtain ⟨symbols, rfl, each, rfl⟩ := h
  obtain ⟨symbols', rfl, each', rfl⟩ := h'
  refine ⟨symbols ++ symbols', List.map_append .., fun s mem => ?_, by simp⟩
  exact (List.mem_append.1 mem).elim (each s) (each' s)

theorem symbol {name : String} {s : Symbol} (found : table name = some s) :
    Charged table (if s.isAggregate then [s.name] else []) s.scratchpad := by
  by_cases aggregate : s.isAggregate = true
  · rw [if_pos aggregate]
    refine ⟨[s], rfl, fun s' mem => ?_, by simp⟩
    obtain rfl := List.mem_singleton.1 mem
    exact ⟨aggregate, name, found⟩
  · rw [if_neg aggregate, Symbol.scratchpad_eq_zero_of_scalar (Bool.eq_false_iff.2 aggregate)]
    exact none

theorem quiet (sized : table.Sized) (h : Charged table names 0) : names = [] := by
  obtain ⟨symbols, rfl, each, zero⟩ := h
  cases symbols with
  | nil => rfl
  | cons s rest =>
    obtain ⟨aggregate, name, found⟩ := each s List.mem_cons_self
    have some := sized name s found aggregate
    simp only [List.map_cons, List.sum_cons] at zero
    omega

theorem eq_nil_iff (sized : table.Sized) (h : Charged table names bytes) : names = [] ↔ bytes = 0 := by
  constructor
  · rintro rfl
    obtain ⟨symbols, unnamed, _, rfl⟩ := h
    rw [List.map_eq_nil_iff.1 unnamed]
    rfl
  · rintro rfl
    exact h.quiet sized

end Charged

namespace Compile

/-- The bytes that compiling a tree adds are those of its aggregate calls. -/
def AddsCharged (table : SymbolTable) (n : Node) : Prop :=
  ∀ {used total : Nat} {e : Expr}, compileNode table n used = .ok (e, total) →
    ∃ bytes, total = used + bytes ∧ Charged table e.aggregates bytes

theorem compileAll_charged {ns : List Node} (each : ∀ n ∈ ns, AddsCharged table n)
    {used total : Nat} {es : List Expr} (h : compileAll table ns used = .ok (es, total)) :
    ∃ bytes, total = used + bytes ∧ Charged table (Expr.aggregatesAll es) bytes := by
  induction ns generalizing used es total with
  | nil =>
    simp only [compileAll, Except.ok.injEq, Prod.mk.injEq] at h
    obtain ⟨rfl, rfl⟩ := h
    exact ⟨0, rfl, .none⟩
  | cons n rest ih =>
    obtain ⟨e, between, others, first, below, rfl⟩ := compileAll_cons_eq_ok h
    obtain ⟨bytes, rfl, charged⟩ := each n (by simp) first
    obtain ⟨bytes', rfl, charged'⟩ := ih (fun m mem => each m (by simp [mem])) below
    exact ⟨bytes + bytes', Nat.add_assoc .., charged.append charged'⟩

theorem compileNode_charged (table : SymbolTable) (n : Node) : AddsCharged table n := by
  refine Node.induct (motive := AddsCharged table) ?_ n
  intro n ih used total e h
  cases compiles_of_ok h with
  | list items => exact compileAll_charged ih items
  | call found args paid =>
    obtain ⟨bytes, rfl, charged⟩ := compileAll_charged ih args
    obtain ⟨rfl, _⟩ := charge_eq_ok paid
    exact ⟨_, Nat.add_assoc .., charged.append (.symbol found)⟩
  | below child compiled => exact ih _ child compiled
  | column => exact ⟨0, rfl, .none⟩
  | literal => exact ⟨0, rfl, .none⟩

end Compile

/-- The bytes of a compiled tree are those of its aggregate calls. -/
theorem compile_charged {n : Node} {c : Compiled} (h : compile table n = .ok c) :
    Charged table c.expr.aggregates c.scratchpad := by
  obtain ⟨bytes, total, charged⟩ := Compile.compileNode_charged table n (compile_eq_ok.1 h)
  rw [total, Nat.zero_add]
  exact charged

end StatementPlan
