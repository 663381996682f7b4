/-
Registries of function symbols.  A name is found in any ASCII case, and the last symbol
registered under it counts.

`lookup_register_self`, `lookup_register_other`, `lookup_deregister_self`,
`lookup_deregister_other`: what each operation does to every name.
-/
import StatementPlan.Symbol.Basic

namespace StatementPlan

/-- The symbols that calls may name, one for each name. -/
structure Registry where
  symbols : List Symbol := []
  deriving DecidableEq, Repr

namespace Registry

/-- The symbol of a name. -/
def lookup (r : Registry) (name : String) : Option Symbol :=
  r.symbols.find? fun s => s.name == foldCase name

/-- The registry with the symbol in place of one of its name. -/
def register (r : Registry) (symbol : Symbol) : Registry :=
  ⟨r.symbols.filter (fun s => s.name != symbol.name) ++ [symbol]⟩

/-- A symbol has exactly this name. -/
def holds (r : Registry) (name : String) : Bool :=
  r.symbols.any fun s => s.name == name

/-- The registry without the symbol of a name. -/
def deregister (r : Registry) (name : String) : Registry :=
  ⟨r.symbols.filter fun s => s.name != foldCase name⟩

def size (r : Registry) : Nat := r.symbols.length

/-- The functions of one row every registry may start with. -/
def scalarBuiltins : List String :=
  ["add", "sub", "mul", "div", "mod", "pow", "neg", "eq", "neq", "lt", "lte", "gt", "gte",
    "and", "or", "not", "round", "truncate", "from_timestamp"]

/-- The aggregates every registry may start with, and their bytes of state. -/
def aggregateBuiltins : List (String × Nat) :=
  [("count", 8), ("sum", 8), ("min", 16), ("max", 16), ("mean", 16), ("avg", 16)]

/-- The registry of the operators and the standard functions. -/
def builtins : Registry :=
  (scalarBuiltins.map Symbol.scalar ++
    aggregateBuiltins.map fun (name, bytes) => Symbol.aggregate name bytes).foldl register {}

theorem find?_filter_other {symbols : List Symbol} {kept gone : String} (h : kept ≠ gone) :
    (symbols.filter fun s => s.name != gone).find? (fun s => s.name == kept) =
      symbols.find? fun s => s.name == kept := by
  rw [List.find?_filter]
  congr 1
  funext s
  by_cases e : s.name = kept
  · simp [e, h]
  · simp [e]

theorem find?_filter_self (symbols : List Symbol) (gone : String) :
    (symbols.filter fun s => s.name != gone).find? (fun s => s.name == gone) = none := by
  rw [List.find?_eq_none]
  intro s mem
  simpa using (List.mem_filter.1 mem).2

theorem lookup_register_self (r : Registry) {symbol : Symbol} {name : String}
    (h : symbol.name = foldCase name) : (r.register symbol).lookup name = some symbol := by
  simp only [lookup, register, List.find?_append, ← h, find?_filter_self, Option.none_or]
  simp

theorem lookup_register_other (r : Registry) {symbol : Symbol} {name : String}
    (h : symbol.name ≠ foldCase name) : (r.register symbol).lookup name = r.lookup name := by
  simp only [lookup, register, List.find?_append, find?_filter_other h.symm]
  simp [h]

theorem lookup_deregister_self (r : Registry) {name other : String}
    (h : foldCase name = foldCase other) : (r.deregister other).lookup name = none := by
  rw [lookup, deregister, h]
  exact find?_filter_self ..

theorem lookup_deregister_other (r : Registry) {name other : String}
    (h : foldCase name ≠ foldCase other) : (r.deregister other).lookup name = r.lookup name :=
  find?_filter_other h

end Registry

end StatementPlan
