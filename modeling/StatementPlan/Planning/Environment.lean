/-
What planning depends on besides the statement: settings, symbols, tables, and which leaf
builders are told to decline every statement.
-/
import StatementPlan.Catalog
import StatementPlan.Expression.Compile
import StatementPlan.Planning.Run
import StatementPlan.Settings
import StatementPlan.Symbol.Registry

namespace StatementPlan

/-- The surroundings of a planner.  The symbols that decide whether a SELECT is grouped and
those that calls compile to are given apart, though most often they are the same. -/
structure Environment where
  settings : Settings
  routing : SymbolTable
  calls : SymbolTable
  columns? : String → Option (List String)
  declines : Leaf → Bool := fun _ => false

namespace Environment

/-- One registry for both purposes. -/
def ofRegistry (settings : Settings) (symbols : Registry) (catalog : Catalog) : Environment :=
  { settings, routing := symbols.lookup, calls := symbols.lookup, columns? := catalog.columns? }

/-- Standard settings and the built-in symbols. -/
def standard (catalog : Catalog) : Environment :=
  ofRegistry {} .builtins catalog

/-- The description of a planner. -/
def describe (env : Environment) : String :=
  let quoted := fun (leaf : Leaf) => Quoted.quote leaf.name
  "QueryPlanner \x7b config: " ++ env.settings.describe ++
    ", leaves: LeafBuilders \x7b limit: " ++ quoted .limit ++
    ", table_scan: " ++ quoted .tableScan ++
    ", tableless_select: " ++ quoted .tablelessSelect ++ " \x7d, .. \x7d"

end Environment

end StatementPlan
