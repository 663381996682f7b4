/-
Catalogs of tables.  A table is known by its exact name and has named columns in order.

`columns?_register_self`, `columns?_register_other`: the last columns registered count.
-/
import StatementPlan.Keyed

namespace StatementPlan

/-- Tables and their columns, one entry for each name. -/
structure Catalog where
  tables : List (String × List String) := []
  deriving DecidableEq, Repr

namespace Catalog

/-- The columns of a table. -/
def columns? (c : Catalog) (table : String) : Option (List String) :=
  c.tables.lookup table

/-- The catalog with the table in place of one of its name. -/
def register (c : Catalog) (table : String) (columns : List String) : Catalog :=
  ⟨Keyed.put c.tables table columns⟩

/-- The names of the tables, in the order of their characters. -/
def names (c : Catalog) : List String :=
  (c.tables.map (·.1)).mergeSort fun a b => a ≤ b

theorem columns?_register_self (c : Catalog) (table : String) (columns : List String) :
    (c.register table columns).columns? table = some columns :=
  Keyed.lookup_put_self ..

theorem columns?_register_other (c : Catalog) {table other : String} (columns : List String)
    (h : other ≠ table) : (c.register table columns).columns? other = c.columns? other :=
  Keyed.lookup_put_other _ _ h

end Catalog

end StatementPlan
