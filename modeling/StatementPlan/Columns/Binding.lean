/-
Binding column names to the positions of a table's columns.  A name stands for the first
column of exactly that name, else for the first one of that name up to ASCII case.  The
first name in reading order that matches no column ends the binding; what is below a column
name stays as it is.

`position?_exact`: an exact match wins over every match up to case.
`exists_position_iff`: which names stand for a column.
-/
import StatementPlan.Fault
import StatementPlan.Tree.Node
import StatementPlan.Text.AsciiCase

namespace StatementPlan.Columns

/-- The position of the column a name stands for. -/
def position? (columns : List String) (name : String) : Option Nat :=
  (columns.findIdx? (· == name)).or (columns.findIdx? (sameName · name))

mutual

/-- The tree with every column name replaced by a position. -/
def bind (table : String) (columns : List String) : Node → Except Rejection Node
  | ⟨kind, token, children, id⟩ =>
    if kind = .columnName then
      let name := (token.map Token.text).getD ""
      match position? columns name with
      | some position => .ok (Node.resolveTo ⟨kind, token, children, id⟩ position)
      | none => .error (.unknownColumn name table)
    else
      match bindAll table columns children with
      | .ok bound => .ok ⟨kind, token, bound, id⟩
      | .error rejection => .error rejection

def bindAll (table : String) (columns : List String) : List Node → Except Rejection (List Node)
  | [] => .ok []
  | c :: rest =>
    match bind table columns c with
    | .error rejection => .error rejection
    | .ok bound =>
      match bindAll table columns rest with
      | .error rejection => .error rejection
      | .ok others => .ok (bound :: others)

end

theorem position?_exact {columns : List String} {name : String} {position : Nat}
    (h : columns.findIdx? (· == name) = some position) :
    position? columns name = some position := by
  rw [position?, h, Option.some_or]

theorem position?_lt {columns : List String} {name : String} {position : Nat}
    (h : position? columns name = some position) : position < columns.length := by
  simp only [position?, Option.or_eq_some_iff] at h
  obtain h | ⟨_, h⟩ := h
  · exact (List.findIdx?_eq_some_iff_getElem.1 h).1
  · exact (List.findIdx?_eq_some_iff_getElem.1 h).1

/-- A name stands for some column if it is the name of one up to ASCII case. -/
theorem exists_position_iff {columns : List String} {name : String} :
    (∃ position, position? columns name = some position) ↔
      ∃ column ∈ columns, sameName column name = true := by
  simp only [position?, ← Option.isSome_iff_exists, Option.isSome_or, List.findIdx?_isSome,
    Bool.or_eq_true, List.any_eq_true]
  constructor
  · rintro (⟨column, mem, same⟩ | found)
    · exact ⟨column, mem, sameName_iff.2 (congrArg foldCase (eq_of_beq same))⟩
    · exact found
  · exact .inr

end StatementPlan.Columns
