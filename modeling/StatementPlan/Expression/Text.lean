/-
Expressions as text: a column as `#` and its position, a call as its symbol with the arguments
in parentheses, a list in brackets, a text literal quoted.
-/
import StatementPlan.Expression.Basic
import StatementPlan.Binary64.Numeral
import StatementPlan.Text.Quoted

namespace StatementPlan

def Literal.text : Literal → String
  | .int64 value => Numeral.writeInt value.toInt
  | .float64 value => value.write
  | .utf8 value => Quoted.quote value
  | .boolean value => if value then "true" else "false"
  | .null => "null"

namespace Expr

mutual

def text : Expr → String
  | .literal value => value.text
  | .column position => "#" ++ Numeral.writeNat position
  | .call symbol _ args => symbol ++ "(" ++ ", ".intercalate (textAll args) ++ ")"
  | .list items => "[" ++ ", ".intercalate (textAll items) ++ "]"

def textAll : List Expr → List String
  | [] => []
  | e :: rest => text e :: textAll rest

end

theorem textAll_eq_map (es : List Expr) : textAll es = es.map text := by
  induction es with
  | nil => rfl
  | cons e rest ih => simp [textAll, ih]

end Expr

end StatementPlan
