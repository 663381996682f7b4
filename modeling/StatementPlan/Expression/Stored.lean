/-
Expressions as documents.  Every alternative is a record with its name as the one key; null is
stored as its name alone.  A number that is not finite is stored as null, which does not read
back as a number.  A compiled expression may also be given as the list of its two values, but
the fields of a call are always named.
-/
import StatementPlan.Document
import StatementPlan.Expression.Basic

namespace StatementPlan

namespace Literal

def toDocument : Literal → Document
  | .int64 value => .record [("Int64", .integer value.toInt)]
  | .float64 value => .record [("Float64", if value.isFinite then .decimal value else .null)]
  | .utf8 value => .record [("Utf8", .text value)]
  | .boolean value => .record [("Boolean", .boolean value)]
  | .null => .text "Null"

def ofDocument? : Document → Option Literal
  | .record [("Int64", d)] => d.int64?.map .int64
  | .record [("Float64", d)] => d.binary64?.map .float64
  | .record [("Utf8", d)] => d.text?.map .utf8
  | .record [("Boolean", d)] => d.boolean?.map .boolean
  | d => if d.name? = some "Null" then some .null else none

/-- The literal is no binary number. -/
def isExact : Literal → Bool
  | .float64 _ => false
  | _ => true

end Literal

namespace Expr

mutual

def toDocument : Expr → Document
  | .literal value => .record [("Literal", value.toDocument)]
  | .column position => .record [("Column", .size position)]
  | .call symbol aggregate args => .record [("Call", .record [("symbol", .text symbol),
      ("aggregate", .boolean aggregate), ("args", .list (toDocuments args))])]
  | .list items => .record [("List", .list (toDocuments items))]

def toDocuments : List Expr → List Document
  | [] => []
  | e :: rest => toDocument e :: toDocuments rest

end

mutual

def ofDocument? : Document → Option Expr
  | .record [("Literal", d)] => (Literal.ofDocument? d).map .literal
  | .record [("Column", d)] => d.size?.map .column
  | .record [("Call", .record fields)] => do
    let symbol ← Document.required? fields "symbol" Document.text?
    let aggregate ← Document.required? fields "aggregate" Document.boolean?
    let args ← argsOf? fields
    return .call symbol aggregate args
  | .record [("List", .list items)] => (ofDocuments? items).map .list
  | _ => none

/-- The expressions in the first field named for arguments. -/
def argsOf? : List (String × Document) → Option (List Expr)
  | [] => none
  | (key, value) :: rest => if key = "args" then listOf? value else argsOf? rest

def listOf? : Document → Option (List Expr)
  | .list items => ofDocuments? items
  | _ => none

def ofDocuments? : List Document → Option (List Expr)
  | [] => some []
  | d :: rest => do
    let e ← ofDocument? d
    let es ← ofDocuments? rest
    return e :: es

end

mutual

/-- Every literal is exact and every position within the limit, so that the stored form holds
the whole expression. -/
def storable : Expr → Bool
  | .literal value => value.isExact
  | .column position => position < Numeral.sizeLimit
  | .call _ _ args => storableAll args
  | .list items => storableAll items

def storableAll : List Expr → Bool
  | [] => true
  | e :: rest => storable e && storableAll rest

end

end Expr

namespace Compiled

def toDocument (c : Compiled) : Document :=
  .record [("expr", c.expr.toDocument), ("scratchpad_size", .size c.scratchpad)]

/-- The order of a stored expression and its scratchpad. -/
def layout : Document.Layout := { needed := ["expr", "scratchpad_size"] }

def ofDocument? (d : Document) : Option Compiled := do
  let fields ← d.fields? layout
  let expr ← Document.required? fields "expr" Expr.ofDocument?
  let scratchpad ← Document.required? fields "scratchpad_size" Document.size?
  return { expr, scratchpad }

/-- The expression and its scratchpad both fit the stored form. -/
def storable (c : Compiled) : Bool :=
  c.expr.storable && c.scratchpad < Numeral.sizeLimit

theorem toDocument_ne_null (c : Compiled) : c.toDocument ≠ .null :=
  Document.noConfusion

end Compiled

end StatementPlan
