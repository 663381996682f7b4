/-
Whether a SELECT has to be grouped: it has group keys, or its select list calls an aggregate.
The search for a call looks at calls in reading order, and the first one that is nameless,
unknown or an aggregate decides.
-/
import StatementPlan.Expression.Compile

namespace StatementPlan

mutual

/-- The tree calls an aggregate. -/
def callsAggregate (table : SymbolTable) : Node → Except Defect Bool
  | ⟨kind, token, children, _⟩ =>
    if kind = .methodCall then
      match token with
      | none => .error (.malformed .callWithoutName)
      | some token =>
        match table token.text with
        | none => .error (.unknownSymbol token.text)
        | some symbol => if symbol.isAggregate then .ok true else anyCallsAggregate table children
    else anyCallsAggregate table children

/-- One of the trees calls an aggregate. -/
def anyCallsAggregate (table : SymbolTable) : List Node → Except Defect Bool
  | [] => .ok false
  | c :: rest =>
    match callsAggregate table c with
    | .ok false => anyCallsAggregate table rest
    | decided => decided

end

/-- A SELECT of more than its select list that has group keys. -/
def hasGroupKeys (statement : Node) : Bool :=
  statement.kind == .select && 2 ≤ statement.children.length && statement.hasChild .groupBy

/-- A SELECT of more than its select list calls an aggregate there. -/
def selectsAggregate (table : SymbolTable) (statement : Node) : Except Defect Bool :=
  if statement.kind = .select then
    match statement.children with
    | list :: _ :: _ =>
      if list.kind = .selectList then callsAggregate table list
      else .error (.malformed (.selectStartsWith list.kind))
    | _ => .ok false
  else .ok false

end StatementPlan
