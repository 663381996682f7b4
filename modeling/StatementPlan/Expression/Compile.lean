/-
Compilation of a tree whose columns are positions.  Lists and items compile to their parts,
operators and calls to calls of a registered symbol, literals by their token.  The bytes of
state add up from left to right, an aggregate's own after those of its arguments; the first
fault met in that order ends the compilation, so does a sum beyond the limit of sizes.

`compileNode_le`: compiling only ever adds bytes.
-/
import StatementPlan.Expression.Basic
import StatementPlan.Binary64.Numeral
import StatementPlan.Fault
import StatementPlan.Symbol.Basic
import StatementPlan.Tree.Node

namespace StatementPlan

/-- How names of functions are looked up. -/
abbrev SymbolTable := String → Option Symbol

namespace Compile

def fail (error : PlanError) : Except Stop α := .error (.failed error)

/-- The constant a literal's token stands for; digits are an integer if they fit in one. -/
def literal (token : Option Token) : Except PlanError Literal :=
  match token with
  | none => .error (.malformed .literalWithoutToken)
  | some ⟨.numeric, text⟩ =>
    match Numeral.int64? text with
    | some value => .ok (.int64 value)
    | none =>
      match Binary64.read? text with
      | some value => .ok (.float64 value)
      | none => .error (.rejected (.badNumeral text))
  | some ⟨.string, text⟩ => .ok (.utf8 text)
  | some ⟨.true, _⟩ => .ok (.boolean true)
  | some ⟨.false, _⟩ => .ok (.boolean false)
  | some ⟨.null, _⟩ => .ok .null
  | some ⟨kind, _⟩ => .error (.malformed (.literalToken kind))

/-- The bytes so far and those of one more call. -/
def charge (used : Nat) (symbol : Symbol) : Except Stop Nat :=
  if used + symbol.scratchpad < Numeral.sizeLimit then .ok (used + symbol.scratchpad)
  else .error .overflow

/-- The symbol that a call names. -/
def symbolOf (table : SymbolTable) (name : String) : Except Stop Symbol :=
  match table name with
  | some symbol => .ok symbol
  | none => fail (.defect (.unknownSymbol name))

mutual

/-- The expression of a tree and the bytes used with it, `used` being those before. -/
def compileNode (table : SymbolTable) : Node → Nat → Except Stop (Expr × Nat)
  | ⟨.selectList, _, children, _⟩, used => do
    let (items, used) ← compileAll table children used
    return (.list items, used)
  | ⟨.groupBy, _, children, _⟩, used => do
    let (items, used) ← compileAll table children used
    return (.list items, used)
  | ⟨.derivedColumn, _, [], _⟩, _ => fail (.malformed .derivedWithoutExpression)
  | ⟨.derivedColumn, _, expr :: _, _⟩, used => compileNode table expr used
  | ⟨.resolvedColumn, _, _, some position⟩, used => .ok (.column position, used)
  | ⟨.resolvedColumn, _, _, none⟩, _ => fail (.malformed .resolvedWithoutPosition)
  | ⟨.columnName, token, _, _⟩, _ =>
    fail (.rejected (.unboundColumn ((token.map Token.text).getD "?")))
  | ⟨.literal, token, _, _⟩, used =>
    match literal token with
    | .ok value => .ok (.literal value, used)
    | .error error => fail error
  | ⟨.methodCall, none, _, _⟩, _ => fail (.malformed .callWithoutName)
  | ⟨.methodCall, some token, args, _⟩, used => do
    let symbol ← symbolOf table token.text
    let (args, used) ← compileAll table args used
    let used ← charge used symbol
    return (.call symbol.name symbol.isAggregate args, used)
  | ⟨.operator op, _, args, _⟩, used => do
    let symbol ← symbolOf table op.symbol
    let (args, used) ← compileAll table args used
    let used ← charge used symbol
    return (.call symbol.name symbol.isAggregate args, used)
  | ⟨.all, _, _, _⟩, _ => fail (.unsupported .wildcardInExpression)
  | ⟨kind, _, _, _⟩, _ => fail (.unsupported (.notAnExpression kind))

def compileAll (table : SymbolTable) : List Node → Nat → Except Stop (List Expr × Nat)
  | [], used => .ok ([], used)
  | n :: rest, used => do
    let (e, used) ← compileNode table n used
    let (es, used) ← compileAll table rest used
    return (e :: es, used)

end

theorem charge_eq_ok {used total : Nat} {symbol : Symbol} (h : charge used symbol = .ok total) :
    total = used + symbol.scratchpad ∧ total < Numeral.sizeLimit := by
  unfold charge at h
  split at h
  · rename_i bound
    obtain rfl := Except.ok.inj h
    exact ⟨rfl, bound⟩
  · cases h

/-- Compiling the node adds bytes, from whatever was used before. -/
def OnlyAdds (table : SymbolTable) (n : Node) : Prop :=
  ∀ {used total : Nat} {e : Expr}, compileNode table n used = .ok (e, total) → used ≤ total

/-- What a tree compiles to, by the way it does. -/
inductive Compiles (table : SymbolTable) (n : Node) (used : Nat) : Expr → Nat → Prop
  | list {es : List Expr} {total : Nat} (items : compileAll table n.children used = .ok (es, total)) :
      Compiles table n used (.list es) total
  | call {name : String} {symbol : Symbol} {es : List Expr} {between total : Nat}
      (found : table name = some symbol) (args : compileAll table n.children used = .ok (es, between))
      (paid : charge between symbol = .ok total) :
      Compiles table n used (.call symbol.name symbol.isAggregate es) total
  | below {c : Node} {e : Expr} {total : Nat} (child : c ∈ n.children)
      (compiled : compileNode table c used = .ok (e, total)) : Compiles table n used e total
  | column {position : Nat} (resolved : n.kind = .resolvedColumn) (id : n.id = some position) :
      Compiles table n used (.column position) used
  | literal (value : Literal) : Compiles table n used (.literal value) used

theorem symbolOf_eq_ok {table : SymbolTable} {name : String} {symbol : Symbol} :
    symbolOf table name = .ok symbol ↔ table name = some symbol := by
  unfold symbolOf
  split
  · rename_i here
    rw [here, Except.ok.injEq, Option.some.injEq]
  · rename_i here
    rw [here]
    exact ⟨nofun, nofun⟩

theorem call_eq_ok {table : SymbolTable} {args : List Node} {name : String}
    {used total : Nat} {e : Expr}
    (h : (do
      let symbol ← symbolOf table name
      let (args, used) ← compileAll table args used
      let used ← charge used symbol
      return (Expr.call symbol.name symbol.isAggregate args, used)) = Except.ok (e, total)) :
    ∃ symbol es between, table name = some symbol ∧
      compileAll table args used = .ok (es, between) ∧ charge between symbol = .ok total ∧
        e = .call symbol.name symbol.isAggregate es := by
  simp only [bind_eq_ok_iff, symbolOf_eq_ok] at h
  obtain ⟨symbol, found, ⟨es, between⟩, below, last, paid, h⟩ := h
  simp only [pure, Except.pure, Except.ok.injEq, Prod.mk.injEq] at h
  obtain ⟨rfl, rfl⟩ := h
  exact ⟨symbol, es, between, found, below, paid, rfl⟩

theorem list_eq_ok {table : SymbolTable} {items : List Node} {used total : Nat} {e : Expr}
    (h : (do
      let (items, used) ← compileAll table items used
      return (Expr.list items, used)) = Except.ok (e, total)) :
    ∃ es, compileAll table items used = .ok (es, total) ∧ e = .list es := by
  simp only [bind_eq_ok_iff] at h
  obtain ⟨⟨es, last⟩, below, h⟩ := h
  simp only [pure, Except.pure, Except.ok.injEq, Prod.mk.injEq] at h
  obtain ⟨rfl, rfl⟩ := h
  exact ⟨es, below, rfl⟩

theorem literal_eq_ok {table : SymbolTable} {token : Option Token} {children : List Node}
    {id : Option Nat} {used total : Nat} {e : Expr}
    (h : compileNode table ⟨.literal, token, children, id⟩ used = .ok (e, total)) :
    ∃ value, literal token = .ok value ∧ e = .literal value ∧ total = used := by
  simp only [compileNode] at h
  split at h
  · rename_i value read
    obtain ⟨rfl, rfl⟩ := Prod.mk.inj (Except.ok.inj h)
    exact ⟨value, read, rfl, rfl⟩
  · cases h

theorem resolved_eq_ok {table : SymbolTable} {token : Option Token} {children : List Node}
    {id : Option Nat} {used total : Nat} {e : Expr}
    (h : compileNode table ⟨.resolvedColumn, token, children, id⟩ used = .ok (e, total)) :
    ∃ position, id = some position ∧ e = .column position ∧ total = used := by
  cases id with
  | none => cases h
  | some position =>
    obtain ⟨rfl, rfl⟩ := Prod.mk.inj (Except.ok.inj h)
    exact ⟨position, rfl, rfl, rfl⟩

theorem compileAll_cons_eq_ok {table : SymbolTable} {n : Node} {rest : List Node} {used total : Nat}
    {es : List Expr} (h : compileAll table (n :: rest) used = .ok (es, total)) :
    ∃ e between others, compileNode table n used = .ok (e, between) ∧
      compileAll table rest between = .ok (others, total) ∧ es = e :: others := by
  simp only [compileAll, bind_eq_ok_iff] at h
  obtain ⟨⟨e, between⟩, first, ⟨others, last⟩, below, h⟩ := h
  simp only [pure, Except.pure, Except.ok.injEq, Prod.mk.injEq] at h
  obtain ⟨rfl, rfl⟩ := h
  exact ⟨e, between, others, first, below, rfl⟩

theorem compiles_of_ok {table : SymbolTable} {n : Node} {used total : Nat} {e : Expr}
    (h : compileNode table n used = .ok (e, total)) : Compiles table n used e total := by
  obtain ⟨kind, token, children, id⟩ := n
  have list : (∃ es, compileAll table children used = .ok (es, total) ∧ e = .list es) →
      Compiles table ⟨kind, token, children, id⟩ used e total := by
    intro items
    obtain ⟨es, items, rfl⟩ := items
    exact .list items
  have call : ∀ name, (∃ symbol es between, table name = some symbol ∧
      compileAll table children used = .ok (es, between) ∧ charge between symbol = .ok total ∧
        e = .call symbol.name symbol.isAggregate es) →
      Compiles table ⟨kind, token, children, id⟩ used e total := by
    intro name called
    obtain ⟨symbol, es, between, found, args, paid, rfl⟩ := called
    exact .call found args paid
  cases kind with
  | selectList => exact list (list_eq_ok h)
  | groupBy => exact list (list_eq_ok h)
  | derivedColumn =>
    cases children with
    | nil => cases h
    | cons expr rest => exact .below (c := expr) (by simp) h
  | resolvedColumn =>
    obtain ⟨position, rfl, rfl, rfl⟩ := resolved_eq_ok h
    exact .column rfl rfl
  | literal =>
    obtain ⟨value, _, rfl, rfl⟩ := literal_eq_ok h
    exact .literal value
  | methodCall =>
    cases token with
    | none => cases h
    | some token => exact call token.text (call_eq_ok h)
  | operator op => exact call op.symbol (call_eq_ok h)
  | _ => cases h

theorem compileAll_le {table : SymbolTable} {ns : List Node} (each : ∀ n ∈ ns, OnlyAdds table n)
    {used total : Nat} {es : List Expr} (h : compileAll table ns used = .ok (es, total)) :
    used ≤ total := by
  induction ns generalizing used es total with
  | nil =>
    simp only [compileAll, Except.ok.injEq, Prod.mk.injEq] at h
    omega
  | cons n rest ih =>
    obtain ⟨e, between, others, first, below, _⟩ := compileAll_cons_eq_ok h
    have step := each n (by simp) first
    have more := ih (fun m mem => each m (by simp [mem])) below
    omega

theorem compileNode_le (table : SymbolTable) (n : Node) : OnlyAdds table n := by
  refine Node.induct (motive := OnlyAdds table) ?_ n
  intro n ih used total e h
  cases compiles_of_ok h with
  | list items => exact compileAll_le ih items
  | call _ args paid =>
    have step := compileAll_le ih args
    have own := (charge_eq_ok paid).1
    omega
  | below child compiled => exact ih _ child compiled
  | column => exact Nat.le_refl used
  | literal => exact Nat.le_refl used

end Compile

/-- The compiled form of a tree. -/
def compile (table : SymbolTable) (n : Node) : Except Stop Compiled := do
  let (expr, scratchpad) ← Compile.compileNode table n 0
  return { expr, scratchpad }

end StatementPlan
