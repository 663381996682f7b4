/-
Expressions whose names are put otherwise.  Compiling reads the name of a column only to report it,
and the function of a call only to look it up; so where functions are found as before, the reworded
tree compiles to the same expression, and fails for a reason that differs in a name at most.

`compileNode_reword`: the compiled form of a reworded tree.
`CompilesAlike.list`, `compile_alike`: lists of trees that compile alike.
-/
import StatementPlan.Proofs.Columns.Rewording
import StatementPlan.Proofs.Expression.Evaluated

namespace StatementPlan

/-- The error with its names put otherwise. -/
def PlanError.reword (ρ : Rewording) : PlanError → PlanError
  | rejected cause => rejected (cause.reword ρ)
  | defect d => .defect (d.reword ρ)
  | error => error

/-- The stop with its names put otherwise. -/
def Stop.reword (ρ : Rewording) : Stop → Stop
  | failed error => failed (error.reword ρ)
  | panicked d => panicked (d.reword ρ)
  | stop => stop

/-- The same stop, up to how things are named. -/
def Stop.Alike (ρ : Rewording) (stop stop' : Stop) : Prop := stop.reword ρ = stop'.reword ρ

theorem Stop.Alike.refl {ρ : Rewording} (stop : Stop) : stop.Alike ρ stop := Eq.refl (stop.reword ρ)

variable {ρ : Rewording} {table table' : SymbolTable}

/-- The functions that the tree calls are found in the second table under their other names. -/
def NamesAlike (ρ : Rewording) (table table' : SymbolTable) (n : Node) : Prop :=
  ∀ name ∈ n.callees, table' (ρ.calls name) = table name

namespace Compile

/-- The trees compile alike. -/
def CompilesAlike (ρ : Rewording) (table table' : SymbolTable) (n n' : Node) : Prop :=
  ∀ used, EndAlike (Stop.Alike ρ) Eq (compileNode table n used) (compileNode table' n' used)

theorem same (x : Except Stop α) : EndAlike (Stop.Alike ρ) Eq x x := .refl .refl (fun _ => rfl) x

theorem symbolOf_reword {name : String} (known : table' (ρ.calls name) = table name) :
    EndAlike (Stop.Alike ρ) Eq (symbolOf table name) (symbolOf table' (ρ.calls name)) := by
  rw [symbolOf, symbolOf, known]
  cases table name with
  | some symbol => exact .ok rfl
  | none =>
    exact .error (congrArg (fun name => Stop.failed (.defect (.unknownSymbol name)))
      (ρ.calls_calls name).symm)

theorem compileAll_alike {ns ns' : List Node} (each : List.Forall₂ (CompilesAlike ρ table table') ns ns')
    (used : Nat) : EndAlike (Stop.Alike ρ) Eq (compileAll table ns used) (compileAll table' ns' used) := by
  induction each generalizing used with
  | nil => exact .ok rfl
  | cons first _ ih =>
    rw [compileAll, compileAll]
    refine (first used).bind fun {first _} here => ?_
    subst here
    exact (ih first.2).bind fun there => there ▸ same _

theorem list_alike {ns ns' : List Node} {used : Nat}
    (below : EndAlike (Stop.Alike ρ) Eq (compileAll table ns used) (compileAll table' ns' used)) :
    EndAlike (Stop.Alike ρ) Eq
      (do
        let (items, used) ← compileAll table ns used
        return (Expr.list items, used))
      (do
        let (items, used) ← compileAll table' ns' used
        return (Expr.list items, used)) :=
  below.bind fun here => here ▸ same _

theorem call_alike {ns ns' : List Node} {name : String} {used : Nat}
    (known : table' (ρ.calls name) = table name)
    (below : EndAlike (Stop.Alike ρ) Eq (compileAll table ns used) (compileAll table' ns' used)) :
    EndAlike (Stop.Alike ρ) Eq
      (do
        let symbol ← symbolOf table name
        let (args, used) ← compileAll table ns used
        let used ← charge used symbol
        return (Expr.call symbol.name symbol.isAggregate args, used))
      (do
        let symbol ← symbolOf table' (ρ.calls name)
        let (args, used) ← compileAll table' ns' used
        let used ← charge used symbol
        return (Expr.call symbol.name symbol.isAggregate args, used)) := by
  refine (symbolOf_reword known).bind fun {symbol _} here => ?_
  subst here
  exact below.bind fun there => there ▸ same _

theorem CompilesAlike.list {kind : Kind} (listed : kind = .selectList ∨ kind = .groupBy)
    {ns ns' : List Node} (each : List.Forall₂ (CompilesAlike ρ table table') ns ns') :
    CompilesAlike ρ table table' (.ofChildren kind ns) (.ofChildren kind ns') := by
  intro used
  rcases listed with rfl | rfl <;> exact list_alike (compileAll_alike each used)

theorem compileNode_reword (n : Node) (known : NamesAlike ρ table table' n) :
    CompilesAlike ρ table table' n (n.reword ρ) := by
  refine Node.induct (motive := fun n => NamesAlike ρ table table' n →
    CompilesAlike ρ table table' n (n.reword ρ)) ?_ n known
  intro n ih known used
  obtain ⟨kind, token, children, id⟩ := n
  -- on the tree: a call asks for its own name, and leaves the others to its arguments
  have below : (∀ name ∈ (Node.evaluatedAll children).filterMap Node.callee?,
        table' (ρ.calls name) = table name) →
      EndAlike (Stop.Alike ρ) Eq (compileAll table children used)
        (compileAll table' (children.map (Node.reword ρ)) used) := by
    intro known
    refine compileAll_alike (List.forall₂_map_right_iff.2 (List.forall₂_same.2 fun c child => ?_)) used
    refine ih c child fun name mem => known name ?_
    rw [Node.evaluatedAll_eq_flatMap, List.filterMap_flatMap]
    exact List.mem_flatMap.2 ⟨c, child, mem⟩
  rw [Node.reword, Node.relabel_mk]
  cases kind with
  | selectList => exact list_alike (below known)
  | groupBy => exact list_alike (below known)
  | derivedColumn =>
    cases children with
    | nil => exact same _
    | cons expr rest => exact ih expr (by simp) known used
  | methodCall =>
    cases token with
    | none => exact same _
    | some token =>
      exact call_alike (known token.text List.mem_cons_self)
        (below fun name mem => known name (List.mem_cons_of_mem _ mem))
  | operator op =>
    have call := call_alike (known op.symbol List.mem_cons_self)
      (below fun name mem => known name (List.mem_cons_of_mem _ mem))
    rw [ρ.operators op] at call
    exact call
  | columnName =>
    cases token with
    | none => exact same _
    | some token =>
      exact .error (congrArg (fun name => Stop.failed (.rejected (.unboundColumn name)))
        (ρ.columns_columns token.text)).symm
  | literal => cases token <;> exact same _
  | resolvedColumn => cases id <;> exact same _
  | _ => exact same _

end Compile

theorem compile_alike {n n' : Node} (alike : Compile.CompilesAlike ρ table table' n n') :
    EndAlike (Stop.Alike ρ) Eq (compile table n) (compile table' n') := by
  rw [compile, compile]
  exact (alike 0).bind fun here => here ▸ Compile.same _

end StatementPlan
