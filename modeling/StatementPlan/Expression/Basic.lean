/-
Compiled expressions: literals, columns by position, calls, and lists of expressions such as
a select list.  They no longer refer to the tree they come from.

`decEq`: equality of expressions is decidable.
-/
import StatementPlan.Binary64.Basic

namespace StatementPlan

/-- A constant. -/
inductive Literal where
  | int64 (value : Int64)
  | float64 (value : Binary64)
  | utf8 (value : String)
  | boolean (value : Bool)
  | null
  deriving DecidableEq

/-- An expression that can be evaluated on a row. -/
inductive Expr where
  | literal (value : Literal)
  /-- The value at a position of the input row. -/
  | column (position : Nat)
  | call (symbol : String) (aggregate : Bool) (args : List Expr)
  | list (items : List Expr)

namespace Expr

/-- Induction over an expression, with the claim at hand for every part. -/
theorem induct {motive : Expr → Prop} (literal : ∀ value, motive (.literal value))
    (column : ∀ position, motive (.column position))
    (call : ∀ symbol aggregate args, (∀ e ∈ args, motive e) → motive (.call symbol aggregate args))
    (list : ∀ items, (∀ e ∈ items, motive e) → motive (.list items)) (e : Expr) : motive e :=
  @Expr.rec motive (fun es => ∀ e ∈ es, motive e) literal column
    (fun symbol aggregate args h => call symbol aggregate args h) (fun items h => list items h)
    (fun _ h => absurd h (List.not_mem_nil))
    (fun _ _ head tail e h => by
      cases h with
      | head => exact head
      | tail _ h => exact tail e h) e

mutual

def decEq : (a b : Expr) → Decidable (a = b)
  | .literal v, .literal w => if h : v = w then .isTrue (by rw [h]) else .isFalse (by simpa using h)
  | .column i, .column j => if h : i = j then .isTrue (by rw [h]) else .isFalse (by simpa using h)
  | .call s a xs, .call t b ys =>
    if head : s = t ∧ a = b then
      match decEqAll xs ys with
      | .isTrue h => .isTrue (by rw [head.1, head.2, h])
      | .isFalse h => .isFalse fun e => h (by injection e)
    else .isFalse fun e => head (by injection e with h₁ h₂; exact ⟨h₁, h₂⟩)
  | .list xs, .list ys =>
    match decEqAll xs ys with
    | .isTrue h => .isTrue (by rw [h])
    | .isFalse h => .isFalse fun e => h (by injection e)
  | .literal _, .column _ | .literal _, .call .. | .literal _, .list _ => .isFalse nofun
  | .column _, .literal _ | .column _, .call .. | .column _, .list _ => .isFalse nofun
  | .call .., .literal _ | .call .., .column _ | .call .., .list _ => .isFalse nofun
  | .list _, .literal _ | .list _, .column _ | .list _, .call .. => .isFalse nofun

def decEqAll : (as bs : List Expr) → Decidable (as = bs)
  | [], [] => .isTrue rfl
  | [], _ :: _ => .isFalse nofun
  | _ :: _, [] => .isFalse nofun
  | a :: as, b :: bs =>
    match decEq a b, decEqAll as bs with
    | .isTrue h, .isTrue hs => .isTrue (by rw [h, hs])
    | .isFalse h, _ => .isFalse fun e => h (by injection e)
    | _, .isFalse hs => .isFalse fun e => hs (by injection e)

end

instance : DecidableEq Expr := decEq

mutual

/-- The positions an expression reads, in order and with repetitions. -/
def columns : Expr → List Nat
  | .literal _ => []
  | .column position => [position]
  | .call _ _ args => columnsAll args
  | .list items => columnsAll items

def columnsAll : List Expr → List Nat
  | [] => []
  | e :: rest => columns e ++ columnsAll rest

end

end Expr

/-- An expression with the bytes of state that one evaluation needs. -/
structure Compiled where
  expr : Expr
  scratchpad : Nat
  deriving DecidableEq

end StatementPlan
