/-
Expressions over one row put in terms of another.  `substitute? entries` replaces every column by
the entry at its position, and fails if there is none; `Renamed T` relates expressions that are
the same but for their columns, whose positions `T` relates.

`Renamed.substitute?`: renamed to what the entries are, an expression is its substitution.
-/
import Mathlib.Data.List.Forall2
import StatementPlan.Expression.Basic

namespace StatementPlan.Expr

mutual

/-- The expression with every column replaced by the entry at its position. -/
def substitute? (entries : List Expr) : Expr → Option Expr
  | .literal value => some (.literal value)
  | .column position => entries[position]?
  | .call symbol aggregate args => (substituteAll? entries args).map (.call symbol aggregate)
  | .list items => (substituteAll? entries items).map .list

def substituteAll? (entries : List Expr) : List Expr → Option (List Expr)
  | [] => some []
  | e :: rest =>
    (substitute? entries e).bind fun first =>
      (substituteAll? entries rest).map fun others => first :: others

end

/-- The parts of a list of expressions. -/
def items? : Expr → Option (List Expr)
  | .list items => some items
  | _ => none

theorem items?_eq_some {e : Expr} {items : List Expr} : e.items? = some items ↔ e = .list items := by
  cases e <;> simp [items?]

/-- The expressions are the same but for their columns, whose positions `T` relates. -/
inductive Renamed (T : Nat → Nat → Prop) : Expr → Expr → Prop
  | literal (value : Literal) : Renamed T (.literal value) (.literal value)
  | column {i j : Nat} (here : T i j) : Renamed T (.column i) (.column j)
  | call (symbol : String) (aggregate : Bool) {xs ys : List Expr}
      (args : List.Forall₂ (Renamed T) xs ys) :
      Renamed T (.call symbol aggregate xs) (.call symbol aggregate ys)
  | list {xs ys : List Expr} (items : List.Forall₂ (Renamed T) xs ys) :
      Renamed T (.list xs) (.list ys)

theorem substituteAll?_eq_some {entries : List Expr} {P : Expr → Expr → Prop} {xs ys : List Expr}
    (h : List.Forall₂ P xs ys) (each : ∀ x ∈ xs, ∀ {y}, P x y → substitute? entries x = some y) :
    substituteAll? entries xs = some ys := by
  induction h with
  | nil => rfl
  | cons first _ ih =>
    have here := each _ (by simp) first
    have others := ih fun x mem => each x (by simp [mem])
    simp [substituteAll?, here, others]

theorem Renamed.substitute? {T : Nat → Nat → Prop} {entries : List Expr} {x y : Expr}
    (h : Renamed T x y) (reads : ∀ {i j}, T i j → entries[i]? = some (.column j)) :
    x.substitute? entries = some y := by
  refine induct (motive := fun x => ∀ {y}, Renamed T x y → x.substitute? entries = some y)
    ?_ ?_ ?_ ?_ x h
  · intro value _ h
    obtain ⟨⟩ := h
    rfl
  · intro position _ h
    rcases h with _ | here
    exact reads here
  · intro symbol aggregate args ih _ h
    rcases h with _ | _ | ⟨_, _, below⟩
    simp [Expr.substitute?, substituteAll?_eq_some below ih]
  · intro items ih _ h
    rcases h with _ | _ | _ | below
    simp [Expr.substitute?, substituteAll?_eq_some below ih]

end StatementPlan.Expr
