/-
Function symbols: what a call or an operator may name.  A scalar function works on one row;
an aggregate keeps some bytes of state for each group, its scratchpad.  Names are kept in
lower case.
-/
import StatementPlan.Text.AsciiCase

namespace StatementPlan

/-- A function by its name; `state` is the scratchpad of an aggregate. -/
structure Symbol where
  name : String
  state : Option Nat
  deriving DecidableEq, Repr

namespace Symbol

/-- A function of one row. -/
def scalar (name : String) : Symbol := ⟨foldCase name, none⟩

/-- A function of a group that keeps some bytes of state. -/
def aggregate (name : String) (bytes : Nat) : Symbol := ⟨foldCase name, some bytes⟩

def isAggregate (s : Symbol) : Bool := s.state.isSome

/-- The bytes one evaluation needs; none for a scalar function. -/
def scratchpad (s : Symbol) : Nat := s.state.getD 0

theorem scratchpad_eq_zero_of_scalar {s : Symbol} (h : s.isAggregate = false) :
    s.scratchpad = 0 := by
  cases e : s.state with
  | none => simp [scratchpad, e]
  | some n => simp [isAggregate, e] at h

end Symbol

end StatementPlan
