/-
The numbers in a plan and what becomes of them where the plan is stored, in whichever order the
fields of records are kept there.  A number that is not finite is stored as null, and null does not
read back as a number, so one such number makes the whole plan unreadable; nothing else does.

`Expr.read_reordered`, `Plan.read_reordered`: what reading a stored expression or plan gives.
-/
import StatementPlan.Plan.Stored
import StatementPlan.Proofs.Document
import StatementPlan.Proofs.Expression.Evaluated

namespace StatementPlan

open Document

/-- The literal is no number, or a finite one. -/
def Literal.isFinite : Literal → Bool
  | .float64 x => x.isFinite
  | _ => true

/-- A literal reads back unless it is an infinite number or none at all. -/
theorem Literal.read_reordered {v : Literal} {d : Document} (h : Reordered v.toDocument d) :
    Literal.ofDocument? d = if v.isFinite then some v else none := by
  cases v with
  | null =>
    rw [h.eq_of_flat rfl rfl]
    rfl
  | float64 x =>
    obtain ⟨content, rfl, inside⟩ := h.of_tagged
    cases finite : x.isFinite with
    | true =>
      rw [finite, if_pos rfl] at inside
      simp [inside.eq_of_flat rfl rfl, ofDocument?, isFinite, finite, binary64?]
    | false =>
      rw [finite, if_neg Bool.false_ne_true] at inside
      simp [inside.eq_of_flat rfl rfl, ofDocument?, isFinite, finite, binary64?]
  | int64 value =>
    obtain ⟨content, rfl, inside⟩ := h.of_tagged
    simp [inside.eq_of_flat rfl rfl, ofDocument?, isFinite, int64?_toInt]
  | _ =>
    obtain ⟨content, rfl, inside⟩ := h.of_tagged
    rw [inside.eq_of_flat rfl rfl]
    rfl

namespace Expr

/-- All positions are within the limit of sizes. -/
def sized (e : Expr) : Bool := e.columns.all (· < Numeral.sizeLimit)

/-- All numbers are finite. -/
def finite (e : Expr) : Bool := e.literals.all Literal.isFinite

theorem argsOf?_eq (fields : List (String × Document)) :
    argsOf? fields = required? fields "args" listOf? := by
  induction fields with
  | nil => rfl
  | cons field rest ih =>
    obtain ⟨key, value⟩ := field
    rw [argsOf?, ih, required?_cons]

/-- In every order of its fields the stored expression reads back if its numbers are finite, and
otherwise not at all. -/
def ReadsIfFinite (e : Expr) : Prop :=
  e.sized = true → ∀ d, Reordered e.toDocument d → ofDocument? d = if e.finite then some e else none

theorem read_reorderedAll {es : List Expr} (each : ∀ e ∈ es, ReadsIfFinite e)
    (within : (columnsAll es).all (· < Numeral.sizeLimit) = true) {items : List Document}
    (inside : List.Forall₂ Reordered (toDocuments es) items) :
    ofDocuments? items = if (literalsAll es).all Literal.isFinite then some es else none := by
  induction es generalizing items with
  | nil =>
    cases inside
    rfl
  | cons e rest ih =>
    rw [columnsAll, List.all_append, Bool.and_eq_true] at within
    cases inside with
    | cons first others =>
      have head := each e (by simp) within.1 _ first
      have tail := ih (fun d mem => each d (by simp [mem])) within.2 others
      rw [ofDocuments?, head, tail, literalsAll, List.all_append, ← finite]
      cases e.finite with
      | false => rfl
      | true => cases (literalsAll rest).all Literal.isFinite <;> rfl

theorem read_reordered (e : Expr) : ReadsIfFinite e := by
  refine induct (motive := ReadsIfFinite) ?_ ?_ ?_ ?_ e
  · intro value within d h
    obtain ⟨content, rfl, inside⟩ := h.of_tagged
    rw [ofDocument?, Literal.read_reordered inside, finite, literals, List.all_cons, List.all_nil,
      Bool.and_true]
    cases value.isFinite <;> rfl
  · intro position within d h
    have fits : position < Numeral.sizeLimit := by simpa [sized, columns] using within
    obtain ⟨content, rfl, inside⟩ := h.of_tagged
    rw [ofDocument?, inside.size fits]
    rfl
  · intro symbol aggregate args ih within d h
    rw [sized, columns] at within
    obtain ⟨fields, rfl, named⟩ := h.of_operator
    have name := named.required "symbol" rfl fun _ => Reordered.text
    have flag := named.required "aggregate" rfl fun _ => Reordered.boolean
    have below : required? fields "args" listOf? =
        if (literalsAll args).all Literal.isFinite then some args else none := by
      refine named.required "args" rfl fun content h => ?_
      obtain ⟨items, rfl, each⟩ := h.of_list
      exact read_reorderedAll ih within each
    rw [finite, literals]
    simp [ofDocument?, name, flag, argsOf?_eq, below, apply_ite_left Option.bind]
  · intro items ih within d h
    rw [sized, columns] at within
    obtain ⟨content, rfl, inside⟩ := h.of_tagged
    obtain ⟨docs, rfl, each⟩ := inside.of_list
    rw [ofDocument?, read_reorderedAll ih within each, finite, literals]
    cases (literalsAll items).all Literal.isFinite <;> rfl

end Expr

namespace Compiled

def sized (c : Compiled) : Bool := c.expr.sized && c.scratchpad < Numeral.sizeLimit

theorem read_reordered {c : Compiled} (within : c.sized = true) {d : Document}
    (h : Reordered c.toDocument d) : ofDocument? d = if c.expr.finite then some c else none := by
  rw [sized, Bool.and_eq_true, decide_eq_true_eq] at within
  obtain ⟨fields, rfl, named⟩ := h.of_record
  have expr := named.required "expr" rfl (c.expr.read_reordered within.1)
  have scratchpad := named.required "scratchpad_size" rfl fun _ h => Reordered.size h within.2
  simp [ofDocument?, fields?_record, expr, scratchpad, apply_ite_left Option.bind]

end Compiled

namespace Plan

/-- The literals in all expressions of the plan. -/
def literals : Plan → List Literal
  | tableScan _ _ select predicate =>
    select.expr.literals ++ predicate.elim [] fun c => c.expr.literals
  | tablelessSelect _ select => select.expr.literals
  | limit _ _ input => literals input
  | groupBy _ select keys _ input => select.literals ++ keys.literals ++ literals input
  | series _ name input => name.literals ++ literals input
  | draw _ => []

/-- All positions and sizes are within the limit of sizes. -/
def sized : Plan → Bool
  | tableScan _ _ select predicate => select.sized && predicate.all Compiled.sized
  | tablelessSelect _ select => select.sized
  | limit count offset input => count < Numeral.sizeLimit && offset < Numeral.sizeLimit && sized input
  | groupBy _ select keys scratchpad input =>
    select.sized && keys.sized && scratchpad < Numeral.sizeLimit && sized input
  | series _ name input => name.sized && sized input
  | draw _ => true

/-- All numbers are finite. -/
def finite (p : Plan) : Bool := p.literals.all Literal.isFinite

theorem inputOf?_eq (fields : List (String × Document)) :
    inputOf? fields = required? fields "input" ofDocument? := by
  induction fields with
  | nil => simp [inputOf?, required?]
  | cons field rest ih =>
    obtain ⟨key, value⟩ := field
    rw [inputOf?, ih, required?_cons]

/-- A predicate is null if there is none, and otherwise reads back if its numbers are finite. -/
theorem read_predicate {predicate : Option Compiled} (within : predicate.all Compiled.sized = true)
    {d : Document} (h : Reordered ((predicate.map Compiled.toDocument).getD .null) d) :
    d = .null ∧ (if predicate.all (·.expr.finite) then some predicate else none) = some none ∨
      d ≠ .null ∧ (Compiled.ofDocument? d).map some =
        if predicate.all (·.expr.finite) then some predicate else none := by
  cases predicate with
  | none => exact .inl ⟨h.eq_of_flat rfl rfl, rfl⟩
  | some c =>
    have stored : Reordered c.toDocument d := h
    obtain ⟨fields, same, -⟩ := stored.of_record
    refine .inr ⟨by simp [same], ?_⟩
    rw [Compiled.read_reordered within stored, Option.all_some]
    cases c.expr.finite <;> rfl

/-- In every order of its fields the stored plan reads back if its numbers are finite, and otherwise
not at all. -/
theorem read_reordered {p : Plan} (within : p.sized = true) {d : Document}
    (h : Reordered p.toDocument d) : ofDocument? d = if p.finite then some p else none := by
  -- on the plan: each part of its operator reads back exactly if its own numbers are finite
  induction p generalizing d with
  | tableScan table columns select predicate =>
    rw [sized, Bool.and_eq_true] at within
    obtain ⟨fields, rfl, named⟩ := h.of_operator
    have source := named.required "table" rfl fun _ => Reordered.text
    have names := named.required "column_names" rfl fun _ => Reordered.texts
    have list := named.required "select_expr" rfl fun _ => Compiled.read_reordered within.1
    have condition := named.optional "predicate" rfl fun _ => read_predicate within.2
    have whole : finite (.tableScan table columns select predicate) =
        (select.expr.finite && predicate.all (·.expr.finite)) := by
      cases predicate <;> simp [finite, literals, Expr.finite]
    simp [ofDocument?, ofFields?, source, names, list, condition, whole, ite_and,
      apply_ite_left Option.bind]
  | tablelessSelect columns select =>
    obtain ⟨fields, rfl, named⟩ := h.of_operator
    have names := named.required "column_names" rfl fun _ => Reordered.texts
    have list := named.required "select_expr" rfl fun _ => Compiled.read_reordered (c := select) within
    have whole : finite (.tablelessSelect columns select) = select.expr.finite := rfl
    simp [ofDocument?, ofFields?, names, list, whole, apply_ite_left Option.bind]
  | limit count offset input ih =>
    simp only [sized, Bool.and_eq_true, decide_eq_true_eq] at within
    obtain ⟨fields, rfl, named⟩ := h.of_operator
    have first := named.required "limit" rfl fun _ h => Reordered.size h within.1.1
    have after := named.required "offset" rfl fun _ h => Reordered.size h within.1.2
    have below := named.required "input" rfl fun _ => ih within.2
    have whole : finite (.limit count offset input) = input.finite := rfl
    simp [ofDocument?, ofFields?, inputOf?_eq, first, after, below, whole,
      apply_ite_left Option.bind]
  | groupBy columns select keys scratchpad input ih =>
    simp only [sized, Bool.and_eq_true, decide_eq_true_eq] at within
    obtain ⟨⟨⟨list, group⟩, bytes⟩, rest⟩ := within
    obtain ⟨fields, rfl, named⟩ := h.of_operator
    have names := named.required "column_names" rfl fun _ => Reordered.texts
    have list := named.required "select_expr" rfl (select.read_reordered list)
    have group := named.required "group_expr" rfl (keys.read_reordered group)
    have bytes := named.required "scratchpad_size" rfl fun _ h => Reordered.size h bytes
    have below := named.required "input" rfl fun _ => ih rest
    have whole : finite (.groupBy columns select keys scratchpad input) =
        (select.finite && (keys.finite && input.finite)) := by
      simp [finite, literals, Expr.finite]
    simp [ofDocument?, ofFields?, inputOf?_eq, names, list, group, bytes, below, whole, ite_and,
      apply_ite_left Option.bind]
  | series columns name input ih =>
    simp only [sized, Bool.and_eq_true] at within
    obtain ⟨fields, rfl, named⟩ := h.of_operator
    have names := named.required "column_names" rfl fun _ => Reordered.texts
    have title := named.required "name_expr" rfl (name.read_reordered within.1)
    have below := named.required "input" rfl fun _ => ih within.2
    have whole : finite (.series columns name input) = (name.finite && input.finite) := by
      simp [finite, literals, Expr.finite]
    simp [ofDocument?, ofFields?, inputOf?_eq, names, title, below, whole, ite_and,
      apply_ite_left Option.bind]
  | draw chart =>
    obtain ⟨fields, rfl, named⟩ := h.of_operator
    have kind : required? fields "chart" (fun d => d.name?.bind Chart.ofName?) = some chart := by
      refine named.required "chart" rfl fun d h => ?_
      rw [h.eq_of_flat rfl rfl]
      cases chart <;> rfl
    simp [ofDocument?, ofFields?, kind, finite, literals]

theorem finite_iff {p : Plan} : p.finite = true ↔ ∀ x, .float64 x ∈ p.literals → x.isFinite = true := by
  rw [finite, List.all_eq_true]
  refine ⟨fun h x mem => h _ mem, fun h v mem => ?_⟩
  cases v with
  | float64 x => exact h x mem
  | _ => rfl

/-- Something reads back from where the plan is stored exactly if its numbers are finite. -/
theorem readable_iff {p : Plan} (within : p.sized = true) :
    (ofDocument? p.toDocument).isSome = true ↔ ∀ x, .float64 x ∈ p.literals → x.isFinite = true := by
  rw [← finite_iff, read_reordered within (.same _)]
  cases p.finite <;> simp

end Plan

end StatementPlan
