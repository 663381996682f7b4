/-
Plans without binary numbers read back from where they are stored, in whichever order the fields of
records are kept there.

`Plan.storable_reads`: the positions of such a plan are within the limit, and all its numbers
finite.
`stored_plan_reads_back`: it reads back, under its operator's name over its operator's fields.
-/
import StatementPlan.Proofs.Plan.Numbers

namespace StatementPlan

open Document

/-- What is exact is no binary number, so it is not an infinite one. -/
theorem Literal.isFinite_of_isExact {v : Literal} (exact : v.isExact = true) : v.isFinite = true := by
  cases v with
  | float64 => cases exact
  | _ => rfl

namespace Expr

theorem storableAll_reads {es : List Expr}
    (each : ∀ e ∈ es, e.storable = true → e.sized = true ∧ e.finite = true)
    (storable : storableAll es = true) :
    (columnsAll es).all (· < Numeral.sizeLimit) = true ∧
      (literalsAll es).all Literal.isFinite = true := by
  induction es with
  | nil => exact ⟨rfl, rfl⟩
  | cons e rest ih =>
    rw [storableAll, Bool.and_eq_true] at storable
    have head := each e (by simp) storable.1
    have tail := ih (fun d mem => each d (by simp [mem])) storable.2
    rw [columnsAll, literalsAll, List.all_append, List.all_append, tail.1, tail.2, Bool.and_true,
      Bool.and_true]
    exact head

theorem storable_reads (e : Expr) : e.storable = true → e.sized = true ∧ e.finite = true := by
  refine induct (motive := fun e => e.storable = true → e.sized = true ∧ e.finite = true)
    ?_ ?_ ?_ ?_ e
  · intro value exact
    exact ⟨rfl, by simpa [finite, literals] using Literal.isFinite_of_isExact exact⟩
  · intro position fits
    exact ⟨by simpa [sized, columns, storable] using fits, rfl⟩
  · intro symbol aggregate args ih storable
    exact storableAll_reads ih storable
  · intro items ih storable
    exact storableAll_reads ih storable

end Expr

theorem Compiled.storable_reads {c : Compiled} (storable : c.storable = true) :
    c.sized = true ∧ c.expr.finite = true := by
  rw [Compiled.storable, Bool.and_eq_true] at storable
  have expr := c.expr.storable_reads storable.1
  rw [sized, Bool.and_eq_true]
  exact ⟨⟨expr.1, storable.2⟩, expr.2⟩

namespace Plan

theorem storable_reads {p : Plan} (storable : p.storable = true) :
    p.sized = true ∧ p.finite = true := by
  induction p with
  | tableScan table columns select predicate =>
    rw [Plan.storable, Bool.and_eq_true] at storable
    have list := Compiled.storable_reads storable.1
    cases predicate with
    | none => simpa [sized, finite, literals, Expr.finite] using list
    | some c =>
      have condition := Compiled.storable_reads (c := c) storable.2
      simp only [Expr.finite] at list condition
      simp [sized, finite, literals, list, condition]
  | tablelessSelect columns select =>
    exact Compiled.storable_reads (c := select) storable
  | limit count offset input ih =>
    rw [Plan.storable, Bool.and_eq_true] at storable
    have below := ih storable.2
    rw [sized, storable.1, below.1]
    exact ⟨rfl, below.2⟩
  | groupBy columns select keys scratchpad input ih =>
    simp only [Plan.storable, Bool.and_eq_true] at storable
    obtain ⟨⟨⟨list, group⟩, bytes⟩, rest⟩ := storable
    have list := select.storable_reads list
    have group := keys.storable_reads group
    have below := ih rest
    simp only [Expr.finite, finite] at list group below
    simp [sized, finite, literals, list, group, below, of_decide_eq_true bytes]
  | series columns name input ih =>
    rw [Plan.storable, Bool.and_eq_true] at storable
    have title := name.storable_reads storable.1
    have below := ih storable.2
    simp only [Expr.finite, finite] at title below
    simp [sized, finite, literals, title, below]
  | draw chart => exact ⟨rfl, rfl⟩

/-- How a plan is stored, and that it can be read from there. -/
structure ReadsBack (p : Plan) : Prop where
  /-- In whichever order a store keeps the fields, the plan that is read is this one. -/
  reads : ∀ d, Reordered p.toDocument d → ofDocument? d = some p
  /-- The name of the operator is over its fields, of which the input is a plan in turn. -/
  tagged : ∃ fields layout, p.toDocument = .record [(p.name, .record fields)] ∧
    layout? p.name = some layout ∧ fields.map Prod.fst = layout.names ∧
    p.inputs.map toDocument = (fields.lookup "input").toList
  /-- There is null in the place of a predicate exactly if there is no predicate. -/
  predicate : ∀ table columns select predicate, p = .tableScan table columns select predicate →
    ∃ fields, p.toDocument = .record [(p.name, .record fields)] ∧
      (fields.lookup "predicate" = some .null ↔ predicate = none)
  /-- Alternatives without content are stored as their names. -/
  units : Literal.null.toDocument = .text "Null" ∧
    ∀ chart, p = .draw chart → p.toDocument = .record [(p.name, .record [("chart", .text chart.name)])]

/-- A plan of sizes within the limit and without binary numbers reads back from where it is stored. -/
theorem stored_plan_reads_back {p : Plan} (storable : p.storable = true) : ReadsBack p where
  reads d h := by
    have reads := storable_reads storable
    rw [read_reordered reads.1 h, if_pos reads.2]
  tagged := by
    cases p <;> exact ⟨_, _, rfl, rfl, rfl, rfl⟩
  predicate := by
    rintro table columns select predicate rfl
    refine ⟨_, rfl, ?_⟩
    cases predicate with
    | none => simp [List.lookup_cons]
    | some c => simp [List.lookup_cons, c.toDocument_ne_null]
  units := by
    refine ⟨rfl, ?_⟩
    rintro chart rfl
    rfl

/-- A series of the sums by city, after the first of three, where there is any tax or none is known. -/
def salesSeries : Plan :=
  .series ["series", "city", "gross"] (.literal (.utf8 "\"net\"\n")) (.limit 3 1 (.groupBy
    ["city", "gross"] (.list [.column 0, .call "sum" true [.column 1]]) (.list [.column 0]) 8
    (.tableScan "sales" ["city", "total"] ⟨.list [.column 0, .column 1], 0⟩
      (some ⟨.call "or" false [.call "gt" false [.column 2, .literal (.int64 (-1))],
        .call "eq" false [.column 2, .literal .null]], 0⟩))))

theorem stored_plan_reads_back_sales : salesSeries.storable = true ∧ ReadsBack salesSeries := by
  have storable : salesSeries.storable = true := by decide
  exact ⟨storable, stored_plan_reads_back storable⟩

end Plan

end StatementPlan
