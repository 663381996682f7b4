/-
Integers on their way through the text of a token.  An integer of 64 bits is compiled to itself, and
a row count and an offset, each a word of 64 bits, are those of the operator around the plan of the
statement without them.

`plan_limited`: the plan of a draft with a limit.
`integers_survive`: integers as constants, counts and offsets.
-/
import StatementPlan.Proofs.Expression.Numbers
import StatementPlan.Proofs.Planning.Acceptance
import StatementPlan.Proofs.Tree.Steps

namespace StatementPlan

open SelectStep

theorem DefectPolicy.ruled_map (policy : DefectPolicy) (f : α → β) (x : Except Stop α) :
    policy.ruled (f <$> x) = f <$> policy.ruled x := by
  cases x with
  | ok a => rfl
  | error stop =>
    cases stop with
    | failed error => cases error <;> rfl
    | _ => rfl

theorem SelectStep.Carries.filterMap_eq_nil {carried : SelectStep → Option α} {kind : Kind}
    (h : Carries carried kind) {steps : List SelectStep} (none : ∀ s ∈ steps, s.clause ≠ kind) :
    steps.filterMap carried = [] := by
  rw [← h.filterMap_filter, List.filter_eq_nil_iff.2 (by simpa using none)]
  rfl

/-- A limit among steps for other clauses. -/
theorem drafted_limit {before after : List SelectStep}
    (others : ∀ s ∈ before ++ after, s.clause ≠ .limit)
    (count : Nat) (offset : Option Nat) : drafted (before ++ .limit count offset :: after) =
      { drafted (before ++ after) with limit := some (count, offset) } := by
  rw [List.forall_mem_append] at others
  have first := limit?_carries.filterMap_eq_nil others.1
  have last := limit?_carries.filterMap_eq_nil others.2
  simp [drafted_eq, first, last, List.filterMap_cons, item?, table?, filter?, key?, having?, sort?, limit?]

theorem drafted_unlimited {steps : List SelectStep} (others : ∀ s ∈ steps, s.clause ≠ .limit) :
    (drafted steps).limit = none := by
  rw [drafted_eq, limit?_carries.filterMap_eq_nil others]
  rfl

namespace Planning

variable {env : Environment} {d : SelectDraft} {count : Nat} {offset : Option Nat}

theorem build_limited (free : d.limit = none) :
    { d with limit := some (count, offset) }.build.children =
      d.build.children ++ [SelectDraft.limitClause count offset] := by
  simp [SelectDraft.build_children, SelectDraft.clauses, free]

theorem not_limit_of_free (free : d.limit = none) :
    ∀ c ∈ d.build.children, ¬(c.kind == .limit) = true := by
  have none := d.build_limits
  rw [free] at none
  exact List.filter_eq_nil_iff.1 none

/-- A limit is one more operator, around the plan of the statement without it. -/
theorem plan_limited (served : env.declines .limit = false) (free : d.limit = none)
    (fits : count < Numeral.sizeLimit) (fits' : ∀ n ∈ offset, n < Numeral.sizeLimit) :
    (plan env { d with limit := some (count, offset) }.build).result =
      Plan.limit count (offset.getD 0) <$> (plan env d.build).result := by
  have others := not_limit_of_free free
  have children := @build_limited d count offset free
  have found : { d with limit := some (count, offset) }.build.findChild? .limit =
      some (SelectDraft.limitClause count offset) := by
    rw [SelectDraft.findChild?_limit]
    rfl
  have rest : { d with limit := some (count, offset) }.build.children.eraseP (·.kind == Kind.limit) =
      d.build.children := by
    rw [children, List.eraseP_append_right _ others]
    simp [SelectDraft.limitClause]
  have counts : countsOf (SelectDraft.limitClause count offset) = .ok (count, offset.getD 0) :=
    countsOf_eq_ok.2 (limitsTo_limitClause fits fits')
  have one : [SelectDraft.limitClause count offset].countP (·.kind == Kind.limit) = 1 := rfl
  rw [plan, plan, nestingBound_select rfl, nestingBound_select rfl, children, List.countP_append,
    List.countP_eq_zero.2 others, one, planWithin_select _ rfl, select_limit served _ rfl found, counts,
    rest]
  change (planWithin env 2 d.build).result >>= _ = _
  cases (planWithin env 2 d.build).result <;> rfl

/-- Integers survive their text: as constants, and as the row counts and the offsets of statements,
which have the same plan but for the limit. -/
theorem integers_survive :
    (∀ (table : SymbolTable) (v : Int64), compile table (.int v) = .ok ⟨.literal (.int64 v), 0⟩) ∧
    ∀ (env : Environment) (before after : List SelectStep), env.declines .limit = false →
      (∀ s ∈ before ++ after, s.clause ≠ .limit) → ∀ (n : UInt64) (offset : Option UInt64),
        (buildPlan env (.select
          (before ++ .limit n.toNat (offset.map UInt64.toNat) :: after))).result =
            Plan.limit n.toNat (offset.elim 0 UInt64.toNat) <$>
              (buildPlan env (.select (before ++ after))).result := by
  refine ⟨compile_int, fun env before after served others n offset => ?_⟩
  have fits : ∀ m : UInt64, m.toNat < Numeral.sizeLimit := UInt64.toNat_lt
  have fits' : ∀ m ∈ offset.map UInt64.toNat, m < Numeral.sizeLimit := by
    simpa using fun m _ => fits m
  have planned := plan_limited served (drafted_unlimited others) (fits n) fits'
  have same : (offset.map UInt64.toNat).getD 0 = offset.elim 0 UInt64.toNat := by cases offset <;> rfl
  rw [buildPlan_result, buildPlan_result, ← DefectPolicy.ruled_map, ← same]
  refine congrArg _ (Eq.trans ?_ planned)
  rw [← drafted_limit others]
  rfl

/-- The least integer, and the largest count and offset. -/
theorem integers_survive_extremes :
    compile salesEnvironment.calls (.int Int64.minValue) = .ok ⟨.literal (.int64 Int64.minValue), 0⟩ ∧
    (buildPlan salesEnvironment (.select [.column "city",
      .limit 18446744073709551615 (some 18446744073709551615), .table "sales"])).result =
        .ok (.limit 18446744073709551615 18446744073709551615
          (.tableScan "sales" ["city"] ⟨.list [.column 0], 0⟩ none)) := by
  have planned : (buildPlan salesEnvironment (.select [.column "city", .table "sales"])).result =
      .ok (.tableScan "sales" ["city"] ⟨.list [.column 0], 0⟩ none) := by decide +kernel
  have limited := integers_survive.2 salesEnvironment [.column "city"] [.table "sales"] rfl
    (by simp [SelectStep.clause]) 18446744073709551615 (some 18446744073709551615)
  exact ⟨integers_survive.1 _ _, limited.trans (congrArg (Plan.limit _ _ <$> ·) planned)⟩

end Planning

end StatementPlan
