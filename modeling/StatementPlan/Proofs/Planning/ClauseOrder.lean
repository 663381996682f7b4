/-
Clauses in another order.  Every clause of a SELECT is looked up by its kind, so only the order of
those of one kind counts, and only the select list has a place of its own.

`Rearranged.perm`: the clauses are the same ones.
`sameClauses`, `clauses_kept`: what goes together in the two runs.
`clause_order_irrelevant`: the end of planning, also for a SELECT below a SERIES.
-/
import StatementPlan.Proofs.Planning.Clauses
import StatementPlan.Proofs.Planning.Correspondence
import StatementPlan.Proofs.Planning.Layers

namespace StatementPlan

/-- Without the first element that passes, the others that pass stay in order. -/
theorem filter_eraseP_self (p : α → Bool) (as : List α) :
    (as.eraseP p).filter p = (as.filter p).tail := by
  induction as with
  | nil => rfl
  | cons a rest ih => by_cases here : p a = true <;> simp [here, ih]

namespace Node

/-- Clauses in another order; those of one kind are in the same. -/
def Rearranged (clauses clauses' : List Node) : Prop :=
  ∀ kind, clauses'.filter (·.kind == kind) = clauses.filter (·.kind == kind)

/-- The same statement, but for the order of the clauses in its SELECT. -/
inductive SameClauses : Node → Node → Prop
  | select (token : Option Token) (id : Option Nat) {list : Node} {clauses clauses' : List Node}
      (headed : list.kind = .selectList) (order : Rearranged clauses clauses') :
      SameClauses ⟨.select, token, list :: clauses, id⟩ ⟨.select, token, list :: clauses', id⟩
  | series (token : Option Token) (id : Option Nat) (name : Node) {select select' : Node}
      (below : SameClauses select select') :
      SameClauses ⟨.series, token, [name, select], id⟩ ⟨.series, token, [name, select'], id⟩

namespace Rearranged

variable {clauses clauses' : List Node}

theorem perm (h : Rearranged clauses clauses') : clauses'.Perm clauses := by
  rw [List.perm_iff_count]
  intro clause
  have same := congrArg (List.count clause) (h clause.kind)
  rwa [List.count_filter (by simp), List.count_filter (by simp)] at same

theorem find? (h : Rearranged clauses clauses') (kind : Kind) :
    clauses'.find? (·.kind == kind) = clauses.find? (·.kind == kind) := by
  rw [← List.head?_filter, h kind, List.head?_filter]

theorem filter (h : Rearranged clauses clauses') (keep : Kind → Bool) :
    Rearranged (clauses.filter (keep ·.kind)) (clauses'.filter (keep ·.kind)) := by
  intro kind
  rw [List.filter_comm, h kind, List.filter_comm]

theorem eraseP (h : Rearranged clauses clauses') (kind : Kind) :
    Rearranged (clauses.eraseP (·.kind == kind)) (clauses'.eraseP (·.kind == kind)) := by
  intro kind'
  by_cases same : kind' = kind
  · subst same
    rw [filter_eraseP_self, filter_eraseP_self, h kind']
  · have apart : ∀ c : Node, (c.kind == kind) = true → (c.kind == kind') = false := fun c here => by
      rw [beq_eq_false_iff_ne, eq_of_beq here]
      exact Ne.symm same
    rw [filter_eraseP_apart apart, filter_eraseP_apart apart, h kind']

theorem cons (h : Rearranged clauses clauses') (head : Node) :
    Rearranged (head :: clauses) (head :: clauses') := by
  intro kind
  rw [List.filter_cons, List.filter_cons, h kind]

theorem nil_iff (h : Rearranged clauses clauses') : clauses' = [] ↔ clauses = [] := by
  rw [← List.length_eq_zero_iff, h.perm.length_eq, List.length_eq_zero_iff]

end Rearranged

namespace SameClauses

variable {statement statement' : Node}

theorem selectList? (h : SameClauses statement statement') :
    statement'.selectList? = statement.selectList? := by
  cases h <;> rfl

theorem withList (h : SameClauses statement statement') {list : Node}
    (headed : list.kind = .selectList) :
    SameClauses (statement.withList list) (statement'.withList list) := by
  cases h with
  | select token id _ order => exact .select token id headed order
  | series token id name below => exact .series token id list below

theorem nestingBound (h : SameClauses statement statement') :
    Planning.nestingBound statement' = Planning.nestingBound statement := by
  induction h with
  | select token id headed order =>
    rw [Planning.nestingBound_select rfl, Planning.nestingBound_select rfl,
      (order.perm.cons _).countP_eq]
  | series token id name below ih => exact congrArg (· + 1) ih

end SameClauses

end Node

namespace Planning

open RowSource

variable {env : Environment}

/-- Two runs over the same clauses in another order: they end alike. -/
def sameClauses : Correspondence where
  notes _ _ := True
  stops := Eq
  statements := Node.SameClauses
  plans _ := Eq
  note_self _ := trivial
  stop_self := Eq.refl
  offered _ _ := trivial
  kind h := by cases h <;> rfl
  depth := Node.SameClauses.nestingBound
  defect h := ⟨_, h.symm, trivial, trivial, rfl⟩
  defect' := @Correspondence.defect_of_same

section Select

variable {token : Option Token} {id : Option Nat} {list : Node} {clauses clauses' : List Node}
  (headed : list.kind = .selectList) (order : Node.Rearranged clauses clauses')

include order

theorem findChild?_rearranged (kind : Kind) :
    Node.findChild? ⟨.select, token, list :: clauses', id⟩ kind =
      Node.findChild? ⟨.select, token, list :: clauses, id⟩ kind :=
  (order.cons list).find? kind

theorem hasChild_rearranged (kind : Kind) :
    Node.hasChild ⟨.select, token, list :: clauses', id⟩ kind =
      Node.hasChild ⟨.select, token, list :: clauses, id⟩ kind := by
  rw [Node.hasChild_eq_isSome, findChild?_rearranged order, ← Node.hasChild_eq_isSome]

theorem groupKeys_rearranged :
    groupKeys ⟨.select, token, list :: clauses', id⟩ =
      groupKeys ⟨.select, token, list :: clauses, id⟩ :=
  congrArg (List.flatMap Node.children) ((order.cons list) .groupBy)

theorem scan_rearranged :
    scan env ⟨.select, token, list :: clauses', id⟩ =
      scan env ⟨.select, token, list :: clauses, id⟩ := by
  simp only [scan, refuseClauses, condition?, selectList, findChild?_rearranged order,
    hasChild_rearranged order]
  rfl

theorem constants_rearranged :
    constants env ⟨.select, token, list :: clauses', id⟩ =
      constants env ⟨.select, token, list :: clauses, id⟩ := by
  simp only [constants, refuseClauses, selectList, hasChild_rearranged order]
  rfl

include headed

theorem isGrouped_rearranged :
    isGrouped env ⟨.select, token, list :: clauses', id⟩ =
      isGrouped env ⟨.select, token, list :: clauses, id⟩ := by
  rw [isGrouped_eq rfl (Node.selectList?_eq_some.2 ⟨headed, rfl⟩),
    isGrouped_eq rfl (Node.selectList?_eq_some.2 ⟨headed, rfl⟩), hasChild_rearranged order]
  simp only [List.tail_cons, order.nil_iff]
  congr

theorem withoutFirstLimit_rearranged : Node.SameClauses
    (Node.withoutFirstLimit ⟨.select, token, list :: clauses, id⟩)
    (Node.withoutFirstLimit ⟨.select, token, list :: clauses', id⟩) := by
  have kept : ∀ cs : List Node,
      (list :: cs).eraseP (·.kind == .limit) = list :: cs.eraseP (·.kind == .limit) :=
    fun cs => List.eraseP_cons_of_neg (by simp [headed])
  rw [Node.withoutFirstLimit, Node.withoutFirstLimit, kept, kept]
  exact .select token id headed (order.eraseP .limit)

omit headed in
/-- The list and the keys are pushed down alike, and the SELECTs below differ in the order of
clauses only. -/
theorem groups_rearranged : sameClauses.Groups env env ⟨.select, token, list :: clauses, id⟩
    ⟨.select, token, list :: clauses', id⟩ list list := by
  have keys : pushedKeys env ⟨.select, token, list :: clauses', id⟩ list =
      pushedKeys env ⟨.select, token, list :: clauses, id⟩ list := by
    rw [pushedKeys, groupKeys_rearranged order, pushedKeys]
  have columns : neededColumns env ⟨.select, token, list :: clauses', id⟩ list =
      neededColumns env ⟨.select, token, list :: clauses, id⟩ list := by
    rw [neededColumns, groupKeys_rearranged order, neededColumns]
  constructor
  case wildcard => rfl
  case notes => rw [groupNotes, keys, columns, groupKeys_rearranged order, groupNotes]
  case items => exact sameClauses.same _
  case keys => rw [keys]; exact sameClauses.same _
  case rest => rw [columns]; exact .select token id rfl (order.filter (· != .groupBy))
  case plans => rintro p _ rfl _ _ _; rfl

theorem selects_rearranged : sameClauses.Selects env env ⟨.select, token, list :: clauses, id⟩
    ⟨.select, token, list :: clauses', id⟩ where
  limit := by
    rw [findChild?_rearranged order]
    exact optionRel_self fun _ _ => rfl
  rest _ := withoutFirstLimit_rearranged headed order
  limited := by
    rintro p _ rfl _ _
    rfl
  decided := by
    rw [isGrouped_rearranged headed order]
    exact sameClauses.same_error _
  grouped _ := by
    have found : ∀ cs : List Node, Node.selectList? ⟨.select, token, list :: cs, id⟩ = some list :=
      fun _ => if_pos headed
    rw [found, found]
    exact .some (groups_rearranged order)
  scanned := by
    rw [scan_rearranged order]
    exact .self (fun _ => rfl) fun _ _ => optionRel_self fun _ _ => rfl
  constants := by
    rw [constants_rearranged order]
    exact .self (fun _ => rfl) fun _ _ => optionRel_self fun _ _ => rfl

end Select

/-- The SELECT below a SERIES may have the columns of the name pushed into its list. -/
theorem series_rearranged {statement name select select' list : Node}
    (same : Node.SameClauses select select') (found : select.selectList? = some list) :
    sameClauses.Series env env statement name name select select' list list where
  axes := rfl
  named := by
    have plans : ∀ {p q : Plan} (axes : Nat), p = q → ∀ name,
        Plan.series ("series" :: p.outputColumns.take axes) name p =
          .series ("series" :: q.outputColumns.take axes) name q := by
      rintro p _ axes rfl name
      rfl
    by_cases fixed : name.kind = .seriesName
    · rw [seriesName, seriesName, if_pos fixed, if_pos fixed]
      cases name.token with
      | none => exact .fail _
      | some token => exact .pure ⟨sameClauses.same _, same, fun _ => trivial, plans _⟩
    · have kind := Node.selectList?_kind found
      have headed : (pushedName env name list).target.kind = .selectList :=
        (PushDown.apply_accepted _ name kind).2
      rw [seriesName_computed env select fixed kind, seriesName_computed env select' fixed kind]
      split
      · exact .fail _
      · refine .bind (.note trivial) fun _ => .pure ?_
        exact ⟨sameClauses.same _, same.withList headed, fun _ => trivial, plans _⟩

/-- A step of planning does not depend on the order of clauses. -/
theorem clauses_kept (env : Environment) : sameClauses.Kept env env where
  declines := rfl
  onDefect := rfl
  select := by
    intro n n' same kind
    cases same with
    | select token id headed order => exact selects_rearranged headed order
    | series => cases kind
  series := by
    intro n n' same kind
    cases same with
    | select => cases kind
    | @series token id name select select' same =>
      refine .named ?_
      rw [same.selectList?]
      exact optionRel_self fun list found => series_rearranged same found
  chart := by
    intro n n' same kind
    cases same <;> cases kind
  drawn := by
    intro n n' same kind
    cases same <;> cases kind

/-- The end of planning does not depend on the order of clauses. -/
theorem clause_order_irrelevant {statement statement' : Node}
    (same : Node.SameClauses statement statement') :
    (buildPlan env statement').result = (buildPlan env statement).result := by
  have runs := (buildPlan_corresponds (clauses_kept env) same).result
  obtain ⟨stop, _, left, right, rfl⟩ | ⟨p, _, left, right, rfl⟩ := runs.ends
  · rw [left, right]
  · rw [left, right]

/-- The clauses of the SELECT below a SERIES, from the last to the first. -/
theorem clause_order_irrelevant_sales :
    (buildPlan salesEnvironment (.seriesFrom (.column "city") { salesTaxed with
      children := salesTaxed.children.take 1 ++ (salesTaxed.children.drop 1).reverse })).result =
      (buildPlan salesEnvironment (.seriesFrom (.column "city") salesTaxed)).result := by
  have order : Node.Rearranged (salesTaxed.children.drop 1) (salesTaxed.children.drop 1).reverse := by
    intro kind
    cases kind <;> rfl
  exact clause_order_irrelevant (.series _ _ _ (.select _ _ rfl order))

end Planning

end StatementPlan
