/-
What a sequence of steps assembles.  Each clause is made of the steps for it, in their order: of all
of them where items, keys or sort specifications add up, and otherwise of the last one.  How the
steps for one clause are mixed with those for others makes no difference.

`drafted_eq`: the draft of a sequence of steps.
`steps_assemble`: the clauses of the statement, and what each is made of.
-/
import Mathlib.Data.List.Induction
import StatementPlan.Proofs.Tree.Built

namespace StatementPlan

namespace SelectStep

/-- The clause that a step is for. -/
def clause : SelectStep → Kind
  | column _ | item _ | itemAs .. | all => .selectList
  | table _ => .from
  | filter _ => .where
  | groupBy _ => .groupBy
  | having _ => .having
  | orderBy .. => .orderBy
  | limit .. => .limit

/-- Some step is for the clause. -/
def present (steps : List SelectStep) (kind : Kind) : Bool := steps.any (·.clause == kind)

/-- The item that a step adds. -/
def item? : SelectStep → Option Node
  | column name => some (.derived (.column name))
  | item expr => some (.derived expr)
  | itemAs expr name => some (.derivedAs expr name)
  | all => some { kind := .all }
  | _ => none

def table? : SelectStep → Option String
  | table name => some name
  | _ => none

def filter? : SelectStep → Option Node
  | filter predicate => some predicate
  | _ => none

def key? : SelectStep → Option Node
  | groupBy key => some key
  | _ => none

def having? : SelectStep → Option Node
  | having predicate => some predicate
  | _ => none

/-- The sort specification that a step adds: what to sort by, and whether from the top down. -/
def sort? : SelectStep → Option (Node × Bool)
  | orderBy expr descending => some (expr, descending)
  | _ => none

/-- The row count of a step, with its offset. -/
def limit? : SelectStep → Option (Nat × Option Nat)
  | limit count offset => some (count, offset)
  | _ => none

/-- The function gives what the steps for a clause carry. -/
def Carries (carried : SelectStep → Option α) (kind : Kind) : Prop :=
  ∀ s, (carried s).isSome = (s.clause == kind)

theorem item?_carries : Carries item? .selectList := fun s => by cases s <;> rfl

theorem table?_carries : Carries table? .from := fun s => by cases s <;> rfl

theorem filter?_carries : Carries filter? .where := fun s => by cases s <;> rfl

theorem key?_carries : Carries key? .groupBy := fun s => by cases s <;> rfl

theorem having?_carries : Carries having? .having := fun s => by cases s <;> rfl

theorem sort?_carries : Carries sort? .orderBy := fun s => by cases s <;> rfl

theorem limit?_carries : Carries limit? .limit := fun s => by cases s <;> rfl

namespace Carries

variable {carried : SelectStep → Option α} {kind : Kind}

/-- What is carried depends on the steps for the clause. -/
theorem filterMap_filter (h : Carries carried kind) (steps : List SelectStep) :
    (steps.filter (·.clause == kind)).filterMap carried = steps.filterMap carried := by
  induction steps with
  | nil => rfl
  | cons s rest ih =>
    have here := h s
    rw [List.filter_cons]
    cases given : carried s with
    | none =>
      rw [given] at here
      rw [← here, List.filterMap_cons_none given]
      exact ih
    | some a =>
      rw [given] at here
      rw [← here, List.filterMap_cons_some given, if_pos (by rfl), List.filterMap_cons_some given, ih]

theorem filterMap_congr (h : Carries carried kind) {steps others : List SelectStep}
    (same : others.filter (·.clause == kind) = steps.filter (·.clause == kind)) :
    others.filterMap carried = steps.filterMap carried := by
  rw [← h.filterMap_filter, same, h.filterMap_filter]

theorem isEmpty_filterMap (h : Carries carried kind) (steps : List SelectStep) :
    (steps.filterMap carried).isEmpty = !present steps kind := by
  induction steps with
  | nil => rfl
  | cons s rest ih =>
    have here := h s
    rw [present, List.any_cons, ← here]
    cases given : carried s with
    | none => simpa [List.filterMap_cons_none given, present] using ih
    | some a => simp [List.filterMap_cons_some given]

theorem isSome_getLast? (h : Carries carried kind) (steps : List SelectStep) :
    (steps.filterMap carried).getLast?.isSome = present steps kind := by
  rw [← Bool.not_not (present _ _), ← h.isEmpty_filterMap steps]
  cases steps.filterMap carried <;> simp

end Carries

end SelectStep

open SelectStep

/-- The draft of a sequence of steps, clause by clause. -/
theorem drafted_eq (steps : List SelectStep) : drafted steps =
    { items := steps.filterMap item?
      table := (steps.filterMap table?).getLast?
      predicate := (steps.filterMap filter?).getLast?
      keys := steps.filterMap key?
      having := (steps.filterMap having?).getLast?
      order := steps.filterMap sort?
      limit := (steps.filterMap limit?).getLast? } := by
  induction steps using List.reverseRecOn with
  | nil => rfl
  | append_singleton steps s ih =>
    rw [drafted] at ih
    rw [drafted, List.foldl_append, ih]
    cases s <;> simp [SelectDraft.step, List.filterMap_append, item?, table?, filter?, key?, having?,
      sort?, limit?]

namespace SelectDraft

theorem kinds_clause (f : α → Node) {kind : Kind} (same : ∀ a, (f a).kind = kind) {given : Kind → Bool}
    {x : Option α} (h : x.isSome = given kind) :
    (x.toList.map f).map Node.kind = [kind].filter given := by
  cases x with
  | none => simp [← h]
  | some a => simp [← h, same]

theorem kinds_clauseOfAll (f : List α → Node) {kind : Kind} (same : ∀ as, (f as).kind = kind)
    {given : Kind → Bool} {as : List α} (h : as.isEmpty = !given kind) :
    (if as.isEmpty then [] else [f as]).map Node.kind = [kind].filter given := by
  cases as with
  | nil => simp_all
  | cons => simp_all

/-- The clauses after the select list, in the order in which they are assembled. -/
def clauseOrder : List Kind := [.from, .where, .groupBy, .having, .orderBy, .limit]

theorem kinds_drafted (steps : List SelectStep) : (drafted steps).clauses.map Node.kind =
    clauseOrder.filter (present steps) := by
  simp only [drafted_eq, clauses, List.map_append]
  rw [kinds_clause fromClause (fun _ => rfl) (table?_carries.isSome_getLast? steps),
    kinds_clause (fun p => .ofChildren .where [p]) (fun _ => rfl) (filter?_carries.isSome_getLast? steps),
    kinds_clauseOfAll (.ofChildren .groupBy) (fun _ => rfl) (key?_carries.isEmpty_filterMap steps),
    kinds_clause (fun p => .ofChildren .having [p]) (fun _ => rfl) (having?_carries.isSome_getLast? steps),
    kinds_clauseOfAll (fun order => .ofChildren .orderBy (order.map sortSpec)) (fun _ => rfl)
      (sort?_carries.isEmpty_filterMap steps),
    kinds_clause (fun l : Nat × Option Nat => limitClause l.1 l.2) (fun _ => rfl)
      (limit?_carries.isSome_getLast? steps)]
  simp only [← List.filter_append]
  rfl

end SelectDraft

open SelectDraft

/-- The statement has the clauses that there are steps for, in one order.  Items, keys and sort
specifications stand in the order of their steps; a table, a condition or a row count is that of the
last step for it. -/
structure Assembles (steps : List SelectStep) (statement : Node) : Prop where
  kind : statement.kind = .select
  order : statement.children.map Node.kind = .selectList :: clauseOrder.filter (present steps)
  distinct : (statement.children.map Node.kind).Nodup
  items : statement.findChild? .selectList = some (.ofChildren .selectList (steps.filterMap item?))
  table : statement.findChild? .from = (steps.filterMap table?).getLast?.map fromClause
  condition : statement.findChild? .where =
    (steps.filterMap filter?).getLast?.map fun p => .ofChildren .where [p]
  keys : statement.findChild? .groupBy =
    if present steps .groupBy then some (.ofChildren .groupBy (steps.filterMap key?)) else none
  having : statement.findChild? .having =
    (steps.filterMap having?).getLast?.map fun p => .ofChildren .having [p]
  sorted : statement.findChild? .orderBy = if present steps .orderBy then
    some (.ofChildren .orderBy ((steps.filterMap sort?).map sortSpec)) else none
  /-- The offset is that of the last step too: there is none if it has none. -/
  limit : statement.findChild? .limit =
    (steps.filterMap limit?).getLast?.map fun l => limitClause l.1 l.2
  /-- Steps with the same sequence for each clause assemble the same statement. -/
  interleaved : ∀ others, (∀ kind, others.filter (·.clause == kind) = steps.filter (·.clause == kind)) →
    Node.select others = statement

/-- Steps for one clause in the same order make the same draft. -/
theorem drafted_congr {steps others : List SelectStep}
    (same : ∀ kind, others.filter (·.clause == kind) = steps.filter (·.clause == kind)) :
    drafted others = drafted steps := by
  rw [drafted_eq, drafted_eq, item?_carries.filterMap_congr (same _),
    table?_carries.filterMap_congr (same _), filter?_carries.filterMap_congr (same _),
    key?_carries.filterMap_congr (same _), having?_carries.filterMap_congr (same _),
    sort?_carries.filterMap_congr (same _), limit?_carries.filterMap_congr (same _)]

/-- What steps assemble, however those for one clause are mixed with those for others. -/
theorem steps_assemble (steps : List SelectStep) : Assembles steps (.select steps) := by
  have order : (Node.select steps).children.map Node.kind =
      .selectList :: clauseOrder.filter (present steps) := congrArg _ (kinds_drafted steps)
  refine {
    kind := rfl
    order := order
    distinct := ?_
    items := ?_
    table := ?_
    condition := ?_
    keys := ?_
    having := ?_
    sorted := ?_
    limit := ?_
    interleaved := fun others same => congrArg build (drafted_congr same) }
  · have once : (Kind.selectList :: clauseOrder).Nodup := by decide
    exact order ▸ once.sublist (List.filter_sublist.cons_cons _)
  all_goals change (drafted steps).build.findChild? _ = _
  · rw [drafted_eq]
    rfl
  · rw [build_from, drafted_eq]
  · rw [build_where, drafted_eq]
  · rw [findChild?_groupBy, drafted_eq, key?_carries.isEmpty_filterMap]
    cases present steps .groupBy <;> rfl
  · rw [findChild?_having, drafted_eq]
  · rw [findChild?_orderBy, drafted_eq, sort?_carries.isEmpty_filterMap]
    cases present steps .orderBy <;> rfl
  · rw [findChild?_limit, drafted_eq]

/-- A second row count takes the offset of the first away, wherever the steps for other clauses are. -/
theorem steps_assemble_limitTwice :
    let mixed := [.limit 10 (some 5), .column "a", .table "t", .limit 3 none, .groupBy (.column "a"),
      .table "u"]
    Node.select mixed = .select [.table "t", .table "u", .column "a", .groupBy (.column "a"),
      .limit 10 (some 5), .limit 3 none] ∧
    (Node.select mixed).findChild? .limit = some (limitClause 3 none) :=
  ⟨(steps_assemble _).interleaved _ fun kind => by cases kind <;> rfl, (steps_assemble _).limit⟩

end StatementPlan
