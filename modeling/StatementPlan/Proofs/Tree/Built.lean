/-
Statements as they are assembled: expressions of columns, constants, calls and operators, and
SELECTs of such expressions, step by step.

`Built.mem_references_iff`: the references of an assembled expression are its column names.
`drafted_built`: what steps assemble is made of the expressions that they carry.
`clauses_kept`, `filter_build`: the clauses of some kinds are those of a draft with nothing else.
-/
import StatementPlan.Proofs.Tree.References

namespace StatementPlan

namespace Node

/-- An expression of columns, constants, calls and operators. -/
inductive Built : Node → Prop
  | column (name : String) : Built (.column name)
  | int (value : Int64) : Built (.int value)
  | string (value : String) : Built (.string value)
  | boolean (value : Bool) : Built (.boolean value)
  | call (name : String) {args : List Node} (each : ∀ a ∈ args, Built a) : Built (.call name args)
  | operator (op : Operator) (token : Option Token) (id : Option Nat) {args : List Node}
      (each : ∀ a ∈ args, Built a) : Built ⟨.operator op, token, args, id⟩

/-- An item of a select list over such expressions. -/
inductive BuiltItem : Node → Prop
  | all : BuiltItem { kind := .all }
  | derived {expr : Node} (built : expr.Built) : BuiltItem (.derived expr)
  | derivedAs {expr : Node} (built : expr.Built) (name : String) : BuiltItem (.derivedAs expr name)

/-- No column name of the tree has anything beneath it. -/
def BareNames (n : Node) : Prop := ∀ m ∈ n.subtrees, m.kind = .columnName → m.children = []

instance (n : Node) : Decidable n.BareNames :=
  inferInstanceAs (Decidable (∀ m ∈ n.subtrees, m.kind = .columnName → m.children = []))

theorem BareNames.mem_references_iff {n r : Node} (bare : n.BareNames) :
    r ∈ n.references ↔ r ∈ n.subtrees ∧ r.kind = .columnName := by
  refine ⟨fun mem => (mem_references r mem).symm, ?_⟩
  refine Node.induct (motive := fun n => n.BareNames →
    r ∈ n.subtrees ∧ r.kind = .columnName → r ∈ n.references) ?_ n bare
  intro n ih bare h
  obtain ⟨part, column⟩ := h
  by_cases here : n.kind = .columnName
  · have none := bare n n.self_mem_subtrees here
    rw [references_of_columnName here]
    cases n
    simp_all [subtrees, subtreesAll]
  · rw [references_of_ne here, referencesAll_eq_flatMap, List.mem_flatMap]
    cases n
    simp only [subtrees, List.mem_cons, mem_subtreesAll] at part
    rcases part with rfl | ⟨c, child, part⟩
    · exact absurd column here
    · exact ⟨c, child, ih c child (fun m inside => bare m (subtrees_child child inside)) ⟨part, column⟩⟩

theorem mem_referencesAll_iff {ns : List Node} (bare : ∀ n ∈ ns, n.BareNames) {r : Node} :
    r ∈ referencesAll ns ↔ r ∈ subtreesAll ns ∧ r.kind = .columnName := by
  rw [referencesAll_eq_flatMap, List.mem_flatMap, mem_subtreesAll]
  constructor
  · rintro ⟨n, mem, here⟩
    obtain ⟨part, column⟩ := (bare n mem).mem_references_iff.1 here
    exact ⟨⟨n, mem, part⟩, column⟩
  · rintro ⟨⟨n, mem, part⟩, column⟩
    exact ⟨n, mem, (bare n mem).mem_references_iff.2 ⟨part, column⟩⟩

namespace Built

variable {n : Node}

/-- Every part of an assembled expression is one. -/
theorem part (built : n.Built) : ∀ m ∈ n.subtrees, m.Built := by
  induction built with
  | column name => exact fun m mem => List.mem_singleton.1 mem ▸ .column name
  | int value => exact fun m mem => List.mem_singleton.1 mem ▸ .int value
  | string value => exact fun m mem => List.mem_singleton.1 mem ▸ .string value
  | boolean value => exact fun m mem => List.mem_singleton.1 mem ▸ .boolean value
  | call name each ih =>
    intro m mem
    simp only [Node.call, subtrees, List.mem_cons, mem_subtreesAll] at mem
    rcases mem with rfl | ⟨a, arg, mem⟩
    · exact .call name each
    · exact ih a arg m mem
  | operator op token id each ih =>
    intro m mem
    simp only [subtrees, List.mem_cons, mem_subtreesAll] at mem
    rcases mem with rfl | ⟨a, arg, mem⟩
    · exact .operator op token id each
    · exact ih a arg m mem

theorem bareNames (built : n.Built) : n.BareNames := by
  intro m mem column
  cases built.part m mem with
  | column => rfl
  | _ => cases column

end Built

namespace BuiltItem

variable {n : Node}

/-- The parts of an item besides those of its expression are neither columns nor calls. -/
theorem part (built : n.BuiltItem) : ∀ m ∈ n.subtrees, m.Built ∨
    m.kind ≠ .columnName ∧ m.kind ≠ .methodCall := by
  intro m mem
  cases built with
  | all =>
    obtain rfl := List.mem_singleton.1 mem
    exact .inr ⟨nofun, nofun⟩
  | derived built | derivedAs built =>
    simp only [Node.derived, Node.derivedAs, ofChildren, ofToken, subtrees, subtreesAll, List.append_nil,
      List.mem_cons, List.mem_append, List.not_mem_nil, or_false] at mem
    grind [Built.part]

theorem bareNames (built : n.BuiltItem) : n.BareNames := by
  intro m mem column
  rcases built.part m mem with built | ⟨other, _⟩
  · exact built.bareNames m m.self_mem_subtrees column
  · exact absurd column other

theorem references (built : n.BuiltItem) : ∀ r ∈ n.references, r.Built := by
  intro r mem
  obtain ⟨column, part⟩ := mem_references r mem
  exact (built.part r part).resolve_right fun other => other.1 column

end BuiltItem

end Node

/-- The step carries assembled expressions, and counts that are sizes. -/
def SelectStep.Built : SelectStep → Prop
  | .item expr | .itemAs expr _ | .filter expr | .groupBy expr | .having expr | .orderBy expr _ =>
    expr.Built
  | .limit count offset => count < Numeral.sizeLimit ∧ ∀ n ∈ offset, n < Numeral.sizeLimit
  | .column _ | .all | .table _ => True

/-- The step adds something that planning evaluates. -/
def SelectStep.evaluated : SelectStep → Bool
  | .having _ | .orderBy .. => false
  | _ => true

/-- What steps assemble. -/
def drafted (steps : List SelectStep) : SelectDraft := steps.foldl SelectDraft.step {}

namespace SelectDraft

variable {d : SelectDraft}

/-- The draft is made of assembled expressions. -/
structure Built (d : SelectDraft) : Prop where
  items : ∀ item ∈ d.items, item.BuiltItem
  predicate : ∀ p ∈ d.predicate, p.Built
  keys : ∀ k ∈ d.keys, k.Built
  limit : ∀ l ∈ d.limit, l.1 < Numeral.sizeLimit ∧ ∀ n ∈ l.2, n < Numeral.sizeLimit

theorem Built.step (built : d.Built) {s : SelectStep} (carried : s.Built) : (d.step s).Built := by
  obtain ⟨items, predicate, keys, limit⟩ := built
  have more : ∀ {item : Node}, item.BuiltItem → ∀ i ∈ d.items ++ [item], i.BuiltItem :=
    fun item => List.forall_mem_append.2 ⟨items, List.forall_mem_singleton.2 item⟩
  cases s with
  | column name => exact ⟨more (.derived (.column name)), predicate, keys, limit⟩
  | item expr => exact ⟨more (.derived carried), predicate, keys, limit⟩
  | itemAs expr name => exact ⟨more (.derivedAs carried name), predicate, keys, limit⟩
  | all => exact ⟨more .all, predicate, keys, limit⟩
  | filter p =>
    refine ⟨items, fun q mem => ?_, keys, limit⟩
    obtain rfl := Option.some.inj mem
    exact carried
  | groupBy k =>
    exact ⟨items, predicate, List.forall_mem_append.2 ⟨keys, List.forall_mem_singleton.2 carried⟩, limit⟩
  | limit count offset =>
    refine ⟨items, predicate, keys, fun l mem => ?_⟩
    obtain rfl := Option.some.inj mem
    exact carried
  | table | having | orderBy => exact ⟨items, predicate, keys, limit⟩

theorem Built.steps (built : d.Built) {steps : List SelectStep} (carried : ∀ s ∈ steps, s.Built) :
    (steps.foldl SelectDraft.step d).Built := by
  induction steps generalizing d with
  | nil => exact built
  | cons s rest ih =>
    exact ih (built.step (carried s (by simp))) fun s mem => carried s (by simp [mem])

/-- Without steps for HAVING and ORDER BY there is none in the draft. -/
theorem evaluated_iff (steps : List SelectStep) :
    (steps.foldl SelectDraft.step d).having = none ∧ (steps.foldl SelectDraft.step d).order = [] ↔
      (d.having = none ∧ d.order = []) ∧ ∀ s ∈ steps, s.evaluated = true := by
  induction steps generalizing d with
  | nil => simp
  | cons s rest ih =>
    rw [List.foldl_cons, ih, List.forall_mem_cons, ← and_assoc]
    refine and_congr_left fun _ => ?_
    cases s <;> simp [SelectDraft.step, SelectStep.evaluated]

/-- The draft with the clauses of some kinds only. -/
def kept (keep : Kind → Bool) (d : SelectDraft) : SelectDraft where
  items := d.items
  table := if keep .from then d.table else none
  predicate := if keep .where then d.predicate else none
  keys := if keep .groupBy then d.keys else []
  having := if keep .having then d.having else none
  order := if keep .orderBy then d.order else []
  limit := if keep .limit then d.limit else none

theorem filter_clause (f : α → Node) (kind : Kind) (same : ∀ a, (f a).kind = kind) (keep : Kind → Bool)
    (x : Option α) : (x.toList.map f).filter (keep ·.kind) =
      (if keep kind then x else none).toList.map f := by
  cases x with
  | none => simp
  | some a => cases here : keep kind <;> simp [same, here]

theorem filter_clauseOfAll (f : List α → Node) (kind : Kind) (same : ∀ as, (f as).kind = kind)
    (keep : Kind → Bool) (as : List α) :
    (if as.isEmpty then [] else [f as]).filter (keep ·.kind) =
      if (if keep kind then as else []).isEmpty then [] else [f (if keep kind then as else [])] := by
  cases as with
  | nil => simp
  | cons => cases here : keep kind <;> simp [same, here]

/-- The clauses of some kinds are those of a draft with nothing else. -/
theorem clauses_kept (keep : Kind → Bool) (d : SelectDraft) :
    d.clauses.filter (keep ·.kind) = (d.kept keep).clauses := by
  simp only [clauses, List.filter_append]
  rw [filter_clause fromClause .from fun _ => rfl,
    filter_clause (fun p => .ofChildren .where [p]) .where fun _ => rfl,
    filter_clauseOfAll (.ofChildren .groupBy) .groupBy fun _ => rfl,
    filter_clause (fun p => .ofChildren .having [p]) .having fun _ => rfl,
    filter_clauseOfAll (fun order => .ofChildren .orderBy (order.map sortSpec)) .orderBy fun _ => rfl,
    filter_clause (fun l : Nat × Option Nat => limitClause l.1 l.2) .limit fun _ => rfl]
  rfl

theorem filter_build (d : SelectDraft) (keep : Kind → Bool) :
    d.build.children.filter (keep ·.kind) =
      if keep .selectList then .ofChildren .selectList d.items :: (d.kept keep).clauses
      else (d.kept keep).clauses := by
  rw [build_children, List.filter_cons, clauses_kept]
  rfl

theorem findChild?_build (d : SelectDraft) {kind : Kind} (other : kind ≠ .selectList) :
    d.build.findChild? kind = (d.kept (· == kind)).clauses.head? := by
  rw [Node.findChild?, ← List.head?_filter, filter_build d (· == kind), if_neg]
  simpa using other.symm

theorem build_from (d : SelectDraft) : d.build.findChild? .from = d.table.map fromClause := by
  rw [findChild?_build d (by decide)]
  cases table : d.table <;> simp [kept, clauses, table]

theorem build_where (d : SelectDraft) :
    d.build.findChild? .where = d.predicate.map fun p => .ofChildren .where [p] := by
  rw [findChild?_build d (by decide)]
  cases predicate : d.predicate <;> simp [kept, clauses, predicate]

theorem findChild?_groupBy (d : SelectDraft) : d.build.findChild? .groupBy =
    if d.keys.isEmpty then none else some (.ofChildren .groupBy d.keys) := by
  rw [findChild?_build d (by decide)]
  cases keys : d.keys <;> simp [kept, clauses, keys]

theorem findChild?_having (d : SelectDraft) :
    d.build.findChild? .having = d.having.map fun p => .ofChildren .having [p] := by
  rw [findChild?_build d (by decide)]
  cases having : d.having <;> simp [kept, clauses, having]

theorem findChild?_orderBy (d : SelectDraft) : d.build.findChild? .orderBy =
    if d.order.isEmpty then none else some (.ofChildren .orderBy (d.order.map sortSpec)) := by
  rw [findChild?_build d (by decide)]
  cases order : d.order <;> simp [kept, clauses, order]

theorem findChild?_limit (d : SelectDraft) :
    d.build.findChild? .limit = d.limit.map fun l => limitClause l.1 l.2 := by
  rw [findChild?_build d (by decide)]
  cases limit : d.limit <;> simp [kept, clauses, limit]

end SelectDraft

/-- What steps assemble is made of the expressions that they carry. -/
theorem drafted_built {steps : List SelectStep} (carried : ∀ s ∈ steps, s.Built) :
    (drafted steps).Built :=
  SelectDraft.Built.steps ⟨by simp, by simp, by simp, by simp⟩ carried

end StatementPlan
