/-
The column names of a tree that count: those below no other column name.  Push-down and binding
stop at a column name, so whatever is below it stays as it is.

`mem_references`: a reference is part of the tree, and it is a column name.
`no_columnName`: a tree without references has no column name at all.
-/
import StatementPlan.Tree.Build

namespace StatementPlan.Node

mutual

/-- The column names of a tree that are below no other one, in reading order. -/
def references : Node → List Node
  | ⟨kind, token, children, id⟩ =>
    if kind = .columnName then [⟨kind, token, children, id⟩] else referencesAll children

def referencesAll : List Node → List Node
  | [] => []
  | c :: rest => references c ++ referencesAll rest

end

/-- No part of the tree is a column by position yet, as in every tree that was not rewritten. -/
def Unplaced (n : Node) : Prop := ∀ m ∈ n.subtrees, m.kind ≠ .resolvedColumn

instance (n : Node) : Decidable n.Unplaced := inferInstanceAs (Decidable (∀ m ∈ n.subtrees, _))

/-- The name a reference gives its column; none is as good as an empty one. -/
def columnText (n : Node) : String := n.text?.getD ""

theorem Unplaced.child {n c : Node} (h : n.Unplaced) (mem : c ∈ n.children) : c.Unplaced :=
  fun m part => h m (subtrees_child mem part)

theorem Unplaced.root {n : Node} (h : n.Unplaced) : n.kind ≠ .resolvedColumn :=
  h n n.self_mem_subtrees

theorem unplaced_iff {n : Node} :
    n.Unplaced ↔ n.kind ≠ .resolvedColumn ∧ ∀ c ∈ n.children, c.Unplaced := by
  refine ⟨fun h => ⟨h.root, fun c mem => h.child mem⟩, ?_⟩
  intro h m part
  obtain ⟨root, below⟩ := h
  cases n
  simp only [subtrees, List.mem_cons, mem_subtreesAll] at part
  rcases part with rfl | ⟨c, child, part⟩
  · exact root
  · exact below c child m part

theorem subtrees_trans {n m part : Node} (h : m ∈ n.subtrees) (inside : part ∈ m.subtrees) :
    part ∈ n.subtrees := by
  refine Node.induct (motive := fun n => m ∈ n.subtrees → part ∈ n.subtrees) ?_ n h
  intro n ih h
  have here := h
  cases n
  simp only [subtrees, List.mem_cons, mem_subtreesAll] at here
  rcases here with rfl | ⟨c, child, below⟩
  · exact inside
  · exact subtrees_child child (ih c child below)

theorem referencesAll_eq_flatMap (ns : List Node) : referencesAll ns = ns.flatMap references := by
  induction ns with
  | nil => rfl
  | cons c rest ih => simp [referencesAll, ih]

@[simp] theorem referencesAll_append (ms ns : List Node) :
    referencesAll (ms ++ ns) = referencesAll ms ++ referencesAll ns := by
  simp [referencesAll_eq_flatMap]

theorem subtreesAll_eq_flatMap (ns : List Node) : subtreesAll ns = ns.flatMap subtrees := by
  induction ns with
  | nil => rfl
  | cons c rest ih => simp [subtreesAll, ih]

@[simp] theorem subtreesAll_append (ms ns : List Node) :
    subtreesAll (ms ++ ns) = subtreesAll ms ++ subtreesAll ns := by
  simp [subtreesAll_eq_flatMap]

theorem references_of_columnName {n : Node} (h : n.kind = .columnName) : n.references = [n] := by
  cases n
  simp_all [references]

theorem references_of_ne {n : Node} (h : n.kind ≠ .columnName) :
    n.references = referencesAll n.children := by
  cases n
  simp_all [references]

theorem references_ofChildren {kind : Kind} (h : kind ≠ .columnName) (ns : List Node) :
    (ofChildren kind ns).references = referencesAll ns :=
  references_of_ne h

theorem mem_references {n : Node} : ∀ r ∈ n.references, r.kind = .columnName ∧ r ∈ n.subtrees := by
  refine Node.induct (motive := fun n => ∀ r ∈ n.references, r.kind = .columnName ∧ r ∈ n.subtrees)
    ?_ n
  intro n ih r mem
  by_cases column : n.kind = .columnName
  · rw [references_of_columnName column, List.mem_singleton] at mem
    exact ⟨mem ▸ column, mem ▸ n.self_mem_subtrees⟩
  · rw [references_of_ne column, referencesAll_eq_flatMap, List.mem_flatMap] at mem
    obtain ⟨c, child, mem⟩ := mem
    obtain ⟨kind, part⟩ := ih c child r mem
    exact ⟨kind, subtrees_child child part⟩

theorem Unplaced.references {n : Node} (h : n.Unplaced) : ∀ r ∈ n.references, r.Unplaced :=
  fun _ mem m part => h m (subtrees_trans (mem_references _ mem).2 part)

theorem Unplaced.derived {r : Node} (h : r.Unplaced) : (derived r).Unplaced :=
  unplaced_iff.2 ⟨by simp [Node.derived, ofChildren], by simpa [Node.derived, ofChildren] using h⟩

/-- A tree without references has no column name at all. -/
theorem no_columnName {n : Node} (none : n.references = []) :
    ∀ m ∈ n.subtrees, m.kind ≠ .columnName := by
  refine Node.induct (motive := fun n => n.references = [] → ∀ m ∈ n.subtrees,
    m.kind ≠ .columnName) ?_ n none
  intro n ih none m part
  have other : n.kind ≠ .columnName := fun column => by simp [references_of_columnName column] at none
  rw [references_of_ne other, referencesAll_eq_flatMap, List.flatMap_eq_nil_iff] at none
  cases n
  simp only [subtrees, List.mem_cons, mem_subtreesAll] at part
  rcases part with rfl | ⟨c, child, part⟩
  · exact other
  · exact ih c child (none c child) m part

/-- Items that each consist of one reference refer to just that. -/
theorem referencesAll_map_derived {rs : List Node} (h : ∀ r ∈ rs, r.kind = .columnName) :
    referencesAll (rs.map derived) = rs := by
  induction rs with
  | nil => rfl
  | cons r rest ih =>
    have here := references_of_columnName (h r (by simp))
    have others := ih fun s mem => h s (by simp [mem])
    simp [referencesAll, references, derived, ofChildren, here, others]

end StatementPlan.Node
