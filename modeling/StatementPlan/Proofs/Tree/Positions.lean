/-
Edits at a position that was looked up.  The first child of a kind is where it was found, and a node
has a first child if it has any, so none of these edits is refused.

`removeChild?_positionOf`: removing the first child of a kind.
`cleared`: removing the children of a kind one by one, until there is none.
-/
import StatementPlan.Tree.Edit

namespace StatementPlan.Node

variable {n : Node} {kind : Kind}

theorem positionOf?_eq_none_iff : n.positionOf? kind = none ↔ n.hasChild kind = false := by
  simp [positionOf?, hasChild]

theorem exists_positionOf {c : Node} (mem : c ∈ n.children) (here : c.kind = kind) :
    ∃ i, n.positionOf? kind = some i := by
  rw [← Option.isSome_iff_exists, positionOf?, List.findIdx?_isSome, List.any_eq_true]
  exact ⟨c, mem, by simpa using here⟩

theorem removeChild?_positionOf {i : Nat} (h : n.positionOf? kind = some i) :
    ∃ clause, n.findChild? kind = some clause ∧
      n.removeChild? i = some (clause, { n with children := n.children.eraseP (·.kind == kind) }) := by
  obtain ⟨bound, _, _⟩ := List.findIdx?_eq_some_iff_getElem.1 h
  have taken : n.children.eraseP (·.kind == kind) = n.children.eraseIdx i := by
    rw [positionOf?] at h
    rw [List.eraseP_eq_eraseIdx, h]
  have here : n.children[i]? = some n.children[i] := List.getElem?_eq_getElem bound
  refine ⟨n.children[i], ?_, ?_⟩
  · rw [positionOf?] at h
    rw [findChild?, List.find?_eq_bind_findIdx?_getElem?, h, Option.bind_some, here]
  · rw [removeChild?, child?, here, Option.map_some, taken]

theorem replaceChild?_first {old : Node} {rest : List Node} (shape : n.children = old :: rest)
    (child : Node) : n.replaceChild? 0 child = some (old, { n with children := child :: rest }) := by
  simp [replaceChild?, child?, shape]

/-- What is left of a node when children of a kind are removed, the first one each time, until there
is none. -/
inductive Cleared (kind : Kind) : Node → Node → Prop
  | done {n : Node} (none : n.positionOf? kind = none) : Cleared kind n n
  | more {n rest cleared clause : Node} {i : Nat} (found : n.positionOf? kind = some i)
      (removed : n.removeChild? i = some (clause, rest)) (others : Cleared kind rest cleared) :
      Cleared kind n cleared

/-- Each of them is there to be removed, and the other children are left. -/
theorem cleared (kind : Kind) (n : Node) :
    Cleared kind n { n with children := n.children.filter (·.kind != kind) } := by
  generalize count : n.children.countP (·.kind == kind) = left
  induction left generalizing n with
  | zero =>
    have none : ∀ c ∈ n.children, ¬(c.kind == kind) = true := List.countP_eq_zero.1 count
    have same : n.children.filter (·.kind != kind) = n.children :=
      List.filter_eq_self.2 fun c mem => by simpa using none c mem
    have whole : { n with children := n.children.filter (·.kind != kind) } = n := by
      rw [same]
      cases n
      rfl
    rw [whole]
    exact .done (positionOf?_eq_none_iff.2 (by simpa [hasChild] using none))
  | succ left ih =>
    obtain ⟨c, mem, here⟩ := List.countP_pos_iff.1 (Nat.lt_of_lt_of_eq (Nat.succ_pos left) count.symm)
    obtain ⟨i, found⟩ := exists_positionOf mem (by simpa using here)
    obtain ⟨clause, _, removed⟩ := removeChild?_positionOf found
    obtain ⟨first, before, after, _, isKind, shape, taken⟩ :=
      List.exists_of_eraseP (p := (·.kind == kind)) mem here
    rw [taken] at removed
    have one : (first :: after).countP (·.kind == kind) = after.countP (·.kind == kind) + 1 :=
      List.countP_cons_of_pos isKind
    have fewer : (before ++ after).countP (·.kind == kind) = left := by
      rw [shape, List.countP_append, one] at count
      rw [List.countP_append]
      omega
    have others : Cleared kind _ _ := ih { n with children := before ++ after } fewer
    have same : (before ++ after).filter (·.kind != kind) = n.children.filter (·.kind != kind) := by
      have gone : (first.kind != kind) = false := by simpa using isKind
      simp [shape, gone]
    rw [same] at others
    exact .more found removed others

end StatementPlan.Node
