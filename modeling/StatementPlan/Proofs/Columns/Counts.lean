/-
What pushing columns down counts: new items as inserted, the references that share one as reused.

`apply_counted`, `applyAll_counted`: into a select list, each reference is counted once.
`Counted.reused_of_unshared`: without shared slots nothing is reused.
-/
import StatementPlan.Proofs.Columns.PushDown

namespace StatementPlan.PushDown

/-- The counts after references are pushed into a list. -/
structure Counted (p : PushDown) (references : List Node) (target : Node) (counts : PushDown) : Prop where
  inserted : counts.inserted =
    p.inserted + (fresh p.shared (Node.plainColumns target.children) references).length
  total : counts.inserted + counts.reused = p.inserted + p.reused + references.length

variable {p counts : PushDown} {target : Node}

theorem Counted.reused_of_unshared {references : List Node} (h : Counted p references target counts)
    (unshared : p.shared = false) : counts.reused = p.reused := by
  have inserted := h.inserted
  have total := h.total
  rw [unshared, fresh_unshared] at inserted
  omega

theorem Counted.append {references more : List Node} {q : Pushed α}
    (first : Counted p references target q.counts)
    (pushes : Pushes p references target q) (columns : ∀ r ∈ references, r.kind = .columnName)
    (second : Counted q.counts more q.target counts) : Counted p (references ++ more) target counts := by
  refine ⟨?_, ?_⟩
  · rw [second.inserted, first.inserted, pushes.shared, pushes.plainColumns columns, fresh_append,
      List.length_append, Nat.add_assoc]
  · rw [second.total, first.total, List.length_append, Nat.add_assoc]

theorem place_counted (p : PushDown) {reference : Node} (column : reference.kind = .columnName)
    (list : target.kind = .selectList) : Counted p [reference] target (p.place reference target).counts := by
  rw [place, if_pos list]
  cases found : if p.shared then slot? target reference else none with
  | some position =>
    obtain ⟨seen, _⟩ := position_eq_some column found
    exact ⟨by simp [fresh, seen], Nat.add_assoc _ _ 1 ▸ rfl⟩
  | none =>
    have new := (position_eq_none column).1 found
    exact ⟨by simp [fresh, new], Nat.add_right_comm ..⟩

theorem applyAll_counted {ns : List Node}
    (each : ∀ n ∈ ns, ∀ (p : PushDown) {target : Node}, target.kind = .selectList →
      Counted p n.references target (p.apply n target).counts)
    (p : PushDown) (list : target.kind = .selectList) :
    Counted p (Node.referencesAll ns) target (p.applyAll ns target).counts := by
  induction ns generalizing p target with
  | nil => exact ⟨rfl, rfl⟩
  | cons n rest ih =>
    obtain ⟨accepted, list'⟩ := apply_accepted p n list
    have others := ih (fun m mem => each m (by simp [mem])) (p.apply n target).counts list'
    simp only [applyAll, accepted, if_true, Node.referencesAll]
    exact (each n (by simp) p list).append (apply_pushes p n list).1
      (fun r mem => (Node.mem_references r mem).1) others

theorem apply_counted (p : PushDown) (n : Node) (list : target.kind = .selectList) :
    Counted p n.references target (p.apply n target).counts := by
  refine Node.induct (motive := fun n => ∀ (p : PushDown) {target : Node}, target.kind = .selectList →
    Counted p n.references target (p.apply n target).counts) ?_ n p list
  intro n ih p target list
  by_cases column : n.kind = .columnName
  · rw [apply_column p column, Node.references_of_columnName column]
    exact place_counted p column list
  · rw [apply_other p column, Node.references_of_ne column]
    exact applyAll_counted ih p list

end StatementPlan.PushDown
