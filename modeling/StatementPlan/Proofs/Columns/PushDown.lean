/-
What pushing columns down into a select list leaves: the list with its items as they were and new
ones at its end, and the expression placed at items of that list.

`apply_pushes`, `applyAll_pushes`: into a select list every reference goes, and the new items are
those of the fresh references.
-/
import StatementPlan.Columns.PushDown
import StatementPlan.Proofs.Columns.Placement
import StatementPlan.Proofs.Columns.Slots

namespace StatementPlan.PushDown

/-- The push-down of references into a list adds the fresh ones at the end. -/
structure Pushes (p : PushDown) (references : List Node) (target : Node) (q : Pushed α) :
    Prop where
  shared : q.counts.shared = p.shared
  target : q.target = target.extend (fresh p.shared (Node.plainColumns target.children) references)

theorem Pushes.plainColumns {p : PushDown} {references : List Node} {target : Node} {q : Pushed α}
    (h : Pushes p references target q) (columns : ∀ r ∈ references, r.kind = .columnName) :
    Node.plainColumns q.target.children = Node.plainColumns target.children ++
      fresh p.shared (Node.plainColumns target.children) references := by
  rw [h.target]
  exact Node.plainColumns_extend target fun r mem => columns r (mem_of_mem_fresh mem)

theorem Pushes.append {p : PushDown} {references more : List Node} {target : Node} {q : Pushed α}
    {q' : Pushed β} (first : Pushes p references target q)
    (columns : ∀ r ∈ references, r.kind = .columnName) (second : Pushes q.counts more q.target q') :
    Pushes p (references ++ more) target q' where
  shared := second.shared.trans first.shared
  target := by
    rw [second.target, first.plainColumns columns, first.shared, first.target, Node.extend_extend,
      fresh_append]

theorem itemAt_iff {items : List Node} {reference : Node} (column : reference.kind = .columnName)
    {i : Nat} : Node.ItemAt items reference i ↔
      ∃ item, items[i]? = some item ∧ item.kind = .derivedColumn ∧ item.children.head? = some reference := by
  refine exists_congr fun item => and_congr_right fun _ => ⟨fun plain => ?_, fun found => ?_⟩
  · obtain ⟨derived, _, head⟩ := Node.plainColumn?_eq_some plain
    exact ⟨derived, head⟩
  · simp [Node.plainColumn?, found, column]

theorem slot?_eq_some {target reference : Node} {i : Nat} (column : reference.kind = .columnName)
    (h : slot? target reference = some i) (shared : Bool) :
    Node.SlotAt shared target.children reference i := by
  obtain ⟨bound, here, others⟩ := List.findIdx?_eq_some_iff_getElem.1 h
  simp only [Bool.and_eq_true, beq_iff_eq] at here others
  refine ⟨(itemAt_iff column).2 ⟨_, List.getElem?_eq_getElem bound, here⟩, fun _ j before found => ?_⟩
  obtain ⟨item, here', found⟩ := (itemAt_iff column).1 found
  obtain ⟨_, rfl⟩ := List.getElem?_eq_some_iff.1 here'
  exact others j before found

theorem slot?_eq_none {target reference : Node} (column : reference.kind = .columnName) :
    slot? target reference = none ↔ reference ∉ Node.plainColumns target.children := by
  rw [slot?, List.findIdx?_eq_none_iff, Node.mem_plainColumns]
  constructor
  · intro none found
    obtain ⟨item, mem, plain⟩ := found
    obtain ⟨derived, _, head⟩ := Node.plainColumn?_eq_some plain
    simpa [derived, head] using none item mem
  · intro absent item mem
    by_contra found
    simp only [Bool.not_eq_false, Bool.and_eq_true, beq_iff_eq] at found
    exact absent ⟨item, mem, by simp [Node.plainColumn?, found, column]⟩

theorem position_eq_some {shared : Bool} {target reference : Node}
    (column : reference.kind = .columnName) {i : Nat}
    (h : (if shared then slot? target reference else none) = some i) :
    (shared = true ∧ reference ∈ Node.plainColumns target.children) ∧
      Node.SlotAt shared target.children reference i := by
  cases shared with
  | false => cases h
  | true =>
    have slot := slot?_eq_some column h true
    exact ⟨⟨rfl, slot.item.mem⟩, slot⟩

/-- Without shared slots, or without an item of the reference, none is shared. -/
theorem position_eq_none {shared : Bool} {target reference : Node}
    (column : reference.kind = .columnName) :
    (if shared then slot? target reference else none) = none ↔
      ¬(shared = true ∧ reference ∈ Node.plainColumns target.children) := by
  cases shared with
  | false => simp
  | true => simp [slot?_eq_none column]

theorem apply_other (p : PushDown) {n : Node} (other : n.kind ≠ .columnName) (target : Node) :
    p.apply n target =
      { p.applyAll n.children target with
        rewritten := { n with children := (p.applyAll n.children target).rewritten } } := by
  obtain ⟨kind, token, children, id⟩ := n
  simp only [apply, if_neg other]

theorem apply_column (p : PushDown) {n : Node} (column : n.kind = .columnName) (target : Node) :
    p.apply n target = p.place n target := by
  obtain ⟨kind, token, children, id⟩ := n
  simp only [apply, if_pos column]

theorem place_pushes (p : PushDown) {reference target : Node} (column : reference.kind = .columnName)
    (list : target.kind = .selectList) :
    Pushes p [reference] target (p.place reference target) ∧
      Placed (Node.SlotAt p.shared (p.place reference target).target.children) reference
        (p.place reference target).rewritten := by
  rw [place, if_pos list]
  cases found : if p.shared then slot? target reference else none with
  | some position =>
    obtain ⟨seen, slot⟩ := position_eq_some column found
    refine ⟨⟨rfl, ?_⟩, .column column slot⟩
    simp [fresh, seen]
  | none =>
    have new := (position_eq_none column).1 found
    refine ⟨⟨rfl, ?_⟩, .column column ⟨?_, ?_⟩⟩
    · simp [fresh, new, Node.extend, Node.append]
    · exact ⟨.derived reference, by simp [Node.append], Node.plainColumn?_derived column⟩
    · intro shared j before found
      exact new ⟨shared, (found.of_append before).mem⟩

theorem applyAll_pushes {ns : List Node}
    (each : ∀ n ∈ ns, ∀ (p : PushDown) {target : Node}, target.kind = .selectList →
      Pushes p n.references target (p.apply n target) ∧
        Placed (Node.SlotAt p.shared (p.apply n target).target.children) n (p.apply n target).rewritten)
    (p : PushDown) {target : Node} (list : target.kind = .selectList) :
    Pushes p (Node.referencesAll ns) target (p.applyAll ns target) ∧
      List.Forall₂ (Placed (Node.SlotAt p.shared (p.applyAll ns target).target.children)) ns
        (p.applyAll ns target).rewritten := by
  induction ns generalizing p target with
  | nil =>
    refine ⟨⟨rfl, ?_⟩, .nil⟩
    simp [applyAll, Node.referencesAll, fresh]
  | cons n rest ih =>
    obtain ⟨first, here⟩ := each n (by simp) p list
    obtain ⟨accepted, list'⟩ := apply_accepted p n list
    obtain ⟨others, below⟩ := ih (fun m mem => each m (by simp [mem])) (p.apply n target).counts list'
    rw [first.shared] at below
    simp only [applyAll, accepted, if_true]
    have both := first.append (fun r mem => (Node.mem_references r mem).1) others
    refine ⟨⟨both.shared, both.target⟩, .cons (here.mono ?_) below⟩
    intro r i slot
    rw [others.target]
    exact slot.append

theorem apply_pushes (p : PushDown) (n : Node) {target : Node} (list : target.kind = .selectList) :
    Pushes p n.references target (p.apply n target) ∧
      Placed (Node.SlotAt p.shared (p.apply n target).target.children) n (p.apply n target).rewritten := by
  refine Node.induct (motive := fun n => ∀ (p : PushDown) {target : Node},
    target.kind = .selectList → Pushes p n.references target (p.apply n target) ∧
      Placed (Node.SlotAt p.shared (p.apply n target).target.children) n (p.apply n target).rewritten)
    ?_ n p list
  intro n ih p target list
  by_cases column : n.kind = .columnName
  · rw [apply_column p column, Node.references_of_columnName column]
    exact place_pushes p column list
  · obtain ⟨pushes, below⟩ := applyAll_pushes ih p list
    rw [apply_other p column, Node.references_of_ne column]
    cases n
    exact ⟨⟨pushes.shared, pushes.target⟩, .inner column below⟩

end StatementPlan.PushDown
