/-
What pushing down changes, exactly.  Into a select list every reference goes: it becomes a column at
an item that consists of it, and nothing else of the expression changes, so that the expression can
be had back from what is left.  Into anything else nothing goes, and a push-down that is refused
leaves all as it was, whatever it came by before.

`lossless`: what a push-down into a select list leaves.
`refused_unchanged`: what one into any other node leaves.
-/
import StatementPlan.Proofs.Columns.Counts
import StatementPlan.Proofs.Columns.Occurrences

namespace StatementPlan

/-- What the item at the position of a node has as its expression; the node itself where there is no
such item. -/
def Node.origin (items : List Node) (m : Node) : Node :=
  ((m.id.bind fun i => items[i]?).bind fun item => item.children.head?).getD m

theorem Node.ItemAt.origin {items : List Node} {r : Node} {i : Nat} (h : ItemAt items r i) :
    (r.resolveTo i).origin items = r := by
  obtain ⟨item, here, plain⟩ := h
  obtain ⟨_, _, head⟩ := plainColumn?_eq_some plain
  simp [Node.origin, resolveTo, here, head]

namespace PushDown

variable {p : PushDown} {n target : Node}

/-- The references that get an item of their own: with shared slots the distinct ones that no item
consists of, each where it comes first; without, all of them. -/
def additions (shared : Bool) (items references : List Node) : List Node :=
  if shared then (references.filter fun r => r ∉ Node.plainColumns items).eraseDups else references

theorem fresh_eq_additions (shared : Bool) (items references : List Node) :
    fresh shared (Node.plainColumns items) references = additions shared items references := by
  cases shared with
  | false => exact fresh_unshared ..
  | true => exact fresh_shared ..

/-- Each reference in its place as a column of its own, numbered on from the items there are. -/
def numbered (start : Nat) (references : List Node) : List (Option Node) :=
  (references.zipIdx start).map fun (r, i) => some (r.resolveTo i)

theorem numbered_append (start : Nat) (rs more : List Node) :
    numbered start (rs ++ more) = numbered start rs ++ numbered (start + rs.length) more := by
  rw [numbered, List.zipIdx_append, List.map_append, numbered, numbered]

theorem applyAll_numbered {ns : List Node}
    (each : ∀ n ∈ ns, ∀ (p : PushDown) {target : Node}, p.shared = false → target.kind = .selectList →
      n.inPlaces (p.apply n target).rewritten = numbered target.children.length n.references)
    (unshared : p.shared = false) (list : target.kind = .selectList) :
    (List.zipWith Node.inPlaces ns (p.applyAll ns target).rewritten).flatten =
      numbered target.children.length (Node.referencesAll ns) := by
  induction ns generalizing p target with
  | nil => rfl
  | cons n rest ih =>
    obtain ⟨accepted, list'⟩ := apply_accepted p n list
    have pushes := (apply_pushes p n list).1
    have others := ih (fun m mem => each m (by simp [mem])) (pushes.shared.trans unshared) list'
    have longer : (p.apply n target).target.children.length =
        target.children.length + n.references.length := by
      rw [pushes.target, unshared, fresh_unshared, Node.extend, List.length_append, List.length_map]
    simp only [applyAll, accepted, if_true]
    rw [List.zipWith_cons_cons, List.flatten_cons, each n (by simp) p unshared list, others, longer,
      Node.referencesAll, numbered_append]

/-- Without shared slots the references get the items after those there are, one after the other. -/
theorem apply_numbered (p : PushDown) (n : Node) (unshared : p.shared = false)
    (list : target.kind = .selectList) :
    n.inPlaces (p.apply n target).rewritten = numbered target.children.length n.references := by
  refine Node.induct (motive := fun n => ∀ (p : PushDown) {target : Node}, p.shared = false →
    target.kind = .selectList →
      n.inPlaces (p.apply n target).rewritten = numbered target.children.length n.references)
    ?_ n p unshared list
  intro n ih p target unshared list
  by_cases column : n.kind = .columnName
  · rw [Node.inPlaces_column column, apply_column p column, Node.references_of_columnName column]
    simp [place, list, unshared, numbered]
  · have length := (@applyAll_pushes n.children (fun n _ p _ => apply_pushes p n) p _ list).2.length_eq
    rw [apply_other p column, Node.inPlaces_other column length, Node.references_of_ne column]
    exact applyAll_numbered ih unshared list

/-- What the push-down of an expression into a select list leaves. -/
structure Lossless (p : PushDown) (n list : Node) (q : Pushed Node) : Prop where
  accepted : q.accepted = true
  /-- The items are as they were, with the new ones after them. -/
  target : q.target = list.extend (additions p.shared list.children n.references)
  /-- Each reference is where it was, now as a column at an item that consists of it: the first such
  item if slots are shared, else a new one of its own. -/
  placed : ∀ k path, n.referencePaths[k]? = some path → ∃ r i,
    n.references[k]? = some r ∧ n.at? path = some r ∧ q.rewritten.at? path = some (r.resolveTo i) ∧
      Node.SlotAt p.shared q.target.children r i ∧
        (p.shared = false → i = list.children.length + k)
  /-- Nothing else changed: with these columns changed back the expression is as it was. -/
  restored : q.rewritten.changeEach (Node.origin q.target.children) n.referencePaths = n
  /-- Each reference is counted once, by whether it got a new item. -/
  counts : q.counts = { p with
    inserted := p.inserted + (additions p.shared list.children n.references).length
    reused := p.reused +
      (n.references.length - (additions p.shared list.children n.references).length) }

/-- A push-down into a select list loses nothing. -/
theorem lossless (p : PushDown) (n : Node) {target : Node} (list : target.kind = .selectList) :
    Lossless p n target (p.apply n target) := by
  obtain ⟨pushes, placed⟩ := apply_pushes p n list
  have counted := apply_counted p n list
  refine ⟨(apply_accepted p n list).1, ?_, ?_, placed.restored fun slot => slot.item.origin, ?_⟩
  · rw [pushes.target, fresh_eq_additions]
  · intro k path here
    obtain ⟨r, found, at'⟩ := Node.exists_reference_at here
    obtain ⟨_, there, i, rfl, slot⟩ := exists_getElem? placed.inPlaces found
    have same := (Node.getElem?_inPlaces here).symm.trans there
    refine ⟨r, i, found, at', Option.some.inj same, slot, fun unshared => ?_⟩
    rw [apply_numbered p n unshared list, numbered, List.getElem?_map, List.getElem?_zipIdx, found] at there
    simpa [Node.resolveTo, eq_comm] using there
  · have inserted := counted.inserted
    have total := counted.total
    have fewer := length_fresh_le p.shared (Node.plainColumns target.children) n.references
    have shared := pushes.shared
    rw [fresh_eq_additions] at inserted fewer
    cases left : (p.apply n target).counts
    rw [left] at inserted total shared
    simp only [PushDown.mk.injEq] at inserted total shared ⊢
    exact ⟨shared, inserted, by omega⟩

/-- SELECT total AS gross, *, 1, total -/
def salesItems : Node :=
  .ofChildren .selectList [.derivedAs (.column "total") "gross", { kind := .all }, .derived (.int 1),
    .derived (.column "total")]

/-- (total - tax) * max(total + tax) -/
def salesNet : Node :=
  .binary (.operator .mul) (.binary (.operator .sub) (.column "total") (.column "tax"))
    (.call "max" [.binary (.operator .add) (.column "total") (.column "tax")])

theorem lossless_sales : salesItems.kind = .selectList ∧
    Lossless ⟨true, 2, 5⟩ salesNet salesItems ((PushDown.mk true 2 5).apply salesNet salesItems) ∧
      Lossless ⟨false, 2, 5⟩ salesNet salesItems ((PushDown.mk false 2 5).apply salesNet salesItems) :=
  ⟨rfl, lossless _ _ rfl, lossless _ _ rfl⟩

/-- The list that a push-down with shared slots leaves, and what it counts. -/
example : ((PushDown.mk true 2 5).apply salesNet salesItems).target =
      salesItems.append (.derived (.column "tax")) ∧
    ((PushDown.mk true 2 5).apply salesNet salesItems).counts = ⟨true, 3, 8⟩ := by
  decide

theorem applyAll_unplaced {ns : List Node}
    (each : ∀ n ∈ ns, p.apply n target = ⟨n.references.isEmpty, n, target, p⟩) :
    p.applyAll ns target = ⟨(Node.referencesAll ns).isEmpty, ns, target, p⟩ := by
  induction ns with
  | nil => rfl
  | cons n rest ih =>
    rw [applyAll, each n (by simp), Node.referencesAll]
    cases n.references with
    | nil => simp [ih fun m mem => each m (by simp [mem])]
    | cons => rfl

theorem apply_unplaced (p : PushDown) (n : Node) (nowhere : target.kind ≠ .selectList ∨ n.references = []) :
    p.apply n target = ⟨n.references.isEmpty, n, target, p⟩ := by
  refine Node.induct (motive := fun n => (target.kind ≠ .selectList ∨ n.references = []) →
    p.apply n target = ⟨n.references.isEmpty, n, target, p⟩) ?_ n nowhere
  intro n ih nowhere
  by_cases column : n.kind = .columnName
  · rw [apply_column p column, Node.references_of_columnName column] at *
    exact if_neg (nowhere.resolve_right (by simp))
  · rw [Node.references_of_ne column] at nowhere ⊢
    have below : ∀ c ∈ n.children, target.kind ≠ .selectList ∨ c.references = [] := by
      intro c mem
      refine nowhere.imp_right fun none => ?_
      rw [Node.referencesAll_eq_flatMap, List.flatMap_eq_nil_iff] at none
      exact none c mem
    rw [apply_other p column, applyAll_unplaced fun c mem => ih c mem (below c mem)]
    cases n
    rfl

theorem references_isEmpty (n : Node) :
    n.references.isEmpty = true ↔ ∀ m ∈ n.subtrees, m.kind ≠ .columnName := by
  rw [List.isEmpty_iff]
  refine ⟨Node.no_columnName, fun none => ?_⟩
  rw [List.eq_nil_iff_forall_not_mem]
  intro r mem
  obtain ⟨column, part⟩ := Node.mem_references r mem
  exact none r part column

/-- A push-down into a node that is no select list succeeds if there is nothing to push, and changes
nothing either way. -/
theorem refused_unchanged (p : PushDown) (n : Node) {target : Node}
    (other : target.kind ≠ .selectList) :
    ((p.apply n target).accepted = true ↔ ∀ m ∈ n.subtrees, m.kind ≠ .columnName) ∧
      (p.apply n target).rewritten = n ∧ (p.apply n target).target = target ∧
        (p.apply n target).counts = p := by
  rw [apply_unplaced p n (.inl other)]
  exact ⟨references_isEmpty n, rfl, rfl, rfl⟩

/-- The columns are two calls down, after an argument without any. -/
theorem refused_unchanged_sales :
    let keys : Node := .ofChildren .groupBy [.column "total"]
    let expr : Node := .call "round" [.int 2, .call "sum" [salesNet]]
    let left := (PushDown.mk true 2 5).apply expr keys
    keys.kind ≠ .selectList ∧ left.accepted = false ∧
      (left.accepted = true ↔ ∀ m ∈ expr.subtrees, m.kind ≠ .columnName) ∧ left.rewritten = expr ∧
        left.target = keys ∧ left.counts = ⟨true, 2, 5⟩ :=
  ⟨by decide, by decide, refused_unchanged _ _ (by decide)⟩

end PushDown

end StatementPlan
