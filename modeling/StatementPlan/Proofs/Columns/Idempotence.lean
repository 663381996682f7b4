/-
Push-downs one after another.  With shared slots a copy of an expression finds all its columns in
the list that the expression left, and goes to the same items; without, it gets new ones for each.
An expression that was pushed down has nothing left to push, if nothing was beneath its column
names.

`push_again`: the push-down of a copy after the expression, and of what the expression became.
-/
import StatementPlan.Proofs.Columns.Lossless
import StatementPlan.Proofs.Tree.Built

namespace StatementPlan

variable {R : Node → Nat → Prop}

theorem Placed.references_nil {n m : Node} (bare : n.BareNames) (h : Placed R n m) :
    m.references = [] := by
  refine Node.induct (motive := fun n => ∀ {m}, n.BareNames → Placed R n m → m.references = []) ?_ n bare h
  intro n ih m bare h
  cases h with
  | column kind _ =>
    have none := bare n n.self_mem_subtrees kind
    rw [Node.references_of_ne (by simp [Node.resolveTo]), Node.resolveTo, none]
    rfl
  | inner other below =>
    rw [Node.references_of_ne other, Node.referencesAll_eq_flatMap, List.flatMap_eq_nil_iff]
    intro d mem
    obtain ⟨c, child, placed⟩ := exists_of_mem_right (forall₂_imp_mem below fun c mem d placed =>
      (⟨mem, placed⟩ : c ∈ _ ∧ Placed R c d)) mem
    exact ih c placed.1 (fun m part => bare m (Node.subtrees_child placed.1 part)) placed.2

namespace PushDown

variable {p p' : PushDown} {n target : Node}

/-- After its push-down every reference of an expression is in the list. -/
theorem references_found (list : target.kind = .selectList) :
    ∀ r ∈ n.references, r ∈ Node.plainColumns (p.apply n target).target.children := by
  intro r mem
  rw [(apply_pushes p n list).1.plainColumns fun r mem => (Node.mem_references r mem).1, List.mem_append]
  exact mem_seen_or_fresh p.shared _ mem

/-- What the push-down of a copy with shared slots leaves. -/
structure Repeated (p : PushDown) (first again : Pushed Node) : Prop where
  target : again.target = first.target
  inserted : again.counts.inserted = p.inserted
  rewritten : again.rewritten = first.rewritten

theorem repeated_of_shared (shared : p.shared = true) (shared' : p'.shared = true)
    (list : target.kind = .selectList) :
    Repeated p' (p.apply n target) (p'.apply n (p.apply n target).target) := by
  have list' := (apply_accepted p n list).2
  obtain ⟨_, placed⟩ := apply_pushes p n list
  obtain ⟨pushes', placed'⟩ := apply_pushes p' n list'
  have none : fresh p'.shared (Node.plainColumns (p.apply n target).target.children) n.references = [] := by
    rw [shared']
    exact fresh_eq_nil (references_found list)
  have same : (p'.apply n (p.apply n target).target).target = (p.apply n target).target := by
    rw [pushes'.target, none, Node.extend_nil]
  refine ⟨same, ?_, ?_⟩
  · rw [(apply_counted p' n list').inserted, none]
    rfl
  -- both are placed at the first items for their references, in one and the same list
  · rw [same, shared'] at placed'
    rw [shared] at placed
    exact placed'.unique (fun slot slot' => slot.unique slot') placed

theorem extend_eq_self {list : Node} {rs : List Node} : list.extend rs = list ↔ rs = [] := by
  constructor
  · intro same
    have children := congrArg (fun m => m.children.length) same
    simp only [Node.extend, List.length_append, List.length_map] at children
    exact List.length_eq_zero_iff.1 (by omega)
  · rintro rfl
    exact list.extend_nil

/-- After the push-down of an expression into a select list, that of a copy in the same manner
leaves the list as it is and gives the same result, if slots are shared; else the list grows by an
item for each reference of the copy, so it stays as it is only if there is none.  And if nothing is
beneath its column names, the expression that is left is not changed by a push-down any more. -/
theorem push_again (p p' : PushDown) (manner : p'.shared = p.shared) (n : Node) {target : Node}
    (list : target.kind = .selectList) :
    let first := p.apply n target
    let again := p'.apply n first.target
    again.accepted = true ∧
      (p.shared = true → Repeated p' first again) ∧
      (p.shared = false → again.target = first.target.extend n.references ∧
        (again.target = first.target ↔ ∀ m ∈ n.subtrees, m.kind ≠ .columnName)) ∧
      (n.BareNames → ∀ p'' : PushDown, p''.apply first.rewritten first.target =
        ⟨true, first.rewritten, first.target, p''⟩) := by
  have list' := (apply_accepted p n list).2
  refine ⟨(apply_accepted p' n list').1, fun shared => ?_, fun unshared => ?_, fun bare p'' => ?_⟩
  · exact repeated_of_shared shared (manner.trans shared) list
  · have grown := (apply_pushes p' n list').1.target
    rw [manner, unshared, fresh_unshared] at grown
    refine ⟨grown, ?_⟩
    rw [grown, extend_eq_self, ← List.isEmpty_iff]
    exact references_isEmpty n
  · have none := (apply_pushes p n list).2.references_nil bare
    rw [apply_unplaced p'' _ (.inr none), none]
    rfl

theorem push_again_sales : salesItems.kind = .selectList ∧ salesNet.BareNames ∧
    (let first := (PushDown.mk true 0 0).apply salesNet salesItems
    Repeated first.counts first (first.counts.apply salesNet first.target) ∧
      first.counts.apply first.rewritten first.target =
        ⟨true, first.rewritten, first.target, first.counts⟩) ∧
      (let first := (PushDown.mk false 0 0).apply salesNet salesItems
      (first.counts.apply salesNet first.target).target = first.target.extend salesNet.references) := by
  have headed : salesItems.kind = .selectList := rfl
  have bare : salesNet.BareNames := by decide
  refine ⟨headed, bare, ?_, ?_⟩
  · intro first
    obtain ⟨_, copy, _, same⟩ := push_again ⟨true, 0, 0⟩ first.counts rfl salesNet headed
    exact ⟨copy rfl, same bare first.counts⟩
  · intro first
    obtain ⟨_, _, copy, _⟩ := push_again ⟨false, 0, 0⟩ first.counts rfl salesNet headed
    exact (copy rfl).1

end PushDown

end StatementPlan
