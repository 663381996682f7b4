/-
References by where they are.  A path leads from the root of a tree to a node, child by child; the
references of a tree are at the ends of certain paths, in reading order.

`inPlaces_self`: at the ends of these paths are the references.
`Placed.inPlaces`: in a placed tree, each of them as a column at a position it may have.
`Placed.restored`: a placing is undone by changing the nodes at these paths back.
-/
import StatementPlan.Proofs.Columns.Placement

namespace StatementPlan

namespace Node

/-- The node at the end of a path. -/
def at? : Node → List Nat → Option Node
  | n, [] => some n
  | n, i :: path => n.children[i]?.bind fun c => at? c path

/-- The tree with the node at the end of a path changed. -/
def changeAt (change : Node → Node) : List Nat → Node → Node
  | [], n => change n
  | i :: path, n => { n with children := n.children.modify i (changeAt change path) }

/-- The tree with the nodes at the ends of paths changed, one after the other. -/
def changeEach (change : Node → Node) (paths : List (List Nat)) (n : Node) : Node :=
  paths.foldl (fun m path => m.changeAt change path) n

mutual

/-- The paths to the references of a tree, in reading order. -/
def referencePaths : Node → List (List Nat)
  | ⟨kind, _, children, _⟩ => if kind = .columnName then [[]] else referencePathsAll 0 children

/-- The paths to the references of children, the first of which is at a position. -/
def referencePathsAll : Nat → List Node → List (List Nat)
  | _, [] => []
  | i, c :: rest => (referencePaths c).map (i :: ·) ++ referencePathsAll (i + 1) rest

end

/-- What another tree has in the places of the references. -/
def inPlaces (n m : Node) : List (Option Node) := n.referencePaths.map m.at?

variable {kind : Kind} {token : Option Token} {id : Option Nat} {change : Node → Node}

theorem at?_child (before rest : List Node) (m : Node) (path : List Nat) :
    (⟨kind, token, before ++ m :: rest, id⟩ : Node).at? (before.length :: path) = m.at? path := by
  simp [at?]

theorem changeAt_child (before rest : List Node) (m : Node) (path : List Nat) :
    (⟨kind, token, before ++ m :: rest, id⟩ : Node).changeAt change (before.length :: path) =
      ⟨kind, token, before ++ m.changeAt change path :: rest, id⟩ := by
  rw [changeAt, List.modify_eq_take_cons_drop (by simp)]
  simp

theorem changeEach_child (before rest : List Node) (m : Node) (paths : List (List Nat)) :
    (⟨kind, token, before ++ m :: rest, id⟩ : Node).changeEach change (paths.map (before.length :: ·)) =
      ⟨kind, token, before ++ m.changeEach change paths :: rest, id⟩ := by
  induction paths generalizing m with
  | nil => rfl
  | cons path paths ih =>
    rw [List.map_cons, changeEach, List.foldl_cons, changeAt_child]
    exact ih (m.changeAt change path)

theorem inPlaces_children {ns ms : List Node} (same : ns.length = ms.length) (before : List Node) :
    (referencePathsAll before.length ns).map (⟨kind, token, before ++ ms, id⟩ : Node).at? =
      (List.zipWith inPlaces ns ms).flatten := by
  induction ns generalizing ms before with
  | nil => rfl
  | cons n rest ih =>
    cases ms with
    | nil => cases same
    | cons m others =>
      have below := ih (Nat.succ.inj same) (before ++ [m])
      rw [List.append_assoc, List.singleton_append, List.length_append, List.length_singleton] at below
      rw [referencePathsAll, List.map_append, List.map_map, below, List.zipWith_cons_cons, List.flatten_cons]
      congr 1
      exact List.map_congr_left fun path _ => at?_child before others m path

theorem changeEach_children {ns ms : List Node} (same : ns.length = ms.length) (before : List Node) :
    (⟨kind, token, before ++ ms, id⟩ : Node).changeEach change (referencePathsAll before.length ns) =
      ⟨kind, token, before ++ List.zipWith (fun n m => m.changeEach change n.referencePaths) ns ms, id⟩ := by
  induction ns generalizing ms before with
  | nil =>
    cases ms with
    | nil => rfl
    | cons => cases same
  | cons n rest ih =>
    cases ms with
    | nil => cases same
    | cons m others =>
      have below := ih (Nat.succ.inj same) (before ++ [m.changeEach change n.referencePaths])
      rw [List.append_assoc, List.singleton_append, List.length_append, List.length_singleton] at below
      rw [referencePathsAll, changeEach, List.foldl_append, ← changeEach, ← changeEach, changeEach_child,
        below, List.zipWith_cons_cons, List.append_assoc, List.singleton_append]

theorem referencePaths_column {n : Node} (column : n.kind = .columnName) : n.referencePaths = [[]] := by
  cases n
  simp_all [referencePaths]

theorem referencePaths_other {n : Node} (other : n.kind ≠ .columnName) :
    n.referencePaths = referencePathsAll 0 n.children := by
  cases n
  simp_all [referencePaths]

theorem inPlaces_column {n : Node} (column : n.kind = .columnName) (m : Node) :
    n.inPlaces m = [some m] := by
  rw [inPlaces, referencePaths_column column]
  rfl

theorem inPlaces_other {n : Node} (other : n.kind ≠ .columnName) {ms : List Node}
    (same : n.children.length = ms.length) :
    n.inPlaces ⟨kind, token, ms, id⟩ = (List.zipWith inPlaces n.children ms).flatten := by
  rw [inPlaces, referencePaths_other other]
  exact inPlaces_children same []

theorem inPlaces_selfAll {ns : List Node} (each : ∀ n ∈ ns, n.inPlaces n = n.references.map some) :
    (List.zipWith inPlaces ns ns).flatten = (referencesAll ns).map some := by
  induction ns with
  | nil => rfl
  | cons n rest ih =>
    have others := ih fun m mem => each m (by simp [mem])
    rw [List.zipWith_cons_cons, List.flatten_cons, referencesAll, List.map_append, each n (by simp), others]

theorem inPlaces_self (n : Node) : n.inPlaces n = n.references.map some := by
  refine Node.induct (motive := fun n => n.inPlaces n = n.references.map some) ?_ n
  intro n ih
  by_cases column : n.kind = .columnName
  · rw [inPlaces_column column, references_of_columnName column]
    rfl
  · rw [references_of_ne column, ← inPlaces_selfAll ih]
    cases n
    exact inPlaces_other column rfl

theorem getElem?_inPlaces {n m : Node} {path : List Nat} {k : Nat}
    (here : n.referencePaths[k]? = some path) : (n.inPlaces m)[k]? = some (m.at? path) := by
  rw [inPlaces, List.getElem?_map, here, Option.map_some]

/-- At the end of each path is the reference whose turn it is. -/
theorem exists_reference_at {n : Node} {path : List Nat} {k : Nat}
    (here : n.referencePaths[k]? = some path) : ∃ r, n.references[k]? = some r ∧ n.at? path = some r := by
  have self := @getElem?_inPlaces n n _ _ here
  rw [inPlaces_self, List.getElem?_map, Option.map_eq_some_iff] at self
  obtain ⟨r, found, same⟩ := self
  exact ⟨r, found, same.symm⟩

end Node

variable {R : Node → Nat → Prop}

/-- The node is the reference as a column, at a position it may have. -/
def PlacedAs (R : Node → Nat → Prop) (r : Node) (found : Option Node) : Prop :=
  ∃ i, found = some (r.resolveTo i) ∧ R r i

theorem placedAll_inPlaces {ns ms : List Node}
    (each : ∀ n ∈ ns, ∀ m, Placed R n m → List.Forall₂ (PlacedAs R) n.references (n.inPlaces m))
    (h : List.Forall₂ (Placed R) ns ms) :
    List.Forall₂ (PlacedAs R) (Node.referencesAll ns) (List.zipWith Node.inPlaces ns ms).flatten := by
  induction h with
  | nil => exact .nil
  | cons first _ ih =>
    exact List.rel_append (each _ (by simp) _ first) (ih fun n mem => each n (by simp [mem]))

/-- In the places of its references, a placed tree has these as columns. -/
theorem Placed.inPlaces {n m : Node} (h : Placed R n m) :
    List.Forall₂ (PlacedAs R) n.references (n.inPlaces m) := by
  refine Node.induct (motive := fun n => ∀ m, Placed R n m →
    List.Forall₂ (PlacedAs R) n.references (n.inPlaces m)) ?_ n m h
  intro n ih m h
  cases h with
  | column kind here =>
    rw [Node.references_of_columnName kind, Node.inPlaces_column kind]
    exact .cons ⟨_, rfl, here⟩ .nil
  | inner other below =>
    rw [Node.references_of_ne other, Node.inPlaces_other other below.length_eq]
    exact placedAll_inPlaces ih below

theorem placedAll_restored {change : Node → Node} {ns ms : List Node}
    (each : ∀ n ∈ ns, ∀ m, Placed R n m → m.changeEach change n.referencePaths = n)
    (h : List.Forall₂ (Placed R) ns ms) :
    List.zipWith (fun n m => m.changeEach change n.referencePaths) ns ms = ns := by
  induction h with
  | nil => rfl
  | cons first _ ih =>
    rw [List.zipWith_cons_cons, each _ (by simp) _ first, ih fun n mem => each n (by simp [mem])]

/-- A placing is undone by a change that takes each column back to its reference. -/
theorem Placed.restored {change : Node → Node} (back : ∀ {r i}, R r i → change (r.resolveTo i) = r)
    {n m : Node} (h : Placed R n m) : m.changeEach change n.referencePaths = n := by
  refine Node.induct (motive := fun n => ∀ m, Placed R n m → m.changeEach change n.referencePaths = n)
    ?_ n m h
  intro n ih m h
  cases h with
  | column kind here =>
    rw [Node.referencePaths_column kind]
    exact back here
  | inner other below =>
    rw [Node.referencePaths_other other]
    refine (Node.changeEach_children below.length_eq []).trans ?_
    rw [List.nil_append, placedAll_restored ih below]

end StatementPlan
