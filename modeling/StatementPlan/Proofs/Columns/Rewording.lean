/-
Binding and push-down of columns whose names are put otherwise.  Where a name stands for the same
column in both ways, the reworded tree binds as the tree does; and columns are pushed down alike, if
slots are not shared or names are kept.

`bind_reword`: binding a tree and its rewording.
`apply_reword`, `applyAll_reword`: pushing down the columns of a reworded tree.
-/
import StatementPlan.Columns.Binding
import StatementPlan.Proofs.Columns.Binding
import StatementPlan.Proofs.Columns.PushDown
import StatementPlan.Proofs.Outcome
import StatementPlan.Proofs.Tree.Rewording

namespace StatementPlan

variable {ρ : Rewording}

/-- The rejection with the name of a column put otherwise. -/
def Rejection.reword (ρ : Rewording) : Rejection → Rejection
  | unknownColumn column table => unknownColumn (ρ.columns column) table
  | unboundColumn name => unboundColumn (ρ.columns name)
  | cause => cause

/-- The same rejection, up to how a column is named. -/
def Rejection.Alike (ρ : Rewording) (cause cause' : Rejection) : Prop := cause.reword ρ = cause'.reword ρ

namespace Columns

variable {table : String} {columns : List String}

/-- The name stands for the same column, put otherwise. -/
def Located (ρ : Rewording) (columns : List String) (n : Node) : Prop :=
  n.kind = .columnName → position? columns (n.reword ρ).columnText = position? columns n.columnText

/-- The tree and its rewording bind alike. -/
def BindsAlike (ρ : Rewording) (table : String) (columns : List String) (n : Node) : Prop :=
  EndAlike (Rejection.Alike ρ) (fun m m' => m' = m.reword ρ)
    (bind table columns n) (bind table columns (n.reword ρ))

theorem bindAll_reword {ns : List Node} (each : ∀ n ∈ ns, BindsAlike ρ table columns n) :
    EndAlike (Rejection.Alike ρ) (fun ms ms' => ms' = ms.map (Node.reword ρ)) (bindAll table columns ns)
      (bindAll table columns (ns.map (Node.reword ρ))) := by
  induction ns with
  | nil => exact .ok rfl
  | cons n rest ih =>
    have others := ih fun m mem => each m (by simp [mem])
    rw [List.map_cons, bindAll_cons, bindAll_cons]
    refine (each n (by simp)).bind fun here => others.bind fun there => .ok ?_
    rw [List.map_cons, here, there]

theorem bind_reword {n : Node} (located : ∀ m ∈ n.subtrees, Located ρ columns m) :
    BindsAlike ρ table columns n := by
  refine Node.induct (motive := fun n => (∀ m ∈ n.subtrees, Located ρ columns m) →
    BindsAlike ρ table columns n) ?_ n located
  intro n ih located
  by_cases column : n.kind = .columnName
  · have column' : (n.reword ρ).kind = .columnName := (Node.relabel_kind n).trans column
    rw [BindsAlike, bind_column column, bind_column column', located n n.self_mem_subtrees column]
    cases position? columns n.columnText with
    | none =>
      exact .error (congrArg (Rejection.unknownColumn · table) (Node.columnText_reword column)).symm
    | some position => exact .ok (Node.relabel_resolveTo (fun _ => column ▸ rfl) position).symm
  · have other : (n.reword ρ).kind ≠ .columnName := by simpa using column
    rw [BindsAlike, bind_other column, bind_other other, Node.relabel_children]
    have below := fun c child => ih c child fun m part => located m (Node.subtrees_child child part)
    refine (bindAll_reword below).map fun {ms ms'} same => ?_
    rw [same]
    exact (Node.relabel_withChildren n ms).symm

end Columns

namespace PushDown

/-- What is left of a push-down, its names put otherwise. -/
def rewordPushed (ρ : Rewording) (rewrite : α → α) (q : Pushed α) : Pushed α :=
  { q with rewritten := rewrite q.rewritten, target := q.target.reword ρ }

/-- Columns can be told apart as before: slots are not shared, or the columns are kept. -/
def Apart (ρ : Rewording) (shared : Bool) (rs : List Node) : Prop :=
  shared = true → ∀ r ∈ rs, r.reword ρ = r

/-- A list whose columns are kept has the same slots. -/
theorem slot?_reword {target reference : Node} (column : reference.kind = .columnName)
    (kept : reference.reword ρ = reference)
    (keeps : ∀ r ∈ Node.plainColumns target.children, r.reword ρ = r) :
    slot? (target.reword ρ) reference = slot? target reference := by
  have same : ∀ item ∈ target.children,
      ((item.reword ρ).kind == .derivedColumn && (item.reword ρ).children.head? == some reference) =
      (item.kind == .derivedColumn && item.children.head? == some reference) := by
    intro item mem
    rw [Node.relabel_kind, Node.relabel_children, List.head?_map]
    by_cases derived : item.kind = .derivedColumn
    · cases found : item.children.head? with
      | none => rfl
      | some head =>
        have slot : head.reword ρ = reference ↔ head = reference := by
          constructor
          -- what is reworded to a column is one, so it is a column of the list
          · rintro rfl
            have plain : item.plainColumn? = some head := by
              rw [Node.relabel_kind] at column
              simp [Node.plainColumn?, derived, found, column]
            exact (keeps head (Node.mem_plainColumns.2 ⟨item, mem, plain⟩)).symm
          · rintro rfl
            exact kept
        rw [Bool.eq_iff_iff]
        simp [slot]
    · have other : (item.kind == .derivedColumn) = false := by simpa using derived
      rw [other, Bool.false_and, Bool.false_and]
  rw [slot?, slot?, Node.relabel_children, List.findIdx?_map]
  clear keeps
  revert same
  induction target.children with
  | nil => exact fun _ => rfl
  | cons item rest ih =>
    intro same
    rw [List.findIdx?_cons, List.findIdx?_cons, ih fun other mem => same other (by simp [mem])]
    simp only [Function.comp_apply, same item (by simp)]

theorem place_reword (p : PushDown) {reference target : Node} (column : reference.kind = .columnName)
    (kept : Apart ρ p.shared [reference]) (keeps : Apart ρ p.shared (Node.plainColumns target.children)) :
    p.place (reference.reword ρ) (target.reword ρ) =
      rewordPushed ρ (Node.reword ρ) (p.place reference target) := by
  have slots : (if p.shared then slot? (target.reword ρ) (reference.reword ρ) else none) =
      if p.shared then slot? target reference else none := by
    cases shared : p.shared with
    | false => rfl
    | true =>
      have same := kept shared reference (by simp)
      simp only [if_true, same, slot?_reword column same (keeps shared)]
  have resolved : ∀ position,
      (reference.resolveTo position).reword ρ = (reference.reword ρ).resolveTo position :=
    Node.relabel_resolveTo fun _ => column ▸ rfl
  have added : (target.append (.derived reference)).reword ρ =
      (target.reword ρ).append (.derived (reference.reword ρ)) := by
    rw [Node.reword, Node.relabel_append, Node.relabel_derived]
  simp only [place, slots, Node.relabel_kind, Node.relabel_children, List.length_map]
  split
  · split
    · rw [rewordPushed, resolved]
    · rw [rewordPushed, resolved, added]
  · rfl

/-- The columns of the tree and of its rewording are pushed down alike. -/
def PushesAlike (ρ : Rewording) (n : Node) : Prop :=
  ∀ {p : PushDown} {target : Node}, target.kind = .selectList → Apart ρ p.shared n.references →
    Apart ρ p.shared (Node.plainColumns target.children) →
      p.apply (n.reword ρ) (target.reword ρ) = rewordPushed ρ (Node.reword ρ) (p.apply n target)

/-- A list whose columns are kept goes on keeping them. -/
theorem Pushes.apart {p : PushDown} {rs : List Node} {target : Node} {q : Pushed α}
    (pushes : Pushes p rs target q)
    (columns : ∀ r ∈ rs, r.kind = .columnName) (kept : Apart ρ p.shared rs)
    (keeps : Apart ρ p.shared (Node.plainColumns target.children)) :
    Apart ρ q.counts.shared (Node.plainColumns q.target.children) := by
  intro shared r mem
  rw [pushes.shared] at shared
  rw [pushes.plainColumns columns] at mem
  exact (List.mem_append.1 mem).elim (keeps shared r) fun new => kept shared r (mem_of_mem_fresh new)

theorem applyAll_reword {ns : List Node} (each : ∀ n ∈ ns, PushesAlike ρ n) {p : PushDown}
    {target : Node}
    (list : target.kind = .selectList) (kept : Apart ρ p.shared (Node.referencesAll ns))
    (keeps : Apart ρ p.shared (Node.plainColumns target.children)) :
    p.applyAll (ns.map (Node.reword ρ)) (target.reword ρ) =
      rewordPushed ρ (List.map (Node.reword ρ)) (p.applyAll ns target) := by
  induction ns generalizing p target with
  | nil => rfl
  | cons n rest ih =>
    have here : Apart ρ p.shared n.references := fun shared r mem =>
      kept shared r (by rw [Node.referencesAll]; exact List.mem_append_left _ mem)
    have first := @each n (by simp) p target list here keeps
    obtain ⟨accepted, headed⟩ := apply_accepted p n list
    have pushes := (apply_pushes p n list).1
    have keeps' := pushes.apart (fun r mem => (Node.mem_references r mem).1) here keeps
    have there : Apart ρ (p.apply n target).counts.shared (Node.referencesAll rest) := by
      intro shared r mem
      rw [pushes.shared] at shared
      exact kept shared r (by rw [Node.referencesAll]; exact List.mem_append_right _ mem)
    have others := ih (fun m mem => each m (by simp [mem])) headed there keeps'
    simp only [List.map_cons, applyAll, first, rewordPushed, accepted, if_true]
    simp only [rewordPushed] at others
    rw [others]

theorem apply_reword (n : Node) : PushesAlike ρ n := by
  refine Node.induct (motive := PushesAlike ρ) ?_ n
  intro n ih p target list kept keeps
  by_cases column : n.kind = .columnName
  · rw [Node.references_of_columnName column] at kept
    rw [apply_column p column, apply_column p ((Node.relabel_kind n).trans column)]
    exact place_reword p column kept keeps
  · have other : (n.reword ρ).kind ≠ .columnName := by simpa using column
    rw [Node.references_of_ne column] at kept
    rw [apply_other p column, apply_other p other, Node.relabel_children, applyAll_reword ih list kept keeps,
      rewordPushed]
    exact congrArg (Pushed.mk _ · _ _) (Node.relabel_withChildren n _).symm

end PushDown

end StatementPlan
