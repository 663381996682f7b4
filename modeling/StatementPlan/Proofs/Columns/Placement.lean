/-
Trees whose column names became positions.  `Placed R n m` says that `m` is `n` with each of its
references turned into a column at a position that `R` allows it, and all else left alone.

`exists_placed_iff`: a tree can be placed exactly if each of its references has a position.
`Placed.positions`: the columns by position in a placed tree are those that the placing made.
`bind_eq_ok_iff_placed`: binding is placing at the columns of the table.
-/
import Mathlib.Data.List.Forall2
import StatementPlan.Columns.Binding
import StatementPlan.Proofs.Outcome
import StatementPlan.Proofs.Tree.References

namespace StatementPlan

/-- The second tree is the first with its references at positions that `R` allows them. -/
inductive Placed (R : Node → Nat → Prop) : Node → Node → Prop
  | column {n : Node} {i : Nat} (kind : n.kind = .columnName) (here : R n i) :
      Placed R n (n.resolveTo i)
  | inner {kind : Kind} {token : Option Token} {children placed : List Node} {id : Option Nat}
      (other : kind ≠ .columnName) (below : List.Forall₂ (Placed R) children placed) :
      Placed R ⟨kind, token, children, id⟩ ⟨kind, token, placed, id⟩

/-- The position of the column that a reference names. -/
def NamedBy (columns : List String) (reference : Node) (position : Nat) : Prop :=
  Columns.position? columns reference.columnText = some position

variable {R Q : Node → Nat → Prop}

theorem forall₂_imp_mem {P S : α → β → Prop} {as : List α} {bs : List β}
    (h : List.Forall₂ P as bs) (each : ∀ a ∈ as, ∀ b, P a b → S a b) : List.Forall₂ S as bs :=
  ((List.forall₂_and_left _ _).2 ⟨each, h⟩).imp fun _ _ both => both.1 _ both.2

theorem forall₂_append_left {P : α → β → Prop} {as more : List α} {bs : List β}
    (h : List.Forall₂ P (as ++ more) bs) :
    ∃ cs ds, bs = cs ++ ds ∧ List.Forall₂ P as cs ∧ List.Forall₂ P more ds :=
  ⟨bs.take as.length, bs.drop as.length, (List.take_append_drop ..).symm,
    (List.forall₂_take_append _ _ _ h.flip).flip, (List.forall₂_drop_append _ _ _ h.flip).flip⟩

theorem forall₂_comp {P : α → β → Prop} {S : β → γ → Prop} {as : List α} {bs : List β} {cs : List γ}
    (h : List.Forall₂ P as bs) (h' : List.Forall₂ S bs cs) :
    List.Forall₂ (fun a c => ∃ b, P a b ∧ S b c) as cs := by
  induction h generalizing cs with
  | nil =>
    cases h'
    exact .nil
  | cons first _ ih =>
    obtain ⟨c, others, first', below, rfl⟩ := List.forall₂_cons_left_iff.1 h'
    exact .cons ⟨_, first, first'⟩ (ih below)

theorem exists_getElem? {P : α → β → Prop} {as : List α} {bs : List β}
    (h : List.Forall₂ P as bs) {i : Nat} {a : α} (here : as[i]? = some a) :
    ∃ b, bs[i]? = some b ∧ P a b := by
  obtain ⟨length, each⟩ := List.forall₂_iff_get.1 h
  obtain ⟨inside, rfl⟩ := List.getElem?_eq_some_iff.1 here
  exact ⟨_, List.getElem?_eq_getElem (length ▸ inside), each i inside (length ▸ inside)⟩

theorem exists_of_mem_right {P : α → β → Prop} {as : List α} {bs : List β}
    (h : List.Forall₂ P as bs) {b : β} (mem : b ∈ bs) : ∃ a ∈ as, P a b := by
  obtain ⟨i, here⟩ := List.mem_iff_getElem?.1 mem
  obtain ⟨a, there, related⟩ := exists_getElem? h.flip here
  exact ⟨a, List.mem_of_getElem? there, related⟩

theorem Placed.mono {n m : Node} (h : Placed R n m) (weaker : ∀ {r i}, R r i → Q r i) :
    Placed Q n m := by
  refine Node.induct (motive := fun n => ∀ {m}, Placed R n m → Placed Q n m) ?_ n h
  intro n ih m h
  cases h with
  | column kind here => exact .column kind (weaker here)
  | inner other below => exact .inner other (forall₂_imp_mem below fun c mem d => ih c mem (m := d))

theorem exists_placedAll_iff {ns : List Node}
    (each : ∀ n ∈ ns, (∃ m, Placed R n m) ↔ ∀ r ∈ n.references, ∃ i, R r i) :
    (∃ ms, List.Forall₂ (Placed R) ns ms) ↔ ∀ r ∈ Node.referencesAll ns, ∃ i, R r i := by
  induction ns with
  | nil => simp [Node.referencesAll]
  | cons c rest ih =>
    have here := each c (by simp)
    have others := ih fun n mem => each n (by simp [mem])
    constructor
    · intro h r mem
      obtain ⟨_, _ | ⟨first, below⟩⟩ := h
      rw [Node.referencesAll, List.mem_append] at mem
      rcases mem with mem | mem
      · exact here.1 ⟨_, first⟩ r mem
      · exact others.1 ⟨_, below⟩ r mem
    · intro all
      obtain ⟨m, first⟩ := here.2 fun r mem => all r (by simp [Node.referencesAll, mem])
      obtain ⟨ms, below⟩ := others.2 fun r mem => all r (by simp [Node.referencesAll, mem])
      exact ⟨m :: ms, .cons first below⟩

theorem exists_placed_iff {n : Node} :
    (∃ m, Placed R n m) ↔ ∀ r ∈ n.references, ∃ i, R r i := by
  refine Node.induct (motive := fun n => (∃ m, Placed R n m) ↔ ∀ r ∈ n.references, ∃ i, R r i) ?_ n
  intro n ih
  by_cases column : n.kind = .columnName
  · rw [Node.references_of_columnName column]
    constructor
    · intro h r mem
      obtain ⟨_, ⟨kind, here⟩ | ⟨other, below⟩⟩ := h
      · exact ⟨_, List.mem_singleton.1 mem ▸ here⟩
      · exact absurd column other
    · intro all
      obtain ⟨i, here⟩ := all n (by simp)
      exact ⟨_, .column column here⟩
  · rw [Node.references_of_ne column, ← exists_placedAll_iff ih]
    constructor
    · intro h
      obtain ⟨_, ⟨kind, here⟩ | ⟨other, below⟩⟩ := h
      · exact absurd kind column
      · exact ⟨_, below⟩
    · intro h
      obtain ⟨ms, below⟩ := h
      cases n
      exact ⟨_, .inner column below⟩

theorem Placed.eq_self {n m : Node} (none : n.references = []) (h : Placed R n m) : m = n := by
  refine Node.induct (motive := fun n => ∀ {m}, n.references = [] → Placed R n m → m = n) ?_ n
    none h
  intro n ih m none h
  cases h with
  | column kind here => simp [Node.references_of_columnName kind] at none
  | inner other below =>
    rw [Node.references_of_ne other, Node.referencesAll_eq_flatMap, List.flatMap_eq_nil_iff] at none
    have same := forall₂_imp_mem (S := Eq) below fun c mem d placed =>
      (ih c mem (none c mem) placed).symm
    rw [List.forall₂_eq_eq_eq] at same
    rw [same]

/-- Where each reference has one position at most, a tree is placed in one way. -/
theorem Placed.unique (one : ∀ {r i j}, R r i → R r j → i = j) {n m m' : Node} (h : Placed R n m)
    (h' : Placed R n m') : m = m' := by
  refine Node.induct (motive := fun n => ∀ {m m'}, Placed R n m → Placed R n m' → m = m') ?_ n h h'
  intro n ih m m' h h'
  cases h with
  | column kind here =>
    cases h' with
    | column _ here' => rw [one here here']
    | inner other => exact absurd kind other
  | inner other below =>
    cases h' with
    | column kind => exact absurd kind other
    | inner _ below' =>
      have one : Relator.RightUnique fun c d =>
          (∀ {m m'}, Placed R c m → Placed R c m' → m = m') ∧ Placed R c d :=
        fun _ _ _ left right => left.1 left.2 right.2
      rw [List.right_unique_forall₂' one ((List.forall₂_and_left _ _).2 ⟨ih, below⟩)
        ((List.forall₂_and_left _ _).2 ⟨ih, below'⟩)]

/-- The columns by position in a placed tree are those that the placing made. -/
theorem Placed.positions {n m : Node} (unplaced : n.Unplaced) (h : Placed R n m) :
    ∀ p ∈ m.subtrees, p.kind = .resolvedColumn → ∃ r i, R r i ∧ p.id = some i := by
  refine Node.induct (motive := fun n => ∀ {m}, n.Unplaced → Placed R n m → ∀ p ∈ m.subtrees,
    p.kind = .resolvedColumn → ∃ r i, R r i ∧ p.id = some i) ?_ n unplaced h
  intro n ih m unplaced h p mem resolved
  cases h with
  | @column _ i kind here =>
    cases n
    simp only [Node.resolveTo, Node.subtrees, List.mem_cons, Node.mem_subtreesAll] at mem
    rcases mem with rfl | ⟨c, child, mem⟩
    · exact ⟨_, i, here, rfl⟩
    · exact absurd resolved (unplaced p (Node.subtrees_child child mem))
  | inner other below =>
    simp only [Node.subtrees, List.mem_cons, Node.mem_subtreesAll] at mem
    rcases mem with rfl | ⟨d, child, mem⟩
    · exact absurd resolved unplaced.root
    · obtain ⟨c, child, placed⟩ := exists_of_mem_right below child
      exact ih c child (unplaced.child child) placed p mem resolved

namespace Columns

variable {table : String} {columns : List String}

theorem bindAll_cons (n : Node) (rest : List Node) : bindAll table columns (n :: rest) = (do
    let first ← bind table columns n
    let others ← bindAll table columns rest
    return first :: others) := by
  rw [bindAll]
  cases bind table columns n with
  | error cause => rfl
  | ok first => cases bindAll table columns rest <;> rfl

theorem bind_column {n : Node} (column : n.kind = .columnName) : bind table columns n =
    match position? columns n.columnText with
    | some position => .ok (n.resolveTo position)
    | none => .error (.unknownColumn n.columnText table) := by
  obtain ⟨kind, token, children, id⟩ := n
  simp only at column
  subst column
  rfl

theorem bind_other {n : Node} (other : n.kind ≠ .columnName) : bind table columns n =
    (fun children => { n with children }) <$> bindAll table columns n.children := by
  obtain ⟨kind, token, children, id⟩ := n
  simp only [bind, if_neg other]
  cases bindAll table columns children <;> rfl

end Columns

theorem bindAll_eq_ok_iff_placed {table : String} {columns : List String} {ns ms : List Node}
    (each : ∀ n ∈ ns, ∀ m, Columns.bind table columns n = .ok m ↔ Placed (NamedBy columns) n m) :
    Columns.bindAll table columns ns = .ok ms ↔ List.Forall₂ (Placed (NamedBy columns)) ns ms := by
  induction ns generalizing ms with
  | nil => simp [Columns.bindAll, eq_comm]
  | cons c rest ih =>
    have first := each c (by simp)
    have others := fun os => @ih os fun n mem => each n (by simp [mem])
    rw [Columns.bindAll, List.forall₂_cons_left_iff]
    simp only [← first, ← others]
    cases Columns.bind table columns c with
    | error e => simp
    | ok m =>
      cases Columns.bindAll table columns rest <;> simp [eq_comm]

/-- Binding is placing at the columns of the table. -/
theorem bind_eq_ok_iff_placed {table : String} {columns : List String} {n m : Node} :
    Columns.bind table columns n = .ok m ↔ Placed (NamedBy columns) n m := by
  refine Node.induct (motive := fun n => ∀ m, Columns.bind table columns n = .ok m ↔
    Placed (NamedBy columns) n m) ?_ n m
  intro n ih m
  by_cases column : n.kind = .columnName
  · rw [Columns.bind_column column]
    constructor
    · intro h
      split at h
      · rename_i position found
        obtain rfl := Except.ok.inj h
        exact .column column found
      · cases h
    · intro h
      cases h with
      | column _ here =>
        rw [NamedBy] at here
        rw [here]
      | inner other => exact absurd column other
  · rw [Columns.bind_other column, map_eq_ok_iff]
    constructor
    · rintro ⟨children, below, rfl⟩
      cases n
      exact .inner column ((bindAll_eq_ok_iff_placed ih).1 below)
    · intro h
      cases h with
      | column kind => exact absurd kind column
      | inner _ below => exact ⟨_, (bindAll_eq_ok_iff_placed ih).2 below, rfl⟩

end StatementPlan
