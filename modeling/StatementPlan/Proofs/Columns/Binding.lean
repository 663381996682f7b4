/-
What binding does to a tree.  A path that passes no column name reaches the nodes that binding
visits.  If every column name among them has a column of its name up to ASCII case, each becomes a
reference to the first column of exactly the name or, where there is none, to the first one up to
case, and no other node changes.  Otherwise binding stops at the first of them, in reading order,
that has no column.

`position?_eq_some_iff`, `position?_eq_none_iff`: the column that a name stands for.
`Placed.reached`: what becomes of a node that is reached.
`bind_eq_error`: where binding stops.
`binding_exact_first`: what binding a tree ends in.
-/
import StatementPlan.Proofs.Columns.Occurrences
import StatementPlan.Proofs.Text.AsciiCase

namespace StatementPlan

namespace Node

/-- The path leads to the node, and no node on the way to it is a column name. -/
inductive Reaches : Node → List Nat → Node → Prop
  | root (n : Node) : Reaches n [] n
  | child {n c m : Node} {i : Nat} {path : List Nat} (other : n.kind ≠ .columnName)
      (here : n.children[i]? = some c) (rest : Reaches c path m) : Reaches n (i :: path) m

/-- The path leads to a column name that is below no other one. -/
structure RefersAt (n : Node) (path : List Nat) (r : Node) : Prop where
  reaches : Reaches n path r
  column : r.kind = .columnName

variable {n r : Node} {path : List Nat}

theorem RefersAt.below {c : Node} {i : Nat} (other : n.kind ≠ .columnName)
    (here : n.children[i]? = some c) (h : RefersAt c path r) : RefersAt n (i :: path) r :=
  ⟨.child other here h.reaches, h.column⟩

theorem RefersAt.of_column (column : n.kind = .columnName) (h : RefersAt n path r) :
    path = [] ∧ r = n := by
  cases h.reaches with
  | root => exact ⟨rfl, rfl⟩
  | child other => exact absurd column other

theorem RefersAt.of_other (other : n.kind ≠ .columnName) (h : RefersAt n path r) :
    ∃ i c rest, path = i :: rest ∧ n.children[i]? = some c ∧ RefersAt c rest r := by
  cases h.reaches with
  | root => exact absurd h.column other
  | child _ here rest => exact ⟨_, _, _, rfl, here, rest, h.column⟩

/-- The references of a tree are the column names that are reached. -/
theorem mem_references_iff : r ∈ n.references ↔ ∃ path, RefersAt n path r := by
  refine Node.induct (motive := fun n => r ∈ n.references ↔ ∃ path, RefersAt n path r) ?_ n
  intro n ih
  by_cases column : n.kind = .columnName
  · rw [references_of_columnName column, List.mem_singleton]
    constructor
    · rintro rfl
      exact ⟨[], .root r, column⟩
    · rintro ⟨path, h⟩
      exact (h.of_column column).2
  · rw [references_of_ne column, referencesAll_eq_flatMap, List.mem_flatMap]
    constructor
    · rintro ⟨c, child, mem⟩
      obtain ⟨i, here⟩ := List.mem_iff_getElem?.1 child
      obtain ⟨path, h⟩ := (ih c child).1 mem
      exact ⟨i :: path, h.below column here⟩
    · rintro ⟨path, h⟩
      obtain ⟨i, c, rest, -, here, below⟩ := h.of_other column
      have child := List.mem_of_getElem? here
      exact ⟨c, child, (ih c child).2 ⟨rest, below⟩⟩

end Node

/-- In a placed tree a path that reaches a node leads to that node placed. -/
theorem Placed.reached {R : Node → Nat → Prop} {n m k : Node} {path : List Nat} (h : Placed R n m)
    (reaches : n.Reaches path k) : ∃ k', m.at? path = some k' ∧ Placed R k k' := by
  induction reaches generalizing m with
  | root n => exact ⟨m, rfl, h⟩
  | child other here rest ih =>
    cases h with
    | column kind => exact absurd kind other
    | inner _ below =>
      obtain ⟨d, there, placed⟩ := exists_getElem? below here
      obtain ⟨k', found, placed⟩ := ih placed
      exact ⟨k', by rw [Node.at?, there, Option.bind_some, found], placed⟩

namespace Columns

variable {table : String} {columns : List String} {name : String}

/-- The position of the first name with a property. -/
structure FirstWith (has : String → Prop) (columns : List String) (i : Nat) : Prop where
  here : ∃ c, columns[i]? = some c ∧ has c
  first : ∀ j < i, ∀ c, columns[j]? = some c → ¬has c

/-- The first column of exactly the name; the first one of the name up to ASCII case where no column
has exactly the name. -/
inductive StandsFor (columns : List String) (name : String) (i : Nat) : Prop
  | exact (first : FirstWith (· = name) columns i)
  | upToCase (absent : name ∉ columns) (first : FirstWith (SameLetters · name) columns i)

/-- Some column has the name up to ASCII case. -/
def Matched (columns : List String) (name : String) : Prop := ∃ c ∈ columns, SameLetters c name

theorem findIdx?_eq_some_iff_firstWith {has : String → Prop} {test : String → Bool} {i : Nat}
    (tests : ∀ c, test c = true ↔ has c) : columns.findIdx? test = some i ↔ FirstWith has columns i := by
  rw [List.findIdx?_eq_some_iff_getElem]
  constructor
  · rintro ⟨bound, here, first⟩
    refine ⟨⟨columns[i], List.getElem?_eq_getElem bound, (tests _).1 here⟩, fun j before c found => ?_⟩
    obtain ⟨inside, rfl⟩ := List.getElem?_eq_some_iff.1 found
    exact fun earlier => first j before ((tests _).2 earlier)
  · rintro ⟨⟨c, found, here⟩, first⟩
    obtain ⟨bound, rfl⟩ := List.getElem?_eq_some_iff.1 found
    refine ⟨bound, (tests _).2 here, fun j before earlier => ?_⟩
    exact first j before _ (List.getElem?_eq_getElem (Nat.lt_trans before bound)) ((tests _).1 earlier)

theorem sameName_iff_letters {a b : String} : sameName a b = true ↔ SameLetters a b :=
  sameName_iff.trans foldCase_eq_iff

theorem position?_eq_some_iff {i : Nat} :
    position? columns name = some i ↔ StandsFor columns name i := by
  have exactly := @findIdx?_eq_some_iff_firstWith columns (· = name) (· == name) i fun _ => beq_iff_eq
  have upToCase := @findIdx?_eq_some_iff_firstWith columns (SameLetters · name) (sameName · name) i
    fun _ => sameName_iff_letters
  have absent : columns.findIdx? (· == name) = none ↔ name ∉ columns := by
    rw [List.findIdx?_eq_none_iff]
    refine ⟨fun none mem => absurd rfl (beq_eq_false_iff_ne.1 (none name mem)), fun absent c mem => ?_⟩
    exact beq_eq_false_iff_ne.2 fun same => absent (same ▸ mem)
  rw [position?, Option.or_eq_some_iff, exactly, absent, upToCase]
  constructor
  · rintro (first | ⟨absent, first⟩)
    · exact .exact first
    · exact .upToCase absent first
  · rintro (first | ⟨absent, first⟩)
    · exact .inl first
    · exact .inr ⟨absent, first⟩

theorem matched_iff : Matched columns name ↔ ∃ i, position? columns name = some i := by
  simp only [Matched, exists_position_iff, sameName_iff_letters]

theorem position?_eq_none_iff : position? columns name = none ↔ ¬Matched columns name := by
  rw [matched_iff, ← Option.isSome_iff_exists, Option.not_isSome_iff_eq_none]

/-- The second tree is the first with its references bound, and all else as it was. -/
structure BoundTo (columns : List String) (n m : Node) : Prop where
  /-- A reference becomes a column by position; what is below it stays there. -/
  reference : ∀ path r, n.RefersAt path r →
    ∃ i, StandsFor columns r.columnText i ∧ m.at? path = some (r.resolveTo i)
  /-- Any other node that is reached keeps its kind, token and position, and the number of its
  children. -/
  other : ∀ path k, n.Reaches path k → k.kind ≠ .columnName →
    ∃ children, children.length = k.children.length ∧ m.at? path = some { k with children }

theorem boundTo_of_placed {n m : Node} (h : Placed (NamedBy columns) n m) : BoundTo columns n m := by
  constructor
  · intro path r refers
    obtain ⟨m', found, placed⟩ := h.reached refers.reaches
    cases placed with
    | column _ here => exact ⟨_, position?_eq_some_iff.1 here, found⟩
    | inner other => exact absurd refers.column other
  · intro path k reaches other
    obtain ⟨m', found, placed⟩ := h.reached reaches
    cases placed with
    | column kind => exact absurd kind other
    | inner _ below => exact ⟨_, below.length_eq.symm, found⟩

theorem exists_bind_iff {n : Node} :
    (∃ m, bind table columns n = .ok m) ↔ ∀ path r, n.RefersAt path r → Matched columns r.columnText := by
  simp only [bind_eq_ok_iff_placed, exists_placed_iff, Node.mem_references_iff, NamedBy, matched_iff]
  constructor
  · exact fun all path r refers => all r ⟨path, refers⟩
  · rintro all r ⟨path, refers⟩
    exact all path r refers

theorem bindAll_eq_error {ns : List Node} {cause : Rejection}
    (h : bindAll table columns ns = .error cause) :
    ∃ (i : Nat) (c : Node), ns[i]? = some c ∧ bind table columns c = .error cause ∧
      ∀ j < i, ∀ d, ns[j]? = some d → ∃ m, bind table columns d = .ok m := by
  induction ns with
  | nil => cases h
  | cons n rest ih =>
    rw [bindAll_cons, bind_eq_error_iff] at h
    rcases h with here | ⟨first, here, below⟩
    · exact ⟨0, n, rfl, here, fun j before => absurd before (Nat.not_lt_zero j)⟩
    · obtain stopped | ⟨ms, _, answered⟩ := bind_eq_error_iff.1 below
      · obtain ⟨i, c, found, stopped, before⟩ := ih stopped
        refine ⟨i + 1, c, found, stopped, fun j less d there => ?_⟩
        cases j with
        | zero =>
          obtain rfl := Option.some.inj there
          exact ⟨first, here⟩
        | succ j => exact before j (Nat.lt_of_succ_lt_succ less) d there
      · cases answered

/-- The rejection is of the first reference without a column, in reading order, which is that of
paths. -/
def FirstUnmatched (table : String) (columns : List String) (n : Node) (cause : Rejection) : Prop :=
  ∃ path r, n.RefersAt path r ∧ ¬Matched columns r.columnText ∧ cause = .unknownColumn r.columnText table ∧
    ∀ before s, before < path → n.RefersAt before s → Matched columns s.columnText

theorem bind_eq_error {n : Node} {cause : Rejection} (h : bind table columns n = .error cause) :
    FirstUnmatched table columns n cause := by
  induction n using Node.induct with
  | node n ih =>
    by_cases column : n.kind = .columnName
    · rw [bind_column column] at h
      split at h
      · cases h
      · rename_i none
        obtain rfl := Except.error.inj h
        refine ⟨[], n, ⟨.root n, column⟩, position?_eq_none_iff.1 none, rfl, fun before s less => ?_⟩
        exact absurd less (List.not_lt_nil before)
    · rw [bind_other column, map_eq_error_iff] at h
      obtain ⟨i, c, here, stopped, bound⟩ := bindAll_eq_error h
      obtain ⟨path, r, refers, unmatched, rfl, first⟩ := ih c (List.mem_of_getElem? here) stopped
      refine ⟨i :: path, r, refers.below column here, unmatched, rfl, fun before s less refers => ?_⟩
      -- an earlier reference is in a child before that one, which is bound, or in the same child
      obtain ⟨j, d, rest, rfl, there, refers⟩ := refers.of_other column
      rcases List.cons_lt_cons_iff.1 less with earlier | ⟨rfl, inside⟩
      · exact exists_bind_iff.1 (bound j earlier d there) rest s refers
      · obtain rfl := Option.some.inj (here.symm.trans there)
        exact first rest s inside refers

/-- A tree is bound if each of its references has a column of its name up to ASCII case; then the
references are bound exact names first, and nothing else changes.  If it is not, the rejection names
the first reference without such a column. -/
theorem binding_exact_first (table : String) (columns : List String) (n : Node) :
    ((∃ m, bind table columns n = .ok m) ↔ ∀ path r, n.RefersAt path r → Matched columns r.columnText) ∧
    (∀ m, bind table columns n = .ok m → BoundTo columns n m) ∧
    ∀ cause, bind table columns n = .error cause → FirstUnmatched table columns n cause :=
  ⟨exists_bind_iff, fun _ bound => boundTo_of_placed (bind_eq_ok_iff_placed.1 bound), fun _ => bind_eq_error⟩

/-- The exact name is bound to a later column; what is below a column name is not looked at. -/
example :
    let host : Node := { Node.column "host" with children := [.column "disk"] }
    bind "cpu" ["Host", "host", "Value"] (.call "max" [host]) = .ok (.call "max" [host.resolveTo 1]) := by
  decide

end Columns

end StatementPlan
