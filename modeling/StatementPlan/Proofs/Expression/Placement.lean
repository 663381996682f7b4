/-
Compilation of placed trees.  Trees that are one tree placed in two ways compile alike: with the
same bytes to expressions that differ in their columns only, or with the same error.

`node_follows`: two runs of the compiler on a node, given those on its children.
`compileNode_alike`, `compileNode_placed`: the two runs on a tree placed in two ways.
`compileNode_columns`: an expression reads only positions that stand in its tree.
`compileAll_append`: a list compiles part by part.
`compile_placed`, `compile_columns`: the same of whole trees.
-/
import StatementPlan.Expression.Compile
import StatementPlan.Proofs.Columns.Placement
import StatementPlan.Proofs.Expression.Substitution
import StatementPlan.Proofs.Outcome

namespace StatementPlan

namespace Compile

/-- Two positions that one reference has. -/
def Meet (R Q : Node → Nat → Prop) (i j : Nat) : Prop := ∃ r, R r i ∧ Q r j

/-- The same bytes, and expressions that differ in their columns only. -/
def Alike (T : Nat → Nat → Prop) (x y : Expr × Nat) : Prop := x.1.Renamed T y.1 ∧ x.2 = y.2

def AlikeAll (T : Nat → Nat → Prop) (xs ys : List Expr × Nat) : Prop :=
  List.Forall₂ (Expr.Renamed T) xs.1 ys.1 ∧ xs.2 = ys.2

variable {table : SymbolTable} {R Q : Node → Nat → Prop}

theorem compileNode_resolveTo (n : Node) (i used : Nat) :
    compileNode table (n.resolveTo i) used = .ok (.column i, used) := by
  simp [Node.resolveTo, compileNode]

theorem compileAll_follows {T : Nat → Nat → Prop} {ns as bs : List Node}
    (each : ∀ n ∈ ns, ∀ {a b}, Placed R n a → Placed Q n b → ∀ used,
      Follows True (Alike T) (compileNode table a used) (compileNode table b used))
    (left : List.Forall₂ (Placed R) ns as) (right : List.Forall₂ (Placed Q) ns bs) (used : Nat) :
    Follows True (AlikeAll T) (compileAll table as used) (compileAll table bs used) := by
  induction left generalizing bs used with
  | nil =>
    cases right
    exact ⟨.nil, rfl⟩
  | cons first _ ih =>
    cases right with
    | cons first' others' =>
      simp only [compileAll]
      refine (each _ (by simp) first first' used).bind ?_
      intro left right both
      obtain ⟨x, used⟩ := left
      obtain ⟨y, _⟩ := right
      obtain ⟨same, rfl⟩ := both
      refine (ih (fun n mem => each n (by simp [mem])) others' used).bind ?_
      intro left right both
      obtain ⟨xs, used⟩ := left
      obtain ⟨ys, _⟩ := right
      obtain ⟨all, rfl⟩ := both
      exact ⟨.cons same all, rfl⟩

section Node

variable {strict : Prop} {A : List Expr × Nat → List Expr × Nat → Prop}
  {B : Expr × Nat → Expr × Nat → Prop} {as bs : List Node} {used used' : Nat}
  (below : Follows strict A (compileAll table as used) (compileAll table bs used'))
  (call : ∀ {x y}, A x y → ∀ symbol : Symbol, Follows strict
    (fun total total' => B (.call symbol.name symbol.isAggregate x.1, total)
      (.call symbol.name symbol.isAggregate y.1, total'))
    (charge x.2 symbol) (charge y.2 symbol))

include below call

theorem call_follows (found : Except Stop Symbol) :
    Follows strict B
      (do
        let symbol ← found
        let (args, used) ← compileAll table as used
        let used ← charge used symbol
        return (Expr.call symbol.name symbol.isAggregate args, used))
      (do
        let symbol ← found
        let (args, used) ← compileAll table bs used'
        let used ← charge used symbol
        return (Expr.call symbol.name symbol.isAggregate args, used)) := by
  refine .bind_same found fun symbol => below.bind fun both => ?_
  exact (call both symbol).bind fun paid => paid

/-- Two nodes that differ in their children: where the children follow, and what is made of them
goes together, so do the nodes. -/
theorem node_follows {kind : Kind} {token : Option Token} {id : Option Nat}
    (list : ∀ {x y}, A x y → B (.list x.1, x.2) (.list y.1, y.2))
    (item : kind = .derivedColumn → Option.Rel (fun a b => Follows strict B
      (compileNode table a used) (compileNode table b used')) as.head? bs.head?)
    (column : kind = .resolvedColumn → ∀ i, B (.column i, used) (.column i, used'))
    (constant : ∀ value, B (.literal value, used) (.literal value, used')) :
    Follows strict B (compileNode table ⟨kind, token, as, id⟩ used)
      (compileNode table ⟨kind, token, bs, id⟩ used') := by
  cases kind with
  | selectList => exact below.bind fun both => list both
  | groupBy => exact below.bind fun both => list both
  | derivedColumn =>
    have heads := item rfl
    cases as with
    | nil =>
      cases bs with
      | nil => exact fun _ => rfl
      | cons => cases heads
    | cons a _ =>
      cases bs with
      | nil => cases heads
      | cons b _ =>
        cases heads with
        | some first => exact first
  | resolvedColumn =>
    cases id with
    | none => exact fun _ => rfl
    | some i => exact column rfl i
  | literal =>
    simp only [compileNode]
    cases literal token with
    | ok value => exact constant value
    | error error => exact fun _ => rfl
  | methodCall =>
    cases token with
    | none => exact fun _ => rfl
    | some token => exact call_follows below call (symbolOf table token.text)
  | operator op => exact call_follows below call (symbolOf table op.symbol)
  | _ => exact fun _ => rfl

end Node

/-- A tree placed in two ways compiles alike, if its columns by position may stay as they are. -/
theorem compileNode_alike {T : Nat → Nat → Prop} (meet : ∀ {i j}, Meet R Q i j → T i j) {n a b : Node}
    (stay : ∀ m ∈ n.subtrees, m.kind = .resolvedColumn → ∀ i, T i i) (left : Placed R n a)
    (right : Placed Q n b) (used : Nat) :
    Follows True (Alike T) (compileNode table a used) (compileNode table b used) := by
  refine Node.induct (motive := fun n => (∀ m ∈ n.subtrees, m.kind = .resolvedColumn → ∀ i, T i i) →
    ∀ {a b}, Placed R n a → Placed Q n b → ∀ used,
      Follows True (Alike T) (compileNode table a used) (compileNode table b used))
    ?_ n stay left right used
  intro n ih stay a b left right used
  have each : ∀ c ∈ n.children, ∀ {a b}, Placed R c a → Placed Q c b → ∀ used,
      Follows True (Alike T) (compileNode table a used) (compileNode table b used) :=
    fun c mem => ih c mem fun m part => stay m (Node.subtrees_child mem part)
  cases left with
  | column kind here =>
    cases right with
    | column _ here' =>
      rw [compileNode_resolveTo, compileNode_resolveTo]
      exact ⟨.column (meet ⟨n, here, here'⟩), rfl⟩
    | inner other => exact absurd kind other
  | @inner kind token children as id other left =>
    cases right with
    | column kind => exact absurd kind other
    | @inner _ _ _ bs _ _ right =>
      have below := compileAll_follows each left right used
      refine node_follows below ?call (fun both => ⟨.list both.1, both.2⟩) ?item ?position
        fun value => ⟨.literal value, rfl⟩
      case call =>
        rintro ⟨xs, between⟩ ⟨ys, _⟩ ⟨all, rfl⟩ symbol
        exact .refl (fun _ => ⟨.call _ _ all, rfl⟩) _
      case item =>
        intro _
        cases left with
        | nil =>
          cases right
          exact .none
        | cons first _ =>
          cases right with
          | cons first' _ => exact .some (each _ (by simp) first first' used)
      case position =>
        rintro rfl i
        exact ⟨.column (stay _ (Node.self_mem_subtrees _) rfl i), rfl⟩

theorem compileNode_placed {n a b : Node} (unplaced : n.Unplaced) (left : Placed R n a)
    (right : Placed Q n b) (used : Nat) :
    Follows True (Alike (Meet R Q)) (compileNode table a used) (compileNode table b used) :=
  compileNode_alike id (fun m part resolved => absurd resolved (unplaced m part)) left right used

theorem compileAll_bytes {ns as bs : List Node} (left : List.Forall₂ (Placed R) ns as)
    (right : List.Forall₂ (Placed Q) ns bs) (used : Nat) :
    Follows True (fun x y => x.2 = y.2) (compileAll table as used) (compileAll table bs used) :=
  (compileAll_follows (fun _ _ _ _ left right used =>
    compileNode_alike (T := fun _ _ => True) (fun _ => trivial) (fun _ _ _ _ => trivial) left right
      used) left right used).mono And.right

theorem compileAll_append (ms ns : List Node) (used : Nat) :
    compileAll table (ms ++ ns) used = (do
      let (xs, used) ← compileAll table ms used
      let (ys, used) ← compileAll table ns used
      return (xs ++ ys, used)) := by
  induction ms generalizing used with
  | nil => simp [compileAll]
  | cons m rest ih => simp [compileAll, ih]

variable (table) in
/-- Items that are placed references cost nothing and read what the references were placed at. -/
theorem compileAll_derived {rs ms : List Node} (columns : ∀ r ∈ rs, r.kind = .columnName)
    (placed : List.Forall₂ (Placed R) (rs.map .derived) ms) :
    ∃ es, (∀ used, compileAll table ms used = .ok (es, used)) ∧
      List.Forall₂ (fun r e => ∃ i, R r i ∧ e = .column i) rs es := by
  induction rs generalizing ms with
  | nil =>
    cases placed
    exact ⟨[], fun _ => rfl, .nil⟩
  | cons r rest ih =>
    obtain ⟨m, others, first, below, rfl⟩ := List.forall₂_cons_left_iff.1 placed
    obtain ⟨es, compiled, reads⟩ := ih (fun s mem => columns s (by simp [mem])) below
    have column := columns r (by simp)
    cases first with
    | column kind => cases kind
    | inner _ item =>
      obtain ⟨_, _, here, _, rfl⟩ := List.forall₂_cons_left_iff.1 item
      cases here with
      | @column _ i _ here =>
        refine ⟨.column i :: es, fun used => ?_, .cons ⟨i, here, rfl⟩ reads⟩
        simp [compileAll, compileNode, Node.resolveTo, compiled, pure, Except.pure]
      | inner other => exact absurd column other

theorem compileAll_columns {ns : List Node} (each : ∀ n ∈ ns, ∀ {used total e},
      compileNode table n used = .ok (e, total) →
      ∀ i ∈ e.columns, ∃ m ∈ n.subtrees, m.kind = .resolvedColumn ∧ m.id = some i)
    {used total : Nat} {es : List Expr} (h : compileAll table ns used = .ok (es, total)) :
    ∀ i ∈ Expr.columnsAll es, ∃ n ∈ ns, ∃ m ∈ n.subtrees, m.kind = .resolvedColumn ∧
      m.id = some i := by
  induction ns generalizing used es total with
  | nil =>
    simp only [compileAll, Except.ok.injEq, Prod.mk.injEq] at h
    simp [← h.1, Expr.columnsAll]
  | cons n rest ih =>
    obtain ⟨e, between, others, first, below, rfl⟩ := compileAll_cons_eq_ok h
    intro i mem
    rw [Expr.columnsAll, List.mem_append] at mem
    rcases mem with mem | mem
    · exact ⟨n, by simp, each n (by simp) first i mem⟩
    · obtain ⟨c, child, found⟩ := ih (fun m mem => each m (by simp [mem])) below i mem
      exact ⟨c, by simp [child], found⟩

theorem compileNode_columns {n : Node} {used total : Nat} {e : Expr}
    (h : compileNode table n used = .ok (e, total)) :
    ∀ i ∈ e.columns, ∃ m ∈ n.subtrees, m.kind = .resolvedColumn ∧ m.id = some i := by
  refine Node.induct (motive := fun n => ∀ {used total e}, compileNode table n used = .ok (e, total) →
    ∀ i ∈ e.columns, ∃ m ∈ n.subtrees, m.kind = .resolvedColumn ∧ m.id = some i) ?_ n h
  intro n ih used total e h i mem
  have inside : ∀ {used total es}, compileAll table n.children used = .ok (es, total) →
      i ∈ Expr.columnsAll es → ∃ m ∈ n.subtrees, m.kind = .resolvedColumn ∧ m.id = some i := by
    intro used total es compiled mem
    obtain ⟨c, child, m, part, found⟩ := compileAll_columns ih compiled i mem
    exact ⟨m, Node.subtrees_child child part, found⟩
  cases compiles_of_ok h with
  | list items => exact inside items mem
  | call _ args _ => exact inside args mem
  | below child compiled =>
    obtain ⟨m, part, found⟩ := ih _ child compiled i mem
    exact ⟨m, Node.subtrees_child child part, found⟩
  | column resolved id =>
    rw [Expr.columns, List.mem_singleton] at mem
    subst mem
    exact ⟨n, n.self_mem_subtrees, resolved, id⟩
  | literal => simp [Expr.columns] at mem

/-- The same answer, with more bytes used before. -/
def Later (more : Nat) (x y : α × Nat) : Prop := x.1 = y.1 ∧ x.2 + more = y.2

theorem charge_later (symbol : Symbol) (used more : Nat) :
    Follows False (fun total total' => total + more = total') (charge used symbol)
      (charge (used + more) symbol) := by
  unfold charge
  split
  · split
    · exact Nat.add_right_comm ..
    · exact not_false
  · rw [if_neg (by omega)]
    exact False.elim

theorem compileAll_later {ns : List Node} {more : Nat}
    (each : ∀ n ∈ ns, ∀ used, Follows False (Later more) (compileNode table n used)
      (compileNode table n (used + more))) (used : Nat) :
    Follows False (Later more) (compileAll table ns used) (compileAll table ns (used + more)) := by
  induction ns generalizing used with
  | nil => exact ⟨rfl, rfl⟩
  | cons n rest ih =>
    simp only [compileAll]
    refine (each n (by simp) used).bind ?_
    rintro ⟨e, between⟩ ⟨_, _⟩ ⟨rfl, rfl⟩
    refine (ih (fun m mem => each m (by simp [mem])) between).bind ?_
    rintro ⟨es, total⟩ ⟨_, _⟩ ⟨rfl, rfl⟩
    exact ⟨rfl, rfl⟩

/-- What compiles after some bytes compiles to the same after fewer. -/
theorem compileNode_later (n : Node) (used more : Nat) :
    Follows False (Later more) (compileNode table n used) (compileNode table n (used + more)) := by
  refine Node.induct (motive := fun n => ∀ used, Follows False (Later more)
    (compileNode table n used) (compileNode table n (used + more))) ?_ n used
  intro n ih used
  obtain ⟨kind, token, children, id⟩ := n
  refine node_follows (compileAll_later ih used) ?call ?list ?item (fun _ _ => ⟨rfl, rfl⟩)
    fun _ => ⟨rfl, rfl⟩
  case list =>
    rintro ⟨es, total⟩ ⟨_, _⟩ ⟨rfl, rfl⟩
    exact ⟨rfl, rfl⟩
  case call =>
    rintro ⟨es, between⟩ ⟨_, _⟩ ⟨rfl, rfl⟩ symbol
    exact (charge_later symbol between more).mono fun paid => ⟨rfl, paid⟩
  case item =>
    intro _
    cases children with
    | nil => exact .none
    | cons expr rest => exact .some (ih expr (by simp) used)

end Compile

section

variable {table : SymbolTable} {n : Node}

theorem compile_eq_ok {c : Compiled} :
    compile table n = .ok c ↔ Compile.compileNode table n 0 = .ok (c.expr, c.scratchpad) := by
  rw [compile]
  cases Compile.compileNode table n 0 with
  | error stop => simp
  | ok answer =>
    cases answer
    cases c
    simp [pure, Except.pure]

/-- A part of what compiles compiles by itself. -/
theorem compile_part {e : Expr} {used total : Nat}
    (h : Compile.compileNode table n used = .ok (e, total)) :
    ∃ pad, compile table n = .ok ⟨e, pad⟩ := by
  have alone : Follows False (Compile.Later used) (Compile.compileNode table n 0)
      (Compile.compileNode table n (0 + used)) := Compile.compileNode_later n 0 used
  rw [Nat.zero_add, h] at alone
  obtain ⟨⟨_, pad⟩, compiled, rfl, _⟩ := alone.ok
  exact ⟨pad, compile_eq_ok.2 compiled⟩

theorem compile_literal (table : SymbolTable) (token : Token) :
    compile table (.ofToken .literal token) =
      match Compile.literal (some token) with
      | .ok value => .ok ⟨.literal value, 0⟩
      | .error error => Compile.fail error := by
  rw [compile, Node.ofToken, Compile.compileNode]
  cases Compile.literal (some token) <;> rfl

theorem compile_parts (kind : n.kind = .selectList ∨ n.kind = .groupBy) :
    compile table n = (fun (es, used) => ⟨.list es, used⟩) <$> Compile.compileAll table n.children 0 := by
  cases n
  rcases kind with kind | kind
  all_goals
    simp only at kind
    subst kind
    rw [compile, Compile.compileNode]
    cases Compile.compileAll table _ 0 <;> rfl

theorem compile_parts_eq_ok {c : Compiled} (kind : n.kind = .selectList ∨ n.kind = .groupBy) :
    compile table n = .ok c ↔
      ∃ es, Compile.compileAll table n.children 0 = .ok (es, c.scratchpad) ∧ c.expr = .list es := by
  rw [compile_parts kind, map_eq_ok_iff]
  constructor
  · intro h
    obtain ⟨⟨es, used⟩, items, rfl⟩ := h
    exact ⟨es, items, rfl⟩
  · intro h
    obtain ⟨es, items, whole⟩ := h
    refine ⟨(es, c.scratchpad), items, ?_⟩
    cases c
    simp_all

theorem compile_list_eq_ok {c : Compiled} (kind : n.kind = .selectList) :
    compile table n = .ok c ↔
      ∃ es, Compile.compileAll table n.children 0 = .ok (es, c.scratchpad) ∧ c.expr = .list es :=
  compile_parts_eq_ok (.inl kind)

/-- Without bytes at the end the parts compile without bytes, each by itself. -/
theorem compileAll_free {ns : List Node} {es : List Expr} :
    Compile.compileAll table ns 0 = .ok (es, 0) ↔
      List.Forall₂ (fun n e => compile table n = .ok ⟨e, 0⟩) ns es := by
  simp only [compile_eq_ok]
  induction ns generalizing es with
  | nil => simp [Compile.compileAll, eq_comm]
  | cons n rest ih =>
    rw [List.forall₂_cons_left_iff]
    constructor
    · intro h
      obtain ⟨e, between, others, first, below, rfl⟩ := Compile.compileAll_cons_eq_ok h
      have none := Compile.compileAll_le (fun n _ => Compile.compileNode_le table n) below
      obtain rfl : between = 0 := Nat.le_zero.1 none
      exact ⟨e, others, first, ih.1 below, rfl⟩
    · rintro ⟨e, others, first, below, rfl⟩
      simp only [Compile.compileAll, first, ih.2 below, ok_bind]
      rfl

/-- Columns at the end of a list come out as they are and cost nothing. -/
theorem compile_append (kind : n.kind = .selectList) {ms more : List Node}
    (children : n.children = ms ++ more) {es : List Expr}
    (columns : ∀ used, Compile.compileAll table more used = .ok (es, used)) :
    compile table n =
      (fun (xs, used) => ⟨.list (xs ++ es), used⟩) <$> Compile.compileAll table ms 0 := by
  rw [compile_parts (.inl kind), children, Compile.compileAll_append]
  cases Compile.compileAll table ms 0 with
  | error stop => rfl
  | ok answer =>
    obtain ⟨xs, used⟩ := answer
    simp only [ok_bind, columns]
    rfl

theorem compile_columns {c : Compiled} (h : compile table n = .ok c) :
    ∀ i ∈ c.expr.columns, ∃ m ∈ n.subtrees, m.kind = .resolvedColumn ∧ m.id = some i :=
  Compile.compileNode_columns (compile_eq_ok.1 h)

/-- A tree placed in two ways compiles to expressions that differ in their columns only. -/
theorem compile_placed (table : SymbolTable) {R Q : Node → Nat → Prop} {a b : Node}
    (unplaced : n.Unplaced) (left : Placed R n a) (right : Placed Q n b) :
    Follows True (fun c d => c.expr.Renamed (Compile.Meet R Q) d.expr ∧ c.scratchpad = d.scratchpad)
      (compile table a) (compile table b) := by
  refine (Compile.compileNode_placed unplaced left right 0).bind ?_
  intro left right same
  obtain ⟨x, used⟩ := left
  obtain ⟨y, used'⟩ := right
  exact same

theorem compile_bytes (table : SymbolTable) {R Q : Node → Nat → Prop} {a b : Node}
    (left : Placed R n a) (right : Placed Q n b) :
    Follows True (fun c d => c.scratchpad = d.scratchpad) (compile table a) (compile table b) := by
  refine (Compile.compileNode_alike (T := fun _ _ => True) (fun _ => trivial)
    (fun _ _ _ _ => trivial) left right 0).bind ?_
  rintro ⟨x, used⟩ ⟨y, used'⟩ ⟨_, same⟩
  exact same

end

end StatementPlan
