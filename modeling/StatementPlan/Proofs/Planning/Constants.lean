/-
Where the literals of a plan come from: each is the reading of a constant of the statement, or of
the fixed name of a series.  What is moved about between SELECTs are columns, and these carry none.

`Below.carries`: the statement below a layer has no constants of its own.
`step_literals`, `planWithin_literals`: the literals of a plan are readings of constants.
-/
import StatementPlan.Proofs.Plan.Numbers
import StatementPlan.Proofs.Planning.Layers

namespace StatementPlan

namespace Node

/-- The token of a constant, or of the fixed name of a series. -/
def written? (n : Node) : Option Token :=
  if n.kind = .literal ∨ n.kind = .seriesName then n.token else none

/-- The constants and the fixed names of series in a statement. -/
def written (n : Node) : List Token := n.subtrees.filterMap written?

/-- The constants in the tree are among these. -/
def Carries (T : Token → Prop) (n : Node) : Prop :=
  ∀ m ∈ n.subtrees, ∀ token, m.written? = some token → T token

variable {T : Token → Prop} {n list : Node}

/-- The texts of the numerals among them. -/
def numerals (n : Node) : List String :=
  (n.written.filter fun token => token.kind == .numeric).map Token.text

theorem carries_written (n : Node) : n.Carries (· ∈ n.written) :=
  fun m part _ here => List.mem_filterMap.2 ⟨m, part, here⟩

theorem carries_iff : n.Carries T ↔ (∀ token, n.written? = some token → T token) ∧
    ∀ c ∈ n.children, c.Carries T := by
  constructor
  · intro h
    exact ⟨h n n.self_mem_subtrees, fun c mem m part => h m (subtrees_child mem part)⟩
  · rintro ⟨root, below⟩ m part
    cases n
    simp only [subtrees, List.mem_cons, mem_subtreesAll] at part
    rcases part with rfl | ⟨c, child, part⟩
    · exact root
    · exact below c child m part

namespace Carries

theorem child (h : n.Carries T) {c : Node} (mem : c ∈ n.children) : c.Carries T :=
  (carries_iff.1 h).2 c mem

theorem of_children (none : n.written? = none) (h : ∀ c ∈ n.children, c.Carries T) : n.Carries T :=
  carries_iff.2 ⟨fun _ here => (Option.some_ne_none _ (here.symm.trans none)).elim, h⟩

end Carries

theorem evaluated_subset (n : Node) : n.evaluated ⊆ n.subtrees := by
  refine Node.induct (motive := fun n => n.evaluated ⊆ n.subtrees) ?_ n
  intro n ih
  obtain ⟨kind, token, children, id⟩ := n
  have below : evaluatedAll children ⊆ subtreesAll children := by
    intro m mem
    rw [evaluatedAll_eq_flatMap, List.mem_flatMap] at mem
    obtain ⟨c, child, mem⟩ := mem
    exact mem_subtreesAll.2 ⟨c, child, ih c child mem⟩
  cases kind with
  | selectList | groupBy | methodCall | operator => exact List.cons_subset_cons _ below
  | derivedColumn =>
    cases children with
    | nil => exact List.cons_subset_cons _ (List.nil_subset _)
    | cons expr rest =>
      refine List.cons_subset_cons _ fun m mem => ?_
      exact List.mem_append_left _ (ih expr (by simp) mem)
  | _ => exact List.cons_subset_cons _ (List.nil_subset _)

theorem Carries.constants (h : n.Carries T) : ∀ token ∈ n.constants, T token := by
  intro token mem
  obtain ⟨m, used, here⟩ := List.mem_filterMap.1 mem
  refine h m (n.evaluated_subset used) token ?_
  unfold constant? at here
  split at here
  · rename_i literal
    rw [written?, if_pos (.inl literal), here]
  · cases here

theorem constants_selectList (items : List Node) :
    (ofChildren .selectList items).constants = items.flatMap constants := by
  rw [constants, ofChildren, evaluated, evaluatedAll_eq_flatMap, List.filterMap_cons_none rfl,
    List.filterMap_flatMap]
  rfl

end Node

theorem Token.Denotes.number {token : Token} {x : Binary64} (h : token.Denotes (.float64 x)) :
    token.kind = .numeric ∧ Numeral.int64? token.text = none ∧ Binary64.read? token.text = some x := by
  obtain ⟨kind, text⟩ := token
  cases kind with
  | numeric =>
    simp only [Token.Denotes, Compile.literal] at h
    split at h
    · cases h
    · rename_i none
      split at h
      · rename_i value read
        obtain rfl : value = x := by simpa using h
        exact ⟨rfl, none, read⟩
      · cases h
  | _ => cases h

/-- The literal is the reading of one of the constants. -/
def ReadFrom (T : Token → Prop) (value : Literal) : Prop := ∃ token, T token ∧ token.Denotes value

theorem literals_readFrom {T : Token → Prop} {table : SymbolTable} {n : Node} {c : Compiled}
    (among : ∀ token ∈ n.constants, T token) (h : compile table n = .ok c) :
    ∀ v ∈ c.expr.literals, ReadFrom T v := by
  intro v mem
  obtain ⟨token, here, read⟩ := exists_of_mem_right (compile_literals h) mem
  exact ⟨token, among token here, read⟩

namespace Planning

open RowSource

variable {env : Environment} {statement rest list : Node} {T : Token → Prop}

/-- The statement below a layer has no constants of its own. -/
theorem Below.carries {layer : Layer} (h : Below env statement layer rest) (all : statement.Carries T) :
    rest.Carries T := by
  refine Node.carries_iff.2 ⟨?_, fun c mem m part token here => ?_⟩
  · cases h with
    | limit | group => exact (Node.carries_iff.1 all).1
    | @series name select _ _ _ pair =>
      exact (Node.carries_iff.1 (all.child (c := select) (by simp [pair]))).1
  · rcases h.nodes c mem m part with list | ⟨d, child, part⟩
    · rcases list with kind | kind <;> simp [Node.written?, kind] at here
    · exact all.child child m part token here

theorem scanItems_constants {table : String} {columns : List String} {ns : List Node}
    {items : List (Node × String)} (all : ∀ n ∈ ns, n.Carries T)
    (h : scanItems table columns ns = .ok items) :
    ∀ item ∈ items, ∀ token ∈ item.1.constants, T token := by
  induction ns generalizing items with
  | nil =>
    obtain rfl := Except.ok.inj h
    simp
  | cons n rest ih =>
    obtain ⟨first, others, here, below, rfl⟩ := scanItems_cons_eq_ok.1 h
    intro item mem token written
    rcases List.mem_append.1 mem with mem | mem
    · rcases scanItem_eq_ok here with ⟨_, rfl⟩ | ⟨m, placed, rfl⟩
      · obtain ⟨i, bound, rfl⟩ := List.mem_mapIdx.1 mem
        cases written
      · obtain rfl := List.mem_singleton.1 mem
        rw [← placed.constants] at written
        exact (all n (by simp)).constants token written
    · exact ih (fun m mem => all m (by simp [mem])) below item mem token written

theorem RowsOf.literals {p : Plan} (h : RowsOf env statement list p) (all : statement.Carries T)
    (found : statement.selectList? = some list) : ∀ v ∈ p.literals, ReadFrom T v := by
  obtain ⟨_, shape⟩ := Node.selectList?_eq_some.1 found
  have listCarries := all.child (shape ▸ List.mem_cons_self)
  cases h with
  | constants _ compiled => exact literals_readFrom listCarries.constants compiled
  | @scan table columns items select predicate _ bound compiled _ filtered =>
    refine List.forall_mem_append.2 ⟨literals_readFrom ?_ compiled, ?_⟩
    · intro token mem
      rw [Node.constants_selectList, List.mem_flatMap] at mem
      obtain ⟨m, placed, mem⟩ := mem
      obtain ⟨item, here, rfl⟩ := List.mem_map.1 placed
      exact scanItems_constants (fun n mem => listCarries.child mem) bound item here token mem
    · cases condition : condition? statement with
      | none =>
        rw [condition] at filtered
        obtain rfl := Except.ok.inj filtered
        exact nofun
      | some c =>
        rw [condition] at filtered
        obtain ⟨made⟩ := mapM_option_eq_ok.1 filtered
        obtain ⟨m, placed, compiled, _⟩ := predicateOf_eq_ok.1 made
        obtain ⟨clause, here, first⟩ := Option.bind_eq_some_iff.1 condition
        have whole := (all.child (List.mem_of_find?_eq_some here)).child (List.mem_of_mem_head? first)
        exact literals_readFrom (placed.constants ▸ whole.constants) compiled

theorem Alone.literals {p : Plan} (h : Alone env statement p) (all : statement.Carries T) :
    ∀ v ∈ p.literals, ReadFrom T v := by
  cases h with
  | rows found rows => exact rows.literals all found
  | draw => exact nofun

theorem NameOf.constants {name name' : Node} (h : NameOf name name') (all : name.Carries T) :
    ∀ token ∈ name'.constants, T token := by
  cases h with
  | @fixed token kind here =>
    refine List.forall_mem_singleton.2 ((Node.carries_iff.1 all).1 token ?_)
    rw [Node.written?, if_pos (.inr kind), here]
  | computed placed => exact placed.constants ▸ all.constants

theorem Over.literals {layer : Layer} {input p : Plan} (h : Over env statement input layer p)
    (all : statement.Carries T) (inside : ∀ v ∈ input.literals, ReadFrom T v) :
    ∀ v ∈ p.literals, ReadFrom T v := by
  cases h with
  | limit => exact inside
  | group selected grouped _ found listPlaced keysPlaced =>
    obtain ⟨_, shape⟩ := Node.selectList?_eq_some.1 found
    have source := all.child (shape ▸ List.mem_cons_self)
    have keys : (Node.ofChildren .groupBy (groupKeys statement)).Carries T := by
      refine .of_children rfl fun key mem => ?_
      obtain ⟨clause, kept, part⟩ := List.mem_flatMap.1 mem
      exact (all.child (List.mem_filter.1 kept).1).child part
    refine List.forall_mem_append.2 ⟨List.forall_mem_append.2 ⟨?_, ?_⟩, inside⟩
    · exact literals_readFrom (listPlaced.constants ▸ source.constants) selected
    · exact literals_readFrom (keysPlaced.constants ▸ keys.constants) grouped
  | series compiled _ children _ named =>
    have name := all.child (children ▸ List.mem_cons_self)
    exact List.forall_mem_append.2 ⟨literals_readFrom (named.constants name) compiled, inside⟩

/-- The literals of what a step plans are readings of constants, if those of the plan below are. -/
theorem step_literals {below : Node → Run Plan} (all : statement.Carries T)
    (inner : ∀ {rest input}, rest.Carries T → (below rest).result = .ok input →
      ∀ v ∈ input.literals, ReadFrom T v) {p : Plan}
    (h : (step env below statement).result = .ok p) : ∀ v ∈ p.literals, ReadFrom T v := by
  rcases step_eq_ok h with alone | ⟨_, rest, input, asked, made, around⟩
  · exact alone.literals all
  · exact around.literals all (inner (asked.carries all) made)

theorem planWithin_literals {depth : Nat} (all : statement.Carries T) {p : Plan}
    (h : (planWithin env depth statement).result = .ok p) : ∀ v ∈ p.literals, ReadFrom T v := by
  induction depth generalizing statement p with
  | zero => cases h
  | succ depth ih => exact step_literals all (fun all made => ih all made) h

/-- Where the numbers of a plan come from, and what that means for storing it. -/
structure NumbersFrom (statement : Node) (p : Plan) : Prop where
  /-- Each is the reading of a numeral that is no integer. -/
  read : ∀ x, .float64 x ∈ p.literals → ∃ text ∈ statement.numerals,
    Numeral.int64? text = none ∧ Binary64.read? text = some x
  /-- So they are finite if the numerals are. -/
  finite : (∀ text ∈ statement.numerals, ∀ x, Numeral.int64? text = none →
    Binary64.read? text = some x → x.isFinite = true) →
      ∀ x, .float64 x ∈ p.literals → x.isFinite = true
  /-- The plan can be read back from where it is stored exactly if they are. -/
  stored : p.sized = true → ((Plan.ofDocument? p.toDocument).isSome = true ↔
    ∀ x, .float64 x ∈ p.literals → x.isFinite = true)

/-- The numbers of a plan are readings of numerals of the statement. -/
theorem numbers_from_numerals {p : Plan} (made : (buildPlan env statement).result = .ok p) :
    NumbersFrom statement p := by
  have read : ∀ x, .float64 x ∈ p.literals → ∃ text ∈ statement.numerals,
      Numeral.int64? text = none ∧ Binary64.read? text = some x := by
    intro x mem
    obtain ⟨token, here, denotes⟩ :=
      planWithin_literals statement.carries_written (buildPlan_eq_ok.1 made) _ mem
    obtain ⟨kind, noInteger, number⟩ := denotes.number
    refine ⟨token.text, List.mem_map_of_mem (List.mem_filter.2 ⟨here, ?_⟩), noInteger, number⟩
    rw [kind]
    rfl
  refine ⟨read, fun all x mem => ?_, Plan.readable_iff⟩
  obtain ⟨text, here, noInteger, number⟩ := read x mem
  exact all text here x noInteger number

/-- SERIES "high" SELECT city, 0.5 * total FROM sales WHERE tax > 1e2 -/
def salesHigh : Node :=
  .seriesNamed "high" (.select [.column "city",
    .item (.binary (.operator .mul) (.ofToken .literal (.numeric "0.5")) (.column "total")), .table "sales",
    .filter (.binary (.operator .gt) (.column "tax") (.ofToken .literal (.numeric "1e2")))])

/-- The plan of it: 0.5 and 100 as numbers. -/
def salesHighPlan : Plan :=
  .series ["series", "city", "unnamed"] (.literal (.utf8 "high")) (.tableScan "sales" ["city", "unnamed"]
    ⟨.list [.column 0, .call "mul" false [.literal (.float64 ⟨0x3FE0000000000000⟩), .column 1]], 0⟩
    (some ⟨.call "gt" false [.column 2, .literal (.float64 ⟨0x4059000000000000⟩)], 0⟩))

theorem numbers_from_numerals_sales :
    (buildPlan salesEnvironment salesHigh).result = .ok salesHighPlan ∧
      NumbersFrom salesHigh salesHighPlan := by
  have made : (buildPlan salesEnvironment salesHigh).result = .ok salesHighPlan := by decide +kernel
  exact ⟨made, numbers_from_numerals made⟩

/-- SELECT 1e999 -/
def beyondNumbers : Node := .select [.item (.ofToken .literal (.numeric "1e999"))]

/-- A numeral beyond all finite numbers is planned as infinity, and that plan cannot be read back. -/
theorem infinite_number_planned :
    ∃ p x, (buildPlan salesEnvironment beyondNumbers).result = .ok p ∧ .float64 x ∈ p.literals ∧
      x.isFinite = false ∧ (Plan.ofDocument? p.toDocument).isNone = true := by
  refine ⟨.tablelessSelect ["unnamed"] ⟨.list [.literal (.float64 (.infinity false))], 0⟩,
    .infinity false, ?_, ?_, ?_, ?_⟩
  all_goals decide +kernel

end Planning

end StatementPlan
