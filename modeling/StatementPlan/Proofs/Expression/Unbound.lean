/-
Assembled expressions whose columns are left by name, as a SELECT without a table compiles them:
where all their calls are known and bytes stay within a size, a column is all that they are refused
for.

`tally_bytes_le`: no tree is charged for more than its calls.
`compile_unbound`: the items of such a SELECT.
-/
import StatementPlan.Proofs.Expression.Acceptance
import StatementPlan.Proofs.Expression.Tally

namespace StatementPlan

/-- A statement is refused for its own fault, or for what the planner does not cover. -/
inductive UserStop : Stop → Prop
  | rejected (cause : Rejection) : UserStop (.failed (.rejected cause))
  | unsupported (cause : Unsupported) : UserStop (.failed (.unsupported cause))

/-- The computation answers, or refuses a statement for what is up to the user. -/
def ForUser (x : Except Stop α) : Prop := StopsIn UserStop x

variable {table : SymbolTable}

namespace Compile

theorem call_bytes_le {symbol : Option Symbol} {args : Tally} {bytes : Nat}
    (price : ∀ s ∈ symbol, s.scratchpad ≤ bytes) : (Tally.call symbol args).bytes ≤ bytes + args.bytes := by
  cases symbol with
  | none => simp [Tally.call]
  | some s =>
    have own := price s rfl
    cases whole : args.whole with
    | true =>
      rw [Tally.call, Tally.bytes_andThen whole]
      simp [Tally.bytes] at own ⊢
      omega
    | false =>
      rw [Tally.call, Tally.andThen_partly whole]
      omega

theorem tallyAll_bytes_le {ns : List Node}
    (each : ∀ n ∈ ns, (tally table n).bytes ≤ bytesOf table n.subtrees) :
    (tallyAll table ns).bytes ≤ bytesOf table (Node.subtreesAll ns) := by
  induction ns with
  | nil => simp [tallyAll]
  | cons n rest ih =>
    have first := each n (by simp)
    have others := ih fun m mem => each m (by simp [mem])
    rw [tallyAll, Node.subtreesAll, bytesOf_append]
    cases whole : (tally table n).whole with
    | true =>
      rw [Tally.bytes_andThen whole]
      omega
    | false =>
      rw [Tally.andThen_partly whole]
      omega

theorem tally_bytes_le (scalars : table.ScalarOperators) (n : Node) :
    (tally table n).bytes ≤ bytesOf table n.subtrees := by
  refine Node.induct (motive := fun n => (tally table n).bytes ≤ bytesOf table n.subtrees) ?_ n
  intro n ih
  obtain ⟨kind, token, children, id⟩ := n
  have below : (tallyAll table children).bytes ≤ bytesOf table (Node.subtreesAll children) :=
    tallyAll_bytes_le ih
  rw [Node.subtrees, bytesOf_cons]
  cases kind with
  | selectList | groupBy =>
    rw [tally]
    omega
  | derivedColumn =>
    cases children with
    | nil => simp [tally]
    | cons expr rest =>
      have first := ih expr (by simp)
      rw [tally, Node.subtreesAll, bytesOf_append]
      omega
  | methodCall =>
    cases token with
    | none => simp [tally]
    | some token =>
      have whole := @call_bytes_le (table token.text) (tallyAll table children)
        (callBytes table ⟨.methodCall, some token, children, id⟩) fun s found => by
          simp only [Option.mem_def] at found
          simp [callBytes, Node.text?, found]
      rw [tally]
      omega
  | operator op =>
    obtain ⟨scalar, found, kind⟩ := scalars op
    have whole := @call_bytes_le (table op.symbol) (tallyAll table children) 0 fun s found' => by
      obtain rfl := Option.some.inj (found.symm.trans found')
      exact Nat.le_of_eq (Symbol.scratchpad_eq_zero_of_scalar kind)
    rw [tally]
    omega
  | _ => simp [tally]

/-- A fault of the user's, or too many bytes. -/
def UserOrOverflow (stop : Stop) : Prop := UserStop stop ∨ stop = .overflow

theorem compileAll_unbound {ns : List Node}
    (each : ∀ n ∈ ns, ∀ used, StopsIn UserOrOverflow (compileNode table n used)) (used : Nat) :
    StopsIn UserOrOverflow (compileAll table ns used) := by
  induction ns generalizing used with
  | nil => exact .ok _
  | cons n rest ih =>
    rw [compileAll]
    refine (each n (by simp) used).bind fun first _ => ?_
    exact (ih (fun m mem => each m (by simp [mem])) _).bind fun _ _ => .ok _

theorem call_unbound {name : String} {args : List Node} {s : Symbol} {used : Nat}
    (found : table name = some s) (below : StopsIn UserOrOverflow (compileAll table args used)) :
    StopsIn UserOrOverflow (do
      let symbol ← symbolOf table name
      let (args, used) ← compileAll table args used
      let used ← charge used symbol
      return (Expr.call symbol.name symbol.isAggregate args, used)) := by
  rw [symbolOf_eq_ok.2 found, ok_bind]
  refine below.bind fun args _ => StopsIn.bind ?_ fun _ _ => .ok _
  unfold charge
  split
  · exact .ok _
  · exact .error (.inr rfl)

/-- An assembled expression with columns by name is compiled, or refused for one of these. -/
theorem compileNode_unbound (scalars : table.ScalarOperators) {n : Node} (built : n.Built)
    (known : CallsKnown table n.subtrees) (used : Nat) :
    StopsIn UserOrOverflow (compileNode table n used) := by
  have within : ∀ {args : List Node} {n : Node}, CallsKnown table (n :: Node.subtreesAll args) →
      ∀ a ∈ args, CallsKnown table a.subtrees := fun known a mem m part =>
    known m (List.mem_cons_of_mem _ (Node.mem_subtreesAll.2 ⟨a, mem, part⟩))
  induction built generalizing used with
  | column name => exact .error (.inl (.rejected _))
  | int value =>
    have read : literal (some (Token.numeric (Numeral.writeInt value.toInt))) = .ok (.int64 value) := by
      simp only [Token.numeric, literal, Numeral.int64?_writeInt]
    rw [Node.int, compileNode_literal read]
    exact .ok _
  | string value => exact .ok _
  | boolean value => cases value <;> exact .ok _
  | call name each ih =>
    have here := known _ (Node.self_mem_subtrees _) rfl
    obtain ⟨s, found⟩ := Option.isSome_iff_exists.1 here
    exact call_unbound (by simpa [Node.call, Node.text?, Token.identifier] using found)
      (compileAll_unbound (fun a mem => ih a mem (within known a mem)) used)
  | operator op token id each ih =>
    obtain ⟨s, found, _⟩ := scalars op
    exact call_unbound found (compileAll_unbound (fun a mem => ih a mem (within known a mem)) used)

theorem compileNode_unboundItem (scalars : table.ScalarOperators) {item : Node} (built : item.BuiltItem)
    (plain : item.kind ≠ .all) (known : CallsKnown table item.subtrees) (used : Nat) :
    StopsIn UserOrOverflow (compileNode table item used) := by
  cases built with
  | all => exact absurd rfl plain
  | derived built | derivedAs built =>
    refine compileNode_unbound scalars built (fun m part => known m ?_) used
    exact Node.subtrees_child List.mem_cons_self part

end Compile

theorem compile_unbound (scalars : table.ScalarOperators) {items : List Node}
    (built : ∀ item ∈ items, item.BuiltItem) (plain : ∀ item ∈ items, item.kind ≠ .all)
    (known : CallsKnown table (Node.subtreesAll items))
    (fits : bytesOf table (Node.subtreesAll items) < Numeral.sizeLimit) :
    ForUser (compile table (.ofChildren .selectList items)) := by
  intro stop stopped
  have each : ∀ item ∈ items, ∀ used, StopsIn Compile.UserOrOverflow (Compile.compileNode table item used) :=
    fun item mem => Compile.compileNode_unboundItem scalars (built item mem) (plain item mem)
      fun m part => known m (Node.mem_subtreesAll.2 ⟨item, mem, part⟩)
  have ends : StopsIn Compile.UserOrOverflow (compile table (.ofChildren .selectList items)) :=
    ((Compile.compileAll_unbound each 0).bind fun _ _ => .ok _).bind fun _ _ => .ok _
  rcases ends stop stopped with user | rfl
  · exact user
  -- too many bytes would be more than those of all calls
  · have exceeds : Numeral.sizeLimit ≤ _ := compile_overflow_iff.1 stopped
    have charged := Compile.tally_bytes_le scalars (.ofChildren .selectList items)
    have own : callBytes table (.ofChildren .selectList items) = 0 := rfl
    rw [Node.ofChildren, Node.subtrees, bytesOf_cons] at charged
    rw [Node.ofChildren] at exceeds own
    omega

end StatementPlan
