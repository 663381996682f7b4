/-
The symbols that compiling a tree charges for, and their sizes as a sum without a limit.  The
compiler stops where the tree has a fault or where the sum passes the limit of sizes, whichever
comes first; nothing else ends it.

`compileNode_tallied`: how compiling ends, from the symbols up to the first fault of the tree.
`compile_overflow_iff`: it overflows exactly if their sizes add up to more than a size.
`compile_counted`: the bytes of a compiled expression are the sum over the symbols it calls.
-/
import StatementPlan.Proofs.Expression.Charges

namespace StatementPlan

/-- What a call keeps of its symbol. -/
def Symbol.signature (s : Symbol) : String × Bool := (s.name, s.isAggregate)

namespace Expr

mutual

/-- The symbols that an expression calls, as often as it does, those in the arguments of a call
first. -/
def calls : Expr → List (String × Bool)
  | .literal _ | .column _ => []
  | .call symbol aggregate args => callsAll args ++ [(symbol, aggregate)]
  | .list items => callsAll items

def callsAll : List Expr → List (String × Bool)
  | [] => []
  | e :: rest => calls e ++ callsAll rest

end

end Expr

/-- The error says that no builder took a statement. -/
def PlanError.unmatched : PlanError → Bool
  | .defect (.noBuilder _) => true
  | _ => false

namespace Compile

/-- The symbols charged up to the first fault of a tree, and whether there is none. -/
structure Tally where
  symbols : List Symbol
  whole : Bool

namespace Tally

/-- The sizes of the symbols, however much they add up to. -/
def bytes (t : Tally) : Nat := (t.symbols.map Symbol.scratchpad).sum

/-- Nothing charged, with or without a fault. -/
def free (whole : Bool) : Tally := ⟨[], whole⟩

/-- What comes second counts only if the first has no fault. -/
def andThen (t t' : Tally) : Tally :=
  if t.whole then ⟨t.symbols ++ t'.symbols, t'.whole⟩ else t

/-- A call of a symbol, if there is one, after its arguments. -/
def call (symbol : Option Symbol) (args : Tally) : Tally :=
  match symbol with
  | some s => args.andThen ⟨[s], true⟩
  | none => free false

end Tally

mutual

/-- What compiling a tree charges for. -/
def tally (table : SymbolTable) : Node → Tally
  | ⟨.selectList, _, children, _⟩ => tallyAll table children
  | ⟨.groupBy, _, children, _⟩ => tallyAll table children
  | ⟨.derivedColumn, _, [], _⟩ => .free false
  | ⟨.derivedColumn, _, expr :: _, _⟩ => tally table expr
  | ⟨.resolvedColumn, _, _, id⟩ => .free id.isSome
  | ⟨.literal, token, _, _⟩ => .free (literal token).isOk
  | ⟨.methodCall, none, _, _⟩ => .free false
  | ⟨.methodCall, some token, args, _⟩ => .call (table token.text) (tallyAll table args)
  | ⟨.operator op, _, args, _⟩ => .call (table op.symbol) (tallyAll table args)
  | _ => .free false

def tallyAll (table : SymbolTable) : List Node → Tally
  | [] => .free true
  | n :: rest => (tally table n).andThen (tallyAll table rest)

end

/-- How a compilation that charges for these symbols ends, if so many bytes are used before. -/
inductive Outcome (t : Tally) (calls : α → List (String × Bool)) (used : Nat) :
    Except Stop (α × Nat) → Prop
  | done {a : α} {total : Nat} (whole : t.whole = true) (fits : total < Numeral.sizeLimit)
      (called : calls a = t.symbols.map Symbol.signature) (exact : total = used + t.bytes) :
      Outcome t calls used (.ok (a, total))
  | fault {error : PlanError} (partly : t.whole = false)
      (fits : used + t.bytes < Numeral.sizeLimit) (matched : error.unmatched = false) :
      Outcome t calls used (.error (.failed error))
  | overflow (exceeds : Numeral.sizeLimit ≤ used + t.bytes) :
      Outcome t calls used (.error .overflow)

/-- The compilation charges for these symbols. -/
def Tallied (t : Tally) (calls : α → List (String × Bool)) (f : Nat → Except Stop (α × Nat)) : Prop :=
  ∀ used, used < Numeral.sizeLimit → Outcome t calls used (f used)

variable {table : SymbolTable}

namespace Tally

variable {t t' : Tally}

@[simp] theorem bytes_free (whole : Bool) : (free whole).bytes = 0 := rfl

theorem andThen_whole (h : t.whole = true) : t.andThen t' = ⟨t.symbols ++ t'.symbols, t'.whole⟩ :=
  if_pos h

theorem andThen_partly (h : t.whole = false) : t.andThen t' = t := if_neg (by simp [h])

theorem bytes_andThen (h : t.whole = true) : (t.andThen t').bytes = t.bytes + t'.bytes := by
  simp [andThen_whole h, bytes]

theorem bytes_le_andThen : t.bytes ≤ (t.andThen t').bytes := by
  cases h : t.whole with
  | true => rw [bytes_andThen h]; omega
  | false => exact Nat.le_of_eq (by rw [andThen_partly h])

end Tally

namespace Tallied

variable {t t' : Tally} {calls : α → List (String × Bool)} {f : Nat → Except Stop (α × Nat)}

theorem pure {a : α} (none : calls a = []) : Tallied (.free true) calls fun used => .ok (a, used) :=
  fun _ fits => .done rfl fits none rfl

theorem fail {error : PlanError} (matched : error.unmatched = false) :
    Tallied (.free false) calls fun _ => Compile.fail error :=
  fun _ fits => .fault rfl fits matched

theorem seq {calls' : β → List (String × Bool)} {calls'' : γ → List (String × Bool)}
    {g : Nat → Except Stop (β × Nat)} (h : Tallied t calls f) (h' : Tallied t' calls' g)
    (both : α → β → γ) (called : ∀ a b, calls'' (both a b) = calls a ++ calls' b) :
    Tallied (t.andThen t') calls'' fun used => do
      let (a, used) ← f used
      let (b, used) ← g used
      return (both a b, used) := by
  intro used fits
  have first := h used fits
  dsimp only
  generalize f used = x at first ⊢
  cases first with
  | overflow exceeds =>
    have more : t.bytes ≤ (t.andThen t').bytes := Tally.bytes_le_andThen
    exact .overflow (by omega)
  | fault partly fits matched =>
    rw [Tally.andThen_partly partly]
    exact .fault partly fits matched
  | @done a between whole fits here exact =>
    rw [ok_bind]
    have sum : used + (t.andThen t').bytes = between + t'.bytes := by
      rw [Tally.bytes_andThen whole]; omega
    have second := h' between fits
    dsimp only
    generalize g between = y at second ⊢
    cases second with
    | overflow exceeds => exact .overflow (by omega)
    | fault partly fits matched =>
      refine .fault ?_ (by omega) matched
      rw [Tally.andThen_whole whole]
      exact partly
    | @done b total whole' fits' there exact' =>
      refine .done ?_ fits' ?_ (by omega)
      · rw [Tally.andThen_whole whole]
        exact whole'
      · rw [called, here, there, Tally.andThen_whole whole, List.map_append]

theorem map {calls' : β → List (String × Bool)} (h : Tallied t calls f) (g : α → β)
    (called : ∀ a, calls' (g a) = calls a) :
    Tallied t calls' fun used => do
      let (a, used) ← f used
      return (g a, used) := by
  intro used fits
  have first := h used fits
  dsimp only
  generalize f used = x at first ⊢
  cases first with
  | overflow exceeds => exact .overflow exceeds
  | fault partly fits matched => exact .fault partly fits matched
  | done whole fits here exact => exact .done whole fits ((called _).trans here) exact

theorem call {f : Nat → Except Stop (List Expr × Nat)} (h : Tallied t Expr.callsAll f) (name : String) :
    Tallied (.call (table name) t) Expr.calls fun used => do
      let symbol ← symbolOf table name
      let (args, used) ← f used
      let used ← charge used symbol
      return (Expr.call symbol.name symbol.isAggregate args, used) := by
  cases found : table name with
  | none =>
    have unknown : symbolOf table name = Compile.fail (.defect (.unknownSymbol name)) := by
      rw [symbolOf, found]
    simp only [unknown]
    exact fail rfl
  | some s =>
    simp only [symbolOf_eq_ok.2 found, ok_bind]
    have own : Tallied ⟨[s], true⟩ (fun _ : Unit => [s.signature]) fun used => do
        let used ← charge used s
        return ((), used) := by
      intro used fits
      have price : Tally.bytes ⟨[s], true⟩ = s.scratchpad := by simp [Tally.bytes]
      dsimp only [charge]
      split
      · rename_i fits
        exact .done rfl fits rfl (by rw [price])
      · rename_i exceeds
        exact .overflow (by rw [price]; omega)
    have called : ∀ args (_ : Unit), (Expr.call s.name s.isAggregate args).calls =
        Expr.callsAll args ++ [s.signature] := fun args _ => by
      rw [Expr.calls]
      rfl
    have whole := h.seq own _ called
    simp only [bind_assoc, pure_bind] at whole
    exact whole

end Tallied

theorem literal_matched {token : Option Token} {error : PlanError} (h : literal token = .error error) :
    error.unmatched = false := by
  unfold literal at h
  split at h
  · obtain rfl := Except.error.inj h
    rfl
  · split at h
    · cases h
    · split at h
      · cases h
      · obtain rfl := Except.error.inj h
        rfl
  · cases h
  · cases h
  · cases h
  · cases h
  · obtain rfl := Except.error.inj h
    rfl

theorem compileAll_tallied {ns : List Node}
    (each : ∀ n ∈ ns, Tallied (tally table n) Expr.calls (compileNode table n)) :
    Tallied (tallyAll table ns) Expr.callsAll (compileAll table ns) := by
  induction ns with
  | nil => exact .pure (by rw [Expr.callsAll])
  | cons n rest ih =>
    have others := ih fun m mem => each m (by simp [mem])
    rw [tallyAll]
    exact (each n (by simp)).seq others List.cons fun e es => by rw [Expr.callsAll]

theorem compileNode_tallied (table : SymbolTable) (n : Node) :
    Tallied (tally table n) Expr.calls (compileNode table n) := by
  -- the tally is by the same cases as the compiler
  refine Node.induct (motive := fun n => Tallied (tally table n) Expr.calls (compileNode table n)) ?_ n
  intro n ih
  obtain ⟨kind, token, children, id⟩ := n
  have below := compileAll_tallied ih
  have listed : ∀ items, (Expr.list items).calls = Expr.callsAll items := fun items => by rw [Expr.calls]
  have list := below.map Expr.list listed
  cases kind with
  | selectList => exact list
  | groupBy => exact list
  | derivedColumn =>
    cases children with
    | nil => exact .fail rfl
    | cons expr rest => exact ih expr (by simp)
  | resolvedColumn =>
    cases id with
    | none => exact .fail rfl
    | some position => exact .pure (by rw [Expr.calls])
  | literal =>
    intro used fits
    rw [tally, compileNode]
    cases read : literal token with
    | ok value => exact Tallied.pure (by rw [Expr.calls]) used fits
    | error error => exact Tallied.fail (literal_matched read) used fits
  | methodCall =>
    cases token with
    | none => exact .fail rfl
    | some token => exact below.call token.text
  | operator op => exact below.call op.symbol
  | _ => exact .fail rfl

theorem call_registered {name : String} {t : Tally}
    (each : ∀ s ∈ t.symbols, ∃ name, table name = some s) :
    ∀ s ∈ (Tally.call (table name) t).symbols, ∃ name, table name = some s := by
  cases found : table name with
  | none => simp [Tally.call, Tally.free]
  | some s =>
    intro s' mem
    rw [Tally.call] at mem
    cases whole : t.whole with
    | false =>
      rw [Tally.andThen_partly whole] at mem
      exact each s' mem
    | true =>
      rw [Tally.andThen_whole whole] at mem
      rcases List.mem_append.1 mem with old | new
      · exact each s' old
      · exact ⟨name, List.mem_singleton.1 new ▸ found⟩

theorem tallyAll_registered {ns : List Node}
    (each : ∀ n ∈ ns, ∀ s ∈ (tally table n).symbols, ∃ name, table name = some s) :
    ∀ s ∈ (tallyAll table ns).symbols, ∃ name, table name = some s := by
  induction ns with
  | nil => simp [tallyAll, Tally.free]
  | cons n rest ih =>
    intro s mem
    have others := ih fun m mem => each m (by simp [mem])
    rw [tallyAll] at mem
    cases whole : (tally table n).whole with
    | false =>
      rw [Tally.andThen_partly whole] at mem
      exact each n (by simp) s mem
    | true =>
      rw [Tally.andThen_whole whole] at mem
      exact (List.mem_append.1 mem).elim (each n (by simp) s) (others s)

theorem tally_registered (table : SymbolTable) (n : Node) :
    ∀ s ∈ (tally table n).symbols, ∃ name, table name = some s := by
  refine Node.induct (motive := fun n => ∀ s ∈ (tally table n).symbols, ∃ name, table name = some s) ?_ n
  intro n ih
  obtain ⟨kind, token, children, id⟩ := n
  have below := tallyAll_registered ih
  cases kind with
  | selectList => exact below
  | groupBy => exact below
  | derivedColumn =>
    cases children with
    | nil => exact nofun
    | cons expr rest => exact ih expr (by simp)
  | methodCall =>
    cases token with
    | none => exact nofun
    | some token => exact call_registered below
  | operator op => exact call_registered below
  | _ => exact nofun

end Compile

/-- The sizes of the symbols that compiling the tree charges for add up to more than a size. -/
def Exceeds (table : SymbolTable) (n : Node) : Prop :=
  Numeral.sizeLimit ≤ (Compile.tally table n).bytes

/-- The bytes are the sum of the sizes of the symbols called, each one as it is in the table. -/
def Counted (table : SymbolTable) (calls : List (String × Bool)) (bytes : Nat) : Prop :=
  ∃ symbols : List Symbol, symbols.map Symbol.signature = calls ∧
    (∀ s ∈ symbols, ∃ name, table name = some s) ∧ bytes = (symbols.map Symbol.scratchpad).sum

variable {table : SymbolTable} {n : Node}

theorem compile_outcome (table : SymbolTable) (n : Node) :
    Compile.Outcome (Compile.tally table n) Expr.calls 0
      (compile table n >>= fun c => .ok (c.expr, c.scratchpad)) := by
  have outcome := Compile.compileNode_tallied table n 0 (by decide)
  rw [compile]
  generalize Compile.compileNode table n 0 = x at outcome ⊢
  cases x with
  | error stop => exact outcome
  | ok answer => exact outcome

/-- Compiling overflows exactly if the sum without a limit is beyond the limit. -/
theorem compile_overflow_iff : compile table n = .error .overflow ↔ Exceeds table n := by
  have outcome := compile_outcome table n
  unfold Exceeds
  generalize compile table n = x at outcome ⊢
  cases x with
  | ok c =>
    cases outcome with
    | done _ fits _ exact =>
      refine ⟨nofun, fun exceeds => ?_⟩
      omega
  | error stop =>
    cases outcome with
    | fault _ fits =>
      refine ⟨nofun, fun exceeds => ?_⟩
      omega
    | overflow exceeds => exact ⟨fun _ => by omega, fun _ => rfl⟩

/-- The bytes of a compiled tree are the sum over the symbols that it calls. -/
theorem compile_counted {c : Compiled} (h : compile table n = .ok c) :
    Counted table c.expr.calls c.scratchpad := by
  have outcome := compile_outcome table n
  rw [h] at outcome
  cases outcome with
  | done _ _ called exact =>
    exact ⟨_, called.symm, Compile.tally_registered table n, by rw [exact, Nat.zero_add]; rfl⟩

end StatementPlan
