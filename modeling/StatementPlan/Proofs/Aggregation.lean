/-
The search for aggregate calls.  It is a scan of the calls of a tree in reading order, which the
first one decides that tells something; most of what is known of the search is known of each call by
itself.  Through lists that columns were pushed into: where no column name has an aggregate beneath,
the pushed columns can end the search only by an error, so whether a SELECT is grouped is up to the
items it had before.

`callsAggregate_eq_scan`: the search as a scan.
`exists_verdict`, `callsAggregate_eq_false`: what it ends in is what a call tells, or no call tells
anything.
`callsAggregate_ne_true`: without the name of an aggregate no aggregate is called.
`anyCallsAggregate_derived`: pushed columns are searched as a check of one after the other.
-/
import StatementPlan.Aggregation
import StatementPlan.Proofs.Columns.Slots

namespace StatementPlan

/-- The node calls an aggregate by name. -/
def namesAggregate (table : SymbolTable) (n : Node) : Bool :=
  n.kind == .methodCall && (n.text?.bind table).any Symbol.isAggregate

/-- No column name of the tree has an aggregate call beneath. -/
def Node.PlainNames (table : SymbolTable) (n : Node) : Prop :=
  ∀ c ∈ n.subtrees, c.kind = .columnName → c.contains (namesAggregate table) = false

instance (table : SymbolTable) (n : Node) : Decidable (n.PlainNames table) :=
  inferInstanceAs (Decidable (∀ c ∈ n.subtrees, _))

/-- A column name that does not make a SELECT grouped. -/
structure QuietColumn (table : SymbolTable) (r : Node) : Prop where
  kind : r.kind = .columnName
  quiet : callsAggregate table r ≠ .ok true

/-- The calls among nodes, in the order that these are in. -/
def callsAmong (parts : List Node) : List Node := parts.filter (·.kind == .methodCall)

/-- How the search ends at a call, if it does: a call without a name or of an unknown function is a
defect, and a call of an aggregate was looked for.  Any other call tells nothing. -/
def verdict? (table : SymbolTable) (call : Node) : Option (Except Defect Bool) :=
  match call.text? with
  | none => some (.error (.malformed .callWithoutName))
  | some name =>
    match table name with
    | none => some (.error (.unknownSymbol name))
    | some symbol => if symbol.isAggregate then some (.ok true) else none

/-- The first call that tells something decides; without one no aggregate is called. -/
def scanCalls (table : SymbolTable) (calls : List Node) : Except Defect Bool :=
  (calls.findSome? (verdict? table)).getD (.ok false)

/-- The call has no name, or that of an unknown function. -/
def Faulty (table : SymbolTable) (call : Node) : Prop := call.text?.bind table = none

variable {table table' : SymbolTable}

theorem mem_callsAmong {parts : List Node} {c : Node} :
    c ∈ callsAmong parts ↔ c ∈ parts ∧ c.kind = .methodCall := by
  rw [callsAmong, List.mem_filter, beq_iff_eq]

theorem callsAmong_append (parts more : List Node) :
    callsAmong (parts ++ more) = callsAmong parts ++ callsAmong more :=
  List.filter_append ..

theorem verdict?_ne_false (call : Node) : verdict? table call ≠ some (.ok false) := by
  unfold verdict?
  split
  · simp
  · split
    · simp
    · split <;> simp

theorem namesAggregate_iff {call : Node} : namesAggregate table call = true ↔
    call.kind = .methodCall ∧ verdict? table call = some (.ok true) := by
  unfold verdict?
  cases named : call.text? with
  | none => simp [namesAggregate, named]
  | some name => cases found : table name <;> simp [namesAggregate, named, found]

theorem verdict?_eq_error {call : Node} {d : Defect} : verdict? table call = some (.error d) ↔
    (call.text? = none ∧ d = .malformed .callWithoutName) ∨
      ∃ name, call.text? = some name ∧ table name = none ∧ d = .unknownSymbol name := by
  unfold verdict?
  cases call.text? with
  | none => simp [eq_comm]
  | some name =>
    cases found : table name with
    | none => simp [found, eq_comm]
    | some symbol => simp [found]

theorem faulty_iff {call : Node} : Faulty table call ↔ ∃ d, verdict? table call = some (.error d) := by
  simp only [Faulty, Option.bind_eq_none_iff, verdict?_eq_error]
  cases call.text? <;> simp

theorem scanCalls_cons (call : Node) (rest : List Node) :
    scanCalls table (call :: rest) = (verdict? table call).getD (scanCalls table rest) := by
  rw [scanCalls, List.findSome?_cons]
  cases verdict? table call <;> rfl

/-- Other calls that tell the same, up to how defects are named, are scanned alike. -/
theorem scanCalls_map {f : Node → Node} {g : Defect → Defect} {calls : List Node}
    (each : ∀ c ∈ calls, verdict? table' (f c) = (verdict? table c).map (·.mapError g)) :
    scanCalls table' (calls.map f) = (scanCalls table calls).mapError g := by
  induction calls with
  | nil => rfl
  | cons c rest ih =>
    have others := ih fun d mem => each d (by simp [mem])
    rw [List.map_cons, scanCalls_cons, scanCalls_cons, each c (by simp), others]
    cases verdict? table c <;> rfl

theorem scanCalls_append_of_false {before after : List Node} (h : scanCalls table before = .ok false) :
    scanCalls table (before ++ after) = scanCalls table after := by
  rw [scanCalls, List.findSome?_append]
  cases found : before.findSome? (verdict? table) with
  | none => rfl
  | some told =>
    rw [scanCalls, found] at h
    obtain rfl : told = .ok false := h
    obtain ⟨call, _, here⟩ := List.exists_of_findSome?_eq_some found
    exact absurd here (verdict?_ne_false call)

theorem scanCalls_append_of_ne {before after : List Node} (h : scanCalls table before ≠ .ok false) :
    scanCalls table (before ++ after) = scanCalls table before := by
  rw [scanCalls, scanCalls, List.findSome?_append]
  cases found : before.findSome? (verdict? table) with
  | none => exact absurd (by rw [scanCalls, found]; rfl) h
  | some told => rfl

mutual

/-- The search for an aggregate call scans the calls of the tree. -/
theorem callsAggregate_eq_scan :
    ∀ n : Node, callsAggregate table n = scanCalls table (callsAmong n.subtrees)
  | ⟨kind, token, children, id⟩ => by
    have below := anyCallsAggregate_eq_scan children
    rw [Node.subtrees]
    by_cases call : kind = .methodCall
    · subst call
      have first : callsAmong (⟨.methodCall, token, children, id⟩ :: Node.subtreesAll children) =
          ⟨.methodCall, token, children, id⟩ :: callsAmong (Node.subtreesAll children) := rfl
      rw [first, scanCalls_cons, ← below, verdict?, Node.text?]
      cases token with
      | none => rfl
      | some token =>
        simp only [callsAggregate, if_true, Option.map_some]
        cases table token.text with
        | none => rfl
        | some symbol => cases aggregate : symbol.isAggregate <;> simp [aggregate]
    · have others : callsAmong (⟨kind, token, children, id⟩ :: Node.subtreesAll children) =
          callsAmong (Node.subtreesAll children) :=
        List.filter_cons_of_neg (by simpa using call)
      rw [others, ← below]
      simp only [callsAggregate, if_neg call]

theorem anyCallsAggregate_eq_scan : ∀ ns : List Node,
    anyCallsAggregate table ns = scanCalls table (callsAmong (Node.subtreesAll ns))
  | [] => rfl
  | c :: rest => by
    have first := callsAggregate_eq_scan c
    have others := anyCallsAggregate_eq_scan rest
    rw [anyCallsAggregate, Node.subtreesAll, callsAmong_append]
    split
    · rename_i nothing
      rw [scanCalls_append_of_false (first.symm.trans nothing), others]
    · rename_i decided
      rw [scanCalls_append_of_ne fun nothing => decided (first.trans nothing), first]

end

theorem callsAggregate_eq_told {n : Node} {told : Except Defect Bool} (decided : told ≠ .ok false) :
    callsAggregate table n = told ↔ (callsAmong n.subtrees).findSome? (verdict? table) = some told := by
  rw [callsAggregate_eq_scan, scanCalls]
  cases (callsAmong n.subtrees).findSome? (verdict? table) with
  | none => simp [decided.symm]
  | some other => simp

theorem callsAggregate_eq_false {n : Node} :
    callsAggregate table n = .ok false ↔ ∀ call ∈ callsAmong n.subtrees, verdict? table call = none := by
  rw [callsAggregate_eq_scan, scanCalls, ← List.findSome?_eq_none_iff]
  cases found : (callsAmong n.subtrees).findSome? (verdict? table) with
  | none => simp
  | some told =>
    obtain ⟨call, _, here⟩ := List.exists_of_findSome?_eq_some found
    have decided : told ≠ .ok false := fun nothing => verdict?_ne_false call (nothing ▸ here)
    simpa using decided

theorem exists_verdict {n : Node} {told : Except Defect Bool} (h : callsAggregate table n = told)
    (decided : told ≠ .ok false) :
    ∃ call ∈ n.subtrees, call.kind = .methodCall ∧ verdict? table call = some told := by
  obtain ⟨call, mem, here⟩ := List.exists_of_findSome?_eq_some ((callsAggregate_eq_told decided).1 h)
  obtain ⟨part, kind⟩ := mem_callsAmong.1 mem
  exact ⟨call, part, kind, here⟩

theorem callsAggregate_ne_true {n : Node} (unnamed : n.contains (namesAggregate table) = false) :
    callsAggregate table n ≠ .ok true := by
  intro found
  obtain ⟨call, part, kind, told⟩ := exists_verdict found (by simp)
  have named := (Node.contains_iff _ n).2 ⟨call, part, namesAggregate_iff.2 ⟨kind, told⟩⟩
  rw [unnamed] at named
  cases named

theorem Node.PlainNames.child {n c : Node} (h : n.PlainNames table) (mem : c ∈ n.children) :
    c.PlainNames table :=
  fun m part => h m (subtrees_child mem part)

theorem Node.PlainNames.of_children {n : Node} (other : n.kind ≠ .columnName)
    (each : ∀ c ∈ n.children, c.PlainNames table) : n.PlainNames table := by
  intro m part column
  cases n
  simp only [subtrees, List.mem_cons, mem_subtreesAll] at part
  rcases part with rfl | ⟨c, child, part⟩
  · exact absurd column other
  · exact each c child m part column

/-- The references of a tree do not make a SELECT grouped. -/
theorem Node.PlainNames.references {n : Node} (h : n.PlainNames table) :
    ∀ r ∈ n.references, QuietColumn table r := by
  intro r mem
  obtain ⟨kind, part⟩ := Node.mem_references r mem
  exact ⟨kind, callsAggregate_ne_true (h r part kind)⟩

theorem anyCallsAggregate_append (ms ns : List Node) :
    anyCallsAggregate table (ms ++ ns) =
      match anyCallsAggregate table ms with
      | .ok false => anyCallsAggregate table ns
      | decided => decided := by
  induction ms with
  | nil => rfl
  | cons m rest ih =>
    simp only [List.cons_append, anyCallsAggregate, ih]
    cases callsAggregate table m with
    | error d => rfl
    | ok found => cases found <;> rfl

/-- The search as a check. -/
def searched (table : SymbolTable) (n : Node) : Except Defect Unit :=
  (fun _ => ()) <$> callsAggregate table n

theorem callsAggregate_derived (r : Node) :
    callsAggregate table (.derived r) = callsAggregate table r := by
  simp only [Node.derived, Node.ofChildren, callsAggregate, anyCallsAggregate, reduceCtorEq, if_false]
  cases callsAggregate table r with
  | error d => rfl
  | ok found => cases found <;> rfl

/-- Pushed columns are searched one after the other, to no effect unless one is at fault. -/
theorem anyCallsAggregate_derived {rs : List Node} (quiet : ∀ r ∈ rs, QuietColumn table r) :
    anyCallsAggregate table (rs.map .derived) = (fun _ => false) <$> forM rs (searched table) := by
  induction rs with
  | nil => rfl
  | cons r rest ih =>
    have others := ih fun s mem => quiet s (by simp [mem])
    have here := (quiet r (by simp)).quiet
    rw [List.map_cons, anyCallsAggregate, callsAggregate_derived, others, List.forM_cons, searched]
    cases found : callsAggregate table r with
    | error d => rfl
    | ok aggregate =>
      cases aggregate with
      | true => exact absurd found here
      | false => rfl

theorem anyCallsAggregate_eq_false {ns : List Node}
    (h : anyCallsAggregate table ns = .ok false) : ∀ n ∈ ns, callsAggregate table n = .ok false := by
  induction ns with
  | nil => simp
  | cons n rest ih =>
    rw [anyCallsAggregate] at h
    split at h
    · rename_i here
      exact List.forall_mem_cons.2 ⟨here, ih h⟩
    · rename_i other
      exact absurd h other

/-- Items without an aggregate consist of columns that pass the search. -/
theorem searched_plainColumns {items : List Node} (h : anyCallsAggregate table items = .ok false) :
    ∀ r ∈ Node.plainColumns items, searched table r = .ok () := by
  intro r mem
  obtain ⟨item, here, plain⟩ := Node.mem_plainColumns.1 mem
  obtain ⟨derived, _, head⟩ := Node.plainColumn?_eq_some plain
  have found := anyCallsAggregate_eq_false h item here
  cases item with
  | mk kind token children id =>
    simp only at derived head
    subst derived
    simp only [callsAggregate, reduceCtorEq, if_false] at found
    rw [searched, anyCallsAggregate_eq_false found r (List.mem_of_mem_head? head)]
    rfl

end StatementPlan
