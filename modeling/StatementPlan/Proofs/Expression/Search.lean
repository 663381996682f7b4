/-
Where the search for an aggregate call ends.  It scans the calls of a tree in reading order, and the
first one that is nameless, unknown or an aggregate decides, however deep any of them are.  So an
aggregate is found if one of them comes before all calls that are at fault, and a call at fault is
reported if it comes before all aggregates.

`callListing_ordered`, `mem_callListing`: the calls of a tree by their paths, in lexicographic
order.
`exists_first_verdict`: the call that decides.
`first_call_decides`: what the search ends in.
-/
import StatementPlan.Symbol.Registry
import StatementPlan.Proofs.Aggregation
import StatementPlan.Proofs.Tree.Outline

namespace StatementPlan

namespace Node

/-- The path leads to a call. -/
structure CallAt (n : Node) (path : List Nat) (call : Node) : Prop where
  found : n.at? path = some call
  kind : call.kind = .methodCall

/-- The calls of a tree with the paths to them, in reading order. -/
def callListing (n : Node) : List (List Nat × Node) := n.listing.filter (·.2.kind == .methodCall)

variable {n call : Node} {path : List Nat}

theorem mem_callListing : (path, call) ∈ n.callListing ↔ n.CallAt path call := by
  rw [callListing, List.mem_filter, mem_listing, beq_iff_eq]
  exact ⟨fun h => ⟨h.1, h.2⟩, fun h => ⟨h.found, h.kind⟩⟩

theorem callListing_ordered (n : Node) : n.callListing.Pairwise fun a b => a.1 < b.1 :=
  n.listing_ordered.filter _

theorem calls_callListing (n : Node) : n.callListing.map (·.2) = callsAmong n.subtrees := by
  rw [← n.levelled_nodes 0, levelled, callsAmong, List.filter_map]
  rfl

end Node

variable {table : SymbolTable} {n call : Node} {path : List Nat}

/-- The search ends at a call that comes before all others that tell something. -/
theorem exists_first_verdict {told : Except Defect Bool} (h : callsAggregate table n = told)
    (decided : told ≠ .ok false) : ∃ path call, n.CallAt path call ∧ verdict? table call = some told ∧
      ∀ other c, n.CallAt other c → verdict? table c ≠ none → other ≠ path → path < other := by
  have ordered := n.callListing_ordered
  rw [callsAggregate_eq_told decided, ← n.calls_callListing, List.findSome?_map] at h
  obtain ⟨before, ⟨path, call⟩, after, split, here, silent⟩ := List.findSome?_eq_some_iff.1 h
  have listed : ∀ {other c}, n.CallAt other c ↔ (other, c) ∈ before ++ (path, call) :: after := by
    rw [← split]
    exact Node.mem_callListing.symm
  refine ⟨path, call, listed.2 (by simp), here, fun other c found tells different => ?_⟩
  rcases List.mem_append.1 (listed.1 found) with earlier | later
  · exact absurd (silent _ earlier) tells
  · rcases List.mem_cons.1 later with same | later
    · exact absurd (congrArg Prod.fst same) different
    · rw [split] at ordered
      exact List.rel_of_pairwise_cons (List.pairwise_append.1 ordered).2.1 later

theorem callsAggregate_eq_no_verdict :
    callsAggregate table n = .ok false ↔ ∀ path call, n.CallAt path call → verdict? table call = none := by
  rw [callsAggregate_eq_false, ← n.calls_callListing]
  constructor
  · exact fun silent path call here => silent call (List.mem_map.2 ⟨_, Node.mem_callListing.2 here, rfl⟩)
  · intro silent call mem
    obtain ⟨⟨path, call⟩, listed, rfl⟩ := List.mem_map.1 mem
    exact silent path call (Node.mem_callListing.1 listed)

/-- An aggregate before all calls at fault is found, or another one before it. -/
theorem found_before_faults (here : n.CallAt path call) (aggregate : namesAggregate table call = true)
    (first : ∀ other c, n.CallAt other c → Faulty table c → path < other) :
    callsAggregate table n = .ok true := by
  obtain ⟨_, told⟩ := namesAggregate_iff.1 aggregate
  cases ended : callsAggregate table n with
  | error d =>
    obtain ⟨other, c, found, fault, before⟩ := exists_first_verdict ended (by simp)
    have later := first other c found (faulty_iff.2 ⟨d, fault⟩)
    -- the aggregate is not where the fault is, so it comes after it
    have different : path ≠ other := fun same => by
      rw [same] at later
      exact List.lt_irrefl other later
    have earlier := before path call here (by simp [told]) different
    exact absurd earlier (List.lt_asymm later)
  | ok found =>
    cases found with
    | true => rfl
    | false =>
      rw [callsAggregate_eq_no_verdict.1 ended path call here] at told
      cases told

/-- The search scans the calls of a tree in reading order until one tells something: a nameless one
or one of an unknown function that it is at fault, one of an aggregate that it is there.  So an
aggregate is found exactly if one comes before all calls at fault, none is found if no call tells
anything, and the call whose fault is reported comes before all others that are at fault or of an
aggregate. -/
theorem first_call_decides (table : SymbolTable) (n : Node) :
    callsAggregate table n = ((callsAmong n.subtrees).findSome? (verdict? table)).getD (.ok false) ∧
    (callsAggregate table n = .ok true ↔ ∃ path call, n.CallAt path call ∧ namesAggregate table call = true ∧
      ∀ other c, n.CallAt other c → Faulty table c → path < other) ∧
    (callsAggregate table n = .ok false ↔ ∀ path call, n.CallAt path call → verdict? table call = none) ∧
    ∀ d, callsAggregate table n = .error d → ∃ path call, n.CallAt path call ∧
      verdict? table call = some (.error d) ∧
      ∀ other c, n.CallAt other c → verdict? table c ≠ none → other ≠ path → path < other := by
  refine ⟨callsAggregate_eq_scan n, ⟨fun found => ?_, ?_⟩, callsAggregate_eq_no_verdict,
    fun d stopped => exists_first_verdict stopped (by simp)⟩
  · obtain ⟨path, call, here, told, first⟩ := exists_first_verdict found (by simp)
    refine ⟨path, call, here, namesAggregate_iff.2 ⟨here.kind, told⟩, fun other c there fault => ?_⟩
    obtain ⟨d, reported⟩ := faulty_iff.1 fault
    refine first other c there (by simp [reported]) ?_
    rintro rfl
    -- at one path there is one call
    obtain rfl := Option.some.inj (here.found.symm.trans there.found)
    rw [told] at reported
    cases reported
  · rintro ⟨path, call, here, aggregate, first⟩
    exact found_before_faults here aggregate first

/-- An unknown function counts above an aggregate, not below it. -/
example :
    callsAggregate Registry.builtins.lookup (.call "nope" [.call "sum" []]) = .error (.unknownSymbol "nope") ∧
      callsAggregate Registry.builtins.lookup (.call "round" [.call "sum" [.call "nope" []]]) = .ok true := by
  decide +kernel

end StatementPlan
