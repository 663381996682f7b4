/-
The statements that one planning offers to the leaf builders, in order, whether it succeeds or
stops and whichever builders decline.  A run first offers SELECTs to the builder of limits, each
planned through the next; only the last of them goes to the row sources, to the one and then,
declined by it, to the other.

`Consulted`: the shape of such a log.
`step_dispatched`, `planWithin_dispatched`: each step keeps it, so does a run.
`leaves_in_order`: what the log of a planning shows, and where no builder takes a SELECT.
-/
import StatementPlan.Proofs.Planning.Course

namespace StatementPlan

/-- Planning stops because no builder takes a SELECT, be it reported or fatal. -/
def NoSource (stop : Stop) : Prop :=
  stop = .failed (.defect (.noBuilder Kind.select.heading)) ∨
    stop = .panicked (.noBuilder Kind.select.heading)

theorem sourced_of_matched {error : PlanError} (matched : error.unmatched = false) :
    ¬NoSource (.failed error) := by
  rintro (same | same)
  · obtain rfl := Stop.failed.inj same
    cases matched
  · cases same

/-- A part of planning stops in its own ways. -/
theorem PartStop.sourced {table : SymbolTable} {handed : Node → Prop} {stop : Stop}
    (h : PartStop table handed stop) : ¬NoSource stop := by
  cases h with
  | failed matched => exact sourced_of_matched matched
  | overflow => rintro (same | same) <;> cases same

namespace Course

variable {below : Node → Run Plan} {before : List Note} {rest : Node} {after : Plan → Run Plan}

/-- What follows the plan of the statement below offers nothing. -/
theorem asking_offers (silent : ∀ input, (after input).offers = []) :
    ((asking before rest after).run below).offers =
      (⟨before, .ok ()⟩ : Run Unit).offers ++ (below rest).offers := by
  cases here : below rest with
  | mk inner result =>
    rw [run, here]
    cases result with
    | error stop => exact List.filterMap_append
    | ok input =>
      have last := silent input
      rw [Run.offers] at last
      show (before ++ (inner ++ (after input).notes)).filterMap _ = _
      rw [List.filterMap_append, List.filterMap_append, last, List.append_nil]
      rfl

end Course

namespace Planning

/-- A SELECT that goes to the row sources: there is nothing to group, and no limit that a builder
could have taken off. -/
structure Direct (env : Environment) (statement : Node) : Prop where
  kind : statement.kind = .select
  keys : hasGroupKeys statement = false
  list : selectsAggregate env.routing statement = .ok false
  limits : env.declines .limit = false → statement.hasChild .limit = false

/-- Statements in the order in which planning offers them to the leaf builders. -/
inductive Consulted (env : Environment) : List (Leaf × Node) → Prop
  | none : Consulted env []
  | limit {log : List (Leaf × Node)} (t : Node) (more : Consulted env log) :
      Consulted env ((.limit, t) :: log)
  | scan {t : Node} (direct : Direct env t) : Consulted env [(.limit, t), (.tableScan, t)]
  | constants {t : Node} (direct : Direct env t) :
      Consulted env [(.limit, t), (.tableScan, t), (.tablelessSelect, t)]

/-- The last offer is one that both row sources declined. -/
def Unserved (env : Environment) (log : List (Leaf × Node)) : Prop :=
  ∃ t, log.getLast? = some (.tablelessSelect, t) ∧ t.kind = .select ∧
    Declined env .tableScan t ∧ Declined env .tablelessSelect t

/-- The run offers statements in order, and if no builder takes a SELECT then the last one. -/
structure Dispatched (env : Environment) (x : Run Plan) : Prop where
  log : Consulted env x.offers
  unserved : ∀ stop, x.result = .error stop → NoSource stop → Unserved env x.offers

variable {env : Environment} {statement : Node} {below : Node → Run Plan} {x : Run Plan}

theorem direct_of_isGrouped (kind : statement.kind = .select)
    (direct : isGrouped env statement = .ok false) (passed : PassesLimit env statement) :
    Direct env statement := by
  have limits : env.declines .limit = false → statement.hasChild .limit = false := fun offered =>
    (RowSource.findChild?_eq_none_iff statement .limit).1 (passed.resolve_left (by simp [offered]))
  unfold isGrouped at direct
  split at direct
  · cases direct
  · rename_i keys
    split at direct
    · rename_i grouped list
      obtain rfl := Except.ok.inj direct
      exact ⟨kind, Bool.eq_false_iff.2 keys, list, limits⟩
    · cases direct

namespace Dispatched

theorem ended {notes : List Note} {result : Except Stop Plan}
    (log : Consulted env (⟨notes, result⟩ : Run Plan).offers)
    (other : StopsIn (fun stop => ¬NoSource stop) result) : Dispatched env ⟨notes, result⟩ :=
  ⟨log, fun stop stopped none => absurd none (other stop stopped)⟩

/-- A statement that is planned through another is offered before, if at all. -/
theorem asking {before : List Note} {rest : Node} {after : Plan → Run Plan}
    (inner : Dispatched env (below rest)) (first : (⟨before, .ok ()⟩ : Run Unit).offers = [] ∨
      (⟨before, .ok ()⟩ : Run Unit).offers = [(.limit, statement)])
    (last : ∀ input, (after input).offers = [] ∧ StopsIn (fun stop => ¬NoSource stop) (after input).result) :
    Dispatched env ((Course.asking before rest after).run below) := by
  have offers := @Course.asking_offers below before rest after fun input => (last input).1
  refine ⟨?_, fun stop stopped none => ?_⟩
  · rw [offers]
    rcases first with nothing | itself
    · rw [nothing]
      exact inner.log
    · rw [itself]
      exact .limit statement inner.log
  · rw [Course.asking_result, bind_eq_error_iff] at stopped
    have inside := stopped.resolve_right fun ⟨input, _, own⟩ => (last input).2 stop own none
    obtain ⟨t, final, declined⟩ := inner.unserved stop inside none
    refine ⟨t, ?_, declined⟩
    rw [offers]
    rcases first with nothing | itself
    · rw [nothing, List.nil_append, final]
    · rw [itself, List.singleton_append, List.getLast?_cons, final]
      rfl

end Dispatched

theorem RowsCourse.dispatched {c : Course} (direct : Direct env statement)
    (h : RowsCourse env statement c) :
    Dispatched env ((c.noted [.offered .limit statement]).run below) := by
  cases h with
  | scanStopped _ stopped =>
    exact .ended (.scan direct) (.error (scan_stops env statement _ stopped).sourced)
  | scanned => exact .ended (.scan direct) (.ok _)
  | constantsStopped _ _ stopped =>
    exact .ended (.constants direct) (.error (constants_stops env statement _ stopped).sourced)
  | constants => exact .ended (.constants direct) (.ok _)
  | unserved declined declined' =>
    exact ⟨.constants direct, fun _ _ _ => ⟨statement, rfl, direct.kind, declined, declined'⟩⟩

theorem SelectCourse.dispatched {c : Course} (kind : statement.kind = .select)
    (each : ∀ n, Dispatched env (below n)) (h : SelectCourse env statement c) :
    Dispatched env (c.run below) := by
  cases h with
  | @miscounted clause error _ _ miscounted =>
    have matched := countsOf_matched clause error miscounted
    exact .ended (.limit statement .none) (.error (sourced_of_matched matched))
  | @undecided error _ undecided =>
    exact .ended (.limit statement .none)
      (.error (sourced_of_matched (isGrouped_matched env statement error undecided)))
  | limited => exact .asking (each _) (.inr rfl) fun _ => ⟨rfl, .ok _⟩
  | direct passed decided course => exact course.dispatched (direct_of_isGrouped kind decided passed)
  | grouped _ _ course =>
    cases course with
    | refused matched => exact .ended (.limit statement .none) (.error (sourced_of_matched matched))
    | uncompiled _ stops => exact .ended (.limit statement .none) (.error stops.sourced)
    | asking => exact .asking (each _) (.inr rfl) fun _ => ⟨rfl, .ok _⟩

theorem Named.unoffered {name select list name' select' : Node} {notes : List Note}
    (h : Named env name select list notes name' select') : (⟨notes, .ok ()⟩ : Run Unit).offers = [] := by
  cases h <;> rfl

/-- A step offers statements in order if the plans below do. -/
theorem step_dispatched (each : ∀ n, Dispatched env (below n)) (statement : Node) :
    Dispatched env (step env below statement) := by
  obtain ⟨c, course, same⟩ := step_course env statement
  rw [same]
  cases course with
  | select kind course => exact course.dispatched kind each
  | draw kind course =>
    cases course with
    | refused matched => exact .ended .none (.error (sourced_of_matched matched))
    | made => exact .ended .none (.ok _)
  | unplanned noSelect =>
    refine .ended .none (.error ?_)
    rintro (here | here)
    · have same : statement.kind.heading = Kind.select.heading := by simpa using here
      exact noSelect (Kind.heading_injective same)
    · cases here
  | series kind course =>
    cases course with
    | refused matched => exact .ended .none (.error (sourced_of_matched matched))
    | @asking _ _ list name' _ _ _ found pushed =>
      refine @Dispatched.asking env statement below _ _ _ (each _)
        (.inl (seriesName_named found pushed).unoffered) fun input => ?_
      rcases seriesEnd_cases env list.children.length name' input with ⟨_, stops, ended⟩ | ⟨_, _, _, ended⟩
      · rw [ended]
        exact ⟨rfl, .error stops.sourced⟩
      · rw [ended]
        exact ⟨rfl, .ok _⟩

theorem planWithin_dispatched (env : Environment) (depth : Nat) (statement : Node) :
    Dispatched env (planWithin env depth statement) := by
  induction depth generalizing statement with
  | zero =>
    refine ⟨.none, fun stop stopped none => ?_⟩
    obtain rfl := Except.error.inj stopped
    rcases none with here | here <;> cases here
  | succ depth ih =>
    rw [planWithin]
    exact step_dispatched ih statement

namespace Consulted

variable {log : List (Leaf × Node)}

theorem scan_after (h : Consulted env log) {i : Nat} {t : Node}
    (here : log[i]? = some (.tableScan, t)) : ∃ j, i = j + 1 ∧ log[j]? = some (.limit, t) := by
  induction h generalizing i with
  | none => simp at here
  | limit t' more ih =>
    cases i with
    | zero => simp at here
    | succ i =>
      obtain ⟨j, rfl, before⟩ := ih here
      exact ⟨j + 1, rfl, before⟩
  | scan | constants =>
    rcases i with _ | _ | _ | i
    · simp at here
    · exact ⟨0, rfl, by simpa using here⟩
    · simp at here
    · simp at here

theorem constants_after (h : Consulted env log) {i : Nat} {t : Node}
    (here : log[i]? = some (.tablelessSelect, t)) : ∃ j, i = j + 1 ∧ log[j]? = some (.tableScan, t) := by
  induction h generalizing i with
  | none => simp at here
  | limit t' more ih =>
    cases i with
    | zero => simp at here
    | succ i =>
      obtain ⟨j, rfl, before⟩ := ih here
      exact ⟨j + 1, rfl, before⟩
  | scan => rcases i with _ | _ | i <;> simp at here
  | constants =>
    rcases i with _ | _ | _ | i
    · simp at here
    · simp at here
    · exact ⟨1, rfl, by simpa using here⟩
    · simp at here

theorem direct (h : Consulted env log) {leaf : Leaf} {t : Node} (mem : (leaf, t) ∈ log)
    (source : leaf ≠ .limit) : Direct env t := by
  induction h with
  | none => simp at mem
  | limit t' more ih =>
    rcases List.mem_cons.1 mem with here | mem
    · exact absurd (congrArg Prod.fst here) source
    · exact ih mem
  | @scan t' direct | @constants t' direct =>
    have same : t = t' := by
      simp only [List.mem_cons, Prod.mk.injEq, List.not_mem_nil, or_false] at mem
      tauto
    exact same ▸ direct

end Consulted

/-- A run that goes to the leaf builders in order. -/
structure InOrder (env : Environment) (x : Run Plan) : Prop where
  /-- Immediately before a statement goes to the scan of tables, it goes to the builder of limits. -/
  scan : ∀ i t, x.offers[i]? = some (.tableScan, t) →
    ∃ j, i = j + 1 ∧ x.offers[j]? = some (.limit, t)
  /-- Immediately before it goes to the SELECT of constants, it goes to the scan of tables. -/
  constants : ∀ i t, x.offers[i]? = some (.tablelessSelect, t) →
    ∃ j, i = j + 1 ∧ x.offers[j]? = some (.tableScan, t)
  /-- Neither is given a statement that groups or aggregates. -/
  ungrouped : ∀ leaf t, (leaf, t) ∈ x.offers → leaf ≠ .limit →
    hasGroupKeys t = false ∧ selectsAggregate env.routing t = .ok false
  unlimited : env.declines .limit = false → ∀ leaf t, (leaf, t) ∈ x.offers → leaf ≠ .limit →
    t.hasChild .limit = false
  /-- No builder takes a SELECT only if both of these declined the last one. -/
  unserved : ∀ stop, x.result = .error stop → NoSource stop → Unserved env x.offers
  /-- That takes a builder which is told to decline. -/
  served : env.Complete → ∀ stop, x.result = .error stop → ¬NoSource stop

/-- A SELECT belongs to the one or the other row source, by its FROM. -/
theorem not_unserved (complete : env.Complete) {log : List (Leaf × Node)} : ¬Unserved env log := by
  rintro ⟨t, _, kind, scan, constants⟩
  have scan : RowSource.scan env t = .ok none := scan.resolve_left (by simp [complete .tableScan])
  have constants : RowSource.constants env t = .ok none :=
    constants.resolve_left (by simp [complete .tablelessSelect])
  have none := (RowSource.findChild?_eq_none_iff t .from).1 (scan_declined kind scan)
  rw [constants_declined kind constants] at none
  cases none

theorem Dispatched.inOrder (h : Dispatched env x) : InOrder env x where
  scan _ _ := h.log.scan_after
  constants _ _ := h.log.constants_after
  ungrouped _ _ mem source := ⟨(h.log.direct mem source).keys, (h.log.direct mem source).list⟩
  unlimited offered _ _ mem source := (h.log.direct mem source).limits offered
  unserved := h.unserved
  served complete stop stopped none := not_unserved complete (h.unserved stop stopped none)

theorem buildPlan_offers (env : Environment) (statement : Node) :
    (buildPlan env statement).offers = (plan env statement).offers := by
  unfold buildPlan
  dsimp only
  split
  · simp [Run.offers]
  · rfl

theorem noSource_of_ruled {policy : DefectPolicy} {x : Except Stop α} {stop : Stop}
    (h : policy.ruled x = .error stop) (none : NoSource stop) :
    ∃ stop', x = .error stop' ∧ NoSource stop' := by
  cases x with
  | ok a => cases h
  | error stop' =>
    refine ⟨stop', rfl, ?_⟩
    cases stop' with
    | failed error =>
      cases error with
      | defect d =>
        obtain rfl := Except.error.inj h
        rcases none with here | here
        · cases policy with
          | report => exact .inl here
          | panic => cases here
        · cases policy with
          | report => cases here
          | panic => exact .inl (by rw [Stop.panicked.inj here])
      | _ => exact Except.error.inj h ▸ none
    | _ => exact Except.error.inj h ▸ none

theorem buildPlan_dispatched (h : Dispatched env (plan env statement)) :
    Dispatched env (buildPlan env statement) := by
  refine ⟨?_, fun stop stopped none => ?_⟩
  · rw [buildPlan_offers]
    exact h.log
  · rw [buildPlan_result] at stopped
    obtain ⟨stop', stopped, none⟩ := noSource_of_ruled stopped none
    rw [buildPlan_offers]
    exact h.unserved stop' stopped none

/-- Planning goes to the leaf builders in order, whichever of them decline. -/
theorem leaves_in_order (env : Environment) (statement : Node) :
    InOrder env (plan env statement) ∧ InOrder env (buildPlan env statement) := by
  have planned : Dispatched env (plan env statement) := planWithin_dispatched env _ statement
  exact ⟨planned.inOrder, (buildPlan_dispatched planned).inOrder⟩

/-- A grouping over a table that the scan declines goes to every builder, and no builder takes the
SELECT of its columns. -/
example : (plan { salesEnvironment with declines := (· == .tableScan) } salesByCity).offers.map
    Prod.fst = [.limit, .limit, .limit, .tableScan, .tablelessSelect] := by
  decide +kernel

end Planning

end StatementPlan
