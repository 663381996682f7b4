/-
How planning ends, without the notes it takes.  With no builder told to decline, a SELECT without
limits is grouped or makes rows, and limits go around it one by one, the first outermost.

`plan_select`: the end of planning a SELECT, without recursion.
`limited_ok`: what holds of a plan and of every limit around a plan of which it holds.
`buildPlan_result`: the entry point only deals with defects.
-/
import StatementPlan.Planning.Entry
import StatementPlan.Proofs.Outcome

namespace StatementPlan

/-- No leaf builder is told to decline. -/
def Environment.Complete (env : Environment) : Prop := ∀ leaf, env.declines leaf = false

namespace Run

@[simp] theorem bind_result (x : Run α) (f : α → Run β) :
    (x >>= f).result = x.result >>= fun a => (f a).result := by
  cases h : x.result with
  | ok a => simp [result_bind x f h]
  | error stop => simp [bind_stop x f h]

@[simp] theorem pure_result (a : α) : (pure a : Run α).result = .ok a := rfl

@[simp] theorem note_result (n : Note) : (note n).result = .ok () := rfl

@[simp] theorem fail_result (error : PlanError) : (fail error : Run α).result = Compile.fail error :=
  rfl

@[simp] theorem ofResult_result (result : Except Stop α) : (ofResult result).result = result := rfl

@[simp] theorem ofExcept_result (x : Except PlanError α) :
    (ofExcept x).result = RowSource.orFail x := by
  cases x <;> rfl

end Run

namespace Node

/-- The limits of a SELECT. -/
def limits (statement : Node) : List Node := statement.children.filter (·.kind == .limit)

/-- A SELECT without its limits. -/
def withoutLimits (statement : Node) : Node :=
  { statement with children := statement.children.filter (·.kind != .limit) }

theorem withoutLimits_self {statement : Node} (free : statement.hasChild .limit = false) :
    statement.withoutLimits = statement := by
  have others : ∀ c ∈ statement.children, c.kind ≠ .limit := by simpa [hasChild] using free
  cases statement
  simp only [withoutLimits, mk.injEq, true_and, and_true]
  exact List.filter_eq_self.2 fun c mem => by simpa using others c mem

end Node

namespace Planning

/-- The rows of a SELECT that is neither limited nor grouped. -/
def rows (env : Environment) (statement : Node) : Except Stop Plan := do
  match ← RowSource.scan env statement with
  | some p => return p
  | none =>
    match ← RowSource.constants env statement with
    | some p => return p
    | none => Compile.fail (.defect (.noBuilder Kind.select.heading))

/-- A SELECT without limits, over the ends of planning the statements below. -/
def unlimited (env : Environment) (below : Node → Run Plan) (statement : Node) :
    Except Stop Plan := do
  if ← RowSource.orFail (isGrouped env statement) then (group env below statement).result
  else rows env statement

/-- Limits around the end of planning, the first outermost. -/
def limited (clauses : List Node) (x : Except Stop Plan) : Except Stop Plan :=
  clauses.foldr (fun clause x => do
    let (count, offset) ← RowSource.orFail (countsOf clause)
    let input ← x
    return .limit count offset input) x

variable {env : Environment}

theorem offer_result {leaf : Leaf} (served : env.declines leaf = false) (below : Node → Run Plan)
    (statement : Node) :
    (offer env below leaf statement).result = (build env below leaf statement).result := by
  simp only [offer, served, Run.bind_result, Run.note_result, ok_bind, Bool.false_eq_true,
    if_false]
  cases (build env below leaf statement).result with
  | error stop => rfl
  | ok answer =>
    cases answer with
    | none => rfl
    | some p => rfl

theorem planWithin_select (depth : Nat) {statement : Node} (kind : statement.kind = .select) :
    planWithin env (depth + 1) statement = select env (planWithin env depth) statement := by
  rw [planWithin, step, kind]

theorem select_unlimited (complete : env.Complete) (below : Node → Run Plan) {statement : Node}
    (kind : statement.kind = .select) (none : statement.hasChild .limit = false) :
    (select env below statement).result = unlimited env below statement := by
  have declines : (limit below statement).result = .ok Option.none := by
    simp [limit, kind, (RowSource.findChild?_eq_none_iff statement .limit).2 none]
  simp only [select, Run.bind_result, offer_result (complete _), build, declines, ok_bind, unlimited,
    Run.ofExcept_result]
  cases RowSource.orFail (isGrouped env statement) with
  | error stop => rfl
  | ok grouped =>
    cases grouped with
    | true => simp
    | false =>
      simp only [ok_bind, Bool.false_eq_true, if_false, Run.bind_result, offer_result (complete _), build,
        Run.ofResult_result, rows]
      cases RowSource.scan env statement with
      | error stop => rfl
      | ok answer =>
        cases answer with
        | some p => rfl
        | none =>
          simp only [ok_bind, Run.bind_result, offer_result (complete _), build, Run.ofResult_result]
          cases RowSource.constants env statement with
          | error stop => rfl
          | ok answer => cases answer <;> rfl

theorem select_limit (served : env.declines .limit = false) (below : Node → Run Plan)
    {statement clause : Node}
    (kind : statement.kind = .select) (found : statement.findChild? .limit = some clause) :
    (select env below statement).result = (do
      let (count, offset) ← RowSource.orFail (countsOf clause)
      let input ← (below { statement with
        children := statement.children.eraseP (·.kind == .limit) }).result
      return .limit count offset input) := by
  simp only [select, Run.bind_result, offer_result served, build, limit, kind, found, if_true,
    Run.ofExcept_result]
  cases RowSource.orFail (countsOf clause) with
  | error stop => rfl
  | ok counts =>
    rw [ok_bind]
    cases (below _).result <;> rfl

theorem filter_of_find? {p : α → Bool} {as : List α} {a : α} (h : as.find? p = some a) :
    as.filter p = a :: (as.eraseP p).filter p ∧
      (as.eraseP p).filter (fun x => !p x) = as.filter fun x => !p x := by
  induction as with
  | nil => simp at h
  | cons b rest ih =>
    by_cases here : p b = true
    · simp_all
    · simp_all

/-- Limits are planned from the first to the last, then the SELECT without them. -/
theorem planWithin_limited (complete : env.Complete) (depth : Nat) {statement : Node}
    (kind : statement.kind = .select) :
    (planWithin env (statement.children.countP (·.kind == .limit) + (depth + 1)) statement).result =
      limited statement.limits (unlimited env (planWithin env depth) statement.withoutLimits) := by
  -- on the number of limits: each step of planning takes the first one off
  generalize count : statement.children.countP (·.kind == .limit) = n
  induction n generalizing statement with
  | zero =>
    have none : ∀ c ∈ statement.children, ¬(c.kind == .limit) = true := List.countP_eq_zero.1 count
    have empty : statement.limits = [] := List.filter_eq_nil_iff.2 none
    have free : statement.hasChild .limit = false := by simpa [Node.hasChild] using none
    rw [Node.withoutLimits_self free, empty, Nat.zero_add, planWithin_select depth kind]
    exact select_unlimited complete _ kind free
  | succ n ih =>
    obtain ⟨clause, found⟩ : ∃ clause, statement.findChild? .limit = some clause := by
      rw [← Option.isSome_iff_exists, Node.findChild?, List.find?_isSome]
      exact List.countP_pos_iff.1 (by omega)
    obtain ⟨first, others⟩ := filter_of_find? found
    have fewer : (statement.children.eraseP (·.kind == .limit)).countP (·.kind == .limit) = n := by
      rw [List.countP_eq_length_filter, first] at count
      rw [List.countP_eq_length_filter]
      simpa using count
    have rest := @ih { statement with children := statement.children.eraseP (·.kind == .limit) }
      kind fewer
    have shape : statement.limits = clause ::
        Node.limits { statement with children := statement.children.eraseP (·.kind == .limit) } :=
      first
    have below : Node.withoutLimits
        { statement with children := statement.children.eraseP (·.kind == .limit) } =
          statement.withoutLimits := by
      simp only [Node.withoutLimits]
      congr 1
    rw [shape, ← below, limited, List.foldr_cons, ← limited, ← rest, Nat.succ_add,
      planWithin_select _ kind]
    exact select_limit (complete _) _ kind found

theorem nestingBound_select {statement : Node} (kind : statement.kind = .select) :
    nestingBound statement = statement.children.countP (·.kind == .limit) + 2 := by
  cases statement
  simp only at kind
  subst kind
  rfl

theorem plan_select (complete : env.Complete) {statement : Node} (kind : statement.kind = .select) :
    (plan env statement).result =
      limited statement.limits (unlimited env (planWithin env 1) statement.withoutLimits) := by
  rw [← planWithin_limited complete 1 kind, plan, nestingBound_select kind]

/-- Planning is one step over the plans of the statements below. -/
theorem plan_step (env : Environment) (statement : Node) :
    ∃ depth, plan env statement = step env (planWithin env depth) statement := by
  have positive : ∃ depth, nestingBound statement = depth + 1 := by
    unfold nestingBound
    split
    · exact ⟨_, rfl⟩
    · exact ⟨_, rfl⟩
  obtain ⟨depth, bound⟩ := positive
  exact ⟨depth, by rw [plan, bound, planWithin]⟩

theorem plan_draw {statement : Node} (kind : statement.kind = .draw) :
    (plan env statement).result = (draw statement).result := by
  obtain ⟨depth, same⟩ := plan_step env statement
  simp only [same, step, kind, Run.bind_result, Run.note_result, ok_bind]

/-- Only three kinds of statements have a plan. -/
theorem plan_unplanned {statement : Node} (noSelect : statement.kind ≠ .select)
    (noSeries : statement.kind ≠ .series) (noDraw : statement.kind ≠ .draw) :
    (plan env statement).result =
      Compile.fail (.defect (.noBuilder statement.kind.heading)) := by
  obtain ⟨depth, same⟩ := plan_step env statement
  rw [same, step]
  split
  · rename_i series
    exact absurd series noSeries
  · rename_i draw
    exact absurd draw noDraw
  · rename_i select
    exact absurd select noSelect
  · rfl

/-- What holds of the plan within and is kept by limits holds of the plan with its limits. -/
theorem limited_ok {P : Plan → Prop} (around : ∀ {p} count offset, P p → P (.limit count offset p))
    {clauses : List Node} {x : Except Stop Plan} (inner : ∀ p, x = .ok p → P p) {p : Plan}
    (h : limited clauses x = .ok p) : P p := by
  induction clauses generalizing p with
  | nil => exact inner p h
  | cons clause rest ih =>
    rw [limited, List.foldr_cons, ← limited, bind_eq_ok_iff] at h
    obtain ⟨⟨count, offset⟩, _, h⟩ := h
    obtain ⟨q, below, h⟩ := bind_eq_ok_iff.1 h
    obtain rfl := Except.ok.inj h
    exact around count offset (ih below)

theorem draw_eq_ok {statement : Node} {p : Plan} (h : (draw statement).result = .ok p) :
    ∃ chart, p = .draw chart := by
  simp only [draw, Run.bind_result, Run.note_result, ok_bind] at h
  split at h
  · cases h
  · split at h
    · rename_i chart _
      exact ⟨chart, (Except.ok.inj h).symm⟩
    · cases h

end Planning

/-- A defect as a policy has it, and any other end. -/
def DefectPolicy.ruled (policy : DefectPolicy) : Except Stop α → Except Stop α
  | .error (.failed (.defect defect)) =>
    .error (match policy with
      | .report => .failed (.defect defect)
      | .panic => .panicked defect)
  | x => x

theorem DefectPolicy.ruled_error (policy : DefectPolicy) (stop : Stop) :
    ∃ stop', policy.ruled (.error stop : Except Stop α) = .error stop' := by
  cases stop with
  | failed error => cases error <;> exact ⟨_, rfl⟩
  | _ => exact ⟨_, rfl⟩

theorem buildPlan_result (env : Environment) (statement : Node) :
    (buildPlan env statement).result = env.settings.onDefect.ruled (plan env statement).result := by
  unfold buildPlan
  dsimp only
  split
  · rename_i defect h
    rw [h]
    rfl
  · rename_i other
    cases h : (plan env statement).result with
    | ok p => rfl
    | error stop =>
      cases stop with
      | failed error =>
        cases error with
        | defect d => exact absurd h (other d)
        | _ => rfl
      | _ => rfl

theorem buildPlan_of_other {env : Environment} {statement : Node}
    (other : ∀ d, (plan env statement).result ≠ .error (.failed (.defect d))) :
    buildPlan env statement = plan env statement := by
  unfold buildPlan
  dsimp only
  split
  · rename_i d here
    exact absurd here (other d)
  · rfl

theorem buildPlan_eq_ok {env : Environment} {statement : Node} {p : Plan} :
    (buildPlan env statement).result = .ok p ↔ (plan env statement).result = .ok p := by
  rw [buildPlan_result]
  cases (plan env statement).result with
  | ok q => exact Iff.rfl
  | error stop =>
    cases stop with
    | failed error => cases error <;> simp [DefectPolicy.ruled]
    | _ => simp [DefectPolicy.ruled]

end StatementPlan
