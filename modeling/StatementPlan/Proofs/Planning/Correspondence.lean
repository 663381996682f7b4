/-
Two runs of planning, side by side: of two statements, or in two surroundings.  A correspondence
says which notes and stops of the two go together, which statements, and which plans of a statement.
If what planning reads of corresponding statements corresponds, so do the runs; builders are gone
through here once, and each comparison of runs says only what it compares.

`Correspondence.Runs.bind`: runs in sequence.
`Correspondence.Kept`: what a step reads of corresponding statements corresponds.
`step_corresponds`, `planWithin_corresponds`: a step, over runs that correspond, and a run.
`plan_corresponds`, `buildPlan_corresponds`: planning as a whole.
-/
import StatementPlan.Proofs.Outcome
import StatementPlan.Proofs.Planning.Course

namespace StatementPlan

open Planning RowSource

/-- What goes together in two runs of planning. -/
structure Correspondence where
  notes : Note → Note → Prop
  stops : Stop → Stop → Prop
  statements : Node → Node → Prop
  /-- The plans that the two runs make of a statement of the first. -/
  plans : Node → Plan → Plan → Prop
  note_self : ∀ note, notes note note
  stop_self : ∀ stop, stops stop stop
  offered : ∀ {n n'} leaf, statements n n' → notes (.offered leaf n) (.offered leaf n')
  kind : ∀ {n n'}, statements n n' → n'.kind = n.kind
  depth : ∀ {n n'}, statements n n' → nestingBound n' = nestingBound n
  /-- A defect goes with a defect, also in what the entry point makes of it. -/
  defect : ∀ {d stop'}, stops (.failed (.defect d)) stop' → ∃ d', stop' = .failed (.defect d') ∧
    notes (.defect d) (.defect d') ∧ notes (.event (.defectMet d)) (.event (.defectMet d')) ∧
      stops (.panicked d) (.panicked d')
  defect' : ∀ {stop d'}, stops stop (.failed (.defect d')) → ∃ d, stop = .failed (.defect d)

namespace Correspondence

variable {K : Correspondence}

/-- The runs take corresponding notes and end alike. -/
structure Runs (K : Correspondence) (R : α → β → Prop) (x : Run α) (y : Run β) : Prop where
  notes : List.Forall₂ K.notes x.notes y.notes
  result : EndAlike K.stops R x.result y.result

/-- What stops for the same reason as a defect is that defect. -/
theorem defect_of_same {stop : Stop} {d : Defect} (same : stop = .failed (.defect d)) :
    ∃ d, stop = .failed (.defect d) := ⟨d, same⟩

theorem same (x : Except Stop α) : EndAlike K.stops Eq x x := .refl K.stop_self (fun _ => rfl) x

theorem same_error (x : Except PlanError α) :
    EndAlike (fun error error' => K.stops (.failed error) (.failed error')) Eq x x :=
  .refl (fun error => K.stop_self (.failed error)) (fun _ => rfl) x

namespace Runs

variable {R : α → β → Prop} {x : Run α} {y : Run β}

theorem pure {a : α} {b : β} (h : R a b) : K.Runs R (pure a) (pure b) := ⟨.nil, .ok h⟩

theorem self {R : α → α → Prop} {x : Run α} (answers : ∀ a, x.result = .ok a → R a a) : K.Runs R x x :=
  ⟨List.forall₂_same.2 fun note _ => K.note_self note, .self K.stop_self answers⟩

theorem note {n n' : Note} (h : K.notes n n') : K.Runs (fun _ _ => True) (Run.note n) (Run.note n') :=
  ⟨.cons h .nil, .ok trivial⟩

theorem fail (error : PlanError) : K.Runs R (Run.fail error) (Run.fail error) :=
  ⟨.nil, .error (K.stop_self _)⟩

theorem ofResult {x : Except Stop α} {y : Except Stop β} (h : EndAlike K.stops R x y) :
    K.Runs R (Run.ofResult x) (Run.ofResult y) := ⟨.nil, h⟩

theorem ofExcept {x : Except PlanError α} {y : Except PlanError β}
    (h : EndAlike (fun error error' => K.stops (.failed error) (.failed error')) R x y) :
    K.Runs R (Run.ofExcept x) (Run.ofExcept y) := by
  cases h with
  | ok here => exact pure here
  | error here => exact ⟨.nil, .error here⟩

/-- The second step may rest on the answer of the first. -/
theorem bind_made {Q : γ → δ → Prop} {f : α → Run γ} {g : β → Run δ} (h : K.Runs R x y)
    (next : ∀ {a b}, x.result = .ok a → R a b → K.Runs Q (f a) (g b)) : K.Runs Q (x >>= f) (y >>= g) := by
  obtain ⟨notes, result⟩ := x
  obtain ⟨notes', result'⟩ := y
  obtain ⟨noted, ends⟩ := h
  cases ends with
  | ok here => exact ⟨List.rel_append noted (next rfl here).notes, (next rfl here).result⟩
  | error here => exact ⟨noted, .error here⟩

theorem bind {Q : γ → δ → Prop} {f : α → Run γ} {g : β → Run δ} (h : K.Runs R x y)
    (next : ∀ {a b}, R a b → K.Runs Q (f a) (g b)) : K.Runs Q (x >>= f) (y >>= g) :=
  h.bind_made fun _ here => next here

theorem noted {Q : γ → δ → Prop} (notes : List Note) {x : Run γ} {y : Run δ} (h : K.Runs Q x y) :
    K.Runs Q ((⟨notes, .ok ()⟩ : Run Unit) >>= fun _ => x) ((⟨notes, .ok ()⟩ : Run Unit) >>= fun _ => y) := by
  have own : K.Runs (fun _ _ => True) (⟨notes, .ok ()⟩ : Run Unit) ⟨notes, .ok ()⟩ :=
    ⟨List.forall₂_same.2 fun note _ => K.note_self note, .ok trivial⟩
  exact own.bind fun _ => h

end Runs

variable (K) (env env' : Environment)

/-- What grouping reads of two SELECTs with these lists. -/
structure Groups (n n' source source' : Node) : Prop where
  wildcard : source'.hasChild .all = source.hasChild .all
  notes : groupNotes env' n' source' = groupNotes env n source
  items : EndAlike K.stops Eq (compile env.calls (pushedItems env source).rewritten)
    (compile env'.calls (pushedItems env' source').rewritten)
  keys : EndAlike K.stops Eq (compile env.calls (.ofChildren .groupBy (pushedKeys env n source).rewritten))
    (compile env'.calls (.ofChildren .groupBy (pushedKeys env' n' source').rewritten))
  rest : K.statements (ungrouped n (columnList (neededColumns env n source)))
    (ungrouped n' (columnList (neededColumns env' n' source')))
  plans : ∀ {p q}, K.plans (ungrouped n (columnList (neededColumns env n source))) p q →
    ∀ select keys bytes, K.plans n
      (.groupBy (groupedNames env.settings source.children) select keys bytes p)
      (.groupBy (groupedNames env'.settings source'.children) select keys bytes q)

/-- What planning reads of two SELECTs. -/
structure Selects (n n' : Node) : Prop where
  limit : Option.Rel (fun clause clause' => countsOf clause' = countsOf clause)
    (n.findChild? .limit) (n'.findChild? .limit)
  rest : ∀ {clause}, n.findChild? .limit = some clause → K.statements n.withoutFirstLimit n'.withoutFirstLimit
  limited : ∀ {p q}, K.plans n.withoutFirstLimit p q →
    ∀ count offset, K.plans n (.limit count offset p) (.limit count offset q)
  decided : EndAlike (fun error error' => K.stops (.failed error) (.failed error')) Eq
    (isGrouped env n) (isGrouped env' n')
  grouped : isGrouped env n = .ok true →
    Option.Rel (K.Groups env env' n n') n.selectList? n'.selectList?
  scanned : EndAlike K.stops (Option.Rel (K.plans n)) (scan env n) (scan env' n')
  constants : EndAlike K.stops (Option.Rel (K.plans n)) (constants env n) (constants env' n')

/-- The names of two series, with the SELECTs that these are over. -/
structure Names (n : Node) (axes : Nat) (named named' : Node × Node) : Prop where
  compiled : EndAlike K.stops Eq (compile env.calls named.1) (compile env'.calls named'.1)
  rest : K.statements named.2 named'.2
  noted : ∀ {p q}, K.plans named.2 p q →
    K.notes (.event (.seriesBuilt axes ("series" :: p.outputColumns.take axes)))
      (.event (.seriesBuilt axes ("series" :: q.outputColumns.take axes)))
  plans : ∀ {p q}, K.plans named.2 p q → ∀ name, K.plans n
    (.series ("series" :: p.outputColumns.take axes) name p)
    (.series ("series" :: q.outputColumns.take axes) name q)

/-- What planning reads of two SERIES that are over SELECTs with these lists. -/
structure Series (n name name' select select' list list' : Node) : Prop where
  axes : list'.children.length = list.children.length
  named : K.Runs (K.Names env env' n list.children.length)
    (seriesName env name select list) (seriesName env' name' select' list')

/-- The children of two SERIES. -/
inductive Children (n : Node) : List Node → List Node → Prop
  | named {name name' select select' : Node}
      (lists : Option.Rel (K.Series env env' n name name' select select')
        select.selectList? select'.selectList?) :
      Children n [name, select] [name', select']
  | others {ns ns' : List Node} (same : ns'.length = ns.length) (arity : ns.length ≠ 2) : Children n ns ns'

/-- What planning reads of corresponding statements corresponds. -/
structure Kept : Prop where
  declines : env'.declines = env.declines
  onDefect : env'.settings.onDefect = env.settings.onDefect
  select : ∀ {n n'}, K.statements n n' → n.kind = .select → K.Selects env env' n n'
  series : ∀ {n n'}, K.statements n n' → n.kind = .series → K.Children env env' n n.children n'.children
  chart : ∀ {n n'}, K.statements n n' → n.kind = .draw → n'.token = n.token
  drawn : ∀ {n n'}, K.statements n n' → n.kind = .draw → ∀ chart, K.plans n (.draw chart) (.draw chart)

/-- Corresponding statements have corresponding runs. -/
def Everywhere (below below' : Node → Run Plan) : Prop :=
  ∀ {n n'}, K.statements n n' → K.Runs (K.plans n) (below n) (below' n')

end Correspondence

namespace Planning

open Correspondence

variable {K : Correspondence} {env env' : Environment} {n n' : Node} {below below' : Node → Run Plan}

theorem series_misfit (arity : n.children.length ≠ 2) : series env below n =
    Run.note (.built .series) >>= fun _ => Run.fail (.malformed (.seriesArity n.children.length)) := by
  unfold series
  split
  · rename_i children
    exact absurd (congrArg List.length children) arity
  · rfl

section Builders

variable (everywhere : K.Everywhere below below')

include everywhere

theorem group_corresponds (lists : Option.Rel (K.Groups env env' n n') n.selectList? n'.selectList?) :
    K.Runs (K.plans n) (group env below n) (group env' below' n') := by
  cases found : n.selectList? with
  | none =>
    cases found' : n'.selectList? with
    | none =>
      simp only [group, found, found']
      exact .bind (.note (K.note_self _)) fun _ => .fail _
    | some => rw [found, found'] at lists; cases lists
  | some source =>
    cases found' : n'.selectList? with
    | none => rw [found, found'] at lists; cases lists
    | some source' =>
      rw [found, found'] at lists
      obtain ⟨groups⟩ := lists
      rw [group_run env below found, group_run env' below' found', groups.wildcard, groups.notes]
      split
      · exact ⟨.cons (K.note_self _) .nil, .error (K.stop_self _)⟩
      · refine .noted _ ?_
        refine .bind (.ofResult groups.items) fun {select _} same => ?_
        subst same
        refine .bind (.ofResult groups.keys) fun {keys _} same => ?_
        subst same
        refine .bind (.ofResult (K.same _)) fun {keys _} same => ?_
        subst same
        exact (everywhere groups.rest).bind fun plans => .pure (groups.plans plans _ _ _)

theorem series_corresponds (children : K.Children env env' n n.children n'.children) :
    K.Runs (K.plans n) (series env below n) (series env' below' n') := by
  generalize own : n.children = ns at children
  generalize own' : n'.children = ns' at children
  cases children with
  | @named name name' select select' lists =>
    unfold series
    rw [own, own']
    refine .bind (.note (K.note_self _)) fun _ => ?_
    dsimp only
    cases found : select.selectList? with
    | none =>
      cases found' : select'.selectList? with
      | none => exact .fail _
      | some => rw [found, found'] at lists; cases lists
    | some list =>
      cases found' : select'.selectList? with
      | none => rw [found, found'] at lists; cases lists
      | some list' =>
        rw [found, found'] at lists
        obtain ⟨axes, named⟩ := lists
        dsimp only
        rw [axes]
        refine named.bind fun {named named'} names => ?_
        refine (everywhere names.rest).bind fun plans => ?_
        refine .bind (.ofResult names.compiled) fun {c _} same => ?_
        subst same
        refine .bind (.ofResult (K.same _)) fun {c _} same => ?_
        subst same
        exact .bind (.note (names.noted plans)) fun _ => .pure (names.plans plans _)
  | others same arity =>
    have misfit : n.children.length ≠ 2 := own.symm ▸ arity
    have misfit' : n'.children.length ≠ 2 := own'.symm ▸ same.symm ▸ arity
    rw [series_misfit misfit, series_misfit misfit', own, own', same]
    exact .bind (.note (K.note_self _)) fun _ => .fail _

end Builders

/-- A row source is offered two SELECTs, and answers alike. -/
theorem offer_corresponds (kept : K.Kept env env') (statements : K.statements n n') {leaf : Leaf}
    {answer answer' : Except Stop (Option Plan)} (built : build env below leaf n = Run.ofResult answer)
    (built' : build env' below' leaf n' = Run.ofResult answer')
    (alike : EndAlike K.stops (Option.Rel (K.plans n)) answer answer') :
    K.Runs (Option.Rel (K.plans n)) (offer env below leaf n) (offer env' below' leaf n') := by
  rw [offer, offer, kept.declines, built, built']
  refine .bind (.note (K.offered leaf statements)) fun _ => ?_
  split
  · exact .pure .none
  · refine .bind (.ofResult alike) fun {p q} plans => ?_
    cases plans with
    | none => exact .pure .none
    | some plans =>
      refine .bind (.note (K.note_self _)) fun _ => .bind (.note (K.note_self _)) fun _ => ?_
      exact .pure (.some plans)

theorem rowsRun_corresponds (kept : K.Kept env env') (statements : K.statements n n')
    (selects : K.Selects env env' n n') :
    K.Runs (K.plans n) (rowsRun env below n) (rowsRun env' below' n') := by
  unfold rowsRun
  refine (offer_corresponds kept statements rfl rfl selects.scanned).bind fun {p q} plans => ?_
  cases plans with
  | some plans => exact .pure plans
  | none =>
    refine (offer_corresponds kept statements rfl rfl selects.constants).bind fun {p q} plans => ?_
    cases plans with
    | some plans => exact .pure plans
    | none => exact .fail _

theorem select_corresponds (kept : K.Kept env env') (everywhere : K.Everywhere below below')
    (statements : K.statements n n') (kind : n.kind = .select) :
    K.Runs (K.plans n) (select env below n) (select env' below' n') := by
  have kind' : n'.kind = .select := (K.kind statements).trans kind
  have selects := kept.select statements kind
  have limits := selects.limit
  by_cases passed : PassesLimit env n
  · have passed' : PassesLimit env' n' := by
      refine passed.imp (fun declines => by rw [kept.declines, declines]) fun none => ?_
      rw [none] at limits
      cases found' : n'.findChild? .limit with
      | none => rfl
      | some => rw [found'] at limits; cases limits
    -- neither run takes a limit off: both SELECTs are grouped, or offered to the row sources
    rw [select_passed kind passed, select_passed kind' passed']
    refine .bind (.note (K.offered .limit statements)) fun _ => ?_
    unfold unlimitedRun
    refine .bind_made (.ofExcept selects.decided) fun {grouped _} decided same => ?_
    subst same
    cases grouped with
    | true =>
      simp only [if_true]
      rw [Run.ofExcept_result, orFail_eq_ok] at decided
      refine .bind (.note (K.note_self _)) fun _ => ?_
      exact group_corresponds everywhere (selects.grouped decided)
    | false => exact rowsRun_corresponds kept statements selects
  · obtain ⟨offered, clause, found⟩ := not_passesLimit.1 passed
    rw [found] at limits
    cases found' : n'.findChild? .limit with
    | none => rw [found'] at limits; cases limits
    | some clause' =>
      -- both take one off, and plan what is left over runs that correspond
      rw [found'] at limits
      obtain ⟨counted⟩ := limits
      have offered' : env'.declines .limit = false := by rw [kept.declines, offered]
      rw [select_limited kind offered found, select_limited kind' offered' found', counted]
      refine .bind (.note (K.offered .limit statements)) fun _ => ?_
      refine .bind (.ofExcept (K.same_error _)) fun {counts _} same => ?_
      subst same
      refine (everywhere (selects.rest found)).bind fun plans => ?_
      refine .bind (.note (K.note_self _)) fun _ => .bind (.note (K.note_self _)) fun _ => ?_
      exact .pure (selects.limited plans _ _)

/-- One step, over runs that correspond. -/
theorem step_corresponds (kept : K.Kept env env') (everywhere : K.Everywhere below below') :
    K.Everywhere (step env below) (step env' below') := by
  intro n n' statements
  rw [step, step, K.kind statements]
  split
  · rename_i kind
    refine .bind (.note (K.note_self _)) fun _ => ?_
    exact series_corresponds everywhere (kept.series statements kind)
  · rename_i kind
    rw [draw, draw, kept.chart statements kind]
    refine .bind (.note (K.note_self _)) fun _ => .bind (.note (K.note_self _)) fun _ => ?_
    split
    · exact .fail _
    · split
      · exact .pure (kept.drawn statements kind _)
      · exact .fail _
  · rename_i kind
    exact select_corresponds kept everywhere statements kind
  · exact .fail _

theorem planWithin_corresponds (kept : K.Kept env env') (depth : Nat) :
    K.Everywhere (planWithin env depth) (planWithin env' depth) := by
  induction depth with
  | zero => exact fun _ => ⟨.nil, .error (K.stop_self _)⟩
  | succ depth ih => exact step_corresponds kept ih

theorem plan_corresponds (kept : K.Kept env env') (statements : K.statements n n') :
    K.Runs (K.plans n) (plan env n) (plan env' n') := by
  rw [plan, plan, K.depth statements]
  exact planWithin_corresponds kept _ statements

/-- The entry point deals with defects alike. -/
theorem buildPlan_corresponds (kept : K.Kept env env') (statements : K.statements n n') :
    K.Runs (K.plans n) (buildPlan env n) (buildPlan env' n') := by
  have planned := plan_corresponds kept statements
  by_cases met : ∃ d, (plan env n).result = .error (.failed (.defect d))
  · obtain ⟨d, made⟩ := met
    have ends := planned.result
    rw [made] at ends
    generalize made' : (plan env' n').result = result' at ends
    cases ends with
    | error stops =>
      obtain ⟨d', rfl, counted, traced, panics⟩ := K.defect stops
      refine ⟨?_, ?_⟩
      · rw [buildPlan_of_defect made, buildPlan_of_defect made']
        exact List.rel_append planned.notes (.cons counted (.cons traced .nil))
      · rw [buildPlan_result, buildPlan_result, made, made', kept.onDefect]
        cases env.settings.onDefect with
        | report => exact .error stops
        | panic => exact .error panics
  · rw [not_exists] at met
    have met' : ∀ d', (plan env' n').result ≠ .error (.failed (.defect d')) := by
      intro d' made'
      have ends := planned.result
      rw [made'] at ends
      generalize made : (plan env n).result = result at ends
      cases ends with
      | error stops =>
        obtain ⟨d, rfl⟩ := K.defect' stops
        exact met d made
    rw [buildPlan_of_other met, buildPlan_of_other met']
    exact planned

end Planning

end StatementPlan
