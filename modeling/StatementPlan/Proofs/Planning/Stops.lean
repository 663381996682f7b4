/-
How the parts of planning stop: with an error of their own, which is never that no builder took a
statement, or where the bytes of one of the trees that they hand to the compiler are beyond the
limit of sizes.

`compile_stops`: the compiler.
`scan_stops`, `constants_stops`: the row sources, with the trees that they hand on.
`Ends.of_part`: none of them runs out of levels, as only planning does.
`scan_declined`, `constants_declined`: what they decline.
`countsOf_matched`, `isGrouped_matched`: what is decided before.
-/
import StatementPlan.Proofs.Expression.Tally
import StatementPlan.Proofs.Planning.Rows

namespace StatementPlan

namespace StopsIn

theorem orFail {P : Stop → Prop} {x : Except PlanError α} (h : StopsIn (fun e => P (.failed e)) x) :
    StopsIn P (RowSource.orFail x) := by
  cases x with
  | ok a => exact .ok a
  | error e => exact .error (h e rfl)

theorem stateless {P : Stop → Prop} {error : Nat → PlanError} (h : ∀ bytes, P (.failed (error bytes)))
    (c : Compiled) : StopsIn P (RowSource.stateless error c) := by
  unfold RowSource.stateless
  split
  · exact .ok c
  · exact .error (h _)

end StopsIn

/-- How a part of planning stops that hands these trees to the compiler. -/
inductive PartStop (table : SymbolTable) (handed : Node → Prop) : Stop → Prop
  | failed {error : PlanError} (matched : error.unmatched = false) :
      PartStop table handed (.failed error)
  | overflow {n : Node} (here : handed n) (exceeds : Exceeds table n) :
      PartStop table handed .overflow

/-- The computation fails only with errors of its own. -/
def Matched (x : Except PlanError α) : Prop := StopsIn (fun error => error.unmatched = false) x

variable {table : SymbolTable} {handed : Node → Prop}

theorem PartStop.ended {stop : Stop} (h : PartStop table handed stop) : stop ≠ .endless := by
  cases h <;> nofun

/-- The computation has an end of its own: it does not run out of levels. -/
def Ends (x : Except Stop α) : Prop := x ≠ .error .endless

namespace Ends

variable {x : Except Stop α}

theorem ok (a : α) : Ends (.ok a) := nofun

/-- A part of planning is left with one of its own stops. -/
theorem of_part (h : StopsIn (PartStop table handed) x) : Ends x :=
  fun same => (h .endless same).ended rfl

theorem bind {f : α → Except Stop β} (h : Ends x) (next : ∀ a, x = .ok a → Ends (f a)) :
    Ends (x >>= f) := by
  cases x with
  | ok a => exact next a rfl
  | error stop => exact fun same => h (by injection same with same; rw [same])

end Ends

theorem compile_stops {n : Node} (here : handed n) :
    StopsIn (PartStop table handed) (compile table n) := by
  intro stop stopped
  have outcome := compile_outcome table n
  rw [stopped] at outcome
  cases outcome with
  | fault _ _ matched => exact .failed matched
  | overflow => exact .overflow here (compile_overflow_iff.1 stopped)

namespace Planning

open RowSource

theorem orFail_stops {x : Except PlanError α} (h : Matched x) :
    StopsIn (PartStop table handed) (orFail x) :=
  .orFail (h.mono fun _ => .failed)

theorem fail_stops {error : PlanError} (matched : error.unmatched = false) :
    StopsIn (PartStop table handed) (Compile.fail error : Except Stop α) :=
  .error (.failed matched)

theorem stateless_stops {error : Nat → PlanError} (matched : ∀ bytes, (error bytes).unmatched = false)
    (c : Compiled) : StopsIn (PartStop table handed) (stateless error c) :=
  .stateless (fun bytes => .failed (matched bytes)) c

theorem refuseClauses_stops (statement : Node) :
    StopsIn (fun e => ∃ cause, e = .unsupported cause) (refuseClauses statement) := by
  unfold refuseClauses
  split
  · exact .error ⟨_, rfl⟩
  · split
    · exact .error ⟨_, rfl⟩
    · exact .ok ()

theorem refuseClauses_matched (statement : Node) : Matched (refuseClauses statement) := by
  refine (refuseClauses_stops statement).mono ?_
  rintro _ ⟨_, rfl⟩
  rfl

theorem tableOf_matched (env : Environment) (clause : Node) : Matched (tableOf env clause) := by
  unfold tableOf
  split
  · exact .error rfl
  · split
    · exact .error rfl
    · exact .ok _

theorem selectList_matched (statement : Node) : Matched (selectList statement) := by
  unfold selectList
  split
  · exact .ok _
  · exact .error rfl

theorem bound_stops (table : String) (columns : List String) (n : Node) :
    StopsIn (fun e => ∃ cause, e = .rejected cause) (bound table columns n) := by
  unfold bound
  split
  · exact .ok _
  · exact .error ⟨_, rfl⟩

theorem bound_matched (table : String) (columns : List String) (n : Node) :
    Matched (bound table columns n) := by
  refine (bound_stops table columns n).mono ?_
  rintro _ ⟨_, rfl⟩
  rfl

theorem scanItem_matched (table : String) (columns : List String) (item : Node) :
    Matched (scanItem table columns item) := by
  unfold scanItem
  split
  · exact .ok _
  · have matched := bound_matched table columns item
    split
    · exact .ok _
    · rename_i e stopped
      exact .error (matched e stopped)
  · exact .error rfl

theorem scanItems_matched (table : String) (columns : List String) (items : List Node) :
    Matched (scanItems table columns items) := by
  induction items with
  | nil => exact .ok []
  | cons item rest ih =>
    exact (scanItem_matched table columns item).bind fun first _ => ih.bind fun others _ => .ok _

/-- What a scan has found before it compiles anything: its table and its bound items. -/
structure Scans (env : Environment) (statement : Node) (table : String) (columns : List String)
    (items : List (Node × String)) : Prop where
  kind : statement.kind = .select
  plain : refuseClauses statement = .ok ()
  source : ∃ clause, statement.findChild? .from = some clause ∧ tableOf env clause = .ok (table, columns)
  listed : ∃ list, statement.selectList? = some list ∧ scanItems table columns list.children = .ok items

/-- The trees that a scan hands to the compiler: its items, then its predicate. -/
inductive ScanInput (env : Environment) (statement : Node) : Node → Prop
  | items {table : String} {columns : List String} {items : List (Node × String)}
      (parts : Scans env statement table columns items) :
      ScanInput env statement (.ofChildren .selectList (items.map (·.1)))
  | predicate {table : String} {columns : List String} {items : List (Node × String)} {c : Compiled}
      {condition m : Node} (parts : Scans env statement table columns items)
      (selected : compile env.calls (.ofChildren .selectList (items.map (·.1))) = .ok c)
      (none : c.scratchpad = 0) (filtered : condition? statement = some condition)
      (placed : bound table columns condition = .ok m) : ScanInput env statement m

/-- The tree that a SELECT without a table hands to the compiler. -/
inductive ConstantsInput (statement : Node) : Node → Prop
  | list {list : Node} (kind : statement.kind = .select) (plain : refuseClauses statement = .ok ())
      (unsourced : statement.hasChild .from = false) (unfiltered : statement.hasChild .where = false)
      (found : statement.selectList? = some list) (listed : list.hasChild .all = false) :
      ConstantsInput statement list

variable {env : Environment} {statement : Node}

theorem scan_stops (env : Environment) (statement : Node) :
    StopsIn (PartStop env.calls (ScanInput env statement)) (scan env statement) := by
  unfold scan
  split
  · rename_i kind
    split
    · exact .ok none
    · rename_i clause sourced
      refine (orFail_stops (refuseClauses_matched statement)).bind fun _ plain => ?_
      refine (orFail_stops (tableOf_matched env clause)).bind fun source named => ?_
      obtain ⟨table, columns⟩ := source
      refine (orFail_stops (selectList_matched statement)).bind fun list found => ?_
      refine (orFail_stops (scanItems_matched table columns list.children)).bind fun items listed => ?_
      rw [orFail_eq_ok] at plain named found listed
      have parts : Scans env statement table columns items :=
        ⟨kind, plain, ⟨clause, sourced, named⟩, ⟨list, selectList_eq_ok.1 found, listed⟩⟩
      refine (compile_stops (.items parts)).bind fun c selected => ?_
      refine (stateless_stops (fun _ => rfl) c).bind fun select pure => ?_
      obtain ⟨rfl, none⟩ := stateless_eq_ok.1 pure
      refine StopsIn.bind ?_ fun _ _ => .ok _
      cases filtered : condition? statement with
      | none => exact .ok _
      | some condition =>
        rw [Option.mapM_some]
        refine StopsIn.map ?_ _
        refine (orFail_stops (bound_matched table columns condition)).bind fun m placed => ?_
        rw [orFail_eq_ok] at placed
        refine (compile_stops (.predicate parts selected none filtered placed)).bind fun c _ => ?_
        exact stateless_stops (fun _ => rfl) c
  · exact .ok none

theorem constants_stops (env : Environment) (statement : Node) :
    StopsIn (PartStop env.calls (ConstantsInput statement)) (constants env statement) := by
  unfold constants
  split
  · rename_i here
    obtain ⟨kind, unsourced⟩ := here
    refine (orFail_stops (refuseClauses_matched statement)).bind fun _ plain => ?_
    split
    · exact fail_stops rfl
    · rename_i unfiltered
      refine (orFail_stops (selectList_matched statement)).bind fun list found => ?_
      split
      · exact fail_stops rfl
      · rename_i listed
        rw [orFail_eq_ok] at plain found
        have input : ConstantsInput statement list := .list kind plain unsourced
          (Bool.eq_false_iff.2 unfiltered) (selectList_eq_ok.1 found) (Bool.eq_false_iff.2 listed)
        refine (compile_stops input).bind fun c _ => ?_
        exact (stateless_stops (fun _ => rfl) c).bind fun _ _ => .ok _
  · exact .ok none

theorem scan_declined (kind : statement.kind = .select) (h : scan env statement = .ok none) :
    statement.findChild? .from = none := by
  cases sourced : statement.findChild? .from with
  | none => rfl
  | some clause =>
    simp only [scan, kind, sourced, if_true, bind_eq_ok_iff] at h
    obtain ⟨_, _, _, _, _, _, _, _, _, _, _, _, _, _, h⟩ := h
    cases h

theorem constants_declined (kind : statement.kind = .select)
    (h : constants env statement = .ok none) : statement.hasChild .from = true := by
  cases unsourced : statement.hasChild .from with
  | true => rfl
  | false =>
    simp only [constants, kind, unsourced, and_self, if_true, bind_eq_ok_iff] at h
    obtain ⟨_, _, h⟩ := h
    split at h
    · cases h
    · obtain ⟨_, _, h⟩ := bind_eq_ok_iff.1 h
      split at h
      · cases h
      · simp only [bind_eq_ok_iff] at h
        obtain ⟨_, _, _, _, h⟩ := h
        cases h

theorem countOf_matched (clause : CountClause) (token : Option Token) :
    Matched (countOf clause token) := by
  unfold countOf
  split
  · exact .error rfl
  · split
    · exact .ok _
    · exact .error rfl

theorem countsOf_matched (clause : Node) : Matched (countsOf clause) := by
  unfold countsOf
  refine (countOf_matched .limit clause.token).bind fun count _ => ?_
  split
  · exact (countOf_matched .offset _).bind fun _ _ => .ok _
  · exact .ok _

/-- The defect says other than that no builder took a statement. -/
def MatchedDefect (d : Defect) : Prop := (PlanError.defect d).unmatched = false

theorem callsAggregate_matched (table : SymbolTable) (n : Node) :
    StopsIn MatchedDefect (callsAggregate table n) := by
  intro d stopped
  obtain ⟨call, _, _, fault⟩ := exists_verdict stopped (by simp)
  rcases verdict?_eq_error.1 fault with ⟨_, rfl⟩ | ⟨name, _, _, rfl⟩
  · rfl
  · rfl

theorem isGrouped_matched (env : Environment) (statement : Node) :
    Matched (isGrouped env statement) := by
  unfold isGrouped selectsAggregate
  split
  · exact .ok true
  · split
    · exact .ok _
    · rename_i d stopped
      refine .error ?_
      split at stopped
      · split at stopped
        · split at stopped
          · exact callsAggregate_matched env.routing _ d stopped
          · obtain rfl := Except.error.inj stopped
            rfl
        · cases stopped
      · cases stopped

end Planning

end StatementPlan
