/-
The policy on defects belongs to the entry point.  Planning below it, at whatever depth, notes no
defect and does not panic; the entry point then does so once, after everything else, and nothing for
any other end.

`step_raw`, `planWithin_raw`: a step leaves defects alone if the runs of the statements below do,
and so does a run.
`policy_applied_once`: what the entry point shows, beside what planning below it shows.
-/
import StatementPlan.Proofs.Counters
import StatementPlan.Proofs.Planning.Course
import StatementPlan.Proofs.Planning.Meaning

namespace StatementPlan

/-- The notes that are the entry point's. -/
def Note.ofEntry : Note → Bool
  | defect _ | event (.defectMet _) => true
  | _ => false

/-- The end that is the entry point's. -/
def Stop.ofEntry : Stop → Bool
  | panicked _ => true
  | _ => false

namespace Run

theorem mem_notes_bind {x : Run α} {f : α → Run β} {n : Note} (mem : n ∈ (x >>= f).notes) :
    n ∈ x.notes ∨ ∃ a, x.result = .ok a ∧ n ∈ (f a).notes := by
  cases made : x.result with
  | error stop =>
    rw [bind_stop x f made] at mem
    exact .inl mem
  | ok a =>
    rw [notes_bind x f made, List.mem_append] at mem
    exact mem.imp_right fun mem => ⟨a, rfl, mem⟩

/-- The run leaves to the entry point what is done about defects. -/
structure Raw (x : Run α) : Prop where
  notes : ∀ n ∈ x.notes, n.ofEntry = false
  stops : StopsIn (fun stop => stop.ofEntry = false) x.result

namespace Raw

variable {x : Run α}

theorem ended {notes : List Note} {result : Except Stop α} (own : notes.any Note.ofEntry = false)
    (stops : StopsIn (fun stop => stop.ofEntry = false) result) : Raw ⟨notes, result⟩ :=
  ⟨fun n mem => Bool.eq_false_iff.2 (List.any_eq_false.1 own n mem), stops⟩

theorem bind {f : α → Run β} (h : Raw x) (next : ∀ a, Raw (f a)) : Raw (x >>= f) := by
  refine ⟨fun n mem => ?_, ?_⟩
  · rcases mem_notes_bind mem with mem | ⟨a, _, mem⟩
    · exact h.notes n mem
    · exact (next a).notes n mem
  · rw [bind_result]
    exact h.stops.bind fun a _ => (next a).stops

/-- No event of such a run is an error. -/
theorem quiet (h : Raw x) : ∀ e ∈ x.events, e.level = "DEBUG" := by
  intro e mem
  obtain ⟨n, mem, shown⟩ := List.mem_filterMap.1 mem
  have other := h.notes n mem
  cases n with
  | event e' =>
    obtain rfl := Option.some.inj shown
    cases e' with
    | defectMet => cases other
    | _ => rfl
  | _ => cases shown

/-- Such a run counts no defect. -/
theorem defects_recordRun (h : Raw x) (m : Metrics) : (m.recordRun x).defects = m.defects := by
  have none : x.notes.flatMap Note.defectAmounts = [] := by
    refine List.flatMap_eq_nil_iff.2 fun n mem => ?_
    have other := h.notes n mem
    cases n with
    | defect => cases other
    | _ => rfl
  rw [Metrics.recordRun_eq, none]
  rfl

end Raw

end Run

namespace Planning

open Run

variable {env : Environment} {below : Node → Run Plan} {statement : Node}

/-- The parts of planning stop with errors and overflows only. -/
theorem PartStop.raw {table : SymbolTable} {handed : Node → Prop} {stop : Stop}
    (h : PartStop table handed stop) : stop.ofEntry = false := by
  cases h <;> rfl

theorem raw_noted {c : Course} {first : List Note} (own : first.any Note.ofEntry = false)
    (h : Raw (c.run below)) : Raw ((c.noted first).run below) := by
  rw [Course.noted_run]
  exact .bind (.ended own (.ok ())) fun _ => h

section

variable (each : ∀ n, Raw (below n))

include each

theorem raw_asking {before : List Note} {rest : Node} {after : Plan → Run Plan}
    (own : before.any Note.ofEntry = false) (last : ∀ input, Raw (after input)) :
    Raw ((Course.asking before rest after).run below) :=
  .bind (.ended own (.ok ())) fun _ => .bind (each rest) last

theorem GroupCourse.raw {c : Course} (h : GroupCourse env statement c) : Raw (c.run below) := by
  cases h with
  | refused => exact .ended rfl (.error rfl)
  | uncompiled _ stops => exact .ended rfl (.error (PartStop.raw stops))
  | asking => exact raw_asking each rfl fun _ => .ended rfl (.ok _)

theorem SeriesCourse.raw {c : Course} (h : SeriesCourse env statement c) : Raw (c.run below) := by
  cases h with
  | refused => exact .ended rfl (.error rfl)
  | @asking _ _ list name' _ _ _ found pushed =>
    refine raw_asking each (by cases seriesName_named found pushed <;> rfl) fun input => ?_
    rcases seriesEnd_cases env list.children.length name' input with ⟨_, stops, same⟩ | ⟨_, _, _, same⟩
    · rw [same]
      exact .ended rfl (.error (PartStop.raw stops))
    · rw [same]
      exact .ended rfl (.ok _)

theorem SelectCourse.raw {c : Course} (h : SelectCourse env statement c) : Raw (c.run below) := by
  cases h with
  | miscounted | undecided => exact .ended rfl (.error rfl)
  | limited => exact raw_asking each rfl fun _ => .ended rfl (.ok _)
  | grouped _ _ course => exact raw_noted rfl (course.raw each)
  | direct _ _ course =>
    refine raw_noted rfl ?_
    cases course with
    | scanned | constants => exact .ended rfl (.ok _)
    | scanStopped _ stopped => exact .ended rfl (.error (PartStop.raw (scan_stops env statement _ stopped)))
    | constantsStopped _ _ stopped =>
      exact .ended rfl (.error (PartStop.raw (constants_stops env statement _ stopped)))
    | unserved => exact .ended rfl (.error rfl)

/-- A step leaves defects alone if the runs of the statements below do. -/
theorem step_raw : Raw (step env below statement) := by
  obtain ⟨c, course, same⟩ := step_course env statement
  rw [same]
  cases course with
  | series _ course => exact raw_noted rfl (course.raw each)
  | select _ course => exact course.raw each
  | unplanned => exact .ended rfl (.error rfl)
  | draw _ course =>
    cases course with
    | refused => exact .ended rfl (.error rfl)
    | made => exact .ended rfl (.ok _)

end

theorem planWithin_raw (env : Environment) (depth : Nat) (statement : Node) :
    Raw (planWithin env depth statement) := by
  induction depth generalizing statement with
  | zero => exact ⟨nofun, .error rfl⟩
  | succ depth ih => exact step_raw ih

/-- Planning leaves defects to the entry point, wherever in the statement they are met. -/
theorem plan_raw (env : Environment) (statement : Node) : Raw (plan env statement) :=
  planWithin_raw env _ statement

end Planning

namespace Defect

/-- The labels of defects. -/
def labels : List String :=
  ["unknown_symbol", "unknown_draw_kind", "nonzero_scratchpad", "no_builder_matched", "malformed_tree"]

theorem label_mem (d : Defect) : d.label ∈ labels := by
  cases d <;> simp [label, labels]

theorem digest_labels : ∀ a ∈ labels, ∀ b ∈ labels, digest a = digest b → a = b := by decide +kernel

/-- Defects of different labels have different counters. -/
theorem digest_label_ne {d d' : Defect} (other : d'.label ≠ d.label) :
    digest d'.label ≠ digest d.label :=
  mt (digest_labels _ d'.label_mem _ d.label_mem) other

end Defect

/-- What a defect adds to planning that ends with it: one count, one event at the end, and the end
that the settings have for it. -/
structure DefectDealtWith (env : Environment) (m : Metrics) (statement : Node) (d : Defect) : Prop where
  counted : (m.recordRun (buildPlan env statement)).defects = m.defects.add d.label 1
  byOne : m.defects.value d.label + 1 < Nat.pow 2 53 →
    (m.recordRun (buildPlan env statement)).defects.value d.label = m.defects.value d.label + 1
  others : ∀ label, digest label ≠ digest d.label →
    (m.recordRun (buildPlan env statement)).defects.value label = m.defects.value label
  otherDefects : ∀ d' : Defect, d'.label ≠ d.label →
    (m.recordRun (buildPlan env statement)).defects.value d'.label = m.defects.value d'.label
  shown : (buildPlan env statement).events = (plan env statement).events ++ [.defectMet d]
  errors : (buildPlan env statement).events.filter (·.level == "ERROR") = [.defectMet d]
  named : (Event.defectMet d).message = (PlanError.defect d).message
  reported : env.settings.onDefect = .report →
    (buildPlan env statement).result = .error (.failed (.defect d))
  panicked : env.settings.onDefect = .panic → (buildPlan env statement).result = .error (.panicked d)

/-- The entry point beside planning below it: it adds something for defects, and only for them. -/
structure AppliesPolicyOnce (env : Environment) (m : Metrics) (statement : Node) : Prop where
  neverPanics : ∀ d, (plan env statement).result ≠ .error (.panicked d)
  neverCounts : (m.recordRun (plan env statement)).defects = m.defects
  neverShows : ∀ e ∈ (plan env statement).events, e.level = "DEBUG"
  debug : (buildPlan env statement).events.filter (·.level == "DEBUG") = (plan env statement).events
  builders : (m.recordRun (buildPlan env statement)).builders = (m.recordRun (plan env statement)).builders
  pushDowns : (m.recordRun (buildPlan env statement)).pushDowns = (m.recordRun (plan env statement)).pushDowns
  offers : (buildPlan env statement).offers = (plan env statement).offers
  /-- Every other end is handed on with all that was noted. -/
  otherwise : (∀ d, (plan env statement).result ≠ .error (.failed (.defect d))) →
    buildPlan env statement = plan env statement
  onDefect : ∀ d, (plan env statement).result = .error (.failed (.defect d)) →
    DefectDealtWith env m statement d

variable {env : Environment} {statement : Node}

theorem events_of_defect {d : Defect} (met : (plan env statement).result = .error (.failed (.defect d))) :
    (buildPlan env statement).events = (plan env statement).events ++ [.defectMet d] := by
  rw [Run.events, buildPlan_of_defect met, List.filterMap_append]
  rfl

theorem recordRun_of_defect {d : Defect}
    (met : (plan env statement).result = .error (.failed (.defect d))) (m : Metrics) :
    m.recordRun (buildPlan env statement) =
      (m.recordRun (plan env statement)).recordDefect d.label := by
  rw [Metrics.recordRun, buildPlan_of_defect met, List.foldl_append]
  rfl

theorem filter_quiet {es : List Event} {level : String} (quiet : ∀ e ∈ es, e.level = level)
    (other : String) : es.filter (·.level == other) = if level = other then es else [] := by
  split
  · rename_i same
    exact List.filter_eq_self.2 fun e mem => by simp [quiet e mem, same]
  · rename_i differs
    exact List.filter_eq_nil_iff.2 fun e mem => by simp [quiet e mem, differs]

theorem defect_dealt_with (m : Metrics) {d : Defect}
    (met : (plan env statement).result = .error (.failed (.defect d))) :
    DefectDealtWith env m statement d := by
  have raw := Planning.plan_raw env statement
  have counted : (m.recordRun (buildPlan env statement)).defects = m.defects.add d.label 1 := by
    rw [recordRun_of_defect met, Metrics.recordDefect, raw.defects_recordRun]
  have others : ∀ label, digest label ≠ digest d.label →
      (m.recordRun (buildPlan env statement)).defects.value label = m.defects.value label :=
    fun label other => counted ▸ Samples.value_add_other m.defects 1 other
  refine { counted, others, named := rfl, shown := events_of_defect met, byOne := ?_, otherDefects := ?_,
           errors := ?_, reported := ?_, panicked := ?_ }
  · intro small
    rw [counted, Samples.value_add_self, @Samples.rounded_small 1 (by decide), Samples.rounded_small small]
  · exact fun d' other => others d'.label (Defect.digest_label_ne other)
  · rw [events_of_defect met, List.filter_append, filter_quiet raw.quiet]
    rfl
  · intro reports
    rw [buildPlan_result, met, reports]
    rfl
  · intro panics
    rw [buildPlan_result, met, panics]
    rfl

/-- Planning at any depth leaves defects alone, and the entry point deals with each just once. -/
theorem policy_applied_once (env : Environment) (m : Metrics) (statement : Node) :
    AppliesPolicyOnce env m statement := by
  have raw := Planning.plan_raw env statement
  have neverPanics : ∀ d, (plan env statement).result ≠ .error (.panicked d) := fun d panicked => by
    cases raw.stops _ panicked
  have debug := filter_quiet raw.quiet "DEBUG"
  rw [if_pos rfl] at debug
  by_cases met : ∃ d, (plan env statement).result = .error (.failed (.defect d))
  · obtain ⟨d, met⟩ := met
    refine { neverPanics, neverCounts := raw.defects_recordRun m, neverShows := raw.quiet,
             otherwise := fun other => absurd met (other d), debug := ?_, builders := ?_, pushDowns := ?_,
             offers := ?_, onDefect := ?_ }
    · rw [events_of_defect met, List.filter_append, debug]
      exact List.append_nil _
    · rw [recordRun_of_defect met]
      rfl
    · rw [recordRun_of_defect met]
      rfl
    · rw [Run.offers, buildPlan_of_defect met, List.filterMap_append]
      exact List.append_nil _
    · intro d' met'
      exact defect_dealt_with m met'
  · have other : ∀ d, (plan env statement).result ≠ .error (.failed (.defect d)) := not_exists.1 met
    have same := buildPlan_of_other other
    exact { neverPanics, neverCounts := raw.defects_recordRun m, neverShows := raw.quiet,
            debug := by rw [same, debug], builders := by rw [same], pushDowns := by rw [same],
            offers := by rw [same], otherwise := fun _ => same,
            onDefect := fun d met => absurd met (other d) }

/-- SERIES 'ranked' SELECT sum(total) FROM sales WHERE rank(total) LIMIT 3 -/
def salesRanked : Node :=
  .seriesNamed "ranked" (.select [.item (.call "sum" [.column "total"]), .table "sales",
    .filter (.call "rank" [.column "total"]), .limit 3 none])

/-- The defect of the innermost SELECT, below a series, a limit and a grouping. -/
theorem policy_applied_once_sales :
    (plan Planning.salesEnvironment salesRanked).result = .error (.failed (.defect (.unknownSymbol "rank"))) ∧
      DefectDealtWith Planning.salesEnvironment {} salesRanked (.unknownSymbol "rank") := by
  have met : (plan Planning.salesEnvironment salesRanked).result =
      .error (.failed (.defect (.unknownSymbol "rank"))) := by decide +kernel
  exact ⟨met, (policy_applied_once Planning.salesEnvironment {} salesRanked).onDefect _ met⟩

end StatementPlan
