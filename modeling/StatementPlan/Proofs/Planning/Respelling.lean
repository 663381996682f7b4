/-
Respelling the column names of a statement, where no two columns of a table have one name up to
case.  With slots shared equal spellings get one slot and other spellings do not, so the plans have
different positions below groupings and series; but sharing is transparent, and without it the plans
are the same.

`Plan.SameButSpelling`: the same operators over the table, and columns that are equal up to case.
`columns_case_insensitive`: two spellings are planned alike.
-/
import StatementPlan.Proofs.Planning.SharedSlots
import StatementPlan.Proofs.Planning.Spelling

namespace StatementPlan

/-- The plans have the same operators and come to the same entries and keys; the names of their
columns are equal up to case. -/
structure Plan.SameButSpelling (p q : Plan) : Prop where
  stages : p.stages = q.stages
  columns : p.outputColumns.map foldCase = q.outputColumns.map foldCase
  entries : ∃ entries, p.entries? = some entries ∧ q.entries? = some entries
  keys : ∃ keys, p.keys? = some keys ∧ q.keys? = some keys

namespace Plan

theorem stages_mapColumns (f : String → String) (p : Plan) : (p.mapColumns f).stages = p.stages := by
  induction p with
  | limit count offset _ ih => exact congrArg (Stage.limit count offset :: ·) ih
  | groupBy _ _ _ scratchpad _ ih => exact congrArg (Stage.groupBy scratchpad :: ·) ih
  | series _ _ _ ih => exact congrArg (Stage.series :: ·) ih
  | _ => rfl

theorem entries?_mapColumns (f : String → String) (p : Plan) :
    (p.mapColumns f).entries? = p.entries? := by
  induction p with
  | limit _ _ _ ih => exact ih
  | groupBy _ _ _ _ _ ih => simp only [mapColumns, entries?, ih]
  | series _ _ _ ih => simp only [mapColumns, entries?, ih, List.length_map]
  | _ => rfl

theorem keys?_mapColumns (f : String → String) (p : Plan) : (p.mapColumns f).keys? = p.keys? := by
  induction p with
  | limit _ _ _ ih => exact ih
  | groupBy _ _ _ _ _ ih => simp only [mapColumns, keys?, entries?_mapColumns, ih]
  | series _ _ _ ih => exact ih
  | _ => rfl

end Plan

namespace Plan.SameButSpelling

variable {p q r : Plan}

theorem of_slots (h : p.SameButSlots q) : p.SameButSpelling q where
  stages := h.stages
  columns := congrArg (List.map foldCase) h.columns
  entries := h.entries
  keys := h.keys

theorem symm (h : p.SameButSpelling q) : q.SameButSpelling p where
  stages := h.stages.symm
  columns := h.columns.symm
  entries := h.entries.imp fun _ both => both.symm
  keys := h.keys.imp fun _ both => both.symm

theorem trans (h : p.SameButSpelling q) (h' : q.SameButSpelling r) : p.SameButSpelling r where
  stages := h.stages.trans h'.stages
  columns := h.columns.trans h'.columns
  entries := by
    obtain ⟨entries, left, right⟩ := h.entries
    obtain ⟨entries', left', right'⟩ := h'.entries
    exact ⟨entries, left, right'.trans (left'.symm.trans right)⟩
  keys := by
    obtain ⟨keys, left, right⟩ := h.keys
    obtain ⟨keys', left', right'⟩ := h'.keys
    exact ⟨keys, left, right'.trans (left'.symm.trans right)⟩

theorem respelled (h : p.SameButSpelling q) (alike : q.Alike .columnCase r) : p.SameButSpelling r := by
  have same : q.mapColumns foldCase = r.mapColumns foldCase := alike
  constructor
  case stages => rw [h.stages, ← stages_mapColumns foldCase q, same, stages_mapColumns]
  case columns => rw [h.columns, ← outputColumns_mapColumns foldCase q, same, outputColumns_mapColumns]
  case entries =>
    rw [← entries?_mapColumns foldCase r, ← same, entries?_mapColumns]
    exact h.entries
  case keys =>
    rw [← keys?_mapColumns foldCase r, ← same, keys?_mapColumns]
    exact h.keys

end Plan.SameButSpelling

namespace Node

variable {n m : Node}

theorem Respelled.reword (respelled : n.Respelled m) : n.reword .columnCase = m.reword .columnCase := by
  rw [reword_columnCase, reword_columnCase, respelled]

theorem Respelled.kind (respelled : n.Respelled m) : n.kind = m.kind := kind_of_reword respelled.reword

/-- A part of one spelling is a part of the other, spelled differently. -/
theorem Respelled.part (respelled : n.Respelled m) {c : Node} (part : c ∈ m.subtrees) :
    ∃ d ∈ n.subtrees, d.reword .columnCase = c.reword .columnCase :=
  exists_part_of_reword respelled.reword part

theorem Respelled.unplaced (respelled : n.Respelled m) (unplaced : n.Unplaced) : m.Unplaced := by
  intro c part
  obtain ⟨d, part', same⟩ := respelled.part part
  rw [← kind_of_reword same]
  exact unplaced d part'

theorem namesAggregate_columnCase (table : SymbolTable) (n : Node) :
    namesAggregate table (n.reword .columnCase) = namesAggregate table n := by
  obtain ⟨kind, token, children, id⟩ := n
  cases kind <;> cases token <;> rfl

theorem contains_columnCase (table : SymbolTable) (n : Node) :
    (n.reword .columnCase).contains (namesAggregate table) = n.contains (namesAggregate table) := by
  rw [contains_eq_any, contains_eq_any, subtrees_relabel, List.any_map]
  simp only [Function.comp_def, namesAggregate_columnCase]

theorem Respelled.plainNames {table : SymbolTable} (respelled : n.Respelled m)
    (plain : n.PlainNames table) : m.PlainNames table := by
  intro c part column
  obtain ⟨d, part', same⟩ := respelled.part part
  have quiet := plain d part' ((kind_of_reword same).trans column)
  rwa [← contains_columnCase, same, contains_columnCase] at quiet

theorem Respelled.seriesOfSelect (respelled : n.Respelled m) (overSelect : n.SeriesOfSelect) :
    m.SeriesOfSelect := by
  intro name select kind children
  have below := congrArg Node.children respelled.reword
  rw [relabel_children, relabel_children, children, List.map_cons, List.map_cons, List.map_nil] at below
  obtain ⟨name', rest, shape, _, below⟩ := List.map_eq_cons_iff.1 below
  obtain ⟨select', rest', rfl, same, below⟩ := List.map_eq_cons_iff.1 below
  obtain rfl := List.map_eq_nil_iff.1 below
  exact (kind_of_reword same).symm.trans (overSelect name' select' (respelled.kind.trans kind) shape)

end Node

/-- A defect does not name a column. -/
theorem Stop.foldNames_eq_defect_iff {stop : Stop} {d : Defect} :
    stop.foldNames = .failed (.defect d) ↔ stop = .failed (.defect d) := by
  cases stop with
  | failed error => cases error <;> simp [foldNames, PlanError.foldNames]
  | _ => simp [foldNames]

theorem DefectPolicy.ruled_other (policy : DefectPolicy) {stop : Stop}
    (other : ∀ d, stop ≠ .failed (.defect d)) : policy.ruled (.error stop : Except Stop α) = .error stop := by
  cases stop with
  | failed error =>
    cases error with
    | defect d => exact absurd rfl (other d)
    | _ => rfl
  | _ => rfl

theorem DefectPolicy.ruled_respelled (policy : DefectPolicy) {R : α → β → Prop} {x : Except Stop α}
    {y : Except Stop β} (h : EndAlike Stop.Respelled R x y) :
    EndAlike Stop.Respelled R (policy.ruled x) (policy.ruled y) := by
  cases h with
  | ok here => exact .ok here
  | @error stop stop' here =>
    by_cases defect : ∃ d, stop = .failed (.defect d)
    · obtain ⟨d, rfl⟩ := defect
      obtain rfl := Stop.foldNames_eq_defect_iff.1 (Eq.symm here)
      exact .error rfl
    · rw [not_exists] at defect
      have defect' : ∀ d, stop' ≠ .failed (.defect d) := fun d same =>
        defect d (Stop.foldNames_eq_defect_iff.1 (here.trans (Stop.foldNames_eq_defect_iff.2 same)))
      rw [policy.ruled_other defect, policy.ruled_other defect']
      exact .error here

namespace Planning

variable {env : Environment} {statement statement' : Node}

/-- Planning as it is and planning without sharing slots. -/
theorem plan_unshared (complete : env.Complete) (overSelect : statement.SeriesOfSelect)
    (unplaced : statement.Unplaced) (plain : statement.PlainNames env.routing) :
    EndAlike Eq Plan.SameButSpelling (plan env statement).result
      (plan (env.sharing false) statement).result := by
  have shared : EndAlike Eq Plan.SameButSpelling (plan (env.sharing true) statement).result
      (plan (env.sharing false) statement).result :=
    (plan_transparent complete overSelect unplaced plain).endAlike.mono id .of_slots
  cases setting : env.settings.sharedSlots with
  | true =>
    have here : env = env.sharing true := by simp [Environment.sharing, ← setting]
    rwa [← here] at shared
  | false =>
    have here : env = env.sharing false := by simp [Environment.sharing, ← setting]
    have back : EndAlike Eq Plan.SameButSpelling (plan (env.sharing false) statement).result
        (plan (env.sharing true) statement).result := shared.symm Eq.symm Plan.SameButSpelling.symm
    have both := back.trans shared Eq.trans Plan.SameButSpelling.trans
    rwa [← here] at both ⊢

/-- Two spellings of the columns of a statement are planned alike: both are refused, for reasons
that differ at most in the spelling of a column name, or both have plans that do the same.  Column
names may have anything beneath them but calls of aggregates. -/
theorem columns_case_insensitive (complete : env.Complete) (distinct : env.DistinctColumns)
    (overSelect : statement.SeriesOfSelect) (unplaced : statement.Unplaced)
    (plain : statement.PlainNames env.routing) (respelled : statement.Respelled statement') :
    EndAlike Stop.Respelled Plan.SameButSpelling (buildPlan env statement).result
      (buildPlan env statement').result := by
  have left := plan_unshared complete overSelect unplaced plain
  have right := plan_unshared complete (respelled.seriesOfSelect overSelect) (respelled.unplaced unplaced)
    (respelled.plainNames plain)
  have between : EndAlike Stop.Respelled (Plan.Alike .columnCase) (plan (env.sharing false) statement).result
      (plan (env.sharing false) statement').result :=
    @plan_respelled (env.sharing false) distinct rfl _ _ respelled
  have first : EndAlike Stop.Respelled Plan.SameButSpelling (plan env statement).result
      (plan (env.sharing false) statement').result :=
    left.trans between (fun same here => same ▸ here) Plan.SameButSpelling.respelled
  rw [buildPlan_result, buildPlan_result]
  exact env.settings.onDefect.ruled_respelled
    (first.trans (right.symm Eq.symm Plan.SameButSpelling.symm) (fun here same => same ▸ here)
      Plan.SameButSpelling.trans)

/-- SERIES Total - TAX OF SELECT sum(TOTAL + tax) AS gross, City FROM sales GROUP BY cITY LIMIT 3 -/
def salesRespelled : Node :=
  .seriesFrom (.binary (.operator .sub) (.column "Total") (.column "TAX")) (.select [
    .itemAs (.call "sum" [.binary (.operator .add) (.column "TOTAL") (.column "tax")]) "gross",
    .column "City", .table "sales", .groupBy (.column "cITY"), .limit 3 none])

theorem columns_case_insensitive_sales :
    ∃ p, (buildPlan salesEnvironment salesRespelled).result = .ok p ∧ salesByNetPlan.SameButSpelling p := by
  have distinct : salesEnvironment.DistinctColumns := by
    intro table columns known
    by_cases sales : table = "sales"
    · subst sales
      obtain rfl := Option.some.inj ((Catalog.columns?_register_self {} "sales" _).symm.trans known)
      decide +kernel
    · have unknown := (Catalog.columns?_register_other {} ["city", "total", "tax"] sales).symm.trans known
      cases unknown
  have overSelect : salesByNet.SeriesOfSelect := by
    rintro name select - ⟨⟩
    rfl
  have lower : salesByNet.foldNames = salesByNet := by decide +kernel
  have folded : salesRespelled.foldNames = salesByNet := by decide +kernel
  have planned : (buildPlan salesEnvironment salesByNet).result = .ok salesByNetPlan := by decide +kernel
  obtain ⟨stop, stop', refused, _⟩ | ⟨p, q, left, right, same⟩ :=
    (columns_case_insensitive (fun _ => rfl) distinct overSelect (by decide +kernel) (by decide +kernel)
      (lower.trans folded.symm)).ends
  · cases planned.symm.trans refused
  · obtain rfl := Except.ok.inj (planned.symm.trans left)
    exact ⟨q, right, same⟩

end Planning

end StatementPlan
