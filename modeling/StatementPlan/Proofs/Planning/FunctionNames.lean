/-
Calls of a statement in another spelling, as to upper and lower case.  A registry finds a function
in any spelling and a plan has the name that it is registered under, so the spelling shows only
where a function is unknown: in the defect that says so.

`functions_case_insensitive`: two spellings are classified and planned alike.
-/
import StatementPlan.Proofs.Planning.Rewording
import StatementPlan.Proofs.Planning.Scope
import StatementPlan.Proofs.Tree.Built

namespace StatementPlan

namespace Node

/-- The token of a call names another function; every other token is kept. -/
def callLabel (rename : String → String) (kind : Kind) (token : Token) : Token :=
  if kind = .methodCall then ⟨token.kind, rename token.text⟩ else token

/-- The tree with the functions of its calls renamed. -/
abbrev renameCalls (rename : String → String) (n : Node) : Node := n.relabel (callLabel rename)

end Node

/-- The defect with the name of a function changed. -/
def Defect.renameCall (rename : String → String) : Defect → Defect
  | unknownSymbol name => unknownSymbol (rename name)
  | d => d

/-- The error with the name of a function changed. -/
def PlanError.renameCall (rename : String → String) : PlanError → PlanError
  | defect d => .defect (d.renameCall rename)
  | error => error

/-- The stop with the name of a function changed. -/
def Stop.renameCall (rename : String → String) : Stop → Stop
  | failed error => failed (error.renameCall rename)
  | panicked d => panicked (d.renameCall rename)
  | stop => stop

/-- The trees differ at most in how the functions of their calls are spelled. -/
def Node.CallsRespelled (n m : Node) : Prop := n.renameCalls foldCase = m.renameCalls foldCase

/-- The same defect, up to how an unknown function is spelled. -/
def Defect.CallRespelled (d d' : Defect) : Prop := d.renameCall foldCase = d'.renameCall foldCase

/-- The same error, up to how an unknown function is spelled. -/
def PlanError.CallRespelled (error error' : PlanError) : Prop :=
  error.renameCall foldCase = error'.renameCall foldCase

/-- The same stop, up to how an unknown function is spelled. -/
def Stop.CallRespelled (stop stop' : Stop) : Prop := stop.renameCall foldCase = stop'.renameCall foldCase

/-- Functions are looked up in registries, whatever these hold. -/
structure Environment.Registered (env : Environment) : Prop where
  routing : ∃ symbols : Registry, env.routing = symbols.lookup
  calls : ∃ symbols : Registry, env.calls = symbols.lookup

theorem Registry.lookup_foldCase (symbols : Registry) (name : String) :
    symbols.lookup (foldCase name) = symbols.lookup name := by
  rw [lookup, lookup, fold_fold]

theorem Operator.foldCase_symbol (op : Operator) : foldCase op.symbol = op.symbol := by
  cases op <;> decide +kernel

/-- Functions of calls in lower case. -/
def Rewording.callCase : Rewording :=
  { Rewording.none with
    calls := foldCase, calls_calls := fold_fold, operators := Operator.foldCase_symbol }

theorem Node.reword_callCase (n : Node) : n.reword .callCase = n.renameCalls foldCase := by
  have label : Rewording.label .callCase = callLabel foldCase := by
    funext kind token
    cases kind <;> rfl
  rw [reword, renameCalls, label]

theorem Defect.callRespelled_of_alike {d d' : Defect} (h : d.Alike .callCase d') :
    d.CallRespelled d' := by
  have reword : ∀ d : Defect, d.reword .callCase = d.renameCall foldCase := fun d => by cases d <;> rfl
  rw [CallRespelled, ← reword, ← reword]
  exact h

theorem PlanError.reword_callCase (error : PlanError) :
    error.reword .callCase = error.renameCall foldCase := by
  cases error with
  | rejected cause => cases cause <;> rfl
  | defect d => cases d <;> rfl
  | _ => rfl

theorem PlanError.callRespelled_of_alike {error error' : PlanError} (h : error.Alike .callCase error') :
    error.CallRespelled error' := by
  rw [CallRespelled, ← reword_callCase, ← reword_callCase]
  exact h

theorem Stop.callRespelled_of_alike {stop stop' : Stop} (h : stop.Alike .callCase stop') :
    stop.CallRespelled stop' := by
  have reword : ∀ stop : Stop, stop.reword .callCase = stop.renameCall foldCase := by
    intro stop
    cases stop with
    | failed error => exact congrArg failed error.reword_callCase
    | panicked d => cases d <;> rfl
    | _ => rfl
  rw [CallRespelled, ← reword, ← reword]
  exact h

theorem Plan.eq_of_callCase {p q : Plan} (h : p.Alike .callCase q) : p = q :=
  p.mapColumns_self.symm.trans (Eq.trans h q.mapColumns_self)

namespace Node

variable {n m : Node}

theorem CallsRespelled.reword (respelled : n.CallsRespelled m) :
    n.reword .callCase = m.reword .callCase := by
  rw [reword_callCase, reword_callCase, respelled]

theorem CallsRespelled.bareNames (respelled : n.CallsRespelled m) (bare : n.BareNames) :
    m.BareNames := by
  intro c part column
  obtain ⟨d, part', same⟩ := exists_part_of_reword respelled.reword part
  have below := congrArg Node.children same
  rw [relabel_children, relabel_children, bare d part' ((kind_of_reword same).trans column)] at below
  exact List.map_eq_nil_iff.1 below.symm

end Node

namespace Planning

variable {env : Environment} {statement statement' : Node}

/-- What a statement names is found in lower case, too. -/
theorem known_of_registered (registered : env.Registered) (bare : statement.BareNames) :
    statement.AllKnown .callCase env env := by
  obtain ⟨⟨routing, routed⟩, calls, called⟩ := registered
  intro m part
  constructor
  case routed =>
    intro _ name _
    rw [routed]
    exact routing.lookup_foldCase name
  case called =>
    intro name _
    rw [called]
    exact calls.lookup_foldCase name
  case sourced => exact fun _ _ _ => rfl
  case located =>
    intro table columns _ column
    rw [Node.columnText, Node.columnText, Node.text?_reword_column column]
    cases m.text? <;> rfl
  case kept =>
    intro _ column
    obtain ⟨kind, token, children, id⟩ := m
    obtain rfl : children = [] := bare _ part column
    obtain rfl : kind = .columnName := column
    cases token <;> rfl

/-- Two spellings of the functions of a statement: the search for aggregates answers the same, and
planning makes the same plan or ends for the same reason, but for the spelling of an unknown
function. -/
structure SpelledAlike (env : Environment) (statement statement' : Node) : Prop where
  classified : EndAlike Defect.CallRespelled Eq (callsAggregate env.routing statement)
    (callsAggregate env.routing statement')
  grouped : EndAlike PlanError.CallRespelled Eq (isGrouped env statement) (isGrouped env statement')
  planned : EndAlike Stop.CallRespelled Eq (plan env statement).result (plan env statement').result
  built : EndAlike Stop.CallRespelled Eq (buildPlan env statement).result (buildPlan env statement').result

/-- Names of functions are the same in every case. -/
theorem functions_case_insensitive (registered : env.Registered) (bare : statement.BareNames)
    (respelled : statement.CallsRespelled statement') : SpelledAlike env statement statement' := by
  have known := known_of_registered registered bare
  have known' := known_of_registered registered (respelled.bareNames bare)
  have same : env.SameButLookups env := ⟨rfl, rfl⟩
  have stops : Equivalence (Stop.Alike .callCase) := eq_equivalence.comap _
  have plans : Equivalence (Plan.Alike .callCase) := eq_equivalence.comap _
  -- both spellings are compared with the one in lower case
  have search := callsAggregate_reword fun m part => (known' m part).routed
  have routes := isGrouped_reword known'.below
  have raw := (plan_reword same known').result
  have entry := (buildPlan_reword same known').result
  rw [← respelled.reword] at search routes raw entry
  have classified := (callsAggregate_reword fun m part => (known m part).routed).through search
    (eq_equivalence.comap _) eq_equivalence
  have grouped := (isGrouped_reword known.below).through routes (eq_equivalence.comap _) eq_equivalence
  have planned := (plan_reword same known).result.through raw stops plans
  have built := (buildPlan_reword same known).result.through entry stops plans
  exact ⟨classified.mono Defect.callRespelled_of_alike id, grouped.mono PlanError.callRespelled_of_alike id,
    planned.mono Stop.callRespelled_of_alike Plan.eq_of_callCase,
    built.mono Stop.callRespelled_of_alike Plan.eq_of_callCase⟩

/-- SERIES total - tax OF SELECT SUM(total + tax) AS gross, city FROM sales GROUP BY city LIMIT 3 -/
def salesBySum : Node :=
  .seriesFrom (.binary (.operator .sub) (.column "total") (.column "tax")) (.select [
    .itemAs (.call "SUM" [.binary (.operator .add) (.column "total") (.column "tax")]) "gross",
    .column "city", .table "sales", .groupBy (.column "city"), .limit 3 none])

theorem functions_case_insensitive_sales :
    (buildPlan salesEnvironment salesBySum).result = .ok salesByNetPlan := by
  have registered : salesEnvironment.Registered := ⟨⟨_, rfl⟩, ⟨_, rfl⟩⟩
  have planned : (buildPlan salesEnvironment salesByNet).result = .ok salesByNetPlan := by decide +kernel
  have lower : salesByNet.renameCalls foldCase = salesByNet := by decide +kernel
  have folded : salesBySum.renameCalls foldCase = salesByNet := by decide +kernel
  obtain ⟨_, _, refused, _⟩ | ⟨p, q, left, right, same⟩ :=
    (functions_case_insensitive registered (by decide +kernel) (lower.trans folded.symm)).built.ends
  · cases planned.symm.trans refused
  · obtain rfl := Except.ok.inj (planned.symm.trans left)
    rw [right, ← same]

end Planning

end StatementPlan
