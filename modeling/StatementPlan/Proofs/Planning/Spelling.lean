/-
Planning a statement in another spelling of its column names, as to upper and lower case, slots not
being shared.  Where no two columns of a table have one name up to case, a name stands for the same
column however it is spelled.  So the two runs make the same expressions, and differ only in the
names of output columns that are those of columns, and in the column names that errors quote.

`Node.Respelled`: two spellings of one tree.
`position?_distinct`, `position?_foldCase`: the column that a name stands for.
`plan_respelled`: the plans of two spellings.
-/
import Mathlib.Data.List.Nodup
import StatementPlan.Proofs.Planning.Rewording

namespace StatementPlan

/-- The token with its text in lower case. -/
def Token.folded (token : Token) : Token := ⟨token.kind, foldCase token.text⟩

namespace Node

mutual

/-- The tree with the names of its columns in lower case. -/
def foldNames : Node → Node
  | ⟨kind, token, children, id⟩ =>
    ⟨kind, if kind = .columnName ∨ kind = .resolvedColumn then token.map Token.folded else token,
      foldNamesAll children, id⟩

def foldNamesAll : List Node → List Node
  | [] => []
  | c :: rest => foldNames c :: foldNamesAll rest

end

/-- The trees are two spellings of one. -/
def Respelled (n m : Node) : Prop := n.foldNames = m.foldNames

theorem foldNamesAll_eq_map (ns : List Node) : foldNamesAll ns = ns.map foldNames := by
  induction ns with
  | nil => rfl
  | cons c rest ih => rw [foldNamesAll, ih, List.map_cons]

end Node

/-- The rejection with the name of a column in lower case. -/
def Rejection.foldNames : Rejection → Rejection
  | unknownColumn column table => unknownColumn (foldCase column) table
  | unboundColumn name => unboundColumn (foldCase name)
  | cause => cause

/-- The error with the name of a column in lower case. -/
def PlanError.foldNames : PlanError → PlanError
  | rejected cause => rejected cause.foldNames
  | error => error

/-- The stop with the name of a column in lower case. -/
def Stop.foldNames : Stop → Stop
  | failed error => failed error.foldNames
  | stop => stop

/-- The same stop, up to how a column name is spelled. -/
def Stop.Respelled (stop stop' : Stop) : Prop := stop.foldNames = stop'.foldNames

/-- No two of the names are equal up to case. -/
def DistinctNames (columns : List String) : Prop := (columns.map foldCase).Nodup

instance (columns : List String) : Decidable (DistinctNames columns) :=
  inferInstanceAs (Decidable (List.Nodup _))

/-- In no table two columns have names that are equal up to case. -/
def Environment.DistinctColumns (env : Environment) : Prop :=
  ∀ table columns, env.columns? table = some columns → DistinctNames columns

namespace Columns

variable {columns : List String}

/-- Among distinct names, an exact match is the match up to case. -/
theorem position?_distinct (distinct : DistinctNames columns) (name : String) :
    position? columns name = columns.findIdx? (sameName · name) := by
  cases exact : columns.findIdx? (· == name) with
  | none => rw [position?, exact, Option.none_or]
  | some i =>
    rw [position?_exact exact]
    obtain ⟨bound, here, _⟩ := List.findIdx?_eq_some_iff_getElem.1 exact
    refine (List.findIdx?_eq_some_iff_getElem.2 ⟨bound, ?_, fun j before => ?_⟩).symm
    · rw [eq_of_beq here]
      exact sameName_iff.2 rfl
    -- an earlier match up to case would be another column of the same name
    · rw [Bool.not_eq_true, ← Bool.not_eq_true, sameName_iff]
      intro same
      rw [← eq_of_beq here] at same
      have one := (@List.Nodup.getElem_inj_iff _ _ distinct j (by rw [List.length_map]; omega) i
        (by rw [List.length_map]; omega)).1 (by rw [List.getElem_map, List.getElem_map, same])
      omega

/-- So a name stands for the same column in every spelling. -/
theorem position?_foldCase (distinct : DistinctNames columns) (name : String) :
    position? columns (foldCase name) = position? columns name := by
  rw [position?_distinct distinct, position?_distinct distinct]
  simp only [sameName, fold_fold]

end Columns

/-- Names of columns in lower case. -/
def Rewording.columnCase : Rewording :=
  { Rewording.none with columns := foldCase, columns_columns := fold_fold }

theorem Node.reword_columnCase (n : Node) : n.reword .columnCase = n.foldNames := by
  refine Node.induct (motive := fun n => n.reword .columnCase = n.foldNames) ?_ n
  intro n ih
  obtain ⟨kind, token, children, id⟩ := n
  rw [reword, relabel_mk, List.map_congr_left ih, foldNames, foldNamesAll_eq_map]
  cases kind <;> cases token <;> rfl

theorem Stop.reword_columnCase (stop : Stop) : stop.reword .columnCase = stop.foldNames := by
  cases stop with
  | failed error =>
    cases error with
    | rejected cause => cases cause <;> rfl
    | defect d => cases d <;> rfl
    | _ => rfl
  | panicked d => cases d <;> rfl
  | _ => rfl

theorem Stop.respelled_of_alike {stop stop' : Stop} (h : stop.Alike .columnCase stop') :
    stop.Respelled stop' := by
  rw [Respelled, ← reword_columnCase, ← reword_columnCase]
  exact h

namespace Planning

variable {env : Environment}

/-- What a statement names is found in every spelling. -/
theorem known_of_distinct (distinct : env.DistinctColumns)
    (unshared : env.settings.sharedSlots = false) (n : Node) : n.Known .columnCase env env where
  routed _ _ _ := rfl
  called _ _ := rfl
  sourced _ _ _ := rfl
  located := by
    intro table columns known column
    rw [Node.columnText, Node.columnText, Node.text?_reword_column column]
    cases n.text? with
    | none => rfl
    | some name => exact Columns.position?_foldCase (distinct table columns known) name
  kept shared := absurd shared (by simp [unshared])

theorem plan_respelled (distinct : env.DistinctColumns)
    (unshared : env.settings.sharedSlots = false) {n m : Node} (respelled : n.Respelled m) :
    EndAlike Stop.Respelled (Plan.Alike .columnCase) (plan env n).result (plan env m).result := by
  have folded := fun n => (@plan_reword .columnCase env env n ⟨rfl, rfl⟩ fun m _ =>
    known_of_distinct distinct unshared m).result
  have common : n.reword .columnCase = m.reword .columnCase := by
    rw [Node.reword_columnCase, Node.reword_columnCase, respelled]
  have back := folded m
  rw [← common] at back
  exact ((folded n).through back (eq_equivalence.comap _) (eq_equivalence.comap _)).mono
    Stop.respelled_of_alike id

end Planning

end StatementPlan
