/-
Other texts for what a statement names.  A rewording says how names of columns and functions of
calls are put; all else in a tree stays.  To reword twice is to do it once, so a rewording stands
for all trees that it makes the same.

`Node.reword_reword`: a reworded tree is its own rewording.
`outputName_reword`: the names of output columns.
`verdict?_reword`, `callsAggregate_reword`: the search for aggregate calls, where these are found as
before.
-/
import StatementPlan.Proofs.Outcome
import StatementPlan.Proofs.Tree.Relabel

namespace StatementPlan

/-- How names of columns and functions of calls are put. -/
structure Rewording where
  columns : String → String
  calls : String → String
  columns_columns : ∀ name, columns (columns name) = columns name
  calls_calls : ∀ name, calls (calls name) = calls name
  /-- Operators call their functions by names of their own. -/
  operators : ∀ op : Operator, calls op.symbol = op.symbol

/-- All names as they are. -/
def Rewording.none : Rewording where
  columns name := name
  calls name := name
  columns_columns _ := rfl
  calls_calls _ := rfl
  operators _ := rfl

/-- The token of a node of this kind. -/
def Rewording.label (ρ : Rewording) (kind : Kind) (token : Token) : Token :=
  match kind with
  | .columnName | .resolvedColumn => ⟨token.kind, ρ.columns token.text⟩
  | .methodCall => ⟨token.kind, ρ.calls token.text⟩
  | _ => token

variable {ρ : Rewording}

namespace Node

/-- The tree with its names put otherwise. -/
abbrev reword (ρ : Rewording) (n : Node) : Node := n.relabel ρ.label

variable {n : Node}

theorem reword_reword (n : Node) : (n.reword ρ).reword ρ = n.reword ρ := by
  refine relabel_relabel (fun kind token => ?_) n
  cases kind <;> simp [Rewording.label, ρ.columns_columns, ρ.calls_calls]

/-- What is reworded to the same tree has the same nodes, up to names. -/
theorem exists_part_of_reword {m c : Node} (same : n.reword ρ = m.reword ρ) (part : c ∈ m.subtrees) :
    ∃ d ∈ n.subtrees, d.reword ρ = c.reword ρ := by
  have reworded : c.reword ρ ∈ (n.reword ρ).subtrees := by
    rw [same, subtrees_relabel]
    exact List.mem_map_of_mem part
  rw [subtrees_relabel] at reworded
  exact List.mem_map.1 reworded

theorem kind_of_reword {m : Node} (same : n.reword ρ = m.reword ρ) : n.kind = m.kind := by
  simpa using congrArg Node.kind same

theorem text?_reword_column (column : n.kind = .columnName) :
    (n.reword ρ).text? = n.text?.map ρ.columns := by
  rw [text?, text?, relabel_token, column, Option.map_map, Option.map_map]
  rfl

theorem text?_reword_call (call : n.kind = .methodCall) : (n.reword ρ).text? = n.text?.map ρ.calls := by
  rw [text?, text?, relabel_token, call, Option.map_map, Option.map_map]
  rfl

/-- The name of a column, put otherwise; no name stays none. -/
theorem columnText_reword (column : n.kind = .columnName) :
    ρ.columns (n.reword ρ).columnText = ρ.columns n.columnText := by
  rw [columnText, columnText, text?_reword_column column]
  cases n.text? with
  | none => rfl
  | some name => exact ρ.columns_columns name

end Node

/-- The name of an output column is that of its column, or an alias, which is kept as it is. -/
theorem outputName_reword (item : Node) :
    ρ.columns (outputName (item.reword ρ)) = ρ.columns (outputName item) := by
  have given : ((item.reword ρ).findChild? .columnAlias).bind Node.text? =
      (item.findChild? .columnAlias).bind Node.text? := Node.childText_relabel (fun _ => rfl) item
  rw [outputName, outputName, given, Node.relabel_children]
  split
  · rfl
  · cases item.children with
    | nil => rfl
    | cons expr rest =>
      simp only [List.map_cons, Node.relabel_kind]
      split
      · rename_i column
        rw [Node.text?_reword_column column]
        cases expr.text? with
        | none => rfl
        | some name => exact ρ.columns_columns name
      · rfl

/-- The defect with the name of a function put otherwise. -/
def Defect.reword (ρ : Rewording) : Defect → Defect
  | unknownSymbol name => unknownSymbol (ρ.calls name)
  | d => d

/-- The same defect, up to how a function is named. -/
def Defect.Alike (ρ : Rewording) (d d' : Defect) : Prop := d.reword ρ = d'.reword ρ

theorem Defect.alike_reword (d : Defect) : d.Alike ρ (d.reword ρ) := by
  cases d with
  | unknownSymbol name => exact congrArg unknownSymbol (ρ.calls_calls name).symm
  | _ => rfl

/-- A call is found in the second table under its other name. -/
def RoutesAlike (ρ : Rewording) (table table' : SymbolTable) (n : Node) : Prop :=
  n.kind = .methodCall → ∀ name, n.text? = some name → table' (ρ.calls name) = table name

variable {table table' : SymbolTable}

theorem verdict?_reword {call : Node} (kind : call.kind = .methodCall)
    (alike : RoutesAlike ρ table table' call) :
    verdict? table' (call.reword ρ) = (verdict? table call).map (·.mapError (Defect.reword ρ)) := by
  rw [verdict?, verdict?, Node.text?_reword_call kind]
  cases named : call.text? with
  | none => rfl
  | some name =>
    simp only [Option.map_some, alike kind name named]
    cases table name with
    | none => rfl
    | some symbol =>
      dsimp only
      split <;> rfl

/-- The reworded tree calls an aggregate exactly if the tree does. -/
theorem callsAggregate_reword {n : Node} (alike : ∀ m ∈ n.subtrees, RoutesAlike ρ table table' m) :
    EndAlike (Defect.Alike ρ) Eq (callsAggregate table n) (callsAggregate table' (n.reword ρ)) := by
  rw [callsAggregate_relabel fun m part kind => verdict?_reword kind (alike m part)]
  exact .mapError Defect.alike_reword _

end StatementPlan
