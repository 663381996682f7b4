/-
What a planner may be told: whether equal columns share a slot, whether grouped columns keep
their names, and what happens to a defect.

`ofDocument?_toDocument`: stored settings read back.
-/
import StatementPlan.Document

namespace StatementPlan

/-- What the entry point does with a defect: hand it to the caller, or stop at once. -/
inductive DefectPolicy where
  | report
  | panic
  deriving DecidableEq, Repr

namespace DefectPolicy

/-- The name the policy is stored under. -/
def name : DefectPolicy → String
  | report => "report"
  | panic => "panic"

def ofName? : String → Option DefectPolicy
  | "report" => some report
  | "panic" => some panic
  | _ => none

/-- The policy in a description. -/
def heading : DefectPolicy → String
  | report => "Report"
  | panic => "Panic"

end DefectPolicy

/-- The settings of a planner. -/
structure Settings where
  /-- A column that is pushed down again takes the slot it has. -/
  sharedSlots : Bool := true
  /-- Grouped columns are named by alias or column; otherwise all are unnamed. -/
  resolvedNames : Bool := true
  onDefect : DefectPolicy := .panic
  deriving DecidableEq, Repr

namespace Settings

/-- The standard settings with defects reported. -/
def reporting : Settings := { onDefect := .report }

def toDocument (s : Settings) : Document :=
  .record [("dedup_pushdown", .boolean s.sharedSlots),
    ("resolve_output_names", .boolean s.resolvedNames),
    ("internal_error_policy", .text s.onDefect.name)]

/-- The order of stored settings; any of them may be missing. -/
def layout : Document.Layout where
  needed := []
  omissible := ["dedup_pushdown", "resolve_output_names", "internal_error_policy"]

/-- Stored settings; a missing field has its standard value. -/
def ofDocument? (d : Document) : Option Settings := do
  let fields ← d.fields? layout
  let standard : Settings := {}
  let sharedSlots ← Document.defaulted? fields "dedup_pushdown" Document.boolean?
    standard.sharedSlots
  let resolvedNames ← Document.defaulted? fields "resolve_output_names" Document.boolean?
    standard.resolvedNames
  let onDefect ← Document.defaulted? fields "internal_error_policy"
    (fun d => d.name?.bind DefectPolicy.ofName?) standard.onDefect
  return { sharedSlots, resolvedNames, onDefect }

/-- The settings as they appear in a description of a planner. -/
def describe (s : Settings) : String :=
  let shown := fun (flag : Bool) => if flag then "true" else "false"
  "PlannerConfig \x7b dedup_pushdown: " ++ shown s.sharedSlots ++
    ", resolve_output_names: " ++ shown s.resolvedNames ++
    ", internal_error_policy: " ++ s.onDefect.heading ++ " \x7d"

theorem ofDocument?_toDocument (s : Settings) : ofDocument? s.toDocument = some s := by
  obtain ⟨sharedSlots, resolvedNames, onDefect⟩ := s
  cases onDefect <;> rfl

end Settings

end StatementPlan
