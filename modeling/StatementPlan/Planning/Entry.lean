/-
The entry point of planning.  It applies the settings' policy to a defect, once and wherever
the defect arose; every other end of planning is handed on as it is.
-/
import StatementPlan.Planning.Statement

namespace StatementPlan

/-- Plans a statement; a defect is noted, then reported or fatal. -/
def buildPlan (env : Environment) (statement : Node) : Run Plan :=
  let run := plan env statement
  match run.result with
  | .error (.failed (.defect defect)) =>
    ⟨run.notes ++ [.defect defect, .event (.defectMet defect)],
      .error (match env.settings.onDefect with
        | .report => .failed (.defect defect)
        | .panic => .panicked defect)⟩
  | _ => run

/-- Lets one leaf builder plan a statement by itself; nothing, if it declines. -/
def buildLeaf (env : Environment) (leaf : Leaf) (statement : Node) : Run (Option Plan) :=
  Planning.build env (plan env) leaf statement

/-- Plans a statement with the standard settings and the built-in symbols. -/
def buildStandardPlan (catalog : Catalog) (statement : Node) : Run Plan :=
  buildPlan (.standard catalog) statement

theorem buildPlan_of_ok {env : Environment} {statement : Node} {p : Plan}
    (h : (plan env statement).result = .ok p) : buildPlan env statement = plan env statement := by
  simp [buildPlan, h]

theorem buildPlan_of_defect {env : Environment} {statement : Node} {d : Defect}
    (h : (plan env statement).result = .error (.failed (.defect d))) :
    (buildPlan env statement).notes =
      (plan env statement).notes ++ [.defect d, .event (.defectMet d)] := by
  simp [buildPlan, h]

end StatementPlan
