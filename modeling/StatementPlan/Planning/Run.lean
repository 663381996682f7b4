/-
Planning runs.  A run takes notes in order, whether it succeeds or stops, and what counters,
traces and observers show is read off the notes afterwards.

`notes_bind`, `result_bind`: the second step of a sequence adds its notes after the first's, if
the first succeeds.  Runs obey the monad laws.
-/
import StatementPlan.Fault
import StatementPlan.Text.Quoted
import StatementPlan.Tree.Node

namespace StatementPlan

/-- The builders that a SELECT is offered to. -/
inductive Leaf where
  | limit
  | tableScan
  | tablelessSelect
  deriving DecidableEq, Repr

namespace Leaf

def name : Leaf → String
  | limit => "limit"
  | tableScan => "table_scan"
  | tablelessSelect => "tableless_select"

def ofName? : String → Option Leaf
  | "limit" => some limit
  | "table_scan" => some tableScan
  | "tableless_select" => some tablelessSelect
  | _ => none

end Leaf

/-- Builders whose work is counted. -/
inductive Builder where
  | leaf (leaf : Leaf)
  | groupBy
  | series
  | draw
  deriving DecidableEq, Repr

def Builder.name : Builder → String
  | leaf l => l.name
  | groupBy => "group_by"
  | series => "series"
  | draw => "draw"

/-- What a trace of planning shows. -/
inductive Event where
  | planningSeries
  | planningDraw
  | planningGrouped
  | accepted (leaf : Leaf)
  /-- A grouped SELECT was split over an internal select list. -/
  | regrouped (internalColumns groupKeys reused : Nat)
  | seriesBuilt (axes : Nat) (columns : List String)
  | defectMet (defect : Defect)
  deriving DecidableEq, Repr

namespace Event

def level : Event → String
  | defectMet _ => "ERROR"
  | _ => "DEBUG"

def message : Event → String
  | planningSeries => "planning SERIES statement"
  | planningDraw => "planning DRAW statement"
  | planningGrouped => "planning grouped SELECT"
  | accepted _ => "leaf builder accepted statement"
  | regrouped .. => "rewrote grouped select"
  | seriesBuilt .. => "built series statement"
  | defectMet defect => (PlanError.defect defect).message

/-- The named values shown with the message. -/
def fields : Event → List (String × String)
  | accepted leaf => [("builder", leaf.name)]
  | regrouped internalColumns groupKeys reused =>
    [("internal_columns", Numeral.writeNat internalColumns),
      ("group_exprs", Numeral.writeNat groupKeys), ("reused", Numeral.writeNat reused)]
  | seriesBuilt axes columns =>
    [("axes", Numeral.writeNat axes), ("columns", Quoted.quoteList columns)]
  | defectMet defect => [("kind", defect.label)]
  | planningSeries | planningDraw | planningGrouped => []

end Event

/-- One thing that happened during planning. -/
inductive Note where
  | event (event : Event)
  /-- A builder made a plan, or set out to. -/
  | built (builder : Builder)
  /-- Columns were pushed down, into new items and into shared ones. -/
  | pushedDown (inserted reused : Nat)
  /-- A statement was offered to a leaf builder. -/
  | offered (leaf : Leaf) (statement : Node)
  /-- A defect reached the entry point. -/
  | defect (defect : Defect)
  deriving Repr

/-- Notes in order, and how the run ended. -/
structure Run (α : Type) where
  notes : List Note
  result : Except Stop α

namespace Run

/-- One step, then the next from its answer. -/
def andThen (x : Run α) (f : α → Run β) : Run β :=
  match x.result with
  | .ok a => ⟨x.notes ++ (f a).notes, (f a).result⟩
  | .error stop => ⟨x.notes, .error stop⟩

instance : Monad Run where
  pure a := ⟨[], .ok a⟩
  bind := andThen

/-- Takes a note. -/
def note (n : Note) : Run Unit := ⟨[n], .ok ()⟩

/-- Stops with an error. -/
def fail (error : PlanError) : Run α := ⟨[], .error (.failed error)⟩

/-- A step without notes. -/
def ofResult (result : Except Stop α) : Run α := ⟨[], result⟩

/-- A step without notes that fails with an error only. -/
def ofExcept : Except PlanError α → Run α
  | .ok a => ⟨[], .ok a⟩
  | .error error => fail error

/-- The events of the run. -/
def events (x : Run α) : List Event :=
  x.notes.filterMap fun
    | .event e => some e
    | _ => none

/-- The statements offered to leaf builders. -/
def offers (x : Run α) : List (Leaf × Node) :=
  x.notes.filterMap fun
    | .offered leaf statement => some (leaf, statement)
    | _ => none

theorem ext {x y : Run α} (notes : x.notes = y.notes) (result : x.result = y.result) : x = y := by
  cases x
  cases y
  simp_all

theorem notes_bind (x : Run α) (f : α → Run β) {a : α} (h : x.result = .ok a) :
    (x >>= f).notes = x.notes ++ (f a).notes := by
  simp [bind, andThen, h]

theorem result_bind (x : Run α) (f : α → Run β) {a : α} (h : x.result = .ok a) :
    (x >>= f).result = (f a).result := by
  simp [bind, andThen, h]

theorem bind_stop (x : Run α) (f : α → Run β) {stop : Stop} (h : x.result = .error stop) :
    (x >>= f) = ⟨x.notes, .error stop⟩ := by
  simp [bind, andThen, h]

theorem id_map (x : Run α) : id <$> x = x := by
  cases x with
  | mk notes result => cases result <;> simp [Functor.map, andThen]

theorem pure_bind (a : α) (f : α → Run β) : pure a >>= f = f a := by
  simp [pure, bind, andThen]

theorem bind_assoc (x : Run α) (f : α → Run β) (g : β → Run γ) :
    x >>= f >>= g = x >>= fun a => f a >>= g := by
  cases h : x.result with
  | error stop => simp [bind, andThen, h]
  | ok a =>
    cases h' : (f a).result with
    | error stop => simp [bind, andThen, h, h']
    | ok b => simp [bind, andThen, h, h']

instance : LawfulMonad Run := .mk' Run id_map pure_bind bind_assoc

end Run

end StatementPlan
