/-
Counters of planning and their text form.  A counter holds a binary number, so an amount is
rounded before it is added and the sum after; read as an integer it stays within 64 bits.  A
counter comes into being when it is counted or read, and from then on it is shown.

Labels are told apart by their digests.  Two labels of one digest share a counter, which keeps
the label it came into being with.

The text lists the families by name, in each the counters by their label, and leaves out a
family without counters.

`value_add_self`, `value_add_other`: counting changes one counter of one family.
`counter?_set_of_digest_eq`: a counter that is there keeps its label, whichever it is set by.
-/
import StatementPlan.Binary64.Numeral
import StatementPlan.Keyed
import StatementPlan.Planning.Run
import StatementPlan.Text.Digest

namespace StatementPlan

/-- A counter and the label it is shown with. -/
structure Counter where
  label : String
  value : Nat
  deriving DecidableEq, Repr

/-- Counters by the digests of their labels. -/
structure Samples where
  counters : List (UInt64 × Counter) := []
  deriving DecidableEq, Repr

namespace Samples

/-- The binary number nearest to a count, as a count. -/
def rounded (n : Nat) : Nat := (Binary64.ofNat n).wholePart

/-- The counter of a label, if it came into being. -/
def counter? (s : Samples) (label : String) : Option Counter :=
  s.counters.lookup (digest label)

/-- What a counter shows; nothing yet is 0. -/
def value (s : Samples) (label : String) : Nat := ((s.counter? label).map Counter.value).getD 0

/-- The label a counter is shown with: the one it has, or else the one asked for. -/
def shownLabel (s : Samples) (label : String) : String :=
  ((s.counter? label).map Counter.label).getD label

/-- The samples with a counter set. -/
def set (s : Samples) (label : String) (value : Nat) : Samples :=
  ⟨Keyed.put s.counters (digest label) ⟨s.shownLabel label, value⟩⟩

/-- The samples after an amount is counted. -/
def add (s : Samples) (label : String) (amount : Nat) : Samples :=
  s.set label (rounded (s.value label + rounded amount))

/-- A counter as an integer of 64 bits. -/
def read (s : Samples) (label : String) : Nat := min (s.value label) (Numeral.sizeLimit - 1)

/-- The samples after a counter is read. -/
def touch (s : Samples) (label : String) : Samples := s.set label (s.value label)

/-- A label between quotes: quote, backslash and line feed stand after a backslash. -/
def escapeLabel (label : String) : String :=
  String.ofList (label.toList.flatMap fun c =>
    match c with
    | '\\' => ['\\', '\\']
    | '"' => ['\\', '"']
    | '\n' => ['\\', 'n']
    | _ => [c])

/-- The lines of a family, with its description first; none without counters. -/
def lines (s : Samples) (family help key : String) : List String :=
  if s.counters.isEmpty then []
  else
    let sorted := (s.counters.map (·.2)).mergeSort fun a b => a.label ≤ b.label
    ("# HELP " ++ family ++ " " ++ help) :: ("# TYPE " ++ family ++ " counter") ::
      sorted.map fun counter =>
        family ++ "\x7b" ++ key ++ "=\"" ++ escapeLabel counter.label ++ "\"\x7d " ++
          (Binary64.ofNat counter.value).write

theorem counter?_set_of_digest_eq (s : Samples) {label other : String} (n : Nat)
    (h : digest other = digest label) :
    (s.set label n).counter? other = some ⟨s.shownLabel label, n⟩ := by
  rw [counter?, set, h, Keyed.lookup_put_self]

theorem counter?_set_other (s : Samples) {label other : String} (n : Nat)
    (h : digest other ≠ digest label) : (s.set label n).counter? other = s.counter? other := by
  rw [counter?, set, Keyed.lookup_put_other _ _ h, counter?]

theorem value_set_self (s : Samples) (label : String) (n : Nat) :
    (s.set label n).value label = n := by
  rw [value, counter?_set_of_digest_eq s n rfl, Option.map_some, Option.getD_some]

theorem value_set_other (s : Samples) {label other : String} (n : Nat)
    (h : digest other ≠ digest label) : (s.set label n).value other = s.value other := by
  rw [value, counter?_set_other s n h, value]

theorem value_add_self (s : Samples) (label : String) (amount : Nat) :
    (s.add label amount).value label = rounded (s.value label + rounded amount) :=
  value_set_self ..

theorem value_add_other (s : Samples) {label other : String} (amount : Nat)
    (h : digest other ≠ digest label) : (s.add label amount).value other = s.value other :=
  value_set_other s _ h

end Samples

/-- The counters of planning. -/
structure Metrics where
  /-- Builders at work. -/
  builders : Samples := {}
  /-- Columns pushed down, into new items and into shared ones. -/
  pushDowns : Samples := {}
  /-- Defects at the entry point. -/
  defects : Samples := {}
  deriving DecidableEq, Repr

namespace Metrics

def recordBuilder (m : Metrics) (name : String) : Metrics :=
  { m with builders := m.builders.add name 1 }

/-- Counts pushed columns; both counters come into being. -/
def recordPushDown (m : Metrics) (inserted reused : Nat) : Metrics :=
  { m with pushDowns := (m.pushDowns.add "inserted" inserted).add "reused" reused }

def recordDefect (m : Metrics) (label : String) : Metrics :=
  { m with defects := m.defects.add label 1 }

/-- The counters after a note. -/
def record (m : Metrics) : Note → Metrics
  | .built builder => m.recordBuilder builder.name
  | .pushedDown inserted reused => m.recordPushDown inserted reused
  | .defect defect => m.recordDefect defect.label
  | .event _ | .offered .. => m

/-- The counters after a run. -/
def recordRun (m : Metrics) (run : Run α) : Metrics :=
  run.notes.foldl record m

/-- The lines of the text form. -/
def lines (m : Metrics) : List String :=
  m.builders.lines "mq_planner_builder_invocations_total" "Plan builder invocations by builder"
    "builder" ++
  m.defects.lines "mq_planner_internal_errors_total" "Internal-consistency failures by kind"
    "kind" ++
  m.pushDowns.lines "mq_planner_pushdown_columns_total"
    "Column references pushed into internal select lists" "outcome"

/-- The text form; every line ends in a line feed. -/
def text (m : Metrics) : String :=
  String.join (m.lines.map (· ++ "\n"))

/-- The lines that show counters, without the descriptions. -/
def counterLines (m : Metrics) : List String :=
  m.lines.filter fun line => line.toList.head? != some '#'

end Metrics

end StatementPlan
