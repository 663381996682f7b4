/-
Why a statement gets no plan.  A *rejection* is the statement's own fault, a name or a number
in it; a clause or a shape the planner does not cover is *unsupported*; a *defect* says that
the parser, the symbols and the planner disagree about the language.  Each has one text.
-/
import StatementPlan.Tree.Kind
import StatementPlan.Tree.Token
import StatementPlan.Text.Numeral

namespace StatementPlan

/-- The clauses that carry a row count. -/
inductive CountClause where
  | limit
  | offset
  deriving DecidableEq, Repr

/-- The keyword of the clause. -/
def CountClause.keyword : CountClause → String
  | limit => "LIMIT"
  | offset => "OFFSET"

/-- Faults of the statement itself. -/
inductive Rejection where
  | unknownTable (table : String)
  | unknownColumn (column table : String)
  /-- A column where no table is in reach. -/
  | unboundColumn (name : String)
  | badCount (clause : CountClause) (text : String)
  | badNumeral (text : String)
  | aggregateInWhere
  | wildcardWithoutFrom
  | aggregateWithoutFrom
  | other (text : String)
  deriving DecidableEq, Repr

namespace Rejection

def text : Rejection → String
  | unknownTable table => "unknown table: " ++ table
  | unknownColumn column table => "unknown column '" ++ column ++ "' in table '" ++ table ++ "'"
  | unboundColumn name => "unresolved column reference: " ++ name
  | badCount clause text => "invalid " ++ clause.keyword ++ " count: " ++ text
  | badNumeral text => "invalid numeric literal: " ++ text
  | aggregateInWhere => "aggregate functions are not allowed in WHERE"
  | wildcardWithoutFrom => "SELECT * requires a FROM clause"
  | aggregateWithoutFrom => "aggregate functions require a FROM clause"
  | other text => text

end Rejection

/-- Statements of a sound shape that are not planned. -/
inductive Unsupported where
  | having
  | orderBy
  | whereWithoutFrom
  | wildcardInGrouped
  | wildcardUnderComputedName
  | wildcardInExpression
  /-- A node that is not an expression, where one is needed. -/
  | notAnExpression (kind : Kind)
  | other (text : String)
  deriving DecidableEq, Repr

namespace Unsupported

def text : Unsupported → String
  | having => "HAVING"
  | orderBy => "ORDER BY"
  | whereWithoutFrom => "WHERE without FROM"
  | wildcardInGrouped => "SELECT * together with GROUP BY or aggregate functions"
  | wildcardUnderComputedName => "SELECT * together with a computed series name"
  | wildcardInExpression => "* is only supported in the select list of a table scan"
  | notAnExpression kind => "cannot compile " ++ kind.heading ++ " node into an expression"
  | other text => text

end Unsupported

/-- Trees no parser makes. -/
inductive Malformation where
  | seriesArity (children : Nat)
  | seriesSelectWithoutList
  | seriesNameWithoutToken
  | groupedSelectWithoutList
  | selectWithoutList
  | selectStartsWith (kind : Kind)
  | countMissing (clause : CountClause)
  | fromWithoutTable
  /-- A node that is no item, in a select list. -/
  | strayItem (kind : Kind)
  | pushDownTarget
  | callWithoutName
  | derivedWithoutExpression
  | resolvedWithoutPosition
  | literalWithoutToken
  | literalToken (kind : TokenKind)
  | other (text : String)
  deriving DecidableEq, Repr

namespace Malformation

def text : Malformation → String
  | seriesArity children =>
    "SERIES expects a name and a select, got " ++ Numeral.writeNat children ++ " children"
  | seriesSelectWithoutList => "SERIES select without select list"
  | seriesNameWithoutToken => "series name without token"
  | groupedSelectWithoutList => "grouped SELECT without select list"
  | selectWithoutList => "SELECT without select list"
  | selectStartsWith kind => "SELECT starts with " ++ kind.heading ++ " instead of a select list"
  | countMissing clause => clause.keyword ++ " without a count"
  | fromWithoutTable => "FROM without table name"
  | strayItem kind => kind.heading ++ " node in select list"
  | pushDownTarget => "push-down target is not a select list"
  | callWithoutName => "method call without name"
  | derivedWithoutExpression => "derived column without expression"
  | resolvedWithoutPosition => "resolved column without index"
  | literalWithoutToken => "literal without token"
  | literalToken kind => "literal with " ++ kind.heading ++ " token"
  | other text => text

end Malformation

/-- Expressions that are evaluated without state between rows. -/
inductive StatelessPlace where
  | scanSelectList
  | groupKeys
  | seriesName
  | other (text : String)
  deriving DecidableEq, Repr

def StatelessPlace.text : StatelessPlace → String
  | scanSelectList => "table scan select list"
  | groupKeys => "group expression"
  | seriesName => "series name expression"
  | other text => text

/-- Disagreements between parser, symbols and planner. -/
inductive Defect where
  | unknownSymbol (name : String)
  | unknownChart (token : String)
  /-- An aggregate where none can be evaluated, and the bytes it needs. -/
  | scratchpadNeeded (place : StatelessPlace) (bytes : Nat)
  | noBuilder (statement : String)
  | malformed (cause : Malformation)
  deriving DecidableEq, Repr

namespace Defect

def text : Defect → String
  | unknownSymbol name => "no symbol registered for method call '" ++ name ++ "'"
  | unknownChart token => "unrecognized draw statement kind: " ++ token
  | scratchpadNeeded place bytes =>
    place.text ++ " must compile to zero scratchpad, got " ++ Numeral.writeNat bytes ++ " bytes"
  | noBuilder statement => "no plan builder accepted " ++ statement ++ " statement"
  | malformed cause => "malformed tree: " ++ cause.text

/-- The short name under which defects are counted. -/
def label : Defect → String
  | unknownSymbol _ => "unknown_symbol"
  | unknownChart _ => "unknown_draw_kind"
  | scratchpadNeeded _ _ => "nonzero_scratchpad"
  | noBuilder _ => "no_builder_matched"
  | malformed _ => "malformed_tree"

end Defect

/-- Why a statement gets no plan. -/
inductive PlanError where
  | invalidSettings (text : String)
  | rejected (cause : Rejection)
  | unsupported (cause : Unsupported)
  | defect (defect : Defect)
  deriving DecidableEq, Repr

namespace PlanError

def message : PlanError → String
  | invalidSettings text => "invalid configuration: " ++ text
  | rejected cause => "planning error: " ++ cause.text
  | unsupported cause => "unsupported: " ++ cause.text
  | defect d => "internal planner error: " ++ d.text

def defect? : PlanError → Option Defect
  | defect d => some d
  | _ => none

/-- A tree that no parser makes. -/
def malformed (cause : Malformation) : PlanError := .defect (.malformed cause)

end PlanError

/-- How planning ends without a plan. -/
inductive Stop where
  /-- With an error for the caller. -/
  | failed (error : PlanError)
  /-- At once, on a defect that the settings do not let through. -/
  | panicked (defect : Defect)
  /-- At once, when scratchpad sizes add up to more than a size can hold. -/
  | overflow
  /-- Without an end: a grouped SELECT whose rewriting is grouped again. -/
  | endless
  deriving DecidableEq, Repr

/-- A sequence of two steps succeeds exactly if both do, the second from the first's answer. -/
theorem bind_eq_ok_iff {x : Except ε α} {f : α → Except ε β} {b : β} :
    (x >>= f) = .ok b ↔ ∃ a, x = .ok a ∧ f a = .ok b := by
  cases x with
  | error e => simp [bind, Except.bind]
  | ok a => simp [bind, Except.bind]

end StatementPlan
