/-
The explanation of a plan shows the plan, but for what it does not tell: which calls are aggregates,
and the bytes of state that leaves need.  Each part of the text shows where it ends, and the name of
an operator tells how many lines are its own before those of its input.

`written_eq`: an explanation in one piece, with the indentation of its lines.
`explain_unambiguous`: plans are told apart by their explanations.
-/
import StatementPlan.Plan.Explain
import StatementPlan.Proofs.Expression.Text

namespace StatementPlan

/-- Without the bytes, which are not shown. -/
def Compiled.shown (c : Compiled) : Compiled := ⟨c.expr.shown, 0⟩

namespace Plan

/-- The plan as its explanation shows it: no call is an aggregate, no leaf needs state. -/
def shown : Plan → Plan
  | .tableScan table columns select predicate =>
    .tableScan table columns select.shown (predicate.map Compiled.shown)
  | .tablelessSelect columns select => .tablelessSelect columns select.shown
  | .limit count offset input => .limit count offset input.shown
  | .groupBy columns select keys scratchpad input =>
    .groupBy columns select.shown keys.shown scratchpad input.shown
  | .series columns name input => .series columns name.shown input.shown
  | .draw chart => .draw chart

theorem explainLines_shown (p : Plan) : p.shown.explainLines = p.explainLines := by
  induction p with
  | tableScan table columns select predicate =>
    cases predicate <;> simp [shown, explainLines, ownLines, Compiled.shown, Expr.text_shown]
  | tablelessSelect columns select =>
    simp [shown, explainLines, ownLines, Compiled.shown, Expr.text_shown]
  | limit count offset input ih => simp [shown, explainLines, ownLines, ih]
  | groupBy columns select keys scratchpad input ih =>
    simp [shown, explainLines, ownLines, Expr.text_shown, ih]
  | series columns name input ih => simp [shown, explainLines, ownLines, Expr.text_shown, ih]
  | draw chart => rfl

/-- A plan without binary numbers whose tables, columns and calls are named by identifiers. -/
inductive Legible : Plan → Prop
  | tableScan {table : String} {columns : List String} {select : Compiled} {predicate : Option Compiled}
      (sourced : Identifier table) (named : ∀ name ∈ columns, Identifier name)
      (selected : select.expr.Legible) (filtered : ∀ p ∈ predicate, p.expr.Legible) :
      Legible (.tableScan table columns select predicate)
  | tablelessSelect {columns : List String} {select : Compiled}
      (named : ∀ name ∈ columns, Identifier name) (selected : select.expr.Legible) :
      Legible (.tablelessSelect columns select)
  | limit (count offset : Nat) {input : Plan} (below : Legible input) : Legible (.limit count offset input)
  | groupBy {columns : List String} {select keys : Expr} (named : ∀ name ∈ columns, Identifier name)
      (selected : select.Legible) (grouped : keys.Legible) (scratchpad : Nat) {input : Plan}
      (below : Legible input) : Legible (.groupBy columns select keys scratchpad input)
  | series {columns : List String} {name : Expr} (named : ∀ name ∈ columns, Identifier name)
      (labelled : name.Legible) {input : Plan} (below : Legible input) :
      Legible (.series columns name input)
  | draw (chart : Chart) : Legible (.draw chart)

/-- How the first line of an operator starts. -/
def label : Plan → String
  | .tableScan .. => "TableScan table="
  | .tablelessSelect .. => "TablelessSelect columns="
  | .limit .. => "Limit n="
  | .groupBy .. => "GroupBy columns="
  | .series .. => "Series columns="
  | .draw _ => "Draw chart="

def labels : List String :=
  ["TableScan table=", "TablelessSelect columns=", "Limit n=", "GroupBy columns=", "Series columns=",
    "Draw chart="]

/-- A line below it: an indentation, a label, an expression. -/
def detail (pad : List Char) (label : String) (e : Expr) (rest : List Char) : List Char :=
  pad ++ (label.toList ++ (e.chars ++ '\n' :: rest))

/-- The names of columns. -/
def names (columns : List String) (rest : List Char) : List Char :=
  '[' :: separated (columns.map String.toList) ']' rest

/-- What follows the label of an operator, with the lines that come after it indented. -/
def afterLabel (pad : List Char) : Plan → List Char
  | .tableScan table columns select predicate =>
    table.toList ++ (" columns=".toList ++ names columns ('\n' :: detail pad "  select=" select.expr
      (predicate.elim [] fun p => detail pad "  where=" p.expr [])))
  | .tablelessSelect columns select => names columns ('\n' :: detail pad "  select=" select.expr [])
  | .limit count offset input =>
    Nat.toDigits 10 count ++ (" offset=".toList ++ (Nat.toDigits 10 offset ++ '\n' ::
      (pad ++ ("  ".toList ++ (input.label.toList ++ input.afterLabel (pad ++ "  ".toList))))))
  | .groupBy columns select keys scratchpad input =>
    names columns (" scratchpad=".toList ++ (Nat.toDigits 10 scratchpad ++
      '\n' :: detail pad "  select=" select (detail pad "  group=" keys
        (pad ++ ("  ".toList ++ (input.label.toList ++ input.afterLabel (pad ++ "  ".toList)))))))
  | .series columns name input =>
    names columns ('\n' :: detail pad "  name=" name
      (pad ++ ("  ".toList ++ (input.label.toList ++ input.afterLabel (pad ++ "  ".toList)))))
  | .draw chart => chart.text.toList ++ ['\n']

/-- An explanation with its lines indented. -/
def written (pad : List Char) (p : Plan) : List Char := pad ++ (p.label.toList ++ p.afterLabel pad)

/-- Lines with their indentation. -/
def indented (pad : List Char) (lines : List String) : List Char :=
  lines.flatMap fun line => pad ++ (line.toList ++ ['\n'])

theorem indented_cons (pad : List Char) (line : String) (lines : List String) :
    indented pad (line :: lines) = pad ++ (line.toList ++ '\n' :: indented pad lines) := by
  simp [indented]

theorem indented_map (pad : List Char) (lines : List String) :
    indented pad (lines.map ("  " ++ ·)) = indented (pad ++ "  ".toList) lines := by
  simp [indented, List.flatMap_map]

theorem indented_detail (pad : List Char) (label : String) (e : Expr) (lines : List String) :
    indented pad ((label ++ e.text) :: lines) = detail pad label e (indented pad lines) := by
  rw [indented_cons, String.toList_append, List.append_assoc]
  rfl

theorem names_eq (columns : List String) (rest : List Char) :
    (bracketed columns).toList ++ rest = names columns rest := by
  simp [bracketed, names, separated]

theorem written_eq (p : Plan) (pad : List Char) : p.written pad = indented pad p.explainLines := by
  induction p generalizing pad with
  | tableScan table columns select predicate =>
    change _ = indented pad (ownLines _)
    rw [ownLines, indented_cons, indented_detail]
    simp only [written, afterLabel, String.toList_append, List.append_assoc]
    rw [names_eq]
    cases predicate with
    | none => rfl
    | some p =>
      rw [Option.toList_some, List.map_cons, indented_detail]
      rfl
  | tablelessSelect columns select =>
    change _ = indented pad (ownLines _)
    rw [ownLines, indented_cons, indented_detail, String.toList_append, List.append_assoc, names_eq]
    rfl
  | limit count offset input ih =>
    rw [explainLines, ownLines, List.singleton_append, indented_cons, indented_map, ← ih]
    simp only [written, afterLabel, String.toList_append, List.append_assoc, Numeral.toList_writeNat]
    rfl
  | groupBy columns select keys scratchpad input ih =>
    rw [explainLines, ownLines, List.cons_append, List.cons_append, List.singleton_append,
      indented_cons, indented_detail, indented_detail, indented_map, ← ih]
    simp only [written, afterLabel, String.toList_append, List.append_assoc, Numeral.toList_writeNat]
    rw [names_eq]
    rfl
  | series columns name input ih =>
    rw [explainLines, ownLines, List.cons_append, List.singleton_append, indented_cons,
      indented_detail, indented_map, ← ih]
    simp only [written, afterLabel, String.toList_append, List.append_assoc]
    rw [names_eq]
    rfl
  | draw chart =>
    change _ = indented pad (ownLines _)
    rw [ownLines, indented_cons, String.toList_append, List.append_assoc]
    rfl

theorem toList_explain (p : Plan) : p.explain.toList = p.written [] := by
  rw [written_eq, explain, String.toList_join, List.flatMap_map]
  simp [indented]

/-- No label is the start of another one. -/
theorem label_eq {p q : Plan} {rest rest' : List Char}
    (same : p.label.toList ++ rest = q.label.toList ++ rest') : p.label = q.label := by
  have all : ∀ p : Plan, p.label ∈ labels := fun p => by cases p <;> simp [label, labels]
  have apart : ∀ l ∈ labels, ∀ l' ∈ labels, l.toList <+: l'.toList → l = l' := by decide +kernel
  have start : p.label.toList <+: p.label.toList ++ rest := List.prefix_append _ _
  have start' : q.label.toList <+: p.label.toList ++ rest := ⟨rest', same.symm⟩
  rcases List.prefix_or_prefix_of_prefix start start' with first | first
  · exact apart _ (all p) _ (all q) first
  · exact (apart _ (all q) _ (all p) first).symm

theorem detail_inj {pad : List Char} {label : String} {e e' : Expr} {rest rest' : List Char}
    (legible : e.Legible) (legible' : e'.Legible)
    (same : detail pad label e rest = detail pad label e' rest') : e.shown = e'.shown ∧ rest = rest' := by
  have line := List.append_cancel_left (List.append_cancel_left same)
  obtain ⟨shown, ending⟩ := legible.toldApart legible' (atEnd_cons (by decide) _)
    (atEnd_cons (by decide) _) line
  exact ⟨shown, (List.cons.inj ending).2⟩

theorem names_inj {columns columns' : List String} {rest rest' : List Char}
    (named : ∀ name ∈ columns, Identifier name) (named' : ∀ name ∈ columns', Identifier name)
    (same : names columns rest = names columns' rest') : columns = columns' ∧ rest = rest' :=
  separated_names_inj named named' (List.cons.inj same).2

theorem digits_inj {m n : Nat} {rest rest' : List Char} (ends : AtEnd rest) (ends' : AtEnd rest')
    (same : Nat.toDigits 10 m ++ rest = Nat.toDigits 10 n ++ rest') : m = n ∧ rest = rest' := by
  have inside : ∀ n, ∀ c ∈ Nat.toDigits 10 n, inWord c = true := fun n c mem =>
    inWord_of_isDigit (Nat.isDigit_of_mem_toDigits (by decide) (by decide) mem)
  obtain ⟨digits, ending⟩ := run_append_inj (inside m) (inside n) ends.stops ends'.stops same
  have read := congrArg Numeral.digits? digits
  rw [Numeral.digits?_toDigits, Numeral.digits?_toDigits] at read
  exact ⟨Option.some.inj read, ending⟩

theorem chart_text_inj {chart chart' : Chart} (same : chart.text = chart'.text) : chart = chart' := by
  cases chart <;> cases chart' <;> first | rfl | simp [Chart.text] at same

theorem input_inj {pad : List Char} {input input' : Plan}
    (same : pad ++ ("  ".toList ++ (input.label.toList ++ input.afterLabel (pad ++ "  ".toList))) =
      pad ++ ("  ".toList ++ (input'.label.toList ++ input'.afterLabel (pad ++ "  ".toList)))) :
    input.written (pad ++ "  ".toList) = input'.written (pad ++ "  ".toList) := by
  rw [written, written, List.append_assoc, List.append_assoc, same]

theorem where_inj {pad : List Char} {predicate predicate' : Option Compiled}
    (filtered : ∀ p ∈ predicate, p.expr.Legible) (filtered' : ∀ p ∈ predicate', p.expr.Legible)
    (same : (predicate.elim [] fun p => detail pad "  where=" p.expr []) =
      predicate'.elim [] fun p => detail pad "  where=" p.expr []) :
    predicate.map Compiled.shown = predicate'.map Compiled.shown := by
  have some : ∀ e, [] ≠ detail pad "  where=" e [] := fun e empty => by
    simpa [detail] using congrArg List.length empty
  cases predicate with
  | none =>
    cases predicate' with
    | none => rfl
    | some p => exact absurd same (some p.expr)
  | some p =>
    cases predicate' with
    | none => exact absurd same.symm (some p.expr)
    | some p' =>
      obtain ⟨shown, -⟩ := detail_inj (filtered p rfl) (filtered' p' rfl) same
      rw [Option.map_some, Option.map_some, Compiled.shown, Compiled.shown, shown]

/-- With the same indentation, the text of a plan shows it. -/
theorem Legible.written {p q : Plan} (legible : p.Legible) (legible' : q.Legible) {pad : List Char}
    (same : p.written pad = q.written pad) : p.shown = q.shown := by
  -- on the plan, at any indentation: the lines of its input are those of a plan that is indented further
  induction legible generalizing q pad with
  | tableScan sourced named selected filtered =>
    have line := List.append_cancel_left same
    have labels := label_eq line
    cases legible' with
    | tableScan sourced' named' selected' filtered' =>
      obtain ⟨rfl, columns⟩ := sourced.append_inj sourced' (atEnd_append (by decide +kernel) _)
        (atEnd_append (by decide +kernel) _) (List.append_cancel_left line)
      obtain ⟨rfl, ending⟩ := names_inj named named' (List.append_cancel_left columns)
      obtain ⟨select, conditions⟩ := detail_inj selected selected' (List.cons.inj ending).2
      rw [shown, shown, Compiled.shown, Compiled.shown, select, where_inj filtered filtered' conditions]
    | _ => simp [label] at labels
  | tablelessSelect named selected =>
    have line := List.append_cancel_left same
    have labels := label_eq line
    cases legible' with
    | tablelessSelect named' selected' =>
      obtain ⟨rfl, ending⟩ := names_inj named named' (List.append_cancel_left line)
      obtain ⟨select, -⟩ := detail_inj selected selected' (List.cons.inj ending).2
      rw [shown, shown, Compiled.shown, Compiled.shown, select]
    | _ => simp [label] at labels
  | limit count offset below ih =>
    have line := List.append_cancel_left same
    have labels := label_eq line
    cases legible' with
    | limit count' offset' below' =>
      obtain ⟨rfl, offsets⟩ := digits_inj (atEnd_append (by decide +kernel) _)
        (atEnd_append (by decide +kernel) _) (List.append_cancel_left line)
      obtain ⟨rfl, ending⟩ := digits_inj (atEnd_cons (by decide) _) (atEnd_cons (by decide) _)
        (List.append_cancel_left offsets)
      rw [shown, shown, ih below' (input_inj (List.cons.inj ending).2)]
    | _ => simp [label] at labels
  | groupBy named selected grouped scratchpad below ih =>
    have line := List.append_cancel_left same
    have labels := label_eq line
    cases legible' with
    | groupBy named' selected' grouped' scratchpad' below' =>
      obtain ⟨rfl, bytes⟩ := names_inj named named' (List.append_cancel_left line)
      obtain ⟨rfl, ending⟩ := digits_inj (atEnd_cons (by decide) _) (atEnd_cons (by decide) _)
        (List.append_cancel_left bytes)
      obtain ⟨select, more⟩ := detail_inj selected selected' (List.cons.inj ending).2
      obtain ⟨keys, inputs⟩ := detail_inj grouped grouped' more
      rw [shown, shown, select, keys, ih below' (input_inj inputs)]
    | _ => simp [label] at labels
  | series named labelled below ih =>
    have line := List.append_cancel_left same
    have labels := label_eq line
    cases legible' with
    | series named' labelled' below' =>
      obtain ⟨rfl, ending⟩ := names_inj named named' (List.append_cancel_left line)
      obtain ⟨name, inputs⟩ := detail_inj labelled labelled' (List.cons.inj ending).2
      rw [shown, shown, name, ih below' (input_inj inputs)]
    | _ => simp [label] at labels
  | draw chart =>
    have line := List.append_cancel_left same
    have labels := label_eq line
    cases legible' with
    | draw chart' =>
      have texts := List.append_cancel_right (List.append_cancel_left line)
      rw [chart_text_inj (String.toList_inj.1 texts)]
    | _ => simp [label] at labels

/-- Two plans without binary numbers whose names are identifiers have one explanation exactly if
they are the same but for the calls that are aggregates and the bytes that leaves need. -/
theorem explain_unambiguous {p q : Plan} (legible : p.Legible) (legible' : q.Legible) :
    p.explain = q.explain ↔ p.shown = q.shown := by
  constructor
  · intro same
    have texts : p.written [] = q.written [] := by rw [← toList_explain, ← toList_explain, same]
    exact legible.written legible' texts
  · intro same
    rw [explain, explain, ← explainLines_shown p, ← explainLines_shown q, same]

/-- The cities of sales, counted where the note is a text. -/
def counted (aggregate : Bool) (bytes : Nat) (text : String) : Plan :=
  .groupBy ["city", "count"] (.list [.column 0, .call "count" aggregate [.column 1]])
    (.list [.column 0]) 8
    (.tableScan "sales" ["city", "note"] ⟨.list [.column 0, .column 2], bytes⟩
      (some ⟨.call "eq" false [.column 2, .literal (.utf8 text)], bytes⟩))

theorem counted_legible (aggregate : Bool) (bytes : Nat) (text : String) :
    (counted aggregate bytes text).Legible := by
  have city : Identifier "city" := ⟨by decide, by simp, by simp⟩
  have count : Identifier "count" := ⟨by decide, by simp, by simp⟩
  have note : Identifier "note" := ⟨by decide, by simp, by simp⟩
  have sales : Identifier "sales" := ⟨by decide, by simp, by simp⟩
  have eq : Identifier "eq" := ⟨by decide, by simp, by simp⟩
  have items : (Expr.list [.column 0, .call "count" aggregate [.column 1]]).Legible :=
    .list (by simpa using ⟨.column 0, .call count aggregate (by simpa using .column 1)⟩)
  have condition : (Expr.call "eq" false [.column 2, .literal (.utf8 text)]).Legible :=
    .call eq false (by simpa using ⟨.column 2, .utf8 text⟩)
  have columns : (Expr.list [.column 0, .column 2]).Legible :=
    .list (by simpa using ⟨.column 0, .column 2⟩)
  exact .groupBy (by simp [city, count]) items (.list (by simpa using .column 0)) 8
    (.tableScan sales (by simp [city, note]) columns (by simpa using condition))

/-- A text in quotes may look like the rest of the plan. -/
theorem explain_unambiguous_counted :
    (counted true 0 "\"]\n  group=[#1").explain = (counted false 16 "\"]\n  group=[#1").explain ∧
      (counted true 0 "\"]\n  group=[#1").explain ≠ (counted true 0 "]\n  group=[#1").explain :=
  ⟨(explain_unambiguous (counted_legible _ _ _) (counted_legible _ _ _)).2 rfl, fun same =>
    absurd ((explain_unambiguous (counted_legible _ _ _) (counted_legible _ _ _)).1 same) (by decide)⟩

end Plan

end StatementPlan
