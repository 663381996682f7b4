/-
Outlines: a tree as text, one line for each node, every child two blanks deeper than its
parent.  A line shows the kind, then the token and the position if the node has them.
-/
import StatementPlan.Tree.Node
import StatementPlan.Text.Numeral

namespace StatementPlan.Node

/-- Two blanks for each level. -/
def indentation (level : Nat) : String :=
  String.ofList (List.replicate (2 * level) ' ')

/-- The line of one node, without its indentation. -/
def headline (kind : Kind) (token : Option Token) (id : Option Nat) : String :=
  kind.heading ++
    (match token with
      | some t => " " ++ t.shown
      | none => "") ++
    (match id with
      | some position => " #" ++ Numeral.writeNat position
      | none => "")

mutual

/-- The lines of a tree whose root is at `level`. -/
def lines (level : Nat) : Node → List String
  | ⟨kind, token, children, id⟩ =>
    (indentation level ++ headline kind token id) :: linesAll (level + 1) children

def linesAll (level : Nat) : List Node → List String
  | [] => []
  | c :: rest => lines level c ++ linesAll level rest

end

/-- The outline of a tree; every line ends in a line feed. -/
def outline (n : Node) : String :=
  String.join ((lines 0 n).map (· ++ "\n"))

end StatementPlan.Node
