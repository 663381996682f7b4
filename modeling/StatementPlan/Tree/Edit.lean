/-
Edits of the children of a node, and of a node somewhere in a tree.  An edit at a position
that does not exist fails and changes nothing; so does one below a path that leads nowhere.
-/
import StatementPlan.Tree.Node

namespace StatementPlan

/-- Why an edit is refused. -/
inductive EditFailure where
  /-- The path names a child that is not there. -/
  | noSuchPath
  /-- The node is there, but has no child at the position. -/
  | outOfRange
  deriving DecidableEq, Repr

namespace Node

/-- The child at a position. -/
def child? (n : Node) (position : Nat) : Option Node := n.children[position]?

/-- The node with a child put before the one at `position`, or at the end. -/
def insertChild? (n : Node) (position : Nat) (child : Node) : Option Node :=
  if position ≤ n.children.length then
    some { n with children := n.children.insertIdx position child }
  else none

/-- The child at a position, and the node without it. -/
def removeChild? (n : Node) (position : Nat) : Option (Node × Node) :=
  (n.child? position).map fun old => (old, { n with children := n.children.eraseIdx position })

/-- The child at a position, and the node with another one in its place. -/
def replaceChild? (n : Node) (position : Nat) (child : Node) : Option (Node × Node) :=
  (n.child? position).map fun old => (old, { n with children := n.children.set position child })

/-- The node with two children exchanged. -/
def swapChildren? (n : Node) (i j : Nat) : Option Node :=
  match n.child? i, n.child? j with
  | some a, some b => some { n with children := (n.children.set i b).set j a }
  | _, _ => none

/-- Applies an edit that also answers something to the node at a path. -/
def editAt (edit : Node → Except EditFailure (α × Node)) :
    List Nat → Node → Except EditFailure (α × Node)
  | [], n => edit n
  | position :: path, n =>
    match n.child? position with
    | none => .error .noSuchPath
    | some child =>
      match editAt edit path child with
      | .error failure => .error failure
      | .ok (answer, changed) =>
        .ok (answer, { n with children := n.children.set position changed })

/-- An edit that fails at positions out of range. -/
def inRange : Option (α × Node) → Except EditFailure (α × Node)
  | some answer => .ok answer
  | none => .error .outOfRange

end Node

end StatementPlan
