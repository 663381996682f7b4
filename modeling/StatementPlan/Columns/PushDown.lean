/-
Pushing columns down into a select list.  Every column name of an expression becomes a
reference to an item of a target list, which gets the column as a new item at its end; a
target that shares slots lets equal columns use the first item that consists of the column.

The walk goes from left to right and ends at the first column that finds no select list to go
to.

`place_accepted`, `apply_accepted`: into a select list, every column goes.
-/
import StatementPlan.Tree.Build

namespace StatementPlan

/-- How columns are pushed down, and how many were so far: into new items and into shared
ones. -/
structure PushDown where
  shared : Bool
  inserted : Nat := 0
  reused : Nat := 0
  deriving DecidableEq, Repr

/-- What a push-down leaves: whether every column found a place, the rewritten expressions, the
target and the counts. -/
structure Pushed (α : Type) where
  accepted : Bool
  rewritten : α
  target : Node
  counts : PushDown

namespace PushDown

/-- The first item of a list that consists of the reference. -/
def slot? (target reference : Node) : Option Nat :=
  target.children.findIdx? fun item =>
    item.kind == .derivedColumn && item.children.head? == some reference

/-- Pushes one column name. -/
def place (p : PushDown) (reference target : Node) : Pushed Node :=
  if target.kind = .selectList then
    match if p.shared then slot? target reference else none with
    | some position =>
      ⟨true, reference.resolveTo position, target, { p with reused := p.reused + 1 }⟩
    | none =>
      ⟨true, reference.resolveTo target.children.length, target.append (.derived reference),
        { p with inserted := p.inserted + 1 }⟩
  else ⟨false, reference, target, p⟩

mutual

/-- Pushes the column names of an expression. -/
def apply : PushDown → Node → Node → Pushed Node
  | p, ⟨kind, token, children, id⟩, target =>
    if kind = .columnName then p.place ⟨kind, token, children, id⟩ target
    else
      let below := applyAll p children target
      ⟨below.accepted, ⟨kind, token, below.rewritten, id⟩, below.target, below.counts⟩

/-- Pushes the column names of expressions in a row, up to the first one that is refused. -/
def applyAll : PushDown → List Node → Node → Pushed (List Node)
  | p, [], target => ⟨true, [], target, p⟩
  | p, c :: rest, target =>
    let first := apply p c target
    if first.accepted then
      let others := applyAll first.counts rest first.target
      ⟨others.accepted, first.rewritten :: others.rewritten, others.target, others.counts⟩
    else ⟨false, first.rewritten :: rest, first.target, first.counts⟩

end

theorem place_accepted (p : PushDown) (reference : Node) {target : Node}
    (h : target.kind = .selectList) :
    (p.place reference target).accepted = true ∧
      (p.place reference target).target.kind = .selectList := by
  rw [place, if_pos h]
  split
  · exact ⟨rfl, h⟩
  · exact ⟨rfl, h⟩

mutual

theorem apply_accepted : ∀ (p : PushDown) (n : Node) {target : Node}, target.kind = .selectList →
    (apply p n target).accepted = true ∧ (apply p n target).target.kind = .selectList
  | p, ⟨kind, token, children, id⟩, target, h => by
    rw [apply]
    split
    · exact place_accepted p _ h
    · exact applyAll_accepted p children h

theorem applyAll_accepted : ∀ (p : PushDown) (ns : List Node) {target : Node},
    target.kind = .selectList →
    (applyAll p ns target).accepted = true ∧ (applyAll p ns target).target.kind = .selectList
  | _, [], _, h => ⟨rfl, h⟩
  | p, c :: rest, target, h => by
    have first := apply_accepted p c h
    have others := applyAll_accepted (apply p c target).counts rest first.2
    simp only [applyAll, first.1, if_true]
    exact others

end

end PushDown

end StatementPlan
