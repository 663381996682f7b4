/-
Statement trees.  A node has a kind, perhaps a token, its children in order and, once it
stands for a column by position, that position.

`induct`: what holds of a node whenever it holds of its children holds of every node.
`contains_iff`: a tree contains a node exactly if the node is among its `subtrees`.
-/
import StatementPlan.Tree.Kind
import StatementPlan.Tree.Token

namespace StatementPlan

/-- A node of a statement tree. -/
structure Node where
  kind : Kind
  token : Option Token := none
  children : List Node := []
  id : Option Nat := none
  deriving Repr

namespace Node

/-- Induction over a tree, with the claim at hand for every child. -/
theorem induct {motive : Node → Prop}
    (node : ∀ n : Node, (∀ c ∈ n.children, motive c) → motive n) (n : Node) : motive n :=
  @Node.rec motive (fun children => ∀ c ∈ children, motive c)
    (fun kind token children id h => node ⟨kind, token, children, id⟩ h)
    (fun _ h => absurd h (List.not_mem_nil))
    (fun _ _ head tail c h => by
      cases h with
      | head => exact head
      | tail _ h => exact tail c h) n

mutual

/-- Equality of trees is decidable. -/
def decEq : (a b : Node) → Decidable (a = b)
  | ⟨k, t, cs, i⟩, ⟨k', t', cs', i'⟩ =>
    if head : k = k' ∧ t = t' ∧ i = i' then
      match decEqAll cs cs' with
      | .isTrue h => .isTrue (by rw [head.1, head.2.1, head.2.2, h])
      | .isFalse h => .isFalse fun e => h (by injection e)
    else .isFalse fun e => head (by injection e with h₁ h₂ _ h₄; exact ⟨h₁, h₂, h₄⟩)

def decEqAll : (as bs : List Node) → Decidable (as = bs)
  | [], [] => .isTrue rfl
  | [], _ :: _ => .isFalse nofun
  | _ :: _, [] => .isFalse nofun
  | a :: as, b :: bs =>
    match decEq a b, decEqAll as bs with
    | .isTrue h, .isTrue hs => .isTrue (by rw [h, hs])
    | .isFalse h, _ => .isFalse fun e => h (by injection e)
    | _, .isFalse hs => .isFalse fun e => hs (by injection e)

end

instance : DecidableEq Node := decEq

/-- The text of the token. -/
def text? (n : Node) : Option String := n.token.map Token.text

/-- The first child of a kind. -/
def findChild? (n : Node) (kind : Kind) : Option Node :=
  n.children.find? fun c => c.kind == kind

/-- The position of the first child of a kind. -/
def positionOf? (n : Node) (kind : Kind) : Option Nat :=
  n.children.findIdx? fun c => c.kind == kind

/-- There is a child of the kind. -/
def hasChild (n : Node) (kind : Kind) : Bool :=
  n.children.any fun c => c.kind == kind

/-- The node as a reference to a position; its token and children stay. -/
def resolveTo (n : Node) (position : Nat) : Node :=
  { n with kind := .resolvedColumn, id := some position }

/-- The node with one more child at the end. -/
def append (n child : Node) : Node :=
  { n with children := n.children ++ [child] }

mutual

/-- The nodes of a tree, each before its children and these in order. -/
def subtrees : Node → List Node
  | ⟨kind, token, children, id⟩ => ⟨kind, token, children, id⟩ :: subtreesAll children

def subtreesAll : List Node → List Node
  | [] => []
  | c :: rest => subtrees c ++ subtreesAll rest

end

mutual

/-- The test holds of some node of the tree. -/
def contains (test : Node → Bool) : Node → Bool
  | ⟨kind, token, children, id⟩ =>
    test ⟨kind, token, children, id⟩ || containsAny test children

def containsAny (test : Node → Bool) : List Node → Bool
  | [] => false
  | c :: rest => contains test c || containsAny test rest

end

mutual

theorem contains_eq_any (test : Node → Bool) :
    ∀ n : Node, contains test n = n.subtrees.any test
  | ⟨kind, token, children, id⟩ => by
    simp [contains, subtrees, containsAny_eq_any test children]

theorem containsAny_eq_any (test : Node → Bool) :
    ∀ ns : List Node, containsAny test ns = (subtreesAll ns).any test
  | [] => rfl
  | c :: rest => by
    simp [containsAny, subtreesAll, contains_eq_any test c, containsAny_eq_any test rest]

end

theorem contains_iff (test : Node → Bool) (n : Node) :
    contains test n = true ↔ ∃ m ∈ n.subtrees, test m = true := by
  rw [contains_eq_any, List.any_eq_true]

theorem mem_subtreesAll {m : Node} {ns : List Node} :
    m ∈ subtreesAll ns ↔ ∃ c ∈ ns, m ∈ c.subtrees := by
  induction ns with
  | nil => simp [subtreesAll]
  | cons c rest ih => simp [subtreesAll, ih]

theorem self_mem_subtrees (n : Node) : n ∈ n.subtrees := by
  cases n
  simp [subtrees]

theorem subtrees_child {n c : Node} (mem : c ∈ n.children) {m : Node} (h : m ∈ c.subtrees) :
    m ∈ n.subtrees := by
  cases n
  simp only [subtrees, List.mem_cons, mem_subtreesAll]
  exact .inr ⟨c, mem, h⟩

end Node

end StatementPlan
