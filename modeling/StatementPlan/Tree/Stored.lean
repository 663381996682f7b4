/-
Trees as documents.  A node is a record of its kind, token, children and position; what a
node lacks is left out.  In reading, a token or position may also be null, children may be
missing but not null, and a token needs both its fields.  A node or token may also be given as
the list of its values; a node needs no more than its kind.

`lookup_kind`, `lookup_token`, `lookup_id`: where a stored node keeps what it has.
-/
import StatementPlan.Document
import StatementPlan.Tree.Node

namespace StatementPlan

def Token.toDocument (token : Token) : Document :=
  .record [("kind", .text token.kind.name), ("text", .text token.text)]

/-- The order of a stored token. -/
def Token.layout : Document.Layout := { needed := ["kind", "text"] }

def Token.ofDocument? (d : Document) : Option Token := do
  let fields ← d.fields? layout
  let kind ← Document.required? fields "kind" fun d => d.name?.bind TokenKind.ofName?
  let text ← Document.required? fields "text" Document.text?
  return ⟨kind, text⟩

namespace Node

/-- The fields of a node whose children are stored already. -/
def fields (kind : Kind) (token : Option Token) (children : List Document) (id : Option Nat) :
    List (String × Document) :=
  ("kind", .text kind.name) ::
    ((token.toList.map fun t => ("token", t.toDocument)) ++
    (if children.isEmpty then [] else [("children", .list children)]) ++
    id.toList.map fun position => ("id", .size position))

mutual

/-- The stored form of a tree. -/
def toDocument : Node → Document
  | ⟨kind, token, children, id⟩ => .record (fields kind token (toDocuments children) id)

def toDocuments : List Node → List Document
  | [] => []
  | c :: rest => toDocument c :: toDocuments rest

end

/-- The order of a stored node. -/
def layout : Document.Layout where
  needed := ["kind"]
  omissible := ["token", "children", "id"]

/-- The node of these fields, over children that are read already. -/
def ofFields? (fields : List (String × Document)) (children : Option (List Node)) :
    Option Node := do
  let kind ← Document.required? fields "kind" fun d => d.name?.bind Kind.ofName?
  let token ← Document.optional? fields "token" Token.ofDocument?
  let children ← children
  let id ← Document.optional? fields "id" Document.size?
  return { kind, token, children, id }

mutual

/-- The tree a document stores. -/
def ofDocument? : Document → Option Node
  | .record fields => ofFields? fields (childrenOf? fields)
  | .list values =>
    if layout.admits values then
      ofFields? (layout.names.zip values) (childrenAmong? layout.names values)
    else none
  | _ => none

/-- The nodes in the first field named for children. -/
def childrenOf? : List (String × Document) → Option (List Node)
  | [] => some []
  | (key, value) :: rest => if key = "children" then listOf? value else childrenOf? rest

/-- The nodes in the value whose place is named for children. -/
def childrenAmong? : List String → List Document → Option (List Node)
  | name :: names, value :: values =>
    if name = "children" then listOf? value else childrenAmong? names values
  | _, _ => some []

def listOf? : Document → Option (List Node)
  | .list items => ofDocuments? items
  | _ => none

def ofDocuments? : List Document → Option (List Node)
  | [] => some []
  | d :: rest => do
    let n ← ofDocument? d
    let ns ← ofDocuments? rest
    return n :: ns

end

/-- Every position in the tree is within the limit of sizes. -/
def Storable (n : Node) : Prop :=
  ∀ m ∈ n.subtrees, ∀ position, m.id = some position → position < Numeral.sizeLimit

theorem Storable.root {n : Node} (h : n.Storable) {position : Nat} (here : n.id = some position) :
    position < Numeral.sizeLimit :=
  h n n.self_mem_subtrees position here

theorem Storable.child {n c : Node} (h : n.Storable) (mem : c ∈ n.children) : c.Storable :=
  fun m below => h m (subtrees_child mem below)

theorem lookup_kind (kind : Kind) (token : Option Token) (children : List Document)
    (id : Option Nat) :
    (fields kind token children id).lookup "kind" = some (.text kind.name) := by
  simp [fields]

theorem lookup_token (kind : Kind) (token : Option Token) (children : List Document)
    (id : Option Nat) :
    (fields kind token children id).lookup "token" = token.map Token.toDocument := by
  cases token <;> cases id <;> cases children <;> simp [fields, List.lookup_cons]

theorem lookup_id (kind : Kind) (token : Option Token) (children : List Document)
    (id : Option Nat) :
    (fields kind token children id).lookup "id" = id.map Document.size := by
  cases token <;> cases id <;> cases children <;> simp [fields, List.lookup_cons]

end Node

end StatementPlan
