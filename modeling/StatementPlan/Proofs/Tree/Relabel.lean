/-
Trees with other texts at their nodes.  A relabelling rewrites the token of a node as its kind
tells; the shape of the tree, its kinds and its positions stay.  What is found in a relabelled tree
is what is found in the tree, relabelled, and the same holds of what planning puts together from its
parts.

`subtrees_relabel`: the nodes of a relabelled tree.
`findChild?_relabel`, `selectList?_relabel`: the parts of a statement.
`callsAggregate_relabel`: the search for aggregate calls.
`groupKeys_relabel`, `ungrouped_relabel`, `withoutFirstLimit_relabel`: what is planned below it.
-/
import StatementPlan.Proofs.Planning.Course

namespace StatementPlan

namespace Node

mutual

/-- The tree with its tokens rewritten. -/
def relabel (label : Kind → Token → Token) : Node → Node
  | ⟨kind, token, children, id⟩ => ⟨kind, token.map (label kind), relabelAll label children, id⟩

def relabelAll (label : Kind → Token → Token) : List Node → List Node
  | [] => []
  | c :: rest => relabel label c :: relabelAll label rest

end

variable {label : Kind → Token → Token}

theorem relabelAll_eq_map (ns : List Node) : relabelAll label ns = ns.map (relabel label) := by
  induction ns with
  | nil => rfl
  | cons c rest ih => rw [relabelAll, ih, List.map_cons]

theorem relabel_mk (kind : Kind) (token : Option Token) (children : List Node) (id : Option Nat) :
    relabel label ⟨kind, token, children, id⟩ =
      ⟨kind, token.map (label kind), children.map (relabel label), id⟩ := by
  rw [relabel, relabelAll_eq_map]

@[simp] theorem relabel_kind (n : Node) : (n.relabel label).kind = n.kind := by
  cases n
  rfl

@[simp] theorem relabel_token (n : Node) : (n.relabel label).token = n.token.map (label n.kind) := by
  cases n
  rfl

@[simp] theorem relabel_children (n : Node) :
    (n.relabel label).children = n.children.map (relabel label) := by
  cases n
  exact relabelAll_eq_map _

/-- A kind of node may keep its token. -/
theorem relabel_kept {n : Node} (kept : ∀ token, label n.kind token = token) :
    (n.relabel label).token = n.token := by
  rw [relabel_token, funext kept, Option.map_id']

theorem text?_relabel {n : Node} (kept : ∀ token, label n.kind token = token) :
    (n.relabel label).text? = n.text? := by
  rw [text?, text?, relabel_kept kept]

theorem relabel_self (kept : ∀ kind token, label kind token = token) (n : Node) :
    n.relabel label = n := by
  refine Node.induct (motive := fun n => n.relabel label = n) ?_ n
  intro n ih
  obtain ⟨kind, token, children, id⟩ := n
  have below : children.map (relabel label) = children := by
    rw [List.map_congr_left ih, List.map_id']
  rw [relabel_mk, below, funext (kept kind), Option.map_id']

/-- To relabel twice by a rewriting of texts to a normal form is to do it once. -/
theorem relabel_relabel (normal : ∀ kind token, label kind (label kind token) = label kind token)
    (n : Node) : (n.relabel label).relabel label = n.relabel label := by
  refine Node.induct (motive := fun n => (n.relabel label).relabel label = n.relabel label) ?_ n
  intro n ih
  obtain ⟨kind, token, children, id⟩ := n
  have below : (children.map (relabel label)).map (relabel label) = children.map (relabel label) := by
    rw [List.map_map]
    exact List.map_congr_left ih
  rw [relabel_mk, relabel_mk, below]
  cases token with
  | none => rfl
  | some token => rw [Option.map_some, Option.map_some, normal]

theorem filter_relabel (keep : Kind → Bool) (ns : List Node) :
    (ns.map (relabel label)).filter (keep ·.kind) = (ns.filter (keep ·.kind)).map (relabel label) := by
  rw [List.filter_map]
  simp [Function.comp_def]

theorem findChild?_relabel (n : Node) (kind : Kind) :
    (n.relabel label).findChild? kind = (n.findChild? kind).map (relabel label) := by
  rw [findChild?, findChild?, relabel_children, List.find?_map]
  simp only [Function.comp_def, relabel_kind]

theorem childText_relabel {kind : Kind} (kept : ∀ token, label kind token = token) (n : Node) :
    ((n.relabel label).findChild? kind).bind text? = (n.findChild? kind).bind text? := by
  rw [findChild?_relabel]
  cases found : n.findChild? kind with
  | none => rfl
  | some child =>
    obtain rfl : child.kind = kind := by simpa using List.find?_some found
    exact text?_relabel kept

theorem hasChild_relabel (n : Node) (kind : Kind) :
    (n.relabel label).hasChild kind = n.hasChild kind := by
  rw [hasChild, hasChild, relabel_children, List.any_map]
  simp [Function.comp_def]

theorem selectList?_relabel (n : Node) :
    (n.relabel label).selectList? = n.selectList?.map (relabel label) := by
  rw [selectList?, selectList?, relabel_children]
  cases n.children with
  | nil => rfl
  | cons list rest =>
    simp only [List.map_cons, relabel_kind]
    split <;> rfl

theorem subtreesAll_relabel {ns : List Node}
    (each : ∀ n ∈ ns, (n.relabel label).subtrees = n.subtrees.map (relabel label)) :
    subtreesAll (relabelAll label ns) = (subtreesAll ns).map (relabel label) := by
  induction ns with
  | nil => rfl
  | cons c rest ih =>
    rw [relabelAll, subtreesAll, subtreesAll, List.map_append, each c (by simp),
      ih fun m mem => each m (by simp [mem])]

theorem subtrees_relabel (n : Node) : (n.relabel label).subtrees = n.subtrees.map (relabel label) := by
  refine Node.induct (motive := fun n => (n.relabel label).subtrees = n.subtrees.map (relabel label)) ?_ n
  intro n ih
  obtain ⟨kind, token, children, id⟩ := n
  rw [relabel, subtrees, subtrees, subtreesAll_relabel ih, List.map_cons, relabel]

theorem relabel_withChildren (n : Node) (children : List Node) :
    relabel label { n with children } =
      { n.relabel label with children := children.map (relabel label) } := by
  rw [← relabelAll_eq_map]
  cases n
  rfl

theorem relabel_ofChildren (kind : Kind) (children : List Node) :
    (ofChildren kind children).relabel label = ofChildren kind (children.map (relabel label)) :=
  relabel_mk kind none children none

theorem relabel_derived (r : Node) : (derived r).relabel label = derived (r.relabel label) :=
  relabel_ofChildren .derivedColumn [r]

theorem relabel_append (list item : Node) :
    (list.append item).relabel label = (list.relabel label).append (item.relabel label) := by
  simp only [append, relabel_withChildren, relabel_children, List.map_append, List.map_cons, List.map_nil]

/-- A reference by position keeps its label if kinds of columns are labelled alike. -/
theorem relabel_resolveTo {reference : Node}
    (alike : ∀ token, label .resolvedColumn token = label reference.kind token) (position : Nat) :
    (reference.resolveTo position).relabel label = (reference.relabel label).resolveTo position := by
  obtain ⟨kind, token, children, id⟩ := reference
  simp only [resolveTo, relabel_mk]
  rw [funext alike]

end Node

/-- The calls of a relabelled tree are the calls of the tree, relabelled, so it is searched for
aggregates alike if these calls tell the same. -/
theorem callsAggregate_relabel {label : Kind → Token → Token} {table table' : SymbolTable}
    {g : Defect → Defect} {n : Node}
    (alike : ∀ m ∈ n.subtrees, m.kind = .methodCall →
      verdict? table' (m.relabel label) = (verdict? table m).map (·.mapError g)) :
    callsAggregate table' (n.relabel label) = (callsAggregate table n).mapError g := by
  have calls : callsAmong (n.relabel label).subtrees = (callsAmong n.subtrees).map (Node.relabel label) := by
    rw [Node.subtrees_relabel]
    exact Node.filter_relabel (· == .methodCall) _
  rw [callsAggregate_eq_scan, callsAggregate_eq_scan, calls]
  refine scanCalls_map fun c mem => ?_
  obtain ⟨part, kind⟩ := mem_callsAmong.1 mem
  exact alike c part kind

namespace Planning

open RowSource

variable {label : Kind → Token → Token} {statement : Node}

theorem refuseClauses_relabel : refuseClauses (statement.relabel label) = refuseClauses statement := by
  rw [refuseClauses, refuseClauses, Node.hasChild_relabel, Node.hasChild_relabel]

theorem selectList_relabel :
    selectList (statement.relabel label) = Node.relabel label <$> selectList statement := by
  rw [selectList, selectList, Node.selectList?_relabel]
  cases statement.selectList? <;> rfl

theorem condition?_relabel :
    condition? (statement.relabel label) = (condition? statement).map (Node.relabel label) := by
  rw [condition?, condition?, Node.findChild?_relabel]
  cases statement.findChild? .where with
  | none => rfl
  | some clause =>
    rw [Option.map_some, Option.bind_some, Option.bind_some, Node.relabel_children, List.head?_map]

theorem hasGroupKeys_relabel : hasGroupKeys (statement.relabel label) = hasGroupKeys statement := by
  rw [hasGroupKeys, hasGroupKeys, Node.relabel_kind, Node.hasChild_relabel, Node.relabel_children,
    List.length_map]

theorem groupKeys_relabel :
    groupKeys (statement.relabel label) = (groupKeys statement).map (Node.relabel label) := by
  rw [groupKeys, groupKeys, Node.relabel_children, Node.filter_relabel (· == .groupBy), List.flatMap_map,
    List.map_flatMap]
  simp

theorem ungrouped_relabel (statement list : Node) :
    ungrouped (statement.relabel label) (list.relabel label) = (ungrouped statement list).relabel label := by
  rw [ungrouped, ungrouped, Node.relabel_withChildren, Node.relabel_children, List.map_cons,
    ← Node.filter_relabel (· != .groupBy), List.map_tail]

theorem withoutFirstLimit_relabel :
    (statement.relabel label).withoutFirstLimit = statement.withoutFirstLimit.relabel label := by
  rw [Node.withoutFirstLimit, Node.withoutFirstLimit, Node.relabel_withChildren, Node.relabel_children,
    List.eraseP_map]
  simp only [Function.comp_def, Node.relabel_kind]

theorem countsOf_relabel (limit : ∀ token, label .limit token = token)
    (offset : ∀ token, label .offset token = token) {clause : Node} (kind : clause.kind = .limit) :
    countsOf (clause.relabel label) = countsOf clause := by
  rw [countsOf, countsOf, Node.relabel_kept (kind ▸ limit), Node.findChild?_relabel]
  cases found : clause.findChild? .offset with
  | none => rfl
  | some below =>
    have kind : below.kind = .offset := by simpa using List.find?_some found
    rw [Option.map_some]
    simp only [Node.relabel_kept (kind ▸ offset)]

theorem nestingBound_relabel (n : Node) : nestingBound (n.relabel label) = nestingBound n := by
  refine Node.induct (motive := fun n => nestingBound (n.relabel label) = nestingBound n) ?_ n
  intro n ih
  obtain ⟨kind, token, children, id⟩ := n
  -- only a SERIES with two children looks below, all else counts the limits among its children
  have limits : (Node.relabelAll label children).countP (·.kind == .limit) =
      children.countP (·.kind == .limit) := by
    rw [Node.relabelAll_eq_map, List.countP_map]
    simp only [Function.comp_def, Node.relabel_kind]
  cases kind with
  | series =>
    rcases children with _ | ⟨name, _ | ⟨select, _ | ⟨more, rest⟩⟩⟩
    · rfl
    · exact congrArg (· + 2) limits
    · exact congrArg (· + 1) (ih select (by simp))
    · exact congrArg (· + 2) limits
  | _ => exact congrArg (· + 2) limits

end Planning

end StatementPlan
