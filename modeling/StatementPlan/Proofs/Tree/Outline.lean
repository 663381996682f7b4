/-
Outlines read back.  Each node of a tree has one line in its outline, in reading order and two
blanks further in for each level, if no token breaks its line.  Indentations and headings then show
the shape of the tree and its kinds.  They do not show its tokens: the text of a token may look like
a position.

`mem_listing`, `listing_ordered`: the nodes of a tree by their paths, in lexicographic order.
`split_outline`: the lines of an outline.
`levelled_alike`: levels and kinds in reading order belong to one shape only.
`outline_shows_shape`: so does an outline.
-/
import Mathlib.Data.List.Forall2
import StatementPlan.Tree.Outline
import StatementPlan.Proofs.Columns.Occurrences
import StatementPlan.Proofs.Text.Separated

namespace StatementPlan

theorem Kind.heading_identifier (kind : Kind) : Identifier kind.heading := by
  cases kind with
  | operator op =>
    cases op <;>
      exact ⟨by decide, by simp [heading, Operator.heading], by simp [heading, Operator.heading]⟩
  | _ => exact ⟨by decide, by simp [heading], by simp [heading]⟩

namespace Node

mutual

/-- The nodes of a tree with the paths to them, in reading order. -/
def listing : Node → List (List Nat × Node)
  | ⟨kind, token, children, id⟩ => ([], ⟨kind, token, children, id⟩) :: listingAll 0 children

/-- The nodes of children, the first of which is at a position. -/
def listingAll : Nat → List Node → List (List Nat × Node)
  | _, [] => []
  | i, c :: rest => (listing c).map (fun (path, m) => (i :: path, m)) ++ listingAll (i + 1) rest

end

theorem listing_eq (n : Node) : n.listing = ([], n) :: listingAll 0 n.children := by
  cases n
  rfl

theorem mem_listingAll {i : Nat} {ns : List Node} {path : List Nat} {m : Node} :
    (path, m) ∈ listingAll i ns ↔
      ∃ j below c, path = (i + j) :: below ∧ ns[j]? = some c ∧ (below, m) ∈ c.listing := by
  induction ns generalizing i with
  | nil => simp [listingAll]
  | cons c rest ih =>
    simp only [listingAll, List.mem_append, List.mem_map, ih]
    constructor
    · rintro (⟨⟨below, m⟩, mem, same⟩ | ⟨j, below, d, rfl, here, mem⟩)
      · cases same
        exact ⟨0, below, c, rfl, rfl, mem⟩
      · exact ⟨j + 1, below, d, by simp [Nat.add_assoc, Nat.add_comm 1], here, mem⟩
    · rintro ⟨_ | j, below, d, rfl, here, mem⟩
      · cases here
        exact .inl ⟨(below, m), mem, rfl⟩
      · exact .inr ⟨j, below, d, by simp [Nat.add_assoc, Nat.add_comm 1], here, mem⟩

/-- The paths of the listing are those that lead to a node, each with that node. -/
theorem mem_listing {n : Node} {path : List Nat} {m : Node} :
    (path, m) ∈ n.listing ↔ n.at? path = some m := by
  induction path generalizing n with
  | nil =>
    rw [listing_eq, List.mem_cons, mem_listingAll]
    simp [at?, eq_comm]
  | cons i path ih =>
    rw [listing_eq, List.mem_cons, mem_listingAll]
    simp only [Prod.mk.injEq, reduceCtorEq, false_and, false_or, at?, Option.bind_eq_some_iff]
    constructor
    · rintro ⟨j, below, c, same, here, mem⟩
      obtain ⟨rfl, rfl⟩ := List.cons.inj same
      exact ⟨c, by simpa using here, ih.1 mem⟩
    · rintro ⟨c, here, found⟩
      exact ⟨i, path, c, by simp, here, ih.2 found⟩

theorem listingAll_ordered {ns : List Node}
    (each : ∀ c ∈ ns, c.listing.Pairwise fun a b => a.1 < b.1) (i : Nat) :
    (listingAll i ns).Pairwise fun a b => a.1 < b.1 := by
  induction ns generalizing i with
  | nil => exact .nil
  | cons c rest ih =>
    refine List.pairwise_append.2 ⟨?_, ih (fun d mem => each d (by simp [mem])) (i + 1), ?_⟩
    · refine List.pairwise_map.2 ((each c (by simp)).imp fun less => ?_)
      exact List.cons_lt_cons_iff.2 (.inr ⟨rfl, less⟩)
    · intro a first b later
      obtain ⟨⟨path, m⟩, -, rfl⟩ := List.mem_map.1 first
      obtain ⟨j, below, d, here, -⟩ := mem_listingAll.1 (show (b.1, b.2) ∈ _ from later)
      rw [here]
      exact List.cons_lt_cons_iff.2 (.inl (by omega))

/-- Reading order: a path before those that go on from it, and children from left to right. -/
theorem listing_ordered (n : Node) : n.listing.Pairwise fun a b => a.1 < b.1 := by
  refine Node.induct (motive := fun n => n.listing.Pairwise fun a b => a.1 < b.1) ?_ n
  intro n ih
  rw [listing_eq]
  refine .cons ?_ (listingAll_ordered ih 0)
  intro b mem
  obtain ⟨j, below, c, here, -⟩ := mem_listingAll.1 (show (b.1, b.2) ∈ _ from mem)
  rw [here]
  exact List.nil_lt_cons _ _

/-- What is shown of the nodes of a tree in reading order, the root at a level. -/
def levelled (shown : Nat → Node → β) (level : Nat) (n : Node) : List β :=
  n.listing.map fun (path, m) => shown (level + path.length) m

variable {shown : Nat → Node → β} {level : Nat}

theorem map_listingAll (i : Nat) (ns : List Node) :
    (listingAll i ns).map (fun (path, m) => shown (level + path.length) m) =
      ns.flatMap (levelled shown (level + 1)) := by
  induction ns generalizing i with
  | nil => rfl
  | cons c rest ih =>
    rw [listingAll, List.map_append, ih, List.map_map, List.flatMap_cons]
    congr 1
    refine List.map_congr_left fun (path, m) _ => ?_
    simp [Nat.add_assoc, Nat.add_comm 1]

theorem levelled_eq (n : Node) :
    n.levelled shown level = shown level n :: n.children.flatMap (levelled shown (level + 1)) := by
  rw [levelled, listing_eq, List.map_cons, map_listingAll]
  rfl

theorem levelled_nodes (n : Node) (level : Nat) : n.levelled (fun _ m => m) level = n.subtrees := by
  refine Node.induct (motive := fun n => ∀ level, n.levelled (fun _ m => m) level = n.subtrees) ?_ n level
  intro n ih level
  rw [levelled_eq, List.flatMap_congr fun c mem => ih c mem (level + 1), ← subtreesAll_eq_flatMap]
  cases n
  rfl

/-- What is shown alike of two trees is alike for anything that it shows. -/
theorem levelled_of_shown {other : Nat → Node → γ} {n m : Node}
    (shows : ∀ {i j a b}, shown i a = shown j b → other i a = other j b)
    (same : n.levelled shown level = m.levelled shown level) :
    n.levelled other level = m.levelled other level := by
  rw [levelled, levelled, ← List.forall₂_eq_eq_eq, List.forall₂_map_left_iff,
    List.forall₂_map_right_iff] at same ⊢
  exact same.imp fun _ _ alike => shows alike

/-- The line of a node at a level. -/
def line (level : Nat) (n : Node) : String := indentation level ++ headline n.kind n.token n.id

theorem linesAll_eq_flatMap (level : Nat) (ns : List Node) :
    linesAll level ns = ns.flatMap (lines level) := by
  induction ns with
  | nil => rfl
  | cons c rest ih => rw [linesAll, ih, List.flatMap_cons]

theorem lines_eq_levelled (n : Node) (level : Nat) : lines level n = n.levelled line level := by
  refine Node.induct (motive := fun n => ∀ level, lines level n = n.levelled line level) ?_ n level
  intro n ih level
  rw [levelled_eq, ← List.flatMap_congr fun c mem => ih c mem (level + 1), ← linesAll_eq_flatMap]
  cases n
  rfl

/-- What stands after the heading of a line. -/
def afterHeading (token : Option Token) (id : Option Nat) : List Char :=
  (match token with
    | some t => ' ' :: t.shown.toList
    | none => []) ++
  (match id with
    | some position => ' ' :: '#' :: Nat.toDigits 10 position
    | none => [])

theorem toList_line (level : Nat) (n : Node) :
    (line level n).toList =
      List.replicate (2 * level) ' ' ++ (n.kind.heading.toList ++ afterHeading n.token n.id) := by
  obtain ⟨kind, token, children, id⟩ := n
  cases token <;> cases id <;>
    simp [line, indentation, headline, afterHeading, Numeral.toList_writeNat]

theorem afterHeading_atEnd (token : Option Token) (id : Option Nat) :
    AtEnd (afterHeading token id) := by
  cases token with
  | some => exact atEnd_cons (by decide) _
  | none =>
    cases id with
    | some => exact atEnd_cons (by decide) _
    | none => exact fun c mem => nomatch mem

/-- The level and the kind of a node. -/
def standing (level : Nat) (n : Node) : Nat × Kind := (level, n.kind)

theorem standing_of_line {i j : Nat} {n m : Node} (same : line i n = line j m) :
    standing i n = standing j m := by
  -- the blanks end where the heading starts, the heading at the first blank after it
  have blank : ∀ k, ∀ c ∈ List.replicate k ' ', (c == ' ') = true := fun k c mem =>
    beq_iff_eq.2 (List.eq_of_mem_replicate mem)
  have stops : ∀ m : Node, Stops (· == ' ') (m.kind.heading.toList ++ afterHeading m.token m.id) := by
    intro m c mem
    obtain ⟨d, head, word⟩ := m.kind.heading_identifier.first
    rw [List.head?_append, Option.mem_def.1 head] at mem
    obtain rfl := Option.some.inj mem
    refine Bool.eq_false_iff.2 fun blank => ?_
    rw [beq_iff_eq.1 blank] at word
    exact absurd word (by decide)
  have texts := congrArg String.toList same
  rw [toList_line, toList_line] at texts
  obtain ⟨blanks, headlines⟩ := run_append_inj (blank _) (blank _) (stops n) (stops m) texts
  obtain ⟨headings, -⟩ := n.kind.heading_identifier.append_inj m.kind.heading_identifier
    (afterHeading_atEnd _ _) (afterHeading_atEnd _ _) headlines
  have width : 2 * i = 2 * j := by simpa using congrArg List.length blanks
  exact congrArg₂ Prod.mk (by omega) (Kind.heading_injective headings)

/-- No token of the tree breaks its line. -/
def Unbroken (n : Node) : Prop := ∀ m ∈ n.subtrees, ∀ t ∈ m.token, '\n' ∉ t.text.toList

instance (n : Node) : Decidable n.Unbroken := inferInstanceAs (Decidable (∀ m ∈ n.subtrees, _))

theorem line_unbroken {n : Node} (unbroken : ∀ t ∈ n.token, '\n' ∉ t.text.toList) (level : Nat) :
    '\n' ∉ (line level n).toList := by
  have heading : '\n' ∉ n.kind.heading.toList := fun mem =>
    absurd (n.kind.heading_identifier.inWord _ mem) (by decide)
  have digits : ∀ position, '\n' ∉ Nat.toDigits 10 position := fun position mem =>
    absurd (Nat.isDigit_of_mem_toDigits (by decide) (by decide) mem) (by decide)
  have shown : ∀ t ∈ n.token, '\n' ∉ t.shown.toList := by
    intro t mem
    rw [Token.shown]
    split <;> simp [unbroken t mem]
  have after : '\n' ∉ afterHeading n.token n.id := by
    cases token : n.token <;> cases id : n.id <;> simp_all [afterHeading]
  rw [toList_line]
  simp [heading, after]

/-- Between the line feeds of an outline are the lines of its nodes, and nothing is after the last
one. -/
theorem split_outline {n : Node} (unbroken : n.Unbroken) :
    n.outline.toList.splitOn '\n' = (lines 0 n).map String.toList ++ [[]] := by
  have ended : n.outline.toList = ['\n'].intercalate ((lines 0 n).map String.toList ++ [[]]) := by
    rw [intercalate_ended, outline, String.toList_join, List.flatMap_map, List.flatMap_map]
    simp
  rw [ended]
  refine List.splitOn_intercalate _ ?_ (by simp)
  intro text mem
  simp only [lines_eq_levelled, levelled, List.map_map, List.mem_append, List.mem_map,
    List.mem_singleton] at mem
  rcases mem with ⟨⟨path, m⟩, mem, rfl⟩ | rfl
  · refine line_unbroken (unbroken m ?_) _
    rw [← levelled_nodes n 0]
    exact List.mem_map.2 ⟨(path, m), mem, rfl⟩
  · simp

end Node

/-- The same kind at every node, and the same children below it. -/
inductive SameShape : Node → Node → Prop
  | node {kind : Kind} {token token' : Option Token} {children children' : List Node}
      {id id' : Option Nat} (below : List.Forall₂ SameShape children children') :
      SameShape ⟨kind, token, children, id⟩ ⟨kind, token', children', id'⟩

namespace Node

/-- The listing goes on with a node above a level, if it goes on. -/
def Above (level : Nat) (rest : List (Nat × Kind)) : Prop := ∀ e ∈ rest.head?, e.1 < level

theorem Above.following {level : Nat} {rest : List (Nat × Kind)} (above : Above level rest)
    (ns : List Node) : Above (level + 1) (ns.flatMap (levelled standing level) ++ rest) := by
  cases ns with
  | nil => exact fun e mem => Nat.lt_succ_of_lt (above e mem)
  | cons c others =>
    intro e mem
    rw [List.flatMap_cons, levelled_eq] at mem
    obtain rfl := Option.some.inj mem
    exact Nat.lt_succ_self level

theorem Above.ne_cons {level : Nat} {rest more : List (Nat × Kind)} (above : Above level rest)
    (c : Node) : rest ≠ c.levelled standing level ++ more := by
  rintro rfl
  rw [levelled_eq] at above
  exact Nat.lt_irrefl level (above _ rfl)

/-- Before what is above them, children at a level show their shapes and where they end. -/
theorem levelledAll_alike {level : Nat} {ns ms : List Node} {rest rest' : List (Nat × Kind)}
    (each : ∀ c ∈ ns, ∀ (d : Node) (rest rest' : List (Nat × Kind)), Above (level + 1) rest →
      Above (level + 1) rest' → c.levelled standing level ++ rest = d.levelled standing level ++ rest' →
      SameShape c d ∧ rest = rest')
    (above : Above level rest) (above' : Above level rest')
    (same : ns.flatMap (levelled standing level) ++ rest = ms.flatMap (levelled standing level) ++ rest') :
    List.Forall₂ SameShape ns ms ∧ rest = rest' := by
  induction ns generalizing ms with
  | nil =>
    cases ms with
    | nil => exact ⟨.nil, same⟩
    | cons d ms =>
      rw [List.flatMap_cons, List.append_assoc] at same
      exact absurd same (above.ne_cons d)
  | cons c ns ih =>
    cases ms with
    | nil =>
      rw [List.flatMap_cons, List.append_assoc] at same
      exact absurd same.symm (above'.ne_cons c)
    | cons d ms =>
      rw [List.flatMap_cons, List.flatMap_cons, List.append_assoc, List.append_assoc] at same
      obtain ⟨first, others⟩ := each c (by simp) d _ _ (above.following ns) (above'.following ms) same
      obtain ⟨more, rests⟩ := ih (fun a mem => each a (by simp [mem])) others
      exact ⟨.cons first more, rests⟩

/-- So does a tree: what is below its root is what comes before the next node that is not deeper. -/
theorem levelled_alike {n : Node} {level : Nat} (m : Node) (rest rest' : List (Nat × Kind))
    (above : Above (level + 1) rest) (above' : Above (level + 1) rest')
    (same : n.levelled standing level ++ rest = m.levelled standing level ++ rest') :
    SameShape n m ∧ rest = rest' := by
  induction n using Node.induct generalizing level m rest rest' with
  | node n ih =>
    -- after the roots come the children one level deeper, and then `rest`, which is above them
    rw [levelled_eq, levelled_eq m] at same
    obtain ⟨roots, others⟩ := List.cons.inj same
    obtain ⟨below, rests⟩ := levelledAll_alike (fun c mem d rest rest' => ih c mem d rest rest')
      above above' others
    obtain ⟨kind, token, children, id⟩ := n
    obtain ⟨kind', token', children', id'⟩ := m
    obtain rfl : kind = kind' := congrArg Prod.snd roots
    exact ⟨.node below, rests⟩

/-- Trees with the same outline have the same shape and the same kinds.  An outline has one line for
each node, in the order of their paths, with two blanks before it for each step of the path. -/
theorem outline_shows_shape {n m : Node} (unbroken : n.Unbroken) (unbroken' : m.Unbroken) :
    (n.outline = m.outline → SameShape n m) ∧
    n.outline.toList.splitOn '\n' =
      n.listing.map (fun (path, k) =>
        List.replicate (2 * path.length) ' ' ++ (headline k.kind k.token k.id).toList) ++ [[]] ∧
    n.listing.Pairwise (fun a b => a.1 < b.1) ∧
    ∀ path k, (path, k) ∈ n.listing ↔ n.at? path = some k := by
  refine ⟨fun same => ?_, ?_, n.listing_ordered, fun path k => mem_listing⟩
  · have texts := split_outline unbroken
    rw [same, split_outline unbroken'] at texts
    have lines : n.levelled line 0 = m.levelled line 0 := by
      rw [← lines_eq_levelled, ← lines_eq_levelled]
      exact ((List.map_injective_iff.2 fun _ _ => String.toList_inj.1)
        (List.append_cancel_right texts)).symm
    have levels : n.levelled standing 0 = m.levelled standing 0 :=
      levelled_of_shown (fun alike => standing_of_line alike) lines
    exact (levelled_alike m [] [] nofun nofun (by rw [levels])).1
  · rw [split_outline unbroken, lines_eq_levelled, levelled, List.map_map]
    congr 1
    refine List.map_congr_left fun (path, k) _ => ?_
    simp [line, indentation]

-- a token that breaks its line may look like a child
example :
    (ofToken .orderBy (.identifier "a\n  LIMIT")).outline =
      { ofToken .orderBy (.identifier "a") with children := [ofChildren .limit []] : Node }.outline := by
  decide

/-- A column whose name looks like a name and a position, and one that has both. -/
theorem outline_of_lookalike :
    let named := derived (ofToken .resolvedColumn (.identifier "city #2"))
    let placed := derived ((column "city").resolveTo 2)
    named.Unbroken ∧ placed.Unbroken ∧ named.outline = placed.outline ∧ SameShape named placed := by
  have unbroken : (derived (ofToken .resolvedColumn (.identifier "city #2"))).Unbroken := by decide
  have unbroken' : (derived ((column "city").resolveTo 2)).Unbroken := by decide
  have same : (derived (ofToken .resolvedColumn (.identifier "city #2"))).outline =
      (derived ((column "city").resolveTo 2)).outline := by decide
  exact ⟨unbroken, unbroken', same, (outline_shows_shape unbroken unbroken').1 same⟩

end Node

end StatementPlan
