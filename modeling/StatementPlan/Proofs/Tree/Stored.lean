/-
Trees read back from where they are stored, in whichever order the fields of records are kept
there.  What a node lacks is left out where it is stored, and missing fields are read as just that.

`Token.reads_reordered`: what is stored of tokens reads back.
`stored_tree_reads_back`: so does a tree; no other tree is stored the same way.
-/
import StatementPlan.Proofs.Document
import StatementPlan.Tree.Build
import StatementPlan.Tree.Stored

namespace StatementPlan

open Document

theorem Token.reads_reordered (token : Token) {d : Document} (h : Reordered token.toDocument d) :
    d ≠ .null ∧ Token.ofDocument? d = some token := by
  obtain ⟨fields, rfl, named⟩ := h.of_record
  have kind : required? fields "kind" (fun d => d.name?.bind TokenKind.ofName?) =
      some token.kind := by
    refine named.required "kind" rfl fun d h => ?_
    rw [h.eq_of_flat rfl rfl, name?, Option.bind_some, TokenKind.ofName?_name]
  have text := named.required "text" rfl fun _ => Reordered.text
  exact ⟨by simp, by simp [ofDocument?, fields?_record, kind, text]⟩

namespace Node

theorem toDocuments_eq_map (ns : List Node) : toDocuments ns = ns.map toDocument := by
  induction ns with
  | nil => rfl
  | cons n rest ih => rw [toDocuments, ih, List.map_cons]

theorem lookup_children (kind : Kind) (token : Option Token) (children : List Document)
    (id : Option Nat) :
    (fields kind token children id).lookup "children" =
      if children = [] then none else some (.list children) := by
  cases token <;> cases id <;> cases children <;> simp [fields, List.lookup_cons]

theorem childrenOf?_eq (fields : List (String × Document)) :
    childrenOf? fields = defaulted? fields "children" listOf? [] := by
  induction fields with
  | nil => rfl
  | cons field rest ih =>
    obtain ⟨key, value⟩ := field
    rw [childrenOf?, ih, defaulted?, defaulted?, List.lookup_cons]
    by_cases here : key = "children"
    · simp [here]
    · have other : ("children" == key) = false := by simpa using Ne.symm here
      simp [other, here]

/-- The stored form of the tree reads back in every order of its fields. -/
def ReadsReordered (n : Node) : Prop :=
  n.Storable → ∀ d, Reordered n.toDocument d → ofDocument? d = some n

theorem ofDocuments?_reordered {ns : List Node} (storable : ∀ n ∈ ns, n.Storable)
    (each : ∀ n ∈ ns, ReadsReordered n) {items : List Document}
    (inside : List.Forall₂ Reordered (toDocuments ns) items) : ofDocuments? items = some ns := by
  induction ns generalizing items with
  | nil =>
    cases inside
    rfl
  | cons n rest ih =>
    cases inside with
    | cons first others =>
      have head := each n (by simp) (storable n (by simp)) _ first
      have tail := ih (fun m mem => storable m (by simp [mem])) (fun m mem => each m (by simp [mem]))
        others
      simp [ofDocuments?, head, tail]

/-- Children that are left out are none, and others are read one by one. -/
theorem childrenOf?_reordered {ns : List Node} (storable : ∀ n ∈ ns, n.Storable)
    (each : ∀ n ∈ ns, ReadsReordered n) {fields : List (String × Document)}
    (here : Option.Rel Reordered (if toDocuments ns = [] then none else some (.list (toDocuments ns)))
      (fields.lookup "children")) : childrenOf? fields = some ns := by
  rw [childrenOf?_eq, defaulted?]
  split at here
  · rename_i empty
    have none : ns = [] := by
      rw [toDocuments_eq_map] at empty
      exact List.map_eq_nil_iff.1 empty
    generalize fields.lookup "children" = v at here ⊢
    cases here
    rw [none]
  · generalize fields.lookup "children" = v at here ⊢
    obtain ⟨inside⟩ := here
    obtain ⟨items, rfl, below⟩ := inside.of_list
    exact ofDocuments?_reordered storable each below

theorem reads_reordered (n : Node) : ReadsReordered n := by
  -- on the tree: each of its fields reads back or is missing, its children as trees
  refine induct (motive := ReadsReordered) ?_ n
  rintro ⟨kind, token, children, id⟩ ih storable d h
  obtain ⟨stored, rfl, same⟩ := h.of_fields
  have kinds := same "kind"
  have tokens := same "token"
  have below := same "children"
  have positions := same "id"
  rw [lookup_kind] at kinds
  rw [lookup_token] at tokens
  rw [lookup_children] at below
  rw [lookup_id] at positions
  have readKind : required? stored "kind" (fun d => d.name?.bind Kind.ofName?) = some kind := by
    rw [required?]
    generalize stored.lookup "kind" = v at kinds
    obtain ⟨inside⟩ := kinds
    rw [inside.eq_of_flat rfl rfl, Option.bind_some, name?, Option.bind_some, Kind.ofName?_name]
  have readToken : optional? stored "token" Token.ofDocument? = some token :=
    optional?_reordered tokens fun t _ v => t.reads_reordered
  have readId : optional? stored "id" size? = some id := by
    refine optional?_reordered positions fun position here v h => ?_
    rw [h.eq_of_flat rfl rfl]
    exact ⟨by simp [size], by rw [size?_size, if_pos (storable.root here)]⟩
  have readChildren := childrenOf?_reordered (fun c mem => storable.child mem) ih below
  simp [ofDocument?, ofFields?, readKind, readToken, readId, readChildren]

/-- The fields that a node is stored with: its kind, and nothing for what it lacks. -/
structure StoredWith (n : Node) (fields : List (String × Document)) : Prop where
  once : (fields.map Prod.fst).Nodup
  known : fields.map Prod.fst ⊆ layout.names
  kind : fields.lookup "kind" = some (.text n.kind.name)
  token : fields.lookup "token" = n.token.map Token.toDocument
  children : fields.lookup "children" =
    if n.children = [] then none else some (.list (n.children.map toDocument))
  id : fields.lookup "id" = n.id.map size

theorem toDocument_fields (n : Node) :
    ∃ fields, n.toDocument = .record fields ∧ n.StoredWith fields := by
  obtain ⟨kind, token, children, id⟩ := n
  refine ⟨_, rfl, ?_, ?_, lookup_kind .., lookup_token .., ?_, lookup_id ..⟩
  · cases token <;> cases children <;> cases id <;> simp [fields, toDocuments]
  · cases token <;> cases children <;> cases id <;>
      simp [fields, toDocuments, layout, Layout.names]
  · rw [lookup_children, toDocuments_eq_map]
    simp

/-- How a tree is stored, and that it can be read from there. -/
structure ReadsBack (n : Node) : Prop where
  /-- In whichever order a store keeps the fields, the tree that is read is this one. -/
  reads : ∀ d, Reordered n.toDocument d → ofDocument? d = some n
  fields : ∃ fields, n.toDocument = .record fields ∧ n.StoredWith fields
  /-- No other tree is stored the same way, whatever order its fields are in. -/
  alone : ∀ m : Node, m.Storable → ∀ d, Reordered m.toDocument d → Reordered n.toDocument d → m = n

/-- A tree of positions within the limit reads back from where it is stored. -/
theorem stored_tree_reads_back {n : Node} (storable : n.Storable) : n.ReadsBack where
  reads := n.reads_reordered storable
  fields := n.toDocument_fields
  alone m storable' d h h' := by
    have read := m.reads_reordered storable' d h
    rw [n.reads_reordered storable d h'] at read
    exact (Option.some.inj read).symm

/-- SERIES over a SELECT, with a column that is placed already as its name. -/
def placedSeries : Node :=
  .ofChildren .series [(column "na\"me\n").resolveTo (Numeral.sizeLimit - 1),
    .ofChildren .select [.ofChildren .selectList [{ kind := .all }, .derived (.string "")],
      .ofChildren .from [.ofToken .tableName (.identifier "t")], .ofToken .limit (.numeric "3")]]

theorem stored_tree_reads_back_series : placedSeries.Storable ∧ placedSeries.ReadsBack := by
  have bounds : ∀ m ∈ placedSeries.subtrees, m.id.all (· < Numeral.sizeLimit) = true := by decide
  have storable : placedSeries.Storable := fun m part position here => by
    simpa [here] using bounds m part
  exact ⟨storable, stored_tree_reads_back storable⟩

end Node

end StatementPlan
