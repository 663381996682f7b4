/-
Documents with the fields of their records in another order.  A store keeps the fields of a record
in an order of its own, at every depth; reading looks fields up by name, so that makes no
difference.

`Reordered.of_fields`: both records have the same fields, each with the same in it in some order.
`FieldsIn.required`, `optional?_reordered`: what reads back in every order reads back from there.
-/
import Mathlib.Data.List.Forall2
import StatementPlan.Document

namespace StatementPlan

namespace Document

/-- The second document is the first one with the fields of its records in another order. -/
inductive Reordered : Document → Document → Prop
  | same (d : Document) : Reordered d d
  | list {items items' : List Document} (each : List.Forall₂ Reordered items items') :
      Reordered (.list items) (.list items')
  | record {fields fields' : List (String × Document)}
      (keys : (fields.map Prod.fst).Perm (fields'.map Prod.fst))
      (values : ∀ key v v', fields.lookup key = some v → fields'.lookup key = some v' →
        Reordered v v') : Reordered (.record fields) (.record fields')

/-- Every field of the first record is in the second one, with its own fields in some order. -/
def FieldsIn (fields fields' : List (String × Document)) : Prop :=
  ∀ key v, fields.lookup key = some v → ∃ v', fields'.lookup key = some v' ∧ Reordered v v'

theorem lookup_isSome {fields : List (String × Document)} {key : String} :
    (fields.lookup key).isSome = true ↔ key ∈ fields.map Prod.fst := by
  induction fields with
  | nil => simp
  | cons field rest ih =>
    obtain ⟨key', v⟩ := field
    rw [List.lookup_cons, List.map_cons, List.mem_cons, ← ih]
    by_cases here : key = key'
    · simp [here]
    · have other : (key == key') = false := by simpa using here
      simp [other, here]

theorem required?_cons (key name : String) (value : Document) (rest : List (String × Document))
    (read : Document → Option α) : required? ((key, value) :: rest) name read =
      if key = name then read value else required? rest name read := by
  rw [required?, required?, List.lookup_cons]
  by_cases here : key = name
  · simp [here]
  · have other : (name == key) = false := by simpa using Ne.symm here
    simp [other, here]

namespace Reordered

variable {fields : List (String × Document)} {d : Document}

/-- Only lists and records have an inside to reorder. -/
theorem eq_of_flat {d' : Document} (h : Reordered d d') (noList : d.list? = none)
    (noRecord : d.record? = none) : d' = d := by
  cases h with
  | same => rfl
  | list => cases noList
  | record => cases noRecord

theorem of_list {items : List Document} (h : Reordered (.list items) d) :
    ∃ items', d = .list items' ∧ List.Forall₂ Reordered items items' := by
  cases h with
  | same => exact ⟨items, rfl, List.forall₂_same.2 fun item _ => .same item⟩
  | list each => exact ⟨_, rfl, each⟩

/-- A record has the same fields in every order, and no others. -/
theorem of_fields (h : Reordered (.record fields) d) :
    ∃ fields', d = .record fields' ∧
      ∀ key, Option.Rel Reordered (fields.lookup key) (fields'.lookup key) := by
  cases h with
  | same =>
    refine ⟨fields, rfl, fun key => ?_⟩
    cases fields.lookup key with
    | none => exact .none
    | some v => exact .some (.same v)
  | @record _ fields' keys values =>
    refine ⟨fields', rfl, fun key => ?_⟩
    have named := keys.mem_iff (a := key)
    rw [← lookup_isSome, ← lookup_isSome] at named
    have inside := values key
    revert named inside
    cases fields.lookup key with
    | none =>
      cases fields'.lookup key with
      | none => exact fun _ _ => .none
      | some v' => exact fun named => absurd (named.2 rfl) (by simp)
    | some v =>
      cases fields'.lookup key with
      | none => exact fun named => absurd (named.1 rfl) (by simp)
      | some v' => exact fun _ inside => .some (inside v v' rfl rfl)

theorem of_record (h : Reordered (.record fields) d) :
    ∃ fields', d = .record fields' ∧ FieldsIn fields fields' := by
  obtain ⟨fields', rfl, same⟩ := h.of_fields
  refine ⟨fields', rfl, fun key v found => ?_⟩
  have here := same key
  rw [found] at here
  generalize fields'.lookup key = found' at here
  obtain ⟨inside⟩ := here
  exact ⟨_, rfl, inside⟩

theorem of_tagged {name : String} {content : Document} (h : Reordered (.record [(name, content)]) d) :
    ∃ content', d = .record [(name, content')] ∧ Reordered content content' := by
  cases h with
  | same => exact ⟨content, rfl, .same content⟩
  | @record _ fields' keys values =>
    obtain ⟨⟨name', content'⟩, rfl, rfl⟩ := List.map_eq_singleton_iff.1 (List.perm_singleton.1 keys.symm)
    exact ⟨content', rfl, values name' content content' (by simp) (by simp)⟩

theorem of_operator {name : String} (h : Reordered (.record [(name, .record fields)]) d) :
    ∃ fields', d = .record [(name, .record fields')] ∧ FieldsIn fields fields' := by
  obtain ⟨content, rfl, inside⟩ := h.of_tagged
  obtain ⟨fields', rfl, named⟩ := inside.of_record
  exact ⟨fields', rfl, named⟩

theorem of_texts {texts : List String} (h : Reordered (.ofTexts texts) d) : d = .ofTexts texts := by
  obtain ⟨items', rfl, each⟩ := of_list h
  rw [List.forall₂_map_left_iff] at each
  have same : List.Forall₂ (fun t item => Document.text t = item) texts items' :=
    each.imp fun t item inside => (inside.eq_of_flat rfl rfl).symm
  rw [← List.forall₂_map_left_iff (f := Document.text), List.forall₂_eq_eq_eq] at same
  rw [ofTexts, same]

end Reordered

/-- A field that reads the same in every order of what is in it reads so from the record. -/
theorem FieldsIn.required {fields fields' : List (String × Document)} (h : FieldsIn fields fields')
    (key : String) {v : Document} (found : fields.lookup key = some v) {read : Document → Option α}
    {a : Option α} (reads : ∀ v', Reordered v v' → read v' = a) :
    required? fields' key read = a := by
  obtain ⟨v', found', inside⟩ := h key v found
  rw [required?, found', Option.bind_some, reads v' inside]

theorem FieldsIn.optional {fields fields' : List (String × Document)} (h : FieldsIn fields fields')
    (key : String) {v : Document} (found : fields.lookup key = some v) {read : Document → Option α}
    {a : Option (Option α)} (reads : ∀ v', Reordered v v' → v' = .null ∧ a = some none ∨
      v' ≠ .null ∧ (read v').map some = a) :
    optional? fields' key read = a := by
  obtain ⟨v', found', inside⟩ := h key v found
  rcases reads v' inside with ⟨rfl, rfl⟩ | ⟨present, reads⟩
  · rw [optional?, found']
  · rw [optional?_present read found' present, reads]

/-- What may be there is read if it is there, in every order of what is in it. -/
theorem optional?_reordered {fields : List (String × Document)} {key : String}
    {write : α → Document} {read : Document → Option α} {a : Option α}
    (here : Option.Rel Reordered (a.map write) (fields.lookup key))
    (reads : ∀ x ∈ a, ∀ v, Reordered (write x) v → v ≠ .null ∧ read v = some x) :
    optional? fields key read = some a := by
  cases a with
  | none =>
    rw [Option.map_none] at here
    generalize found : fields.lookup key = v at here
    cases here
    exact optional?_missing read found
  | some x =>
    rw [Option.map_some] at here
    generalize found : fields.lookup key = v at here
    obtain ⟨inside⟩ := here
    obtain ⟨present, back⟩ := reads x rfl _ inside
    rw [optional?_present read found present, back, Option.map_some]

theorem Reordered.size {n : Nat} {d : Document} (h : Reordered (.size n) d)
    (bound : n < Numeral.sizeLimit) : d.size? = some n := by
  rw [h.eq_of_flat rfl rfl, size?_size, if_pos bound]

theorem Reordered.text {s : String} {d : Document} (h : Reordered (.text s) d) :
    d.text? = some s := by
  rw [h.eq_of_flat rfl rfl, text?]

theorem Reordered.texts {texts : List String} {d : Document} (h : Reordered (.ofTexts texts) d) :
    d.texts? = some texts := by
  rw [h.of_texts, texts?_ofTexts]

theorem Reordered.boolean {b : Bool} {d : Document} (h : Reordered (.boolean b) d) :
    d.boolean? = some b := by
  rw [h.eq_of_flat rfl rfl, boolean?]

end Document

end StatementPlan
