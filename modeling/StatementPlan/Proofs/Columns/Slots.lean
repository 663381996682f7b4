/-
Which references get an item of their own when they are pushed into a select list, and at which
items they then are.  With shared slots these are the references that no item consists of yet,
each once; without, all of them.

`fresh_append`: the references of two expressions go in one after the other.
`fresh_shared`: with shared slots, the new items are those of the distinct references without one.
`forM_fresh`: a check of references fails on the new items as it does on all references.
`Represents`: two ways to push the same columns into a list, as far as checks can tell.
-/
import Mathlib.Data.List.Perm.Subperm
import StatementPlan.Fault
import StatementPlan.Proofs.Outcome
import StatementPlan.Proofs.Tree.References

namespace StatementPlan

namespace Node

/-- The column that an item consists of. -/
def plainColumn? (item : Node) : Option Node :=
  if item.kind = .derivedColumn then item.children.head?.filter (·.kind == .columnName) else none

/-- The columns that items of a list consist of. -/
def plainColumns (items : List Node) : List Node := items.filterMap plainColumn?

/-- A list with items for more references at its end. -/
def extend (list : Node) (rs : List Node) : Node :=
  { list with children := list.children ++ rs.map derived }

/-- The item at a position consists of the reference. -/
def ItemAt (items : List Node) (reference : Node) (position : Nat) : Prop :=
  ∃ item, items[position]? = some item ∧ item.plainColumn? = some reference

/-- The item at a position is one for the reference: it consists of it, and is the first that does
if slots are shared. -/
structure SlotAt (shared : Bool) (items : List Node) (reference : Node) (position : Nat) : Prop where
  item : ItemAt items reference position
  first : shared = true → ∀ j < position, ¬ItemAt items reference j

@[simp] theorem extend_nil (list : Node) : list.extend [] = list := by
  cases list
  simp [extend]

@[simp] theorem extend_extend (list : Node) (rs more : List Node) :
    (list.extend rs).extend more = list.extend (rs ++ more) := by
  simp [extend]

theorem plainColumn?_eq_some {item r : Node} (h : item.plainColumn? = some r) :
    item.kind = .derivedColumn ∧ r.kind = .columnName ∧ item.children.head? = some r := by
  unfold plainColumn? at h
  split at h
  · rename_i derived
    rw [Option.filter_eq_some_iff] at h
    exact ⟨derived, by simpa using h.2, h.1⟩
  · cases h

theorem plainColumn?_derived {r : Node} (h : r.kind = .columnName) :
    (derived r).plainColumn? = some r := by
  simp [plainColumn?, derived, ofChildren, h]

theorem mem_plainColumns {items : List Node} {r : Node} :
    r ∈ plainColumns items ↔ ∃ item ∈ items, item.plainColumn? = some r :=
  List.mem_filterMap

theorem plainColumns_map_derived {rs : List Node} (h : ∀ r ∈ rs, r.kind = .columnName) :
    plainColumns (rs.map derived) = rs := by
  induction rs with
  | nil => rfl
  | cons r rest ih =>
    have others := ih fun s mem => h s (by simp [mem])
    rw [plainColumns] at others
    simp [plainColumns, plainColumn?_derived (h r (by simp)), others]

theorem plainColumns_extend (list : Node) {rs : List Node} (h : ∀ r ∈ rs, r.kind = .columnName) :
    plainColumns (list.extend rs).children = plainColumns list.children ++ rs := by
  have new := plainColumns_map_derived h
  rw [plainColumns] at new
  simp [plainColumns, extend, new]

theorem mem_referencesAll_of_mem_plainColumns {items : List Node} {r : Node}
    (h : r ∈ plainColumns items) : r ∈ referencesAll items := by
  obtain ⟨item, mem, plain⟩ := mem_plainColumns.1 h
  obtain ⟨derived, column, head⟩ := plainColumn?_eq_some plain
  rw [referencesAll_eq_flatMap, List.mem_flatMap]
  refine ⟨item, mem, ?_⟩
  rw [references_of_ne (by simp [derived]), referencesAll_eq_flatMap, List.mem_flatMap]
  exact ⟨r, List.mem_of_mem_head? head, by simp [references_of_columnName column]⟩

theorem ItemAt.append {items more : List Node} {r : Node} {i : Nat} (h : ItemAt items r i) :
    ItemAt (items ++ more) r i := by
  obtain ⟨item, here, plain⟩ := h
  obtain ⟨bound, _⟩ := List.getElem?_eq_some_iff.1 here
  exact ⟨item, by rw [List.getElem?_append_left bound, here], plain⟩

theorem ItemAt.of_append {items more : List Node} {r : Node} {i : Nat} (bound : i < items.length)
    (h : ItemAt (items ++ more) r i) : ItemAt items r i := by
  obtain ⟨item, here, plain⟩ := h
  exact ⟨item, by rwa [List.getElem?_append_left bound] at here, plain⟩

theorem ItemAt.lt {items : List Node} {r : Node} {i : Nat} (h : ItemAt items r i) :
    i < items.length := by
  obtain ⟨_, here, _⟩ := h
  exact (List.getElem?_eq_some_iff.1 here).1

theorem ItemAt.mem {items : List Node} {r : Node} {i : Nat} (h : ItemAt items r i) :
    r ∈ plainColumns items := by
  obtain ⟨item, here, plain⟩ := h
  exact mem_plainColumns.2 ⟨item, List.mem_of_getElem? here, plain⟩

/-- Items that come later make no earlier one the first. -/
theorem SlotAt.append {shared : Bool} {items more : List Node} {r : Node} {i : Nat}
    (h : SlotAt shared items r i) : SlotAt shared (items ++ more) r i where
  item := h.item.append
  first here j before found := h.first here j before (found.of_append (Nat.lt_trans before h.item.lt))

theorem SlotAt.unique {items : List Node} {r : Node} {i j : Nat} (h : SlotAt true items r i)
    (h' : SlotAt true items r j) : i = j :=
  Nat.le_antisymm (Nat.le_of_not_lt fun before => h.first rfl j before h'.item)
    (Nat.le_of_not_lt fun before => h'.first rfl i before h.item)

theorem itemAt_map_derived {rs : List Node} (h : ∀ r ∈ rs, r.kind = .columnName) {r : Node}
    {i : Nat} : ItemAt (rs.map derived) r i ↔ rs[i]? = some r := by
  constructor
  · intro h
    obtain ⟨item, here, plain⟩ := h
    rw [List.getElem?_map, Option.map_eq_some_iff] at here
    obtain ⟨s, found, rfl⟩ := here
    rw [plainColumn?_derived (h s (List.mem_of_getElem? found))] at plain
    rw [found, plain]
  · intro found
    exact ⟨derived r, by simp [found], plainColumn?_derived (h r (List.mem_of_getElem? found))⟩

end Node

namespace PushDown

/-- The references that get items of their own, `seen` being those that have one. -/
def fresh (shared : Bool) (seen : List Node) : List Node → List Node
  | [] => []
  | r :: rest =>
    if shared = true ∧ r ∈ seen then fresh shared seen rest
    else r :: fresh shared (seen ++ [r]) rest

theorem fresh_append (shared : Bool) (seen rs more : List Node) :
    fresh shared seen (rs ++ more) =
      fresh shared seen rs ++ fresh shared (seen ++ fresh shared seen rs) more := by
  induction rs generalizing seen with
  | nil => simp [fresh]
  | cons r rest ih =>
    simp only [List.cons_append, fresh]
    split
    · exact ih seen
    · simp [ih]

theorem fresh_unshared (seen rs : List Node) : fresh false seen rs = rs := by
  induction rs generalizing seen with
  | nil => rfl
  | cons r rest ih => simp [fresh, ih]

/-- With shared slots these are the distinct references without an item, each where it is first. -/
theorem fresh_shared (seen rs : List Node) :
    fresh true seen rs = (rs.filter fun r => r ∉ seen).eraseDups := by
  induction rs generalizing seen with
  | nil => rfl
  | cons r rest ih =>
    rw [fresh, List.filter_cons]
    by_cases here : r ∈ seen
    · simp only [here, and_self, if_true, not_true, decide_false, Bool.false_eq_true, if_false]
      exact ih seen
    · have others : (rest.filter fun s => s ∉ seen ++ [r]) =
          (rest.filter fun s => s ∉ seen).filter fun s => !s == r := by
        rw [List.filter_filter]
        refine List.filter_congr fun s _ => ?_
        rw [Bool.eq_iff_iff]
        simp [and_comm]
      simp only [here, and_false, if_false, not_false_eq_true, decide_true, if_true]
      rw [List.eraseDups_cons, ih, others]

theorem fresh_eq_nil {seen rs : List Node} (all : ∀ r ∈ rs, r ∈ seen) : fresh true seen rs = [] := by
  have none : (rs.filter fun r => r ∉ seen) = [] :=
    List.filter_eq_nil_iff.2 fun r mem => by simpa using all r mem
  rw [fresh_shared, none]
  rfl

theorem mem_of_mem_fresh {shared : Bool} {seen rs : List Node} {r : Node}
    (h : r ∈ fresh shared seen rs) : r ∈ rs := by
  induction rs generalizing seen with
  | nil => exact h
  | cons s rest ih =>
    rw [fresh] at h
    split at h
    · exact List.mem_cons_of_mem _ (ih h)
    · rcases List.mem_cons.1 h with rfl | h
      · simp
      · exact List.mem_cons_of_mem _ (ih h)

theorem mem_seen_or_fresh (shared : Bool) (seen : List Node) {rs : List Node} {r : Node}
    (h : r ∈ rs) :
    r ∈ seen ∨ r ∈ fresh shared seen rs := by
  induction rs generalizing seen with
  | nil => simp at h
  | cons s rest ih =>
    rw [fresh]
    split
    · rename_i here
      rcases List.mem_cons.1 h with rfl | h
      · exact .inl here.2
      · exact ih seen h
    · rcases List.mem_cons.1 h with rfl | h
      · simp
      · rcases ih (seen ++ [s]) h with before | after
        · rcases List.mem_append.1 before with old | new
          · exact .inl old
          · exact .inr (by simp [List.mem_singleton.1 new])
        · exact .inr (by simp [after])

theorem length_fresh_le (shared : Bool) (seen rs : List Node) :
    (fresh shared seen rs).length ≤ rs.length := by
  induction rs generalizing seen with
  | nil => simp [fresh]
  | cons r rest ih =>
    rw [fresh]
    split
    · exact Nat.le_succ_of_le (ih seen)
    · exact Nat.succ_le_succ (ih _)

/-- With shared slots no reference gets a second item. -/
theorem nodup_fresh (seen rs : List Node) :
    (fresh true seen rs).Nodup ∧ ∀ r ∈ fresh true seen rs, r ∉ seen := by
  induction rs generalizing seen with
  | nil => simp [fresh]
  | cons r rest ih =>
    rw [fresh]
    split
    · exact ih seen
    · rename_i new
      obtain ⟨distinct, outside⟩ := ih (seen ++ [r])
      refine ⟨List.nodup_cons.2 ⟨fun again => outside r again (by simp), distinct⟩, ?_⟩
      intro s mem old
      rcases List.mem_cons.1 mem with rfl | mem
      · exact new ⟨rfl, old⟩
      · exact outside s mem (by simp [old])

/-- A check that the references with an item pass fails on the new items as it fails on all
references. -/
theorem forM_fresh {shared : Bool} {seen : List Node} {f : Node → Except ε Unit}
    (passed : ∀ r ∈ seen, f r = .ok ()) (rs : List Node) :
    forM (fresh shared seen rs) f = forM rs f := by
  induction rs generalizing seen with
  | nil => rfl
  | cons r rest ih =>
    rw [fresh]
    split
    · rename_i here
      rw [ih passed, List.forM_cons, passed r here.2, ok_bind]
    · rw [List.forM_cons, List.forM_cons]
      cases e : f r with
      | error stop => rfl
      | ok u =>
        rw [ok_bind, ok_bind]
        refine ih fun s mem => ?_
        rcases List.mem_append.1 mem with old | new
        · exact passed s old
        · rw [List.mem_singleton.1 new, e]

end PushDown

/-- Two lists of references that say the same about the columns needed, beside those that have
an item: the first has nothing the second lacks and is no longer, and checks that fail on it
fail on the second, for the same reason if `strict`. -/
structure Represents (strict : Prop) (seen rs rs' : List Node) : Prop where
  subset : ∀ r ∈ rs, r ∈ seen ∨ r ∈ rs'
  length_le : rs.length ≤ rs'.length
  check : ∀ {ε : Type} {f : Node → Except ε Unit}, (∀ r ∈ seen, f r = .ok ()) →
    Follows strict (fun _ _ => True) (forM rs f) (forM rs' f)

theorem forM_eq_ok_iff {f : Node → Except ε Unit} {rs : List Node} :
    forM rs f = .ok () ↔ ∀ r ∈ rs, f r = .ok () := by
  induction rs with
  | nil => simp [pure, Except.pure]
  | cons r rest ih =>
    rw [List.forM_cons, bind_eq_ok_iff, List.forall_mem_cons, ← ih]
    constructor
    · intro h
      obtain ⟨_, here, others⟩ := h
      exact ⟨here, others⟩
    · intro h
      obtain ⟨here, others⟩ := h
      exact ⟨(), here, others⟩

namespace Represents

theorem refl (strict : Prop) (seen rs : List Node) : Represents strict seen rs rs where
  subset _ mem := .inr mem
  length_le := Nat.le_refl _
  check _ := Follows.refl (fun _ => trivial) _

theorem nil (seen rs : List Node) : Represents False seen [] rs where
  subset _ mem := absurd mem List.not_mem_nil
  length_le := Nat.zero_le _
  check {_ f} _ := by
    cases forM rs f with
    | ok u => exact trivial
    | error e => exact id

theorem fresh (strict : Prop) (shared : Bool) (seen rs : List Node) :
    Represents strict seen (PushDown.fresh shared seen rs) rs where
  subset _ mem := .inr (PushDown.mem_of_mem_fresh mem)
  length_le := PushDown.length_fresh_le shared seen rs
  check passed := (Follows.of_eq (PushDown.forM_fresh passed rs)).mono fun _ => trivial

/-- Between what comes before, which covers the columns that have an item, and what comes after,
the new items of the one list represent those of the other; of shared slots there are fewer. -/
theorem between {strict : Prop} {seen rs rs' : List Node} (h : Represents strict seen rs rs')
    {before after : List Node} (covered : ∀ r ∈ seen, r ∈ before) {shared shared' : Bool}
    (order : shared = true ∨ shared' = false) :
    Represents strict [] (PushDown.fresh shared [] (before ++ rs ++ after))
      (PushDown.fresh shared' [] (before ++ rs' ++ after)) := by
  have inside : ∀ r ∈ before ++ rs ++ after, r ∈ before ++ rs' ++ after := by
    intro r mem
    simp only [List.mem_append] at mem ⊢
    rcases mem with (mem | mem) | mem
    · exact .inl (.inl mem)
    · rcases h.subset r mem with old | new
      · exact .inl (.inl (covered r old))
      · exact .inl (.inr new)
    · exact .inr mem
  have subset : ∀ r ∈ PushDown.fresh shared [] (before ++ rs ++ after),
      r ∈ PushDown.fresh shared' [] (before ++ rs' ++ after) := by
    intro r mem
    rcases PushDown.mem_seen_or_fresh shared' [] (inside r (PushDown.mem_of_mem_fresh mem)) with old | new
    · exact absurd old List.not_mem_nil
    · exact new
  refine ⟨fun r mem => .inr (subset r mem), ?_, fun {ε f} _ => ?_⟩
  · -- without repetition a subset is no longer; with all of them counted, the parts are
    cases shared with
    | true => exact ((PushDown.nodup_fresh [] _).1.subperm subset).length_le
    | false =>
      obtain rfl : shared' = false := order.resolve_left Bool.false_ne_true
      have shorter := h.length_le
      simp only [PushDown.fresh_unshared, List.length_append]
      omega
  · rw [PushDown.forM_fresh (by simp), PushDown.forM_fresh (by simp), List.append_assoc, List.append_assoc,
      List.forM_append, List.forM_append, List.forM_append, List.forM_append]
    cases e : forM before f with
    | error stop => exact fun _ => rfl
    | ok u =>
      have passed : ∀ r ∈ seen, f r = .ok () := fun r mem =>
        forM_eq_ok_iff.1 e r (covered r mem)
      refine (h.check passed).bind fun _ => ?_
      exact Follows.refl (fun _ => trivial) _

end Represents

end StatementPlan
