/-
Values under keys, each key at most once, in no order of its own.

`lookup_put_self`, `lookup_put_other`: the last value put under a key counts, and no other
key is touched.
-/
namespace StatementPlan.Keyed

variable {κ : Type} [BEq κ]

/-- The entries with a value in place of one of its key. -/
def put (entries : List (κ × α)) (key : κ) (value : α) : List (κ × α) :=
  (key, value) :: entries.filter fun entry => entry.1 != key

variable [LawfulBEq κ]

theorem lookup_put_self (entries : List (κ × α)) (key : κ) (value : α) :
    (put entries key value).lookup key = some value := by
  simp [put]

theorem lookup_put_other (entries : List (κ × α)) {key other : κ} (value : α)
    (h : other ≠ key) : (put entries key value).lookup other = entries.lookup other := by
  have differs : (other == key) = false := by simpa using h
  simp only [put, List.lookup_cons, differs]
  induction entries with
  | nil => rfl
  | cons entry rest ih =>
    obtain ⟨found, old⟩ := entry
    by_cases e : found = key
    · subst e
      simp [List.lookup_cons, differs, ih]
    · simp only [List.filter_cons, bne_iff_ne, ne_eq, e, not_false_eq_true, if_true,
        List.lookup_cons]
      split <;> simp_all

end StatementPlan.Keyed
