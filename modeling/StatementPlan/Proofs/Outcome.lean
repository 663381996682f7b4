/-
Computations that may fail.  Of one of them: what it may fail with.  Of two, side by side: one
follows the other if it answers whenever the other does, with a related answer.  It follows
strictly if it also fails whenever the other does, for the same reason; then each follows the other.
They end alike if the reasons, too, are only related.

`StopsIn.bind`: a sequence fails with what its steps may fail with.
`Follows.bind`: sequences follow each other if their steps do.
`Follows.cases_strict`: what strict following says of the two ends.
`EndAlike.bind`: sequences end alike if their steps do.
-/
namespace StatementPlan

@[simp] theorem ok_bind (a : α) (f : α → Except ε β) : (.ok a >>= f) = f a := rfl

@[simp] theorem error_bind (e : ε) (f : α → Except ε β) : (.error e >>= f) = .error e := rfl

@[simp] theorem map_ok (f : α → β) (a : α) : f <$> (.ok a : Except ε α) = .ok (f a) := rfl

@[simp] theorem map_error (f : α → β) (e : ε) : f <$> (.error e : Except ε α) = .error e := rfl

theorem map_eq_ok_iff {f : α → β} {x : Except ε α} {b : β} :
    f <$> x = .ok b ↔ ∃ a, x = .ok a ∧ f a = b := by
  cases x <;> simp

theorem map_eq_error_iff {f : α → β} {x : Except ε α} {e : ε} : f <$> x = .error e ↔ x = .error e := by
  cases x <;> simp

theorem bind_eq_error_iff {x : Except ε α} {f : α → Except ε β} {e : ε} :
    (x >>= f) = .error e ↔ x = .error e ∨ ∃ a, x = .ok a ∧ f a = .error e := by
  cases x <;> simp

/-- What may be there is computed if it is there. -/
theorem mapM_option_eq_ok {f : α → Except ε β} {x : Option α} {y : Option β} :
    x.mapM f = .ok y ↔ Option.Rel (fun a b => f a = .ok b) x y := by
  cases x with
  | none =>
    cases y with
    | none => exact ⟨fun _ => .none, fun _ => rfl⟩
    | some b => exact ⟨nofun, nofun⟩
  | some a =>
    rw [Option.mapM_some, map_eq_ok_iff]
    cases y with
    | none => exact ⟨nofun, nofun⟩
    | some b =>
      constructor
      · rintro ⟨_, made, ⟨⟩⟩
        exact .some made
      · rintro ⟨made⟩
        exact ⟨b, made, rfl⟩

theorem optionRel_map {R : α → β → Prop} {f : α → β} {x : Option α}
    (each : ∀ a, x = some a → R a (f a)) : Option.Rel R x (x.map f) := by
  cases x with
  | none => exact .none
  | some a => exact .some (each a rfl)

theorem optionRel_self {R : α → α → Prop} {x : Option α} (each : ∀ a, x = some a → R a a) :
    Option.Rel R x x := by
  simpa using optionRel_map (f := id) each

/-- Whatever the computation stops with satisfies the predicate. -/
def StopsIn (P : ε → Prop) (x : Except ε α) : Prop := ∀ e, x = .error e → P e

namespace StopsIn

variable {P Q : ε → Prop} {x : Except ε α}

theorem ok (a : α) : StopsIn P (.ok a) := nofun

theorem error {e : ε} (h : P e) : StopsIn P (.error e : Except ε α) := by
  intro e' same
  obtain rfl := Except.error.inj same
  exact h

theorem bind {f : α → Except ε β} (h : StopsIn P x) (next : ∀ a, x = .ok a → StopsIn P (f a)) :
    StopsIn P (x >>= f) := by
  cases x with
  | ok a => exact next a rfl
  | error e => exact .error (h e rfl)

theorem map (h : StopsIn P x) (f : α → β) : StopsIn P (f <$> x) := by
  cases x with
  | ok a => exact .ok _
  | error e => exact .error (h e rfl)

theorem mono (h : StopsIn P x) (weaker : ∀ e, P e → Q e) : StopsIn Q x :=
  fun e stopped => weaker e (h e stopped)

end StopsIn

/-- The first computation answers whenever the second does, with a related answer.  If
`strict`, it fails whenever the second does, and for the same reason. -/
def Follows (strict : Prop) (related : α → β → Prop) : Except ε α → Except ε β → Prop
  | .ok a, .ok b => related a b
  | .error e, .error e' => strict → e = e'
  | .ok _, .error _ => ¬strict
  | .error _, .ok _ => False

namespace Follows

variable {strict : Prop} {R : α → β → Prop} {x : Except ε α} {y : Except ε β}

theorem refl {R : α → α → Prop} (h : ∀ a, R a a) (x : Except ε α) : Follows strict R x x := by
  cases x with
  | ok a => exact h a
  | error e => exact fun _ => rfl

theorem of_eq {x y : Except ε α} (h : x = y) : Follows strict Eq x y :=
  h ▸ refl (fun _ => rfl) x

theorem mono {Q : α → β → Prop} (h : Follows strict R x y) (weaker : ∀ {a b}, R a b → Q a b) :
    Follows strict Q x y := by
  cases x <;> cases y
  · exact h
  · exact h
  · exact h
  · exact weaker h

theorem relax (h : Follows True R x y) : Follows strict R x y := by
  cases x <;> cases y
  · exact fun _ => h trivial
  · exact h
  · exact absurd trivial h
  · exact h

theorem bind {Q : γ → δ → Prop} {f : α → Except ε γ} {g : β → Except ε δ}
    (h : Follows strict R x y) (next : ∀ {a b}, R a b → Follows strict Q (f a) (g b)) :
    Follows strict Q (x >>= f) (y >>= g) := by
  cases x with
  | error e =>
    cases y with
    | error e' => exact h
    | ok b => exact h.elim
  | ok a =>
    cases y with
    | ok b => exact next h
    | error e' =>
      show Follows strict Q (f a) (.error e')
      cases f a with
      | ok c => exact h
      | error e => exact fun s => absurd s h

theorem bind_same {Q : γ → δ → Prop} (x : Except ε α) {f : α → Except ε γ} {g : α → Except ε δ}
    (next : ∀ a, Follows strict Q (f a) (g a)) : Follows strict Q (x >>= f) (x >>= g) := by
  cases x with
  | ok a => exact next a
  | error e => exact fun _ => rfl

theorem map {Q : γ → δ → Prop} {f : α → γ} {g : β → δ} (h : Follows strict R x y)
    (next : ∀ {a b}, R a b → Q (f a) (g b)) : Follows strict Q (f <$> x) (g <$> y) := by
  cases x <;> cases y
  · exact h
  · exact h
  · exact h
  · exact next h

theorem trans {Q : β → γ → Prop} {P : α → γ → Prop} {z : Except ε γ} (h : Follows strict R x y)
    (h' : Follows strict Q y z) (both : ∀ {a b c}, R a b → Q b c → P a c) :
    Follows strict P x z := by
  cases y with
  | ok b =>
    cases x with
    | error e => exact h.elim
    | ok a =>
      cases z with
      | ok c => exact both h h'
      | error e => exact h'
  | error e =>
    cases z with
    | ok c => exact h'.elim
    | error e' =>
      cases x with
      | ok a => exact h
      | error e'' => exact fun s => (h s).trans (h' s)

theorem symm {Q : β → α → Prop} (h : Follows True R x y) (back : ∀ {a b}, R a b → Q b a) :
    Follows True Q y x := by
  cases x <;> cases y
  · exact fun _ => (h trivial).symm
  · exact h.elim
  · exact absurd trivial h
  · exact back h

theorem with_left {P : α → Prop} (h : Follows strict R x y) (left : ∀ a, x = .ok a → P a) :
    Follows strict (fun a b => P a ∧ R a b) x y := by
  cases x with
  | error e => cases y <;> exact h
  | ok a =>
    cases y with
    | ok b => exact ⟨left a rfl, h⟩
    | error e => exact h

theorem ok {b : β} (h : Follows strict R x (.ok b)) : ∃ a, x = .ok a ∧ R a b := by
  cases x with
  | ok a => exact ⟨a, rfl, h⟩
  | error e => exact h.elim

/-- The other way round, if only answers are to be followed. -/
theorem of_ok (h : ∀ b, y = .ok b → ∃ a, x = .ok a ∧ R a b) : Follows False R x y := by
  cases y with
  | error e =>
    cases x with
    | ok a => exact not_false
    | error e' => exact False.elim
  | ok b =>
    obtain ⟨a, rfl, related⟩ := h b rfl
    exact related

theorem ok_left {a : α} (h : Follows True R (.ok a : Except ε α) y) : ∃ b, y = .ok b ∧ R a b :=
  (h.symm id).ok

/-- Strictly, either both fail for one reason or both answer, with related answers. -/
theorem cases_strict (h : Follows True R x y) :
    (∃ e, x = .error e ∧ y = .error e) ∨ ∃ a b, x = .ok a ∧ y = .ok b ∧ R a b := by
  cases x <;> cases y
  · exact .inl ⟨_, congrArg _ (h trivial), rfl⟩
  · exact h.elim
  · exact absurd trivial h
  · exact .inr ⟨_, _, rfl, rfl, h⟩

end Follows

/-- Both computations answer, with related answers, or both fail, for related reasons. -/
inductive EndAlike (E : ε → ε' → Prop) (R : α → β → Prop) : Except ε α → Except ε' β → Prop
  | ok {a : α} {b : β} (answers : R a b) : EndAlike E R (.ok a) (.ok b)
  | error {e : ε} {e' : ε'} (reasons : E e e') : EndAlike E R (.error e) (.error e')

theorem Follows.endAlike {R : α → β → Prop} {x : Except ε α} {y : Except ε β} (h : Follows True R x y) :
    EndAlike Eq R x y := by
  cases x <;> cases y
  · exact .error (h trivial)
  · exact h.elim
  · exact absurd trivial h
  · exact .ok h

namespace EndAlike

variable {E : ε → ε' → Prop} {R : α → β → Prop} {x : Except ε α} {y : Except ε' β}

theorem refl {E : ε → ε → Prop} {R : α → α → Prop} (reasons : ∀ e, E e e) (answers : ∀ a, R a a)
    (x : Except ε α) : EndAlike E R x x := by
  cases x with
  | ok a => exact .ok (answers a)
  | error e => exact .error (reasons e)

/-- Of a computation that answers itself, the one answer counts. -/
theorem self {E : ε → ε → Prop} {R : α → α → Prop} (reasons : ∀ e, E e e) {x : Except ε α}
    (answers : ∀ a, x = .ok a → R a a) : EndAlike E R x x := by
  cases x with
  | ok a => exact .ok (answers a rfl)
  | error e => exact .error (reasons e)

theorem mono {E' : ε → ε' → Prop} {Q : α → β → Prop} (h : EndAlike E R x y)
    (reasons : ∀ {e e'}, E e e' → E' e e') (answers : ∀ {a b}, R a b → Q a b) : EndAlike E' Q x y := by
  cases h with
  | ok here => exact .ok (answers here)
  | error here => exact .error (reasons here)

theorem bind {Q : γ → δ → Prop} {f : α → Except ε γ} {g : β → Except ε' δ} (h : EndAlike E R x y)
    (next : ∀ {a b}, R a b → EndAlike E Q (f a) (g b)) : EndAlike E Q (x >>= f) (y >>= g) := by
  cases h with
  | ok here => exact next here
  | error here => exact .error here

theorem bind_same {E : ε → ε → Prop} {Q : γ → δ → Prop} {f : α → Except ε γ} {g : α → Except ε δ}
    (reasons : ∀ e, E e e) (x : Except ε α) (next : ∀ a, x = .ok a → EndAlike E Q (f a) (g a)) :
    EndAlike E Q (x >>= f) (x >>= g) := by
  cases x with
  | ok a => exact next a rfl
  | error e => exact .error (reasons e)

theorem map {Q : γ → δ → Prop} {f : α → γ} {g : β → δ} (h : EndAlike E R x y)
    (next : ∀ {a b}, R a b → Q (f a) (g b)) : EndAlike E Q (f <$> x) (g <$> y) := by
  cases h with
  | ok here => exact .ok (next here)
  | error here => exact .error here

theorem symm {E' : ε' → ε → Prop} {Q : β → α → Prop} (h : EndAlike E R x y)
    (reasons : ∀ {e e'}, E e e' → E' e' e) (answers : ∀ {a b}, R a b → Q b a) : EndAlike E' Q y x := by
  cases h with
  | ok here => exact .ok (answers here)
  | error here => exact .error (reasons here)

theorem trans {E' : ε' → ε'' → Prop} {E'' : ε → ε'' → Prop} {Q : β → γ → Prop} {P : α → γ → Prop}
    {z : Except ε'' γ} (h : EndAlike E R x y) (h' : EndAlike E' Q y z)
    (reasons : ∀ {e e' e''}, E e e' → E' e' e'' → E'' e e'')
    (answers : ∀ {a b c}, R a b → Q b c → P a c) : EndAlike E'' P x z := by
  cases h with
  | ok here =>
    cases h' with
    | ok there => exact .ok (answers here there)
  | error here =>
    cases h' with
    | error there => exact .error (reasons here there)

/-- Ends that are each like a third are alike. -/
theorem through {E : ε → ε → Prop} {R : α → α → Prop} {x y z : Except ε α} (h : EndAlike E R x z)
    (h' : EndAlike E R y z) (reasons : Equivalence E) (answers : Equivalence R) : EndAlike E R x y :=
  h.trans (h'.symm reasons.symm answers.symm) reasons.trans answers.trans

/-- What fails with other errors ends alike, if each goes with the other one. -/
theorem mapError {E : ε → ε' → Prop} {g : ε → ε'} (reasons : ∀ e, E e (g e)) (x : Except ε α) :
    EndAlike E Eq x (x.mapError g) := by
  cases x with
  | ok a => exact .ok rfl
  | error e => exact .error (reasons e)

theorem ends (h : EndAlike E R x y) :
    (∃ e e', x = .error e ∧ y = .error e' ∧ E e e') ∨ ∃ a b, x = .ok a ∧ y = .ok b ∧ R a b := by
  cases h with
  | ok here => exact .inr ⟨_, _, rfl, rfl, here⟩
  | error here => exact .inl ⟨_, _, rfl, rfl, here⟩

end EndAlike

end StatementPlan
