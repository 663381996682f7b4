/-
Quoted texts show where they end.  A written character is told from the next one by its backslash
and the one after it, so that no character, a quote or a line feed among them, ends a text too
early.

`escape_append_inj`: written characters.
`quoted_append_inj`: quoted texts.
-/
import StatementPlan.Proofs.Text.Separated
import StatementPlan.Text.Quoted

namespace StatementPlan.Quoted

theorem digitChar_inj {m n : Nat} (below : m < 16) (below' : n < 16)
    (same : m.digitChar = n.digitChar) : m = n := by
  have all : ∀ m : Fin 16, ∀ n : Fin 16, Nat.digitChar m = Nat.digitChar n → m = n := by decide
  exact congrArg Fin.val (all ⟨m, below⟩ ⟨n, below'⟩ same)

theorem toDigits_sixteen_inj {m n : Nat} (same : Nat.toDigits 16 m = Nat.toDigits 16 n) : m = n := by
  have nonempty : ∀ n, Nat.toDigits 16 n ≠ [] := fun n => Nat.toDigits_ne_nil
  induction m using Nat.strongRecOn generalizing n with
  | ind m ih =>
    by_cases short : m < 16 <;> by_cases short' : n < 16
    · rw [Nat.toDigits_of_lt_base short, Nat.toDigits_of_lt_base short'] at same
      exact digitChar_inj short short' (List.singleton_inj.1 same)
    · have shape := Nat.toDigits_of_base_le (b := 16) (by omega) (Nat.le_of_not_lt short')
      rw [Nat.toDigits_of_lt_base short, shape] at same
      simpa [nonempty] using congrArg List.length same
    · have shape := Nat.toDigits_of_base_le (b := 16) (by omega) (Nat.le_of_not_lt short)
      rw [Nat.toDigits_of_lt_base short', shape] at same
      simpa [nonempty] using congrArg List.length same
    · rw [Nat.toDigits_of_base_le (by omega) (Nat.le_of_not_lt short),
        Nat.toDigits_of_base_le (by omega) (Nat.le_of_not_lt short')] at same
      obtain ⟨higher, last⟩ := List.append_inj' same rfl
      have quotients := ih (m / 16) (by omega) higher
      have remainders := digitChar_inj (by omega) (by omega) (List.singleton_inj.1 last)
      omega

theorem digit_ne_brace {n : Nat} {k : Char} (mem : k ∈ Nat.toDigits 16 n) : k ≠ '\x7d' := by
  have digits : ∀ m : Fin 16, Nat.digitChar m ≠ '\x7d' := by decide
  induction n using Nat.strongRecOn with
  | ind n ih =>
    by_cases short : n < 16
    · rw [Nat.toDigits_of_lt_base short, List.mem_singleton] at mem
      exact mem ▸ digits ⟨n, short⟩
    · rw [Nat.toDigits_of_base_le (by omega) (Nat.le_of_not_lt short), List.mem_append,
        List.mem_singleton] at mem
      rcases mem with higher | rfl
      · exact ih (n / 16) (by omega) higher
      · exact digits ⟨n % 16, by omega⟩

/-- The character that a backslash and a letter stand for. -/
def meant : Char → Char
  | 'n' => '\n'
  | 'r' => '\r'
  | 't' => '\t'
  | '0' => '\x00'
  | c => c

/-- How a character is written: a letter after a backslash, a code point, or as it is. -/
inductive Escaped : Char → List Char → Prop
  | letter {k : Char} (other : k ≠ 'u') : Escaped (meant k) ['\\', k]
  | codePoint (c : Char) : Escaped c (codePoint c)
  | plain {c : Char} (quote : c ≠ '"') (backslash : c ≠ '\\') : Escaped c [c]

theorem escape_escaped (c : Char) : Escaped c (escape c) := by
  unfold escape
  split
  · exact .letter (k := '"') (by decide)
  · exact .letter (k := '\\') (by decide)
  · exact .letter (k := 'n') (by decide)
  · exact .letter (k := 'r') (by decide)
  · exact .letter (k := 't') (by decide)
  · exact .letter (k := '0') (by decide)
  · split
    · exact .codePoint c
    · exact .plain ‹_› ‹_›

theorem codePoint_append_inj {c d : Char} {rest rest' : List Char}
    (same : codePoint c ++ rest = codePoint d ++ rest') : c = d ∧ rest = rest' := by
  simp only [codePoint, List.append_assoc, List.cons_append, List.nil_append, List.cons.injEq,
    true_and] at same
  have inside : ∀ n, ∀ k ∈ Nat.toDigits 16 n, (k != '\x7d') = true := fun n k mem => by
    simpa using digit_ne_brace mem
  obtain ⟨digits, rests⟩ := run_append_inj (inside _) (inside _) (by simp [Stops]) (by simp [Stops]) same
  exact ⟨Char.toNat_inj.1 (toDigits_sixteen_inj digits), (List.cons.inj rests).2⟩

theorem escape_append_inj {c d : Char} {rest rest' : List Char}
    (same : escape c ++ rest = escape d ++ rest') : c = d ∧ rest = rest' := by
  have here := escape_escaped c
  have there := escape_escaped d
  generalize escape c = text at here same
  generalize escape d = text' at there same
  cases here with
  | letter other =>
    cases there with
    | letter => simp_all
    | codePoint => exact absurd (List.cons.inj (List.cons.inj same).2).1 other
    | plain _ backslash => exact absurd (List.cons.inj same).1.symm backslash
  | codePoint =>
    cases there with
    | letter other => exact absurd (List.cons.inj (List.cons.inj same).2).1.symm other
    | codePoint => exact codePoint_append_inj same
    | plain _ backslash => exact absurd (List.cons.inj same).1.symm backslash
  | plain _ backslash =>
    cases there with
    | letter | codePoint => exact absurd (List.cons.inj same).1 backslash
    | plain => exact List.cons.inj same

/-- No written character starts like the end of the text. -/
theorem escape_ne_quote (c : Char) (rest rest' : List Char) : escape c ++ rest ≠ '"' :: rest' := by
  have here := escape_escaped c
  generalize escape c = text at here
  cases here with
  | letter => simp
  | codePoint => simp [codePoint]
  | plain quote => simp [quote]

/-- A quoted text ends at its quote. -/
theorem quoted_append_inj {cs ds rest rest' : List Char}
    (same : cs.flatMap escape ++ '"' :: rest = ds.flatMap escape ++ '"' :: rest') :
    cs = ds ∧ rest = rest' := by
  induction cs generalizing ds with
  | nil =>
    cases ds with
    | nil => exact ⟨rfl, (List.cons.inj same).2⟩
    | cons d ds =>
      rw [List.flatMap_cons, List.append_assoc] at same
      exact absurd same.symm (escape_ne_quote d _ rest)
  | cons c cs ih =>
    cases ds with
    | nil =>
      rw [List.flatMap_cons, List.append_assoc] at same
      exact absurd same (escape_ne_quote c _ rest')
    | cons d ds =>
      rw [List.flatMap_cons, List.flatMap_cons, List.append_assoc, List.append_assoc] at same
      obtain ⟨rfl, others⟩ := escape_append_inj same
      obtain ⟨rfl, rests⟩ := ih others
      exact ⟨rfl, rests⟩

end StatementPlan.Quoted
