/-
What counters show.  Counts of at most 53 bits are binary numbers, so that up to there a counter
adds up exactly; and the counters after a run are those before it with what each note counts.

`wholePart_ofNat`: a count of at most 53 bits is its own rounding.
`value_addAll`, `value_addAll_other`: a counter after several amounts.
`recordRun_eq`: the counters after a run.
-/
import Mathlib.Algebra.GroupWithZero.Nat
import StatementPlan.Metrics
import StatementPlan.Proofs.Binary64.Rounding

namespace StatementPlan

namespace Binary64

/-- A count of at most 53 bits is its own rounding. -/
theorem wholePart_ofNat {n : Nat} (small : n < Nat.pow 2 53) : (ofNat n).wholePart = n := by
  have positive : (decide ((n : Int) < 0)) = false := by simp
  rw [wholePart, ofNat, ofInt, positive, Int.natAbs_natCast]
  by_cases zero : n = 0
  · subst zero
    rw [Nat.zero_mul]
    decide +kernel
  · obtain ⟨k, exponent, one⟩ := exists_unit
    have pos : 0 < n := Nat.pos_of_ne_zero zero
    have bits : n.log2 < 53 := (Nat.log2_lt zero).2 small
    have finite : rankNear (n * Nat.pow 2 k) 1 < infinityRank := near_finite pos (by omega)
    have grain : 0 < Nat.pow 2 k := Nat.two_pow_pos k
    rw [one, rank_ofRank false (finite_lt_limit finite), near_exact pos small finite,
      Nat.mul_div_cancel n grain]

end Binary64

namespace Samples

theorem rounded_small {n : Nat} (small : n < Nat.pow 2 53) : rounded n = n :=
  Binary64.wholePart_ofNat small

/-- The samples after several amounts are counted. -/
def addAll (s : Samples) (amounts : List (String × Nat)) : Samples :=
  amounts.foldl (fun s amount => s.add amount.1 amount.2) s

/-- What the amounts come to for the counter of a label. -/
def totalFor (label : String) : List (String × Nat) → Nat
  | [] => 0
  | amount :: rest => (if digest amount.1 = digest label then amount.2 else 0) + totalFor label rest

variable {s : Samples} {label : String}

theorem addAll_append (s : Samples) (amounts more : List (String × Nat)) :
    s.addAll (amounts ++ more) = (s.addAll amounts).addAll more := List.foldl_append ..

theorem totalFor_append (label : String) (amounts more : List (String × Nat)) :
    totalFor label (amounts ++ more) = totalFor label amounts + totalFor label more := by
  induction amounts with
  | nil => exact (Nat.zero_add _).symm
  | cons amount rest ih => rw [List.cons_append, totalFor, totalFor, ih, Nat.add_assoc]

theorem totalFor_flatMap {f : α → List (String × Nat)} {g : α → Nat}
    (each : ∀ a, totalFor label (f a) = g a)
    (as : List α) : totalFor label (as.flatMap f) = (as.map g).sum := by
  induction as with
  | nil => rfl
  | cons a rest ih => rw [List.flatMap_cons, totalFor_append, each, ih, List.map_cons, List.sum_cons]

theorem value_congr {other : String} (same : digest other = digest label) :
    s.value other = s.value label := by
  rw [value, value, counter?, counter?, same]

theorem value_addAll_other {amounts : List (String × Nat)}
    (others : ∀ a ∈ amounts, digest a.1 ≠ digest label) :
    (s.addAll amounts).value label = s.value label := by
  induction amounts generalizing s with
  | nil => rfl
  | cons amount rest ih =>
    have here := (others amount (by simp)).symm
    rw [addAll, List.foldl_cons]
    exact (ih fun a mem => others a (by simp [mem])).trans (value_add_other s amount.2 here)

/-- As long as the sum has at most 53 bits, a counter grows by just what is counted. -/
theorem value_addAll {amounts : List (String × Nat)}
    (small : s.value label + totalFor label amounts < Nat.pow 2 53) :
    (s.addAll amounts).value label = s.value label + totalFor label amounts := by
  induction amounts generalizing s with
  | nil => rfl
  | cons amount rest ih =>
    rw [addAll, List.foldl_cons]
    rw [totalFor] at small ⊢
    by_cases here : digest amount.1 = digest label
    · rw [if_pos here] at small ⊢
      have counted : (s.add amount.1 amount.2).value label = s.value label + amount.2 := by
        rw [← value_congr here, value_add_self, value_congr here, @rounded_small amount.2 (by omega),
          rounded_small (by omega)]
      exact (ih (by omega)).trans (by omega)
    · rw [if_neg here] at small ⊢
      have kept := value_add_other s amount.2 (Ne.symm here)
      exact (ih (by omega)).trans (by omega)

end Samples

namespace Note

/-- What a note counts, by family: builders at work, pushed columns, defects. -/
def builderAmounts : Note → List (String × Nat)
  | built builder => [(builder.name, 1)]
  | _ => []

def pushDownAmounts : Note → List (String × Nat)
  | pushedDown inserted reused => [("inserted", inserted), ("reused", reused)]
  | _ => []

def defectAmounts : Note → List (String × Nat)
  | defect d => [(d.label, 1)]
  | _ => []

end Note

namespace Metrics

theorem record_eq (m : Metrics) (n : Note) : m.record n =
    ⟨m.builders.addAll n.builderAmounts, m.pushDowns.addAll n.pushDownAmounts,
      m.defects.addAll n.defectAmounts⟩ := by
  cases n <;> rfl

theorem recordRun_eq (m : Metrics) (x : Run α) : m.recordRun x =
    ⟨m.builders.addAll (x.notes.flatMap Note.builderAmounts),
      m.pushDowns.addAll (x.notes.flatMap Note.pushDownAmounts),
      m.defects.addAll (x.notes.flatMap Note.defectAmounts)⟩ := by
  rw [recordRun]
  induction x.notes generalizing m with
  | nil => rfl
  | cons n rest ih =>
    simp only [List.foldl_cons, ih, record_eq, List.flatMap_cons, Samples.addAll_append]

end Metrics

end StatementPlan
