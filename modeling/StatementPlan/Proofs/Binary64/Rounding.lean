/-
What rounding does to magnitudes.  A rank stands for a significand of at most 53 bits over an
exponent, and the rank nearest to a magnitude for the magnitude with its lowest bits rounded away;
so a magnitude that has a rank of its own is rounded to it, and one that is a whole number to a
whole number of about the same size.

`rankNear_units`: a magnitude of a rank is its own rounding.
`units_rankNear`: the magnitude that another one is rounded to.
`whole_near`, `near_between`, `near_exact`: what whole numbers are rounded to.
-/
import StatementPlan.Binary64.Rounding

namespace StatementPlan.Binary64

theorem roundDiv_exact (low : Nat) {den : Nat} (pos : 0 < den) : roundDiv (low * den) den = low := by
  simp only [roundDiv, Nat.mul_div_cancel low pos, Nat.mul_mod_left]
  rw [if_pos (by omega)]

theorem roundDiv_between (num den : Nat) :
    num / den ≤ roundDiv num den ∧ roundDiv num den ≤ num / den + 1 := by
  unfold roundDiv
  dsimp only
  split
  · omega
  · split <;> omega

theorem log2_shifted {n : Nat} (pos : 0 < n) (k : Nat) : (n * Nat.pow 2 k).log2 = n.log2 + k := by
  have nonzero : n ≠ 0 := by omega
  have power : 0 < Nat.pow 2 k := Nat.two_pow_pos k
  refine (Nat.log2_eq_iff (Nat.mul_ne_zero nonzero (Nat.ne_of_gt power))).2 ⟨?_, ?_⟩
  · rw [Nat.pow_add]
    exact Nat.mul_le_mul_right _ (Nat.log2_self_le nonzero)
  · rw [Nat.add_right_comm, Nat.pow_add]
    exact Nat.mul_lt_mul_of_pos_right Nat.lt_log2_self power

/-- The least positive number by its power. -/
theorem exists_unit : ∃ k, k = 1074 ∧ unitsPerOne = Nat.pow 2 k :=
  ⟨1074, rfl, by delta unitsPerOne; exact Eq.refl _⟩

theorem finite_lt_limit {rank : Nat} (finite : rank < infinityRank) : rank < rankLimit :=
  Nat.lt_trans finite (by decide)

/-! ## Ranks as significands over exponents -/

/-- The rank is made of a significand of 53 bits, or just above, and an exponent; only with the
least exponent may the significand have fewer bits. -/
structure Parts (rank exponent significand : Nat) : Prop where
  sum : rank = exponent * fractionCount + significand
  most : significand ≤ 2 * fractionCount
  least : exponent = 0 ∨ fractionCount ≤ significand

theorem units_of_fraction (exponent : Nat) {fraction : Nat} (bound : fraction < fractionCount) :
    units ((exponent + 1) * fractionCount + fraction) = (fractionCount + fraction) * Nat.pow 2 exponent := by
  have pos : 0 < fractionCount := Nat.two_pow_pos 52
  have above : ¬(exponent + 1) * fractionCount + fraction < fractionCount := by
    rw [Nat.add_mul, Nat.one_mul]
    omega
  rw [units, if_neg above, Nat.mul_comm (exponent + 1), Nat.mul_add_mod, Nat.mod_eq_of_lt bound,
    Nat.mul_add_div pos, Nat.div_eq_of_lt bound]
  rfl

theorem Parts.units {rank exponent significand : Nat} (h : Parts rank exponent significand) :
    units rank = significand * Nat.pow 2 exponent := by
  obtain ⟨rfl, most, least⟩ := h
  have split : (exponent + 1) * fractionCount = exponent * fractionCount + fractionCount := Nat.succ_mul ..
  by_cases small : significand < fractionCount
  · obtain rfl : exponent = 0 := by omega
    rw [Nat.zero_mul, Nat.zero_add, Binary64.units, if_pos small]
    exact (Nat.mul_one _).symm
  by_cases full : significand = 2 * fractionCount
  · -- all bits were rounded up: one more in the exponent and no fraction
    have next := @units_of_fraction (exponent + 1) 0 (Nat.two_pow_pos 52)
    have shape : exponent * fractionCount + significand = (exponent + 1 + 1) * fractionCount + 0 := by
      rw [Nat.succ_mul]
      omega
    have double : Nat.pow 2 (exponent + 1) = 2 * Nat.pow 2 exponent := Nat.pow_succ'
    rw [shape, next, double, full, Nat.add_zero, Nat.mul_comm 2 fractionCount, Nat.mul_assoc]
  · obtain ⟨fraction, rfl⟩ : ∃ fraction, significand = fractionCount + fraction :=
      ⟨significand - fractionCount, by omega⟩
    have shape : exponent * fractionCount + (fractionCount + fraction) =
        (exponent + 1) * fractionCount + fraction := by omega
    rw [shape, units_of_fraction exponent (by omega)]

theorem exists_parts (rank : Nat) :
    ∃ exponent significand, Parts rank exponent significand ∧ significand < 2 * fractionCount := by
  have pos : 0 < fractionCount := Nat.two_pow_pos 52
  by_cases small : rank < fractionCount
  · exact ⟨0, rank, ⟨by omega, by omega, .inl rfl⟩, by omega⟩
  · have whole := Nat.div_add_mod' rank fractionCount
    have fraction := Nat.mod_lt rank pos
    have normal : 0 < rank / fractionCount := Nat.div_pos (by omega) pos
    obtain ⟨exponent, shape⟩ : ∃ exponent, rank / fractionCount = exponent + 1 :=
      ⟨rank / fractionCount - 1, by omega⟩
    rw [shape, Nat.succ_mul] at whole
    exact ⟨exponent, fractionCount + rank % fractionCount, ⟨by omega, by omega, .inr (by omega)⟩, by omega⟩

theorem units_pos {rank : Nat} (pos : 0 < rank) : 0 < units rank := by
  obtain ⟨exponent, significand, parts, -⟩ := exists_parts rank
  have nonzero : 0 < significand := by
    rcases parts.least with rfl | normal
    · have sum := parts.sum
      omega
    · exact Nat.lt_of_lt_of_le (Nat.two_pow_pos 52) normal
  rw [parts.units]
  exact Nat.mul_pos nonzero (Nat.two_pow_pos exponent)

/-- Finite magnitudes are below two to the power 1024, of which the least one is the power -1074. -/
theorem units_lt {rank bits : Nat} (finite : rank < infinityRank) (enough : 1024 + 1074 ≤ bits) :
    units rank < Nat.pow 2 bits := by
  obtain ⟨exponent, significand, parts, bound⟩ := exists_parts rank
  have small : exponent ≤ 2045 := by
    rcases parts.least with rfl | normal
    · omega
    · have sum := parts.sum
      have below : (exponent + 1) * fractionCount < 2047 * fractionCount := by
        rw [Nat.succ_mul]
        exact Nat.lt_of_le_of_lt (by omega) finite
      have := Nat.lt_of_mul_lt_mul_right below
      omega
  rw [parts.units]
  calc significand * Nat.pow 2 exponent
    _ < 2 * fractionCount * Nat.pow 2 exponent := Nat.mul_lt_mul_of_pos_right bound (Nat.two_pow_pos exponent)
    _ = Nat.pow 2 (53 + exponent) := (Nat.pow_add 2 53 exponent).symm
    _ ≤ Nat.pow 2 bits := Nat.pow_le_pow_right (by omega) (by omega)

/-! ## The rank nearest to a magnitude -/

/-- What is left of a quotient after the bits beyond 53 are dropped. -/
theorem kept_bits (num den : Nat) :
    num / (den * Nat.pow 2 (shiftOf num den)) < 2 * fractionCount ∧
      (shiftOf num den = 0 ∨ fractionCount ≤ num / (den * Nat.pow 2 (shiftOf num den))) := by
  rw [← Nat.div_div_eq_div_mul, shiftOf]
  generalize num / den = quotient
  have power : 0 < Nat.pow 2 (quotient.log2 + 1 - 53) := Nat.two_pow_pos _
  constructor
  · rw [Nat.div_lt_iff_lt_mul power]
    calc quotient < Nat.pow 2 (quotient.log2 + 1) := Nat.lt_log2_self
      _ ≤ Nat.pow 2 (53 + (quotient.log2 + 1 - 53)) := Nat.pow_le_pow_right (by omega) (by omega)
      _ = 2 * fractionCount * Nat.pow 2 (quotient.log2 + 1 - 53) := Nat.pow_add ..
  · by_cases short : quotient.log2 + 1 - 53 = 0
    · exact .inl short
    · refine .inr ((Nat.le_div_iff_mul_le power).2 ?_)
      have nonzero : quotient ≠ 0 := by
        rintro rfl
        exact short (by simp)
      calc fractionCount * Nat.pow 2 (quotient.log2 + 1 - 53)
          = Nat.pow 2 (52 + (quotient.log2 + 1 - 53)) := (Nat.pow_add ..).symm
        _ = Nat.pow 2 quotient.log2 := by
          congr 1
          omega
        _ ≤ quotient := Nat.log2_self_le nonzero

/-- What remains after rounding is a significand for the bits that were dropped. -/
theorem rounded_parts (num den : Nat) :
    Parts (shiftOf num den * fractionCount + roundDiv num (den * Nat.pow 2 (shiftOf num den)))
      (shiftOf num den) (roundDiv num (den * Nat.pow 2 (shiftOf num den))) := by
  have kept := kept_bits num den
  have between := roundDiv_between num (den * Nat.pow 2 (shiftOf num den))
  exact ⟨rfl, by omega, by omega⟩

theorem rankNear_finite {num den : Nat} (finite : rankNear num den < infinityRank) :
    rankNear num den =
      shiftOf num den * fractionCount + roundDiv num (den * Nat.pow 2 (shiftOf num den)) := by
  rw [rankNear] at finite ⊢
  omega

/-- The magnitude of the nearest rank: the bits beyond 53 are rounded away. -/
theorem units_rankNear {num den : Nat} (finite : rankNear num den < infinityRank) :
    units (rankNear num den) =
      roundDiv num (den * Nat.pow 2 (shiftOf num den)) * Nat.pow 2 (shiftOf num den) := by
  rw [rankNear_finite finite]
  exact (rounded_parts num den).units

theorem rankNear_units {rank den : Nat} (finite : rank < infinityRank) (pos : 0 < den) :
    rankNear (units rank * den) den = rank := by
  obtain ⟨exponent, significand, parts, bound⟩ := exists_parts rank
  have shift : shiftOf (units rank * den) den = exponent := by
    rw [shiftOf, Nat.mul_div_cancel _ pos, parts.units]
    rcases parts.least with rfl | normal
    · have short : significand.log2 < 53 := by
        by_cases zero : significand = 0
        · simp [zero]
        · exact (Nat.log2_lt zero).2 bound
      rw [show Nat.pow 2 0 = 1 from rfl, Nat.mul_one]
      omega
    · have bits : significand.log2 = 52 := by
        have nonzero : significand ≠ 0 := Nat.ne_of_gt (Nat.lt_of_lt_of_le (Nat.two_pow_pos 52) normal)
        exact (Nat.log2_eq_iff nonzero).2 ⟨normal, bound⟩
      rw [log2_shifted (by omega) exponent, bits]
      omega
  have rounds : roundDiv (units rank * den) (den * Nat.pow 2 exponent) = significand := by
    rw [parts.units, Nat.mul_assoc, Nat.mul_comm (Nat.pow 2 exponent)]
    exact roundDiv_exact significand (Nat.mul_pos pos (Nat.two_pow_pos exponent))
  rw [rankNear, shift, rounds, ← parts.sum]
  omega

/-! ## Whole numbers, given in units of a power of two -/

section Whole

variable {n k : Nat}

theorem shiftOf_whole (pos : 0 < n) : shiftOf (n * Nat.pow 2 k) 1 = n.log2 + k + 1 - 53 := by
  rw [shiftOf, Nat.div_one, log2_shifted pos]

/-- The bits that are dropped are all zero, if they are no more than a whole number has. -/
theorem units_unrounded (finite : rankNear (n * Nat.pow 2 k) 1 < infinityRank)
    (few : shiftOf (n * Nat.pow 2 k) 1 ≤ k) :
    units (rankNear (n * Nat.pow 2 k) 1) = n * Nat.pow 2 k := by
  rw [units_rankNear finite]
  generalize shiftOf (n * Nat.pow 2 k) 1 = shift at few
  have power : Nat.pow 2 (k - shift) * Nat.pow 2 shift = Nat.pow 2 k := Nat.pow_sub_mul_pow 2 few
  have split : n * Nat.pow 2 k = n * Nat.pow 2 (k - shift) * Nat.pow 2 shift := by
    rw [Nat.mul_assoc, power]
  have pos : 0 < Nat.pow 2 shift := Nat.two_pow_pos shift
  rw [Nat.one_mul, split, roundDiv_exact _ pos]

theorem whole_near (finite : rankNear (n * Nat.pow 2 k) 1 < infinityRank) :
    Nat.pow 2 k ∣ units (rankNear (n * Nat.pow 2 k) 1) := by
  rcases Nat.le_total (shiftOf (n * Nat.pow 2 k) 1) k with few | many
  · rw [units_unrounded finite few]
    exact Nat.dvd_mul_left ..
  · rw [units_rankNear finite]
    exact Nat.dvd_mul_left_of_dvd (Nat.pow_dvd_pow 2 many) _

/-- Rounding stays between the powers of two next to a number. -/
theorem near_between (pos : 0 < n) (fine : 52 ≤ k) (finite : rankNear (n * Nat.pow 2 k) 1 < infinityRank) :
    Nat.pow 2 n.log2 * Nat.pow 2 k ≤ units (rankNear (n * Nat.pow 2 k) 1) ∧
      units (rankNear (n * Nat.pow 2 k) 1) ≤ Nat.pow 2 (n.log2 + 1) * Nat.pow 2 k := by
  have most := (rounded_parts (n * Nat.pow 2 k) 1).most
  have between := roundDiv_between (n * Nat.pow 2 k) (1 * Nat.pow 2 (shiftOf (n * Nat.pow 2 k) 1))
  rw [units_rankNear finite]
  rw [Nat.one_mul, show shiftOf (n * Nat.pow 2 k) 1 = n.log2 + k - 52 by rw [shiftOf_whole pos]; omega]
    at most between ⊢
  have bits : fractionCount * Nat.pow 2 (n.log2 + k - 52) = Nat.pow 2 n.log2 * Nat.pow 2 k :=
    calc fractionCount * Nat.pow 2 (n.log2 + k - 52)
      _ = Nat.pow 2 (52 + (n.log2 + k - 52)) := (Nat.pow_add ..).symm
      _ = Nat.pow 2 (n.log2 + k) := by rw [show 52 + (n.log2 + k - 52) = n.log2 + k by omega]
      _ = Nat.pow 2 n.log2 * Nat.pow 2 k := Nat.pow_add ..
  have least : fractionCount ≤ n * Nat.pow 2 k / Nat.pow 2 (n.log2 + k - 52) := by
    have grain : 0 < Nat.pow 2 (n.log2 + k - 52) := Nat.two_pow_pos _
    rw [Nat.le_div_iff_mul_le grain, bits]
    exact Nat.mul_le_mul_right _ (Nat.log2_self_le (by omega))
  constructor
  · rw [← bits]
    exact Nat.mul_le_mul_right _ (by omega)
  · calc roundDiv (n * Nat.pow 2 k) (Nat.pow 2 (n.log2 + k - 52)) * Nat.pow 2 (n.log2 + k - 52)
      _ ≤ 2 * fractionCount * Nat.pow 2 (n.log2 + k - 52) := Nat.mul_le_mul_right _ most
      _ = 2 * Nat.pow 2 n.log2 * Nat.pow 2 k := by rw [Nat.mul_assoc, bits, Nat.mul_assoc]
      _ = Nat.pow 2 (n.log2 + 1) * Nat.pow 2 k := congrArg (· * _) Nat.pow_succ'.symm

/-- Far below the limit of the exponent nothing is rounded to infinity. -/
theorem near_finite (pos : 0 < n) (small : n.log2 + k ≤ 2000) :
    rankNear (n * Nat.pow 2 k) 1 < infinityRank := by
  have most := (rounded_parts (n * Nat.pow 2 k) 1).most
  rw [rankNear]
  generalize roundDiv _ _ = significand at most ⊢
  rw [shiftOf_whole pos]
  calc min infinityRank ((n.log2 + k + 1 - 53) * fractionCount + significand)
    _ ≤ (n.log2 + k + 1 - 53) * fractionCount + significand := Nat.min_le_right ..
    _ ≤ (n.log2 + k + 1 - 53) * fractionCount + 2 * fractionCount := Nat.add_le_add_left most _
    _ = (n.log2 + k + 1 - 53 + 2) * fractionCount := (Nat.add_mul ..).symm
    _ < infinityRank := Nat.mul_lt_mul_of_pos_right (by omega) (Nat.two_pow_pos 52)

/-- A whole number of at most 53 bits keeps all of them. -/
theorem near_exact (pos : 0 < n) (small : n < Nat.pow 2 53)
    (finite : rankNear (n * Nat.pow 2 k) 1 < infinityRank) :
    units (rankNear (n * Nat.pow 2 k) 1) = n * Nat.pow 2 k := by
  have short : n.log2 < 53 := (Nat.log2_lt (by omega)).2 small
  refine units_unrounded finite ?_
  rw [shiftOf_whole pos]
  omega

end Whole

end StatementPlan.Binary64
