/-
The shortest decimals of numbers.  They are found by search, so that a decimal that is found reads
back; and where the search ends without one, on the finest grid, the number itself is taken.  A
whole number lies on the grid of ones, where the search then ends, and a number that a whole decimal
reads back as is whole.

`rankOfDecimal_shortest`: the shortest decimal of a number reads back as it.
`shortest_whole_iff`: the shortest decimal is a whole one exactly if the number is whole.
-/
import StatementPlan.Binary64.Numeral
import StatementPlan.Proofs.Binary64.Rounding

namespace StatementPlan.Binary64

/-- The same power of a power of two and of a power of ten above it. -/
theorem exists_pow_ten_above {p q : Nat} (above : Nat.pow 2 p ≤ Nat.pow 10 q) (n : Nat) :
    ∃ bits places, bits = p * n ∧ places = q * n ∧ Nat.pow 2 bits ≤ Nat.pow 10 places := by
  refine ⟨p * n, q * n, rfl, rfl, ?_⟩
  calc Nat.pow 2 (p * n)
    _ = Nat.pow (Nat.pow 2 p) n := Nat.pow_mul ..
    _ ≤ Nat.pow (Nat.pow 10 q) n := Nat.pow_le_pow_left above n
    _ = Nat.pow 10 (q * n) := (Nat.pow_mul ..).symm

/-! ## Digits -/

theorem length_toDigits_between {n : Nat} (pos : 0 < n) :
    Nat.pow 10 ((Nat.toDigits 10 n).length - 1) ≤ n ∧ n < Nat.pow 10 (Nat.toDigits 10 n).length := by
  have some : 0 < (Nat.toDigits 10 n).length := Nat.length_toDigits_pos
  refine ⟨Nat.le_of_not_lt fun below => ?_, (Nat.length_toDigits_le_iff (by omega) some).1 (Nat.le_refl _)⟩
  by_cases one : (Nat.toDigits 10 n).length - 1 = 0
  · rw [one] at below
    exact Nat.not_lt.2 pos below
  · have fewer := (Nat.length_toDigits_le_iff (by omega) (by omega)).2 below
    omega

/-! ## Decimals on the grids of ones and below -/

/-- The decimal has so many places before the point, or zeros after it, that its rank is looked for. -/
theorem rankOfDecimal_below {digits k : Nat} (nonzero : digits ≠ 0)
    (low : k ≤ (Nat.toDigits 10 digits).length + 330) (high : (Nat.toDigits 10 digits).length ≤ k + 310) :
    rankOfDecimal digits (-k) = rankNear (digits * unitsPerOne) (Nat.pow 10 k) := by
  have places : ¬(digits = 0 ∨ ((Nat.toDigits 10 digits).length : Int) + -k < -330) := by omega
  rw [rankOfDecimal, if_neg places, if_neg (by omega)]
  by_cases ones : k = 0
  · subst ones
    rw [if_pos (by omega)]
    simp
  · rw [if_neg (by omega)]
    simp

theorem rankOfDecimal_exact {digits k rank : Nat} (same : digits * unitsPerOne = units rank * Nat.pow 10 k)
    (pos : 0 < rank) (finite : rank < infinityRank) : rankOfDecimal digits (-k) = rank := by
  have least : 0 < units rank := units_pos pos
  obtain ⟨bits, exponent, one⟩ := exists_unit
  rw [one] at same
  have nonzero : 0 < digits := by
    refine Nat.pos_of_ne_zero fun zero => ?_
    rw [zero, Nat.zero_mul] at same
    exact Nat.ne_of_lt (Nat.mul_pos least (Nat.pow_pos (by omega))) same
  obtain ⟨lower, upper⟩ := length_toDigits_between nonzero
  have high : (Nat.toDigits 10 digits).length ≤ k + 310 := by
    obtain ⟨top, places, enough, few, wide⟩ :=
      exists_pow_ten_above (by decide : Nat.pow 2 205 ≤ Nat.pow 10 62) 5
    have below : Nat.pow 10 ((Nat.toDigits 10 digits).length - 1) * Nat.pow 2 bits <
        Nat.pow 10 (places + k) * Nat.pow 2 bits :=
      calc Nat.pow 10 ((Nat.toDigits 10 digits).length - 1) * Nat.pow 2 bits
        _ ≤ units rank * Nat.pow 10 k := same ▸ Nat.mul_le_mul_right _ lower
        _ < Nat.pow 2 (top + bits) * Nat.pow 10 k :=
          Nat.mul_lt_mul_of_pos_right (units_lt finite (by omega)) (Nat.pow_pos (by omega))
        _ = Nat.pow 2 top * Nat.pow 2 bits * Nat.pow 10 k := congrArg (· * _) (Nat.pow_add ..)
        _ = Nat.pow 2 top * (Nat.pow 10 k * Nat.pow 2 bits) := by
          rw [Nat.mul_assoc, Nat.mul_comm (Nat.pow 2 bits)]
        _ ≤ Nat.pow 10 places * (Nat.pow 10 k * Nat.pow 2 bits) := Nat.mul_le_mul_right _ wide
        _ = Nat.pow 10 places * Nat.pow 10 k * Nat.pow 2 bits := (Nat.mul_assoc ..).symm
        _ = Nat.pow 10 (places + k) * Nat.pow 2 bits := congrArg (· * _) (Nat.pow_add ..).symm
    have fewer := (Nat.pow_lt_pow_iff_right (by omega)).1 (Nat.lt_of_mul_lt_mul_right below)
    omega
  have low : k ≤ (Nat.toDigits 10 digits).length + 330 := by
    obtain ⟨top, places, enough, few, wide⟩ :=
      exists_pow_ten_above (by decide : Nat.pow 2 180 ≤ Nat.pow 10 55) 6
    have above : Nat.pow 10 k < Nat.pow 10 ((Nat.toDigits 10 digits).length + places) :=
      calc Nat.pow 10 k
        _ ≤ units rank * Nat.pow 10 k := Nat.le_mul_of_pos_left _ least
        _ < Nat.pow 10 (Nat.toDigits 10 digits).length * Nat.pow 2 bits :=
          same ▸ Nat.mul_lt_mul_of_pos_right upper (Nat.two_pow_pos bits)
        _ ≤ Nat.pow 10 (Nat.toDigits 10 digits).length * Nat.pow 10 places :=
          Nat.mul_le_mul_left _ (Nat.le_trans (Nat.pow_le_pow_right (by omega) (by omega)) wide)
        _ = Nat.pow 10 ((Nat.toDigits 10 digits).length + places) := (Nat.pow_add ..).symm
    have more := (Nat.pow_lt_pow_iff_right (by omega)).1 above
    omega
  rw [rankOfDecimal_below (Nat.ne_of_gt nonzero) low high, one, same]
  exact rankNear_units finite (Nat.pow_pos (by omega))

/-! ## The search -/

variable {rank : Nat}

theorem rankOfDecimal_finest (pos : 0 < rank) (finite : rank < infinityRank) :
    rankOfDecimal (units rank * Nat.pow 5 1074) (-1074) = rank := by
  obtain ⟨k, exponent, one⟩ := exists_unit
  have tens : Nat.pow 5 k * Nat.pow 2 k = Nat.pow 10 k := (Nat.mul_pow 5 2 k).symm
  have there : rankOfDecimal (units rank * Nat.pow 5 k) (-k) = rank :=
    rankOfDecimal_exact (by rw [one, Nat.mul_assoc, tens]) pos finite
  rw [exponent] at there
  exact there

theorem neighbour_readsBack {exponent : Int} {digits : Nat}
    (found : neighbour? rank exponent = some digits) : rankOfDecimal digits exponent = rank := by
  unfold neighbour? at found
  dsimp only at found
  split at found
  · rename_i low high
    split at found
    · exact Option.some.inj found ▸ eq_of_beq low
    · exact Option.some.inj found ▸ eq_of_beq high
  · rename_i low _
    exact Option.some.inj found ▸ eq_of_beq low
  · rename_i _ high
    exact Option.some.inj found ▸ eq_of_beq high
  · cases found

/-- Wherever the search ends, the decimal reads back. -/
theorem rankOfDecimal_shortestFrom (pos : 0 < rank) (finite : rank < infinityRank) (steps : Nat)
    (exponent : Int) :
    rankOfDecimal (shortestFrom rank steps exponent).1 (shortestFrom rank steps exponent).2 = rank := by
  induction steps generalizing exponent with
  | zero => exact rankOfDecimal_finest pos finite
  | succ steps ih =>
    rw [shortestFrom]
    split
    · rename_i digits found
      exact neighbour_readsBack found
    · exact ih (exponent - 1)

theorem rankOfDecimal_shortest (pos : 0 < rank) (finite : rank < infinityRank) :
    rankOfDecimal (shortest rank).1 (shortest rank).2 = rank :=
  rankOfDecimal_shortestFrom pos finite _ _

/-! ## Whole numbers -/

theorem neighbour_ones (pos : 0 < rank) (finite : rank < infinityRank)
    (whole : unitsPerOne ∣ units rank) : (neighbour? rank 0).isSome = true := by
  obtain ⟨n, same⟩ := whole
  have readsBack : rankOfDecimal n 0 = rank := by
    refine @rankOfDecimal_exact n 0 rank ?_ pos finite
    rw [same, Nat.mul_comm n]
    exact (Nat.mul_one _).symm
  have low : units rank * Nat.pow 10 (-0 : Int).toNat / (unitsPerOne * Nat.pow 10 (0 : Int).toNat) = n := by
    obtain ⟨k, -, one⟩ := exists_unit
    have pos : 0 < unitsPerOne := one ▸ Nat.two_pow_pos k
    rw [same]
    simp [Nat.mul_div_cancel_left n pos]
  unfold neighbour?
  dsimp only
  rw [low, readsBack, beq_self_eq_true]
  cases rankOfDecimal (n + 1) 0 == rank with
  | false => rfl
  | true => dsimp only; split <;> rfl

/-- The search for a whole number ends on the grid of ones at the latest. -/
theorem shortestFrom_whole (pos : 0 < rank) (finite : rank < infinityRank)
    (whole : unitsPerOne ∣ units rank)
    {steps : Nat} {exponent : Int} (above : 0 ≤ exponent) (enough : exponent < steps) :
    0 ≤ (shortestFrom rank steps exponent).2 := by
  induction steps generalizing exponent with
  | zero => omega
  | succ steps ih =>
    rw [shortestFrom]
    split
    · exact above
    · rename_i none
      refine ih ?_ (by omega)
      have other : exponent ≠ 0 := by
        rintro rfl
        have some := neighbour_ones pos finite whole
        rw [none] at some
        cases some
      omega

/-- What reads back from a whole decimal is rounded from a whole number, and of no more than 310
places. -/
theorem rankOfDecimal_whole {digits : Nat} {exponent : Int} (above : 0 ≤ exponent)
    (readsBack : rankOfDecimal digits exponent = rank) (pos : 0 < rank) (finite : rank < infinityRank) :
    0 < digits ∧ (Nat.toDigits 10 digits).length + exponent ≤ 310 ∧
      rankNear (digits * Nat.pow 10 exponent.toNat * unitsPerOne) 1 = rank := by
  unfold rankOfDecimal at readsBack
  dsimp only at readsBack
  split at readsBack
  · omega
  · rename_i nonzero
    split at readsBack
    · omega
    · exact ⟨by omega, by omega, readsBack⟩

theorem shortest_whole_iff (pos : 0 < rank) (finite : rank < infinityRank) :
    0 ≤ (shortest rank).2 ↔ unitsPerOne ∣ units rank := by
  constructor
  · intro above
    obtain ⟨-, -, near⟩ := rankOfDecimal_whole above (rankOfDecimal_shortest pos finite) pos finite
    obtain ⟨k, -, one⟩ := exists_unit
    rw [one] at near ⊢
    rw [← near] at finite ⊢
    exact whole_near finite
  · intro whole
    refine shortestFrom_whole pos finite whole (by omega) ?_
    omega

/-- The powers of two next to a whole number are next to what it is rounded to. -/
theorem whole_between {n : Nat} (near : rankNear (n * unitsPerOne) 1 = rank) (pos : 0 < n)
    (finite : rank < infinityRank) :
    Nat.pow 2 n.log2 ≤ units rank / unitsPerOne ∧ units rank / unitsPerOne ≤ Nat.pow 2 (n.log2 + 1) := by
  obtain ⟨k, exponent, one⟩ := exists_unit
  rw [one] at near ⊢
  subst near
  have between := near_between pos (by omega) finite
  constructor
  · exact (Nat.le_div_iff_mul_le (Nat.two_pow_pos k)).2 between.1
  · refine Nat.div_le_of_le_mul ?_
    rw [Nat.mul_comm (Nat.pow 2 k)]
    exact between.2

/-- Two to the power 63 as a rank. -/
theorem near_limit : rankNear (Nat.pow 2 63 * unitsPerOne) 1 = 1086 * fractionCount := by decide +kernel

/-- The shortest decimal of the limit of integers is above it. -/
theorem shortest_limit : shortest (1086 * fractionCount) = (9223372036854776, 3) := by decide +kernel

end StatementPlan.Binary64
