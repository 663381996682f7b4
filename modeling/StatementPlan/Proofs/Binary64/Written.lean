/-
Numbers as they are written.  A whole number is written like an integer, with the shortest digits
that read back as it; other numbers have a point, which no integer has.  Either way the text reads
back.

`exists_writtenAs`: the digits that a whole number is written with, and how far they are the number.
`exists_writtenWithPoint`: the digits around the point of another number.
`write_whole`, `write_point`: either text reads back; the one of a whole number may be an integer,
too.
-/
import StatementPlan.Proofs.Binary64.Shortest

namespace StatementPlan.Binary64

variable {rank : Nat}

theorem toDigits_zeros {n : Nat} (pos : 0 < n) (k : Nat) :
    Nat.toDigits 10 n ++ List.replicate k '0' = Nat.toDigits 10 (n * Nat.pow 10 k) := by
  induction k with
  | zero => simp
  | succ k ih =>
    have more : 0 < n * Nat.pow 10 k := Nat.mul_pos pos (Nat.pow_pos (by omega))
    have shape : 10 * (n * Nat.pow 10 k) + 0 = n * Nat.pow 10 (k + 1) := by
      rw [Nat.add_zero, Nat.mul_comm 10, Nat.mul_assoc]
      rfl
    rw [List.replicate_succ', ← List.append_assoc, ih, ← Nat.toDigits_zero 10,
      Nat.toDigits_append_toDigits (by omega) more (by omega), shape]

theorem writeMagnitude_positional (pos : 0 < rank) (finite : rank < infinityRank) :
    writeMagnitude rank = positional (shortest rank).1 (shortest rank).2 := by
  rw [writeMagnitude, if_neg (by omega), if_neg (by omega), if_neg (by omega)]

/-- The number that a magnitude is written as without a point, and how far it is that magnitude:
they have the same rank, are on the same side of the limit of integers, and are equal up to 53 bits. -/
structure WrittenAs (rank n : Nat) : Prop where
  text : writeMagnitude rank = Nat.toDigits 10 n
  readsBack : rankOfDecimal n 0 = rank
  near : rankNear (n * unitsPerOne) 1 = rank
  within : n < Nat.pow 2 63 ↔ units rank / unitsPerOne < Nat.pow 2 63
  notLimit : n ≠ Nat.pow 2 63
  exact : units rank / unitsPerOne < Nat.pow 2 53 → n = units rank / unitsPerOne

/-- The shortest decimal of a number is on the same side of the limit of integers, and not the
limit. -/
theorem shortest_within (pos : 0 < rank) (finite : rank < infinityRank)
    (whole : unitsPerOne ∣ units rank)
    {n : Nat} (shape : n = (shortest rank).1 * Nat.pow 10 (shortest rank).2.toNat) (some : 0 < n)
    (near : rankNear (n * unitsPerOne) 1 = rank) :
    n ≠ Nat.pow 2 63 ∧ (n < Nat.pow 2 63 ↔ units rank / unitsPerOne < Nat.pow 2 63) := by
  have between := whole_between near some finite
  -- the limit itself is written with digits that are above it
  have limit : rank = 1086 * fractionCount → Nat.pow 2 63 < n := by
    rintro rfl
    rw [shape, shortest_limit]
    decide
  have notLimit : n ≠ Nat.pow 2 63 := by
    intro same
    have above := limit (by rw [← near, same, near_limit])
    omega
  refine ⟨notLimit, fun below => ?_, fun below => ?_⟩
  · have short : n.log2 < 63 := (Nat.log2_lt (by omega)).2 below
    have most : units rank / unitsPerOne ≤ Nat.pow 2 63 :=
      Nat.le_trans between.2 (Nat.pow_le_pow_right (by omega) (by omega))
    refine Nat.lt_of_le_of_ne most fun same => ?_
    have above := limit (by
      rw [← near_limit, ← same, Nat.div_mul_cancel whole, ← Nat.mul_one (units rank)]
      exact (rankNear_units finite (by omega)).symm)
    omega
  · refine Nat.lt_of_not_le fun above => ?_
    have long : 63 ≤ n.log2 := (Nat.le_log2 (by omega)).2 above
    have least : Nat.pow 2 63 ≤ units rank / unitsPerOne :=
      Nat.le_trans (Nat.pow_le_pow_right (by omega) long) between.1
    omega

theorem exists_writtenAs (finite : rank < infinityRank) (whole : unitsPerOne ∣ units rank) :
    ∃ n, WrittenAs rank n := by
  by_cases zero : rank = 0
  · subst zero
    exact ⟨0, by decide, by decide, by decide +kernel, by decide +kernel, by decide, by decide +kernel⟩
  have pos : 0 < rank := Nat.pos_of_ne_zero zero
  have above := (shortest_whole_iff pos finite).2 whole
  obtain ⟨nonzero, places, near⟩ := rankOfDecimal_whole above (rankOfDecimal_shortest pos finite) pos finite
  have written := toDigits_zeros nonzero (shortest rank).2.toNat
  have digits := congrArg List.length written
  rw [List.length_append, List.length_replicate] at digits
  obtain ⟨n, shape⟩ : ∃ n, n = (shortest rank).1 * Nat.pow 10 (shortest rank).2.toNat := ⟨_, rfl⟩
  rw [← shape] at near written digits
  have some : 0 < n := shape ▸ Nat.mul_pos nonzero (Nat.pow_pos (by omega))
  obtain ⟨notLimit, within⟩ := shortest_within pos finite whole shape some near
  refine ⟨n, ?_, ?_, near, within, notLimit, fun small => ?_⟩
  · rw [writeMagnitude_positional pos finite, positional, if_pos above, written]
  · exact (@rankOfDecimal_below n 0 (by omega) (by omega) (by omega)).trans near
  · obtain ⟨k, -, one⟩ := exists_unit
    have between := whole_between near some finite
    have short : n.log2 < 53 := by
      refine Nat.lt_of_not_le fun long => ?_
      have least : Nat.pow 2 53 ≤ units rank / unitsPerOne :=
        Nat.le_trans (Nat.pow_le_pow_right (by omega) long) between.1
      omega
    rw [one] at near ⊢
    rw [← near] at finite ⊢
    have grain : 0 < Nat.pow 2 k := Nat.two_pow_pos k
    rw [near_exact some ((Nat.log2_lt (by omega)).1 short) finite, Nat.mul_div_cancel n grain]

/-! ## Reading what is written -/

theorem takeWhile_digits {digits rest : List Char} (all : ∀ c ∈ digits, c.isDigit = true)
    (stop : ∀ c ∈ rest.head?, c.isDigit = false) :
    (digits ++ rest).takeWhile Char.isDigit = digits ∧ (digits ++ rest).dropWhile Char.isDigit = rest := by
  have after : rest.takeWhile Char.isDigit = [] ∧ rest.dropWhile Char.isDigit = rest := by
    cases rest with
    | nil => exact ⟨rfl, rfl⟩
    | cons c rest => simp [stop c rfl]
  rw [List.takeWhile_append_of_pos all, List.dropWhile_append_of_pos all, after.1, after.2, List.append_nil]
  exact ⟨rfl, rfl⟩

theorem isDigit_toDigits (n : Nat) : ∀ c ∈ Nat.toDigits 10 n, c.isDigit = true :=
  fun _ mem => Nat.isDigit_of_mem_toDigits (by omega) (by omega) mem

theorem decimal?_toDigits (n : Nat) : decimal? (Nat.toDigits 10 n) = some (n, 0) := by
  have split := @takeWhile_digits _ [] (isDigit_toDigits n) (by simp)
  rw [List.append_nil] at split
  have filled : (Nat.toDigits 10 n).isEmpty = false := by simp
  simp [decimal?, split.1, split.2, filled, exponent?, Nat.ofDigitChars_ten_toDigits]

theorem decimal?_point {before after : List Char} (some : before ≠ [])
    (digits : ∀ c ∈ before ++ after, c.isDigit = true) :
    decimal? (before ++ '.' :: after) = .some (Nat.ofDigitChars 10 (before ++ after) 0, -after.length) := by
  have whole := @takeWhile_digits _ ('.' :: after)
    (fun c mem => digits c (List.mem_append_left _ mem)) (by simp)
  have fraction := @takeWhile_digits _ []
    (fun c mem => digits c (List.mem_append_right _ mem)) (by simp)
  rw [List.append_nil] at fraction
  have filled : before.isEmpty = false := by simpa using some
  simp [decimal?, whole.1, whole.2, fraction.1, fraction.2, filled, exponent?]

/-- Digits with a point inside, which read as a decimal of the rank. -/
structure WrittenWithPoint (rank : Nat) (before after : List Char) : Prop where
  text : writeMagnitude rank = before ++ '.' :: after
  some : before ≠ []
  digits : ∀ c ∈ before ++ after, c.isDigit = true
  readsBack : rankOfDecimal (Nat.ofDigitChars 10 (before ++ after) 0) (-after.length) = rank

theorem exists_writtenWithPoint (pos : 0 < rank) (finite : rank < infinityRank)
    (point : ¬unitsPerOne ∣ units rank) : ∃ before after, WrittenWithPoint rank before after := by
  have below : ¬0 ≤ (shortest rank).2 := fun above => point ((shortest_whole_iff pos finite).1 above)
  have readsBack := rankOfDecimal_shortest pos finite
  generalize shape : shortest rank = decimal at below readsBack
  obtain ⟨digits, exponent⟩ := decimal
  obtain ⟨places, rfl⟩ : ∃ places : Nat, exponent = -places := ⟨exponent.natAbs, by omega⟩
  have toNat : (- -(places : Int)).toNat = places := by simp
  obtain ⟨padded, padding⟩ : ∃ padded, padded =
      List.replicate (places + 1 - (Nat.toDigits 10 digits).length) '0' ++ Nat.toDigits 10 digits := ⟨_, rfl⟩
  have length : places + 1 ≤ padded.length := by
    rw [padding, List.length_append, List.length_replicate]
    omega
  have all : ∀ c ∈ padded, c.isDigit = true := by
    rw [padding]
    refine List.forall_mem_append.2 ⟨fun c mem => ?_, isDigit_toDigits digits⟩
    rw [List.eq_of_mem_replicate mem]
    rfl
  have value : Nat.ofDigitChars 10 padded 0 = digits := by
    rw [padding, Nat.ofDigitChars_append, Nat.ofDigitChars_replicate_zero, Nat.mul_zero,
      Nat.ofDigitChars_ten_toDigits]
  have fraction : (padded.drop (padded.length - places)).length = places := by
    rw [List.length_drop]
    omega
  refine ⟨padded.take (padded.length - places), padded.drop (padded.length - places), ?_, ?_, ?_, ?_⟩
  · rw [writeMagnitude_positional pos finite, shape, positional, if_neg below, toNat]
    subst padding
    rfl
  · intro empty
    have none := congrArg List.length empty
    rw [List.length_take, List.length_nil] at none
    omega
  · rwa [List.take_append_drop]
  · rw [List.take_append_drop, value, fraction]
    exact readsBack

/-! ## Whole texts -/

theorem splitSign_of_digit {text : List Char} (digit : ∀ c ∈ text.head?, c.isDigit = true) :
    Numeral.splitSign text = (false, text) := by
  unfold Numeral.splitSign
  split
  · exact absurd (digit '-' rfl) (by decide)
  · exact absurd (digit '+' rfl) (by decide)
  · rfl

theorem head?_append_of_ne_nil {before rest : List Char} (some : before ≠ []) :
    (before ++ rest).head? = before.head? := by
  cases before with
  | nil => exact absurd rfl some
  | cons => rfl

/-- The sign of a finite number and the text of its magnitude. -/
theorem splitSign_write {x : Binary64} (finite : x.isFinite = true)
    (digit : ∀ c ∈ (writeMagnitude x.rank).head?, c.isDigit = true) :
    Numeral.splitSign x.write.toList = (x.negative, writeMagnitude x.rank) := by
  have number : x.isNaN = false := by
    simp only [isFinite, isNaN, decide_eq_true_eq, decide_eq_false_iff_not] at finite ⊢
    omega
  rw [write, number, String.toList_ofList]
  cases x.negative with
  | true => rfl
  | false => exact splitSign_of_digit digit

theorem finite_rank {x : Binary64} (finite : x.isFinite = true) : x.rank < infinityRank := by
  simpa [isFinite] using finite

theorem read?_of_decimal {x : Binary64} (finite : x.isFinite = true)
    (digit : ∀ c ∈ (writeMagnitude x.rank).head?, c.isDigit = true) {digits : Nat} {exponent : Int}
    (decimal : decimal? (writeMagnitude x.rank) = some (digits, exponent))
    (readsBack : rankOfDecimal digits exponent = x.rank) : read? x.write = some x := by
  rw [read?, splitSign_write finite digit]
  dsimp only
  rw [decimal]
  dsimp only
  rw [ofDecimal, readsBack, ofRank_negative_rank]

/-- The number is a whole one. -/
def isWhole (x : Binary64) : Bool := units x.rank % unitsPerOne = 0

theorem isWhole_iff {x : Binary64} : x.isWhole = true ↔ unitsPerOne ∣ units x.rank := by
  rw [isWhole, decide_eq_true_eq, Nat.dvd_iff_mod_eq_zero]

/-- The integer of a sign and a magnitude. -/
def signed (negative : Bool) (n : Nat) : Int := if negative then -(n : Int) else n

theorem int64OfInt?_signed (negative : Bool) {n : Nat} (notLimit : n ≠ Nat.pow 2 63) :
    Numeral.int64OfInt? (signed negative n) =
      if n < Nat.pow 2 63 then some (Int64.ofInt (signed negative n)) else none := by
  have range : Int64.minValue.toInt ≤ signed negative n ∧ signed negative n ≤ Int64.maxValue.toInt ↔
      n < Nat.pow 2 63 := by
    have limit : Nat.pow 2 63 = 9223372036854775808 := rfl
    rw [Int64.toInt_minValue, Int64.toInt_maxValue, signed]
    cases negative <;> simp <;> omega
  rw [Numeral.int64OfInt?]
  simp only [range]

theorem integer?_of_splitSign {text digits : List Char} {negative : Bool}
    (split : Numeral.splitSign text = (negative, digits)) :
    Numeral.integer? text = (Numeral.digits? digits).map (signed negative) := by
  rw [Numeral.integer?, split]
  cases read : Numeral.digits? digits <;> cases negative <;> simp [read, signed]

/-- What the text of a whole number reads as. -/
theorem write_whole {x : Binary64} (finite : x.isFinite = true) {n : Nat}
    (written : WrittenAs x.rank n) : read? x.write = some x ∧ Numeral.int64? x.write =
      if n < Nat.pow 2 63 then some (Int64.ofInt (signed x.negative n)) else none := by
  have digit : ∀ c ∈ (writeMagnitude x.rank).head?, c.isDigit = true := by
    rw [written.text]
    exact fun c first => isDigit_toDigits n c (List.mem_of_mem_head? first)
  constructor
  · exact read?_of_decimal finite digit (written.text ▸ decimal?_toDigits n) written.readsBack
  · rw [Numeral.int64?, integer?_of_splitSign (splitSign_write finite digit), written.text,
      Numeral.digits?_toDigits, Option.map_some, Option.bind_some]
    exact int64OfInt?_signed x.negative written.notLimit

/-- What the text of another number reads as. -/
theorem write_point {x : Binary64} (finite : x.isFinite = true) {before after : List Char}
    (written : WrittenWithPoint x.rank before after) :
    read? x.write = some x ∧ Numeral.int64? x.write = none := by
  have digit : ∀ c ∈ (writeMagnitude x.rank).head?, c.isDigit = true := by
    rw [written.text, head?_append_of_ne_nil written.some]
    exact fun c first => written.digits c (List.mem_append_left _ (List.mem_of_mem_head? first))
  constructor
  · have decimal := written.text ▸ decimal?_point written.some written.digits
    exact read?_of_decimal finite digit decimal written.readsBack
  · have point : Numeral.digits? (before ++ '.' :: after) = none := by
      simp [Numeral.digits?]
    rw [Numeral.int64?, integer?_of_splitSign (splitSign_write finite digit), written.text, point]
    rfl

end StatementPlan.Binary64
