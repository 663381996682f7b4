/-
Number literals, from the number through its text to the constant that it is compiled to.  An
integer stays what it is.  A binary number stays what it is if it is not whole, or too large for an
integer; a whole number below that is written without a point, so that it is compiled to an integer.

`compile_int`: integers survive.
`numbers_compile`: what becomes of each binary number.
-/
import StatementPlan.Proofs.Binary64.Written
import StatementPlan.Proofs.Expression.Placement

namespace StatementPlan

open Binary64

theorem compile_int (table : SymbolTable) (v : Int64) :
    compile table (.int v) = .ok ⟨.literal (.int64 v), 0⟩ := by
  rw [Node.int, compile_literal, Token.numeric, Compile.literal, Numeral.int64?_writeInt]

/-- A binary number is compiled to what its text reads as, an integer if possible. -/
theorem compile_float (table : SymbolTable) {x : Binary64} (readsBack : read? x.write = some x) :
    compile table (.float x) =
      .ok ⟨.literal ((Numeral.int64? x.write).elim (.float64 x) .int64), 0⟩ := by
  rw [Node.float, compile_literal, Token.numeric, Compile.literal]
  cases Numeral.int64? x.write with
  | some i => rfl
  | none => rw [readsBack]; rfl

/-- What a finite binary number becomes as a literal. -/
structure NumberLiteral (x : Binary64) : Prop where
  /-- As the text of a binary number, its text reads back. -/
  readsBack : read? x.write = some x
  /-- One that is not whole, or beyond the integers of 64 bits, is compiled to itself. -/
  kept : x.isWhole = false ∨ Nat.pow 2 63 ≤ x.wholePart →
    ∀ table, compile table (.float x) = .ok ⟨.literal (.float64 x), 0⟩
  /-- Any other one is compiled to an integer that is rounded to it, if it is no negative zero, and
  is equal to it up to 53 bits. -/
  turned : x.isWhole = true → x.wholePart < Nat.pow 2 63 → ∃ i : Int64,
    (∀ table, compile table (.float x) = .ok ⟨.literal (.int64 i), 0⟩) ∧
      (ofInt i.toInt = x ∨ i = 0 ∧ x.rank = 0) ∧
        (x.wholePart < Nat.pow 2 53 → i.toInt.natAbs = x.wholePart)

theorem toInt_signed (negative : Bool) {n : Nat} (below : n < Nat.pow 2 63) :
    (Int64.ofInt (signed negative n)).toInt = signed negative n := by
  have limit : Nat.pow 2 63 = 9223372036854775808 := rfl
  rw [signed]
  apply Int64.toInt_ofInt_of_le <;> cases negative <;> simp <;> omega

/-- The integer that a number is written as is rounded to it. -/
theorem ofInt_signed {x : Binary64} {n : Nat} (written : WrittenAs x.rank n) :
    ofInt (signed x.negative n) = x ∨ n = 0 ∧ x.rank = 0 := by
  have near := written.near
  by_cases zero : n = 0
  · subst zero
    have none : rankNear (0 * unitsPerOne) 1 = 0 := by decide +kernel
    exact .inr ⟨rfl, near.symm.trans none⟩
  · have size : (signed x.negative n).natAbs = n := by
      rw [signed]
      cases x.negative <;> simp
    have sign : decide (signed x.negative n < 0) = x.negative := by
      rw [signed]
      cases x.negative with
      | false => simp
      | true => simpa using Nat.pos_of_ne_zero zero
    left
    rw [ofInt, sign, size, near, ofRank_negative_rank]

/-- What each finite binary number becomes as a literal. -/
theorem numbers_compile {x : Binary64} (finite : x.isFinite = true) : NumberLiteral x := by
  have rank := finite_rank finite
  by_cases whole : x.isWhole = true
  · obtain ⟨n, written⟩ := exists_writtenAs rank (isWhole_iff.1 whole)
    obtain ⟨readsBack, integer⟩ := write_whole finite written
    refine ⟨readsBack, fun apart table => ?_, fun _ below => ?_⟩
    · have above : ¬n < Nat.pow 2 63 := by
        intro below
        rcases apart with point | above
        · rw [whole] at point
          cases point
        · exact absurd (written.within.1 below) (Nat.not_lt.2 above)
      rw [compile_float table readsBack, integer, if_neg above]
      rfl
    · have below := written.within.2 below
      refine ⟨Int64.ofInt (signed x.negative n), fun table => ?_, ?_, fun small => ?_⟩
      · rw [compile_float table readsBack, integer, if_pos below]
        rfl
      · rw [toInt_signed x.negative below]
        refine (ofInt_signed written).imp_right fun zero => ⟨?_, zero.2⟩
        rw [zero.1]
        cases x.negative <;> rfl
      · have same : n = x.wholePart := written.exact small
        rw [toInt_signed x.negative below, ← same, signed]
        cases x.negative <;> simp
  · have positive : 0 < x.rank := by
      refine Nat.pos_of_ne_zero fun zero => whole ?_
      rw [isWhole, zero]
      decide +kernel
    obtain ⟨before, after, written⟩ :=
      exists_writtenWithPoint positive rank fun divides => whole (isWhole_iff.2 divides)
    obtain ⟨readsBack, integer⟩ := write_point finite written
    refine ⟨readsBack, fun _ table => ?_, fun h => absurd h whole⟩
    rw [compile_float table readsBack, integer]
    rfl

/-- Two to the power 60, which is an integer of 64 bits and is written with 16 digits and three
zeros. -/
def manyBits : Binary64 := ⟨0x43B0000000000000⟩

theorem numbers_compile_manyBits :
    manyBits.isFinite = true ∧ manyBits.write = "1152921504606847000" ∧ NumberLiteral manyBits := by
  have finite : manyBits.isFinite = true := by decide
  exact ⟨finite, by decide +kernel, numbers_compile finite⟩

/-- Three, as a binary number. -/
def three : Binary64 := ⟨0x4008000000000000⟩

/-- A whole number is compiled to an integer and not to itself. -/
theorem whole_number_compiled_as_integer :
    three.isFinite = true ∧ ∀ table, compile table (.float three) = .ok ⟨.literal (.int64 3), 0⟩ ∧
      compile table (.float three) ≠ .ok ⟨.literal (.float64 three), 0⟩ := by
  have written : Numeral.int64? three.write = some 3 := by decide +kernel
  have readsBack : read? three.write = some three := by decide +kernel
  refine ⟨by decide, fun table => ?_⟩
  rw [compile_float table readsBack, written]
  exact ⟨rfl, by simp⟩

end StatementPlan
