/-
Binary floating-point numbers of 64 bits: a sign, eleven bits of exponent, 52 bits of
fraction.  Without its sign a number is its *rank*, the position among the magnitudes in
increasing order: zero has rank 0, the least positive number rank 1, infinity comes after
every finite number and the not-a-numbers after infinity.

`rank_ofRank`: the number made of a sign and a rank has that rank.
-/
namespace StatementPlan

/-- A number by its 64 bits. -/
structure Binary64 where
  bits : UInt64
  deriving DecidableEq

namespace Binary64

/-- How many numbers share an exponent. -/
def fractionCount : Nat := Nat.pow 2 52

/-- The rank of infinity: above every finite magnitude. -/
def infinityRank : Nat := 2047 * fractionCount

/-- Ranks, those of the not-a-numbers included, are below this bound. -/
def rankLimit : Nat := Nat.pow 2 63

/-- The sign bit. -/
def negative (x : Binary64) : Bool :=
  rankLimit ≤ x.bits.toNat

/-- The position of the magnitude in increasing order. -/
def rank (x : Binary64) : Nat :=
  x.bits.toNat % rankLimit

/-- The number with a sign and a rank. -/
def ofRank (negative : Bool) (rank : Nat) : Binary64 :=
  ⟨UInt64.ofNat ((if negative then rankLimit else 0) + rank % rankLimit)⟩

def infinity (negative : Bool) : Binary64 := ofRank negative infinityRank

/-- The not-a-number that texts read as. -/
def nan : Binary64 := ofRank false (infinityRank + fractionCount / 2)

def isFinite (x : Binary64) : Bool := x.rank < infinityRank

def isNaN (x : Binary64) : Bool := infinityRank < x.rank

/-- A finite magnitude as a multiple of the least positive number, 2 to the power -1074. -/
def units (rank : Nat) : Nat :=
  if rank < fractionCount then rank
  else (fractionCount + rank % fractionCount) * Nat.pow 2 (rank / fractionCount - 1)

/-- One as a multiple of the least positive number. -/
def unitsPerOne : Nat := Nat.pow 2 1074

theorem rank_lt (x : Binary64) : x.rank < rankLimit :=
  Nat.mod_lt _ (by decide)

theorem bits_ofRank (negative : Bool) {rank : Nat} (h : rank < rankLimit) :
    (ofRank negative rank).bits.toNat = (if negative then rankLimit else 0) + rank := by
  have limit : rankLimit = 2 ^ 63 := rfl
  cases negative <;> simp [ofRank, UInt64.toNat_ofNat, limit] at * <;> omega

theorem rank_ofRank (negative : Bool) {rank : Nat} (h : rank < rankLimit) :
    (ofRank negative rank).rank = rank := by
  rw [Binary64.rank, bits_ofRank negative h]
  cases negative
  · simpa using Nat.mod_eq_of_lt h
  · simpa using Nat.mod_eq_of_lt h

theorem sign_add_rank (x : Binary64) :
    (if x.negative then rankLimit else 0) + x.rank = x.bits.toNat := by
  have limit : rankLimit = 2 ^ 63 := rfl
  have bound := x.bits.toNat_lt
  rw [rank, limit]
  split
  · rename_i h
    have above : rankLimit ≤ x.bits.toNat := of_decide_eq_true h
    omega
  · rename_i h
    have below : ¬rankLimit ≤ x.bits.toNat := fun above => h (decide_eq_true above)
    omega

theorem ofRank_negative_rank (x : Binary64) : ofRank x.negative x.rank = x := by
  rw [ofRank, Nat.mod_eq_of_lt (rank_lt x), sign_add_rank, UInt64.ofNat_toNat]

end Binary64

end StatementPlan
