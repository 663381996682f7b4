/-
Rounding to the nearest number.  A magnitude is given exactly, as a quotient of natural
numbers in units of the least positive number, and goes to the nearest rank; half way
between two ranks it goes to the even one.  Too large a magnitude goes to infinity, too
small a one to zero.

Ranks count the grid points, so one division finds both the exponent and the fraction: with
`shift` bits dropped from the quotient the rank is `shift * fractionCount` plus what is left.
-/
import StatementPlan.Binary64.Basic

namespace StatementPlan.Binary64

/-- A quotient rounded to a whole number, halves to the even neighbour. -/
def roundDiv (num den : Nat) : Nat :=
  let low := num / den
  let rest := num % den
  if 2 * rest < den then low
  else if den < 2 * rest then low + 1
  else low + low % 2

/-- How many bits a magnitude drops to keep 53 of them. -/
def shiftOf (num den : Nat) : Nat :=
  (num / den).log2 + 1 - 53

/-- The rank nearest to `num / den` units. -/
def rankNear (num den : Nat) : Nat :=
  let shift := shiftOf num den
  min infinityRank (shift * fractionCount + roundDiv num (den * Nat.pow 2 shift))

/-- The rank nearest to `digits * 10 ^ exponent`.  The first two tests answer for magnitudes
far outside the range without computing a power of that size. -/
def rankOfDecimal (digits : Nat) (exponent : Int) : Nat :=
  let places := (Nat.toDigits 10 digits).length + exponent
  if digits = 0 ∨ places < -330 then 0
  else if 310 < places then infinityRank
  else if 0 ≤ exponent then rankNear (digits * Nat.pow 10 exponent.toNat * unitsPerOne) 1
  else rankNear (digits * unitsPerOne) (Nat.pow 10 (-exponent).toNat)

/-- The number nearest to a signed decimal. -/
def ofDecimal (negative : Bool) (digits : Nat) (exponent : Int) : Binary64 :=
  ofRank negative (rankOfDecimal digits exponent)

/-- The number nearest to an integer. -/
def ofInt (i : Int) : Binary64 :=
  ofRank (i < 0) (rankNear (i.natAbs * unitsPerOne) 1)

/-- The number nearest to a natural number. -/
def ofNat (n : Nat) : Binary64 :=
  ofInt n

/-- The whole part of a finite magnitude. -/
def wholePart (x : Binary64) : Nat :=
  units x.rank / unitsPerOne

end StatementPlan.Binary64
