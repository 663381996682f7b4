/-
Names up to ASCII case, letter by letter.  Two characters are the same letter if they are the same
character, or the capital and the small form of one of A to Z.  No other character has another form,
accented letters included.

`foldCase_eq_iff`: names fold to one name exactly if they have the same letters.
-/
import Mathlib.Data.List.Forall2
import StatementPlan.Text.AsciiCase

namespace StatementPlan

/-- One of A to Z, and its small form. -/
def CapitalOf (c d : Char) : Prop := c.isUpper = true ∧ d.toNat = c.toNat + 32

/-- The same letter up to ASCII case. -/
def SameLetter (c d : Char) : Prop := c = d ∨ CapitalOf c d ∨ CapitalOf d c

/-- The same letters in the same order. -/
def SameLetters (a b : String) : Prop := List.Forall₂ SameLetter a.toList b.toList

theorem isUpper_iff {c : Char} : c.isUpper = true ↔ 65 ≤ c.toNat ∧ c.toNat ≤ 90 := by
  unfold Char.isUpper
  simp [UInt32.le_iff_toNat_le]

theorem toNat_toLower (c : Char) : c.toLower.toNat = if c.isUpper then c.toNat + 32 else c.toNat := by
  have inside : c.isUpper = true ↔ c.val ≥ 'A'.val ∧ c.val ≤ 'Z'.val := by
    unfold Char.isUpper
    simp
  unfold Char.toLower
  split
  · rename_i h
    have upper := inside.2 h
    have bound := isUpper_iff.1 upper
    have shift : ('a'.val - 'A'.val).toNat = 32 := by decide
    rw [if_pos upper, Char.toNat, UInt32.toNat_add, shift]
    exact Nat.mod_eq_of_lt (by rw [Char.toNat] at bound; omega)
  · rename_i h
    rw [if_neg fun upper => h (inside.1 upper)]

theorem toLower_eq_iff {c d : Char} : c.toLower = d.toLower ↔ SameLetter c d := by
  simp only [SameLetter, CapitalOf, ← Char.toNat_inj, toNat_toLower, isUpper_iff]
  split <;> split <;> omega

/-- Beyond ASCII there is no case. -/
example : ¬SameLetter 'É' 'é' := by
  rw [← toLower_eq_iff]
  decide

theorem foldCase_eq_iff {a b : String} : foldCase a = foldCase b ↔ SameLetters a b := by
  rw [← String.toList_inj, foldCase, foldCase, String.toList_map, String.toList_map, SameLetters,
    ← List.forall₂_eq_eq_eq, List.forall₂_map_left_iff, List.forall₂_map_right_iff]
  simp only [toLower_eq_iff]

end StatementPlan
