/-
Names that are equal up to ASCII case.  Only the letters A to Z fold; every other
character, accented letters included, is left as it is.

`fold_fold`: a folded name is its own folding, so folded names can serve as keys.
-/
namespace StatementPlan

/-- The name with A to Z written in lower case. -/
def foldCase (name : String) : String :=
  name.map Char.toLower

/-- Equality up to ASCII case. -/
def sameName (a b : String) : Bool :=
  foldCase a == foldCase b

theorem toLower_toLower (c : Char) : c.toLower.toLower = c.toLower := by
  unfold Char.toLower
  split
  · rename_i h
    obtain ⟨low, high⟩ := h
    simp only [ge_iff_le, UInt32.le_iff_toNat_le] at low high
    split
    · rename_i h'
      have high' := h'.2
      simp only [UInt32.le_iff_toNat_le, UInt32.toNat_add] at high'
      simp at low high high'
      omega
    · rfl
  · simp_all

theorem fold_fold (name : String) : foldCase (foldCase name) = foldCase name := by
  apply String.toList_injective
  simp only [foldCase, String.toList_map, List.map_map]
  exact List.map_congr_left fun c _ => toLower_toLower c

theorem sameName_iff {a b : String} : sameName a b = true ↔ foldCase a = foldCase b :=
  beq_iff_eq

end StatementPlan
