import Mathlib.Tactic

/-!
# Sums with an end-around carry

Adding the carries back into a sum leaves it the same modulo the greatest digit. The sum that is left without carries has
two forms of zero: zero itself, and the greatest digit, which stands for every other multiple.
-/

namespace Eigrp.Lib

/-- What is left of a sum once all its carries out of the digits up to `top` are added back in. -/
def residue (top sum : Nat) : Nat := if sum = 0 then 0 else (sum - 1) % top + 1

/-- One round of adding the carries back in. -/
def end_around (top sum : Nat) : Nat := sum % (top + 1) + sum / (top + 1)

section Residue
variable {top : Nat}

theorem residue_le (positive : 0 < top) (sum : Nat) : residue top sum ≤ top := by
  unfold residue
  split
  · omega
  · have bound := Nat.mod_lt (sum - 1) positive
    omega

theorem residue_small {sum : Nat} (small : sum ≤ top) : residue top sum = sum := by
  unfold residue
  split
  · omega
  · rw [Nat.mod_eq_of_lt (by omega)]
    omega

theorem end_around_split (top sum : Nat) : end_around top sum + top * (sum / (top + 1)) = sum := by
  have split := Nat.mod_add_div sum (top + 1)
  rw [Nat.add_mul,Nat.one_mul] at split
  unfold end_around
  omega

theorem residue_end_around (top sum : Nat) : residue top (end_around top sum) = residue top sum := by
  have split := end_around_split top sum
  by_cases zero : sum = 0
  · simp [zero,end_around]
  · have carried : end_around top sum ≠ 0 := by
      unfold end_around
      intro none
      obtain ⟨low,high⟩ := Nat.add_eq_zero_iff.mp none
      have whole := Nat.mod_add_div sum (top + 1)
      rw [low,high] at whole
      exact zero (by simpa using whole.symm)
    unfold residue
    rw [if_neg carried,if_neg zero]
    have behind : sum - 1 = end_around top sum - 1 + top * (sum / (top + 1)) := by omega
    rw [behind,Nat.add_mul_mod_self_left]

/-- A sum ends as the greatest digit exactly if it is a multiple of it other than zero. -/
theorem residue_eq_top (positive : 0 < top) (sum : Nat) : residue top sum = top ↔ sum ≠ 0 ∧ sum % top = 0 := by
  unfold residue
  split
  · rename_i zero
    simp [zero]
    omega
  · rename_i nonzero
    have whole := Nat.mod_add_div (sum - 1) top
    have bound := Nat.mod_lt (sum - 1) positive
    have split : sum = (sum - 1) % top + 1 + top * ((sum - 1) / top) := by omega
    constructor
    · intro last
      refine ⟨nonzero,?_⟩
      rw [split,last,Nat.add_mul_mod_self_left,Nat.mod_self]
    · rintro ⟨_,multiple⟩
      rw [split,Nat.add_mul_mod_self_left] at multiple
      by_contra short
      rw [Nat.mod_eq_of_lt (by omega)] at multiple
      omega

theorem residue_mod (sum : Nat) : residue top sum % top = sum % top := by
  unfold residue
  split
  · rename_i zero
    simp [zero]
  · rename_i nonzero
    rw [Nat.mod_add_mod,Nat.sub_add_cancel (by omega)]

/-- Adding the complement of what is left makes a multiple other than zero. -/
theorem residue_complement (positive : 0 < top) (sum : Nat) : residue top (sum + (top - residue top sum)) = top := by
  have bound := residue_le positive sum
  rw [residue_eq_top positive]
  constructor
  · by_cases zero : sum = 0
    · simp [zero,residue]
      omega
    · omega
  · have closes : (residue top sum + (top - residue top sum)) % top = (sum + (top - residue top sum)) % top :=
      Nat.ModEq.add_right (top - residue top sum) (residue_mod sum)
    rw [← closes,Nat.add_sub_cancel' bound,Nat.mod_self]

end Residue

end Eigrp.Lib
