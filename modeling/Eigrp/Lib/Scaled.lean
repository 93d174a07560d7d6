import Mathlib.Tactic

/-!
# Products of fractions in fixed point

A value is multiplied by one fraction after the other and each product is rounded down. It is at most the exact product,
and short of it by less than one unit for each fraction.
-/

namespace Eigrp.Lib

/-- The value times the fractions `weight / scale`, each product rounded down. -/
def scaled (scale : Nat) : List Nat → Nat → Nat
  | [], value => value
  | weight :: weights, value => scaled scale weights (value * weight / scale)

section Scaled
variable {scale : Nat}

theorem scaled_mono (weights : List Nat) {small large : Nat} (less : small ≤ large) :
    scaled scale weights small ≤ scaled scale weights large := by
  induction weights generalizing small large with
  | nil => exact less
  | cons weight weights ih => exact ih (Nat.div_le_div_right (Nat.mul_le_mul_right weight less))

theorem scaled_mul_le (weights : List Nat) (value : Nat) :
    scaled scale weights value * scale ^ weights.length ≤ value * weights.prod := by
  induction weights generalizing value with
  | nil => simp [scaled]
  | cons weight weights ih =>
    calc scaled scale weights (value * weight / scale) * scale ^ (weights.length + 1)
        = scaled scale weights (value * weight / scale) * scale ^ weights.length * scale := by ring
      _ ≤ value * weight / scale * weights.prod * scale := Nat.mul_le_mul_right scale (ih _)
      _ = value * weight / scale * scale * weights.prod := by ring
      _ ≤ value * weight * weights.prod := Nat.mul_le_mul_right _ (Nat.div_mul_le_self _ _)
      _ = value * (weight :: weights).prod := by rw [List.prod_cons,Nat.mul_assoc]

theorem prod_le_scale {weights : List Nat} (fractions : ∀ weight ∈ weights, weight ≤ scale) :
    weights.prod ≤ scale ^ weights.length := by
  induction weights with
  | nil => simp
  | cons weight weights ih =>
    have rest := ih fun other member => fractions other (List.mem_cons_of_mem _ member)
    rw [List.prod_cons,List.length_cons,Nat.pow_succ,Nat.mul_comm]
    exact Nat.mul_le_mul rest (fractions weight (by simp))

theorem mul_le_scaled (positive : 0 < scale) {weights : List Nat} (fractions : ∀ weight ∈ weights, weight ≤ scale) (value : Nat) :
    value * weights.prod ≤ (scaled scale weights value + weights.length) * scale ^ weights.length := by
  induction weights generalizing value with
  | nil => simp [scaled]
  | cons weight weights ih =>
    have others : ∀ other ∈ weights, other ≤ scale := fun other member => fractions other (List.mem_cons_of_mem _ member)
    have rounded : value * weight ≤ value * weight / scale * scale + scale := by
      have split := Nat.div_add_mod (value * weight) scale
      have small := Nat.mod_lt (value * weight) positive
      rw [Nat.mul_comm] at split
      omega
    calc value * (weight :: weights).prod = value * weight * weights.prod := by rw [List.prod_cons,Nat.mul_assoc]
      _ ≤ (value * weight / scale * scale + scale) * weights.prod := Nat.mul_le_mul_right _ rounded
      _ = value * weight / scale * weights.prod * scale + weights.prod * scale := by ring
      _ ≤ (scaled scale weights (value * weight / scale) + weights.length) * scale ^ weights.length * scale +
          scale ^ weights.length * scale :=
        Nat.add_le_add (Nat.mul_le_mul_right scale (ih others _)) (Nat.mul_le_mul_right scale (prod_le_scale others))
      _ = (scaled scale weights (value * weight / scale) + (weights.length + 1)) * scale ^ (weights.length + 1) := by ring

theorem scaled_le (positive : 0 < scale) {weights : List Nat} (fractions : ∀ weight ∈ weights, weight ≤ scale) (value : Nat) :
    scaled scale weights value ≤ value := by
  have power : 0 < scale ^ weights.length := Nat.pow_pos positive
  refine Nat.le_of_mul_le_mul_right ?_ power
  exact (scaled_mul_le weights value).trans (Nat.mul_le_mul_left value (prod_le_scale fractions))

end Scaled

end Eigrp.Lib
