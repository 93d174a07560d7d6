import Mathlib.Tactic

/-!
# Token buckets

A bucket gains credit at a rate up to a capacity, and what is spent is taken from its credit. The ledger says what was spent
when. What is spent in a stretch of time is covered by the credit at its beginning and by what the rate gives in it.
-/

namespace Eigrp.Lib

/-- The credit after a pause. -/
def refill (rate capacity elapsed credit : Nat) : Nat := min (credit + elapsed * rate) capacity

/-- The shortest pause that gives the missing credit. -/
def pause (rate missing : Nat) : Nat := (missing + rate - 1) / rate

section Arithmetic
variable {rate capacity elapsed credit missing : Nat}

theorem refill_le_capacity : refill rate capacity elapsed credit ≤ capacity := Nat.min_le_right _ _

theorem refill_le : refill rate capacity elapsed credit ≤ credit + elapsed * rate := Nat.min_le_left _ _

theorem le_pause_mul (positive : 0 < rate) : missing ≤ pause rate missing * rate := by
  have division := Nat.div_add_mod (missing + rate - 1) rate
  have small := Nat.mod_lt (missing + rate - 1) positive
  rw [pause,Nat.mul_comm]
  omega

theorem mul_lt_of_lt_pause (positive : 0 < rate) (early : elapsed < pause rate missing) : elapsed * rate < missing := by
  have next := (Nat.le_div_iff_mul_le positive).1 (Nat.succ_le_of_lt early)
  rw [Nat.succ_mul] at next
  omega

/-- After a long pause the bucket is full. -/
theorem refill_full (positive : 0 < rate) (long : pause rate capacity ≤ elapsed) : refill rate capacity elapsed credit = capacity := by
  have enough : capacity ≤ elapsed * rate := (le_pause_mul positive).trans (Nat.mul_le_mul_right rate long)
  exact Nat.min_eq_right (enough.trans (Nat.le_add_left _ _))

theorem pause_zero (positive : 0 < rate) : pause rate 0 = 0 := Nat.div_eq_of_lt (by omega)

theorem pause_pos (positive : 0 < rate) (some_missing : 0 < missing) : 0 < pause rate missing :=
  Nat.div_pos (by omega) positive

end Arithmetic

/-! ## Ledgers -/

/-- What was spent, in entries of time and amount. -/
def spent (ledger : List (Nat × Nat)) : Nat := (ledger.map Prod.snd).sum

def since (start : Nat) (ledger : List (Nat × Nat)) : List (Nat × Nat) := ledger.filter fun entry => start ≤ entry.1

/-- The entries of a stretch of time. -/
def within (start span : Nat) (ledger : List (Nat × Nat)) : List (Nat × Nat) :=
  ledger.filter fun entry => start ≤ entry.1 ∧ entry.1 ≤ start + span

/-- What was spent since `start` and what is left come from the rate and at most `most` that was there. -/
structure Covered (rate most start credit now : Nat) (ledger : List (Nat × Nat)) : Prop where
  started : spent (since start ledger) ≠ 0 → start ≤ now
  covered : spent (since start ledger) ≠ 0 → spent (since start ledger) + credit ≤ (now - start) * rate + most

section Ledgers
variable {rate most start span credit now : Nat} {ledger : List (Nat × Nat)}

theorem spent_append (more : List (Nat × Nat)) : spent (ledger ++ more) = spent ledger + spent more := by
  simp [spent]

theorem since_append (more : List (Nat × Nat)) : since start (ledger ++ more) = since start ledger ++ since start more := List.filter_append _ _

/-- The credit grows no faster than the rate. -/
theorem Covered.wait {later gained : Nat} (before : Covered rate most start credit now ledger) (order : now ≤ later)
    (gain : gained ≤ credit + (later - now) * rate) : Covered rate most start gained later ledger where
  started := fun some_spent => (before.started some_spent).trans order
  covered := by
    intro some_spent
    have old := before.covered some_spent
    have first := before.started some_spent
    have split : (later - start) * rate = (now - start) * rate + (later - now) * rate := by
      rw [← Nat.add_mul]
      congr 1
      omega
    omega

/-- An amount is spent that the credit covers. -/
theorem Covered.spend {amount left : Nat} (before : Covered rate most start credit now ledger) (enough : amount ≤ credit)
    (rest : left ≤ credit - amount) (first : start ≤ now → spent (since start ledger) = 0 → amount ≠ 0 → credit ≤ most) :
    Covered rate most start left now (ledger ++ [(now,amount)]) := by
  have total : spent (since start (ledger ++ [(now,amount)])) = spent (since start ledger) + if start ≤ now then amount else 0 := by
    rw [since_append,spent_append]
    by_cases inside : start ≤ now
    · simp [since,spent,inside]
    · simp [since,spent,inside]
  refine ⟨fun some_spent => ?_,fun some_spent => ?_⟩
  · by_cases old : spent (since start ledger) = 0
    · by_contra outside
      rw [total,old,if_neg outside] at some_spent
      exact some_spent rfl
    · exact before.started old
  · rw [total] at some_spent ⊢
    by_cases old : spent (since start ledger) = 0
    · by_cases inside : start ≤ now
      · rw [old,if_pos inside,Nat.zero_add] at some_spent ⊢
        have bound := first inside old some_spent
        omega
      · rw [old,if_neg inside] at some_spent
        exact absurd rfl some_spent
    · have bound := before.covered old
      have inside := before.started old
      rw [if_pos inside]
      omega

theorem spent_since_le : spent (since start ledger) ≤ spent ledger :=
  (List.filter_sublist.map Prod.snd).sum_le_sum (by simp)

/-- Nothing was spent yet. -/
theorem covered_of_spent (idle : spent ledger = 0) : Covered rate most start credit now ledger := by
  have none_since : spent (since start ledger) = 0 := Nat.le_zero.1 (idle ▸ spent_since_le)
  exact ⟨fun some_spent => absurd none_since some_spent,fun some_spent => absurd none_since some_spent⟩

/-- An entry without an amount. -/
theorem Covered.idle (before : Covered rate most start credit now ledger) (time : Nat) :
    Covered rate most start credit now (ledger ++ [(time,0)]) := by
  have total : spent (since start (ledger ++ [(time,0)])) = spent (since start ledger) := by
    rw [since_append,spent_append]
    by_cases inside : start ≤ time
    · simp [since,spent,inside]
    · simp [since,spent,inside]
  exact ⟨fun some_spent => before.started (total ▸ some_spent),fun some_spent => by
    rw [total] at some_spent ⊢
    exact before.covered some_spent⟩

/-- Up to now a stretch that has begun holds what was spent since its beginning. -/
theorem within_eq_since (past : ∀ entry ∈ ledger, entry.1 ≤ now) (inside : now ≤ start + span) : within start span ledger = since start ledger := by
  refine List.filter_congr fun entry member => ?_
  have before := past entry member
  simp only [decide_eq_decide]
  constructor
  · exact fun both => both.1
  · exact fun begun => ⟨begun,before.trans inside⟩

theorem within_append (more : List (Nat × Nat)) : within start span (ledger ++ more) = within start span ledger ++ within start span more :=
  List.filter_append _ _

end Ledgers

end Eigrp.Lib
