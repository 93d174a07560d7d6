import Mathlib.Tactic

/-!
# Rings of recent values

An array that is written at one place after the other and starts over at its end holds the last values written. The place
of a value is found by going back from the place that is written next.
-/

namespace Eigrp.Lib

variable {α : Type}

/-- The place of the value written `back` writes before the last one, in a ring of `size` places. -/
def slot (size next back : Nat) : Nat :=
  if back < next then next - 1 - back else next + size - 1 - back

/-- The ring holds these values, the last one written first. -/
structure Holds (ring : List α) (next : Nat) (recent : List α) : Prop where
  next_lt : next < ring.length
  fits : recent.length ≤ ring.length
  read : ∀ back < recent.length, ring[slot ring.length next back]? = recent[back]?

/-! ## Places -/

section Places
variable {size next back other : Nat}

theorem slot_eq_mod (inside : next < size) (behind : back < size) : slot size next back = (next + size - 1 - back) % size := by
  unfold slot
  split
  · have shifted : next + size - 1 - back = next - 1 - back + size := by omega
    rw [shifted,Nat.add_mod_right,Nat.mod_eq_of_lt (by omega)]
  · rw [Nat.mod_eq_of_lt (by omega)]

/-- The place written next is not yet among the younger ones. -/
theorem slot_ne_next (behind : back + 1 < size) : slot size next back ≠ next := by
  unfold slot
  split <;> omega

theorem succ_mod (inside : next < size) : (next + 1) % size = if next + 1 = size then 0 else next + 1 := by
  split
  · rename_i last
    rw [last,Nat.mod_self]
  · exact Nat.mod_eq_of_lt (by omega)

theorem slot_next_zero (inside : next < size) : slot size ((next + 1) % size) 0 = next := by
  rw [succ_mod inside]
  unfold slot
  split <;> split <;> omega

theorem slot_next_succ (inside : next < size) (behind : back + 1 < size) :
    slot size ((next + 1) % size) (back + 1) = slot size next back := by
  rw [succ_mod inside]
  unfold slot
  split <;> split <;> split <;> omega

/-- In a ring filled from its first place the values lie in the order of writing. -/
theorem slot_filled {kept : Nat} (fits : kept ≤ size) (behind : back < kept) : slot size (kept % size) back = kept - 1 - back := by
  unfold slot
  rcases Nat.eq_or_lt_of_le fits with full | room
  · rw [full,Nat.mod_self,if_neg (by omega)]
    omega
  · rw [Nat.mod_eq_of_lt room,if_pos behind]

end Places

/-! ## Writing -/

section Writing
variable {ring recent : List α} {next : Nat} {value : α}

theorem Holds.empty (inside : next < ring.length) : Holds ring next [] where
  next_lt := inside
  fits := Nat.zero_le _
  read := fun back behind => absurd behind (Nat.not_lt_zero back)

/-- A write puts one value in front and drops the last one of a full ring. -/
theorem Holds.push (holds : Holds ring next recent) :
    Holds (ring.set next value) ((next + 1) % ring.length) ((value :: recent).take ring.length) := by
  obtain ⟨inside,fits,read⟩ := holds
  refine ⟨?_,?_,?_⟩
  · rw [List.length_set]
    exact Nat.mod_lt _ (by omega)
  · rw [List.length_set]
    exact List.length_take_le _ _
  · intro back behind
    rw [List.length_take,List.length_cons] at behind
    have bounded : back < ring.length := by omega
    rw [List.length_set,List.getElem?_take_of_lt bounded]
    cases back with
    | zero =>
      rw [slot_next_zero inside,List.getElem?_set_self inside]
      rfl
    | succ back =>
      rw [slot_next_succ inside bounded,List.getElem?_set_ne (slot_ne_next bounded).symm,List.getElem?_cons_succ]
      exact read back (by omega)

/-- A ring that was filled from its first place, the oldest value first. -/
theorem Holds.filled (positive : 0 < ring.length) (fits : recent.length ≤ ring.length)
    (laid : ∀ place < recent.length, ring[place]? = recent[recent.length - 1 - place]?) :
    Holds ring (recent.length % ring.length) recent where
  next_lt := Nat.mod_lt _ positive
  fits := fits
  read := by
    intro back behind
    rw [slot_filled fits behind,laid _ (by omega)]
    congr 1
    omega

end Writing

end Eigrp.Lib
