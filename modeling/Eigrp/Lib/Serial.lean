import Mathlib.Tactic

/-!
# Serial numbers

The order of 32-bit numbers that come round: the second number is less than half of the circle ahead of the first. It is
no order, but it is one among the numbers that were issued in the last half of the circle before a given one. Queues in
such an order are searched and filled from the front.
-/

namespace Eigrp.Lib

/-! ## Half of the circle -/

/-- How far the second number is ahead of the first one. -/
def age (now word : UInt32) : Nat := (now - word).toNat

/-- The number lies in the half of the circle behind `now`. -/
def Recent (now word : UInt32) : Prop := 0 < age now word ∧ age now word < 0x80000000

theorem age_eq (now word : UInt32) : age now word = (2 ^ 32 - word.toNat + now.toNat) % 2 ^ 32 := by
  rw [age,UInt32.toNat_sub]

theorem age_inj {now first second : UInt32} (same : age now first = age now second) : first = second := by
  rw [age_eq,age_eq] at same
  have bound := first.toNat_lt
  have other_bound := second.toNat_lt
  refine UInt32.toNat_inj.1 ?_
  omega

/-- Among recent numbers the older one is behind. -/
theorem recent_age_lt {now first second : UInt32} (recent : Recent now first) (other : Recent now second) :
    Recent second first ↔ age now second < age now first := by
  unfold Recent at *
  simp only [age_eq] at *
  have bound := first.toNat_lt
  have other_bound := second.toNat_lt
  have now_bound := now.toNat_lt
  omega

theorem recent_trans {now first second third : UInt32} (one : Recent now first) (two : Recent now second) (three : Recent now third)
    (earlier : Recent second first) (later : Recent third second) : Recent third first := by
  rw [recent_age_lt one two] at earlier
  rw [recent_age_lt two three] at later
  exact (recent_age_lt one three).2 (later.trans earlier)

theorem recent_total {now first second : UInt32} (recent : Recent now first) (other : Recent now second) (different : first ≠ second) :
    Recent second first ∨ Recent first second := by
  rw [recent_age_lt recent other,recent_age_lt other recent]
  rcases Nat.lt_trichotomy (age now first) (age now second) with less | same | more
  · exact .inr less
  · exact absurd (age_inj same) different
  · exact .inl more

theorem recent_asymm {first second : UInt32} (recent : Recent second first) : ¬ Recent first second := by
  unfold Recent at *
  simp only [age_eq] at *
  have bound := first.toNat_lt
  have other_bound := second.toNat_lt
  omega

/-! ## Numbers without zero -/

/-- The numbers that are issued one after the other when zero is left out, by their place. -/
def issued (place : Nat) : UInt32 := UInt32.ofNat (place % (2 ^ 32 - 1) + 1)

theorem issued_toNat (place : Nat) : (issued place).toNat = place % (2 ^ 32 - 1) + 1 := by
  have bound : place % (2 ^ 32 - 1) < 2 ^ 32 - 1 := Nat.mod_lt _ (by decide)
  rw [issued,UInt32.toNat_ofNat_of_lt' (by show _ < 2 ^ 32; omega)]

theorem issued_ne_zero (place : Nat) : issued place ≠ 0 := by
  intro zero
  have value := congrArg UInt32.toNat zero
  rw [issued_toNat,UInt32.toNat_zero] at value
  omega

/-- The order of the places is that of the numbers. The zero that is left out costs one place of the half circle. -/
theorem issued_recent {first second : Nat} (earlier : first < second) (near : second < first + (2 ^ 31 - 1)) :
    Recent (issued second) (issued first) := by
  obtain ⟨apart,rfl⟩ := Nat.exists_eq_add_of_lt earlier
  have bound : first % (2 ^ 32 - 1) < 2 ^ 32 - 1 := Nat.mod_lt _ (by decide)
  have place : (first + apart + 1) % (2 ^ 32 - 1) = (first % (2 ^ 32 - 1) + (apart + 1)) % (2 ^ 32 - 1) := by
    rw [Nat.add_assoc,Nat.mod_add_mod]
  unfold Recent
  rw [age_eq,issued_toNat,issued_toNat,place]
  generalize first % (2 ^ 32 - 1) = start at bound
  -- the place comes round once more at most
  by_cases wraps : start + (apart + 1) < 2 ^ 32 - 1
  · rw [Nat.mod_eq_of_lt wraps]
    omega
  · have round : (start + (apart + 1)) % (2 ^ 32 - 1) = start + (apart + 1) - (2 ^ 32 - 1) := by omega
    rw [round]
    omega

/-! ## Queues -/

section Queues
variable {α : Type} {r : α → α → Bool} {queue : List α} {item : α}

/-- What is put behind the items in front of which it does not belong keeps the queue in order. -/
theorem pairwise_insert (sorted : queue.Pairwise (r · ·)) (total : ∀ other ∈ queue, r other item = false → r item other)
    (trans : ∀ first ∈ queue, ∀ second ∈ queue, r item first → r first second → r item second) :
    (queue.takeWhile (r · item) ++ item :: queue.dropWhile (r · item)).Pairwise (r · ·) := by
  induction queue with
  | nil => simp
  | cons head rest ih =>
    obtain ⟨first,sorted_rest⟩ := List.pairwise_cons.1 sorted
    by_cases earlier : r head item = true
    · rw [List.takeWhile_cons,List.dropWhile_cons,if_pos earlier,if_pos earlier,List.cons_append]
      refine List.pairwise_cons.2 ⟨?_,ih sorted_rest (fun other member => total other (by simp [member]))
        (fun one in_one two in_two => trans one (by simp [in_one]) two (by simp [in_two]))⟩
      intro other member
      rcases List.mem_append.1 member with front | back
      · exact first other ((List.takeWhile_prefix _).subset front)
      · rcases List.mem_cons.1 back with rfl | back
        · exact earlier
        · exact first other ((List.dropWhile_suffix _).subset back)
    · have later : r item head = true := total head (by simp) (by simpa using earlier)
      rw [List.takeWhile_cons,List.dropWhile_cons,if_neg earlier,if_neg earlier,List.nil_append]
      refine List.pairwise_cons.2 ⟨?_,sorted⟩
      intro other member
      rcases List.mem_cons.1 member with rfl | member
      · exact later
      · exact trans head (by simp) other (by simp [member]) later (first other member)

/-- In a queue in order the items in front are all that precede. -/
theorem takeWhile_length_eq_countP (sorted : queue.Pairwise (r · ·))
    (trans : ∀ first ∈ queue, ∀ second ∈ queue, r first second → r second item → r first item) :
    (queue.takeWhile (r · item)).length = queue.countP (r · item) := by
  induction queue with
  | nil => rfl
  | cons head rest ih =>
    obtain ⟨first,sorted_rest⟩ := List.pairwise_cons.1 sorted
    by_cases earlier : r head item = true
    · rw [List.takeWhile_cons,if_pos earlier,List.countP_cons,if_pos earlier,List.length_cons,
        ih sorted_rest (fun one in_one two in_two => trans one (by simp [in_one]) two (by simp [in_two]))]
    · rw [List.takeWhile_cons,if_neg earlier,List.countP_cons,if_neg earlier]
      have none_earlier : rest.countP (r · item) = 0 := by
        refine List.countP_eq_zero.2 fun other member other_earlier => earlier ?_
        exact trans head (by simp) other (by simp [member]) (first other member) other_earlier
      rw [none_earlier]
      rfl

end Queues

end Eigrp.Lib
