import Mathlib.Tactic

/-!
# Packing

Pieces are put into containers of one size in order, and a piece that does not fit opens the next container. What opens a
container may differ from what would have been put into the one before. Which pieces do is read off their sizes.
-/

namespace Eigrp.Lib
variable {α : Type*}

/-- For each piece, whether it opens a container behind one that is filled up to `fill`. -/
def breaks (capacity : Nat) : Nat → List (List α × List α) → List Bool
  | _, [] => []
  | fill, piece :: rest =>
    if fill + piece.1.length ≤ capacity then false :: breaks capacity (fill + piece.1.length) rest
    else true :: breaks capacity piece.2.length rest

/-- What is put in: the second form of a piece that opens a container, the first one of every other. -/
def chosen : List Bool → List (List α × List α) → List (List α)
  | opens :: flags, piece :: rest => (if opens then piece.2 else piece.1) :: chosen flags rest
  | _, _ => []

/-- Where one of two packings opens a container and the other does not, the two forms of the piece are the same. -/
def Interchangeable : List Bool → List Bool → List (List α × List α) → Prop
  | first :: firsts, second :: seconds, piece :: rest => (first ≠ second → piece.1 = piece.2) ∧ Interchangeable firsts seconds rest
  | _, _, _ => True

theorem breaks_length (capacity fill : Nat) (pieces : List (List α × List α)) :
    (breaks capacity fill pieces).length = pieces.length := by
  induction pieces generalizing fill with
  | nil => rfl
  | cons piece rest ih =>
    rw [breaks]
    split
    · rw [List.length_cons,List.length_cons,ih]
    · rw [List.length_cons,List.length_cons,ih]

theorem interchangeable_of_same {pieces : List (List α × List α)} (same : ∀ piece ∈ pieces, piece.1 = piece.2)
    (firsts seconds : List Bool) : Interchangeable firsts seconds pieces := by
  induction pieces generalizing firsts seconds with
  | nil => cases firsts <;> cases seconds <;> trivial
  | cons piece rest ih =>
    cases firsts with
    | nil => trivial
    | cons first firsts =>
      cases seconds with
      | nil => trivial
      | cons second seconds =>
        exact ⟨fun _ => same piece List.mem_cons_self,ih (fun other member => same other (List.mem_cons_of_mem _ member)) _ _⟩

theorem chosen_eq_of_interchangeable {firsts seconds : List Bool} {pieces : List (List α × List α)}
    (first_length : firsts.length = pieces.length) (second_length : seconds.length = pieces.length)
    (agree : Interchangeable firsts seconds pieces) : chosen firsts pieces = chosen seconds pieces := by
  induction pieces generalizing firsts seconds with
  | nil =>
    obtain rfl := List.length_eq_zero_iff.1 first_length
    obtain rfl := List.length_eq_zero_iff.1 second_length
    rfl
  | cons piece rest ih =>
    obtain ⟨first,firsts,rfl⟩ := List.exists_cons_of_length_eq_add_one first_length
    obtain ⟨second,seconds,rfl⟩ := List.exists_cons_of_length_eq_add_one second_length
    obtain ⟨here,there⟩ := agree
    have tails := ih (Nat.succ.inj first_length) (Nat.succ.inj second_length) there
    simp only [chosen,tails]
    by_cases same : first = second
    · rw [same]
    · rw [here same,ite_self,ite_self]

/-- When the two forms of every piece are of one size, nothing else makes the contents of two packings equal. -/
theorem interchangeable_of_flatten_eq {firsts seconds : List Bool} {pieces : List (List α × List α)}
    (sized : ∀ piece ∈ pieces, piece.1.length = piece.2.length)
    (same : (chosen firsts pieces).flatten = (chosen seconds pieces).flatten) : Interchangeable firsts seconds pieces := by
  induction pieces generalizing firsts seconds with
  | nil => cases firsts <;> cases seconds <;> trivial
  | cons piece rest ih =>
    cases firsts with
    | nil => trivial
    | cons first firsts =>
      cases seconds with
      | nil => trivial
      | cons second seconds =>
        have size := sized piece List.mem_cons_self
        simp only [chosen,List.flatten_cons] at same
        obtain ⟨here,there⟩ := List.append_inj same (by split <;> split <;> simp [size])
        refine ⟨fun different => ?_,ih (fun other member => sized other (List.mem_cons_of_mem _ member)) there⟩
        cases first <;> cases second
        · exact absurd rfl different
        · simpa using here
        · simpa using here.symm
        · exact absurd rfl different

end Eigrp.Lib
