import Mathlib.Data.List.Basic
import Mathlib.Tactic

/-!
# Fields at fixed places

A list of octets in which some are read at a place and others are written over those at a place. What a write leaves
alone is read as before.
-/

namespace Eigrp.Lib
variable {α : Type*}

/-- `size` items from a place on. -/
def window (start size : Nat) (items : List α) : List α := (items.drop start).take size

/-- `src` written over what is at a place. -/
def splice (start : Nat) (src items : List α) : List α := items.take start ++ (src ++ items.drop (start + src.length))

section Splice
variable {start : Nat} {src items : List α}

theorem splice_getElem? (within : start + src.length ≤ items.length) (i : Nat) :
    (splice start src items)[i]? =
      if i < start then items[i]? else if i < start + src.length then src[i - start]? else items[i]? := by
  have front : (items.take start).length = start := by
    rw [List.length_take]
    omega
  unfold splice
  by_cases before : i < start
  · rw [if_pos before,List.getElem?_append_left (by omega),List.getElem?_take_of_lt before]
  · rw [if_neg before,List.getElem?_append_right (by omega),front]
    by_cases inside : i < start + src.length
    · rw [if_pos inside,List.getElem?_append_left (by omega)]
    · rw [if_neg inside,List.getElem?_append_right (by omega),List.getElem?_drop]
      congr 1
      omega

@[simp] theorem splice_length (within : start + src.length ≤ items.length) : (splice start src items).length = items.length := by
  simp only [splice,List.length_append,List.length_take,List.length_drop]
  omega

theorem splice_drop (within : start + src.length ≤ items.length) {n : Nat} (behind : start + src.length ≤ n) :
    (splice start src items).drop n = items.drop n := by
  refine List.ext_getElem? fun i => ?_
  rw [List.getElem?_drop,List.getElem?_drop,splice_getElem? within]
  rw [if_neg (by omega),if_neg (by omega)]

theorem window_getElem? (start size : Nat) (items : List α) (i : Nat) :
    (window start size items)[i]? = if i < size then items[start + i]? else none := by
  rw [window,List.getElem?_take,List.getElem?_drop]

theorem window_length (start size : Nat) (items : List α) (within : start + size ≤ items.length) :
    (window start size items).length = size := by
  rw [window,List.length_take,List.length_drop]
  omega

/-- What was written is read back. -/
theorem window_splice (within : start + src.length ≤ items.length) :
    window start src.length (splice start src items) = src := by
  refine List.ext_getElem? fun i => ?_
  rw [window_getElem?,splice_getElem? within]
  by_cases inside : i < src.length
  · rw [if_pos inside,if_neg (by omega),if_pos (by omega),Nat.add_sub_cancel_left]
  · rw [if_neg inside,List.getElem?_eq_none (by omega)]

/-- What lies in front of a write or behind it is read as before. -/
theorem window_splice_other (within : start + src.length ≤ items.length) {place size : Nat}
    (apart : place + size ≤ start ∨ start + src.length ≤ place) :
    window place size (splice start src items) = window place size items := by
  refine List.ext_getElem? fun i => ?_
  rw [window_getElem?,window_getElem?]
  by_cases inside : i < size
  · rw [if_pos inside,if_pos inside,splice_getElem? within]
    by_cases before : place + i < start
    · rw [if_pos before]
    · rw [if_neg before,if_neg (by omega)]
  · rw [if_neg inside,if_neg inside]

/-- The later of two writes at a place remains. -/
theorem splice_splice {other : List α} (same : other.length = src.length) (within : start + src.length ≤ items.length) :
    splice start src (splice start other items) = splice start src items := by
  have inner : start + other.length ≤ items.length := by omega
  refine List.ext_getElem? fun i => ?_
  rw [splice_getElem? (by rw [splice_length inner]; exact within),splice_getElem? inner,splice_getElem? within]
  by_cases before : i < start
  · simp only [before,if_true]
  · by_cases inside : i < start + src.length
    · simp only [before,inside,if_true,if_false]
    · have outside : ¬ i < start + other.length := by omega
      simp only [before,inside,outside,if_false]

/-- Two writes apart from each other can be made in either order. -/
theorem splice_comm {place : Nat} {other : List α} (within : start + src.length ≤ items.length)
    (other_within : place + other.length ≤ items.length)
    (apart : place + other.length ≤ start ∨ start + src.length ≤ place) :
    splice start src (splice place other items) = splice place other (splice start src items) := by
  refine List.ext_getElem? fun i => ?_
  rw [splice_getElem? (by rw [splice_length other_within]; exact within),splice_getElem? other_within,
    splice_getElem? (by rw [splice_length within]; exact other_within),splice_getElem? within]
  by_cases before : i < start
  · by_cases front : i < place
    · simp only [before,front,if_true]
    · simp only [before,front,if_true,if_false]
  · by_cases inside : i < start + src.length
    · rcases apart with left | right
      · have first : ¬ i < place := by omega
        have second : ¬ i < place + other.length := by omega
        simp only [before,inside,first,second,if_true,if_false]
      · have first : i < place := by omega
        simp only [before,inside,first,if_true,if_false]
    · simp only [before,inside,if_false]

/-- Writing what is there changes nothing. -/
theorem splice_window (within : start + src.length ≤ items.length) (there : window start src.length items = src) :
    splice start src items = items := by
  refine List.ext_getElem? fun i => ?_
  rw [splice_getElem? within]
  by_cases before : i < start
  · rw [if_pos before]
  · by_cases inside : i < start + src.length
    · rw [if_neg before,if_pos inside,← there,window_getElem?,if_pos (by omega)]
      congr 1
      omega
    · rw [if_neg before,if_neg inside]

end Splice
end Eigrp.Lib
