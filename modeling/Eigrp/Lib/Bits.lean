import Eigrp.Lib.Bytes

/-!
# Leading bits of octets

An address is a row of bits, the high bit of an octet first. A mask keeps the leading bits of an octet, a network keeps
the leading bits of an address.
-/

namespace Eigrp.Lib

variable {n : Nat} {bytes other : Vector UInt8 n}

def octet (bytes : Vector UInt8 n) (place : Nat) : UInt8 := bytes[place]?.getD 0

/-- The bit at a place, counted from the front. -/
def bit (bytes : Vector UInt8 n) (place : Nat) : Bool := (octet bytes (place / 8)).toNat.testBit (7 - place % 8)

/-- The mask of the leading `count` bits of an octet. -/
def leading (count : Nat) : UInt8 := UInt8.ofNat (0xff <<< (8 - count))

/-- The first `count` bits of both are the same. -/
def SameBits (count : Nat) (bytes other : Vector UInt8 n) : Prop := ∀ place < count, bit bytes place = bit other place

theorem octet_eq {place : Nat} (inside : place < n) : octet bytes place = bytes[place] := by
  simp [octet,inside]

theorem octet_outside {place : Nat} (outside : n ≤ place) : octet bytes place = 0 := by
  simp [octet,Nat.not_lt.2 outside]

theorem vector_ext (same : ∀ place < n, octet bytes place = octet other place) : bytes = other := by
  refine Vector.ext fun place inside => ?_
  have octets := same place inside
  rwa [octet_eq inside,octet_eq inside] at octets

@[simp] theorem octet_ofFn {f : Fin n → UInt8} {place : Nat} (inside : place < n) :
    octet (Vector.ofFn f) place = f ⟨place,inside⟩ := by
  simp [octet,inside]

theorem octet_set (bytes : Vector UInt8 n) (place : Nat) (value : UInt8) (other : Nat) :
    octet (bytes.setIfInBounds place value) other = if place = other ∧ place < n then value else octet bytes other := by
  unfold octet
  by_cases here : place = other
  · subst here
    by_cases inside : place < n <;> simp [inside]
  · simp [here]

theorem octet_ext {first second : UInt8} (same : ∀ place < 8, first.toNat.testBit (7 - place) = second.toNat.testBit (7 - place)) :
    first = second := by
  refine UInt8.toNat_inj.1 (Nat.eq_of_testBit_eq fun place => ?_)
  by_cases low : place < 8
  · have here := same (7 - place) (by omega)
    rwa [show 7 - (7 - place) = place by omega] at here
  · have high : 2 ^ 8 ≤ 2 ^ place := Nat.pow_le_pow_right (by omega) (by omega)
    rw [Nat.testBit_lt_two_pow (by have := first.toNat_lt; omega),Nat.testBit_lt_two_pow (by have := second.toNat_lt; omega)]

theorem octet_eq_iff {place : Nat} :
    octet bytes place = octet other place ↔ ∀ inner < 8, bit bytes (8 * place + inner) = bit other (8 * place + inner) := by
  have split (inner : Nat) (low : inner < 8) : (8 * place + inner) / 8 = place ∧ (8 * place + inner) % 8 = inner := by omega
  constructor
  · intro same inner low
    rw [bit,bit,(split inner low).1,same]
  · intro same
    refine octet_ext fun inner low => ?_
    have here := same inner low
    rwa [bit,bit,(split inner low).1,(split inner low).2] at here

theorem bits_ext (same : SameBits (8 * n) bytes other) : bytes = other :=
  vector_ext fun place inside => octet_eq_iff.2 fun inner low => same _ (by omega)

theorem leading_testBit : ∀ count < 8, ∀ place < 8, (leading count).toNat.testBit (7 - place) = decide (place < count) := by
  decide

/-- A masked octet keeps its leading bits. -/
theorem masked_testBit {byte : UInt8} {count place : Nat} (some_bits : count < 8) (low : place < 8) :
    (byte &&& leading count).toNat.testBit (7 - place) = (decide (place < count) && byte.toNat.testBit (7 - place)) := by
  rw [UInt8.toNat_and,Nat.testBit_and,leading_testBit count some_bits place low,Bool.and_comm]

theorem masked_eq_iff {first second : UInt8} {count : Nat} (some_bits : count < 8) :
    first &&& leading count = second &&& leading count ↔
      ∀ place < count, first.toNat.testBit (7 - place) = second.toNat.testBit (7 - place) := by
  constructor
  · intro same place before
    have here := @masked_testBit first _ _ some_bits (show place < 8 by omega)
    rw [same,masked_testBit some_bits (by omega)] at here
    simpa [before] using here.symm
  · intro same
    refine octet_ext fun place low => ?_
    rw [masked_testBit some_bits low,masked_testBit some_bits low]
    by_cases before : place < count
    · rw [same place before]
    · simp [before]

/-- The first bits are the same when the whole octets are and the last ones agree under the mask. -/
theorem sameBits_iff {count : Nat} : SameBits count bytes other ↔
    (∀ place < count / 8, octet bytes place = octet other place) ∧
      octet bytes (count / 8) &&& leading (count % 8) = octet other (count / 8) &&& leading (count % 8) := by
  rw [masked_eq_iff (Nat.mod_lt _ (by omega))]
  constructor
  · intro same
    refine ⟨fun place before => octet_eq_iff.2 fun inner low => same _ (by omega),fun inner before => ?_⟩
    have here := same (8 * (count / 8) + inner) (by omega)
    rwa [bit,bit,show (8 * (count / 8) + inner) / 8 = count / 8 by omega,
      show (8 * (count / 8) + inner) % 8 = inner by omega] at here
  · rintro ⟨whole,rest⟩ place before
    by_cases inner : place / 8 < count / 8
    · rw [bit,bit,whole _ inner]
    · have last : place / 8 = count / 8 := by omega
      rw [bit,bit,last]
      exact rest (place % 8) (by omega)

/-! ## Numbers -/

theorem number_append_zeros (bytes : List UInt8) (count : Nat) :
    number (bytes ++ List.replicate count 0) = number bytes * 256 ^ count := by
  have zeros (count : Nat) : number (List.replicate count 0) = 0 := by
    induction count with
    | zero => rfl
    | succ count ih => rw [List.replicate_succ,number_cons,ih]; simp
  induction bytes with
  | nil => simpa [number] using zeros count
  | cons byte bytes ih =>
    rw [List.cons_append,number_cons,number_cons,ih,List.length_append,List.length_replicate,pow_add]
    ring

/-- The bits of the number that octets spell, from the last octet to the first. -/
theorem number_testBit (bytes : List UInt8) {place : Nat} (inside : place < 8 * bytes.length) :
    (number bytes).testBit place = (bytes.getD (bytes.length - 1 - place / 8) 0).toNat.testBit (place % 8) := by
  induction bytes with
  | nil => simp at inside
  | cons byte bytes ih =>
    have low : number bytes < 2 ^ (8 * bytes.length) := by
      rw [pow_mul]
      exact number_lt bytes
    rw [List.length_cons] at inside ⊢
    rw [number_cons,show (256 : Nat) = 2 ^ 8 by decide,← pow_mul,Nat.mul_comm,Nat.testBit_two_pow_mul_add _ low]
    by_cases tail : place < 8 * bytes.length
    · obtain ⟨index,at_index⟩ : ∃ index, bytes.length + 1 - 1 - place / 8 = index + 1 := ⟨bytes.length - 1 - place / 8,by omega⟩
      rw [if_pos tail,ih tail,at_index,List.getD_cons_succ,show bytes.length - 1 - place / 8 = index by omega]
    · rw [if_neg tail,show bytes.length + 1 - 1 - place / 8 = 0 by omega,List.getD_cons_zero,
        show place - 8 * bytes.length = place % 8 by omega]

/-- The leading octets as a number have the bits of the address in reverse. -/
theorem number_bit {size place : Nat} (fits : size ≤ n) (inside : place < 8 * size) :
    (number (bytes.toList.take size)).testBit place = bit bytes (8 * size - 1 - place) := by
  have length : (bytes.toList.take size).length = size := by simp [fits]
  rw [number_testBit _ (by rw [length]; exact inside),length,bit,show (8 * size - 1 - place) / 8 = size - 1 - place / 8 by omega,
    show 7 - (8 * size - 1 - place) % 8 = place % 8 by omega,List.getD_eq_getElem?_getD,List.getElem?_take_of_lt (by omega)]
  simp [octet]

end Eigrp.Lib
