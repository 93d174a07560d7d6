import Eigrp.Lib.Bits
import Eigrp.Tlv

/-!
# Portable prefixes

`eigrp_prefix.c`: an address family with the octets of an address and a prefix length. A prefix in normal form has no bit
behind its length; two prefixes are told apart by their bits in front of it.
-/

namespace Eigrp.Portable
open Eigrp.Lib

/-- `eigrp_address_t`; what is neither of the two families is `none`. -/
structure Address where
  afi : Option Afi := none
  bytes : Vector UInt8 16 := .replicate 16 0
deriving DecidableEq

/-- `eigrp_prefix_t`. -/
structure Prefix where
  address : Address := {}
  prefix_length : UInt8 := 0
deriving DecidableEq

/-- The `memset` of `size` octets. -/
def memset (bytes : Vector UInt8 16) (start size : Nat) (value : UInt8) : Vector UInt8 16 :=
  .ofFn fun place => if start ≤ place ∧ place < start + size then value else bytes[place]

/-- The `memcpy` of octets to the front. -/
def memcpy (bytes : Vector UInt8 16) (src : List UInt8) : Vector UInt8 16 :=
  .ofFn fun place => src.getD place bytes[place]

/-- `memcmp` finds the first `size` octets the same. -/
def memcmp (bytes other : Vector UInt8 16) (size : Nat) : Bool := bytes.toList.take size == other.toList.take size

def prefix_address_bytes : Option Afi → Nat
  | some afi => afi.packet_address_bytes
  | none => 0

namespace Prefix

/-- `eigrp_prefix_valid`. -/
def valid (network : Prefix) : Bool :=
  match network.address.afi with
  | some .ipv4 => network.prefix_length ≤ 32
  | some .ipv6 => network.prefix_length ≤ 128
  | none => false

/-- `eigrp_prefix_normalize`. -/
def normalize (network : Prefix) : Prefix :=
  if network.valid then
    let address_bytes := prefix_address_bytes network.address.afi
    let full_bytes := network.prefix_length.toNat / 8
    let remaining_bits := network.prefix_length.toNat % 8
    let masked := remaining_bits ≠ 0 ∧ full_bytes < address_bytes
    let bytes := network.address.bytes
    let bytes := if masked then bytes.setIfInBounds full_bytes (octet bytes full_bytes &&& leading remaining_bits) else bytes
    let full_bytes := if masked then full_bytes + 1 else full_bytes
    let bytes := if full_bytes < address_bytes then memset bytes full_bytes (address_bytes - full_bytes) 0 else bytes
    let bytes := if address_bytes < 16 then memset bytes address_bytes (16 - address_bytes) 0 else bytes
    { network with address := { network.address with bytes } }
  else network

/-- `eigrp_prefix_address_match`. -/
def address_match (network : Prefix) (address : Address) : Bool :=
  if network.valid ∧ network.address.afi = address.afi then
    let address_bytes := prefix_address_bytes network.address.afi
    let full_bytes := network.prefix_length.toNat / 8
    let remaining_bits := network.prefix_length.toNat % 8
    if full_bytes ≠ 0 ∧ ¬ memcmp network.address.bytes address.bytes full_bytes then false
    else if remaining_bits = 0 then true
    else if address_bytes ≤ full_bytes then false
    else
      octet network.address.bytes full_bytes &&& leading remaining_bits ==
        octet address.bytes full_bytes &&& leading remaining_bits
  else false

end Prefix

/-! ## Octets -/

theorem octet_memset {bytes : Vector UInt8 16} {start size : Nat} {value : UInt8} {place : Nat} (inside : place < 16) :
    octet (memset bytes start size value) place = if start ≤ place ∧ place < start + size then value else octet bytes place := by
  rw [memset,octet_ofFn inside,octet_eq inside]
  rfl

theorem octet_clear {bytes : Vector UInt8 16} {start stop place : Nat} (inside : place < 16) :
    octet (if start < stop then memset bytes start (stop - start) 0 else bytes) place =
      if start ≤ place ∧ place < stop then 0 else octet bytes place := by
  by_cases some_left : start < stop
  · rw [if_pos some_left,octet_memset inside]
    simp only [show place < start + (stop - start) ↔ place < stop by omega]
  · rw [if_neg some_left,if_neg (by omega)]

theorem octet_memcpy {bytes : Vector UInt8 16} {src : List UInt8} {place : Nat} (inside : place < 16) :
    octet (memcpy bytes src) place = src.getD place (octet bytes place) := by
  rw [memcpy,octet_ofFn inside,octet_eq inside]
  rfl

theorem memcmp_iff {bytes other : Vector UInt8 16} {size : Nat} :
    memcmp bytes other size = true ↔ ∀ place < size, octet bytes place = octet other place := by
  have read (bytes : Vector UInt8 16) (place : Nat) (before : place < size) :
      ((bytes.toList.take size)[place]?).getD 0 = octet bytes place := by
    rw [List.getElem?_take_of_lt before]
    simp [octet]
  rw [memcmp,beq_iff_eq]
  constructor
  · intro same place before
    rw [← read bytes place before,same,read other place before]
  · intro same
    refine List.ext_getElem? fun place => ?_
    by_cases before : place < size
    · rw [List.getElem?_take_of_lt before,List.getElem?_take_of_lt before]
      by_cases inside : place < 16
      · have octets := same place before
        rw [octet_eq inside,octet_eq inside] at octets
        simp [inside,octets]
      · rw [List.getElem?_eq_none (by simp; omega),List.getElem?_eq_none (by simp; omega)]
    · rw [List.getElem?_eq_none (by simp; omega),List.getElem?_eq_none (by simp; omega)]

/-! ## Normal form -/

namespace Prefix
variable {network other : Prefix} {address : Address} {afi : Afi}

/-- A prefix of the family, its length within the address. -/
theorem valid_iff (family : network.address.afi = some afi) :
    network.valid = true ↔ network.prefix_length.toNat ≤ afi.max_bitlen := by
  unfold valid
  rw [family]
  cases afi <;> simp [Afi.max_bitlen,UInt8.le_iff_toNat_le]

theorem valid_family (valid : network.valid = true) :
    ∃ afi, network.address.afi = some afi ∧ network.prefix_length.toNat ≤ afi.max_bitlen := by
  cases family : network.address.afi with
  | none =>
    unfold Prefix.valid at valid
    rw [family] at valid
    cases valid
  | some afi => exact ⟨afi,rfl,(valid_iff family).1 valid⟩

theorem max_bitlen_eq (afi : Afi) : afi.max_bitlen = 8 * afi.packet_address_bytes := by cases afi <;> rfl

theorem packet_address_bytes_le (afi : Afi) : afi.packet_address_bytes ≤ 16 := by cases afi <;> decide

@[simp] theorem normalize_length : network.normalize.prefix_length = network.prefix_length := by
  unfold normalize
  split <;> rfl

@[simp] theorem normalize_afi : network.normalize.address.afi = network.address.afi := by
  unfold normalize
  split <;> rfl

@[simp] theorem normalize_valid : network.normalize.valid = network.valid := by
  unfold valid
  rw [normalize_afi,normalize_length]

/-- Normal form keeps the octets in front, masks the octet in which the prefix ends and clears all behind. -/
theorem normalize_octet (valid : network.valid = true) {place : Nat} (inside : place < 16) :
    octet network.normalize.address.bytes place =
      if place < network.prefix_length.toNat / 8 then octet network.address.bytes place
      else if place = network.prefix_length.toNat / 8 then
        octet network.address.bytes place &&& leading (network.prefix_length.toNat % 8)
      else 0 := by
  obtain ⟨afi,family,within⟩ := valid_family valid
  have bytes := packet_address_bytes_le afi
  rw [max_bitlen_eq] at within
  unfold normalize
  simp only [valid,if_true,family,prefix_address_bytes]
  generalize network.prefix_length.toNat = bits at within ⊢
  rw [octet_clear inside,octet_clear inside]
  by_cases partly : bits % 8 = 0
  · have whole : ¬ (bits % 8 ≠ 0 ∧ bits / 8 < afi.packet_address_bytes) := by simp [partly]
    rw [if_neg whole,if_neg whole,partly]
    by_cases front : place < bits / 8
    · rw [if_neg (by omega),if_neg (by omega),if_pos front]
    · rw [if_neg front,show leading 0 = 0 by decide,UInt8.and_zero,ite_self]
      split_ifs <;> first | rfl | omega
  · have cut : bits % 8 ≠ 0 ∧ bits / 8 < afi.packet_address_bytes := ⟨partly,by omega⟩
    rw [if_pos cut,if_pos cut,octet_set]
    rcases Nat.lt_trichotomy place (bits / 8) with front | last | back
    · rw [if_neg (by omega),if_neg (by omega),if_neg (by omega),if_pos front]
    · subst last
      rw [if_neg (by omega),if_neg (by omega),if_pos ⟨rfl,inside⟩,if_neg (by omega),if_pos rfl]
    · rw [if_neg (show ¬ place < bits / 8 by omega),if_neg (show ¬ place = bits / 8 by omega),
        if_neg (show ¬ (bits / 8 = place ∧ bits / 8 < 16) by omega)]
      split_ifs <;> first | rfl | omega

/-- In normal form the bits in front of the length are kept and those behind it are clear. -/
theorem normalize_bit (valid : network.valid = true) (place : Nat) :
    bit network.normalize.address.bytes place = (decide (place < network.prefix_length.toNat) && bit network.address.bytes place) := by
  obtain ⟨afi,family,within⟩ := valid_family valid
  have bytes := packet_address_bytes_le afi
  rw [max_bitlen_eq] at within
  by_cases inside : place / 8 < 16
  · rw [bit,bit,normalize_octet valid inside]
    rcases Nat.lt_trichotomy (place / 8) (network.prefix_length.toNat / 8) with front | last | back
    · rw [if_pos front,decide_eq_true (by omega),Bool.true_and]
    · rw [if_neg (by omega),if_pos last,masked_testBit (Nat.mod_lt _ (by omega)) (Nat.mod_lt _ (by omega))]
      simp only [show place % 8 < network.prefix_length.toNat % 8 ↔ place < network.prefix_length.toNat by omega]
    · rw [if_neg (by omega),if_neg (by omega),decide_eq_false (by omega),Bool.false_and]
      exact Nat.zero_testBit _
  · rw [decide_eq_false (by omega),Bool.false_and,bit,octet_outside (by omega)]
    exact Nat.zero_testBit _

/-- Two prefixes have one normal form when they agree in family, length and the bits in front of the length. -/
theorem normalize_eq_iff (valid : network.valid = true) (other_valid : other.valid = true) :
    network.normalize = other.normalize ↔ network.address.afi = other.address.afi ∧ network.prefix_length = other.prefix_length ∧
      SameBits network.prefix_length.toNat network.address.bytes other.address.bytes := by
  constructor
  · intro same
    have family := congrArg (fun key => key.address.afi) same
    have length := congrArg Prefix.prefix_length same
    simp only [normalize_afi,normalize_length] at family length
    refine ⟨family,length,fun place before => ?_⟩
    have here := congrArg (fun key => bit key.address.bytes place) same
    simp only [normalize_bit valid,normalize_bit other_valid,← length] at here
    simpa [before] using here
  · rintro ⟨family,length,same⟩
    have bytes : network.normalize.address.bytes = other.normalize.address.bytes := by
      refine bits_ext fun place _ => ?_
      rw [normalize_bit valid,normalize_bit other_valid,← length]
      by_cases before : place < network.prefix_length.toNat
      · rw [same place before]
      · simp [before]
    have afi : network.normalize.address.afi = other.normalize.address.afi := by rw [normalize_afi,normalize_afi,family]
    have lengths : network.normalize.prefix_length = other.normalize.prefix_length := by rw [normalize_length,normalize_length,length]
    generalize network.normalize = first at *
    generalize other.normalize = second at *
    obtain ⟨⟨_,_⟩,_⟩ := first
    obtain ⟨⟨_,_⟩,_⟩ := second
    simp_all

theorem normalize_sameBits (valid : network.valid = true) :
    SameBits network.prefix_length.toNat network.normalize.address.bytes network.address.bytes := by
  intro place before
  rw [normalize_bit valid,decide_eq_true before,Bool.true_and]

@[simp] theorem normalize_normalize : network.normalize.normalize = network.normalize := by
  by_cases valid : network.valid = true
  · refine (normalize_eq_iff (by rw [normalize_valid,valid]) valid).2 ⟨normalize_afi,normalize_length,?_⟩
    rw [normalize_length]
    exact normalize_sameBits valid
  · rw [normalize,if_neg (by rw [normalize_valid]; exact valid)]

/-- The prefix covers the addresses of its family that begin with its bits. -/
theorem address_match_iff : network.address_match address = true ↔ network.valid = true ∧ network.address.afi = address.afi ∧
    SameBits network.prefix_length.toNat network.address.bytes address.bytes := by
  unfold address_match
  by_cases applies : network.valid = true ∧ network.address.afi = address.afi
  · obtain ⟨valid,same_family⟩ := applies
    obtain ⟨afi,family,within⟩ := valid_family valid
    rw [max_bitlen_eq] at within
    simp only [valid,same_family,and_self,if_true,true_and]
    rw [sameBits_iff,← same_family,family,prefix_address_bytes]
    generalize network.prefix_length.toNat = bits at within ⊢
    rw [← memcmp_iff]
    by_cases whole : memcmp network.address.bytes address.bytes (bits / 8) = true
    · have passes : ¬ (bits / 8 ≠ 0 ∧ ¬ memcmp network.address.bytes address.bytes (bits / 8) = true) := by simp [whole]
      rw [if_neg passes]
      by_cases partly : bits % 8 = 0
      · rw [if_pos partly,partly,show leading 0 = 0 by decide]
        simp [whole]
      · rw [if_neg partly,if_neg (by omega),beq_iff_eq]
        simp [whole]
    · have some_bytes : bits / 8 ≠ 0 := by
        intro none_left
        rw [none_left] at whole
        exact whole (memcmp_iff.2 fun place before => absurd before (Nat.not_lt_zero place))
      rw [if_pos ⟨some_bytes,whole⟩]
      simp [whole]
  · rw [if_neg applies]
    constructor
    · intro never
      cases never
    · rintro ⟨valid,family,_⟩
      exact absurd ⟨valid,family⟩ applies

end Prefix
end Eigrp.Portable
