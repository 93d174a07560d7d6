import Eigrp.RoundTrip
import Eigrp.Portable

/-!
# The wire form of prefixes

`eigrp_ipv4.c` and `eigrp_ipv6.c`: a prefix is sent as its length and the octets of the address that the length covers; a
family has its own rule for how many these are. Both directions go through normal form.
-/

namespace Eigrp.Portable
open Eigrp.Lib

/-! ## Codecs -/

/-- The decoder of a family, with the number of octets that it has read. -/
def prefix_decode (afi : Afi) : StateM Stream (Option (Prefix × Nat)) := fun pkt =>
  if 1 ≤ pkt.remaining then
    let start := pkt.getp
    let (prefix_length, pkt) := Stream.getc.run pkt
    if afi.max_bitlen < prefix_length.toNat then (none, pkt.set_getp start)
    else
      let address_length := afi.prefix_bytes prefix_length.toNat
      if address_length ≤ pkt.remaining then
        let (bytes, pkt) := (Stream.get address_length).run pkt
        let network : Prefix := { address := { afi := some afi, bytes := memcpy (.replicate 16 0) bytes }, prefix_length }
        (some (network.normalize, 1 + address_length), pkt)
      else (none, pkt.set_getp start)
  else (none, pkt)

/-- The encoder of a family, with the number of octets that it reports. -/
def prefix_encode (afi : Afi) (network : Prefix) : StateM Stream (Option Nat) := fun pkt =>
  if network.address.afi = some afi ∧ network.prefix_length.toNat ≤ afi.max_bitlen then
    let normalized := network.normalize
    let address_length := afi.prefix_bytes normalized.prefix_length.toNat
    let pkt := pkt.put [normalized.prefix_length]
    let pkt := if address_length ≠ 0 then pkt.put (normalized.address.bytes.toList.take address_length) else pkt
    (some (1 + address_length), pkt)
  else (none, pkt)

def ipv4_packet_prefix_decode : StateM Stream (Option (Prefix × Nat)) := prefix_decode .ipv4
def ipv6_packet_prefix_decode : StateM Stream (Option (Prefix × Nat)) := prefix_decode .ipv6
def ipv4_packet_prefix_encode (network : Prefix) : StateM Stream (Option Nat) := prefix_encode .ipv4 network
def ipv6_packet_prefix_encode (network : Prefix) : StateM Stream (Option Nat) := prefix_encode .ipv6 network

/-- The decoder among the operations of the address family. -/
def packet_prefix_decode : Afi → StateM Stream (Option (Prefix × Nat))
  | .ipv4 => ipv4_packet_prefix_decode
  | .ipv6 => ipv6_packet_prefix_decode

/-- The encoder among the operations of the address family. -/
def packet_prefix_encode : Afi → Prefix → StateM Stream (Option Nat)
  | .ipv4 => ipv4_packet_prefix_encode
  | .ipv6 => ipv6_packet_prefix_encode

theorem packet_prefix_decode_eq (afi : Afi) : packet_prefix_decode afi = prefix_decode afi := by cases afi <;> rfl

theorem packet_prefix_encode_eq (afi : Afi) : packet_prefix_encode afi = prefix_encode afi := by cases afi <;> rfl

/-! ## Streams -/

section Streams
variable {pkt : Stream}

theorem getc_run {byte : UInt8} {rest : List UInt8} (ahead : pkt.unread = byte :: rest) : Stream.getc.run pkt = (byte, pkt.skip 1) := by
  obtain ⟨value,reads,runs⟩ := Stream.getc_covers
  have here := reads pkt.unread
  rw [ahead,if_pos (by simp)] at here
  rw [runs pkt (by rw [ahead]; simp),ahead]
  obtain ⟨first,_⟩ := Prod.ext_iff.1 (Option.some.inj here)
  exact congrArg (·,pkt.skip 1) first.symm

theorem get_run {n : Nat} (enough : n ≤ pkt.unread.length) : (Stream.get n).run pkt = (pkt.unread.take n, pkt.skip n) := by
  have size : min n pkt.remaining = n := by
    rw [Stream.unread_length] at enough
    simp only [Stream.remaining]
    omega
  simp only [Stream.get,StateT.run]
  rw [size]
  rfl

theorem put_unread (src : List UInt8) : (pkt.put src).unread = pkt.unread ++ src := by
  have ordered := pkt.ordered
  have allocated := pkt.allocated
  have written := Stream.put_content pkt src
  unfold Stream.content at written
  unfold Stream.unread
  rw [written,Stream.put_getp,List.drop_append_of_le_length (by simp; omega)]

theorem skip_back (n : Nat) : (pkt.skip n).set_getp pkt.getp = pkt := by
  have ordered := pkt.ordered
  ext1
  · rfl
  · simp [Stream.skip,Stream.set_getp,ordered]
  · rfl

end Streams

/-! ## What is sent and what is received -/

section Codec
variable {afi : Afi} {network : Prefix} {pkt : Stream}

/-- The octets of a prefix on the wire. -/
def wire (afi : Afi) (network : Prefix) : List UInt8 :=
  network.prefix_length :: network.normalize.address.bytes.toList.take (afi.prefix_bytes network.prefix_length.toNat)

/-- The prefix that a length and the octets behind it spell, its host bits as they came. -/
def received (afi : Afi) (prefix_length : UInt8) (bytes : List UInt8) : Prefix where
  address := { afi := some afi, bytes := memcpy (.replicate 16 0) (bytes.take (afi.prefix_bytes prefix_length.toNat)) }
  prefix_length := prefix_length

theorem prefix_bytes_le_sixteen (afi : Afi) {prefix_length : Nat} (within : prefix_length ≤ afi.max_bitlen) :
    afi.prefix_bytes prefix_length ≤ 16 :=
  (prefix_bytes_le afi within).trans (Prefix.packet_address_bytes_le afi)

theorem wire_length (within : network.prefix_length.toNat ≤ afi.max_bitlen) :
    (wire afi network).length = 1 + afi.prefix_bytes network.prefix_length.toNat := by
  have bytes := prefix_bytes_le_sixteen afi within
  simp only [wire,List.length_cons,List.length_take,Vector.length_toList]
  omega

theorem received_valid {prefix_length : UInt8} {bytes : List UInt8} (within : prefix_length.toNat ≤ afi.max_bitlen) :
    (received afi prefix_length bytes).valid = true := (Prefix.valid_iff rfl).2 within

/-- Receiving what was sent: the bits in front of the length arrive. -/
theorem received_wire (family : network.address.afi = some afi) (within : network.prefix_length.toNat ≤ afi.max_bitlen) (rest : List UInt8) :
    (received afi network.prefix_length
      (network.normalize.address.bytes.toList.take (afi.prefix_bytes network.prefix_length.toNat) ++ rest)).normalize =
        network.normalize := by
  have valid := (Prefix.valid_iff family).2 within
  have cover := prefix_bytes_cover afi within
  have bytes := prefix_bytes_le_sixteen afi within
  refine (Prefix.normalize_eq_iff (received_valid within) valid).2 ⟨family.symm,rfl,fun place before => ?_⟩
  have sent := Prefix.normalize_sameBits valid place before
  rw [← sent,bit,bit]
  simp only [received] at before ⊢
  have front : place / 8 < afi.prefix_bytes network.prefix_length.toNat := by omega
  rw [octet_memcpy (by omega),List.take_append_of_le_length (by simp; omega),List.take_take,min_self]
  have read : (network.normalize.address.bytes.toList.take (afi.prefix_bytes network.prefix_length.toNat)).getD (place / 8)
      (octet (.replicate 16 0) (place / 8)) = octet network.normalize.address.bytes (place / 8) := by
    have inside : place / 8 < 16 := by omega
    rw [List.getD_eq_getElem?_getD,List.getElem?_take_of_lt front]
    simp [octet,inside]
  rw [read]

theorem prefix_encode_writes (family : network.address.afi = some afi) (within : network.prefix_length.toNat ≤ afi.max_bitlen) :
    ∃ written, prefix_encode afi network pkt = (some (wire afi network).length, written) ∧ written.unread = pkt.unread ++ wire afi network := by
  rw [wire_length within]
  unfold prefix_encode
  rw [if_pos ⟨family,within⟩]
  simp only [Prefix.normalize_length]
  refine ⟨_,rfl,?_⟩
  by_cases empty : afi.prefix_bytes network.prefix_length.toNat = 0
  · rw [if_neg (by simp [empty]),put_unread,wire,empty,List.take_zero]
  · rw [if_pos empty,put_unread,put_unread,List.append_assoc,wire,List.singleton_append]

theorem prefix_decode_reads {prefix_length : UInt8} {rest : List UInt8} (ahead : pkt.unread = prefix_length :: rest)
    (within : prefix_length.toNat ≤ afi.max_bitlen) (enough : afi.prefix_bytes prefix_length.toNat ≤ rest.length) :
    prefix_decode afi pkt =
      (some ((received afi prefix_length rest).normalize, 1 + afi.prefix_bytes prefix_length.toNat),
        pkt.skip (1 + afi.prefix_bytes prefix_length.toNat)) := by
  have some_left : 1 ≤ pkt.remaining := by
    have length := pkt.unread_length
    rw [ahead,List.length_cons] at length
    simp only [Stream.remaining]
    omega
  have behind : (pkt.skip 1).unread = rest := by rw [Stream.skip_unread,ahead]; rfl
  have left : afi.prefix_bytes prefix_length.toNat ≤ (pkt.skip 1).remaining := by
    have length := (pkt.skip 1).unread_length
    rw [behind] at length
    simp only [Stream.remaining]
    omega
  unfold prefix_decode
  rw [if_pos some_left]
  simp only [getc_run ahead]
  rw [if_neg (by omega),if_pos left]
  simp only [get_run (show afi.prefix_bytes prefix_length.toNat ≤ (pkt.skip 1).unread.length by rw [behind]; exact enough)]
  rw [behind,Stream.skip_skip]
  rfl

/-- Octets that are no prefix leave the stream as it was. -/
theorem prefix_decode_fails (short : ∀ prefix_length rest, pkt.unread = prefix_length :: rest → prefix_length.toNat ≤ afi.max_bitlen →
    rest.length < afi.prefix_bytes prefix_length.toNat) : prefix_decode afi pkt = (none, pkt) := by
  unfold prefix_decode
  cases ahead : pkt.unread with
  | nil =>
    have length := pkt.unread_length
    rw [ahead,List.length_nil] at length
    rw [if_neg (by simp only [Stream.remaining]; omega)]
  | cons prefix_length rest =>
    have length := pkt.unread_length
    rw [ahead,List.length_cons] at length
    rw [if_pos (by simp only [Stream.remaining]; omega)]
    simp only [getc_run ahead]
    by_cases long : afi.max_bitlen < prefix_length.toNat
    · rw [if_pos long,skip_back]
    · have few := short prefix_length rest ahead (by omega)
      have behind := (pkt.skip 1).unread_length
      rw [Stream.skip_unread,ahead,List.drop_succ_cons,List.drop_zero] at behind
      rw [if_neg long,if_neg (by simp only [Stream.remaining]; omega),skip_back]

end Codec

/-! ## Round trips -/

/-- The encoder reports these octets and appends them to any stream. -/
def Encodes (afi : Afi) (network : Prefix) (bytes : List UInt8) : Prop :=
  ∀ pkt : Stream, ∃ written, packet_prefix_encode afi network pkt = (some bytes.length, written) ∧ written.unread = pkt.unread ++ bytes

/-- The decoder reads these octets, whatever follows them, as the prefix. -/
def Decodes (afi : Afi) (bytes : List UInt8) (network : Prefix) : Prop :=
  ∀ (pkt : Stream) (rest : List UInt8), pkt.unread = bytes ++ rest →
    ∃ left, packet_prefix_decode afi pkt = (some (network, bytes.length), left) ∧ left.unread = rest ∧
      left.getp = pkt.getp + bytes.length

/-- How many octets of an address of the family a prefix length is sent with. -/
def compressed_length (afi : Afi) (prefix_length : Nat) : Nat :=
  match afi with
  | .ipv4 => (prefix_length + 7) / 8
  | .ipv6 => if prefix_length = 0 then 0 else if prefix_length = 128 then 16 else prefix_length / 8 + 1

section RoundTrips
variable {afi : Afi} {network : Prefix}

theorem prefix_bytes_eq (afi : Afi) (prefix_length : Nat) : afi.prefix_bytes prefix_length = compressed_length afi prefix_length := by
  cases afi <;> simp only [Afi.prefix_bytes,compressed_length]
  split <;> omega

theorem wire_encodes (family : network.address.afi = some afi) (valid : network.valid = true) : Encodes afi network (wire afi network) := by
  intro pkt
  rw [packet_prefix_encode_eq]
  exact prefix_encode_writes family ((Prefix.valid_iff family).1 valid)

theorem wire_decodes (family : network.address.afi = some afi) (valid : network.valid = true) :
    Decodes afi (wire afi network) network.normalize := by
  intro pkt rest ahead
  have within := (Prefix.valid_iff family).1 valid
  have bytes := prefix_bytes_le_sixteen afi within
  have length := wire_length within
  have enough : (wire afi network).length ≤ pkt.unread.length := by rw [ahead,List.length_append]; omega
  have front : pkt.unread = network.prefix_length ::
      (network.normalize.address.bytes.toList.take (afi.prefix_bytes network.prefix_length.toNat) ++ rest) := by
    rw [ahead,wire,List.cons_append]
  refine ⟨pkt.skip (wire afi network).length,?_,?_,Stream.skip_getp pkt enough⟩
  · rw [packet_prefix_decode_eq,prefix_decode_reads front within (by simp; omega),received_wire family within,length]
  · rw [Stream.skip_unread,ahead,List.drop_left]

/-- Encoding and decoding are inverse up to normal form, with the lengths of the family; decoding gives a prefix in normal
form or leaves the stream alone. -/
theorem wire_codec (afi : Afi) :
    (∀ network : Prefix, network.valid = true → network.address.afi = some afi →
      ∃ bytes, Encodes afi network bytes ∧ Decodes afi bytes network.normalize ∧
        bytes.length = 1 + compressed_length afi network.prefix_length.toNat) ∧
    (∀ pkt : Stream, packet_prefix_decode afi pkt = (none, pkt) ∨
      ∃ network count left, packet_prefix_decode afi pkt = (some (network, count), left) ∧ left.unread = pkt.unread.drop count ∧
        network.valid = true ∧ network.address.afi = some afi ∧ network.normalize = network ∧
        ∃ bytes, Encodes afi network bytes ∧ Decodes afi bytes network) := by
  constructor
  · intro network valid family
    refine ⟨wire afi network,wire_encodes family valid,wire_decodes family valid,?_⟩
    rw [wire_length ((Prefix.valid_iff family).1 valid),prefix_bytes_eq]
  · intro pkt
    rw [packet_prefix_decode_eq]
    by_cases readable : ∃ prefix_length rest, pkt.unread = prefix_length :: rest ∧ prefix_length.toNat ≤ afi.max_bitlen ∧
        afi.prefix_bytes prefix_length.toNat ≤ rest.length
    · obtain ⟨prefix_length,rest,ahead,within,enough⟩ := readable
      have valid : (received afi prefix_length rest).normalize.valid = true := by
        rw [Prefix.normalize_valid]
        exact received_valid within
      have family : (received afi prefix_length rest).normalize.address.afi = some afi := Prefix.normalize_afi
      refine .inr ⟨_,_,_,prefix_decode_reads ahead within enough,Stream.skip_unread _ _,valid,family,Prefix.normalize_normalize,
        wire afi _,wire_encodes family valid,?_⟩
      have decodes := wire_decodes family valid
      rwa [Prefix.normalize_normalize] at decodes
    · refine .inl (prefix_decode_fails fun prefix_length rest ahead within => ?_)
      exact Nat.not_le.1 fun enough => readable ⟨prefix_length,rest,ahead,within,enough⟩

/-- An IPv6 prefix that ends with an octet is sent with the octet behind it. -/
theorem octet_boundary_codec :
    let network : Prefix := { address := { afi := some .ipv6, bytes := (.replicate 16 0xff) }, prefix_length := 32 }
    ∃ bytes, Encodes .ipv6 network bytes ∧ Decodes .ipv6 bytes network.normalize ∧ bytes.length = 6 :=
  (wire_codec .ipv6).1 _ (by decide) rfl

end RoundTrips

/-! ## Destinations as numbers -/

section Numbers
variable {afi : Afi} {network : Prefix} {pkt : Stream}

/-- The destination that the topology keeps for a prefix in normal form: the number that the octets of its family spell. -/
def Prefix.destination (network : Prefix) : Eigrp.Prefix where
  address := BitVec.ofNat 128 (number (network.address.bytes.toList.take (prefix_address_bytes network.address.afi)))
  prefix_length := network.prefix_length

/-- Clearing octets is clearing the low bits of the number. -/
theorem destination_normalize (family : network.address.afi = some afi) (within : network.prefix_length.toNat ≤ afi.max_bitlen) :
    network.normalize.destination =
      afi.prefix_normalize (number (network.address.bytes.toList.take afi.packet_address_bytes)) network.prefix_length := by
  have valid := (Prefix.valid_iff family).2 within
  have bytes := Prefix.packet_address_bytes_le afi
  have length (key : Prefix) : (key.address.bytes.toList.take afi.packet_address_bytes).length = afi.packet_address_bytes := by
    simp [bytes]
  have small (key : Prefix) : number (key.address.bytes.toList.take afi.packet_address_bytes) < 2 ^ (8 * afi.packet_address_bytes) := by
    have bound := number_lt (key.address.bytes.toList.take afi.packet_address_bytes)
    rwa [length,show (256 : Nat) = 2 ^ 8 by decide,← pow_mul] at bound
  rw [Prefix.max_bitlen_eq] at within
  simp only [Prefix.destination,Prefix.normalize_afi,Prefix.normalize_length,Afi.prefix_normalize,family,prefix_address_bytes,
    Prefix.max_bitlen_eq]
  congr 2
  refine Nat.eq_of_testBit_eq fun place => ?_
  rw [Nat.mul_comm,Nat.testBit_two_pow_mul]
  by_cases inside : place < 8 * afi.packet_address_bytes
  · rw [number_bit bytes inside,Prefix.normalize_bit valid]
    by_cases kept : 8 * afi.packet_address_bytes - network.prefix_length.toNat ≤ place
    · rw [decide_eq_true (by omega),decide_eq_true kept,Nat.testBit_div_two_pow,
        Nat.sub_add_cancel kept,number_bit bytes inside]
    · rw [decide_eq_false (by omega),decide_eq_false kept,Bool.false_and,Bool.false_and]
  · have high : 2 ^ (8 * afi.packet_address_bytes) ≤ 2 ^ place := Nat.pow_le_pow_right (by omega) (by omega)
    have outside : (number (network.address.bytes.toList.take afi.packet_address_bytes)).testBit place = false :=
      Nat.testBit_lt_two_pow ((small network).trans_le high)
    rw [Nat.testBit_lt_two_pow ((small network.normalize).trans_le high),Nat.testBit_div_two_pow]
    by_cases kept : 8 * afi.packet_address_bytes - network.prefix_length.toNat ≤ place
    · rw [Nat.sub_add_cancel kept,outside,Bool.and_false]
    · rw [decide_eq_false kept,Bool.false_and]

theorem take_memcpy {src : List UInt8} {size : Nat} (short : src.length ≤ size) (fits : size ≤ 16) :
    (memcpy (.replicate 16 0) src).toList.take size = src ++ List.replicate (size - src.length) 0 := by
  refine List.ext_getElem (by simp; omega) fun place inside _ => ?_
  have before : place < size := by simp at inside; omega
  have low : place < 16 := by omega
  simp only [memcpy,List.getElem_take,Vector.getElem_toList,Vector.getElem_ofFn]
  by_cases front : place < src.length
  · rw [List.getElem_append_left front]
    simp [front]
  · rw [List.getElem_append_right (by omega)]
    simp [Nat.not_lt.1 front]

/-- The decoder of the route TLVs reads the destination of the prefix that the family's decoder makes. -/
theorem packet_prefix_decode_destination :
    afi.packet_prefix_decode pkt.unread =
      match packet_prefix_decode afi pkt with
      | (some (network, _), left) => some (network.destination, left.unread)
      | (none, _) => none := by
  rw [packet_prefix_decode_eq,Afi.packet_prefix_decode]
  by_cases readable : ∃ prefix_length rest, pkt.unread = prefix_length :: rest ∧ prefix_length.toNat ≤ afi.max_bitlen ∧
      afi.prefix_bytes prefix_length.toNat ≤ rest.length
  · obtain ⟨prefix_length,rest,ahead,within,enough⟩ := readable
    have length : (rest.take (afi.prefix_bytes prefix_length.toNat)).length = afi.prefix_bytes prefix_length.toNat := by simp [enough]
    have fits := prefix_bytes_le afi within
    rw [prefix_decode_reads ahead within enough]
    simp only [ahead,Stream.skip_unread]
    rw [destination_normalize rfl within,received,take_memcpy (by rw [length]; exact fits) (Prefix.packet_address_bytes_le afi),
      number_append_zeros,length,Nat.add_comm,List.drop_succ_cons]
    simp [stream_getc,within,Lib.get,enough]
  · have fails := @prefix_decode_fails afi pkt fun prefix_length rest ahead within =>
      Nat.not_le.1 fun enough => readable ⟨prefix_length,rest,ahead,within,enough⟩
    rw [fails]
    cases ahead : pkt.unread with
    | nil => rfl
    | cons prefix_length rest =>
      by_cases within : prefix_length.toNat ≤ afi.max_bitlen
      · have short : ¬ afi.prefix_bytes prefix_length.toNat ≤ rest.length := fun enough => readable ⟨_,_,ahead,within,enough⟩
        simp [stream_getc,within,Lib.get,short]
      · simp [stream_getc,within]

end Numbers
end Eigrp.Portable
