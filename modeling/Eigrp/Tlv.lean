import Eigrp.Destination

/-!
# Route TLVs

The two route decoders (`eigrp_tlv1_decoder`, `eigrp_tlv2_decoder`) over the unread octets of a packet.
A decoder returns a route or none, with the octets that it leaves unread: it skips a TLV of a type it does
not know by its length and gives up the rest of the packet on one that is malformed.
-/

namespace Eigrp
open Eigrp.Lib

/-! ## Address families -/

def Afi.classic_internal_tlv_type : Afi → UInt16
  | .ipv4 => 0x0102
  | .ipv6 => 0x0402

def Afi.classic_external_tlv_type : Afi → UInt16
  | .ipv4 => 0x0103
  | .ipv6 => 0x0403

def Afi.multiprotocol_afi : Afi → UInt16
  | .ipv4 => 1
  | .ipv6 => 2

def Afi.max_bitlen : Afi → Nat
  | .ipv4 => 32
  | .ipv6 => 128

/-- The octets of an address that a prefix length is sent with. -/
def Afi.prefix_bytes (afi : Afi) (prefix_length : Nat) : Nat :=
  if prefix_length = 0 then 0
  else match afi with
    | .ipv4 => (prefix_length - 1) / 8 + 1
    | .ipv6 => if prefix_length = 128 then 16 else prefix_length / 8 + 1

/-- `eigrp_prefix_normalize`: the bits behind the prefix length are cleared. -/
def Afi.prefix_normalize (afi : Afi) (address : Nat) (prefix_length : UInt8) : Prefix :=
  let host := 2 ^ (afi.max_bitlen - prefix_length.toNat)
  { address := BitVec.ofNat 128 (address / host * host), prefix_length }

/-- The `packet_prefix_decode` of the family. -/
def Afi.packet_prefix_decode (afi : Afi) (pkt : List UInt8) : Option (Prefix × List UInt8) := do
  let (prefix_length, pkt) ← stream_getc pkt
  guard (prefix_length.toNat ≤ afi.max_bitlen)
  let address_length := afi.prefix_bytes prefix_length.toNat
  let (address, pkt) ← get address_length pkt
  some (afi.prefix_normalize (address * 256 ^ (afi.packet_address_bytes - address_length)) prefix_length, pkt)

/-! ## Classic TLVs -/

/-- `EIGRP_TLV_HDR_SIZE`. -/
def tlv_hdr_size : Nat := 4

/-- The type and the length that a TLV starts with. -/
def tlv_header (pkt : List UInt8) : Option (UInt16 × Nat) := do
  let (type, pkt) ← stream_getw pkt
  let (length, _) ← stream_getw pkt
  some (type, length.toNat)

/-- `eigrp_tlv1_min_length`. -/
def tlv1_min_length (afi : Afi) (external : Bool) : Nat :=
  tlv_hdr_size + afi.packet_address_bytes + 16 + 1 + (if external then 20 else 0)

/-- `eigrp_tlv1_external_decode`. -/
def tlv1_external_decode (pkt : List UInt8) : Option (ExtData × List UInt8) := do
  let (orig, pkt) ← stream_getl pkt
  let (as, pkt) ← stream_getl pkt
  let (tag, pkt) ← stream_getl pkt
  let (metric, pkt) ← stream_getl pkt
  let (reserved, pkt) ← stream_getw pkt
  let (protocol, pkt) ← stream_getc pkt
  let (flags, pkt) ← stream_getc pkt
  some ({ orig, as, tag, metric, reserved, protocol, flags }, pkt)

/-- The octets between the header of a classic route TLV and its end; destinations behind the first are dropped. -/
def tlv1_body_decode (afi : Afi) (external : Bool) (body : List UInt8) : Option Tlv := do
  let (nexthop, body) ← get afi.packet_address_bytes body
  let (extdata, body) ← if external then tlv1_external_decode body else some ({}, body)
  let (metric, body) ← tlv1_metric_decode body
  let (dest, _) ← afi.packet_prefix_decode body
  some { dest, external, nexthop := BitVec.ofNat 128 nexthop, extdata, metric }

/-- `eigrp_tlv1_decoder`. -/
def tlv1_decoder (afi : Afi) (pkt : List UInt8) : Option Tlv × List UInt8 :=
  match tlv_header pkt with
  | none => (none, [])
  | some (type, length) =>
    if type = afi.classic_internal_tlv_type ∨ type = afi.classic_external_tlv_type then
      let external := type != afi.classic_internal_tlv_type
      if length < tlv1_min_length afi external ∨ pkt.length < length then (none, [])
      else match tlv1_body_decode afi external ((pkt.take length).drop tlv_hdr_size) with
        | some route => (some route, pkt.drop length)
        | none => (none, [])
    else if tlv_hdr_size ≤ length ∧ length ≤ pkt.length then (none, pkt.drop length)
    else (none, [])

/-! ## Multiprotocol TLVs -/

def tlv_mp_int : UInt16 := 0x0602
def tlv_mp_ext : UInt16 := 0x0603

/-- `EIGRP_TLV2_INT_MIN_TLV` and `EIGRP_TLV2_EXT_MIN_TLV`. -/
def tlv2_min_length (external : Bool) : Nat := tlv_hdr_size + 8 + 24 + (if external then 16 else 0) + 1

/-- `eigrp_tlv2_external_decode`: the tag is not sent here. -/
def tlv2_external_decode (extdata : ExtData) (pkt : List UInt8) : Option (ExtData × List UInt8) := do
  let (orig, pkt) ← stream_getl pkt
  let (as, pkt) ← stream_getl pkt
  let (metric, pkt) ← stream_getl pkt
  let (reserved, pkt) ← stream_getw pkt
  let (protocol, pkt) ← stream_getc pkt
  let (flags, pkt) ← stream_getc pkt
  some ({ extdata with orig, as, metric, reserved, protocol, flags }, pkt)

/-- The extension of a multiprotocol header: address family, topology, router. -/
def tlv2_header_ext (body : List UInt8) : Option ((UInt16 × UInt16 × UInt32) × List UInt8) := do
  let (afi, body) ← stream_getw body
  let (tid, body) ← stream_getw body
  let (rid, body) ← stream_getl body
  some ((afi, tid, rid), body)

/-- The octets behind the extended header; a route without a next hop is reached through the neighbor. -/
def tlv2_body_decode (afi : Afi) (src : Address) (external : Bool) (topology_id : UInt16) (rid : UInt32) (body : List UInt8) :
    Option Tlv := do
  let (route, body) ← tlv2_metric_decode afi external { extdata := { orig := rid } } body
  let (extdata, body) ← if external then tlv2_external_decode route.extdata body else some (route.extdata, body)
  let nexthop := if route.nexthop = 0 then src else route.nexthop
  let (dest, _) ← afi.packet_prefix_decode body
  some { dest, external, nexthop, extdata, metric := route.metric, topology_id }

/-- `eigrp_tlv2_decoder`. -/
def tlv2_decoder (afi : Afi) (src : Address) (pkt : List UInt8) : Option Tlv × List UInt8 :=
  match tlv_header pkt with
  | none => (none, [])
  | some (type, length) =>
    if type = tlv_mp_int ∨ type = tlv_mp_ext then
      let external := type != tlv_mp_int
      if length < tlv2_min_length external ∨ pkt.length < length then (none, [])
      else match tlv2_header_ext ((pkt.take length).drop tlv_hdr_size) with
        | none => (none, [])
        | some ((family, tid, rid), body) =>
          if family ≠ afi.multiprotocol_afi then (none, pkt.drop length)
          else match tlv2_body_decode afi src external tid rid body with
            | some route => (some route, pkt.drop length)
            | none => (none, [])
    else if tlv_hdr_size ≤ length ∧ length ≤ pkt.length then (none, pkt.drop length)
    else (none, [])

/-! ## The decoder of a neighbor -/

/-- The codec that a neighbor's Hello selected; before the first Hello it is the safe one. -/
inductive Codec where
  | safe
  | tlv1
  | tlv2
deriving DecidableEq, Repr

/-- `nbr->decoder`, for a neighbor at the address `src`. -/
def Codec.decoder (codec : Codec) (afi : Afi) (src : Address) (pkt : List UInt8) : Option Tlv × List UInt8 :=
  match codec with
  | .safe => (none, [])
  | .tlv1 => tlv1_decoder afi pkt
  | .tlv2 => tlv2_decoder afi src pkt

theorem tlv1_decoder_consumes (afi : Afi) {pkt : List UInt8} (more : pkt ≠ []) :
    (tlv1_decoder afi pkt).2.length < pkt.length := by
  have positive : 0 < pkt.length := List.length_pos_iff.2 more
  unfold tlv1_decoder tlv1_min_length tlv_hdr_size
  grind

theorem tlv2_decoder_consumes (afi : Afi) (src : Address) {pkt : List UInt8} (more : pkt ≠ []) :
    (tlv2_decoder afi src pkt).2.length < pkt.length := by
  have positive : 0 < pkt.length := List.length_pos_iff.2 more
  unfold tlv2_decoder tlv2_min_length tlv_hdr_size
  grind

/-- Every call of a decoder consumes input: a walk over a packet ends. -/
theorem Codec.decoder_consumes (codec : Codec) (afi : Afi) (src : Address) {pkt : List UInt8} (more : pkt ≠ []) :
    (codec.decoder afi src pkt).2.length < pkt.length := by
  cases codec with
  | safe => exact List.length_pos_iff.2 more
  | tlv1 => exact tlv1_decoder_consumes afi more
  | tlv2 => exact tlv2_decoder_consumes afi src more

/-! ## Framed TLVs -/

/-- A TLV of any type, as long as its length field can say. -/
structure FramedTlv where
  type : UInt16
  body : List UInt8
  fits : tlv_hdr_size + body.length < 2 ^ 16

def FramedTlv.length (frame : FramedTlv) : Nat := tlv_hdr_size + frame.body.length

def FramedTlv.bytes (frame : FramedTlv) : List UInt8 :=
  stream_putw frame.type ++ (stream_putw (UInt16.ofNat frame.length) ++ frame.body)

/-- What a decoder makes of one TLV: a route, nothing, or nothing of this TLV and of those behind it. -/
inductive Verdict where
  | route (tlv : Tlv)
  | skip
  | abort
deriving DecidableEq, Repr

/-- A route body as the decoders take it. -/
def Verdict.of : Option Tlv → Verdict
  | some tlv => .route tlv
  | none => .abort

def tlv1_verdict (afi : Afi) (frame : FramedTlv) : Verdict :=
  if frame.type = afi.classic_internal_tlv_type ∨ frame.type = afi.classic_external_tlv_type then
    let external := frame.type != afi.classic_internal_tlv_type
    if frame.length < tlv1_min_length afi external then .abort
    else .of (tlv1_body_decode afi external frame.body)
  else .skip

def tlv2_verdict (afi : Afi) (src : Address) (frame : FramedTlv) : Verdict :=
  if frame.type = tlv_mp_int ∨ frame.type = tlv_mp_ext then
    let external := frame.type != tlv_mp_int
    if frame.length < tlv2_min_length external then .abort
    else match tlv2_header_ext frame.body with
      | none => .abort
      | some ((family, tid, rid), body) =>
        if family ≠ afi.multiprotocol_afi then .skip else .of (tlv2_body_decode afi src external tid rid body)
  else .skip

def Codec.verdict (codec : Codec) (afi : Afi) (src : Address) (frame : FramedTlv) : Verdict :=
  match codec with
  | .safe => .abort
  | .tlv1 => tlv1_verdict afi frame
  | .tlv2 => tlv2_verdict afi src frame

/-- The result of a decoder call on a TLV with this verdict, in front of `rest`. -/
def Verdict.result (rest : List UInt8) : Verdict → Option Tlv × List UInt8
  | .route tlv => (some tlv, rest)
  | .skip => (none, rest)
  | .abort => (none, [])

section Frames
variable (frame : FramedTlv) (rest : List UInt8)

theorem FramedTlv.bytes_length : frame.bytes.length = frame.length := by
  simp [FramedTlv.bytes,FramedTlv.length,stream_putw,tlv_hdr_size]
  omega

theorem FramedTlv.header : tlv_header (frame.bytes ++ rest) = some (frame.type, frame.length) := by
  have fits : frame.length < 2 ^ 16 := frame.fits
  simp [FramedTlv.bytes,tlv_header,List.append_assoc,UInt16.toNat_ofNat']
  exact fits

theorem FramedTlv.take : ((frame.bytes ++ rest).take frame.length).drop tlv_hdr_size = frame.body := by
  rw [List.take_left' frame.bytes_length]
  simp [FramedTlv.bytes,stream_putw,tlv_hdr_size,← List.append_assoc]

theorem FramedTlv.drop : (frame.bytes ++ rest).drop frame.length = rest := List.drop_left' frame.bytes_length

theorem FramedTlv.within : ¬ (frame.bytes ++ rest).length < frame.length := by simp [frame.bytes_length]

/-- A header with octets enough for its length is in front of a framed TLV. -/
theorem framed_of_header {pkt : List UInt8} {type : UInt16} {length : Nat} (header : tlv_header pkt = some (type, length))
    (long : tlv_hdr_size ≤ length) (within : length ≤ pkt.length) :
    ∃ frame : FramedTlv, frame.type = type ∧ frame.length = length ∧ frame.bytes = pkt.take length := by
  simp only [tlv_header,Option.bind_eq_bind,Option.bind_eq_some_iff] at header
  obtain ⟨⟨code,behind_type⟩,got_type,⟨word,rest⟩,got_length,same⟩ := header
  cases same
  simp only at got_length long within ⊢
  have octets := putw_getw got_type
  rw [← putw_getw got_length] at octets
  have small := word.toNat_lt
  have header_length : (stream_putw code ++ stream_putw word).length = tlv_hdr_size := by
    rw [List.length_append, stream_putw, stream_putw, put_length, put_length, tlv_hdr_size]
  rw [← List.append_assoc] at octets
  have taken : pkt.take word.toNat = (stream_putw code ++ stream_putw word) ++ rest.take (word.toNat - tlv_hdr_size) := by
    rw [← octets, List.take_append, header_length, List.take_of_length_le (by omega)]
  have size : tlv_hdr_size + (rest.take (word.toNat - tlv_hdr_size)).length = word.toNat := by
    have total := congrArg List.length taken
    rw [List.length_take, List.length_append, header_length] at total
    omega
  refine ⟨⟨code,rest.take (word.toNat - tlv_hdr_size),by omega⟩,rfl,size,?_⟩
  rw [taken, FramedTlv.bytes, FramedTlv.length]
  simp only [size,UInt16.ofNat_toNat,List.append_assoc]

theorem tlv1_decoder_frame (afi : Afi) :
    tlv1_decoder afi (frame.bytes ++ rest) = (tlv1_verdict afi frame).result rest := by
  have header : tlv_hdr_size ≤ frame.length ∧ frame.length ≤ (frame.bytes ++ rest).length :=
    ⟨by simp [FramedTlv.length],by simp [frame.bytes_length]⟩
  unfold tlv1_decoder tlv1_verdict
  simp only [frame.header,frame.take,frame.drop,frame.within,or_false,if_pos header]
  split
  · split
    · rfl
    · cases tlv1_body_decode afi _ frame.body <;> rfl
  · rfl

theorem tlv2_decoder_frame (afi : Afi) (src : Address) :
    tlv2_decoder afi src (frame.bytes ++ rest) = (tlv2_verdict afi src frame).result rest := by
  have header : tlv_hdr_size ≤ frame.length ∧ frame.length ≤ (frame.bytes ++ rest).length :=
    ⟨by simp [FramedTlv.length],by simp [frame.bytes_length]⟩
  unfold tlv2_decoder tlv2_verdict
  simp only [frame.header,frame.take,frame.drop,frame.within,or_false,if_pos header]
  split
  · split
    · rfl
    · rcases tlv2_header_ext frame.body with _ | ⟨⟨family,tid,rid⟩,body⟩
      · rfl
      · by_cases foreign : family ≠ afi.multiprotocol_afi
        · simp [foreign,Verdict.result]
        · simp only [if_neg foreign]
          cases tlv2_body_decode afi src _ tid rid body <;> rfl
  · rfl

/-- A decoder reads one framed TLV by its verdict, whatever follows it. -/
theorem Codec.decoder_frame (codec : Codec) (afi : Afi) (src : Address) :
    codec.decoder afi src (frame.bytes ++ rest) = (codec.verdict afi src frame).result rest := by
  cases codec with
  | safe => rfl
  | tlv1 => exact tlv1_decoder_frame frame rest afi
  | tlv2 => exact tlv2_decoder_frame frame rest afi src

end Frames

end Eigrp
