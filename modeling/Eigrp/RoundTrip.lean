import Eigrp.Encoders

/-!
# Round trips of route TLVs

What a decoder makes of the TLV that the encoder of its format has appended, and, for the classic format, the octets that an
encoder makes of a decoded route.
-/

namespace Eigrp
open Eigrp.Lib

/-! ## Fields -/

theorem tlv1_external_round_trip (extdata : ExtData) (rest : List UInt8) :
    tlv1_external_decode (tlv1_external_encode extdata ++ rest) = some (extdata, rest) := by
  unfold tlv1_external_decode tlv1_external_encode
  simp only [List.append_assoc]
  simp only [↓getl_bind,↓getw_bind,↓getc_bind]

theorem tlv2_external_round_trip (router_id : UInt32) (sent extdata : ExtData) (rest : List UInt8) :
    tlv2_external_decode extdata (tlv2_external_encode router_id sent ++ rest) =
      some ({ sent with orig := if sent.orig ≠ 0 then sent.orig else router_id, tag := extdata.tag }, rest) := by
  unfold tlv2_external_decode tlv2_external_encode
  simp only [List.append_assoc]
  simp only [↓getl_bind,↓getw_bind,↓getc_bind]

theorem tlv2_header_ext_round_trip (family topology_id : UInt16) (router_id : UInt32) (rest : List UInt8) :
    tlv2_header_ext (stream_putw family ++ (stream_putw topology_id ++ (stream_putl router_id ++ rest))) =
      some ((family, topology_id, router_id), rest) := by
  unfold tlv2_header_ext
  simp only [↓getl_bind,↓getw_bind]

theorem packet_address_max (afi : Afi) : 256 ^ afi.packet_address_bytes = 2 ^ afi.max_bitlen := by cases afi <;> decide

/-- The octets of a destination cover its prefix length. -/
theorem prefix_bytes_cover (afi : Afi) {prefix_length : Nat} (valid : prefix_length ≤ afi.max_bitlen) :
    prefix_length ≤ 8 * afi.prefix_bytes prefix_length := by
  cases afi <;> simp only [Afi.prefix_bytes,Afi.max_bitlen] at * <;> split_ifs <;> omega

/-- The host bits of a destination are at least the bits that it is sent without. -/
theorem host_bits (afi : Afi) {prefix_length : Nat} (valid : prefix_length ≤ afi.max_bitlen) :
    256 ^ (afi.packet_address_bytes - afi.prefix_bytes prefix_length) ∣ 2 ^ (afi.max_bitlen - prefix_length) := by
  have cover := prefix_bytes_cover afi valid
  have bits : 8 * afi.packet_address_bytes = afi.max_bitlen := by cases afi <;> rfl
  rw [show (256 : Nat) = 2 ^ 8 by decide, ← pow_mul]
  exact pow_dvd_pow 2 (by omega)

/-- The destination of a route is a prefix of the family. -/
structure Route.DestValid (route : Route) (afi : Afi) : Prop where
  family : route.dest_afi = afi
  length : route.dest.prefix_length.toNat ≤ afi.max_bitlen
  address : route.dest.address.toNat < 2 ^ afi.max_bitlen

/-- The next hop of a route is an address of the family. -/
structure Route.NexthopValid (route : Route) (afi : Afi) : Prop where
  family : route.nexthop_afi = none ∨ route.nexthop_afi = some afi
  address : route.nexthop.toNat < 2 ^ afi.max_bitlen

def Route.normalized (route : Route) (afi : Afi) : Prefix := afi.prefix_normalize route.dest.address.toNat route.dest.prefix_length

theorem normalized_toNat {route : Route} {afi : Afi} (valid : route.DestValid afi) :
    (route.normalized afi).address.toNat =
      route.dest.address.toNat / 2 ^ (afi.max_bitlen - route.dest.prefix_length.toNat) *
        2 ^ (afi.max_bitlen - route.dest.prefix_length.toNat) := by
  have bits : 2 ^ afi.max_bitlen ≤ 2 ^ 128 := Nat.pow_le_pow_right (by omega) (by cases afi <;> decide)
  have below := Nat.div_mul_le_self route.dest.address.toNat (2 ^ (afi.max_bitlen - route.dest.prefix_length.toNat))
  have address := valid.address
  simp only [Route.normalized,Afi.prefix_normalize,BitVec.toNat_ofNat]
  exact Nat.mod_eq_of_lt (by omega)

theorem packet_prefix_round_trip {route : Route} {afi : Afi} (valid : route.DestValid afi) :
    ∃ dest, afi.packet_prefix_encode route = some dest ∧ dest.length = 1 + afi.prefix_bytes route.dest.prefix_length.toNat ∧
      ∀ rest, afi.packet_prefix_decode (dest ++ rest) = some (route.normalized afi, rest) := by
  have same := normalized_toNat valid
  have address := valid.address
  have divides := host_bits afi valid.length
  have bytes := prefix_bytes_le afi valid.length
  refine ⟨_,by rw [Afi.packet_prefix_encode, if_pos ⟨valid.family,valid.length⟩],?_,?_⟩
  · simp [stream_putc,Afi.prefix_normalize,Nat.add_comm]
  · intro rest
    change afi.packet_prefix_decode (stream_putc route.dest.prefix_length ++ put (afi.prefix_bytes route.dest.prefix_length.toNat)
      ((route.normalized afi).address.toNat / 256 ^ (afi.packet_address_bytes - afi.prefix_bytes route.dest.prefix_length.toNat)) ++ rest) = _
    rw [same]
    generalize sent : route.dest.address.toNat / 2 ^ (afi.max_bitlen - route.dest.prefix_length.toNat) *
      2 ^ (afi.max_bitlen - route.dest.prefix_length.toNat) = number
    have below : number < 256 ^ afi.packet_address_bytes := by
      rw [packet_address_max, ← sent]
      exact lt_of_le_of_lt (Nat.div_mul_le_self _ _) address
    have multiple : 256 ^ (afi.packet_address_bytes - afi.prefix_bytes route.dest.prefix_length.toNat) ∣ number :=
      divides.trans (by rw [← sent]; exact Nat.dvd_mul_left _ _)
    have whole : 256 ^ afi.packet_address_bytes = 256 ^ (afi.packet_address_bytes - afi.prefix_bytes route.dest.prefix_length.toNat) *
        256 ^ afi.prefix_bytes route.dest.prefix_length.toNat := by
      rw [← pow_add]
      congr 1
      omega
    have fits : number / 256 ^ (afi.packet_address_bytes - afi.prefix_bytes route.dest.prefix_length.toNat) <
        256 ^ afi.prefix_bytes route.dest.prefix_length.toNat := Nat.div_lt_of_lt_mul (by rw [← whole]; exact below)
    unfold Afi.packet_prefix_decode
    rw [List.append_assoc, getc_bind]
    simp only [guard,if_pos valid.length,Option.pure_def,Option.bind_eq_bind,Option.bind_some,get_put,Nat.mod_eq_of_lt fits,
      Nat.div_mul_cancel multiple,Option.some.injEq,Prod.mk.injEq,and_true]
    rw [← sent, Route.normalized]
    simp only [Afi.prefix_normalize]
    rw [Nat.mul_div_cancel _ (by positivity)]

/-- The octets of a next hop hold as many bits of it as the family has. -/
theorem packet_address_round_trip {route : Route} {afi : Afi} {nexthop : List UInt8}
    (encoded : afi.packet_address_encode route = some nexthop) (rest : List UInt8) :
    get afi.packet_address_bytes (nexthop ++ rest) = some (route.nexthop.toNat % 2 ^ afi.max_bitlen, rest) := by
  unfold Afi.packet_address_encode at encoded
  split at encoded
  · cases encoded
    rw [get_put, packet_address_max]
  · cases encoded

theorem Route.NexthopValid.encodes {route : Route} {afi : Afi} (valid : route.NexthopValid afi) :
    ∃ nexthop, afi.packet_address_encode route = some nexthop := ⟨_,by rw [Afi.packet_address_encode, if_pos valid.family]⟩

/-! ## TLVs -/

/-- What the classic decoder makes of the TLV of a route. -/
def Route.tlv1_arrived (route : Route) (afi : Afi) (external : Bool) : Tlv where
  dest := route.normalized afi
  external := external
  nexthop := BitVec.ofNat 128 (route.nexthop.toNat % 2 ^ afi.max_bitlen)
  extdata := if external then route.extdata else {}
  metric := arrived .tlv1 route.metric

/-- What the wide decoder of a neighbor at the address `src` makes of the TLV of a route. -/
def Route.tlv2_arrived (route : Route) (afi : Afi) (src : Address) (router_id : UInt32) (external : Bool) : Tlv :=
  let sent : TlvRoute := { metric := route.metric, nexthop := route.nexthop, extdata := route.extdata }
  let got := extended_arrived afi router_id sent { extdata := { orig := router_id }, metric := arrived .tlv2 route.metric } external
  { dest := route.normalized afi
    external := external
    nexthop := if got.nexthop = 0 then src else got.nexthop
    extdata := if external
      then { route.extdata with orig := if route.extdata.orig ≠ 0 then route.extdata.orig else router_id, tag := got.extdata.tag }
      else got.extdata
    metric := got.metric
    topology_id := route.topology_id }

theorem tlv1_type_iff {route : Route} {afi : Afi} {type : UInt16} (typed : route.tlv1_type afi = some type) :
    (type = afi.classic_internal_tlv_type ∨ type = afi.classic_external_tlv_type) ∧
      (type != afi.classic_internal_tlv_type) = decide (type = afi.classic_external_tlv_type) := by
  unfold Route.tlv1_type at typed
  split_ifs at typed <;> cases typed <;> cases afi <;> decide

theorem tlv2_type_iff {route : Route} {afi : Afi} {type : UInt16} (typed : route.tlv2_type afi = some type) :
    (type = tlv_mp_int ∨ type = tlv_mp_ext) ∧ (type != tlv_mp_int) = decide (type = tlv_mp_ext) := by
  unfold Route.tlv2_type at typed
  split_ifs at typed <;> cases typed <;> decide

theorem tlv1_frame_verdict {route : Route} {afi : Afi} {frame : FramedTlv} (encodes : route.Tlv1Frame afi frame)
    (dest_valid : route.DestValid afi) :
    tlv1_verdict afi frame = .route (route.tlv1_arrived afi (decide (frame.type = afi.classic_external_tlv_type))) := by
  obtain ⟨known,class_eq⟩ := tlv1_type_iff encodes.typed
  obtain ⟨nexthop,dest,addressed,encoded,body⟩ := encodes.body
  have nexthop_length := packet_address_encode_length addressed
  have nexthop_read := packet_address_round_trip addressed
  obtain ⟨_,same_dest,dest_length,dest_read⟩ := packet_prefix_round_trip dest_valid
  cases encoded.symm.trans same_dest
  have read := dest_read []
  rw [List.append_nil] at read
  have metric_length := tlv1_metric_encode_length route.metric
  have extdata_length := tlv1_external_encode_length route.extdata
  unfold tlv1_verdict
  rw [if_pos known, class_eq]
  by_cases external : frame.type = afi.classic_external_tlv_type
  · have long : ¬ frame.length < tlv1_min_length afi true := by
      rw [FramedTlv.length, body, Route.tlv1_body, if_pos external]
      simp only [List.length_append,tlv1_min_length,if_true]
      omega
    simp only [external,decide_true]
    rw [if_neg long, body, Route.tlv1_body, if_pos external]
    simp only [tlv1_body_decode,nexthop_read,tlv1_external_round_trip,tlv1_metric_roundtrip,read,Option.bind_eq_bind,Option.bind_some,
      if_true,Verdict.of,Route.tlv1_arrived]
  · have long : ¬ frame.length < tlv1_min_length afi false := by
      rw [FramedTlv.length, body, Route.tlv1_body, if_neg external]
      simp only [List.length_append,tlv1_min_length,Bool.false_eq_true,if_false,List.length_nil]
      omega
    simp only [external,decide_false]
    rw [if_neg long, body, Route.tlv1_body, if_neg external]
    simp only [tlv1_body_decode,nexthop_read,tlv1_metric_roundtrip,read,Option.bind_eq_bind,Option.bind_some,List.nil_append,
      Bool.false_eq_true,if_false,Verdict.of,Route.tlv1_arrived]

theorem tlv2_frame_verdict {route : Route} {afi : Afi} {router_id : UInt32} {frame : FramedTlv}
    (encodes : route.Tlv2Frame afi router_id frame) (dest_valid : route.DestValid afi) (src : Address) :
    tlv2_verdict afi src frame = .route (route.tlv2_arrived afi src router_id (decide (frame.type = tlv_mp_ext))) := by
  obtain ⟨known,class_eq⟩ := tlv2_type_iff encodes.typed
  obtain ⟨dest,encoded,body⟩ := encodes.body
  obtain ⟨_,same_dest,dest_length,dest_read⟩ := packet_prefix_round_trip dest_valid
  cases encoded.symm.trans same_dest
  have read := dest_read []
  rw [List.append_nil] at read
  have metric_length := tlv2_metric_encode_length afi router_id
    { metric := route.metric, nexthop := route.nexthop, extdata := route.extdata } (frame.type == tlv_mp_ext)
  have extdata_length := tlv2_external_encode_length router_id route.extdata
  unfold tlv2_verdict
  rw [if_pos known, class_eq]
  by_cases external : frame.type = tlv_mp_ext
  · have long : ¬ frame.length < tlv2_min_length true := by
      rw [FramedTlv.length, body, Route.tlv2_body, if_pos external]
      simp only [List.length_append,tlv2_min_length,stream_putw,stream_putl,put_length,if_true]
      omega
    simp only [external,decide_true]
    rw [if_neg long, body, Route.tlv2_body, tlv2_header_ext_round_trip, if_pos external]
    simp only [tlv2_body_decode,external,beq_self_eq_true,tlv2_metric_roundtrip,tlv2_external_round_trip,read,Option.bind_eq_bind,
      Option.bind_some,if_true,Verdict.of,Route.tlv2_arrived]
    simp
  · have long : ¬ frame.length < tlv2_min_length false := by
      rw [FramedTlv.length, body, Route.tlv2_body, if_neg external]
      simp only [List.length_append,tlv2_min_length,stream_putw,stream_putl,put_length,Bool.false_eq_true,if_false,List.length_nil]
      omega
    simp only [external,decide_false]
    rw [if_neg long, body, Route.tlv2_body, tlv2_header_ext_round_trip, if_neg external]
    simp only [tlv2_body_decode,beq_eq_false_iff_ne.2 external,tlv2_metric_roundtrip,read,Option.bind_eq_bind,Option.bind_some,
      List.nil_append,Bool.false_eq_true,if_false,Verdict.of,Route.tlv2_arrived]
    simp

/-! ## Streams -/

namespace Stream

/-- A decoder call on a stream at a framed TLV with a route. -/
theorem Refines.frame {received : Stream} {result : Option Tlv × Stream} {n : Nat} {frame : FramedTlv} {rest : List UInt8} {got : Tlv}
    (refines : Refines true received result (some got, rest) n) (unread : received.unread = frame.bytes ++ rest) :
    result.1 = some got ∧ result.2.getp = received.getp + frame.length := by
  have ordered := received.ordered
  have total := congrArg List.length unread
  have behind : rest.length = (received.unread.drop n).length := congrArg List.length (refines.rest rfl)
  rw [List.length_drop] at behind
  rw [unread_length, List.length_append, frame.bytes_length] at total
  rw [unread_length] at behind
  refine ⟨refines.route,?_⟩
  rw [refines.stream, skip, set_getp_getp]
  omega

theorem tlv1_decoder_at {afi : Afi} {received : Stream} {frame : FramedTlv} {rest : List UInt8} {got : Tlv}
    (unread : received.unread = frame.bytes ++ rest) (verdict : tlv1_verdict afi frame = .route got) :
    (received.tlv1_decoder afi true).1 = some got ∧ (received.tlv1_decoder afi true).2.getp = received.getp + frame.length := by
  obtain ⟨n,refines⟩ := received.tlv1_decoder_refines afi true
  rw [unread, tlv1_decoder_frame, verdict, Verdict.result] at refines
  exact refines.frame unread

theorem tlv2_decoder_at {afi : Afi} {src : Address} {received : Stream} {frame : FramedTlv} {rest : List UInt8} {got : Tlv}
    (unread : received.unread = frame.bytes ++ rest) (verdict : tlv2_verdict afi src frame = .route got) :
    (received.tlv2_decoder afi src true).1 = some got ∧ (received.tlv2_decoder afi src true).2.getp = received.getp + frame.length := by
  obtain ⟨n,refines⟩ := received.tlv2_decoder_refines afi src true
  rw [unread, tlv2_decoder_frame, verdict, Verdict.result] at refines
  exact refines.frame unread

end Stream

/-- A TLV stands behind the content of a packet. Its length is what the encoder has returned and what its header says; a decoder
    makes the route of it, in this packet and in any other, and reads to its end. -/
structure Codes (decoder : Stream → Option Tlv × Stream) (pkt : Stream) (length : UInt16) (behind : Stream) (got : Tlv) : Prop where
  sent : length ≠ 0
  appended : ∃ tlv type, behind.content = pkt.content ++ tlv ∧ tlv.length = length.toNat ∧
    tlv_header tlv = some (type, length.toNat) ∧ ∀ received rest, received.unread = tlv ++ rest →
      (decoder received).1 = some got ∧ (decoder received).2.getp = received.getp + length.toNat
  decoded : (decoder (behind.set_getp pkt.endp)).1 = some got
  consumed : (decoder (behind.set_getp pkt.endp)).2.getp = behind.endp

theorem codes_of_frame {decoder : Stream → Option Tlv × Stream} {pkt behind : Stream} {frame : FramedTlv} {length : UInt16} {got : Tlv}
    (counted : length = UInt16.ofNat frame.length) (extended : pkt.Extends frame.bytes behind)
    (decodes : ∀ (received : Stream) (rest : List UInt8), received.unread = frame.bytes ++ rest →
      (decoder received).1 = some got ∧ (decoder received).2.getp = received.getp + frame.length) :
    Codes decoder pkt length behind got := by
  obtain ⟨nonzero,size⟩ := frame.length_ne_zero
  rw [← counted] at nonzero size
  have endp := extended.endp
  rw [frame.bytes_length] at endp
  have unread : (behind.set_getp pkt.endp).unread = frame.bytes ++ [] := by
    have content := extended.content
    rw [Stream.content] at content
    rw [Stream.unread_set_getp, content, List.drop_left' pkt.content_length, List.append_nil]
  have getp : (behind.set_getp pkt.endp).getp = pkt.endp := by
    rw [Stream.set_getp_getp]
    omega
  obtain ⟨decoded,consumed⟩ := decodes _ _ unread
  refine ⟨nonzero,⟨frame.bytes,frame.type,extended.content,by rw [frame.bytes_length, size],?_,?_⟩,decoded,by rw [consumed, getp, endp]⟩
  · have header := frame.header []
    rw [List.append_nil] at header
    rw [header, size]
  · intro received rest begins
    rw [size]
    exact decodes received rest begins

/-! ## Octets of a decoded route -/

theorem tlv1_external_octets {bytes rest : List UInt8} {extdata : ExtData} (read : tlv1_external_decode bytes = some (extdata, rest)) :
    tlv1_external_encode extdata ++ rest = bytes := by
  unfold tlv1_external_decode at read
  obtain ⟨⟨orig,b1⟩,orig_read,read⟩ := Option.bind_eq_some_iff.1 read
  obtain ⟨⟨as,b2⟩,as_read,read⟩ := Option.bind_eq_some_iff.1 read
  obtain ⟨⟨tag,b3⟩,tag_read,read⟩ := Option.bind_eq_some_iff.1 read
  obtain ⟨⟨metric,b4⟩,metric_read,read⟩ := Option.bind_eq_some_iff.1 read
  obtain ⟨⟨reserved,b5⟩,reserved_read,read⟩ := Option.bind_eq_some_iff.1 read
  obtain ⟨⟨protocol,b6⟩,protocol_read,read⟩ := Option.bind_eq_some_iff.1 read
  obtain ⟨⟨flags,b7⟩,flags_read,read⟩ := Option.bind_eq_some_iff.1 read
  cases read
  simp only [tlv1_external_encode,List.append_assoc]
  rw [putc_getc flags_read, putc_getc protocol_read, putw_getw reserved_read, putl_getl metric_read, putl_getl tag_read,
    putl_getl as_read, putl_getl orig_read]

/-- A scaled delay that is a multiple of the scale comes back. -/
theorem delay_to_scaled_to_delay {scaled : UInt32} (positive : 0 < scaled.toNat) (multiple : scaled.toNat % 256 = 0) :
    delay_to_scaled (scaled_to_delay scaled) = scaled := by
  have bound := scaled.toNat_lt
  apply UInt32.toNat_inj.1
  rw [delay_to_scaled_toNat, scaled_to_delay_toNat]
  omega

theorem tlv1_metric_octets {bytes rest : List UInt8} {metric : Metrics} (read : tlv1_metric_decode bytes = some (metric, rest))
    (positive : 0 < number (bytes.take 4)) (multiple : number (bytes.take 4) % 256 = 0) :
    tlv1_metric_encode metric ++ rest = bytes := by
  unfold tlv1_metric_decode at read
  obtain ⟨⟨delay,b1⟩,delay_read,read⟩ := Option.bind_eq_some_iff.1 read
  obtain ⟨⟨bandwidth,b2⟩,bandwidth_read,read⟩ := Option.bind_eq_some_iff.1 read
  obtain ⟨⟨m2,b3⟩,m2_read,read⟩ := Option.bind_eq_some_iff.1 read
  obtain ⟨⟨m1,b4⟩,m1_read,read⟩ := Option.bind_eq_some_iff.1 read
  obtain ⟨⟨m0,b5⟩,m0_read,read⟩ := Option.bind_eq_some_iff.1 read
  obtain ⟨⟨hop_count,b6⟩,hop_count_read,read⟩ := Option.bind_eq_some_iff.1 read
  obtain ⟨⟨reliability,b7⟩,reliability_read,read⟩ := Option.bind_eq_some_iff.1 read
  obtain ⟨⟨load,b8⟩,load_read,read⟩ := Option.bind_eq_some_iff.1 read
  obtain ⟨⟨tag,b9⟩,tag_read,read⟩ := Option.bind_eq_some_iff.1 read
  obtain ⟨⟨flags,b10⟩,flags_read,read⟩ := Option.bind_eq_some_iff.1 read
  cases read
  have field : delay.toNat = number (bytes.take 4) := by
    have begins := putl_getl delay_read
    have bound := delay.toNat_lt
    rw [← begins, List.take_left' (by rw [stream_putl, put_length]), stream_putl, number_put,
      Nat.mod_eq_of_lt (show delay.toNat < 256 ^ 4 by omega)]
  rw [← field] at positive multiple
  simp only [tlv1_metric_encode,List.append_assoc,delay_to_scaled_to_delay positive multiple,UInt32.toUInt32_toUInt64]
  rw [putc_getc flags_read, putc_getc tag_read, putc_getc load_read, putc_getc reliability_read, putc_getc hop_count_read,
    putc_getc m0_read, putc_getc m1_read, putc_getc m2_read, putl_getl bandwidth_read, putl_getl delay_read]

/-- The descriptor that a decoder returns for a route. -/
def Tlv.descriptor (tlv : Tlv) (afi : Afi) : Route where
  type := if tlv.external then afi.classic_external_tlv_type else afi.classic_internal_tlv_type
  topology_id := tlv.topology_id
  dest_afi := afi
  dest := tlv.dest
  nexthop_afi := some afi
  nexthop := tlv.nexthop
  metric := tlv.metric
  extdata := tlv.extdata

/-- A classic TLV with one destination, no bits set behind its prefix length, and a delay that is a positive multiple of 256. -/
structure FramedTlv.Plain (frame : FramedTlv) (afi : Afi) (tlv : Tlv) : Prop where
  single : frame.length = tlv1_min_length afi tlv.external + afi.prefix_bytes tlv.dest.prefix_length.toNat
  positive : 0 < number ((frame.body.drop (afi.packet_address_bytes + if tlv.external then 20 else 0)).take 4)
  multiple : number ((frame.body.drop (afi.packet_address_bytes + if tlv.external then 20 else 0)).take 4) % 256 = 0
  host : 2 ^ (afi.max_bitlen - tlv.dest.prefix_length.toNat) ∣
    number (frame.body.drop (frame.body.length - afi.prefix_bytes tlv.dest.prefix_length.toNat)) *
      256 ^ (afi.packet_address_bytes - afi.prefix_bytes tlv.dest.prefix_length.toNat)

theorem packet_prefix_octets {afi : Afi} {bytes rest : List UInt8} {tlv : Tlv}
    (read : afi.packet_prefix_decode bytes = some (tlv.dest, rest))
    (single : bytes.length = 1 + afi.prefix_bytes tlv.dest.prefix_length.toNat)
    (host : 2 ^ (afi.max_bitlen - tlv.dest.prefix_length.toNat) ∣
      number (bytes.drop (bytes.length - afi.prefix_bytes tlv.dest.prefix_length.toNat)) *
        256 ^ (afi.packet_address_bytes - afi.prefix_bytes tlv.dest.prefix_length.toNat)) :
    afi.packet_prefix_encode (tlv.descriptor afi) = some bytes := by
  unfold Afi.packet_prefix_decode at read
  obtain ⟨⟨prefix_length,b1⟩,length_read,read⟩ := Option.bind_eq_some_iff.1 read
  obtain ⟨_,valid,read⟩ := Option.bind_eq_some_iff.1 read
  have valid : prefix_length.toNat ≤ afi.max_bitlen := by
    by_contra invalid
    simp [guard,invalid] at valid
  obtain ⟨⟨address,b2⟩,address_read,read⟩ := Option.bind_eq_some_iff.1 read
  obtain ⟨same,rfl⟩ := Prod.mk.inj (Option.some.inj read)
  have same_length : tlv.dest.prefix_length = prefix_length := by rw [← same]; rfl
  have begins := putc_getc length_read
  obtain ⟨octets,fits⟩ := put_get address_read
  rw [same_length] at single host
  have ended : b2 = [] := by
    rw [← begins, List.length_append, ← octets, List.length_append, put_length] at single
    simp only [stream_putc,List.length_singleton] at single
    exact List.eq_nil_of_length_eq_zero (by omega)
  subst ended
  rw [List.append_nil] at octets
  have behind : bytes.drop (bytes.length - afi.prefix_bytes prefix_length.toNat) = b1 := by
    rw [single, Nat.add_sub_cancel, ← begins]
    rfl
  have covered := prefix_bytes_le afi valid
  rw [behind, ← octets, number_put, Nat.mod_eq_of_lt fits] at host
  have below : address * 256 ^ (afi.packet_address_bytes - afi.prefix_bytes prefix_length.toNat) < 2 ^ afi.max_bitlen := by
    have split : 256 ^ afi.packet_address_bytes = 256 ^ afi.prefix_bytes prefix_length.toNat *
        256 ^ (afi.packet_address_bytes - afi.prefix_bytes prefix_length.toNat) := by
      rw [← pow_add]
      congr 1
      omega
    rw [← packet_address_max, split]
    exact Nat.mul_lt_mul_of_pos_right fits (by positivity)
  have wide : 2 ^ afi.max_bitlen ≤ 2 ^ 128 := Nat.pow_le_pow_right (by omega) (by cases afi <;> decide)
  have number_eq : tlv.dest.address.toNat = address * 256 ^ (afi.packet_address_bytes - afi.prefix_bytes prefix_length.toNat) := by
    rw [← same]
    simp only [Afi.prefix_normalize,BitVec.toNat_ofNat]
    rw [Nat.div_mul_cancel host, Nat.mod_eq_of_lt (by omega)]
  have dest_valid : (tlv.descriptor afi).DestValid afi :=
    ⟨rfl,by rw [Tlv.descriptor, same_length]; exact valid,by rw [Tlv.descriptor, number_eq]; exact below⟩
  have kept : (afi.prefix_normalize (tlv.descriptor afi).dest.address.toNat (tlv.descriptor afi).dest.prefix_length).address.toNat =
      address * 256 ^ (afi.packet_address_bytes - afi.prefix_bytes prefix_length.toNat) := by
    have normalized := normalized_toNat dest_valid
    rw [show (tlv.descriptor afi).dest = tlv.dest from rfl, same_length, number_eq, Nat.div_mul_cancel host] at normalized
    exact normalized
  rw [Afi.packet_prefix_encode, if_pos ⟨dest_valid.family,dest_valid.length⟩]
  simp only [kept]
  have cut : (afi.prefix_normalize (tlv.descriptor afi).dest.address.toNat (tlv.descriptor afi).dest.prefix_length).prefix_length =
      prefix_length := same_length
  rw [cut, Nat.mul_div_cancel _ (by positivity), octets, begins]

/-- The octets of the external data, none for an internal route. -/
theorem tlv1_extdata_octets {external : Bool} {bytes rest : List UInt8} {extdata : ExtData}
    (read : Stream.tlv1_extdata_reader external bytes = some (extdata, rest)) :
    (if external then tlv1_external_encode extdata else []) ++ rest = bytes ∧ rest = bytes.drop (if external then 20 else 0) := by
  cases external with
  | false =>
    cases read
    exact ⟨rfl,rfl⟩
  | true =>
    have octets := tlv1_external_octets read
    simp only [if_true]
    rw [← octets, List.drop_left' (tlv1_external_encode_length extdata)]
    exact ⟨rfl,rfl⟩

/-- A decoded body is the next hop, the external data and the vector of its route in front of a destination. -/
theorem tlv1_body_octets {afi : Afi} {external : Bool} {body : List UInt8} {tlv : Tlv}
    (decoded : tlv1_body_decode afi external body = some tlv)
    (positive : 0 < number ((body.drop (afi.packet_address_bytes + if external then 20 else 0)).take 4))
    (multiple : number ((body.drop (afi.packet_address_bytes + if external then 20 else 0)).take 4) % 256 = 0) :
    tlv.external = external ∧ ∃ dest rest, afi.packet_prefix_decode dest = some (tlv.dest, rest) ∧
      body = put afi.packet_address_bytes tlv.nexthop.toNat ++ ((if external then tlv1_external_encode tlv.extdata else []) ++
        (tlv1_metric_encode tlv.metric ++ dest)) := by
  rw [← Stream.tlv1_reader_route] at decoded
  obtain ⟨read,reads,same⟩ := Option.map_eq_some_iff.1 decoded
  obtain ⟨⟨nexthop,b1⟩,nexthop_read,reads⟩ := Option.bind_eq_some_iff.1 reads
  obtain ⟨⟨extdata,b2⟩,extdata_read,reads⟩ := Option.bind_eq_some_iff.1 reads
  obtain ⟨⟨metric,b3⟩,metric_read,reads⟩ := Option.bind_eq_some_iff.1 reads
  obtain ⟨⟨⟨dest,_⟩,b4⟩,dest_read,reads⟩ := Option.bind_eq_some_iff.1 reads
  cases reads
  cases same
  obtain ⟨nexthop_octets,nexthop_fits⟩ := put_get nexthop_read
  obtain ⟨extdata_octets,behind_extdata⟩ := tlv1_extdata_octets extdata_read
  obtain ⟨⟨_,_⟩,prefix_read,prefix_same⟩ := Option.map_eq_some_iff.1 dest_read
  cases prefix_same
  have behind : body.drop (afi.packet_address_bytes + if external then 20 else 0) = b2 := by
    rw [← List.drop_drop, ← nexthop_octets, List.drop_left' (put_length _ _)]
    exact behind_extdata.symm
  rw [behind] at positive multiple
  have metric_octets := tlv1_metric_octets metric_read positive multiple
  have small : nexthop < 2 ^ 128 := by
    rw [packet_address_max] at nexthop_fits
    exact lt_of_lt_of_le nexthop_fits (Nat.pow_le_pow_right (by omega) (by cases afi <;> decide))
  refine ⟨rfl,b3,b4,prefix_read,?_⟩
  simp only [BitVec.toNat_ofNat]
  rw [Nat.mod_eq_of_lt small, metric_octets, extdata_octets, nexthop_octets]

theorem descriptor_type (tlv : Tlv) (afi : Afi) : (tlv.descriptor afi).tlv1_type afi =
    some (if tlv.external then afi.classic_external_tlv_type else afi.classic_internal_tlv_type) := by
  cases external : tlv.external <;> cases afi <;> simp [Route.tlv1_type,Tlv.descriptor,external] <;> decide

/-- The octets of an accepted TLV are what the encoder makes of its route. -/
theorem tlv1_frame_of_verdict {afi : Afi} {frame : FramedTlv} {tlv : Tlv} (accepted : tlv1_verdict afi frame = .route tlv)
    (plain : frame.Plain afi tlv) : (tlv.descriptor afi).Tlv1Frame afi frame := by
  simp only [tlv1_verdict] at accepted
  split_ifs at accepted with known
  cases decoded : tlv1_body_decode afi (frame.type != afi.classic_internal_tlv_type) frame.body with
  | none =>
    rw [decoded] at accepted
    cases accepted
  | some route =>
    rw [decoded] at accepted
    cases accepted
    obtain ⟨single,positive,multiple,host⟩ := plain
    have class_eq : tlv.external = (frame.type != afi.classic_internal_tlv_type) := by
      rw [← Stream.tlv1_reader_route] at decoded
      obtain ⟨read,reads,same⟩ := Option.map_eq_some_iff.1 decoded
      rw [← same]
      exact Stream.tlv1_reader_external reads
    rw [class_eq] at positive multiple single
    obtain ⟨_,dest,rest,dest_read,body⟩ := tlv1_body_octets decoded positive multiple
    have different : ¬ afi.classic_external_tlv_type = afi.classic_internal_tlv_type := by cases afi <;> decide
    have type_eq : frame.type = if tlv.external then afi.classic_external_tlv_type else afi.classic_internal_tlv_type := by
      rw [class_eq]
      rcases known with internal | external
      · simp [internal]
      · simp [external,different]
    have size := congrArg List.length body
    have metric_length := tlv1_metric_encode_length tlv.metric
    have extdata_length := tlv1_external_encode_length tlv.extdata
    have dest_size : dest.length = 1 + afi.prefix_bytes tlv.dest.prefix_length.toNat := by
      simp only [FramedTlv.length,tlv1_min_length] at single
      simp only [List.length_append,put_length] at size
      by_cases external : (frame.type != afi.classic_internal_tlv_type) = true
      · rw [if_pos external] at single size
        omega
      · rw [if_neg external] at single size
        rw [List.length_nil] at size
        omega
    have behind : frame.body.drop (frame.body.length - afi.prefix_bytes tlv.dest.prefix_length.toNat) =
        dest.drop (dest.length - afi.prefix_bytes tlv.dest.prefix_length.toNat) := by
      rw [← List.append_assoc, ← List.append_assoc] at body
      have length := congrArg List.length body
      rw [List.length_append] at length
      rw [length, body, Nat.add_sub_assoc (by omega), List.drop_length_add_append]
    rw [behind] at host
    refine ⟨?_,put afi.packet_address_bytes tlv.nexthop.toNat,dest,?_,packet_prefix_octets dest_read dest_size host,?_⟩
    · rw [descriptor_type, type_eq]
    · simp [Afi.packet_address_encode,Tlv.descriptor]
    · have external : frame.type = afi.classic_external_tlv_type ↔ tlv.external = true := by
        rw [type_eq]
        cases tlv.external <;> simp [Ne.symm different]
      rw [body, Route.tlv1_body, ← class_eq]
      simp only [external,Tlv.descriptor]

/-- A route has one classic TLV. -/
theorem Route.Tlv1Frame.unique {route : Route} {afi : Afi} {frame other : FramedTlv} (encodes : route.Tlv1Frame afi frame)
    (also : route.Tlv1Frame afi other) : frame = other := by
  obtain ⟨typed,nexthop,dest,addressed,encoded,body⟩ := encodes
  obtain ⟨typed',nexthop',dest',addressed',encoded',body'⟩ := also
  have type := Option.some.inj (typed.symm.trans typed')
  cases addressed.symm.trans addressed'
  cases encoded.symm.trans encoded'
  rw [type, ← body'] at body
  cases frame
  cases other
  cases type
  cases body
  rfl

/-! ## Round trips -/

/-- The outbound filter takes the route for denied. -/
def Outlet.Denied (outlet : Outlet) (route : Route) : Prop := outlet.ei ∧ outlet.filter_prefix_update route.dest

theorem filtered_of_permitted {outlet : Outlet} {route : Route} (permitted : ¬ outlet.Denied route) : route.filtered outlet = route := by
  unfold Route.filtered
  exact if_neg permitted

/-- A route that a classic TLV can hold. -/
structure Route.Tlv1Valid (route : Route) (afi : Afi) : Prop where
  typed : (route.tlv1_type afi).isSome
  dest : route.DestValid afi
  nexthop : route.NexthopValid afi
  delay : 0 < route.metric.delay.toNat ∧ route.metric.delay.toNat * 256 < 2 ^ 32
  bandwidth : route.metric.bandwidth.toNat < 2 ^ 32

theorem arrived_tlv1 {metric : Metrics} (delay : 0 < metric.delay.toNat ∧ metric.delay.toNat * 256 < 2 ^ 32)
    (bandwidth : metric.bandwidth.toNat < 2 ^ 32) : arrived .tlv1 metric = metric := by
  have same_delay : scaled_to_delay (delay_to_scaled metric.delay) = metric.delay := by
    apply UInt64.toNat_inj.1
    rw [tlv1_delay_toNat]
    omega
  have same_bandwidth : metric.bandwidth.toUInt32.toUInt64 = metric.bandwidth := by
    apply UInt64.toNat_inj.1
    rw [UInt32.toNat_toUInt64, UInt64.toNat_toUInt32]
    omega
  simp only [arrived,same_delay,same_bandwidth]

theorem arrived_tlv2 {metric : Metrics} (delay : metric.delay.toNat < 2 ^ 48 - 1) (bandwidth : metric.bandwidth.toNat < 2 ^ 48 - 1) :
    arrived .tlv2 metric = metric := by
  have same {component : UInt64} (small : component.toNat < 2 ^ 48 - 1) : field48 component = component := by
    apply UInt64.toNat_inj.1
    rw [field48_toNat]
    split <;> omega
  simp only [arrived,same delay,same bandwidth]

/-- What a classic TLV keeps of a route: all but the external data of an internal one. -/
structure Route.Tlv1Kept (route : Route) (afi : Afi) (got : Tlv) : Prop where
  dest : got.dest = route.normalized afi
  external : got.external = true ↔ route.tlv1_type afi = some afi.classic_external_tlv_type
  nexthop : got.nexthop = route.nexthop
  extdata : got.extdata = if got.external then route.extdata else {}
  metric : got.metric = route.metric

/-- Both ways around the classic format. A route that fits it is decoded as it was encoded, external data being part of an
    external route alone, and a plain TLV is encoded as it was decoded. -/
theorem tlv1_round_trip (afi : Afi) (outlet : Outlet) (pkt : Stream) :
    (∀ route : Route, route.Tlv1Valid afi → ¬ outlet.Denied route → ∃ got, route.Tlv1Kept afi got ∧
      Codes (·.tlv1_decoder afi true) pkt (pkt.tlv1_encoder afi outlet route).1 (pkt.tlv1_encoder afi outlet route).2.2 got) ∧
    (∀ (received : Stream) (frame : FramedTlv) (rest : List UInt8) (tlv : Tlv), received.unread = frame.bytes ++ rest →
      (received.tlv1_decoder afi true).1 = some tlv → frame.Plain afi tlv → ¬ outlet.Denied (tlv.descriptor afi) →
      (pkt.tlv1_encoder afi outlet (tlv.descriptor afi)).1.toNat = frame.length ∧
        (pkt.tlv1_encoder afi outlet (tlv.descriptor afi)).2.2.content = pkt.content ++ frame.bytes) := by
  constructor
  · intro route valid permitted
    obtain ⟨_,outcome⟩ := pkt.tlv1_encoder_spec afi outlet route
    rw [filtered_of_permitted permitted] at outcome
    obtain ⟨type,typed⟩ := Option.isSome_iff_exists.1 valid.typed
    obtain ⟨nexthop,addressed⟩ := valid.nexthop.encodes
    obtain ⟨dest,encoded,_⟩ := packet_prefix_round_trip valid.dest
    have encodable : route.Tlv1Frame afi ⟨type,route.tlv1_body afi type nexthop dest,
        (Route.tlv1_body_length addressed encoded).trans (by decide)⟩ :=
      ⟨typed,nexthop,dest,addressed,encoded,rfl⟩
    have sent : (pkt.tlv1_encoder afi outlet route).1 ≠ 0 := fun zero => (outcome.fails zero).1 _ encodable
    obtain ⟨frame,encodes,counted,extended⟩ := outcome.appends sent
    have verdict := tlv1_frame_verdict encodes valid.dest
    have address : BitVec.ofNat 128 (route.nexthop.toNat % 2 ^ afi.max_bitlen) = route.nexthop := by
      rw [Nat.mod_eq_of_lt valid.nexthop.address, BitVec.ofNat_toNat, BitVec.setWidth_eq]
    have metric := arrived_tlv1 valid.delay valid.bandwidth
    refine ⟨_,⟨rfl,?_,address,rfl,metric⟩,codes_of_frame counted extended fun received rest unread =>
      Stream.tlv1_decoder_at unread verdict⟩
    rw [encodes.typed, Option.some.injEq]
    simp only [Route.tlv1_arrived,decide_eq_true_eq]
  · intro received frame rest tlv unread found plain permitted
    obtain ⟨n,refines⟩ := received.tlv1_decoder_refines afi true
    have accepted := refines.route
    rw [unread, tlv1_decoder_frame, found, if_pos rfl] at accepted
    have verdict : tlv1_verdict afi frame = .route tlv := by
      cases verdict : tlv1_verdict afi frame with
      | route got =>
        rw [verdict] at accepted
        cases accepted
        rfl
      | skip =>
        rw [verdict] at accepted
        cases accepted
      | abort =>
        rw [verdict] at accepted
        cases accepted
    have encodes := tlv1_frame_of_verdict verdict plain
    obtain ⟨_,outcome⟩ := pkt.tlv1_encoder_spec afi outlet (tlv.descriptor afi)
    rw [filtered_of_permitted permitted] at outcome
    have sent : (pkt.tlv1_encoder afi outlet (tlv.descriptor afi)).1 ≠ 0 := fun zero => (outcome.fails zero).1 _ encodes
    obtain ⟨other,also,counted,extended⟩ := outcome.appends sent
    cases also.unique encodes
    exact ⟨by rw [counted, frame.length_ne_zero.2],extended.content⟩

/-- A default route, sent behind three octets. -/
theorem tlv1_round_trip_default :
    ∃ got, Route.Tlv1Kept { type := eigrp_int, dest_afi := .ipv4, dest := ⟨0,0⟩, metric := { delay := 10 } } .ipv4 got ∧
      Codes (·.tlv1_decoder .ipv4 true) (Stream.put {} [1, 2, 3])
        ((Stream.put {} [1, 2, 3]).tlv1_encoder .ipv4 {} { type := eigrp_int, dest_afi := .ipv4, dest := ⟨0,0⟩, metric := { delay := 10 } }).1
        ((Stream.put {} [1, 2, 3]).tlv1_encoder .ipv4 {} { type := eigrp_int, dest_afi := .ipv4, dest := ⟨0,0⟩, metric := { delay := 10 } }).2.2
        got :=
  (tlv1_round_trip .ipv4 {} (Stream.put {} [1, 2, 3])).1 _
    ⟨rfl,⟨rfl,by decide,by decide⟩,⟨.inl rfl,by decide⟩,by decide,by decide⟩ (by simp [Outlet.Denied])

/-- An internal route as a wide decoder returns it, with the router that has sent it for its originator. -/
def learned_internal : Route :=
  { type := Afi.ipv4.classic_internal_tlv_type, dest_afi := .ipv4, dest := ⟨0,0⟩, nexthop_afi := some .ipv4
    metric := { delay := 10 }, extdata := { orig := 0x0a000001 } }

/-- A classic TLV has no place for the originator of an internal route. -/
theorem tlv1_internal_extdata : learned_internal.Tlv1Valid .ipv4 ∧ ¬ Outlet.Denied {} learned_internal ∧
    ¬ ∃ got, Codes (·.tlv1_decoder .ipv4 true) {} (Stream.tlv1_encoder .ipv4 {} learned_internal {}).1
      (Stream.tlv1_encoder .ipv4 {} learned_internal {}).2.2 got ∧ got.extdata = learned_internal.extdata := by
  refine ⟨⟨rfl,⟨rfl,by decide,by decide⟩,⟨.inr rfl,by decide⟩,by decide,by decide⟩,by simp [Outlet.Denied],?_⟩
  rintro ⟨got,codes,same⟩
  have lost : (((Stream.tlv1_encoder .ipv4 {} learned_internal {}).2.2.set_getp 0).tlv1_decoder .ipv4 true).1.map
      (fun got => got.extdata.orig) = some 0 := by decide +kernel
  have found := codes.decoded
  simp only at found
  rw [found, Option.map_some, same] at lost
  cases lost

/-- A route that a wide TLV can hold. Only IPv6 sends its next hop. -/
structure Route.Tlv2Valid (route : Route) (afi : Afi) : Prop where
  typed : (route.tlv2_type afi).isSome
  dest : route.DestValid afi
  nexthop : afi = .ipv6 → route.NexthopValid afi
  delay : route.metric.delay.toNat < 2 ^ 48 - 1
  bandwidth : route.metric.bandwidth.toNat < 2 ^ 48 - 1

/-- What a wide TLV keeps of a route: over IPv4 the tag of an external route and its next hop are not sent. -/
structure Route.Tlv2Kept (route : Route) (afi : Afi) (src : Address) (router_id : UInt32) (got : Tlv) : Prop where
  dest : got.dest = route.normalized afi
  external : got.external = true ↔ route.tlv2_type afi = some tlv_mp_ext
  topology_id : got.topology_id = route.topology_id
  metric : got.metric = route.metric
  extdata : got.external → got.extdata =
    { route.extdata with orig := if route.extdata.orig ≠ 0 then route.extdata.orig else router_id
                         tag := if afi = .ipv6 then route.extdata.tag else 0 }
  nexthop : got.nexthop = if afi = .ipv6 ∧ route.nexthop ≠ 0 then route.nexthop else src

theorem Route.Tlv2Valid.filtered (outlet : Outlet) {route : Route} {afi : Afi} (valid : route.Tlv2Valid afi) :
    (route.filtered outlet).Tlv2Valid afi := by
  unfold Route.filtered
  split
  · exact ⟨valid.typed,⟨valid.dest.1,valid.dest.2,valid.dest.3⟩,fun family => ⟨(valid.nexthop family).1,(valid.nexthop family).2⟩,
      (by simp only [poisoned]; decide),valid.bandwidth⟩
  · exact valid

theorem tlv2_arrived_kept {route : Route} {afi : Afi} (src : Address) (router_id : UInt32) (external : Bool)
    (valid : route.Tlv2Valid afi) (class_eq : external = true ↔ route.tlv2_type afi = some tlv_mp_ext) :
    route.Tlv2Kept afi src router_id (route.tlv2_arrived afi src router_id external) := by
  have metric := arrived_tlv2 valid.delay valid.bandwidth
  refine ⟨rfl,class_eq,rfl,?_,?_,?_⟩
  · rw [← metric]
    cases afi <;> rfl
  · intro is_external
    simp only [Route.tlv2_arrived] at is_external ⊢
    subst is_external
    cases afi <;> rfl
  · cases afi with
    | ipv4 => simp [Route.tlv2_arrived,extended_arrived]
    | ipv6 => simp [Route.tlv2_arrived,extended_arrived,addpath_arrived]

/-- A route that fits the wide format is decoded as the encoder has sent it: with the metric that the outbound filter has left
    it, and over IPv4 without tag and next hop. -/
theorem tlv2_round_trip (afi : Afi) (outlet : Outlet) (src : Address) (pkt : Stream) (route : Route) (interface : outlet.ei = true)
    (valid : route.Tlv2Valid afi) : ∃ got, (route.filtered outlet).Tlv2Kept afi src outlet.router_id got ∧
      Codes (·.tlv2_decoder afi src true) pkt (pkt.tlv2_encoder afi outlet route).1 (pkt.tlv2_encoder afi outlet route).2.2 got := by
  obtain ⟨_,outcome⟩ := pkt.tlv2_encoder_spec afi route interface
  have valid := valid.filtered outlet
  obtain ⟨type,typed⟩ := Option.isSome_iff_exists.1 valid.typed
  obtain ⟨dest,encoded,_⟩ := packet_prefix_round_trip valid.dest
  have addressed : afi = .ipv6 → (afi.packet_address_encode (route.filtered outlet)).isSome := by
    intro family
    obtain ⟨nexthop,addressed⟩ := (valid.nexthop family).encodes
    rw [addressed]
    rfl
  have encodable : (route.filtered outlet).Tlv2Frame afi outlet.router_id
      ⟨type,(route.filtered outlet).tlv2_body afi outlet.router_id type dest,(Route.tlv2_body_length encoded).trans (by decide)⟩ :=
    ⟨typed,addressed,dest,encoded,rfl⟩
  have sent : (pkt.tlv2_encoder afi outlet route).1 ≠ 0 := fun zero => (outcome.fails zero).1 _ encodable
  obtain ⟨frame,encodes,counted,extended⟩ := outcome.appends sent
  have verdict := tlv2_frame_verdict encodes valid.dest src
  refine ⟨_,tlv2_arrived_kept src outlet.router_id _ valid ?_,codes_of_frame counted extended fun received rest unread =>
    Stream.tlv2_decoder_at unread verdict⟩
  rw [encodes.typed, Option.some.injEq, decide_eq_true_eq]

/-- An external route with a tag, over IPv4. -/
def tagged_external : Route :=
  { type := eigrp_ext, dest_afi := .ipv4, dest := ⟨0x0a000000,8⟩, nexthop_afi := some .ipv4, nexthop := 0xc00002fe
    metric := { delay := 10, bandwidth := 100 }, extdata := { orig := 0x0a000001, as := 4453, tag := 0x12345678, metric := 20, protocol := 6 } }

theorem tlv2_round_trip_tagged : ∃ got, (tagged_external.filtered {}).Tlv2Kept .ipv4 0xc0000201 0 got ∧
    Codes (·.tlv2_decoder .ipv4 0xc0000201 true) {} (Stream.tlv2_encoder .ipv4 {} tagged_external {}).1
      (Stream.tlv2_encoder .ipv4 {} tagged_external {}).2.2 got :=
  tlv2_round_trip .ipv4 {} 0xc0000201 {} tagged_external rfl
    ⟨rfl,⟨rfl,by decide,by decide⟩,(by intro family; cases family),by decide,by decide⟩

/-- Over IPv4 a wide TLV loses the tag and the next hop. -/
theorem tlv2_ipv4_untagged : tagged_external.Tlv2Valid .ipv4 ∧
    ¬ ∃ got, Codes (·.tlv2_decoder .ipv4 0xc0000201 true) {} (Stream.tlv2_encoder .ipv4 {} tagged_external {}).1
      (Stream.tlv2_encoder .ipv4 {} tagged_external {}).2.2 got ∧
      (got.extdata.tag = tagged_external.extdata.tag ∨ got.nexthop = tagged_external.nexthop) := by
  refine ⟨⟨rfl,⟨rfl,by decide,by decide⟩,(by intro family; cases family),by decide,by decide⟩,?_⟩
  rintro ⟨got,codes,kept⟩
  have lost : (((Stream.tlv2_encoder .ipv4 {} tagged_external {}).2.2.set_getp 0).tlv2_decoder .ipv4 0xc0000201 true).1.map
      (fun got => (got.extdata.tag, got.nexthop)) = some (0, 0xc0000201) := by decide +kernel
  have found := codes.decoded
  simp only at found
  rw [found, Option.map_some, Option.some.injEq, Prod.mk.injEq] at lost
  rw [lost.1, lost.2] at kept
  revert kept
  decide

end Eigrp
