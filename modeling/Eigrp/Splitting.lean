import Eigrp.Mixed
import Eigrp.Auth
import Eigrp.Peering
import Eigrp.Sync
import Eigrp.Lib.Packing

/-!
# Splitting into packets

Routes are appended to a packet until one does not fit. The packetizer then queues the packet, starts another one and prepares
the route a second time for it; the walk for a new neighbor does the same in its own copy of the code.
-/

namespace Eigrp.Splitting
open Eigrp.Lib
open Eigrp.Peering (Encoder)

/-! ## The packetizer -/

/-- `eigrp_packet_header_init`. -/
def packet_header_init (opcode : UInt8) (vrid as : UInt16) (flags sequence ack : UInt32) : List UInt8 :=
  stream_putc 2 ++ (stream_putc opcode ++ (stream_putw 0 ++ (stream_putl flags ++ (stream_putl sequence ++
    (stream_putl ack ++ (stream_putw vrid ++ stream_putw as))))))

/-- `eigrp_auth_tlv_md5_encode` and `eigrp_auth_tlv_sha256_encode`, which leave the sequence number and the digest to the
    time at which the packet is sent. -/
def auth_tlv_encode (ei : Auth.Interface) (key_id : UInt32) : List UInt8 :=
  if ei.material_available ∧ ei.key_get.isSome then
    match ei.auth_type with
    | .md5 =>
      stream_putw Auth.tlv_auth ++ (stream_putw 40 ++ (stream_putw 2 ++ (stream_putw 16 ++ (stream_putl key_id ++
        (stream_putl 0 ++ List.replicate 24 0)))))
    | .sha256 =>
      stream_putw Auth.tlv_auth ++ (stream_putw 56 ++ (stream_putw 3 ++ (stream_putw 32 ++ (stream_putl 0 ++
        (stream_putl 0 ++ List.replicate 40 0)))))
    | _ => []
  else []

/-- `eigrp_packet_sequence_reserve`: the sequence number, and the one behind it. -/
def sequence_reserve (sequence_number : UInt32) : UInt32 × UInt32 :=
  let sequence := if sequence_number = 0 then 1 else sequence_number
  (sequence, if sequence + 1 = 0 then 1 else sequence + 1)

theorem nothing_allocated : 0 ≤ ([] : List UInt8).length := Nat.zero_le _
theorem nothing_read : 0 ≤ 0 := Nat.le_refl 0

/-- What stands behind the encoder of an interface. -/
def encode (encoder : Encoder) (afi : Afi) (outlet : Outlet) (route : Route) (pkt : Stream) : UInt16 × Route × Stream :=
  match encoder with
  | .safe => (0, route, pkt)
  | .tlv1 => pkt.tlv1_encoder afi outlet route
  | .tlv2 => pkt.tlv2_encoder afi outlet route
  | .both => pkt.packet_encoder_both afi outlet route

/-- What `eigrp_packetizer_builder_t` keeps of its interface and of the work at hand. -/
structure Outgoing where
  afi : Afi
  outlet : Outlet := {}
  encoder : Encoder
  next_hop_self : Bool := true
  offsets : Prefix → OffsetPolicy
  auth : Auth.Interface
  key_id : UInt32 := 0
  opcode : UInt8
  flags : UInt32 := 0
  vrid : UInt16
  as : UInt16

/-- A route with the destination that the offset lists read. -/
structure Advert where
  destination : Prefix
  route : Route
deriving DecidableEq, Repr

/-- The variables of `eigrp_packetizer_builder_t`, with the packets it has queued and the sequence number of the instance. -/
structure Builder where
  packet : Option Stream := none
  route_count : Nat := 0
  sequence_number : UInt32 := 1
  sent : List Stream := []

namespace Outgoing
variable (out : Outgoing) (packet_limit : UInt16)

/-- What a packet has in front of its routes. -/
def front (sequence : UInt32) : List UInt8 :=
  packet_header_init out.opcode out.vrid out.as out.flags sequence 0 ++ auth_tlv_encode out.auth out.key_id

/-- `eigrp_packetizer_builder_start`. -/
def builder_start (builder : Builder) : Builder :=
  let (sequence, sequence_number) := sequence_reserve builder.sequence_number
  { builder with packet := some (Stream.put { allocated := nothing_allocated, ordered := nothing_read } (out.front sequence))
                 route_count := 0, sequence_number := sequence_number }

/-- `eigrp_packetizer_builder_flush`. -/
def builder_flush (builder : Builder) : Builder :=
  match builder.packet with
  | none => builder
  | some packet =>
    { builder with packet := none, sent := if builder.route_count = 0 then builder.sent else builder.sent ++ [packet] }

/-- The route that is encoded: behind the outbound offset list, and without its next hop where that is asked for. -/
def wire_route (next_hop_self : Bool) (advert : Advert) : Route :=
  let route := if next_hop_self then { advert.route with nexthop_afi := none, nexthop := 0 } else advert.route
  { route with metric := offset_metric_update (out.offsets advert.destination) .outbound route.metric }

/-- `eigrp_packetizer_builder_route_add`. -/
def builder_route_add (advert : Advert) (builder : Builder) : Int × Builder :=
  let builder := if builder.packet.isNone then out.builder_start builder else builder
  match builder.packet with
  | none => (0, builder)
  | some packet =>
    let (encoded, _, packet) := packet.packet_route_encode_append (encode out.encoder out.afi out.outlet) packet_limit
      (out.wire_route out.next_hop_self advert)
    if encoded ≥ 0 then
      (encoded, { builder with packet := some packet, route_count := if encoded > 0 then builder.route_count + 1 else builder.route_count })
    else if builder.route_count = 0 then (0, builder)
    else
      let builder := out.builder_start (builder_flush builder)
      match builder.packet with
      | none => (0, builder)
      | some packet =>
        -- the second copy of the preparation, which keeps the next hop
        let (encoded, _, packet) := packet.packet_route_encode_append (encode out.encoder out.afi out.outlet) packet_limit
          (out.wire_route false advert)
        (if encoded > 0 then encoded else 0,
          { builder with packet := some packet, route_count := if encoded > 0 then builder.route_count + 1 else builder.route_count })

/-- The routes one after the other, and the flush behind them. -/
def packets (sequence_number : UInt32) (adverts : List Advert) : List Stream :=
  (builder_flush (adverts.foldl (fun builder advert => (out.builder_route_add packet_limit advert builder).2)
    { sequence_number := sequence_number })).sent

end Outgoing

/-! ## The TLVs of a route -/

section Encoding
variable {afi : Afi} {outlet : Outlet} {route : Route}

theorem tlv1_frame_unique {first second : FramedTlv} (one : route.Tlv1Frame afi first) (two : route.Tlv1Frame afi second) :
    first = second := by
  obtain ⟨nexthop,dest,addressed,encoded,body⟩ := one.body
  obtain ⟨nexthop',dest',addressed',encoded',body'⟩ := two.body
  obtain rfl := Option.some.inj (addressed.symm.trans addressed')
  obtain rfl := Option.some.inj (encoded.symm.trans encoded')
  have type := Option.some.inj (one.typed.symm.trans two.typed)
  obtain ⟨type₁,body₁,_⟩ := first
  obtain ⟨type₂,body₂,_⟩ := second
  simp only at type body body'
  subst type
  rw [FramedTlv.mk.injEq]
  exact ⟨rfl,body.trans body'.symm⟩

theorem tlv2_frame_unique {router_id : UInt32} {first second : FramedTlv} (one : route.Tlv2Frame afi router_id first)
    (two : route.Tlv2Frame afi router_id second) : first = second := by
  obtain ⟨dest,encoded,body⟩ := one.body
  obtain ⟨dest',encoded',body'⟩ := two.body
  obtain rfl := Option.some.inj (encoded.symm.trans encoded')
  have type := Option.some.inj (one.typed.symm.trans two.typed)
  obtain ⟨type₁,body₁,_⟩ := first
  obtain ⟨type₂,body₂,_⟩ := second
  simp only at type body body'
  subst type
  rw [FramedTlv.mk.injEq]
  exact ⟨rfl,body.trans body'.symm⟩

/-- The encoder appends these TLVs to every stream. -/
def Appends (encoder : Stream → UInt16 × Route × Stream) (frames : List FramedTlv) : Prop :=
  ∀ pkt, (encoder pkt).1.toNat = (packet_bytes frames).length ∧ pkt.Extends (packet_bytes frames) (encoder pkt).2.2

theorem appends_of_outcome {frames : FramedTlv → Prop} {encoder : Stream → UInt16 × Route × Stream}
    (unique : ∀ first second, frames first → frames second → first = second)
    (outcome : ∀ pkt, Stream.Outcome pkt frames (encoder pkt).1 (encoder pkt).2.2) : ∃ tlvs, Appends encoder tlvs := by
  by_cases some : ∃ frame, frames frame
  · obtain ⟨frame,is_frame⟩ := some
    refine ⟨[frame],fun pkt => ?_⟩
    have nonzero : (encoder pkt).1 ≠ 0 := fun zero => ((outcome pkt).fails zero).1 frame is_frame
    obtain ⟨other,is_other,counted,extended⟩ := (outcome pkt).appends nonzero
    obtain rfl := unique frame other is_frame is_other
    have octets : packet_bytes [frame] = frame.bytes := by simp [packet_bytes]
    rw [octets,counted,frame.length_ne_zero.2,frame.bytes_length]
    exact ⟨rfl,extended⟩
  · refine ⟨[],fun pkt => ?_⟩
    have zero : (encoder pkt).1 = 0 := by
      by_contra nonzero
      obtain ⟨frame,is_frame,_⟩ := (outcome pkt).appends nonzero
      exact some ⟨frame,is_frame⟩
    rw [zero]
    exact ⟨rfl,((outcome pkt).fails zero).2⟩

theorem both_zero {pkt : Stream} (interface : outlet.ei = true) (failed : (pkt.packet_encoder_both afi outlet route).1 = 0) :
    ¬ ∃ old new, (route.filtered outlet).Pair afi outlet.router_id old new := by
  rintro ⟨old,new,pair⟩
  obtain ⟨left_behind,classic⟩ := pkt.tlv1_encoder_spec afi outlet route
  obtain ⟨_,wide⟩ := (pkt.tlv1_encoder afi outlet route).2.2.tlv2_encoder_spec afi (route.filtered outlet) interface
  rw [filtered_twice] at wide
  have some1 : (pkt.tlv1_encoder afi outlet route).1 ≠ 0 := fun zero => (classic.fails zero).1 old pair.old
  have some2 := fun zero => (wide.fails zero).1 new pair.new
  obtain ⟨first,encodes,counted,_⟩ := classic.appends some1
  obtain ⟨second,encodes',counted',_⟩ := wide.appends some2
  have size := first.length_ne_zero.2
  have size' := second.length_ne_zero.2
  have short := encodes.length_lt
  have short' := encodes'.length_lt
  rw [← counted] at size
  rw [← counted'] at size'
  unfold Stream.packet_encoder_both at failed
  simp only [left_behind] at failed
  rw [if_neg (not_or.2 ⟨some1,some2⟩)] at failed
  have sum := congrArg UInt16.toNat failed
  rw [UInt16.toNat_add,size,size'] at sum
  have long : 4 ≤ first.length := by simp [FramedTlv.length,tlv_hdr_size]
  simp only [UInt16.toNat_zero] at sum
  omega

theorem both_without {pkt : Stream} (none : outlet.ei = false) :
    (pkt.packet_encoder_both afi outlet route).1 = 0 ∧ pkt.Extends [] (pkt.packet_encoder_both afi outlet route).2.2 := by
  obtain ⟨left_behind,classic⟩ := pkt.tlv1_encoder_spec afi outlet route
  unfold Stream.packet_encoder_both
  simp only [left_behind]
  rw [Stream.tlv2_encoder_without afi _ _ none]
  simp only [or_true,if_true]
  by_cases zero : (pkt.tlv1_encoder afi outlet route).1 = 0
  · exact ⟨trivial,(classic.fails zero).2.restored⟩
  · obtain ⟨old,_,_,extended⟩ := classic.appends zero
    exact ⟨trivial,extended.restored⟩

theorem both_appends (afi : Afi) (outlet : Outlet) (route : Route) :
    ∃ tlvs, Appends (Stream.packet_encoder_both afi outlet route) tlvs := by
  by_cases interface : outlet.ei = true
  · by_cases some : ∃ old new, (route.filtered outlet).Pair afi outlet.router_id old new
    · obtain ⟨old,new,pair⟩ := some
      refine ⟨[old, new],fun pkt => ?_⟩
      rcases packet_encoder_both_spec afi outlet route pkt with ⟨first,second,other,counted,extended⟩ | ⟨failed,_⟩
      · obtain rfl := tlv1_frame_unique pair.old other.old
        obtain rfl := tlv2_frame_unique pair.new other.new
        have octets : packet_bytes [old, new] = old.bytes ++ new.bytes := by simp [packet_bytes]
        rw [octets,counted,List.length_append,old.bytes_length,new.bytes_length]
        exact ⟨rfl,extended⟩
      · exact absurd ⟨old,new,pair⟩ (both_zero interface failed)
    · refine ⟨[],fun pkt => ?_⟩
      rcases packet_encoder_both_spec afi outlet route pkt with ⟨first,second,other,_⟩ | ⟨failed,restored⟩
      · exact absurd ⟨first,second,other⟩ some
      · rw [failed]
        exact ⟨rfl,restored⟩
  · refine ⟨[],fun pkt => ?_⟩
    obtain ⟨failed,restored⟩ := @both_without afi outlet route pkt (Bool.eq_false_iff.2 interface)
    rw [failed]
    exact ⟨rfl,restored⟩

theorem encode_appends (encoder : Encoder) (afi : Afi) (outlet : Outlet) (route : Route) :
    ∃ tlvs, Appends (encode encoder afi outlet route) tlvs := by
  cases encoder with
  | safe => exact ⟨[],fun pkt => ⟨rfl,.refl pkt⟩⟩
  | tlv1 => exact appends_of_outcome (fun _ _ => tlv1_frame_unique) fun pkt => (pkt.tlv1_encoder_spec afi outlet route).2
  | tlv2 =>
    by_cases interface : outlet.ei = true
    · exact appends_of_outcome (fun _ _ => tlv2_frame_unique) fun pkt => (pkt.tlv2_encoder_spec afi route interface).2
    · refine ⟨[],fun pkt => ?_⟩
      have nothing := Stream.tlv2_encoder_without afi route pkt (Bool.eq_false_iff.2 interface)
      simp only [encode,nothing]
      exact ⟨rfl,.refl pkt⟩
  | both => exact both_appends afi outlet route

/-- The octets that a route comes to. -/
def tlv_set (encoder : Encoder) (afi : Afi) (outlet : Outlet) (route : Route) : List UInt8 :=
  (encode encoder afi outlet route { allocated := nothing_allocated, ordered := nothing_read }).2.2.content

theorem tlv_set_eq {encoder : Encoder} {tlvs : List FramedTlv} (appends : Appends (encode encoder afi outlet route) tlvs) :
    tlv_set encoder afi outlet route = packet_bytes tlvs := by
  rw [tlv_set,(appends {}).2.content]
  rfl

/-- Whole TLVs. -/
theorem tlv_set_frames (encoder : Encoder) (afi : Afi) (outlet : Outlet) (route : Route) :
    ∃ tlvs, tlv_set encoder afi outlet route = packet_bytes tlvs := by
  obtain ⟨tlvs,appends⟩ := encode_appends encoder afi outlet route
  exact ⟨tlvs,tlv_set_eq appends⟩

/-- A route is appended whole, or left to the next packet, or has no TLVs. -/
theorem packet_route_encode_append_eq (encoder : Encoder) {packet_limit : UInt16} (open_limit : packet_limit ≠ 0) (pkt : Stream) :
    (pkt.packet_route_encode_append (encode encoder afi outlet) packet_limit route).1 =
        (if pkt.endp + (tlv_set encoder afi outlet route).length > packet_limit.toNat ∧ tlv_set encoder afi outlet route ≠ [] then -1
          else ((tlv_set encoder afi outlet route).length : Int)) ∧
      (pkt.packet_route_encode_append (encode encoder afi outlet) packet_limit route).2.2.content =
        pkt.content ++ if pkt.endp + (tlv_set encoder afi outlet route).length > packet_limit.toNat then []
          else tlv_set encoder afi outlet route := by
  obtain ⟨tlvs,appends⟩ := encode_appends encoder afi outlet route
  have set := tlv_set_eq appends
  obtain ⟨counted,extended⟩ := appends { data := List.replicate packet_limit.toNat 0 }
  rw [set]
  generalize packet_bytes tlvs = octets at counted extended
  simp only [Stream.packet_route_encode_append]
  rw [if_neg open_limit]
  generalize encode encoder afi outlet route { data := List.replicate packet_limit.toNat 0 } = result at counted extended ⊢
  obtain ⟨encoded,behind,scratch⟩ := result
  simp only at counted extended ⊢
  by_cases none : encoded = 0
  · rw [if_pos none]
    rw [none,UInt16.toNat_zero] at counted
    obtain rfl := List.length_eq_zero_iff.1 counted.symm
    simp
  · have some : octets ≠ [] := by
      rintro rfl
      exact none (UInt16.toNat_inj.1 counted)
    rw [if_neg none,counted]
    by_cases full : pkt.endp + octets.length > packet_limit.toNat
    · simp [full,some]
    · have copied : scratch.data.take octets.length = octets := by
        have content := extended.content
        have endp := extended.endp
        simp only [Nat.zero_add] at endp
        rw [← endp]
        exact content
      rw [if_neg full,copied]
      simp [full]

theorem packet_route_encode_append_refused {encoder : Encoder} {packet_limit : UInt16} (open_limit : packet_limit ≠ 0) {pkt : Stream}
    (beyond : pkt.endp + (tlv_set encoder afi outlet route).length > packet_limit.toNat) (some : tlv_set encoder afi outlet route ≠ []) :
    (pkt.packet_route_encode_append (encode encoder afi outlet) packet_limit route).1 = -1 := by
  rw [(packet_route_encode_append_eq encoder open_limit pkt).1,if_pos ⟨beyond,some⟩]

end Encoding

/-! ## The content of the packets -/

theorem packet_header_init_length (opcode : UInt8) (vrid as : UInt16) (flags sequence ack : UInt32) :
    (packet_header_init opcode vrid as flags sequence ack).length = 20 := by
  simp [packet_header_init,stream_putc,stream_putw,stream_putl]

namespace Outgoing
variable (out : Outgoing)

/-- How far the routes of a packet are behind its beginning. -/
def base : Nat := 20 + (auth_tlv_encode out.auth out.key_id).length

theorem front_length (sequence : UInt32) : (out.front sequence).length = out.base := by
  rw [front,List.length_append,packet_header_init_length,base]

/-- The TLVs of a route in a packet at hand, and in one that was started for it. -/
def full (advert : Advert) : List UInt8 := tlv_set out.encoder out.afi out.outlet (out.wire_route out.next_hop_self advert)
def bare (advert : Advert) : List UInt8 := tlv_set out.encoder out.afi out.outlet (out.wire_route false advert)
def pieces (adverts : List Advert) : List (List UInt8 × List UInt8) := adverts.map fun advert => (out.full advert, out.bare advert)

/-- The TLV octets of a packet. -/
def body (packet : Stream) : List UInt8 := packet.content.drop out.base

/-- Whole TLVs behind the front of a packet, within the limit. -/
structure Whole (packet_limit : UInt16) (packet : Stream) : Prop where
  tlvs : ∃ sequence tlvs, packet.content = out.front sequence ++ packet_bytes tlvs
  within : packet.content.length ≤ packet_limit.toNat

/-- The limit leaves room for every TLV set. -/
def Roomy (packet_limit : UInt16) (adverts : List Advert) : Prop :=
  ∀ advert ∈ adverts, out.base + (out.full advert).length ≤ packet_limit.toNat ∧
    out.base + (out.bare advert).length ≤ packet_limit.toNat

/-- All TLV octets so far. -/
def emitted (builder : Builder) : List UInt8 := builder.sent.flatMap out.body ++ builder.packet.elim [] out.body

/-- How many of them are in the packet at hand. -/
def fill (builder : Builder) : Nat := (builder.packet.elim [] out.body).length

structure Built (packet_limit : UInt16) (builder : Builder) : Prop where
  sent : ∀ packet ∈ builder.sent, out.Whole packet_limit packet
  current : ∀ packet ∈ builder.packet, out.Whole packet_limit packet ∧ (builder.route_count = 0 ↔ out.body packet = [])

variable {out} {packet_limit : UInt16}

theorem Whole.length {packet : Stream} (whole : out.Whole packet_limit packet) :
    packet.endp = out.base + (out.body packet).length := by
  obtain ⟨sequence,tlvs,content⟩ := whole.tlvs
  rw [← packet.content_length,body,content,List.length_append,front_length,List.drop_left' (out.front_length sequence)]

theorem Whole.append {packet longer : Stream} {tlvs : List FramedTlv} (whole : out.Whole packet_limit packet)
    (content : longer.content = packet.content ++ packet_bytes tlvs)
    (within : packet.endp + (packet_bytes tlvs).length ≤ packet_limit.toNat) :
    out.Whole packet_limit longer ∧ out.body longer = out.body packet ++ packet_bytes tlvs := by
  obtain ⟨sequence,before,front⟩ := whole.tlvs
  refine ⟨⟨⟨sequence,before ++ tlvs,?_⟩,?_⟩,?_⟩
  · rw [content,front]
    simp [packet_bytes]
  · rw [content,List.length_append,packet.content_length]
    exact within
  · rw [body,body,content,front,List.append_assoc,List.drop_left' (out.front_length sequence),
      List.drop_left' (out.front_length sequence)]

theorem started_whole (within : out.base ≤ packet_limit.toNat) (sequence : UInt32) :
    out.Whole packet_limit (Stream.put {} (out.front sequence)) ∧ out.body (Stream.put {} (out.front sequence)) = [] := by
  have content : (Stream.put {} (out.front sequence)).content = out.front sequence := by
    rw [Stream.put_content]
    rfl
  refine ⟨⟨⟨sequence,[],?_⟩,?_⟩,?_⟩
  · rw [content]
    simp [packet_bytes]
  · rw [content,front_length]
    exact within
  · rw [body,content,← out.front_length sequence,List.drop_length]

/-- A packet that is started holds no routes. -/
theorem builder_start_built {builder : Builder} (within : out.base ≤ packet_limit.toNat) (built : out.Built packet_limit builder)
    (none : builder.packet = none) :
    out.Built packet_limit (out.builder_start builder) ∧ out.emitted (out.builder_start builder) = out.emitted builder ∧
      out.fill (out.builder_start builder) = 0 ∧ ∃ packet, (out.builder_start builder).packet = some packet := by
  obtain ⟨whole,empty⟩ := started_whole within (sequence_reserve builder.sequence_number).1
  refine ⟨⟨built.sent,?_⟩,?_,?_,_,rfl⟩
  · intro packet same
    obtain rfl := Option.some.inj same
    exact ⟨whole,fun _ => empty,fun _ => rfl⟩
  · simp [emitted,builder_start,none,empty]
  · simp [fill,builder_start,empty]

theorem builder_flush_built {builder : Builder} (built : out.Built packet_limit builder) :
    out.Built packet_limit (builder_flush builder) ∧ out.emitted (builder_flush builder) = out.emitted builder ∧
      (builder_flush builder).packet = none := by
  unfold builder_flush
  cases found : builder.packet with
  | none => exact ⟨built,rfl,found⟩
  | some packet =>
    obtain ⟨whole,counted⟩ := built.current packet found
    refine ⟨⟨?_,by rintro _ ⟨⟩⟩,?_,rfl⟩
    · dsimp only
      split
      · exact built.sent
      · intro other member
        rcases List.mem_append.1 member with old | new
        · exact built.sent other old
        · obtain rfl := List.mem_singleton.1 new
          exact whole
    · simp only [emitted,found,Option.elim]
      split
      · next zero => rw [counted.1 zero]
      · simp

/-- A route joins the packet at hand. -/
theorem append_built {builder : Builder} {packet : Stream} {route : Route} (built : out.Built packet_limit builder)
    (found : builder.packet = some packet) (nonzero : packet_limit ≠ 0)
    (fits : packet.endp + (tlv_set out.encoder out.afi out.outlet route).length ≤ packet_limit.toNat) :
    (packet.packet_route_encode_append (encode out.encoder out.afi out.outlet) packet_limit route).1 =
        ((tlv_set out.encoder out.afi out.outlet route).length : Int) ∧
      ∀ count, (count = if (tlv_set out.encoder out.afi out.outlet route).length > 0 then builder.route_count + 1 else builder.route_count) →
        out.Built packet_limit { builder with
          packet := some (packet.packet_route_encode_append (encode out.encoder out.afi out.outlet) packet_limit route).2.2
          route_count := count } ∧
        out.emitted { builder with
          packet := some (packet.packet_route_encode_append (encode out.encoder out.afi out.outlet) packet_limit route).2.2
          route_count := count } = out.emitted builder ++ tlv_set out.encoder out.afi out.outlet route ∧
        out.fill { builder with
          packet := some (packet.packet_route_encode_append (encode out.encoder out.afi out.outlet) packet_limit route).2.2
          route_count := count } = out.fill builder + (tlv_set out.encoder out.afi out.outlet route).length := by
  obtain ⟨encoded,content⟩ := @packet_route_encode_append_eq out.afi out.outlet route out.encoder packet_limit nonzero packet
  obtain ⟨tlvs,set⟩ := tlv_set_frames out.encoder out.afi out.outlet route
  obtain ⟨whole,counted⟩ := built.current packet found
  have not_full : ¬ packet.endp + (tlv_set out.encoder out.afi out.outlet route).length > packet_limit.toNat := by omega
  rw [if_neg (fun full => not_full full.1)] at encoded
  rw [if_neg not_full] at content
  rw [set] at content fits
  obtain ⟨longer,octets⟩ := whole.append content fits
  rw [← set] at octets
  refine ⟨encoded,?_⟩
  intro count counts
  refine ⟨⟨built.sent,?_⟩,?_,?_⟩
  · intro other same
    obtain rfl := Option.some.inj same
    refine ⟨longer,?_⟩
    rw [octets,counts,List.append_eq_nil_iff,← counted]
    split
    · next some =>
      have filled : tlv_set out.encoder out.afi out.outlet route ≠ [] := List.ne_nil_of_length_pos some
      simp [filled]
    · next none =>
      have empty : tlv_set out.encoder out.afi out.outlet route = [] := List.length_eq_zero_iff.1 (by omega)
      simp [empty]
  · simp [emitted,found,octets]
  · simp [fill,found,octets]

theorem builder_route_add_started {builder : Builder} (advert : Advert) (none : builder.packet = none) :
    out.builder_route_add packet_limit advert builder = out.builder_route_add packet_limit advert (out.builder_start builder) := by
  simp [builder_route_add,none,builder_start]

/-- What one route adds to the packets. -/
theorem builder_route_add_built {builder : Builder} {advert : Advert} (nonzero : packet_limit ≠ 0)
    (roomy : out.base + (out.full advert).length ≤ packet_limit.toNat ∧ out.base + (out.bare advert).length ≤ packet_limit.toNat)
    (built : out.Built packet_limit builder) :
    out.Built packet_limit (out.builder_route_add packet_limit advert builder).2 ∧
      out.emitted (out.builder_route_add packet_limit advert builder).2 = out.emitted builder ++
        (if out.fill builder + (out.full advert).length ≤ packet_limit.toNat - out.base then out.full advert else out.bare advert) ∧
      out.fill (out.builder_route_add packet_limit advert builder).2 =
        if out.fill builder + (out.full advert).length ≤ packet_limit.toNat - out.base then
          out.fill builder + (out.full advert).length
        else (out.bare advert).length := by
  obtain ⟨full_fits,bare_fits⟩ := roomy
  have within : out.base ≤ packet_limit.toNat := by omega
  -- a packet at hand, started for the route if need be
  have at_hand (builder : Builder) (built : out.Built packet_limit builder) {packet : Stream} (found : builder.packet = some packet) :
      out.Built packet_limit (out.builder_route_add packet_limit advert builder).2 ∧
        out.emitted (out.builder_route_add packet_limit advert builder).2 = out.emitted builder ++
          (if out.fill builder + (out.full advert).length ≤ packet_limit.toNat - out.base then out.full advert else out.bare advert) ∧
        out.fill (out.builder_route_add packet_limit advert builder).2 =
          if out.fill builder + (out.full advert).length ≤ packet_limit.toNat - out.base then
            out.fill builder + (out.full advert).length
          else (out.bare advert).length := by
    obtain ⟨whole,counted⟩ := built.current packet found
    have length := whole.length
    have filled : out.fill builder = (out.body packet).length := by simp [fill,found]
    have inside := whole.within
    rw [packet.content_length] at inside
    unfold builder_route_add
    simp only [found,Option.isNone_some,Bool.false_eq_true,if_false]
    by_cases fits : out.fill builder + (out.full advert).length ≤ packet_limit.toNat - out.base
    · obtain ⟨encoded,appended⟩ := @append_built out packet_limit builder packet (out.wire_route out.next_hop_self advert) built found
        nonzero (by change packet.endp + (out.full advert).length ≤ _; omega)
      rw [encoded,if_pos (Int.natCast_nonneg _),if_pos fits,if_pos fits]
      refine appended _ ?_
      simp only [Int.natCast_pos,gt_iff_lt]
    · rw [if_neg fits,if_neg fits]
      have some : out.full advert ≠ [] := by
        intro empty
        rw [empty,List.length_nil] at fits
        omega
      have left : ¬ out.body packet = [] := by
        intro empty
        rw [filled,empty,List.length_nil] at fits
        omega
      have beyond : packet.endp + (out.full advert).length > packet_limit.toNat := by omega
      have encoded := @packet_route_encode_append_refused out.afi out.outlet (out.wire_route out.next_hop_self advert) out.encoder
        packet_limit nonzero packet beyond some
      obtain ⟨flushed,flushed_emitted,none⟩ := builder_flush_built built
      obtain ⟨started,started_emitted,empty,fresh,there⟩ := builder_start_built within flushed none
      obtain ⟨fresh_whole,_⟩ := started.current fresh there
      have fresh_length := fresh_whole.length
      have fresh_fill : (out.body fresh).length = 0 := by simpa [fill,there] using empty
      obtain ⟨again,appended⟩ := @append_built out packet_limit (out.builder_start (builder_flush builder)) fresh
        (out.wire_route false advert) started there nonzero (by change fresh.endp + (out.bare advert).length ≤ _; omega)
      rw [encoded,if_neg (by omega),if_neg (fun zero => left (counted.1 zero))]
      simp only [there,again]
      obtain ⟨after,after_emitted,after_fill⟩ := appended _ rfl
      rw [started_emitted,flushed_emitted] at after_emitted
      rw [empty,Nat.zero_add] at after_fill
      simp only [Int.natCast_pos,gt_iff_lt] at after after_emitted after_fill ⊢
      exact ⟨after,after_emitted,after_fill⟩
  cases found : builder.packet with
  | some packet => exact at_hand builder built found
  | none =>
    obtain ⟨started,same,empty,packet,there⟩ := builder_start_built within built found
    have none_filled : out.fill builder = 0 := by simp [fill,found]
    rw [builder_route_add_started advert found,none_filled,← same]
    have step := at_hand (out.builder_start builder) started there
    rw [empty] at step
    exact step

theorem builder_run_built (nonzero : packet_limit ≠ 0) (adverts : List Advert) (roomy : out.Roomy packet_limit adverts)
    (builder : Builder) (built : out.Built packet_limit builder) :
    out.Built packet_limit (adverts.foldl (fun builder advert => (out.builder_route_add packet_limit advert builder).2) builder) ∧
      out.emitted (adverts.foldl (fun builder advert => (out.builder_route_add packet_limit advert builder).2) builder) =
        out.emitted builder ++ (chosen (breaks (packet_limit.toNat - out.base) (out.fill builder) (out.pieces adverts))
          (out.pieces adverts)).flatten := by
  induction adverts generalizing builder with
  | nil => exact ⟨built,by simp [pieces,breaks,chosen]⟩
  | cons advert adverts ih =>
    obtain ⟨after,octets,filled⟩ := builder_route_add_built nonzero (roomy advert List.mem_cons_self) built
    obtain ⟨last,total⟩ := ih (fun other member => roomy other (List.mem_cons_of_mem _ member)) _ after
    refine ⟨last,?_⟩
    rw [List.foldl_cons,total,octets,filled]
    simp only [pieces,List.map_cons,breaks]
    split
    · simp [chosen]
    · simp [chosen]

theorem packets_content {adverts : List Advert} (roomy : out.Roomy packet_limit adverts) (sequence_number : UInt32) :
    (∀ packet ∈ out.packets packet_limit sequence_number adverts, out.Whole packet_limit packet) ∧
      (out.packets packet_limit sequence_number adverts).flatMap out.body =
        (chosen (breaks (packet_limit.toNat - out.base) 0 (out.pieces adverts)) (out.pieces adverts)).flatten := by
  cases adverts with
  | nil => exact ⟨by rintro packet ⟨⟩,rfl⟩
  | cons advert adverts =>
    have nonzero : packet_limit ≠ 0 := by
      rintro rfl
      have room := (roomy advert List.mem_cons_self).1
      simp only [base,UInt16.toNat_zero] at room
      omega
    have empty : out.Built packet_limit { sequence_number := sequence_number } := ⟨by rintro _ ⟨⟩,by rintro _ ⟨⟩⟩
    obtain ⟨built,octets⟩ := builder_run_built nonzero (advert :: adverts) roomy _ empty
    obtain ⟨flushed,same,none⟩ := builder_flush_built built
    refine ⟨flushed.sent,?_⟩
    rw [octets] at same
    simp only [emitted,none,Option.elim,List.append_nil] at same
    exact same

end Outgoing

/-! ## With and without a next hop -/

/-- Routes that differ at most in a next hop that can be encoded or not in both. -/
structure Alike (afi : Afi) (route other : Route) : Prop where
  tlv1_type : other.tlv1_type afi = route.tlv1_type afi
  tlv2_type : other.tlv2_type afi = route.tlv2_type afi
  dest : afi.packet_prefix_encode other = afi.packet_prefix_encode route
  addressed : (afi.packet_address_encode other).isSome = (afi.packet_address_encode route).isSome
  metric : other.metric = route.metric
  extdata : other.extdata = route.extdata
  topology_id : other.topology_id = route.topology_id

section Lengths
variable {afi : Afi} {outlet : Outlet} {route other : Route}

theorem Alike.symm (alike : Alike afi route other) : Alike afi other route :=
  ⟨alike.tlv1_type.symm,alike.tlv2_type.symm,alike.dest.symm,alike.addressed.symm,alike.metric.symm,alike.extdata.symm,
    alike.topology_id.symm⟩

theorem Alike.tlv1_frame (alike : Alike afi route other) {frame : FramedTlv} (encodes : route.Tlv1Frame afi frame) :
    ∃ second, other.Tlv1Frame afi second ∧ second.length = frame.length := by
  obtain ⟨nexthop,dest,addressed,encoded,body⟩ := encodes.body
  obtain ⟨hop,there⟩ : ∃ hop, afi.packet_address_encode other = some hop :=
    Option.isSome_iff_exists.1 (by rw [alike.addressed,addressed]; rfl)
  have sized : (other.tlv1_body afi frame.type hop dest).length = (route.tlv1_body afi frame.type nexthop dest).length := by
    have first := packet_address_encode_length there
    have second := packet_address_encode_length addressed
    simp only [Route.tlv1_body,List.length_append,first,second,alike.metric,alike.extdata]
  have fits := frame.fits
  rw [body,← sized] at fits
  refine ⟨⟨frame.type,other.tlv1_body afi frame.type hop dest,fits⟩,⟨alike.tlv1_type.trans encodes.typed,hop,dest,there,
    alike.dest.trans encoded,rfl⟩,?_⟩
  rw [FramedTlv.length,FramedTlv.length,body,sized]

theorem tlv2_metric_encode_sized (afi : Afi) (router_id : UInt32) (first second : TlvRoute) (external : Bool) :
    (tlv2_metric_encode afi router_id first external).length = (tlv2_metric_encode afi router_id second external).length := by
  have one := tlv2_addpath_data_length .ipv6 router_id first external
  have two := tlv2_addpath_data_length .ipv6 router_id second external
  cases afi <;> cases external <;>
    simp [tlv2_metric_encode,tlv2_section_encode,tlv2_addpath_encode,one,two,stream_putc,stream_putw,tlv2_put48]

theorem Alike.tlv2_frame (alike : Alike afi route other) {router_id : UInt32} {frame : FramedTlv}
    (encodes : route.Tlv2Frame afi router_id frame) :
    ∃ second, other.Tlv2Frame afi router_id second ∧ second.length = frame.length := by
  obtain ⟨dest,encoded,body⟩ := encodes.body
  have sized : (other.tlv2_body afi router_id frame.type dest).length = (route.tlv2_body afi router_id frame.type dest).length := by
    have metric := tlv2_metric_encode_sized afi router_id ⟨other.metric,other.nexthop,route.extdata⟩
      ⟨route.metric,route.nexthop,route.extdata⟩ (frame.type == tlv_mp_ext)
    simp only [Route.tlv2_body,List.length_append,alike.extdata,alike.topology_id,metric]
  have fits := frame.fits
  rw [body,← sized] at fits
  refine ⟨⟨frame.type,other.tlv2_body afi router_id frame.type dest,fits⟩,⟨alike.tlv2_type.trans encodes.typed,?_,dest,
    alike.dest.trans encoded,rfl⟩,?_⟩
  · intro family
    rw [alike.addressed]
    exact encodes.addressed family
  · rw [FramedTlv.length,FramedTlv.length,body,sized]

theorem Alike.filtered (alike : Alike afi route other) (same : other.dest = route.dest) :
    Alike afi (route.filtered outlet) (other.filtered outlet) := by
  unfold Route.filtered
  by_cases denied : outlet.ei ∧ outlet.filter_prefix_update route.dest
  · rw [if_pos denied,if_pos (by rw [same]; exact denied)]
    exact ⟨alike.tlv1_type,alike.tlv2_type,alike.dest,alike.addressed,congrArg poisoned alike.metric,alike.extdata,
      alike.topology_id⟩
  · rw [if_neg denied,if_neg (by rw [same]; exact denied)]
    exact alike

theorem outcome_count {pkt behind : Stream} {frames : FramedTlv → Prop} {length : UInt16}
    (outcome : Stream.Outcome pkt frames length behind) :
    length.toNat = 0 ∧ (∀ frame, ¬ frames frame) ∨ ∃ frame, frames frame ∧ length.toNat = frame.length := by
  by_cases zero : length = 0
  · exact .inl ⟨by rw [zero]; rfl,(outcome.fails zero).1⟩
  · obtain ⟨frame,encodes,counted,_⟩ := outcome.appends zero
    exact .inr ⟨frame,encodes,by rw [counted]; exact frame.length_ne_zero.2⟩

/-- Encoders of the same TLVs up to their content append as many octets. -/
theorem outcome_sized {pkt first second : Stream} {frames others : FramedTlv → Prop} {length size : UInt16}
    (outcome : Stream.Outcome pkt frames length first) (outcome' : Stream.Outcome pkt others size second)
    (unique : ∀ one two, others one → others two → one = two)
    (there : ∀ frame, frames frame → ∃ other, others other ∧ other.length = frame.length)
    (back : ∀ frame, others frame → ∃ other, frames other ∧ other.length = frame.length) : size.toNat = length.toNat := by
  rcases outcome_count outcome with ⟨zero,none⟩ | ⟨frame,encodes,counted⟩
  · rcases outcome_count outcome' with ⟨zero',_⟩ | ⟨frame,encodes,_⟩
    · rw [zero,zero']
    · obtain ⟨other,encodes,_⟩ := back frame encodes
      exact absurd encodes (none other)
  · obtain ⟨other,encodes',sized⟩ := there frame encodes
    rcases outcome_count outcome' with ⟨_,none⟩ | ⟨frame',is_frame,counted'⟩
    · exact absurd encodes' (none other)
    · obtain rfl := unique frame' other is_frame encodes'
      rw [counted,counted',sized]

theorem encode_sized (encoder : Encoder) (alike : Alike afi (route.filtered outlet) (other.filtered outlet)) :
    (encode encoder afi outlet other {}).1.toNat = (encode encoder afi outlet route {}).1.toNat := by
  cases encoder with
  | safe => rfl
  | tlv1 =>
    exact outcome_sized (Stream.tlv1_encoder_spec afi outlet route {}).2 (Stream.tlv1_encoder_spec afi outlet other {}).2
      (fun _ _ => tlv1_frame_unique) (fun _ => alike.tlv1_frame) (fun _ => alike.symm.tlv1_frame)
  | tlv2 =>
    by_cases interface : outlet.ei = true
    · exact outcome_sized (Stream.tlv2_encoder_spec afi route {} interface).2 (Stream.tlv2_encoder_spec afi other {} interface).2
        (fun _ _ => tlv2_frame_unique) (fun _ => alike.tlv2_frame) (fun _ => alike.symm.tlv2_frame)
    · simp only [encode,Stream.tlv2_encoder_without afi _ {} (Bool.eq_false_iff.2 interface)]
  | both =>
    simp only [encode]
    by_cases interface : outlet.ei = true
    · have pairs {route other : Route} (alike : Alike afi (route.filtered outlet) (other.filtered outlet)) {old new : FramedTlv}
          (pair : (route.filtered outlet).Pair afi outlet.router_id old new) :
          (Stream.packet_encoder_both afi outlet other {}).1.toNat = old.length + new.length := by
        obtain ⟨old',encodes,old_sized⟩ := alike.tlv1_frame pair.old
        obtain ⟨new',encodes',new_sized⟩ := alike.tlv2_frame pair.new
        rcases packet_encoder_both_spec afi outlet other {} with ⟨first,second,found,counted,_⟩ | ⟨failed,_⟩
        · obtain rfl := tlv1_frame_unique encodes found.old
          obtain rfl := tlv2_frame_unique encodes' found.new
          rw [counted,old_sized,new_sized]
        · exact absurd ⟨old',new',encodes,encodes'⟩ (both_zero interface failed)
      rcases packet_encoder_both_spec afi outlet route {} with ⟨old,new,pair,counted,_⟩ | ⟨failed,_⟩
      · rw [counted,pairs alike pair]
      · rcases packet_encoder_both_spec afi outlet other {} with ⟨old,new,pair,counted,_⟩ | ⟨failed',_⟩
        · rw [counted,pairs alike.symm pair]
        · rw [failed,failed']
    · have none := Bool.eq_false_iff.2 interface
      rw [(both_without none).1,(both_without none).1]

end Lengths

theorem tlv_set_length (encoder : Encoder) (afi : Afi) (outlet : Outlet) (route : Route) :
    (tlv_set encoder afi outlet route).length = (encode encoder afi outlet route {}).1.toNat := by
  obtain ⟨tlvs,appends⟩ := encode_appends encoder afi outlet route
  rw [tlv_set_eq appends,(appends {}).1]

/-- The next hop of the route is of the address family or of none. -/
def Advert.Familiar (afi : Afi) (advert : Advert) : Prop :=
  advert.route.nexthop_afi = none ∨ advert.route.nexthop_afi = some afi

/-- A TLV is of one size with and without the next hop. -/
theorem Outgoing.full_length (out : Outgoing) {advert : Advert} (familiar : advert.Familiar out.afi) :
    (out.full advert).length = (out.bare advert).length := by
  have addressed : (out.afi.packet_address_encode advert.route).isSome = true := by
    unfold Advert.Familiar at familiar
    rw [Afi.packet_address_encode,if_pos familiar]
    rfl
  have alike : Alike out.afi (out.wire_route false advert) (out.wire_route out.next_hop_self advert) := by
    cases named : out.next_hop_self with
    | false => exact ⟨rfl,rfl,rfl,rfl,rfl,rfl,rfl⟩
    | true => exact ⟨rfl,rfl,rfl,addressed.symm,rfl,rfl,rfl⟩
  have same : (out.wire_route out.next_hop_self advert).dest = (out.wire_route false advert).dest := by
    cases out.next_hop_self <;> rfl
  rw [Outgoing.full,Outgoing.bare,tlv_set_length,tlv_set_length]
  exact encode_sized out.encoder (alike.filtered same)

/-! ## The walk for a new neighbor -/

section Walk
variable (intf : Intf) (eigrp : Instance) (turn : SyncTurn)

/-- What `eigrp_update_sync_continue` sends for a destination itself. -/
def specific_tlvs (pd : PrefixDescriptor) (route : RouteDescriptor) : List Tlv :=
  if (turn.egress eigrp).filtered intf.id pd.destination then []
  else [walk_route_tlv (turn.egress eigrp) intf pd.destination route route.total_metric]

/-- What it sends for a node after the summaries that it has sent, and the summaries behind that. -/
def visit_tlvs (seen : List Prefix) (id : Nat) : List Tlv × List Prefix :=
  match eigrp.descriptor id with
  | none => ([], seen)
  | some pd => match route_read pd with
    | none => ([], seen)
    | some route => match (turn.egress eigrp).summary_route_build intf.id pd route with
      | none => (specific_tlvs intf eigrp turn pd route, seen)
      | some (dest, summary_route) =>
        let leaked := if (turn.egress eigrp).summary_specific_leak intf.id pd.destination then specific_tlvs intf eigrp turn pd route else []
        if dest ∈ seen then (leaked, seen)
        else if (turn.egress eigrp).filtered intf.id dest then ([], seen ++ [dest])
        else (walk_route_tlv (turn.egress eigrp) intf dest summary_route summary_route.metric :: leaked, seen ++ [dest])

/-- What it sends for the nodes of a table. -/
def walk_tlvs : List Prefix → List Nat → List Tlv
  | _, [] => []
  | seen, id :: ids => (visit_tlvs intf eigrp turn seen id).1 ++ walk_tlvs (visit_tlvs intf eigrp turn seen id).2 ids

end Walk

/-- The walk sends for a node what the synchronisation advertises for its destination. -/
theorem visit_tlvs_sync {intf : Intf} {eigrp : Instance} {turn : SyncTurn} {id : Nat} {pd : PrefixDescriptor}
    (found : eigrp.descriptor id = some pd) (seen : List Prefix) :
    (visit_tlvs intf eigrp turn seen id).1 = sync_tlvs (turn.egress eigrp) intf seen pd := by
  simp only [visit_tlvs,sync_tlvs,found,specific_tlvs]
  cases route_read pd with
  | none => rfl
  | some route =>
    cases built : (turn.egress eigrp).summary_route_build intf.id pd route with
    | none => simp [built]
    | some summary =>
      simp only [built]
      by_cases sent : summary.1 ∈ seen
      · simp [sent]
      · by_cases denied : (turn.egress eigrp).filtered intf.id summary.1 <;> simp [sent,denied]

/-- The TLVs that the encoder does not refuse. -/
def sends (encoded : Tlv → Nat) (tlvs : List Tlv) : List Tlv := tlvs.filter (encoded · ≠ 0)

/-- A packet of whole TLVs within the limit. -/
structure PackedPacket (link : SyncLink) (encoded : Tlv → Nat) (packet : SyncPacket) : Prop where
  length : packet.length = link.header + (packet.tlvs.map encoded).sum
  within : packet.length ≤ link.packet_limit

structure Packed (link : SyncLink) (encoded : Tlv → Nat) (walk : SyncWalk) : Prop where
  packets : ∀ packet ∈ walk.queued ++ [walk.packet], PackedPacket link encoded packet
  count : walk.route_count = 0 → walk.packet.tlvs = []

section Nodes
variable {link : SyncLink} {eigrp : Instance} {turn : SyncTurn} {walk : SyncWalk}

theorem sync_append_packed (packed : Packed link turn.encoded walk) (allocates : ∀ n, turn.allocates n = true) {tlv : Tlv}
    (room : link.header + turn.encoded tlv ≤ link.packet_limit) :
    ∃ next, sync_append link turn walk tlv = .ok next ∧ Packed link turn.encoded next ∧
      next.emitted = walk.emitted ++ sends turn.encoded [tlv] ∧ next.summary_seen = walk.summary_seen := by
  have current := packed.packets walk.packet (by simp)
  unfold sync_append route_encode_append
  by_cases refused : link.packet_limit = 0 ∨ turn.encoded tlv = 0
  · have none : turn.encoded tlv = 0 := by omega
    simp only [refused,if_true,lt_irrefl,false_and,if_false]
    exact ⟨_,rfl,⟨packed.packets,packed.count⟩,by simp [sends,none,SyncWalk.emitted],rfl⟩
  · obtain ⟨_,some⟩ := not_or.1 refused
    by_cases full : link.packet_limit < walk.packet.length + turn.encoded tlv
    · have counted : walk.route_count ≠ 0 := by
        intro zero
        have empty := packed.count zero
        have length := current.length
        rw [empty,List.map_nil,List.sum_nil] at length
        omega
      have fits : ¬ link.packet_limit < link.header + turn.encoded tlv := by omega
      have negative : (-1 : Int) < 0 := by decide
      simp only [refused,full,counted,fits,negative,allocates,ne_eq,not_false_eq_true,and_self,if_true,if_false,List.nil_append]
      refine ⟨_,rfl,⟨?_,?_⟩,?_,rfl⟩
      · intro packet member
        rcases List.mem_append.1 member with old | new
        · exact packed.packets packet old
        · obtain rfl := List.mem_singleton.1 new
          exact ⟨by simp,by simp only; omega⟩
      · intro zero
        have positive : (turn.encoded tlv : Int) > 0 := by omega
        exact absurd (zero.symm.trans (if_pos positive)) (by decide)
      · simp [SyncWalk.emitted,packet_tlvs,sends,some]
    · have positive : (turn.encoded tlv : Int) > 0 := by omega
      have not_negative : ¬ (turn.encoded tlv : Int) < 0 := by omega
      simp only [refused,full,not_negative,positive,false_and,if_true,if_false]
      refine ⟨_,rfl,⟨?_,?_⟩,?_,rfl⟩
      · intro packet member
        rcases List.mem_append.1 member with old | new
        · exact packed.packets packet (List.mem_append_left _ old)
        · obtain rfl := List.mem_singleton.1 new
          have length := current.length
          refine ⟨?_,by simp only; omega⟩
          simp only [List.map_append,List.map_cons,List.map_nil,List.sum_append,List.sum_cons,List.sum_nil]
          omega
      · intro zero
        simp at zero
      · simp [SyncWalk.emitted,packet_tlvs,sends,some]

theorem summary_grow_packed (packed : Packed link turn.encoded walk) (allocates : ∀ n, turn.allocates n = true) :
    ∃ next, summary_grow turn walk = .ok next ∧ Packed link turn.encoded next ∧ next.emitted = walk.emitted ∧
      next.summary_seen = walk.summary_seen := by
  unfold summary_grow
  simp only [allocates,if_true]
  split
  · exact ⟨_,rfl,⟨packed.packets,packed.count⟩,rfl,rfl⟩
  · exact ⟨_,rfl,packed,rfl,rfl⟩

theorem sync_specific_packed (packed : Packed link turn.encoded walk) (allocates : ∀ n, turn.allocates n = true)
    {pd : PrefixDescriptor} {route : RouteDescriptor}
    (room : ∀ tlv ∈ specific_tlvs link.intf eigrp turn pd route, link.header + turn.encoded tlv ≤ link.packet_limit) :
    ∃ next, sync_specific link eigrp turn pd route walk = .ok next ∧ Packed link turn.encoded next ∧
      next.emitted = walk.emitted ++ sends turn.encoded (specific_tlvs link.intf eigrp turn pd route) ∧
      next.summary_seen = walk.summary_seen := by
  unfold sync_specific
  unfold specific_tlvs at room ⊢
  split
  · exact ⟨walk,rfl,packed,by simp [sends],rfl⟩
  · next passes =>
    rw [if_neg passes] at room
    exact sync_append_packed packed allocates (room _ (List.mem_singleton_self _))

theorem sends_append (encoded : Tlv → Nat) (first second : List Tlv) :
    sends encoded (first ++ second) = sends encoded first ++ sends encoded second := List.filter_append ..

/-- What a node adds to the packets. -/
theorem sync_visit_packed (packed : Packed link turn.encoded walk) (allocates : ∀ n, turn.allocates n = true) (id : Nat)
    (room : ∀ tlv ∈ (visit_tlvs link.intf eigrp turn walk.summary_seen id).1, link.header + turn.encoded tlv ≤ link.packet_limit) :
    ∃ next, sync_visit link eigrp turn walk id = .ok next ∧ Packed link turn.encoded next ∧
      next.emitted = walk.emitted ++ sends turn.encoded (visit_tlvs link.intf eigrp turn walk.summary_seen id).1 ∧
      next.summary_seen = (visit_tlvs link.intf eigrp turn walk.summary_seen id).2 := by
  unfold sync_visit
  unfold visit_tlvs at room ⊢
  cases found : eigrp.descriptor id with
  | none => exact ⟨walk,rfl,packed,by simp [sends],rfl⟩
  | some pd =>
    simp only [found] at room ⊢
    cases selected : route_read pd with
    | none => exact ⟨walk,rfl,packed,by simp [sends],rfl⟩
    | some route =>
      simp only [selected] at room ⊢
      cases summary : (turn.egress eigrp).summary_route_build link.intf.id pd route with
      | none =>
        simp only [summary] at room ⊢
        exact sync_specific_packed packed allocates room
      | some built =>
        obtain ⟨dest,summary_route⟩ := built
        simp only [summary] at room ⊢
        obtain ⟨grown,grows,grown_packed,grown_emitted,grown_seen⟩ := summary_grow_packed packed allocates
        generalize (turn.egress eigrp).summary_specific_leak link.intf.id pd.destination = leak at room ⊢
        by_cases sent : dest ∈ walk.summary_seen
        · simp only [sent,if_true] at room ⊢
          cases leak with
          | false => exact ⟨walk,rfl,packed,by simp [sends],rfl⟩
          | true =>
            simp only [if_true] at room ⊢
            obtain ⟨next,done,after,octets,seen⟩ := @sync_specific_packed _ eigrp _ _ grown_packed allocates pd route room
            rw [grows]
            exact ⟨next,done,after,by rw [octets,grown_emitted],seen.trans grown_seen⟩
        · simp only [sent,if_false] at room ⊢
          rw [grows]
          have marked : Packed link turn.encoded { grown with summary_seen := grown.summary_seen ++ [dest] } :=
            ⟨grown_packed.packets,grown_packed.count⟩
          by_cases denied : (turn.egress eigrp).filtered link.intf.id dest = true
          · simp only [denied,if_true] at room ⊢
            refine ⟨_,rfl,marked,?_,?_⟩
            · rw [show sends turn.encoded [] = [] from rfl,List.append_nil]
              exact grown_emitted
            · exact congrArg (· ++ [dest]) grown_seen
          · simp only [denied] at room ⊢
            obtain ⟨middle,appends,middle_packed,middle_emitted,middle_seen⟩ :=
              @sync_append_packed _ _ _ marked allocates _ (room _ List.mem_cons_self)
            have before : middle.emitted = walk.emitted ++ sends turn.encoded
                [walk_route_tlv (turn.egress eigrp) link.intf dest summary_route summary_route.metric] := by
              rw [middle_emitted]
              exact congrArg (· ++ _) grown_emitted
            have marks : middle.summary_seen = walk.summary_seen ++ [dest] :=
              middle_seen.trans (congrArg (· ++ [dest]) grown_seen)
            simp only [bind,Except.bind,appends]
            cases leak with
            | false => exact ⟨middle,rfl,middle_packed,before,marks⟩
            | true =>
              simp only [if_true] at room ⊢
              obtain ⟨next,done,after,octets,seen⟩ := @sync_specific_packed _ eigrp _ _ middle_packed allocates pd route
                (fun tlv member => room tlv (List.mem_cons_of_mem _ member))
              refine ⟨next,done,after,?_,seen.trans marks⟩
              rw [octets,before,List.append_assoc,← sends_append]
              rfl

/-- How far a turn comes: the rest of the table is still ahead, and what it will add is known. -/
theorem sync_loop_packed (allocates : ∀ n, turn.allocates n = true) {table : List Nat} (nodup : table.Nodup) :
    ∀ (ids : List Nat) (inspected : Nat) (cursor : Option Nat) (walk : SyncWalk), Packed link turn.encoded walk →
      ahead cursor table = ids → (∀ id ∈ cursor, id ∈ table) →
      (∀ tlv ∈ walk_tlvs link.intf eigrp turn walk.summary_seen ids, link.header + turn.encoded tlv ≤ link.packet_limit) →
      ∃ rest, Packed link turn.encoded (sync_loop link eigrp turn ids inspected cursor walk).walk ∧
        (sync_loop link eigrp turn ids inspected cursor walk).walk.emitted ++ sends turn.encoded (walk_tlvs link.intf eigrp turn
            (sync_loop link eigrp turn ids inspected cursor walk).walk.summary_seen rest) =
          walk.emitted ++ sends turn.encoded (walk_tlvs link.intf eigrp turn walk.summary_seen ids) ∧
        walk_tlvs link.intf eigrp turn (sync_loop link eigrp turn ids inspected cursor walk).walk.summary_seen rest ⊆
          walk_tlvs link.intf eigrp turn walk.summary_seen ids ∧
        ((sync_loop link eigrp turn ids inspected cursor walk).complete = true → rest = []) ∧
        ((sync_loop link eigrp turn ids inspected cursor walk).complete = false →
          ahead (sync_loop link eigrp turn ids inspected cursor walk).cursor table = rest ∧
            ∀ id ∈ (sync_loop link eigrp turn ids inspected cursor walk).cursor, id ∈ table) := by
  intro ids
  induction ids with
  | nil =>
    intro inspected cursor walk packed _ _ _
    exact ⟨[],packed,rfl,List.Subset.refl _,fun _ => rfl,fun paused => absurd paused (by simp [sync_loop])⟩
  | cons id ids ih =>
    intro inspected cursor walk packed waits known room
    have here : id ∈ table := ahead_subset cursor table (by rw [waits]; exact List.mem_cons_self)
    have advanced := ahead_advance nodup waits
    obtain ⟨next,visits,after,octets,seen⟩ := @sync_visit_packed link eigrp turn walk packed allocates id
      (fun tlv member => room tlv (List.mem_append_left _ member))
    have total : walk.emitted ++ sends turn.encoded (walk_tlvs link.intf eigrp turn walk.summary_seen (id :: ids)) =
        next.emitted ++ sends turn.encoded (walk_tlvs link.intf eigrp turn next.summary_seen ids) := by
      rw [octets,seen,List.append_assoc,← sends_append]
      rfl
    have later : walk_tlvs link.intf eigrp turn next.summary_seen ids ⊆
        walk_tlvs link.intf eigrp turn walk.summary_seen (id :: ids) := by
      rw [seen]
      exact List.subset_append_right _ _
    unfold sync_loop
    rw [visits]
    simp only
    split
    · refine ⟨ids,after,total.symm,later,fun complete => absurd complete (by simp),fun _ => ⟨advanced,?_⟩⟩
      intro last same
      obtain rfl := Option.some.inj same
      exact here
    · obtain ⟨rest,final,same,fewer,complete,paused⟩ := ih (inspected + 1) (some id) next after advanced
        (fun last same => by
          obtain rfl := Option.some.inj same
          exact here)
        (fun tlv member => room tlv (later member))
      exact ⟨rest,final,same.trans total.symm,List.Subset.trans fewer later,complete,paused⟩

end Nodes

/-! ## Whole walks -/

/-- The packets have room for the header and for every TLV of the walk. -/
structure SyncRoomy (link : SyncLink) (eigrp : Instance) (turn : SyncTurn) : Prop where
  header : link.header ≤ link.packet_limit
  tlvs : ∀ tlv ∈ walk_tlvs link.intf eigrp turn [] eigrp.topology_table, link.header + turn.encoded tlv ≤ link.packet_limit

/-- Between two turns of a walk over a table that stays as it is. -/
structure Halfway (link : SyncLink) (eigrp : Instance) (turn : SyncTurn) (sync : Sync) : Prop where
  packed : Packed link turn.encoded (sync_walk link turn sync)
  cursor : ∀ id ∈ sync.sync_cursor, id ∈ eigrp.topology_table
  ahead : walk_tlvs link.intf eigrp turn sync.sync_summary_seen (ahead sync.sync_cursor eigrp.topology_table) ⊆
    walk_tlvs link.intf eigrp turn [] eigrp.topology_table
  total : (sync_walk link turn sync).emitted ++ sends turn.encoded (walk_tlvs link.intf eigrp turn sync.sync_summary_seen
    (Lib.ahead sync.sync_cursor eigrp.topology_table)) = sends turn.encoded (walk_tlvs link.intf eigrp turn [] eigrp.topology_table)

/-- Behind the last turn. -/
structure Delivered (link : SyncLink) (eigrp : Instance) (turn : SyncTurn) (sync : Sync) : Prop where
  packets : ∀ packet ∈ sync.queued, PackedPacket link turn.encoded packet
  total : packet_tlvs sync.queued = sends turn.encoded (walk_tlvs link.intf eigrp turn [] eigrp.topology_table)

def Transfer (link : SyncLink) (eigrp : Instance) (turn : SyncTurn) (sync : Sync) : Prop :=
  sync.fault = false ∧ (sync.sync_active = true → Halfway link eigrp turn sync) ∧
    (sync.sync_active = false → Delivered link eigrp turn sync)

section Whole
variable {link : SyncLink} {eigrp : Instance} {turn : SyncTurn}

theorem update_send_eot_transfer (roomy : SyncRoomy link eigrp turn) (allocates : Bool) :
    Transfer link eigrp turn (update_send_eot link allocates) := by
  have walk : (sync_walk link turn (update_send_eot link allocates)).packet = { length := link.header } := by
    cases allocates <;> rfl
  refine ⟨rfl,fun _ => ⟨⟨?_,?_⟩,?_,List.Subset.refl _,?_⟩,fun ended => absurd ended (by simp [update_send_eot])⟩
  · intro packet member
    have only : packet = { length := link.header } := by
      rw [← walk]
      exact List.mem_singleton.1 member
    subst only
    exact ⟨by simp,roomy.header⟩
  · intro _
    rw [walk]
  · rintro id ⟨⟩
  · have nothing : (sync_walk link turn (update_send_eot link allocates)).emitted = [] := by
      simp only [SyncWalk.emitted,walk]
      rfl
    rw [nothing]
    rfl

theorem walk_tlvs_count (intf : Intf) (seen : List Prefix) (ids : List Nat) (count : Nat) :
    walk_tlvs intf eigrp { turn with count := count } seen ids = walk_tlvs intf eigrp turn seen ids := by
  induction ids generalizing seen with
  | nil => rfl
  | cons id ids ih => exact congrArg (_ ++ ·) (ih _)

theorem update_sync_continue_transfer (allocates : ∀ n, turn.allocates n = true) (nodup : eigrp.topology_table.Nodup)
    (roomy : SyncRoomy link eigrp turn) {sync : Sync} (transfer : Transfer link eigrp turn sync) (count : Nat) :
    Transfer link eigrp turn (update_sync_continue link eigrp { turn with count := count } sync) := by
  obtain ⟨sound,underway,ended⟩ := transfer
  unfold update_sync_continue
  split
  · exact ⟨sound,underway,ended⟩
  · next going =>
    obtain ⟨active,_⟩ := not_or.1 going
    have active : sync.sync_active = true := not_not.1 active
    obtain ⟨packed,known,later,total⟩ := underway active
    rw [if_neg (by simp [allocates])]
    have there : ¬ (sync.sync_cursor.any fun id => id ∉ eigrp.topology_table) = true := by
      cases cursor : sync.sync_cursor with
      | none => simp
      | some id => simpa using known id cursor
    rw [if_neg there]
    obtain ⟨rest,final,same,fewer,complete,paused⟩ := @sync_loop_packed link eigrp { turn with count := count } allocates
      eigrp.topology_table nodup (ahead sync.sync_cursor eigrp.topology_table) 0 sync.sync_cursor
      (sync_walk link { turn with count := count } sync) ⟨packed.packets,packed.count⟩ rfl known
      (fun tlv member => by
        rw [walk_tlvs_count] at member
        exact roomy.tlvs tlv (later member))
    simp only [walk_tlvs_count] at same fewer
    have whole := same.trans total
    simp only
    generalize sync_loop link eigrp { turn with count := count } (ahead sync.sync_cursor eigrp.topology_table) 0 sync.sync_cursor
      (sync_walk link { turn with count := count } sync) = pause at final whole fewer complete paused ⊢
    cases done : pause.complete with
    | true =>
      rw [if_pos rfl]
      refine ⟨rfl,fun active => absurd active (by simp),fun _ => ⟨?_,?_⟩⟩
      · intro packet member
        rcases List.mem_append.1 member with old | new
        · exact final.packets packet (List.mem_append_left _ old)
        · obtain rfl := List.mem_singleton.1 new
          obtain ⟨length,within⟩ := final.packets pause.walk.packet (by simp)
          exact ⟨length,within⟩
      · rw [complete done] at whole
        have empty : sends turn.encoded (walk_tlvs link.intf eigrp turn pause.walk.summary_seen []) = [] := rfl
        have marked := packet_tlvs_marked pause.walk.queued pause.walk.packet eot_flag
        refine marked.trans ?_
        rw [← whole]
        exact (List.append_nil _).symm
    | false =>
      rw [if_neg (by simp)]
      obtain ⟨waits,there⟩ := paused done
      refine ⟨rfl,fun _ => ⟨⟨final.packets,final.count⟩,there,?_,?_⟩,fun ended => absurd ended (by simp)⟩
      · rw [waits]
        exact List.Subset.trans fewer later
      · rw [waits]
        exact whole

/-- A walk over a table in turns at which the reliable queue has these depths. -/
def sync_walked (link : SyncLink) (eigrp : Instance) (turn : SyncTurn) (allocates : Bool) (counts : List Nat) : Sync :=
  sync_turns link (counts.map fun count => (eigrp, { turn with count := count })) (update_send_eot link allocates)

theorem sync_walked_transfer (memory : ∀ n, turn.allocates n = true) (nodup : eigrp.topology_table.Nodup)
    (roomy : SyncRoomy link eigrp turn) (allocates : Bool) (counts : List Nat) :
    Transfer link eigrp turn (sync_walked link eigrp turn allocates counts) := by
  have turns (counts : List Nat) (sync : Sync) (transfer : Transfer link eigrp turn sync) :
      Transfer link eigrp turn (sync_turns link (counts.map fun count => (eigrp, { turn with count := count })) sync) := by
    induction counts generalizing sync with
    | nil => exact transfer
    | cons count counts ih => exact ih _ (update_sync_continue_transfer memory nodup roomy transfer count)
  exact turns counts _ (update_send_eot_transfer roomy allocates)

end Whole

/-- Two limits make the same content of a sequence of routes exactly when every route that begins a later packet under only
    one of them has the same TLVs with and without its next hop; the TLVs are whole and within the limit. For two walks for a
    new neighbor over one table the content is always the same. -/
theorem split_content_iff (out : Outgoing) {first second : UInt16} {adverts : List Advert} (roomy : out.Roomy first adverts)
    (other_roomy : out.Roomy second adverts) (sequence_number : UInt32) :
    (∀ packet ∈ out.packets first sequence_number adverts, out.Whole first packet) ∧
    (Interchangeable (breaks (first.toNat - out.base) 0 (out.pieces adverts)) (breaks (second.toNat - out.base) 0 (out.pieces adverts))
        (out.pieces adverts) →
      (out.packets first sequence_number adverts).flatMap out.body = (out.packets second sequence_number adverts).flatMap out.body) ∧
    ((∀ advert ∈ adverts, advert.Familiar out.afi) →
      (out.packets first sequence_number adverts).flatMap out.body = (out.packets second sequence_number adverts).flatMap out.body →
      Interchangeable (breaks (first.toNat - out.base) 0 (out.pieces adverts)) (breaks (second.toNat - out.base) 0 (out.pieces adverts))
        (out.pieces adverts)) ∧
    ∀ (metric : MetricConfig) (events : List Event) (intf : Intf) (header limit other_limit : Nat) (turn : SyncTurn)
      (allocates other_allocates : Bool) (counts others : List Nat), (∀ n, turn.allocates n = true) →
      SyncRoomy ⟨intf,header,limit⟩ (run metric events).state turn → SyncRoomy ⟨intf,header,other_limit⟩ (run metric events).state turn →
      (sync_walked ⟨intf,header,limit⟩ (run metric events).state turn allocates counts).sync_active = false →
      (sync_walked ⟨intf,header,other_limit⟩ (run metric events).state turn other_allocates others).sync_active = false →
      (∀ packet ∈ (sync_walked ⟨intf,header,limit⟩ (run metric events).state turn allocates counts).queued,
        PackedPacket ⟨intf,header,limit⟩ turn.encoded packet) ∧
      packet_tlvs (sync_walked ⟨intf,header,limit⟩ (run metric events).state turn allocates counts).queued =
        packet_tlvs (sync_walked ⟨intf,header,other_limit⟩ (run metric events).state turn other_allocates others).queued := by
  obtain ⟨whole,octets⟩ := Outgoing.packets_content roomy sequence_number
  obtain ⟨_,other_octets⟩ := Outgoing.packets_content other_roomy sequence_number
  refine ⟨whole,?_,?_,?_⟩
  · intro agree
    rw [octets,other_octets,chosen_eq_of_interchangeable (breaks_length _ _ _) (breaks_length _ _ _) agree]
  · intro familiar same
    rw [octets,other_octets] at same
    refine interchangeable_of_flatten_eq ?_ same
    intro piece member
    obtain ⟨advert,among,rfl⟩ := List.mem_map.1 member
    exact out.full_length (familiar advert among)
  · intro metric events intf header limit other_limit turn allocates other_allocates counts others memory room other_room ended other_ended
    have nodup := (run_numbered metric events).nodup
    obtain ⟨_,_,delivered⟩ := sync_walked_transfer memory nodup room allocates counts
    obtain ⟨_,_,other_delivered⟩ := sync_walked_transfer memory nodup other_room other_allocates others
    exact ⟨(delivered ended).packets,(delivered ended).total.trans (other_delivered other_ended).total.symm⟩

/-- An interface with classic neighbors. -/
def classic (next_hop_self : Bool) : Outgoing where
  afi := .ipv4
  encoder := .tlv1
  next_hop_self := next_hop_self
  offsets := fun _ => ⟨[],none,fun _ => false⟩
  auth := { address := ⟨.ipv4,0x0a000001⟩ }
  opcode := 1
  vrid := 0
  as := 100

/-- A route over another router of the link. -/
def route_to (address : Address) : Advert where
  destination := ⟨address,8⟩
  route :=
    { type := eigrp_int, dest_afi := .ipv4, dest := ⟨address,8⟩, nexthop := 0x0a000009, metric := { delay := 10, bandwidth := 100 } }

def two_routes : List Advert := [route_to 0x0b000000, route_to 0x0c000000]

theorem two_routes_split :
    ((classic false).packets 60 1 two_routes).flatMap (classic false).body =
      ((classic false).packets 1400 1 two_routes).flatMap (classic false).body := by
  refine (split_content_iff (classic false) ?_ ?_ 1).2.1 (interchangeable_of_same ?_ _ _)
  · unfold Outgoing.Roomy
    decide +kernel
  · unfold Outgoing.Roomy
    decide +kernel
  · intro piece member
    obtain ⟨advert,_,rfl⟩ := List.mem_map.1 member
    rfl

/-- The second route begins a packet of its own under the lower limit, and there it keeps its next hop. -/
theorem next_hop_kept_by_split : (classic true).Roomy 60 two_routes ∧ (classic true).Roomy 1400 two_routes ∧
    ((classic true).packets 60 1 two_routes).flatMap (classic true).body ≠ ((classic true).packets 1400 1 two_routes).flatMap (classic true).body := by
  unfold Outgoing.Roomy
  decide +kernel

end Eigrp.Splitting
