import Eigrp.RoundTrip
import Eigrp.Receive

/-!
# Packets for neighbors of both versions

On a link with neighbors of both software versions a route is sent twice, in a classic and in a wide TLV. A neighbor of each
version passes over the TLVs of the other.
-/

namespace Eigrp
open Eigrp.Lib

namespace Stream

/-- `eigrp_packet_route_encode_append`: a route that does not fit is left to the next packet. -/
def packet_route_encode_append (encoder : Route → Stream → UInt16 × Route × Stream) (packet_limit : UInt16) (route : Route)
    (pkt : Stream) : Int × Route × Stream :=
  if packet_limit = 0 then (0, route, pkt)
  else
    let scratch : Stream := { data := List.replicate packet_limit.toNat 0 }
    let (encoded, route, scratch) := encoder route scratch
    if encoded = 0 then (0, route, pkt)
    else if pkt.endp + encoded.toNat > packet_limit.toNat then (-1, route, pkt)
    else (encoded.toNat, route, pkt.put (scratch.data.take encoded.toNat))

theorem Extends.trans {pkt middle longer : Stream} {first second : List UInt8} (extended : Extends pkt first middle)
    (more : Extends middle second longer) : Extends pkt (first ++ second) longer :=
  ⟨by rw [more.content, extended.content, List.append_assoc],more.getp.trans extended.getp⟩

end Stream

theorem filtered_twice (outlet : Outlet) (route : Route) : (route.filtered outlet).filtered outlet = route.filtered outlet := by
  unfold Route.filtered
  by_cases denied : outlet.ei ∧ outlet.filter_prefix_update route.dest
  · rw [if_pos denied]
    exact if_pos denied
  · rw [if_neg denied, if_neg denied]

/-- The two TLVs of a route, the classic one in front. -/
structure Route.Pair (route : Route) (afi : Afi) (router_id : UInt32) (old new : FramedTlv) : Prop where
  old : route.Tlv1Frame afi old
  new : route.Tlv2Frame afi router_id new

/-- Both encoders have appended their TLV, or the content is what it was. -/
theorem packet_encoder_both_spec (afi : Afi) (outlet : Outlet) (route : Route) (pkt : Stream) :
    (∃ old new, (route.filtered outlet).Pair afi outlet.router_id old new ∧
        (pkt.packet_encoder_both afi outlet route).1.toNat = old.length + new.length ∧
        pkt.Extends (old.bytes ++ new.bytes) (pkt.packet_encoder_both afi outlet route).2.2) ∨
      (pkt.packet_encoder_both afi outlet route).1 = 0 ∧ pkt.Extends [] (pkt.packet_encoder_both afi outlet route).2.2 := by
  obtain ⟨left_behind,classic⟩ := pkt.tlv1_encoder_spec afi outlet route
  unfold Stream.packet_encoder_both
  generalize pkt.tlv1_encoder afi outlet route = first at left_behind classic
  obtain ⟨len1,route1,middle⟩ := first
  simp only at left_behind classic ⊢
  subst left_behind
  -- the content in front of the wide encoder
  have between : ∃ src, pkt.Extends src middle := by
    by_cases none : len1 = 0
    · exact ⟨_,(classic.fails none).2⟩
    · obtain ⟨old,_,_,extended⟩ := classic.appends none
      exact ⟨_,extended⟩
  obtain ⟨src,extended⟩ := between
  cases interface : outlet.ei with
  | false =>
    rw [Stream.tlv2_encoder_without afi _ middle interface]
    simp only [or_true,if_true]
    exact .inr ⟨trivial,extended.restored⟩
  | true =>
    obtain ⟨left_behind,wide⟩ := middle.tlv2_encoder_spec afi (route.filtered outlet) interface
    rw [filtered_twice] at left_behind wide
    generalize middle.tlv2_encoder afi outlet (route.filtered outlet) = second at left_behind wide
    obtain ⟨len2,route2,behind⟩ := second
    simp only at left_behind wide ⊢
    by_cases failed : len1 = 0 ∨ len2 = 0
    · rw [if_pos failed]
      refine .inr ⟨rfl,?_⟩
      by_cases none : len2 = 0
      · exact (extended.trans (wide.fails none).2).restored
      · obtain ⟨new,_,_,more⟩ := wide.appends none
        exact (extended.trans more).restored
    · obtain ⟨some1,some2⟩ := not_or.1 failed
      obtain ⟨old,old_encodes,old_counted,old_extended⟩ := classic.appends some1
      obtain ⟨new,new_encodes,new_counted,new_extended⟩ := wide.appends some2
      have old_size := old.length_ne_zero.2
      have new_size := new.length_ne_zero.2
      have old_lt := old_encodes.length_lt
      have new_lt := new_encodes.length_lt
      rw [← old_counted] at old_size
      rw [← new_counted] at new_size
      rw [if_neg failed]
      refine .inl ⟨old,new,⟨old_encodes,new_encodes⟩,?_,old_extended.trans new_extended⟩
      rw [UInt16.toNat_add, old_size, new_size]
      omega

/-! ## A sequence of routes -/

/-- How a route is appended: by the encoder on the packet itself, or behind a check of the size of the packet. -/
inductive Appending where
  | direct
  | limited (packet_limit : UInt16)
deriving DecidableEq, Repr

/-- One route for neighbors of both versions: whether it was appended, and the packet behind it. -/
def Appending.append (how : Appending) (afi : Afi) (outlet : Outlet) (route : Route) (pkt : Stream) : Bool × Stream :=
  match how with
  | .direct =>
    let (encoded, _, pkt) := pkt.packet_encoder_both afi outlet route
    (encoded != 0, pkt)
  | .limited packet_limit =>
    let (encoded, _, pkt) := pkt.packet_route_encode_append (Stream.packet_encoder_both afi outlet) packet_limit route
    (decide (0 < encoded), pkt)

/-- The routes that were appended, in order, and the packet behind all of them. -/
def mixed_packet (afi : Afi) (outlet : Outlet) : List (Appending × Route) → Stream → List Route × Stream
  | [], pkt => ([], pkt)
  | (how, route) :: routes, pkt =>
    let (appended, pkt) := how.append afi outlet route pkt
    let (sent, pkt) := mixed_packet afi outlet routes pkt
    (if appended then route :: sent else sent, pkt)

theorem append_spec (how : Appending) (afi : Afi) (outlet : Outlet) (route : Route) (pkt : Stream) :
    (∃ old new, (route.filtered outlet).Pair afi outlet.router_id old new ∧ (how.append afi outlet route pkt).1 = true ∧
        pkt.Extends (old.bytes ++ new.bytes) (how.append afi outlet route pkt).2) ∨
      (how.append afi outlet route pkt).1 = false ∧ pkt.Extends [] (how.append afi outlet route pkt).2 := by
  cases how with
  | direct =>
    rcases packet_encoder_both_spec afi outlet route pkt with ⟨old,new,pair,counted,extended⟩ | ⟨failed,restored⟩
    · refine .inl ⟨old,new,pair,?_,extended⟩
      simp only [Appending.append,bne_iff_ne,ne_eq]
      intro zero
      have short : 4 ≤ old.length := by simp [FramedTlv.length,tlv_hdr_size]
      rw [zero] at counted
      simp only [UInt16.toNat_zero] at counted
      omega
    · exact .inr ⟨by simp [Appending.append,failed],restored⟩
  | limited packet_limit =>
    simp only [Appending.append,Stream.packet_route_encode_append]
    by_cases closed : packet_limit = 0
    · rw [if_pos closed]
      exact .inr ⟨rfl,.refl pkt⟩
    · rw [if_neg closed]
      rcases packet_encoder_both_spec afi outlet route { data := List.replicate packet_limit.toNat 0 } with
        ⟨old,new,pair,counted,extended⟩ | ⟨failed,_⟩
      · generalize Stream.packet_encoder_both afi outlet route { data := List.replicate packet_limit.toNat 0 } = result
          at counted extended
        obtain ⟨encoded,behind_route,scratch⟩ := result
        simp only at counted extended ⊢
        have long : 4 ≤ old.length := by simp [FramedTlv.length,tlv_hdr_size]
        have some : encoded ≠ 0 := by
          intro zero
          rw [zero, UInt16.toNat_zero] at counted
          omega
        rw [if_neg some]
        by_cases full : pkt.endp + encoded.toNat > packet_limit.toNat
        · rw [if_pos full]
          exact .inr ⟨rfl,.refl pkt⟩
        · rw [if_neg full]
          have copied : scratch.data.take encoded.toNat = old.bytes ++ new.bytes := by
            have content := extended.content
            have endp := extended.endp
            simp only [List.length_append,FramedTlv.bytes_length,Nat.zero_add] at endp
            rw [counted, ← endp]
            exact content
          rw [copied]
          refine .inl ⟨old,new,pair,?_,(Stream.Extends.refl pkt).put _⟩
          simp only [decide_eq_true_eq]
          omega
      · simp only [failed,if_true]
        exact .inr ⟨rfl,.refl pkt⟩

/-! ## The two receivers -/

/-- The routes that a receiver with this decoder finds from its read position to the end of the packet. -/
def Codec.routes (codec : Codec) (afi : Afi) (src : Address) (pkt : Stream) : Option (List Tlv) :=
  receive_loop (codec.stream_decoder afi src true) (fun _ => false) (fun route routes => routes ++ [route]) pkt.remaining pkt []

theorem Codec.routes_frames (codec : Codec) (afi : Afi) (src : Address) {pkt : Stream} {frames : List FramedTlv}
    (unread : pkt.unread = packet_bytes frames) : codec.routes afi src pkt = some (codec.accepted afi src frames) := by
  have collected (tlvs done : List Tlv) : tlvs.foldl (fun routes route => routes ++ [route]) done = done ++ tlvs := by
    induction tlvs generalizing done with
    | nil => simp
    | cons tlv tlvs ih => rw [List.foldl_cons, ih, List.append_assoc, List.singleton_append]
  rw [Codec.routes, receive_loop_walk _ _ _ _ _ _ _ _ le_rfl, unread, skipping_walk_frames, apply_limited_never, collected,
    List.nil_append]

/-- What the receivers of the two TLVs of a route have in common. -/
structure Route.Agrees (route : Route) (afi : Afi) (old new : Tlv) : Prop where
  dest : old.dest = route.normalized afi ∧ new.dest = route.normalized afi
  external : old.external = new.external
  hop_count : old.metric.hop_count = new.metric.hop_count
  reliability : old.metric.reliability = new.metric.reliability
  load : old.metric.load = new.metric.load
  mtu : old.metric.mtu = new.metric.mtu
  delay : 0 < route.metric.delay.toNat → route.metric.delay.toNat * 256 < 2 ^ 32 → old.metric.delay = new.metric.delay
  bandwidth : route.metric.bandwidth.toNat < 2 ^ 32 → old.metric.bandwidth = new.metric.bandwidth

/-- The two encoders have the same idea of the class of a route. -/
theorem types_agree {route : Route} {afi : Afi} {old new : UInt16} (old_typed : route.tlv1_type afi = some old)
    (new_typed : route.tlv2_type afi = some new) : old = afi.classic_external_tlv_type ↔ new = tlv_mp_ext := by
  unfold Route.tlv1_type at old_typed
  unfold Route.tlv2_type at new_typed
  split_ifs at old_typed new_typed with internal external <;> cases old_typed <;> cases new_typed
  · exfalso
    rcases internal with same | same <;> rw [same] at external <;> revert external <;> cases afi <;> decide
  · cases afi <;> decide
  · cases afi <;> decide
  · rename_i is_external not_external _
    exact absurd (.inr is_external) not_external

theorem pair_agrees {route : Route} {afi : Afi} {router_id : UInt32} {old new : FramedTlv} (pair : route.Pair afi router_id old new)
    (src : Address) : route.Agrees afi (route.tlv1_arrived afi (decide (old.type = afi.classic_external_tlv_type)))
      (route.tlv2_arrived afi src router_id (decide (new.type = tlv_mp_ext))) := by
  have wide : (route.tlv2_arrived afi src router_id (decide (new.type = tlv_mp_ext))).metric = arrived .tlv2 route.metric := by
    cases afi <;> rfl
  refine ⟨⟨rfl,rfl⟩,decide_eq_decide.2 (types_agree pair.old.typed pair.new.typed),?_,?_,?_,?_,?_,?_⟩
  all_goals rw [wide]
  all_goals try rfl
  · intro positive small
    apply UInt64.toNat_inj.1
    simp only [Route.tlv1_arrived,arrived]
    rw [tlv1_delay_toNat, field48_toNat]
    split <;> omega
  · intro small
    apply UInt64.toNat_inj.1
    simp only [Route.tlv1_arrived,arrived]
    rw [UInt32.toNat_toUInt64, UInt64.toNat_toUInt32, field48_toNat]
    split <;> omega

/-- A decoder of either version passes over the TLV of the other. -/
theorem pair_skipped {route : Route} {afi : Afi} {router_id : UInt32} {old new : FramedTlv} (pair : route.Pair afi router_id old new)
    (src neighbor : Address) : Codec.tlv1.verdict afi src new = .skip ∧ Codec.tlv2.verdict afi neighbor old = .skip := by
  constructor
  · have foreign : ¬ (new.type = afi.classic_internal_tlv_type ∨ new.type = afi.classic_external_tlv_type) := by
      rcases (tlv2_type_iff pair.new.typed).1 with same | same <;> rw [same] <;> cases afi <;> decide
    exact if_neg foreign
  · have foreign : ¬ (old.type = tlv_mp_int ∨ old.type = tlv_mp_ext) := by
      rcases (tlv1_type_iff pair.old.typed).1 with same | same <;> rw [same] <;> cases afi <;> decide
    exact if_neg foreign

theorem Codec.accepted_route {codec : Codec} {afi : Afi} {src : Address} {frame : FramedTlv} {tlv : Tlv}
    (verdict : codec.verdict afi src frame = .route tlv) (frames : List FramedTlv) :
    codec.accepted afi src (frame :: frames) = tlv :: codec.accepted afi src frames := by
  simp [Codec.accepted,Codec.seen,verdict,Verdict.tlv]

theorem Codec.accepted_skip {codec : Codec} {afi : Afi} {src : Address} {frame : FramedTlv}
    (verdict : codec.verdict afi src frame = .skip) (frames : List FramedTlv) :
    codec.accepted afi src (frame :: frames) = codec.accepted afi src frames := by
  simp [Codec.accepted,Codec.seen,verdict,Verdict.tlv]

/-- A route that was appended, with its two TLVs. -/
structure Sent where
  route : Route
  old : FramedTlv
  new : FramedTlv

def sent_frames (sent : List Sent) : List FramedTlv := sent.flatMap fun pair => [pair.old, pair.new]

theorem mixed_packet_spec (afi : Afi) (outlet : Outlet) (routes : List (Appending × Route)) (pkt : Stream) :
    ∃ sent : List Sent, sent.map Sent.route = (mixed_packet afi outlet routes pkt).1 ∧
      (∀ pair ∈ sent, pair.route ∈ routes.map Prod.snd ∧ (pair.route.filtered outlet).Pair afi outlet.router_id pair.old pair.new) ∧
      pkt.Extends (packet_bytes (sent_frames sent)) (mixed_packet afi outlet routes pkt).2 := by
  induction routes generalizing pkt with
  | nil => exact ⟨[],rfl,by simp,.refl pkt⟩
  | cons route routes ih =>
    obtain ⟨how,route⟩ := route
    obtain ⟨sent,same,pairs,extended⟩ := ih (how.append afi outlet route pkt).2
    simp only [mixed_packet]
    rcases append_spec how afi outlet route pkt with ⟨old,new,pair,appended,first⟩ | ⟨failed,restored⟩
    · refine ⟨⟨route,old,new⟩ :: sent,?_,?_,?_⟩
      · rw [if_pos appended, List.map_cons, same]
      · intro other among
        rcases List.mem_cons.1 among with rfl | among
        · exact ⟨by simp,pair⟩
        · exact ⟨List.mem_cons_of_mem _ (pairs other among).1,(pairs other among).2⟩
      · have octets : packet_bytes (sent_frames (⟨route,old,new⟩ :: sent)) =
            (old.bytes ++ new.bytes) ++ packet_bytes (sent_frames sent) := by simp [packet_bytes,sent_frames]
        rw [octets]
        exact first.trans extended
    · refine ⟨sent,?_,?_,restored.trans extended⟩
      · rw [if_neg (by simp [failed]), same]
      · intro other among
        exact ⟨List.mem_cons_of_mem _ (pairs other among).1,(pairs other among).2⟩

/-- What the two receivers find of a route. -/
structure Landed where
  route : Route
  old : Tlv
  new : Tlv

theorem sent_arrives {afi : Afi} {outlet : Outlet} (src neighbor : Address) (sent : List Sent)
    (pairs : ∀ pair ∈ sent, (pair.route.filtered outlet).Pair afi outlet.router_id pair.old pair.new ∧
      pair.route.dest.address.toNat < 2 ^ pair.route.dest_afi.max_bitlen) :
    ∃ landed : List Landed, landed.map Landed.route = sent.map Sent.route ∧
      Codec.tlv1.accepted afi src (sent_frames sent) = landed.map Landed.old ∧
      Codec.tlv2.accepted afi neighbor (sent_frames sent) = landed.map Landed.new ∧
      ∀ route_landed ∈ landed, (route_landed.route.filtered outlet).Agrees afi route_landed.old route_landed.new := by
  induction sent with
  | nil => exact ⟨[],rfl,rfl,rfl,by simp⟩
  | cons first sent ih =>
    obtain ⟨landed,same,old_found,new_found,agree⟩ := ih fun pair among => pairs pair (List.mem_cons_of_mem _ among)
    obtain ⟨pair,fits⟩ := pairs first (List.mem_cons_self)
    have kept : (first.route.filtered outlet).dest = first.route.dest ∧ (first.route.filtered outlet).dest_afi = first.route.dest_afi := by
      unfold Route.filtered
      split <;> exact ⟨rfl,rfl⟩
    have valid : (first.route.filtered outlet).DestValid afi := by
      obtain ⟨nexthop,dest,_,encoded,_⟩ := pair.old.body
      unfold Afi.packet_prefix_encode at encoded
      split_ifs at encoded with valid
      refine ⟨valid.1,valid.2,?_⟩
      rw [kept.1, ← valid.1, kept.2]
      exact fits
    have agrees := pair_agrees pair neighbor
    have old_verdict : Codec.tlv1.verdict afi src first.old = _ := tlv1_frame_verdict pair.old valid
    have new_verdict : Codec.tlv2.verdict afi neighbor first.new = _ := tlv2_frame_verdict pair.new valid neighbor
    generalize (first.route.filtered outlet).tlv1_arrived afi _ = old at agrees old_verdict
    generalize (first.route.filtered outlet).tlv2_arrived afi neighbor outlet.router_id _ = new at agrees new_verdict
    obtain ⟨new_skipped,old_skipped⟩ := pair_skipped pair src neighbor
    have frames : sent_frames (first :: sent) = first.old :: first.new :: sent_frames sent := rfl
    refine ⟨⟨first.route,old,new⟩ :: landed,?_,?_,?_,?_⟩
    · rw [List.map_cons, List.map_cons, same]
    · rw [frames, Codec.accepted_route old_verdict, Codec.accepted_skip new_skipped, old_found, List.map_cons]
    · rw [frames, Codec.accepted_skip old_skipped, Codec.accepted_route new_verdict, new_found, List.map_cons]
    · intro route_landed among
      rcases List.mem_cons.1 among with rfl | among
      · exact agrees
      · exact agree route_landed among

/-- A neighbor of each version finds the routes of a packet in the order in which they were appended, each once, and the two agree
    on every one; an encoder that fails leaves the packet as it was. -/
theorem mixed_versions_agree (afi : Afi) (outlet : Outlet) (src neighbor : Address) (routes : List (Appending × Route)) (pkt : Stream)
    (fits : ∀ route ∈ routes, route.2.dest.address.toNat < 2 ^ route.2.dest_afi.max_bitlen) :
    (∃ landed : List Landed, landed.map Landed.route = (mixed_packet afi outlet routes pkt).1 ∧
      Codec.tlv1.routes afi src ((mixed_packet afi outlet routes pkt).2.set_getp pkt.endp) = some (landed.map Landed.old) ∧
      Codec.tlv2.routes afi neighbor ((mixed_packet afi outlet routes pkt).2.set_getp pkt.endp) = some (landed.map Landed.new) ∧
      ∀ route_landed ∈ landed, (route_landed.route.filtered outlet).Agrees afi route_landed.old route_landed.new) ∧
    (∀ (route : Route) (pkt : Stream), (pkt.tlv1_encoder afi outlet route).1 = 0 ∨
        ((pkt.tlv1_encoder afi outlet route).2.2.tlv2_encoder afi outlet (pkt.tlv1_encoder afi outlet route).2.1).1 = 0 →
      (pkt.packet_encoder_both afi outlet route).1 = 0) ∧
    ∀ (how : Appending) (route : Route) (pkt : Stream), (how.append afi outlet route pkt).1 = false →
      (how.append afi outlet route pkt).2.content = pkt.content ∧ (how.append afi outlet route pkt).2.endp = pkt.endp := by
  refine ⟨?_,?_,?_⟩
  · obtain ⟨sent,same,pairs,extended⟩ := mixed_packet_spec afi outlet routes pkt
    have unread : ((mixed_packet afi outlet routes pkt).2.set_getp pkt.endp).unread = packet_bytes (sent_frames sent) := by
      have content := extended.content
      rw [Stream.content] at content
      rw [Stream.unread_set_getp, content, List.drop_left' pkt.content_length]
    obtain ⟨landed,arrived,old_found,new_found,agree⟩ := sent_arrives src neighbor sent fun pair among => by
      obtain ⟨member,encodes⟩ := pairs pair among
      obtain ⟨appended,among_routes,is_route⟩ := List.mem_map.1 member
      exact ⟨encodes,by rw [← is_route]; exact fits appended among_routes⟩
    exact ⟨landed,arrived.trans same,by rw [Codec.routes_frames _ _ _ unread, old_found],
      by rw [Codec.routes_frames _ _ _ unread, new_found],agree⟩
  · intro route pkt failed
    simp only [Stream.packet_encoder_both]
    rw [if_pos failed]
  · intro how route pkt failed
    rcases append_spec how afi outlet route pkt with ⟨_,_,_,appended,_⟩ | ⟨_,restored⟩
    · rw [appended] at failed
      cases failed
    · exact ⟨by rw [restored.content, List.append_nil],by rw [restored.endp, List.length_nil, Nat.add_zero]⟩

/-- An internal and an external route, and one of the other family that neither encoder takes. -/
def three_routes : List (Appending × Route) :=
  [(.direct,{ type := eigrp_int, dest_afi := .ipv4, dest := ⟨0x0a000000,8⟩, metric := { delay := 10, bandwidth := 100 } }),
   (.limited 1400,{ type := eigrp_int, dest_afi := .ipv6, dest := ⟨0,0⟩ }),
   (.limited 1400,{ type := eigrp_ext, dest_afi := .ipv4, dest := ⟨0xc0000200,24⟩, metric := { delay := 20, bandwidth := 200 } })]

theorem mixed_versions_agree_three : (mixed_packet .ipv4 {} three_routes {}).1.length = 2 ∧
    ∃ landed : List Landed, landed.map Landed.route = (mixed_packet .ipv4 {} three_routes {}).1 ∧
      Codec.tlv1.routes .ipv4 1 ((mixed_packet .ipv4 {} three_routes {}).2.set_getp 0) = some (landed.map Landed.old) ∧
      Codec.tlv2.routes .ipv4 2 ((mixed_packet .ipv4 {} three_routes {}).2.set_getp 0) = some (landed.map Landed.new) ∧
      ∀ route_landed ∈ landed, (route_landed.route.filtered {}).Agrees .ipv4 route_landed.old route_landed.new :=
  ⟨by decide +kernel,(mixed_versions_agree .ipv4 {} 1 2 three_routes {} (by decide)).1⟩

end Eigrp
