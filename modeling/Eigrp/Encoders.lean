import Eigrp.Decoders
import Eigrp.Poison

/-!
# Encoders on streams

The two route encoders append a TLV behind the content of a stream and patch its length, or leave the content as it was.
What they append is a framed TLV, computed here from the route alone.
-/

namespace Eigrp
open Eigrp.Lib

/-- What the codec reads of an `eigrp_route_descriptor_t`. The type is a class of DUAL or the type of a TLV; an address
    without a family is taken for one of the instance's. -/
structure Route where
  type : UInt16
  topology_id : UInt16 := 0
  dest_afi : Afi
  dest : Prefix
  nexthop_afi : Option Afi := none
  nexthop : Address := 0
  metric : Metrics := {}
  extdata : ExtData := {}
deriving DecidableEq, Repr

/-- What an encoder asks of its surroundings: whether there is an interface, the verdict of its outbound filter, and the
    router id. -/
structure Outlet where
  ei : Bool := true
  filter_prefix_update : Prefix → Bool := fun _ => false
  router_id : UInt32 := 0

def eigrp_int : UInt16 := 1
def eigrp_ext : UInt16 := 2

/-- `eigrp_tlv1_route_tlv_type`. -/
def Route.tlv1_type (route : Route) (afi : Afi) : Option UInt16 :=
  if route.type = eigrp_int ∨ route.type = afi.classic_internal_tlv_type then some afi.classic_internal_tlv_type
  else if route.type = eigrp_ext ∨ route.type = afi.classic_external_tlv_type then some afi.classic_external_tlv_type
  else none

/-- `eigrp_tlv2_route_tlv_type`. -/
def Route.tlv2_type (route : Route) (afi : Afi) : Option UInt16 :=
  if route.type = tlv_mp_ext ∨ route.type = eigrp_ext ∨ route.type = afi.classic_external_tlv_type then some tlv_mp_ext
  else if route.type = tlv_mp_int ∨ route.type = eigrp_int ∨ route.type = afi.classic_internal_tlv_type then some tlv_mp_int
  else none

/-- A denied route is sent unreachable. -/
def Route.filtered (route : Route) (outlet : Outlet) : Route :=
  if outlet.ei ∧ outlet.filter_prefix_update route.dest then { route with metric := poisoned route.metric } else route

/-! ## Fields -/

/-- `eigrp_tlv1_external_encode`. -/
def tlv1_external_encode (extdata : ExtData) : List UInt8 :=
  stream_putl extdata.orig ++ (stream_putl extdata.as ++ (stream_putl extdata.tag ++ (stream_putl extdata.metric ++
    (stream_putw extdata.reserved ++ (stream_putc extdata.protocol ++ stream_putc extdata.flags)))))

/-- `eigrp_tlv2_external_encode`. -/
def tlv2_external_encode (router_id : UInt32) (extdata : ExtData) : List UInt8 :=
  stream_putl (if extdata.orig ≠ 0 then extdata.orig else router_id) ++ (stream_putl extdata.as ++ (stream_putl extdata.metric ++
    (stream_putw extdata.reserved ++ (stream_putc extdata.protocol ++ stream_putc extdata.flags))))

/-- The `packet_address_encode` of the family. -/
def Afi.packet_address_encode (afi : Afi) (route : Route) : Option (List UInt8) :=
  if route.nexthop_afi = none ∨ route.nexthop_afi = some afi then some (put afi.packet_address_bytes route.nexthop.toNat) else none

/-- The `packet_prefix_encode` of the family: the octets of the address that the prefix length covers. -/
def Afi.packet_prefix_encode (afi : Afi) (route : Route) : Option (List UInt8) :=
  if route.dest_afi = afi ∧ route.dest.prefix_length.toNat ≤ afi.max_bitlen then
    let normalized := afi.prefix_normalize route.dest.address.toNat route.dest.prefix_length
    let address_length := afi.prefix_bytes normalized.prefix_length.toNat
    some (stream_putc normalized.prefix_length ++
      put address_length (normalized.address.toNat / 256 ^ (afi.packet_address_bytes - address_length)))
  else none

/-! ## Encoders -/

namespace Stream

/-- What both encoders do when the whole TLV is appended. -/
def length_patch (pkt : Stream) (tlv_start : Nat) : UInt16 × Stream :=
  let tlv_end := pkt.endp
  let length := UInt16.ofNat (tlv_end - tlv_start)
  (length, ((pkt.set_endp (tlv_start + 2)).put (stream_putw length)).set_endp tlv_end)

/-- `eigrp_tlv1_encoder`: the length of the TLV, or zero; the route with what the filter made of it. -/
def tlv1_encoder (afi : Afi) (outlet : Outlet) (route : Route) (pkt : Stream) : UInt16 × Route × Stream :=
  let route := route.filtered outlet
  match route.tlv1_type afi with
  | none => (0, route, pkt)
  | some type =>
    let tlv_start := pkt.endp
    let pkt := (pkt.put (stream_putw type)).put (stream_putw 0)
    match afi.packet_address_encode route with
    | none => (0, route, pkt.set_endp tlv_start)
    | some nexthop =>
      let pkt := pkt.put nexthop
      let pkt := if type = afi.classic_external_tlv_type then pkt.put (tlv1_external_encode route.extdata) else pkt
      let pkt := pkt.put (tlv1_metric_encode route.metric)
      match afi.packet_prefix_encode route with
      | none => (0, route, pkt.set_endp tlv_start)
      | some dest =>
        let (length, pkt) := (pkt.put dest).length_patch tlv_start
        (length, route, pkt)

/-- `eigrp_tlv2_encoder`. The attribute of an IPv6 route takes its next hop. -/
def tlv2_encoder (afi : Afi) (outlet : Outlet) (route : Route) (pkt : Stream) : UInt16 × Route × Stream :=
  if ¬ outlet.ei then (0, route, pkt)
  else
    let route := route.filtered outlet
    match route.tlv2_type afi with
    | none => (0, route, pkt)
    | some type =>
      let tlv_start := pkt.endp
      let pkt := (pkt.put (stream_putw type)).put (stream_putw 0)
      let pkt := ((pkt.put (stream_putw afi.multiprotocol_afi)).put (stream_putw route.topology_id)).put (stream_putl outlet.router_id)
      if afi = .ipv6 ∧ (afi.packet_address_encode route).isNone then (0, route, pkt.set_endp tlv_start)
      else
        let external := type == tlv_mp_ext
        let pkt := pkt.put (tlv2_metric_encode afi outlet.router_id
          { metric := route.metric, nexthop := route.nexthop, extdata := route.extdata } external)
        let pkt := if external then pkt.put (tlv2_external_encode outlet.router_id route.extdata) else pkt
        match afi.packet_prefix_encode route with
        | none => (0, route, pkt.set_endp tlv_start)
        | some dest =>
          let (length, pkt) := (pkt.put dest).length_patch tlv_start
          (length, route, pkt)

/-- `eigrp_packet_encoder_both`. -/
def packet_encoder_both (afi : Afi) (outlet : Outlet) (route : Route) (pkt : Stream) : UInt16 × Route × Stream :=
  let start := pkt.endp
  let (len1, route, pkt) := pkt.tlv1_encoder afi outlet route
  let (len2, route, pkt) := pkt.tlv2_encoder afi outlet route
  if len1 = 0 ∨ len2 = 0 then (0, route, pkt.set_endp start) else (len1 + len2, route, pkt)

/-! ## The content of a stream -/

/-- The octets that have been written. -/
def content (pkt : Stream) : List UInt8 := pkt.data.take pkt.endp

theorem content_length (pkt : Stream) : pkt.content.length = pkt.endp := by
  rw [content, List.length_take, min_eq_left pkt.allocated]

theorem ensure_take (pkt : Stream) (needed : Nat) {n : Nat} (within : n ≤ pkt.data.length) :
    (pkt.ensure needed).take n = pkt.data.take n := by
  rw [ensure, List.take_append_of_le_length within]

@[simp] theorem put_content (pkt : Stream) (src : List UInt8) : (pkt.put src).content = pkt.content ++ src := by
  have space := pkt.ensure_length (pkt.endp + src.length)
  have length : ((pkt.ensure (pkt.endp + src.length)).take pkt.endp).length = pkt.endp := by
    rw [List.length_take]
    omega
  simp only [content,put]
  rw [List.take_append, length, List.take_of_length_le (by omega), Nat.add_sub_cancel_left, List.take_left,
    ensure_take _ _ pkt.allocated]

@[simp] theorem put_endp (pkt : Stream) (src : List UInt8) : (pkt.put src).endp = pkt.endp + src.length := rfl
@[simp] theorem put_getp (pkt : Stream) (src : List UInt8) : (pkt.put src).getp = pkt.getp := rfl
@[simp] theorem set_endp_endp (pkt : Stream) (position : Nat) : (pkt.set_endp position).endp = position := rfl

theorem set_endp_getp (pkt : Stream) {position : Nat} (behind : pkt.getp ≤ position) : (pkt.set_endp position).getp = pkt.getp := by
  simp only [set_endp]
  rw [if_neg (by omega)]

/-- Setting the end back leaves the octets in front of it. -/
theorem set_endp_content (pkt : Stream) {position : Nat} (within : position ≤ pkt.endp) :
    (pkt.set_endp position).content = pkt.content.take position := by
  have allocated := pkt.allocated
  simp only [content,set_endp]
  rw [ensure_take _ _ (by omega), List.take_take, min_eq_left within]

/-- Octets written over the content at a position, and the end set back to where it was. -/
theorem overwrite_content (pkt : Stream) {start : Nat} {src : List UInt8} (within : start + src.length ≤ pkt.endp) :
    (((pkt.set_endp start).put src).set_endp pkt.endp).content = pkt.content.take start ++ (src ++ pkt.content.drop (start + src.length)) := by
  have allocated := pkt.allocated
  have shrunk : (pkt.set_endp start).data = pkt.data := ensure_within _ (by omega)
  have space : (pkt.set_endp start).ensure (start + src.length) = pkt.data := by
    rw [ensure_within _ (by rw [shrunk]; omega), shrunk]
  have written : ((pkt.set_endp start).put src).data = pkt.data.take start ++ (src ++ pkt.data.drop (start + src.length)) := by
    simp only [put,set_endp_endp,space]
  have size : ((pkt.set_endp start).put src).data.length = pkt.data.length := by
    rw [written, List.length_append, List.length_append, List.length_take, List.length_drop]
    omega
  have set_back : (((pkt.set_endp start).put src).set_endp pkt.endp).data = ((pkt.set_endp start).put src).data :=
    ensure_within _ (by rw [size]; omega)
  have front : (pkt.data.take start).length = start := by
    rw [List.length_take]
    omega
  rw [content, set_back, written, set_endp_endp, List.take_append, front, List.take_of_length_le (by omega), List.take_append,
    List.take_of_length_le (show src.length ≤ pkt.endp - start by omega), content, List.take_take, min_eq_left (by omega), List.drop_take, Nat.sub_add_eq]

/-- A TLV with its length in it: what the content goes on with behind the patch. -/
theorem length_patch_content (pkt : Stream) {before : List UInt8} (frame : FramedTlv)
    (content : pkt.content = before ++ (stream_putw frame.type ++ (stream_putw 0 ++ frame.body))) :
    (pkt.length_patch before.length).1 = UInt16.ofNat frame.length ∧
      (pkt.length_patch before.length).2.content = before ++ frame.bytes := by
  have type_length : (stream_putw frame.type).length = 2 := put_length _ _
  have zero_length : (stream_putw 0).length = 2 := put_length _ _
  have size : pkt.endp = before.length + frame.length := by
    rw [← content_length, content]
    simp only [List.length_append,type_length,zero_length,FramedTlv.length,tlv_hdr_size]
    omega
  have length : UInt16.ofNat (pkt.endp - before.length) = UInt16.ofNat frame.length := by rw [size, Nat.add_sub_cancel_left]
  refine ⟨length,?_⟩
  have patch_length : (stream_putw (UInt16.ofNat (pkt.endp - before.length))).length = 2 := put_length _ _
  have long : tlv_hdr_size ≤ frame.length := by simp [FramedTlv.length]
  simp only [tlv_hdr_size] at long
  rw [length_patch, overwrite_content pkt (by omega), patch_length, content]
  have front : (before ++ (stream_putw frame.type ++ (stream_putw 0 ++ frame.body))).take (before.length + 2) =
      before ++ stream_putw frame.type := by
    rw [← List.append_assoc, List.take_left' (by rw [List.length_append, type_length])]
  have back : (before ++ (stream_putw frame.type ++ (stream_putw 0 ++ frame.body))).drop (before.length + 2 + 2) = frame.body := by
    rw [← List.append_assoc, ← List.append_assoc, List.drop_left' (by simp only [List.length_append,type_length,zero_length])]
  rw [front, back, length, FramedTlv.bytes, List.append_assoc]

theorem length_patch_getp (pkt : Stream) {start : Nat} (before : pkt.getp ≤ start) (within : start + 2 ≤ pkt.endp) :
    (pkt.length_patch start).2.getp = pkt.getp := by
  simp only [length_patch]
  rw [set_endp_getp, put_getp, set_endp_getp]
  · omega
  · rw [put_getp, set_endp_getp _ (by omega)]
    omega

end Stream

/-! ## Framed TLVs -/

/-- What the classic encoder appends. -/
def Route.tlv1_body (route : Route) (afi : Afi) (type : UInt16) (nexthop dest : List UInt8) : List UInt8 :=
  nexthop ++ ((if type = afi.classic_external_tlv_type then tlv1_external_encode route.extdata else []) ++
    (tlv1_metric_encode route.metric ++ dest))

/-- What the wide encoder appends. -/
def Route.tlv2_body (route : Route) (afi : Afi) (router_id : UInt32) (type : UInt16) (dest : List UInt8) : List UInt8 :=
  stream_putw afi.multiprotocol_afi ++ (stream_putw route.topology_id ++ (stream_putl router_id ++
    (tlv2_metric_encode afi router_id { metric := route.metric, nexthop := route.nexthop, extdata := route.extdata } (type == tlv_mp_ext) ++
    ((if type = tlv_mp_ext then tlv2_external_encode router_id route.extdata else []) ++ dest))))

/-- The TLV that the classic encoder appends for a route. -/
structure Route.Tlv1Frame (route : Route) (afi : Afi) (frame : FramedTlv) : Prop where
  typed : route.tlv1_type afi = some frame.type
  body : ∃ nexthop dest, afi.packet_address_encode route = some nexthop ∧ afi.packet_prefix_encode route = some dest ∧
    frame.body = route.tlv1_body afi frame.type nexthop dest

/-- The TLV that the wide encoder appends for a route. -/
structure Route.Tlv2Frame (route : Route) (afi : Afi) (router_id : UInt32) (frame : FramedTlv) : Prop where
  typed : route.tlv2_type afi = some frame.type
  addressed : afi = .ipv6 → (afi.packet_address_encode route).isSome
  body : ∃ dest, afi.packet_prefix_encode route = some dest ∧ frame.body = route.tlv2_body afi router_id frame.type dest

theorem packet_address_encode_length {afi : Afi} {route : Route} {nexthop : List UInt8}
    (encodes : afi.packet_address_encode route = some nexthop) : nexthop.length = afi.packet_address_bytes := by
  unfold Afi.packet_address_encode at encodes
  split at encodes
  · cases encodes
    exact put_length _ _
  · cases encodes

theorem packet_address_bytes_le (afi : Afi) : afi.packet_address_bytes ≤ 16 := by cases afi <;> decide

theorem prefix_bytes_le (afi : Afi) {prefix_length : Nat} (valid : prefix_length ≤ afi.max_bitlen) :
    afi.prefix_bytes prefix_length ≤ afi.packet_address_bytes := by
  cases afi <;> simp only [Afi.prefix_bytes,Afi.max_bitlen,Afi.packet_address_bytes] at * <;> split_ifs <;> omega

theorem packet_prefix_encode_length {afi : Afi} {route : Route} {dest : List UInt8}
    (encodes : afi.packet_prefix_encode route = some dest) : dest.length ≤ 17 := by
  unfold Afi.packet_prefix_encode at encodes
  split at encodes
  · rename_i valid
    cases encodes
    have bytes := prefix_bytes_le afi valid.2
    have address := packet_address_bytes_le afi
    simp only [List.length_append,put_length,stream_putc,List.length_singleton,Afi.prefix_normalize]
    omega
  · cases encodes

theorem tlv1_external_encode_length (extdata : ExtData) : (tlv1_external_encode extdata).length = 20 := by
  simp [tlv1_external_encode,stream_putl,stream_putw,stream_putc]

theorem tlv2_external_encode_length (router_id : UInt32) (extdata : ExtData) :
    (tlv2_external_encode router_id extdata).length = 16 := by
  simp [tlv2_external_encode,stream_putl,stream_putw,stream_putc]

theorem tlv1_metric_encode_length (metric : Metrics) : (tlv1_metric_encode metric).length = 16 := by
  simp [tlv1_metric_encode,stream_putl,stream_putc]

theorem tlv2_metric_encode_length (afi : Afi) (router_id : UInt32) (route : TlvRoute) (external : Bool) :
    24 ≤ (tlv2_metric_encode afi router_id route external).length ∧ (tlv2_metric_encode afi router_id route external).length ≤ 52 := by
  have data := tlv2_addpath_data_length .ipv6 router_id route external
  cases afi <;> cases external <;>
    simp [tlv2_metric_encode,tlv2_section_encode,tlv2_addpath_encode,data,tlv2_addpath_data_len,Afi.packet_address_bytes,stream_putc,
      stream_putw,tlv2_put48]

/-- A TLV is far shorter than its length field can say. -/
theorem Route.tlv1_body_length {route : Route} {afi : Afi} {type : UInt16} {nexthop dest : List UInt8}
    (addressed : afi.packet_address_encode route = some nexthop) (encoded : afi.packet_prefix_encode route = some dest) :
    tlv_hdr_size + (route.tlv1_body afi type nexthop dest).length < 2 ^ 8 := by
  have nexthop_length := packet_address_encode_length addressed
  have address := packet_address_bytes_le afi
  have dest_length := packet_prefix_encode_length encoded
  have extdata := tlv1_external_encode_length route.extdata
  have metric := tlv1_metric_encode_length route.metric
  simp only [Route.tlv1_body,List.length_append,tlv_hdr_size]
  split
  · omega
  · rw [List.length_nil]
    omega

theorem Route.tlv2_body_length {route : Route} {afi : Afi} {router_id : UInt32} {type : UInt16} {dest : List UInt8}
    (encoded : afi.packet_prefix_encode route = some dest) :
    tlv_hdr_size + (route.tlv2_body afi router_id type dest).length < 2 ^ 8 := by
  have dest_length := packet_prefix_encode_length encoded
  have extdata := tlv2_external_encode_length router_id route.extdata
  have metric := tlv2_metric_encode_length afi router_id { metric := route.metric, nexthop := route.nexthop, extdata := route.extdata }
    (type == tlv_mp_ext)
  simp only [Route.tlv2_body,List.length_append,stream_putw,stream_putl,put_length,tlv_hdr_size]
  split
  · omega
  · rw [List.length_nil]
    omega

theorem Route.Tlv1Frame.length_lt {route : Route} {afi : Afi} {frame : FramedTlv} (encodes : route.Tlv1Frame afi frame) :
    frame.length < 2 ^ 8 := by
  obtain ⟨nexthop,dest,addressed,encoded,body⟩ := encodes.body
  rw [FramedTlv.length, body]
  exact Route.tlv1_body_length addressed encoded

theorem Route.Tlv2Frame.length_lt {route : Route} {afi : Afi} {router_id : UInt32} {frame : FramedTlv}
    (encodes : route.Tlv2Frame afi router_id frame) : frame.length < 2 ^ 8 := by
  obtain ⟨dest,encoded,body⟩ := encodes.body
  rw [FramedTlv.length, body]
  exact Route.tlv2_body_length encoded

/-- A TLV is not of length zero. -/
theorem FramedTlv.length_ne_zero (frame : FramedTlv) : UInt16.ofNat frame.length ≠ 0 ∧ (UInt16.ofNat frame.length).toNat = frame.length := by
  have fits : frame.length < 2 ^ 16 := frame.fits
  have length : (UInt16.ofNat frame.length).toNat = frame.length := UInt16.toNat_ofNat_of_lt' fits
  refine ⟨?_,length⟩
  intro zero
  rw [zero] at length
  simp [FramedTlv.length,tlv_hdr_size] at length
  omega

/-! ## What the encoders append -/

namespace Stream

/-- A stream behind writing: its content goes on with octets, and it is read where it was. -/
structure Extends (pkt : Stream) (src : List UInt8) (longer : Stream) : Prop where
  content : longer.content = pkt.content ++ src
  getp : longer.getp = pkt.getp

theorem Extends.refl (pkt : Stream) : Extends pkt [] pkt := ⟨by simp,rfl⟩

theorem Extends.put {pkt longer : Stream} {src : List UInt8} (extended : Extends pkt src longer) (more : List UInt8) :
    Extends pkt (src ++ more) (longer.put more) :=
  ⟨by rw [put_content, extended.content, List.append_assoc],extended.getp⟩

theorem Extends.put_if {pkt longer : Stream} {src : List UInt8} (extended : Extends pkt src longer) (wanted : Prop) [Decidable wanted]
    (more : List UInt8) : Extends pkt (src ++ if wanted then more else []) (if wanted then longer.put more else longer) := by
  by_cases yes : wanted
  · rw [if_pos yes, if_pos yes]
    exact extended.put more
  · rw [if_neg yes, if_neg yes, List.append_nil]
    exact extended

theorem Extends.endp {pkt longer : Stream} {src : List UInt8} (extended : Extends pkt src longer) :
    longer.endp = pkt.endp + src.length := by
  rw [← content_length, extended.content, List.length_append, content_length]

/-- What was written is gone when the end is set back. -/
theorem Extends.restored {pkt longer : Stream} {src : List UInt8} (extended : Extends pkt src longer) :
    Extends pkt [] (longer.set_endp pkt.endp) := by
  have ordered := pkt.ordered
  have endp := extended.endp
  refine ⟨?_,?_⟩
  · rw [set_endp_content _ (by omega), extended.content, List.take_left' pkt.content_length, List.append_nil]
  · rw [set_endp_getp _ (by rw [extended.getp]; omega), extended.getp]

/-- The length of the TLV takes the place of the zero that was written for it. -/
theorem Extends.patched {pkt longer : Stream} (frame : FramedTlv)
    (extended : Extends pkt (stream_putw frame.type ++ (stream_putw 0 ++ frame.body)) longer) :
    (longer.length_patch pkt.endp).1 = UInt16.ofNat frame.length ∧ Extends pkt frame.bytes (longer.length_patch pkt.endp).2 := by
  have ordered := pkt.ordered
  have endp := extended.endp
  obtain ⟨length,patched⟩ := length_patch_content longer frame extended.content
  rw [content_length] at length patched
  simp only [List.length_append,stream_putw,put_length] at endp
  refine ⟨length,patched,?_⟩
  rw [length_patch_getp _ (by rw [extended.getp]; omega) (by omega), extended.getp]

/-- What a call of an encoder comes to: a TLV and its length, or zero and the content as it was. -/
structure Outcome (pkt : Stream) (frames : FramedTlv → Prop) (length : UInt16) (behind : Stream) : Prop where
  appends : length ≠ 0 → ∃ frame, frames frame ∧ length = UInt16.ofNat frame.length ∧ Extends pkt frame.bytes behind
  fails : length = 0 → (∀ frame, ¬ frames frame) ∧ Extends pkt [] behind

theorem Outcome.of_frame {pkt behind : Stream} {frames : FramedTlv → Prop} {frame : FramedTlv} {length : UInt16}
    (encodes : frames frame) (counted : length = UInt16.ofNat frame.length) (extended : Extends pkt frame.bytes behind) :
    Outcome pkt frames length behind where
  appends := fun _ => ⟨frame,encodes,counted,extended⟩
  fails := fun zero => absurd (counted.symm.trans zero) frame.length_ne_zero.1

theorem Outcome.of_failure {pkt behind : Stream} {frames : FramedTlv → Prop} (none : ∀ frame, ¬ frames frame)
    (restored : Extends pkt [] behind) : Outcome pkt frames 0 behind where
  appends := fun nonzero => absurd rfl nonzero
  fails := fun _ => ⟨none,restored⟩

theorem tlv1_encoder_spec (afi : Afi) (outlet : Outlet) (route : Route) (pkt : Stream) :
    (pkt.tlv1_encoder afi outlet route).2.1 = route.filtered outlet ∧
      Outcome pkt ((route.filtered outlet).Tlv1Frame afi) (pkt.tlv1_encoder afi outlet route).1
        (pkt.tlv1_encoder afi outlet route).2.2 := by
  unfold tlv1_encoder
  simp only
  generalize route.filtered outlet = route
  cases typed : route.tlv1_type afi with
  | none =>
    refine ⟨rfl,.of_failure ?_ (.refl pkt)⟩
    intro frame encodes
    rw [encodes.typed] at typed
    cases typed
  | some type =>
    have header := ((Extends.refl pkt).put (stream_putw type)).put (stream_putw 0)
    cases addressed : afi.packet_address_encode route with
    | none =>
      refine ⟨rfl,.of_failure ?_ header.restored⟩
      rintro frame ⟨_,nexthop,dest,some,_,_⟩
      rw [addressed] at some
      cases some
    | some nexthop =>
      have vector := ((header.put nexthop).put_if (type = afi.classic_external_tlv_type) (tlv1_external_encode route.extdata)).put
        (tlv1_metric_encode route.metric)
      cases encoded : afi.packet_prefix_encode route with
      | none =>
        refine ⟨rfl,.of_failure ?_ vector.restored⟩
        rintro frame ⟨_,nexthop,dest,_,some,_⟩
        rw [encoded] at some
        cases some
      | some dest =>
        let frame : FramedTlv := ⟨type,route.tlv1_body afi type nexthop dest,
          (Route.tlv1_body_length addressed encoded).trans (by decide)⟩
        have whole := vector.put dest
        simp only [List.append_assoc,List.nil_append] at whole
        obtain ⟨length,patched⟩ := Extends.patched frame whole
        exact ⟨rfl,.of_frame ⟨typed,nexthop,dest,addressed,encoded,rfl⟩ length patched⟩

theorem tlv2_encoder_spec (afi : Afi) {outlet : Outlet} (route : Route) (pkt : Stream) (interface : outlet.ei = true) :
    (pkt.tlv2_encoder afi outlet route).2.1 = route.filtered outlet ∧
      Outcome pkt ((route.filtered outlet).Tlv2Frame afi outlet.router_id) (pkt.tlv2_encoder afi outlet route).1
        (pkt.tlv2_encoder afi outlet route).2.2 := by
  unfold tlv2_encoder
  rw [if_neg (by simp [interface])]
  simp only
  generalize route.filtered outlet = route
  cases typed : route.tlv2_type afi with
  | none =>
    refine ⟨rfl,.of_failure ?_ (.refl pkt)⟩
    intro frame encodes
    rw [encodes.typed] at typed
    cases typed
  | some type =>
    have header := ((((Extends.refl pkt).put (stream_putw type)).put (stream_putw 0)).put (stream_putw afi.multiprotocol_afi)).put
      (stream_putw route.topology_id) |>.put (stream_putl outlet.router_id)
    by_cases unaddressed : afi = .ipv6 ∧ (afi.packet_address_encode route).isNone
    · simp only [if_pos unaddressed]
      refine ⟨trivial,.of_failure ?_ header.restored⟩
      intro frame encodes
      have addressed := encodes.addressed unaddressed.1
      rw [Option.isNone_iff_eq_none.1 unaddressed.2] at addressed
      cases addressed
    · simp only [if_neg unaddressed,beq_iff_eq]
      have addressed : afi = .ipv6 → (afi.packet_address_encode route).isSome := by
        intro family
        cases found : afi.packet_address_encode route with
        | none => exact absurd ⟨family,by rw [found]; rfl⟩ unaddressed
        | some nexthop => rfl
      have vector := (header.put (tlv2_metric_encode afi outlet.router_id
        { metric := route.metric, nexthop := route.nexthop, extdata := route.extdata } (type == tlv_mp_ext))).put_if
        (type = tlv_mp_ext) (tlv2_external_encode outlet.router_id route.extdata)
      cases encoded : afi.packet_prefix_encode route with
      | none =>
        refine ⟨rfl,.of_failure ?_ vector.restored⟩
        rintro frame ⟨_,_,dest,some,_⟩
        rw [encoded] at some
        cases some
      | some dest =>
        let frame : FramedTlv := ⟨type,route.tlv2_body afi outlet.router_id type dest,
          (Route.tlv2_body_length encoded).trans (by decide)⟩
        have whole := vector.put dest
        simp only [List.append_assoc,List.nil_append] at whole
        obtain ⟨length,patched⟩ := Extends.patched frame whole
        exact ⟨rfl,.of_frame ⟨typed,addressed,dest,encoded,rfl⟩ length patched⟩

/-- Without an interface the wide encoder does nothing. -/
theorem tlv2_encoder_without (afi : Afi) {outlet : Outlet} (route : Route) (pkt : Stream) (interface : outlet.ei = false) :
    pkt.tlv2_encoder afi outlet route = (0, route, pkt) := by
  unfold tlv2_encoder
  rw [if_pos (by simp [interface])]

end Stream

end Eigrp
