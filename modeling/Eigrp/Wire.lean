import Eigrp.Metric
import Eigrp.Lib.Bytes

/-!
# Metrics on the wire

The metric sections of the two route TLV formats (`eigrp_tlv1.c`, `eigrp_tlv2.c`) over byte strings,
and the offset lists of `eigrp_filter.c` that are applied before a route is encoded and after an
UPDATE is decoded.
-/

namespace Eigrp
open Eigrp.Lib

/-! ## Streams -/

def stream_putc (value : UInt8) : List UInt8 := [value]
def stream_putw (value : UInt16) : List UInt8 := put 2 value.toNat
def stream_putl (value : UInt32) : List UInt8 := put 4 value.toNat
def tlv2_put48 (value : UInt64) : List UInt8 := put 6 value.toNat

def stream_getc : List UInt8 → Option (UInt8 × List UInt8)
  | [] => none
  | byte :: pkt => some (byte, pkt)
def stream_getw (pkt : List UInt8) : Option (UInt16 × List UInt8) :=
  (get 2 pkt).map fun (value, pkt) => (UInt16.ofNat value, pkt)
def stream_getl (pkt : List UInt8) : Option (UInt32 × List UInt8) :=
  (get 4 pkt).map fun (value, pkt) => (UInt32.ofNat value, pkt)
def tlv2_get48 (pkt : List UInt8) : Option (UInt64 × List UInt8) :=
  (get 6 pkt).map fun (value, pkt) => (UInt64.ofNat value, pkt)

@[simp] theorem getc_putc (value : UInt8) (rest : List UInt8) :
    stream_getc (stream_putc value ++ rest) = some (value, rest) := rfl
@[simp] theorem getw_putw (value : UInt16) (rest : List UInt8) :
    stream_getw (stream_putw value ++ rest) = some (value, rest) := by
  have bound := value.toNat_lt
  simp [stream_getw,stream_putw,Nat.mod_eq_of_lt bound]
@[simp] theorem getl_putl (value : UInt32) (rest : List UInt8) :
    stream_getl (stream_putl value ++ rest) = some (value, rest) := by
  have bound := value.toNat_lt
  simp [stream_getl,stream_putl,Nat.mod_eq_of_lt bound]
@[simp] theorem getc_putc_last (value : UInt8) : stream_getc (stream_putc value) = some (value, []) := rfl
@[simp] theorem getl_putl_last (value : UInt32) : stream_getl (stream_putl value) = some (value, []) := by
  simpa using getl_putl value []
@[simp] theorem get48_put48 (value : UInt64) (rest : List UInt8) :
    tlv2_get48 (tlv2_put48 value ++ rest) = some (UInt64.ofNat (value.toNat % 2 ^ 48), rest) := by
  simp [tlv2_get48,tlv2_put48]

/-! What is read is what the octets begin with. -/

theorem putc_getc {bytes rest : List UInt8} {value : UInt8} (read : stream_getc bytes = some (value, rest)) :
    stream_putc value ++ rest = bytes := by
  cases bytes with
  | nil => cases read
  | cons byte bytes =>
    cases read
    rfl

theorem putw_getw {bytes rest : List UInt8} {value : UInt16} (read : stream_getw bytes = some (value, rest)) :
    stream_putw value ++ rest = bytes := by
  obtain ⟨⟨number,_⟩,got,same⟩ := Option.map_eq_some_iff.1 read
  cases same
  obtain ⟨octets,fits⟩ := put_get got
  rw [stream_putw, UInt16.toNat_ofNat_of_lt' fits, octets]

theorem putl_getl {bytes rest : List UInt8} {value : UInt32} (read : stream_getl bytes = some (value, rest)) :
    stream_putl value ++ rest = bytes := by
  obtain ⟨⟨number,_⟩,got,same⟩ := Option.map_eq_some_iff.1 read
  cases same
  obtain ⟨octets,fits⟩ := put_get got
  rw [stream_putl, UInt32.toNat_ofNat_of_lt' fits, octets]

/-! Read off the front of a stream: rewritten before the continuation is looked at, a decoder unfolds field by field. -/

section Reads
variable {β : Type} (rest : List UInt8)

theorem getc_bind (value : UInt8) (next : UInt8 × List UInt8 → Option β) :
    (stream_getc (stream_putc value ++ rest) >>= next) = next (value, rest) := rfl
theorem getw_bind (value : UInt16) (next : UInt16 × List UInt8 → Option β) :
    (stream_getw (stream_putw value ++ rest) >>= next) = next (value, rest) := by simp
theorem getl_bind (value : UInt32) (next : UInt32 × List UInt8 → Option β) :
    (stream_getl (stream_putl value ++ rest) >>= next) = next (value, rest) := by simp
theorem get48_bind (value : UInt64) (next : UInt64 × List UInt8 → Option β) :
    (tlv2_get48 (tlv2_put48 value ++ rest) >>= next) = next (UInt64.ofNat (value.toNat % 2 ^ 48), rest) := by simp

end Reads

/-! ## Classic TLVs -/

/-- `eigrp_tlv1_metric_encode`. -/
def tlv1_metric_encode (metric : Metrics) : List UInt8 :=
  stream_putl (delay_to_scaled metric.delay) ++ (stream_putl metric.bandwidth.toUInt32 ++
    (stream_putc metric.mtu.b2 ++ (stream_putc metric.mtu.b1 ++ (stream_putc metric.mtu.b0 ++
    (stream_putc metric.hop_count ++ (stream_putc metric.reliability ++ (stream_putc metric.load ++
    (stream_putc metric.tag ++ stream_putc metric.flags))))))))

/-- `eigrp_tlv1_metric_decode`. -/
def tlv1_metric_decode (pkt : List UInt8) : Option (Metrics × List UInt8) := do
  let (delay, pkt) ← stream_getl pkt
  let (bandwidth, pkt) ← stream_getl pkt
  let (b2, pkt) ← stream_getc pkt
  let (b1, pkt) ← stream_getc pkt
  let (b0, pkt) ← stream_getc pkt
  let (hop_count, pkt) ← stream_getc pkt
  let (reliability, pkt) ← stream_getc pkt
  let (load, pkt) ← stream_getc pkt
  let (tag, pkt) ← stream_getc pkt
  let (flags, pkt) ← stream_getc pkt
  some ({ delay := scaled_to_delay delay, bandwidth := bandwidth.toUInt64, mtu := { b0, b1, b2 }
          hop_count, reliability, load, tag, flags }, pkt)

/-! ## Multiprotocol TLVs -/

inductive Afi where
  | ipv4
  | ipv6
deriving DecidableEq, Repr

/-- The number of `eigrp_addr_t`: the octets an address family sends are its low ones. -/
abbrev Address := BitVec 128

def Afi.packet_address_bytes : Afi → Nat
  | .ipv4 => 4
  | .ipv6 => 16

/-- What the metric section of a multiprotocol TLV carries of a route descriptor. -/
structure TlvRoute where
  metric : Metrics := {}
  nexthop : Address := 0
  extdata : ExtData := {}
deriving DecidableEq, Repr

/-- `EIGRP_TLV2_INACCESSIBLE`. -/
def tlv2_inaccessible : UInt64 := 0xffffffffffff

/-- The data of an add-path attribute: next hop, originator, tag, and for an external route its source. -/
def tlv2_addpath_data_len (afi : Afi) (external : Bool) : Nat :=
  afi.packet_address_bytes + 8 + (if external then 2 else 0)

def tlv2_addpath_data (afi : Afi) (router_id : UInt32) (route : TlvRoute) (external : Bool) : List UInt8 :=
  put afi.packet_address_bytes route.nexthop.toNat ++
    (stream_putl (if route.extdata.orig ≠ 0 then route.extdata.orig else router_id) ++
    (stream_putl route.extdata.tag ++
    (if external then stream_putc route.extdata.protocol ++ stream_putc route.extdata.flags else [])))

/-- `eigrp_tlv2_addpath_encode`: only IPv6 sends the attribute. -/
def tlv2_addpath_encode (afi : Afi) (router_id : UInt32) (route : TlvRoute) (external : Bool) : List UInt8 :=
  match afi with
  | .ipv4 => []
  | .ipv6 =>
    stream_putc 0x07 ++ (stream_putc (UInt8.ofNat (tlv2_addpath_data_len afi external / 2)) ++
      tlv2_addpath_data afi router_id route external)

/-- The add-path branch of `eigrp_tlv2_extended_decode`. -/
def tlv2_addpath_decode (afi : Afi) (external : Bool) (data : List UInt8) (route : TlvRoute) : Option TlvRoute := do
  guard (data.length = tlv2_addpath_data_len afi external)
  let (address, data) ← get afi.packet_address_bytes data
  let (orig, data) ← stream_getl data
  let (tag, data) ← stream_getl data
  let route := { route with nexthop := BitVec.ofNat 128 address, extdata := { route.extdata with orig, tag } }
  if external then do
    let (protocol, data) ← stream_getc data
    let (flags, _) ← stream_getc data
    some { route with extdata := { route.extdata with protocol, flags } }
  else some route

/-- The loop of `eigrp_tlv2_extended_decode` over the attribute octets. Every turn consumes at least the
    two octets of a header, so as much fuel as there are octets is enough. -/
def tlv2_extended_decode (afi : Afi) (external : Bool) : Nat → List UInt8 → TlvRoute → Option TlvRoute
  | _, [], route => some route
  | 0, _ :: _, _ => none
  | fuel + 1, attr, route => do
    let (opcode, attr) ← stream_getc attr
    let (words, attr) ← stream_getc attr
    let data_len := words.toNat * 2
    guard (data_len ≤ attr.length)
    let route ← if opcode = 0x07 then tlv2_addpath_decode afi external (attr.take data_len) route else some route
    tlv2_extended_decode afi external fuel (attr.drop data_len) route

/-- The 24 octets of a wide metric section. -/
def tlv2_section_encode (attr_words : UInt8) (metric : Metrics) : List UInt8 :=
  stream_putc attr_words ++ (stream_putc metric.tag ++
    (stream_putc metric.reliability ++ (stream_putc metric.load ++ (stream_putc metric.mtu.b2 ++
    (stream_putc metric.mtu.b1 ++ (stream_putc metric.mtu.b0 ++ (stream_putc metric.hop_count ++
    (tlv2_put48 (if metric.delay = max_metric then tlv2_inaccessible else metric.delay) ++
    (tlv2_put48 (if metric.bandwidth = max_metric then tlv2_inaccessible else metric.bandwidth) ++
    (stream_putw 0 ++ stream_putw metric.flags.toUInt16))))))))))

def tlv2_section_decode (pkt : List UInt8) : Option ((UInt8 × Metrics) × List UInt8) := do
  let (attr_words, pkt) ← stream_getc pkt
  let (tag, pkt) ← stream_getc pkt
  let (reliability, pkt) ← stream_getc pkt
  let (load, pkt) ← stream_getc pkt
  let (b2, pkt) ← stream_getc pkt
  let (b1, pkt) ← stream_getc pkt
  let (b0, pkt) ← stream_getc pkt
  let (hop_count, pkt) ← stream_getc pkt
  let (delay, pkt) ← tlv2_get48 pkt
  let (bandwidth, pkt) ← tlv2_get48 pkt
  let (_, pkt) ← stream_getw pkt
  let (opaque_flags, pkt) ← stream_getw pkt
  some ((attr_words,
    { delay := if delay = tlv2_inaccessible then max_metric else delay
      bandwidth := if bandwidth = tlv2_inaccessible then max_metric else bandwidth
      mtu := { b0, b1, b2 }, hop_count, reliability, load, tag, flags := opaque_flags.toUInt8 }), pkt)

/-- `eigrp_tlv2_metric_encode`: the first octet counts the attribute words that follow the section. -/
def tlv2_metric_encode (afi : Afi) (router_id : UInt32) (route : TlvRoute) (external : Bool) : List UInt8 :=
  let attr := tlv2_addpath_encode afi router_id route external
  tlv2_section_encode (UInt8.ofNat (attr.length / 2)) route.metric ++ attr

/-- `eigrp_tlv2_metric_decode`. -/
def tlv2_metric_decode (afi : Afi) (external : Bool) (route : TlvRoute) (pkt : List UInt8) :
    Option (TlvRoute × List UInt8) := do
  let ((attr_words, metric), pkt) ← tlv2_section_decode pkt
  let attr_len := attr_words.toNat * 2
  guard (attr_len ≤ pkt.length)
  let route ← tlv2_extended_decode afi external attr_len (pkt.take attr_len) { route with metric }
  some (route, pkt.drop attr_len)

/-! ## Offset lists -/

inductive FilterDirection where
  | inbound
  | outbound
deriving DecidableEq, Repr

structure OffsetConfig where
  direction : FilterDirection
  interface_name : Option String
  access_list : String
  offset : UInt32
deriving DecidableEq, Repr

/-- One end's offset lists, the name of the interface the route crosses there, and the host's verdict
    on its destination for each access list. -/
structure OffsetPolicy where
  offsets : List OffsetConfig
  ifname : Option String
  acl_permits : String → Bool

/-- The loop of `eigrp_offset_metric_update`: an entry for the interface wins over the first global one. -/
def offset_select (policy : OffsetPolicy) (wanted : FilterDirection) :
    List OffsetConfig → Option OffsetConfig → Option OffsetConfig
  | [], global => global
  | config :: rest, global =>
    if config.direction ≠ wanted then offset_select policy wanted rest global
    else match config.interface_name with
      | none =>
        offset_select policy wanted rest
          (if global.isNone && policy.acl_permits config.access_list then some config else global)
      | some name =>
        if policy.ifname = some name && policy.acl_permits config.access_list then some config
        else offset_select policy wanted rest global

/-- The offset that applies to the route, if any. -/
def OffsetPolicy.offset (policy : OffsetPolicy) (wanted : FilterDirection) : Option UInt32 :=
  (offset_select policy wanted policy.offsets none).map (·.offset)

/-- `eigrp_offset_metric_update`. -/
def offset_metric_update (policy : OffsetPolicy) (direction : FilterDirection) (metric : Metrics) : Metrics :=
  if metric.delay = max_metric then metric
  else match policy.offset direction with
    | none => metric
    | some offset =>
      let delay := metric.delay + offset.toUInt64
      { metric with delay := if delay ≥ max_metric then max_metric else delay }

end Eigrp
