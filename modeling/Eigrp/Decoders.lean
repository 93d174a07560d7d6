import Eigrp.Stream

/-!
# Decoders on streams

The two route decoders with the positions of the stream they move. For the fields of a TLV the end of the stream is
set to the end of the TLV; behind them it is set back. What the decoders make of the unread octets is what
`tlv1_decoder` and `tlv2_decoder` make of them as a list.
-/

namespace Eigrp
open Eigrp.Lib

namespace Stream

/-! ## Fields -/

/-- A step of a decoder that may find its TLV malformed. -/
abbrev Decode := OptionT (StateM Stream)

/-- `eigrp_tlv1_stream_has` in front of fields. -/
def guarded {α : Type} (needed : Nat) (fields : StateM Stream α) : Decode α := do
  if needed ≤ (← getThe Stream).remaining then fields else failure

def packet_address_decode (afi : Afi) : Decode Address :=
  guarded afi.packet_address_bytes do return BitVec.ofNat 128 (← field afi.packet_address_bytes)

/-- The `packet_prefix_decode` of the family, with the octets that it has read. -/
def packet_prefix_decode (afi : Afi) : Decode (Prefix × Nat) := do
  let start := (← getThe Stream).getp
  let prefix_length ← guarded 1 getc
  if afi.max_bitlen < prefix_length.toNat then
    modify fun pkt => pkt.set_getp start
    failure
  else
    let address_length := afi.prefix_bytes prefix_length.toNat
    if address_length ≤ (← getThe Stream).remaining then
      let address ← field address_length
      return (afi.prefix_normalize (address * 256 ^ (afi.packet_address_bytes - address_length)) prefix_length, 1 + address_length)
    else
      modify fun pkt => pkt.set_getp start
      failure

def tlv1_external_fields : StateM Stream ExtData := do
  let orig ← getl
  let as ← getl
  let tag ← getl
  let metric ← getl
  let reserved ← getw
  let protocol ← getc
  let flags ← getc
  return { orig, as, tag, metric, reserved, protocol, flags }

def tlv1_external_decode : Decode ExtData := guarded 20 tlv1_external_fields

def tlv1_metric_fields : StateM Stream Metrics := do
  let delay ← getl
  let bandwidth ← getl
  let b2 ← getc
  let b1 ← getc
  let b0 ← getc
  let hop_count ← getc
  let reliability ← getc
  let load ← getc
  let tag ← getc
  let flags ← getc
  return { delay := scaled_to_delay delay, bandwidth := bandwidth.toUInt64, mtu := { b0, b1, b2 }
           hop_count, reliability, load, tag, flags }

def tlv1_metric_decode : Decode Metrics := guarded 16 tlv1_metric_fields

/-- The fields of a classic route with the octets of the TLV that they account for. -/
def tlv1_fields (afi : Afi) (external : Bool) : Decode (Tlv × Nat) := do
  let nexthop ← packet_address_decode afi
  let extdata ← if external then tlv1_external_decode else pure {}
  let metric ← tlv1_metric_decode
  let (dest, decoded) ← packet_prefix_decode afi
  return ({ dest, external, nexthop, extdata, metric },
    tlv_hdr_size + afi.packet_address_bytes + (if external then 20 else 0) + 16 + decoded)

/-- The part of a route in the attribute of an added path. -/
def tlv2_addpath_fields (afi : Afi) (external : Bool) (route : TlvRoute) : StateM Stream TlvRoute := do
  let nexthop ← field afi.packet_address_bytes
  let orig ← getl
  let tag ← getl
  let route := { route with nexthop := BitVec.ofNat 128 nexthop, extdata := { route.extdata with orig, tag } }
  if external then
    let protocol ← getc
    let flags ← getc
    return { route with extdata := { route.extdata with protocol, flags } }
  else return route

/-- Only the next hop is read behind a check. -/
def tlv2_addpath_decode (afi : Afi) (external : Bool) (route : TlvRoute) : Decode TlvRoute :=
  guarded afi.packet_address_bytes (tlv2_addpath_fields afi external route)

/-- The data of one attribute. -/
def tlv2_attribute_decode (afi : Afi) (external : Bool) (opcode : UInt8) (data_len : Nat) (route : TlvRoute) : Decode TlvRoute := do
  if opcode = 0x07 then
    if data_len = tlv2_addpath_data_len afi external then tlv2_addpath_decode afi external route else failure
  else
    modify fun pkt => pkt.set_getp (pkt.getp + data_len)
    return route

/-- The loop of `eigrp_tlv2_extended_decode`; every turn reads the two octets of a header. -/
def tlv2_extended_loop (afi : Afi) (external : Bool) (attr_end : Nat) : Nat → TlvRoute → Decode TlvRoute
  | 0, route => do if (← getThe Stream).getp < attr_end then failure else return route
  | fuel + 1, route => do
    let getp := (← getThe Stream).getp
    if getp < attr_end then
      if attr_end - getp < 2 then failure
      else
        let opcode ← getc
        let words ← getc
        let data_len := words.toNat * 2
        let getp := (← getThe Stream).getp
        if data_len > attr_end - getp then failure
        else
          let data_end := getp + data_len
          let route ← tlv2_attribute_decode afi external opcode data_len route
          if (← getThe Stream).getp = data_end then tlv2_extended_loop afi external attr_end fuel route else failure
    else return route

def tlv2_extended_decode (afi : Afi) (external : Bool) (attr_len : Nat) (route : TlvRoute) : Decode TlvRoute := do
  if attr_len = 0 then return route
  else if attr_len ≤ (← getThe Stream).remaining then
    tlv2_extended_loop afi external ((← getThe Stream).getp + attr_len) attr_len route
  else failure

/-- The 24 octets of a wide metric section. -/
def tlv2_section_fields : StateM Stream (UInt8 × Metrics) := do
  let attr_words ← getc
  let tag ← getc
  let reliability ← getc
  let load ← getc
  let b2 ← getc
  let b1 ← getc
  let b0 ← getc
  let hop_count ← getc
  let delay ← get48
  let bandwidth ← get48
  let _ ← getw
  let opaque_flags ← getw
  return (attr_words,
    { delay := if delay = tlv2_inaccessible then max_metric else delay
      bandwidth := if bandwidth = tlv2_inaccessible then max_metric else bandwidth
      mtu := { b0, b1, b2 }, hop_count, reliability, load, tag, flags := opaque_flags.toUInt8 })

def tlv2_section_decode : Decode (UInt8 × Metrics) := guarded 24 tlv2_section_fields

/-- `eigrp_tlv2_metric_decode`, with the octets that it has read. -/
def tlv2_metric_decode (afi : Afi) (external : Bool) (route : TlvRoute) : Decode (TlvRoute × Nat) := do
  let (attr_words, metric) ← tlv2_section_decode
  let attr_len := attr_words.toNat * 2
  let route ← tlv2_extended_decode afi external attr_len { route with metric }
  return (route, 24 + attr_len)

def tlv2_external_fields (extdata : ExtData) : StateM Stream ExtData := do
  let orig ← getl
  let as ← getl
  let metric ← getl
  let reserved ← getw
  let protocol ← getc
  let flags ← getc
  return { extdata with orig, as, metric, reserved, protocol, flags }

def tlv2_external_decode (extdata : ExtData) : Decode ExtData := guarded 16 (tlv2_external_fields extdata)

def tlv2_header_ext_fields : StateM Stream (UInt16 × UInt16 × UInt32) := do
  let afi ← getw
  let tid ← getw
  let rid ← getl
  return (afi, tid, rid)

def tlv2_header_ext : Decode (UInt16 × UInt16 × UInt32) := guarded 8 tlv2_header_ext_fields

/-- The fields of a wide route with the octets of the TLV that they account for. -/
def tlv2_fields (afi : Afi) (src : Address) (external : Bool) (topology_id : UInt16) (rid : UInt32) : Decode (Tlv × Nat) := do
  let (route, decoded_metric) ← tlv2_metric_decode afi external { extdata := { orig := rid } }
  let extdata ← if external then tlv2_external_decode route.extdata else pure route.extdata
  let nexthop := if route.nexthop = 0 then src else route.nexthop
  let (dest, decoded) ← packet_prefix_decode afi
  return ({ dest, external, nexthop, extdata, metric := route.metric, topology_id },
    tlv_hdr_size + 8 + decoded_metric + (if external then 16 else 0) + decoded)

/-! ## Decoders -/

/-- `eigrp_tlv1_decode_abort`. -/
def decode_abort (pkt : Stream) : Stream := pkt.set_getp pkt.endp

/-- `eigrp_tlv1_decode_skip`. -/
def decode_skip (pkt : Stream) (tlv_end : Nat) : Stream := if tlv_end ≤ pkt.endp then pkt.set_getp tlv_end else pkt.decode_abort

/-- What both decoders do behind the fields of a TLV. -/
def decoded (length tlv_end packet_end : Nat) : Option (Tlv × Nat) × Stream → Option Tlv × Stream
  | (some (route, bytes), pkt) =>
    if length < bytes ∨ bytes = tlv_hdr_size then (none, (pkt.set_endp packet_end).decode_abort)
    else (some route, (pkt.set_endp packet_end).decode_skip tlv_end)
  | (none, pkt) => (none, (pkt.set_endp packet_end).decode_abort)

/-- `eigrp_tlv1_decoder`; `created` says that a route descriptor could be allocated. -/
def tlv1_decoder (afi : Afi) (created : Bool) (pkt : Stream) : Option Tlv × Stream :=
  let tlv_start := pkt.getp
  let remaining := pkt.remaining
  if remaining < tlv_hdr_size then (none, pkt.decode_abort)
  else
    let (type, pkt) := getw.run pkt
    let (length, pkt) := getw.run pkt
    if type ≠ afi.classic_internal_tlv_type ∧ type ≠ afi.classic_external_tlv_type then
      if tlv_hdr_size ≤ length.toNat ∧ length.toNat ≤ remaining then (none, pkt.decode_skip (tlv_start + length.toNat))
      else (none, pkt.decode_abort)
    else
      let external := type != afi.classic_internal_tlv_type
      if length.toNat < tlv1_min_length afi external ∨ length.toNat > remaining then (none, pkt.decode_abort)
      else
        let tlv_end := tlv_start + length.toNat
        let packet_end := pkt.endp
        let pkt := pkt.set_endp tlv_end
        if created then decoded length.toNat tlv_end packet_end ((tlv1_fields afi external).run.run pkt)
        else (none, (pkt.set_endp packet_end).decode_skip tlv_end)

/-- `eigrp_tlv2_decoder`. -/
def tlv2_decoder (afi : Afi) (src : Address) (created : Bool) (pkt : Stream) : Option Tlv × Stream :=
  let tlv_start := pkt.getp
  let remaining := pkt.remaining
  if remaining < tlv_hdr_size then (none, pkt.decode_abort)
  else
    let (type, pkt) := getw.run pkt
    let (length, pkt) := getw.run pkt
    if type ≠ tlv_mp_int ∧ type ≠ tlv_mp_ext then
      if tlv_hdr_size ≤ length.toNat ∧ length.toNat ≤ remaining then (none, pkt.decode_skip (tlv_start + length.toNat))
      else (none, pkt.decode_abort)
    else
      let external := type != tlv_mp_int
      if length.toNat < tlv2_min_length external ∨ length.toNat > remaining then (none, pkt.decode_abort)
      else
        let tlv_end := tlv_start + length.toNat
        let packet_end := pkt.endp
        match tlv2_header_ext.run.run (pkt.set_endp tlv_end) with
        | (none, pkt) => (none, (pkt.set_endp packet_end).decode_abort)
        | (some (family, tid, rid), pkt) =>
          if family ≠ afi.multiprotocol_afi ∨ ¬ created then (none, (pkt.set_endp packet_end).decode_skip tlv_end)
          else decoded length.toNat tlv_end packet_end ((tlv2_fields afi src external tid rid).run.run pkt)

/-! ## What the fields read -/

/-- An action makes of the unread octets what a reader makes of them, and only moves the read position: where the reader
    has a rest, in front of it. -/
def Follows {α : Type} (action : Decode α) (reader : List UInt8 → Option (α × List UInt8)) : Prop :=
  ∀ pkt : Stream, ∃ n, action.run.run pkt = ((reader pkt.unread).map Prod.fst, pkt.skip n) ∧
    ∀ read, reader pkt.unread = some read → read.2 = pkt.unread.drop n

section Rules
variable {α β : Type}

theorem Follows.pure (a : α) : Follows (pure a) (fun bytes => some (a, bytes)) := by
  intro pkt
  refine ⟨0,?_,?_⟩
  · rw [skip_zero]
    rfl
  · rintro read same
    cases same
    rfl

theorem Follows.failure : Follows (failure : Decode α) (fun _ => none) := by
  intro pkt
  refine ⟨0,?_,by simp⟩
  rw [skip_zero]
  rfl

/-- What is behind a step of a decoder. -/
theorem run_bind_some {action : Decode α} {next : α → Decode β} {pkt behind : Stream} {a : α}
    (runs : action.run.run pkt = (some a, behind)) : (action >>= next).run.run pkt = (next a).run.run behind := by
  simp only [OptionT.run_bind,Option.elimM,StateT.run_bind,runs]
  rfl

theorem run_bind_none {action : Decode α} {next : α → Decode β} {pkt behind : Stream}
    (runs : action.run.run pkt = (none, behind)) : (action >>= next).run.run pkt = (none, behind) := by
  simp only [OptionT.run_bind,Option.elimM,StateT.run_bind,runs]
  rfl

theorem Follows.bind {action : Decode α} {next : α → Decode β} {reader : List UInt8 → Option (α × List UInt8)}
    {readers : α → List UInt8 → Option (β × List UInt8)} (first : Follows action reader)
    (second : ∀ a, Follows (next a) (readers a)) :
    Follows (action >>= next) (fun bytes => (reader bytes).bind fun read => readers read.1 read.2) := by
  intro pkt
  beta_reduce
  obtain ⟨n,runs,rest⟩ := first pkt
  cases found : reader pkt.unread with
  | none =>
    rw [found] at runs
    exact ⟨n,run_bind_none runs,by simp⟩
  | some read =>
    rw [found] at runs
    have reading : (pkt.skip n).unread = read.2 := by rw [skip_unread, rest read found]
    obtain ⟨k,runs_next,rest_next⟩ := second read.1 (pkt.skip n)
    rw [reading] at runs_next rest_next
    refine ⟨n + k,?_,?_⟩
    · rw [← skip_skip, run_bind_some runs]
      exact runs_next
    · intro final same
      rw [rest_next final same, rest read found, List.drop_drop]

theorem Follows.of_eq {action other : Decode α} {reader known : List UInt8 → Option (α × List UInt8)}
    (follows : Follows action reader) (same : action = other) (agrees : ∀ bytes, reader bytes = known bytes) :
    Follows other known := by
  subst same
  rw [← funext agrees]
  exact follows

/-- Fields of a fixed size behind the check that they are there. -/
theorem Covers.guarded {fields : StateM Stream α} {n : Nat} {reader : List UInt8 → Option (α × List UInt8)}
    (covers : Covers fields n reader) : Follows (guarded n fields) reader := by
  obtain ⟨value,reads,runs⟩ := covers
  intro pkt
  have step : (Stream.guarded n fields).run.run pkt =
      (if n ≤ pkt.remaining then (some (fields.run pkt).1, (fields.run pkt).2) else (none, pkt)) := by
    change (if n ≤ pkt.remaining then (fields : Decode α) else failure).run.run pkt = _
    split <;> rfl
  have length : pkt.unread.length = pkt.remaining := pkt.unread_length
  rw [step, reads]
  by_cases enough : n ≤ pkt.remaining
  · have within : n ≤ pkt.unread.length := by omega
    rw [if_pos enough, if_pos within, runs pkt within]
    refine ⟨n,rfl,?_⟩
    rintro read same
    cases same
    rfl
  · have short : ¬ n ≤ pkt.unread.length := by omega
    rw [if_neg enough, if_neg short]
    refine ⟨0,?_,by simp⟩
    rw [skip_zero]
    rfl

end Rules

theorem packet_address_follows (afi : Afi) :
    Follows (packet_address_decode afi) (fun bytes =>
      (Lib.get afi.packet_address_bytes bytes).map fun (address, rest) => (BitVec.ofNat 128 address, rest)) :=
  (field_covers_map afi.packet_address_bytes (BitVec.ofNat 128)).guarded

theorem tlv1_external_covers : Covers tlv1_external_fields 20 Eigrp.tlv1_external_decode := by
  have fields := getl_covers.bind fun orig => getl_covers.bind fun as => getl_covers.bind fun tag =>
    getl_covers.bind fun metric => getw_covers.bind fun reserved => getc_covers.bind fun protocol => getc_covers.bind fun flags =>
    .pure ({ orig, as, tag, metric, reserved, protocol, flags } : ExtData)
  exact fields.of_eq rfl (by norm_num) fun _ => rfl

theorem tlv1_metric_covers : Covers tlv1_metric_fields 16 Eigrp.tlv1_metric_decode := by
  have fields := getl_covers.bind fun delay => getl_covers.bind fun bandwidth => getc_covers.bind fun b2 =>
    getc_covers.bind fun b1 => getc_covers.bind fun b0 => getc_covers.bind fun hop_count => getc_covers.bind fun reliability =>
    getc_covers.bind fun load => getc_covers.bind fun tag => getc_covers.bind fun flags =>
    .pure ({ delay := scaled_to_delay delay, bandwidth := bandwidth.toUInt64, mtu := { b0, b1, b2 }
             hop_count, reliability, load, tag, flags } : Metrics)
  exact fields.of_eq rfl (by norm_num) fun _ => rfl

theorem tlv2_section_covers : Covers tlv2_section_fields 24 Eigrp.tlv2_section_decode := by
  have fields := getc_covers.bind fun attr_words => getc_covers.bind fun tag => getc_covers.bind fun reliability =>
    getc_covers.bind fun load => getc_covers.bind fun b2 => getc_covers.bind fun b1 => getc_covers.bind fun b0 =>
    getc_covers.bind fun hop_count => get48_covers.bind fun delay => get48_covers.bind fun bandwidth =>
    getw_covers.bind fun _ => getw_covers.bind fun opaque_flags =>
    .pure (attr_words, ({ delay := if delay = tlv2_inaccessible then max_metric else delay
                          bandwidth := if bandwidth = tlv2_inaccessible then max_metric else bandwidth
                          mtu := { b0, b1, b2 }, hop_count, reliability, load, tag, flags := opaque_flags.toUInt8 } : Metrics))
  exact fields.of_eq rfl (by norm_num) fun _ => rfl

theorem tlv2_external_covers (extdata : ExtData) :
    Covers (tlv2_external_fields extdata) 16 (Eigrp.tlv2_external_decode extdata) := by
  have fields := getl_covers.bind fun orig => getl_covers.bind fun as => getl_covers.bind fun metric =>
    getw_covers.bind fun reserved => getc_covers.bind fun protocol => getc_covers.bind fun flags =>
    .pure { extdata with orig, as, metric, reserved, protocol, flags }
  exact fields.of_eq rfl (by norm_num) fun _ => rfl

theorem tlv2_header_ext_covers : Covers tlv2_header_ext_fields 8 Eigrp.tlv2_header_ext := by
  have fields := getw_covers.bind fun afi => getw_covers.bind fun tid => getl_covers.bind fun rid => .pure (afi, tid, rid)
  exact fields.of_eq rfl (by norm_num) fun _ => rfl

/-- The destination of a TLV and the octets it takes. -/
def prefix_reader (afi : Afi) (bytes : List UInt8) : Option ((Prefix × Nat) × List UInt8) :=
  (afi.packet_prefix_decode bytes).map fun (dest, rest) => ((dest, 1 + afi.prefix_bytes dest.prefix_length.toNat), rest)

theorem set_getp_skip (pkt : Stream) (n : Nat) : (pkt.skip n).set_getp pkt.getp = pkt := by
  have ordered := pkt.ordered
  ext1 <;> simp [skip,set_getp,ordered]

theorem packet_prefix_follows (afi : Afi) : Follows (packet_prefix_decode afi) (prefix_reader afi) := by
  intro pkt
  have start : (getThe Stream : Decode Stream).run.run pkt = (some pkt, pkt) := rfl
  obtain ⟨n,first,rest⟩ := getc_covers.guarded pkt
  unfold packet_prefix_decode
  rw [run_bind_some start]
  cases read : stream_getc pkt.unread with
  | none =>
    rw [read] at first
    refine ⟨n,?_,by simp [prefix_reader,Afi.packet_prefix_decode,read]⟩
    rw [run_bind_none first]
    simp [prefix_reader,Afi.packet_prefix_decode,read]
  | some byte =>
    obtain ⟨prefix_length,bytes⟩ := byte
    rw [read] at first
    have behind : bytes = pkt.unread.drop n := rest _ read
    rw [run_bind_some first]
    by_cases long : afi.max_bitlen < prefix_length.toNat
    · have unread : prefix_reader afi pkt.unread = none := by
        simp [prefix_reader,Afi.packet_prefix_decode,read,Nat.not_le.2 long]
      rw [unread, if_pos long]
      refine ⟨0,?_,by simp⟩
      rw [skip_zero]
      change (none, (pkt.skip n).set_getp pkt.getp) = _
      rw [set_getp_skip]
      rfl
    · obtain ⟨value,reads,runs⟩ := field_covers (afi.prefix_bytes prefix_length.toNat)
      have length : (pkt.skip n).unread.length = (pkt.skip n).remaining := unread_length _
      rw [if_neg long, run_bind_some (show (getThe Stream : Decode Stream).run.run (pkt.skip n) = (some (pkt.skip n), pkt.skip n) from rfl)]
      have reader : prefix_reader afi pkt.unread = (Lib.get (afi.prefix_bytes prefix_length.toNat) (pkt.skip n).unread).map
          fun (address, rest) => ((afi.prefix_normalize (address * 256 ^ (afi.packet_address_bytes - afi.prefix_bytes prefix_length.toNat))
            prefix_length, 1 + afi.prefix_bytes prefix_length.toNat), rest) := by
        rw [skip_unread, ← behind]
        simp only [prefix_reader,Afi.packet_prefix_decode,read,Option.bind_eq_bind,Option.bind_some,guard,Nat.not_lt.1 long,if_true]
        cases Lib.get (afi.prefix_bytes prefix_length.toNat) bytes <;> rfl
      rw [reader, reads]
      by_cases enough : afi.prefix_bytes prefix_length.toNat ≤ (pkt.skip n).remaining
      · have within : afi.prefix_bytes prefix_length.toNat ≤ (pkt.skip n).unread.length := by omega
        have field_run : ((field (afi.prefix_bytes prefix_length.toNat) : StateM Stream Nat) : Decode Nat).run.run (pkt.skip n) =
            (some (value ((pkt.skip n).unread.take (afi.prefix_bytes prefix_length.toNat))),
              (pkt.skip n).skip (afi.prefix_bytes prefix_length.toNat)) := by
          change ((some ((field _).run (pkt.skip n)).1, ((field _).run (pkt.skip n)).2) : Option Nat × Stream) = _
          rw [runs _ within]
        rw [if_pos enough, run_bind_some field_run, if_pos within, skip_skip]
        refine ⟨n + afi.prefix_bytes prefix_length.toNat,rfl,?_⟩
        rintro read same
        cases same
        rw [skip_unread, List.drop_drop]
      · have short : ¬ afi.prefix_bytes prefix_length.toNat ≤ (pkt.skip n).unread.length := by omega
        rw [if_neg enough, if_neg short]
        refine ⟨0,?_,by simp⟩
        rw [skip_zero]
        change (none, (pkt.skip n).set_getp pkt.getp) = _
        rw [set_getp_skip]
        rfl

/-! ## Classic TLVs -/

/-- The external data of a classic route, where it has some. -/
def tlv1_extdata_reader (external : Bool) (body : List UInt8) : Option (ExtData × List UInt8) :=
  if external then Eigrp.tlv1_external_decode body else some ({}, body)

/-- The fields of a classic route with their octets. -/
def tlv1_reader (afi : Afi) (external : Bool) (body : List UInt8) : Option ((Tlv × Nat) × List UInt8) := do
  let (nexthop, body) ← Lib.get afi.packet_address_bytes body
  let (extdata, body) ← tlv1_extdata_reader external body
  let (metric, body) ← Eigrp.tlv1_metric_decode body
  let ((dest, decoded), body) ← prefix_reader afi body
  some (({ dest, external, nexthop := BitVec.ofNat 128 nexthop, extdata, metric },
    tlv_hdr_size + afi.packet_address_bytes + (if external then 20 else 0) + 16 + decoded), body)

theorem tlv1_reader_route (afi : Afi) (external : Bool) (body : List UInt8) :
    (tlv1_reader afi external body).map (fun read => read.1.1) = tlv1_body_decode afi external body := by
  cases external <;>
    simp [tlv1_reader,tlv1_extdata_reader,tlv1_body_decode,prefix_reader,Option.map_bind,Option.bind_map]

theorem tlv1_extdata_follows (external : Bool) :
    Follows (if external then tlv1_external_decode else pure {}) (tlv1_extdata_reader external) := by
  cases external with
  | true => exact tlv1_external_covers.guarded
  | false => exact .pure ({} : ExtData)

theorem tlv1_fields_follow (afi : Afi) (external : Bool) : Follows (tlv1_fields afi external) (tlv1_reader afi external) := by
  have fields := (packet_address_follows afi).bind fun nexthop => (tlv1_extdata_follows external).bind fun extdata =>
    tlv1_metric_covers.guarded.bind fun metric => (packet_prefix_follows afi).bind fun dest =>
    .pure (({ dest := dest.1, external, nexthop, extdata, metric } : Tlv),
      tlv_hdr_size + afi.packet_address_bytes + (if external then 20 else 0) + 16 + dest.2)
  refine fields.of_eq (by cases external <;> rfl) ?_
  intro body
  simp only [tlv1_reader,Option.bind_eq_bind]
  cases Lib.get afi.packet_address_bytes body <;> rfl

/-- What a covered field leaves of the octets. -/
theorem Covers.size {α : Type} {fields : StateM Stream α} {n : Nat} {reader : List UInt8 → Option (α × List UInt8)}
    (covers : Covers fields n reader) {bytes : List UInt8} {read : α × List UInt8} (found : reader bytes = some read) :
    bytes.length = n + read.2.length := by
  obtain ⟨value,reads,_⟩ := covers
  rw [reads] at found
  split at found
  · rename_i enough
    cases found
    rw [List.length_drop]
    omega
  · cases found

theorem prefix_reader_size {afi : Afi} {bytes : List UInt8} {read : (Prefix × Nat) × List UInt8}
    (found : prefix_reader afi bytes = some read) :
    bytes.length = read.1.2 + read.2.length ∧ read.1.2 = 1 + afi.prefix_bytes read.1.1.prefix_length.toNat := by
  simp only [prefix_reader,Afi.packet_prefix_decode,Option.bind_eq_bind,Option.map_eq_some_iff,Option.bind_eq_some_iff] at found
  obtain ⟨_,⟨⟨prefix_length,bytes'⟩,first,_,_,⟨address,rest⟩,second,last⟩,same⟩ := found
  cases last
  cases same
  have head := getc_covers.size first
  have tail := (field_covers _).size second
  simp only at head tail
  refine ⟨?_,rfl⟩
  change bytes.length = 1 + afi.prefix_bytes prefix_length.toNat + rest.length
  omega

theorem tlv1_reader_external {afi : Afi} {external : Bool} {body : List UInt8} {read : (Tlv × Nat) × List UInt8}
    (found : tlv1_reader afi external body = some read) : read.1.1.external = external := by
  simp only [tlv1_reader,Option.bind_eq_bind,Option.bind_eq_some_iff] at found
  obtain ⟨_,_,_,_,_,_,_,_,same⟩ := found
  cases same
  rfl

theorem tlv1_reader_size {afi : Afi} {external : Bool} {body : List UInt8} {read : (Tlv × Nat) × List UInt8}
    (found : tlv1_reader afi external body = some read) :
    tlv_hdr_size + body.length = read.1.2 + read.2.length ∧
      read.1.2 = tlv1_min_length afi external + afi.prefix_bytes read.1.1.dest.prefix_length.toNat := by
  simp only [tlv1_reader,tlv1_extdata_reader,Option.bind_eq_bind,Option.bind_eq_some_iff] at found
  obtain ⟨⟨nexthop,behind_nexthop⟩,first,⟨extdata,behind_extdata⟩,second,⟨metric,behind_metric⟩,third,
    ⟨⟨dest,decoded⟩,rest⟩,fourth,same⟩ := found
  cases same
  have nexthop_size := (field_covers _).size first
  have metric_size := tlv1_metric_covers.size third
  have dest_size := prefix_reader_size fourth
  have extdata_size : behind_nexthop.length = (if external then 20 else 0) + behind_extdata.length := by
    cases external with
    | true => exact tlv1_external_covers.size second
    | false =>
      cases second
      simp
  simp only [tlv1_min_length,tlv_hdr_size] at *
  omega

/-! ## Wide TLVs -/

/-- The unread octets in front of a position. -/
def ahead (pkt : Stream) (position : Nat) : List UInt8 := pkt.unread.take (position - pkt.getp)

/-- The fields of an added path in octets that may go on behind them. -/
def tlv2_addpath_reader (afi : Afi) (external : Bool) (route : TlvRoute) (data : List UInt8) : Option (TlvRoute × List UInt8) := do
  let (address, data) ← Lib.get afi.packet_address_bytes data
  let (orig, data) ← stream_getl data
  let (tag, data) ← stream_getl data
  let route := { route with nexthop := BitVec.ofNat 128 address, extdata := { route.extdata with orig, tag } }
  if external then do
    let (protocol, data) ← stream_getc data
    let (flags, data) ← stream_getc data
    some ({ route with extdata := { route.extdata with protocol, flags } }, data)
  else some (route, data)

theorem tlv2_addpath_covers (afi : Afi) (external : Bool) (route : TlvRoute) :
    Covers (tlv2_addpath_fields afi external route) (tlv2_addpath_data_len afi external) (tlv2_addpath_reader afi external route) := by
  cases external with
  | false =>
    have fields := (field_covers afi.packet_address_bytes).bind fun nexthop => getl_covers.bind fun orig => getl_covers.bind fun tag =>
      .pure { route with nexthop := BitVec.ofNat 128 nexthop, extdata := { route.extdata with orig, tag } }
    exact fields.of_eq rfl (by simp [tlv2_addpath_data_len]) fun _ => rfl
  | true =>
    have fields := (field_covers afi.packet_address_bytes).bind fun nexthop => getl_covers.bind fun orig => getl_covers.bind fun tag =>
      getc_covers.bind fun protocol => getc_covers.bind fun flags =>
      .pure { route with nexthop := BitVec.ofNat 128 nexthop, extdata := { route.extdata with orig, tag, protocol, flags } }
    exact fields.of_eq rfl (by simp [tlv2_addpath_data_len]) fun _ => rfl

theorem tlv2_addpath_reader_route (afi : Afi) (external : Bool) (route : TlvRoute) {data : List UInt8}
    (whole : data.length = tlv2_addpath_data_len afi external) :
    Eigrp.tlv2_addpath_decode afi external data route = (tlv2_addpath_reader afi external route data).map Prod.fst := by
  cases external <;> simp [Eigrp.tlv2_addpath_decode,tlv2_addpath_reader,whole,guard,Option.map_bind]

theorem tlv2_addpath_run (afi : Afi) (external : Bool) (route : TlvRoute) {pkt : Stream}
    (enough : tlv2_addpath_data_len afi external ≤ pkt.unread.length) :
    ∃ read, Eigrp.tlv2_addpath_decode afi external (pkt.unread.take (tlv2_addpath_data_len afi external)) route = some read ∧
      (tlv2_addpath_decode afi external route).run.run pkt = (some read, pkt.skip (tlv2_addpath_data_len afi external)) := by
  obtain ⟨value,reads,runs⟩ := tlv2_addpath_covers afi external route
  have checked : afi.packet_address_bytes ≤ pkt.remaining := by
    have length : pkt.unread.length = pkt.remaining := pkt.unread_length
    simp only [tlv2_addpath_data_len] at enough
    omega
  refine ⟨value (pkt.unread.take (tlv2_addpath_data_len afi external)),?_,?_⟩
  · rw [tlv2_addpath_reader_route _ _ _ (by simp [enough]), reads, if_pos (by simp [enough]), List.take_take, min_self]
    rfl
  · have step : (tlv2_addpath_decode afi external route).run.run pkt =
        (some ((tlv2_addpath_fields afi external route).run pkt).1, ((tlv2_addpath_fields afi external route).run pkt).2) := by
      change (if afi.packet_address_bytes ≤ pkt.remaining then (tlv2_addpath_fields afi external route : Decode TlvRoute) else failure).run.run pkt = _
      rw [if_pos checked]
      rfl
    rw [step, runs pkt enough]

theorem ahead_length (pkt : Stream) {position : Nat} (within : position ≤ pkt.endp) :
    (pkt.ahead position).length = position - pkt.getp := by
  rw [ahead, List.length_take, unread_length]
  omega

theorem ahead_skip (pkt : Stream) {position n : Nat} (within : position ≤ pkt.endp) (before : pkt.getp + n ≤ position) :
    (pkt.skip n).ahead position = (pkt.ahead position).drop n := by
  have getp : (pkt.skip n).getp = pkt.getp + n := pkt.skip_getp (by rw [unread_length]; omega)
  rw [ahead, ahead, skip_unread, getp, List.drop_take, Nat.sub_add_eq]

theorem lift_run {α : Type} (action : StateM Stream α) (pkt : Stream) :
    (action : Decode α).run.run pkt = (some (action.run pkt).1, (action.run pkt).2) := rfl

theorem getThe_run (pkt : Stream) : (getThe Stream : Decode Stream).run.run pkt = (some pkt, pkt) := rfl

/-- An octet in front of a position. -/
theorem getc_ahead {pkt : Stream} {position : Nat} {byte : UInt8} {bytes : List UInt8} (within : position ≤ pkt.endp)
    (more : pkt.ahead position = byte :: bytes) :
    (getc : Decode UInt8).run.run pkt = (some byte, pkt.skip 1) ∧ (pkt.skip 1).ahead position = bytes ∧
      (pkt.skip 1).getp = pkt.getp + 1 ∧ position - pkt.getp = bytes.length + 1 := by
  obtain ⟨value,reads,runs⟩ := getc_covers
  have length := ahead_length pkt within
  rw [more, List.length_cons] at length
  have unread : ∃ rest, pkt.unread = byte :: rest := by
    cases all : pkt.unread with
    | nil => simp [ahead,all] at more
    | cons first rest =>
      rw [ahead, all, ← length, List.take_succ_cons] at more
      exact ⟨rest,by rw [(List.cons.inj more).1]⟩
  obtain ⟨rest,unread⟩ := unread
  have head : some (byte, rest) = some (value (pkt.unread.take 1), pkt.unread.drop 1) := by
    have read := reads pkt.unread
    rw [if_pos (by simp [unread])] at read
    rw [← read, unread]
    rfl
  refine ⟨?_,?_,pkt.skip_getp (by simp [unread]),by omega⟩
  · rw [lift_run, runs pkt (by simp [unread]), ← (Prod.mk.inj (Option.some.inj head)).1]
  · rw [ahead_skip pkt within (by omega), more]
    rfl

/-- One attribute is read to its end, or it is malformed. -/
theorem tlv2_attribute_run (afi : Afi) (external : Bool) (opcode : UInt8) {data_len : Nat} (route : TlvRoute) {pkt : Stream}
    {attr_end : Nat} (within : attr_end ≤ pkt.endp) (enough : data_len ≤ attr_end - pkt.getp) :
    ∃ n, (tlv2_attribute_decode afi external opcode data_len route).run.run pkt =
        (if opcode = 0x07 then Eigrp.tlv2_addpath_decode afi external ((pkt.ahead attr_end).take data_len) route else some route,
          pkt.skip n) ∧
      ((if opcode = 0x07 then Eigrp.tlv2_addpath_decode afi external ((pkt.ahead attr_end).take data_len) route else some route) ≠ none →
        n = data_len) := by
  have length := ahead_length pkt within
  unfold tlv2_attribute_decode
  by_cases addpath : opcode = 0x07
  · simp only [if_pos addpath]
    by_cases expected : data_len = tlv2_addpath_data_len afi external
    · subst expected
      have unread : tlv2_addpath_data_len afi external ≤ pkt.unread.length := by
        rw [unread_length]
        omega
      obtain ⟨read,known,runs⟩ := tlv2_addpath_run afi external route unread
      have same : (pkt.ahead attr_end).take (tlv2_addpath_data_len afi external) =
          pkt.unread.take (tlv2_addpath_data_len afi external) := by rw [ahead, List.take_take, min_eq_left enough]
      rw [if_pos rfl, same, known]
      exact ⟨_,runs,fun _ => rfl⟩
    · have malformed : Eigrp.tlv2_addpath_decode afi external ((pkt.ahead attr_end).take data_len) route = none := by
        have size : ((pkt.ahead attr_end).take data_len).length ≠ tlv2_addpath_data_len afi external := by
          rw [List.length_take]
          omega
        rw [Eigrp.tlv2_addpath_decode, guard, if_neg size]
        rfl
      rw [if_neg expected, malformed]
      refine ⟨0,?_,fun found => absurd rfl found⟩
      rw [skip_zero]
      rfl
  · simp only [if_neg addpath]
    exact ⟨data_len,rfl,fun _ => rfl⟩

/-- The loop over the attributes does with the octets in front of their end what it does with them as a list; it ends there
    where it finds no fault. -/
theorem tlv2_extended_loop_run (afi : Afi) (external : Bool) (attr_end fuel : Nat) (route : TlvRoute) {pkt : Stream}
    (within : attr_end ≤ pkt.endp) (begun : pkt.getp ≤ attr_end) :
    ∃ n, (tlv2_extended_loop afi external attr_end fuel route).run.run pkt =
        (Eigrp.tlv2_extended_decode afi external fuel (pkt.ahead attr_end) route, pkt.skip n) ∧
      (Eigrp.tlv2_extended_decode afi external fuel (pkt.ahead attr_end) route ≠ none → n = attr_end - pkt.getp) := by
  induction fuel generalizing route pkt with
  | zero =>
    have length := ahead_length pkt within
    rw [tlv2_extended_loop, run_bind_some (getThe_run pkt)]
    cases more : pkt.ahead attr_end with
    | nil =>
      rw [more, List.length_nil] at length
      refine ⟨0,?_,fun _ => by omega⟩
      rw [if_neg (by omega), skip_zero]
      rfl
    | cons byte bytes =>
      rw [more, List.length_cons] at length
      refine ⟨0,?_,fun found => absurd rfl found⟩
      rw [if_pos (by omega), skip_zero]
      rfl
  | succ fuel ih =>
    have length := ahead_length pkt within
    rw [tlv2_extended_loop, run_bind_some (getThe_run pkt)]
    cases more : pkt.ahead attr_end with
    | nil =>
      rw [more, List.length_nil] at length
      refine ⟨0,?_,fun _ => by omega⟩
      rw [if_neg (by omega), skip_zero]
      rfl
    | cons opcode attr =>
      obtain ⟨opcode_run,opcode_behind,opcode_getp,opcode_length⟩ := getc_ahead within more
      rw [if_pos (by omega)]
      cases attr with
      | nil =>
        rw [if_pos (by simp at opcode_length; omega)]
        refine ⟨0,?_,fun found => absurd rfl found⟩
        rw [skip_zero]
        rfl
      | cons words data =>
        obtain ⟨words_run,front,words_getp,words_length⟩ := @getc_ahead (pkt.skip 1) _ _ _ within opcode_behind
        rw [if_neg (by rw [List.length_cons] at opcode_length; omega), run_bind_some opcode_run, run_bind_some words_run,
          run_bind_some (getThe_run _)]
        by_cases long : words.toNat * 2 > data.length
        · have malformed : Eigrp.tlv2_extended_decode afi external (fuel + 1) (opcode :: words :: data) route = none := by
            simp [Eigrp.tlv2_extended_decode,stream_getc,guard,Nat.not_le.2 long]
          rw [if_pos (by omega), malformed]
          refine ⟨2,?_,fun found => absurd rfl found⟩
          rw [← skip_skip pkt 1 1]
          rfl
        · have turn : Eigrp.tlv2_extended_decode afi external (fuel + 1) (opcode :: words :: data) route =
              (if opcode = 0x07 then Eigrp.tlv2_addpath_decode afi external (data.take (words.toNat * 2)) route else some route).bind
                (Eigrp.tlv2_extended_decode afi external fuel (data.drop (words.toNat * 2))) := by
            by_cases addpath : opcode = 0x07 <;>
              simp [Eigrp.tlv2_extended_decode,stream_getc,guard,Nat.not_lt.1 long,addpath]
          obtain ⟨n,runs,read⟩ := @tlv2_attribute_run afi external opcode (words.toNat * 2) route
            ((pkt.skip 1).skip 1) attr_end within (by omega)
          rw [front] at runs read
          rw [if_neg (by omega), turn]
          cases found : (if opcode = 0x07 then Eigrp.tlv2_addpath_decode afi external (data.take (words.toNat * 2)) route
              else some route) with
          | none =>
            rw [found] at runs
            refine ⟨1 + (1 + n),?_,fun found => absurd rfl found⟩
            rw [run_bind_none runs, skip_skip, skip_skip]
            rfl
          | some next =>
            rw [found] at runs read
            have size : n = words.toNat * 2 := read (by simp)
            subst size
            have getp : (((pkt.skip 1).skip 1).skip (words.toNat * 2)).getp = ((pkt.skip 1).skip 1).getp + words.toNat * 2 :=
              skip_getp _ (by rw [unread_length]; have same : ((pkt.skip 1).skip 1).endp = pkt.endp := rfl; omega)
            have rest : (((pkt.skip 1).skip 1).skip (words.toNat * 2)).ahead attr_end = data.drop (words.toNat * 2) := by
              rw [ahead_skip ((pkt.skip 1).skip 1) within (by omega), front]
            obtain ⟨k,runs_next,ends⟩ := @ih next (((pkt.skip 1).skip 1).skip (words.toNat * 2)) within (by omega)
            rw [rest] at runs_next ends
            rw [run_bind_some runs, run_bind_some (getThe_run _), if_pos getp, runs_next, Option.bind_some, skip_skip, skip_skip,
              skip_skip]
            refine ⟨_,rfl,fun found => ?_⟩
            have last := ends found
            omega

/-- The attributes of a metric section: as many octets as it says, or none of them. -/
def tlv2_extended_reader (afi : Afi) (external : Bool) (attr_len : Nat) (route : TlvRoute) (bytes : List UInt8) :
    Option (TlvRoute × List UInt8) :=
  if attr_len ≤ bytes.length then
    (Eigrp.tlv2_extended_decode afi external attr_len (bytes.take attr_len) route).map fun route => (route, bytes.drop attr_len)
  else none

theorem tlv2_extended_follows (afi : Afi) (external : Bool) (attr_len : Nat) (route : TlvRoute) :
    Follows (tlv2_extended_decode afi external attr_len route) (tlv2_extended_reader afi external attr_len route) := by
  intro pkt
  have length : pkt.unread.length = pkt.remaining := pkt.unread_length
  unfold tlv2_extended_decode tlv2_extended_reader
  by_cases empty : attr_len = 0
  · subst empty
    refine ⟨0,?_,?_⟩
    · rw [if_pos rfl, if_pos (Nat.zero_le _), skip_zero]
      simp [Eigrp.tlv2_extended_decode]
      rfl
    · intro read found
      rw [if_pos (Nat.zero_le _)] at found
      simp only [List.take_zero,Eigrp.tlv2_extended_decode,Option.map_some] at found
      cases found
      rfl
  · rw [if_neg empty, run_bind_some (getThe_run pkt)]
    by_cases enough : attr_len ≤ pkt.remaining
    · have ordered := pkt.ordered
      have within : pkt.getp + attr_len ≤ pkt.endp := by
        simp only [remaining] at enough
        omega
      have attr : pkt.ahead (pkt.getp + attr_len) = pkt.unread.take attr_len := by rw [ahead, Nat.add_sub_cancel_left]
      obtain ⟨n,runs,ends⟩ := tlv2_extended_loop_run afi external (pkt.getp + attr_len) attr_len route within (by omega)
      rw [attr] at runs ends
      rw [if_pos enough, if_pos (by omega), run_bind_some (getThe_run pkt), runs]
      refine ⟨n,?_,?_⟩
      · cases Eigrp.tlv2_extended_decode afi external attr_len (pkt.unread.take attr_len) route <;> rfl
      · intro read found
        obtain ⟨next,decoded,same⟩ := Option.map_eq_some_iff.1 found
        have size := ends (by simp [decoded])
        subst same
        rw [size, Nat.add_sub_cancel_left]
    · rw [if_neg enough, if_neg (by omega)]
      refine ⟨0,?_,by simp⟩
      rw [skip_zero]
      rfl

/-- A metric section with its octets. -/
def tlv2_metric_reader (afi : Afi) (external : Bool) (route : TlvRoute) (bytes : List UInt8) :
    Option ((TlvRoute × Nat) × List UInt8) := do
  let ((attr_words, metric), bytes) ← Eigrp.tlv2_section_decode bytes
  let (route, bytes) ← tlv2_extended_reader afi external (attr_words.toNat * 2) { route with metric } bytes
  some ((route, 24 + attr_words.toNat * 2), bytes)

theorem tlv2_metric_reader_route (afi : Afi) (external : Bool) (route : TlvRoute) (bytes : List UInt8) :
    (tlv2_metric_reader afi external route bytes).map (fun read => (read.1.1, read.2)) =
      Eigrp.tlv2_metric_decode afi external route bytes := by
  simp only [tlv2_metric_reader,Eigrp.tlv2_metric_decode,tlv2_extended_reader,Option.bind_eq_bind,Option.map_bind]
  congr 1
  funext read
  simp only [Function.comp_def,guard]
  by_cases enough : read.1.1.toNat * 2 ≤ read.2.length
  · rw [if_pos enough, if_pos enough]
    cases Eigrp.tlv2_extended_decode afi external (read.1.1.toNat * 2) (read.2.take (read.1.1.toNat * 2)) { route with metric := read.1.2 } <;> rfl
  · rw [if_neg enough, if_neg enough]
    rfl

theorem tlv2_metric_follows (afi : Afi) (external : Bool) (route : TlvRoute) :
    Follows (tlv2_metric_decode afi external route) (tlv2_metric_reader afi external route) := by
  have fields := tlv2_section_covers.guarded.bind fun section_read =>
    (tlv2_extended_follows afi external (section_read.1.toNat * 2) { route with metric := section_read.2 }).bind fun route =>
    .pure (route, 24 + section_read.1.toNat * 2)
  exact fields.of_eq rfl fun _ => rfl

theorem tlv2_section_words {bytes : List UInt8} {read : (UInt8 × Metrics) × List UInt8}
    (found : Eigrp.tlv2_section_decode bytes = some read) : bytes.head? = some read.1.1 := by
  cases bytes with
  | nil => cases found
  | cons byte bytes =>
    unfold Eigrp.tlv2_section_decode at found
    obtain ⟨_,first,found⟩ := Option.bind_eq_some_iff.1 found
    iterate 11 obtain ⟨_,_,found⟩ := Option.bind_eq_some_iff.1 found
    cases first
    cases found
    rfl

theorem tlv2_metric_reader_size {afi : Afi} {external : Bool} {route : TlvRoute} {bytes : List UInt8}
    {read : (TlvRoute × Nat) × List UInt8} (found : tlv2_metric_reader afi external route bytes = some read) :
    bytes.length = read.1.2 + read.2.length ∧ ∃ attr_words, bytes.head? = some attr_words ∧ read.1.2 = 24 + attr_words.toNat * 2 := by
  simp only [tlv2_metric_reader,tlv2_extended_reader,Option.bind_eq_bind,Option.bind_eq_some_iff] at found
  obtain ⟨⟨⟨attr_words,metric⟩,behind_section⟩,first,⟨next,behind⟩,second,same⟩ := found
  cases same
  have section_size := tlv2_section_covers.size first
  split at second
  · rename_i enough
    obtain ⟨_,_,same⟩ := Option.map_eq_some_iff.1 second
    cases same
    simp only [List.length_drop] at *
    exact ⟨by omega,attr_words,tlv2_section_words first,rfl⟩
  · cases second

/-- The external data of a wide route, where it has some. -/
def tlv2_extdata_reader (external : Bool) (extdata : ExtData) (body : List UInt8) : Option (ExtData × List UInt8) :=
  if external then Eigrp.tlv2_external_decode extdata body else some (extdata, body)

theorem tlv2_extdata_follows (external : Bool) (extdata : ExtData) :
    Follows (if external then tlv2_external_decode extdata else pure extdata) (tlv2_extdata_reader external extdata) := by
  cases external with
  | true => exact (tlv2_external_covers extdata).guarded
  | false => exact .pure extdata

/-- The fields of a wide route with their octets. -/
def tlv2_reader (afi : Afi) (src : Address) (external : Bool) (topology_id : UInt16) (rid : UInt32) (body : List UInt8) :
    Option ((Tlv × Nat) × List UInt8) := do
  let ((route, decoded_metric), body) ← tlv2_metric_reader afi external { extdata := { orig := rid } } body
  let (extdata, body) ← tlv2_extdata_reader external route.extdata body
  let ((dest, decoded), body) ← prefix_reader afi body
  some (({ dest, external, nexthop := if route.nexthop = 0 then src else route.nexthop, extdata, metric := route.metric, topology_id },
    tlv_hdr_size + 8 + decoded_metric + (if external then 16 else 0) + decoded), body)

theorem tlv2_reader_route (afi : Afi) (src : Address) (external : Bool) (topology_id : UInt16) (rid : UInt32) (body : List UInt8) :
    (tlv2_reader afi src external topology_id rid body).map (fun read => read.1.1) =
      tlv2_body_decode afi src external topology_id rid body := by
  unfold tlv2_body_decode tlv2_reader
  rw [← tlv2_metric_reader_route]
  cases external <;> simp [tlv2_extdata_reader,prefix_reader,Option.map_bind,Option.bind_map]

theorem tlv2_fields_follow (afi : Afi) (src : Address) (external : Bool) (topology_id : UInt16) (rid : UInt32) :
    Follows (tlv2_fields afi src external topology_id rid) (tlv2_reader afi src external topology_id rid) := by
  have fields := (tlv2_metric_follows afi external { extdata := { orig := rid } }).bind fun metric =>
    (tlv2_extdata_follows external metric.1.extdata).bind fun extdata => (packet_prefix_follows afi).bind fun dest =>
    .pure (({ dest := dest.1, external, nexthop := if metric.1.nexthop = 0 then src else metric.1.nexthop, extdata
              metric := metric.1.metric, topology_id } : Tlv),
      tlv_hdr_size + 8 + metric.2 + (if external then 16 else 0) + dest.2)
  exact fields.of_eq (by cases external <;> rfl) fun _ => rfl

theorem tlv2_reader_external {afi : Afi} {src : Address} {external : Bool} {topology_id : UInt16} {rid : UInt32} {body : List UInt8}
    {read : (Tlv × Nat) × List UInt8} (found : tlv2_reader afi src external topology_id rid body = some read) :
    read.1.1.external = external := by
  simp only [tlv2_reader,Option.bind_eq_bind,Option.bind_eq_some_iff] at found
  obtain ⟨_,_,_,_,_,_,same⟩ := found
  cases same
  rfl

theorem tlv2_reader_size {afi : Afi} {src : Address} {external : Bool} {topology_id : UInt16} {rid : UInt32} {body : List UInt8}
    {read : (Tlv × Nat) × List UInt8} (found : tlv2_reader afi src external topology_id rid body = some read) :
    tlv_hdr_size + 8 + body.length = read.1.2 + read.2.length ∧ ∃ attr_words, body.head? = some attr_words ∧
      read.1.2 = tlv2_min_length external + attr_words.toNat * 2 + afi.prefix_bytes read.1.1.dest.prefix_length.toNat := by
  simp only [tlv2_reader,tlv2_extdata_reader,Option.bind_eq_bind,Option.bind_eq_some_iff] at found
  obtain ⟨⟨⟨route,decoded_metric⟩,behind_metric⟩,first,⟨extdata,behind_extdata⟩,second,⟨⟨dest,decoded⟩,rest⟩,third,same⟩ := found
  cases same
  obtain ⟨metric_size,attr_words,words,metric_bytes⟩ := tlv2_metric_reader_size first
  have dest_size := prefix_reader_size third
  have extdata_size : behind_metric.length = (if external then 16 else 0) + behind_extdata.length := by
    cases external with
    | true => exact (tlv2_external_covers _).size second
    | false =>
      cases second
      simp
  simp only [tlv2_min_length,tlv_hdr_size] at *
  exact ⟨by omega,attr_words,words,by omega⟩

/-! ## One TLV of a packet -/

section Window
variable {pkt : Stream} {length : Nat} (header : tlv_hdr_size ≤ length) (within : length ≤ pkt.remaining)
include header within

/-- The stream while the fields of a TLV are read. -/
theorem window_unread :
    ((pkt.skip tlv_hdr_size).set_endp (pkt.getp + length)).unread = (pkt.unread.take length).drop tlv_hdr_size := by
  have allocated := pkt.allocated
  have ordered := pkt.ordered
  simp only [remaining] at within
  have getp : (pkt.skip tlv_hdr_size).getp = pkt.getp + tlv_hdr_size := pkt.skip_getp (by rw [unread_length]; omega)
  have same : (pkt.skip tlv_hdr_size).ensure (pkt.getp + length) = pkt.data := ensure_within _ (by rw [skip_data]; omega)
  simp only [unread,set_endp,same,getp]
  rw [if_neg (by omega), List.take_drop, ← List.drop_drop, List.take_take, min_eq_left (by omega)]

omit header in
theorem window_data (n : Nat) :
    ((((pkt.skip tlv_hdr_size).set_endp (pkt.getp + length)).skip n).set_endp pkt.endp).data = pkt.data := by
  have allocated := pkt.allocated
  have ordered := pkt.ordered
  simp only [remaining] at within
  have inner : (pkt.skip tlv_hdr_size).ensure (pkt.getp + length) = pkt.data := ensure_within _ (by rw [skip_data]; omega)
  have outer : (((pkt.skip tlv_hdr_size).set_endp (pkt.getp + length)).skip n).data = pkt.data := inner
  change Stream.ensure _ pkt.endp = _
  rw [ensure_within _ (by rw [outer]; exact allocated), outer]

omit header in
/-- Behind the fields the end is set back, and the next TLV begins. -/
theorem window_behind (n : Nat) :
    ((((pkt.skip tlv_hdr_size).set_endp (pkt.getp + length)).skip n).set_endp pkt.endp).decode_skip (pkt.getp + length) =
      pkt.skip length := by
  have ordered := pkt.ordered
  have data := window_data within n
  have endp : ((((pkt.skip tlv_hdr_size).set_endp (pkt.getp + length)).skip n).set_endp pkt.endp).endp = pkt.endp := rfl
  generalize (((pkt.skip tlv_hdr_size).set_endp (pkt.getp + length)).skip n).set_endp pkt.endp = behind at data endp ⊢
  simp only [remaining] at within
  rw [decode_skip, if_pos (by omega)]
  ext1
  · exact data
  · rw [skip, set_getp_getp, set_getp_getp, endp]
  · exact endp

omit header in
theorem window_abort (n : Nat) :
    ((((pkt.skip tlv_hdr_size).set_endp (pkt.getp + length)).skip n).set_endp pkt.endp).decode_abort = pkt.skip pkt.remaining := by
  have ordered := pkt.ordered
  have data := window_data within n
  have endp : ((((pkt.skip tlv_hdr_size).set_endp (pkt.getp + length)).skip n).set_endp pkt.endp).endp = pkt.endp := rfl
  generalize (((pkt.skip tlv_hdr_size).set_endp (pkt.getp + length)).skip n).set_endp pkt.endp = behind at data endp ⊢
  ext1
  · exact data
  · rw [decode_abort, skip, set_getp_getp, set_getp_getp, endp]
    simp only [remaining]
    omega
  · exact endp

end Window

theorem skip_abort (pkt : Stream) (n : Nat) : (pkt.skip n).decode_abort = pkt.skip pkt.remaining := by
  have ordered := pkt.ordered
  ext1
  · rfl
  · rw [decode_abort, skip, skip, set_getp_getp, set_getp_getp]
    simp only [remaining,set_getp]
    omega
  · rfl

theorem skip_decode_skip (pkt : Stream) (n : Nat) {length : Nat} (within : length ≤ pkt.remaining) :
    (pkt.skip n).decode_skip (pkt.getp + length) = pkt.skip length := by
  have ordered := pkt.ordered
  simp only [remaining] at within
  rw [decode_skip, if_pos (show pkt.getp + length ≤ (pkt.skip n).endp by rw [skip_endp]; omega)]
  rfl

theorem header_run {pkt : Stream} (enough : tlv_hdr_size ≤ pkt.remaining) : ∃ (type length : UInt16),
    tlv_header pkt.unread = some (type, length.toNat) ∧ getw.run pkt = (type, pkt.skip 2) ∧
      getw.run (pkt.skip 2) = (length, pkt.skip tlv_hdr_size) := by
  obtain ⟨value,reads,runs⟩ := getw_covers
  have size : pkt.unread.length = pkt.remaining := pkt.unread_length
  simp only [tlv_hdr_size] at enough
  have behind : 2 ≤ (pkt.skip 2).unread.length := by
    rw [skip_unread, List.length_drop]
    omega
  refine ⟨_,_,?_,runs pkt (by omega),by rw [runs _ behind, skip_skip]; rfl⟩
  have second := reads (pkt.unread.drop 2)
  rw [← skip_unread, if_pos behind] at second
  simp only [tlv_header]
  rw [reads, if_pos (by omega)]
  simp only [Option.bind_eq_bind,Option.bind_some]
  rw [← skip_unread, second]
  rfl

theorem header_short {pkt : Stream} (short : pkt.remaining < tlv_hdr_size) : tlv_header pkt.unread = none := by
  obtain ⟨value,reads,runs⟩ := getw_covers
  have size : pkt.unread.length = pkt.remaining := pkt.unread_length
  simp only [tlv_hdr_size] at short
  simp only [tlv_header]
  rw [reads]
  by_cases first : 2 ≤ pkt.unread.length
  · rw [if_pos first]
    simp only [Option.bind_eq_bind,Option.bind_some]
    rw [reads, if_neg (by rw [List.length_drop]; omega)]
    rfl
  · rw [if_neg first]
    rfl

/-- Behind the fields of a TLV: a route and the octets of its TLV, or the rest of the packet without one. -/
theorem decoded_run {fields : Decode (Tlv × Nat)} {reader : List UInt8 → Option ((Tlv × Nat) × List UInt8)}
    (follows : Follows fields reader) {pkt : Stream} {length k : Nat} (within : length ≤ pkt.remaining)
    (counted : ∀ read, reader (((pkt.skip tlv_hdr_size).set_endp (pkt.getp + length)).skip k).unread = some read →
      read.1.2 ≤ length ∧ tlv_hdr_size < read.1.2) :
    decoded length (pkt.getp + length) pkt.endp
        (fields.run.run (((pkt.skip tlv_hdr_size).set_endp (pkt.getp + length)).skip k)) =
      match reader (((pkt.skip tlv_hdr_size).set_endp (pkt.getp + length)).skip k).unread with
      | some read => (some read.1.1, pkt.skip length)
      | none => (none, pkt.skip pkt.remaining) := by
  obtain ⟨n,runs,_⟩ := follows (((pkt.skip tlv_hdr_size).set_endp (pkt.getp + length)).skip k)
  rw [runs, skip_skip]
  cases found : reader (((pkt.skip tlv_hdr_size).set_endp (pkt.getp + length)).skip k).unread with
  | none =>
    simp only [Option.map_none,decoded]
    rw [window_abort within]
  | some read =>
    obtain ⟨⟨route,bytes⟩,rest⟩ := read
    obtain ⟨bounded,some_octets⟩ := counted _ found
    simp only at bounded some_octets
    simp only [Option.map_some,decoded]
    rw [if_neg (by omega), window_behind within]

/-- A decoder on a stream moves on; what it makes of the unread octets is what the list decoder makes of them, where a
    descriptor can be allocated. -/
structure Refines (created : Bool) (pkt : Stream) (result : Option Tlv × Stream) (known : Option Tlv × List UInt8) (n : Nat) :
    Prop where
  route : result.1 = if created then known.1 else none
  stream : result.2 = pkt.skip n
  moves : 0 < pkt.remaining → 0 < n
  rest : created → known.2 = pkt.unread.drop n

theorem refines_abort (created : Bool) (pkt : Stream) :
    Refines created pkt (none, pkt.skip pkt.remaining) (none, []) pkt.remaining where
  route := by simp
  stream := rfl
  moves := id
  rest := by
    intro _
    exact (List.drop_of_length_le (by rw [unread_length, remaining])).symm

theorem refines_skip (created : Bool) (pkt : Stream) {length : Nat} (framed : tlv_hdr_size ≤ length) :
    Refines created pkt (none, pkt.skip length) (none, pkt.unread.drop length) length where
  route := by simp
  stream := rfl
  moves := by
    intro _
    simp only [tlv_hdr_size] at framed
    omega
  rest := fun _ => rfl

/-- The route of a TLV behind its fields. -/
theorem refines_decoded (pkt : Stream) {length : Nat} (framed : tlv_hdr_size ≤ length) (read : Option ((Tlv × Nat) × List UInt8)) :
    ∃ n, Refines true pkt
      (match read with
        | some read => (some read.1.1, pkt.skip length)
        | none => (none, pkt.skip pkt.remaining))
      (match read.map (fun read => read.1.1) with
        | some route => (some route, pkt.unread.drop length)
        | none => (none, [])) n := by
  cases read with
  | none => exact ⟨_,refines_abort true pkt⟩
  | some read =>
    refine ⟨length,rfl,rfl,?_,fun _ => rfl⟩
    intro _
    simp only [tlv_hdr_size] at framed
    omega

theorem tlv1_decoder_refines (afi : Afi) (created : Bool) (pkt : Stream) :
    ∃ n, Refines created pkt (tlv1_decoder afi created pkt) (Eigrp.tlv1_decoder afi pkt.unread) n := by
  have size : pkt.unread.length = pkt.remaining := pkt.unread_length
  unfold tlv1_decoder Eigrp.tlv1_decoder
  by_cases short : pkt.remaining < tlv_hdr_size
  · rw [header_short short, if_pos short, ← skip_zero pkt, skip_abort, skip_zero]
    exact ⟨_,refines_abort created pkt⟩
  · obtain ⟨type,length,header,first,second⟩ := header_run (Nat.not_lt.1 short)
    rw [header, if_neg short, first]
    simp only
    rw [second]
    simp only
    by_cases route : type = afi.classic_internal_tlv_type ∨ type = afi.classic_external_tlv_type
    · rw [if_neg (by tauto), if_pos route]
      by_cases corrupt : length.toNat < tlv1_min_length afi (type != afi.classic_internal_tlv_type) ∨ length.toNat > pkt.remaining
      · rw [if_pos corrupt, if_pos (by omega), skip_abort]
        exact ⟨_,refines_abort created pkt⟩
      · obtain ⟨long,within⟩ := not_or.1 corrupt
        have framed : tlv_hdr_size ≤ length.toNat := by
          simp only [tlv1_min_length] at long
          omega
        have body := window_unread framed (Nat.not_lt.1 within)
        rw [if_neg corrupt, if_neg (show ¬ (_ ∨ pkt.unread.length < length.toNat) by omega), skip_endp]
        cases created with
        | false =>
          have behind := window_behind (Nat.not_lt.1 within) 0
          rw [skip_zero] at behind
          rw [if_neg (by simp), behind]
          refine ⟨length.toNat,rfl,rfl,?_,by simp⟩
          intro _
          simp only [tlv_hdr_size] at framed
          omega
        | true =>
          have run := decoded_run (tlv1_fields_follow afi (type != afi.classic_internal_tlv_type)) (k := 0) (Nat.not_lt.1 within) (by
            intro read found
            rw [skip_zero, body] at found
            have bytes := tlv1_reader_size found
            simp only [List.length_drop,List.length_take,tlv1_min_length] at bytes long
            omega)
          rw [skip_zero, body] at run
          rw [if_pos rfl, run, ← tlv1_reader_route]
          exact refines_decoded pkt framed _
    · rw [if_pos (by tauto), if_neg route]
      by_cases framed : tlv_hdr_size ≤ length.toNat ∧ length.toNat ≤ pkt.remaining
      · rw [if_pos framed, if_pos (by omega), skip_decode_skip _ _ framed.2]
        exact ⟨_,refines_skip created pkt framed.1⟩
      · rw [if_neg framed, if_neg (by omega), skip_abort]
        exact ⟨_,refines_abort created pkt⟩

theorem tlv2_decoder_refines (afi : Afi) (src : Address) (created : Bool) (pkt : Stream) :
    ∃ n, Refines created pkt (tlv2_decoder afi src created pkt) (Eigrp.tlv2_decoder afi src pkt.unread) n := by
  have size : pkt.unread.length = pkt.remaining := pkt.unread_length
  unfold tlv2_decoder Eigrp.tlv2_decoder
  by_cases short : pkt.remaining < tlv_hdr_size
  · rw [header_short short, if_pos short, ← skip_zero pkt, skip_abort, skip_zero]
    exact ⟨_,refines_abort created pkt⟩
  · obtain ⟨type,length,header,first,second⟩ := header_run (Nat.not_lt.1 short)
    rw [header, if_neg short, first]
    simp only
    rw [second]
    simp only
    by_cases route : type = tlv_mp_int ∨ type = tlv_mp_ext
    · rw [if_neg (by tauto), if_pos route]
      by_cases corrupt : length.toNat < tlv2_min_length (type != tlv_mp_int) ∨ length.toNat > pkt.remaining
      · rw [if_pos corrupt, if_pos (by omega), skip_abort]
        exact ⟨_,refines_abort created pkt⟩
      · obtain ⟨long,within⟩ := not_or.1 corrupt
        have framed : tlv_hdr_size ≤ length.toNat := by
          simp only [tlv2_min_length] at long
          omega
        have body := window_unread framed (Nat.not_lt.1 within)
        obtain ⟨k,header_run,behind⟩ := tlv2_header_ext_covers.guarded ((pkt.skip tlv_hdr_size).set_endp (pkt.getp + length.toNat))
        rw [body] at header_run behind
        have runs : tlv2_header_ext.run.run ((pkt.skip tlv_hdr_size).set_endp (pkt.getp + length.toNat)) = _ := header_run
        rw [if_neg corrupt, if_neg (show ¬ (_ ∨ pkt.unread.length < length.toNat) by omega), skip_endp, runs]
        cases found : Eigrp.tlv2_header_ext ((pkt.unread.take length.toNat).drop tlv_hdr_size) with
        | none =>
          simp only [Option.map_none]
          rw [window_abort (Nat.not_lt.1 within)]
          exact ⟨_,refines_abort created pkt⟩
        | some read =>
          obtain ⟨⟨family,tid,rid⟩,rest⟩ := read
          have fields_begin : rest = ((pkt.unread.take length.toNat).drop tlv_hdr_size).drop k := behind _ found
          have fields_unread : (((pkt.skip tlv_hdr_size).set_endp (pkt.getp + length.toNat)).skip k).unread = rest := by
            rw [skip_unread, body, fields_begin]
          have header_bytes := tlv2_header_ext_covers.size found
          simp only [Option.map_some]
          by_cases foreign : family ≠ afi.multiprotocol_afi
          · rw [if_pos (Or.inl foreign), if_pos foreign, window_behind (Nat.not_lt.1 within)]
            exact ⟨_,refines_skip created pkt framed⟩
          · rw [if_neg foreign]
            cases created with
            | false =>
              rw [if_pos (by simp), window_behind (Nat.not_lt.1 within)]
              refine ⟨length.toNat,rfl,rfl,?_,by simp⟩
              intro _
              simp only [tlv_hdr_size] at framed
              omega
            | true =>
              have run := decoded_run (tlv2_fields_follow afi src (type != tlv_mp_int) tid rid) (k := k) (Nat.not_lt.1 within) (by
                intro read found
                rw [fields_unread] at found
                obtain ⟨bytes,_,_,counted⟩ := tlv2_reader_size found
                simp only [List.length_drop,List.length_take,tlv2_min_length] at bytes long header_bytes counted
                omega)
              rw [fields_unread] at run
              rw [if_neg (by simp [foreign]), run, ← tlv2_reader_route]
              exact refines_decoded pkt framed _
    · rw [if_pos (by tauto), if_neg route]
      by_cases framed : tlv_hdr_size ≤ length.toNat ∧ length.toNat ≤ pkt.remaining
      · rw [if_pos framed, if_pos (by omega), skip_decode_skip _ _ framed.2]
        exact ⟨_,refines_skip created pkt framed.1⟩
      · rw [if_neg framed, if_neg (by omega), skip_abort]
        exact ⟨_,refines_abort created pkt⟩

end Stream

end Eigrp
