import Eigrp.Splitting
import Eigrp.Rtp

/-!
# Datagrams and the MTU

Every builder takes its budget from `eigrp_packet_payload_limit`, which subtracts the IPv4 header for both families. The
packetizer and the two walks over the table keep it in sixteen bits; Hellos are not held to it, except the one with the
SEQUENCE TLV, which is only built if it fits.
-/

namespace Eigrp.Datagrams
open Eigrp.Lib Eigrp.Splitting

/-! ## The budget -/

/-- `EIGRP_IPV4_HEADER_LEN`. -/
def ipv4_header_len : Nat := 20

/-- `eigrp_packet_payload_limit`. -/
def packet_payload_limit (interface_mtu : Nat) : Nat :=
  if interface_mtu ≤ ipv4_header_len then 0 else interface_mtu - ipv4_header_len

/-- The network header in front of an EIGRP packet. -/
def network_header : Afi → Nat
  | .ipv4 => 20
  | .ipv6 => 40

/-- What the builders read of an interface, of its neighbors and of its instance. -/
structure Port where
  afi : Afi
  curr_mtu : UInt32
  auth : Auth.Interface
  key_id : UInt32 := 0
  src : Nat → Address := fun _ => 0
  vrid : UInt16 := 0
  as : UInt16 := 1
  k_values : List.Vector UInt8 6 := ⟨[1,0,1,0,0,0],rfl⟩
  v_wait : UInt16 := 15
  host_major : UInt8 := 0
  host_minor : UInt8 := 0
  metric_version : UInt8 := 2

/-! ## Hellos -/

/-- The flags of a Hello: goodbye to all neighbors, a SEQUENCE TLV, goodbye to one neighbor. -/
structure HelloFlags where
  graceful_shutdown : Bool := false
  add_sequence : Bool := false
  graceful_shutdown_nbr : Bool := false
deriving DecidableEq, Repr

namespace Port
variable (port : Port)

/-- `eigrp_hello_parameter_encode`, with the number of octets it returns. -/
def hello_parameter_encode (graceful_shutdown : Bool) : UInt16 × List UInt8 :=
  (12, stream_putw 0x0001 ++ (stream_putw 12 ++
    ((if graceful_shutdown then List.replicate 6 0xff else port.k_values.toList) ++ stream_putw port.v_wait)))

/-- `eigrp_sw_version_encode`. -/
def sw_version_encode : UInt16 × List UInt8 :=
  (8, stream_putw 0x0004 ++ (stream_putw 8 ++ (stream_putc port.host_major ++ (stream_putc port.host_minor ++
    (stream_putc port.metric_version ++ stream_putc 2)))))

/-- The address of a neighbor behind its length. -/
def address_encode (address : Address) : List UInt8 :=
  stream_putc (UInt8.ofNat port.afi.packet_address_bytes) ++ put port.afi.packet_address_bytes address.toNat

/-- The neighbors that still have packets in front of a multicast. -/
def busy (nbrs : List Rtp.Peer) (sequence : Rtp.Sequence) (epoch : UInt64) : List Rtp.Peer :=
  nbrs.filter fun nbr => nbr.eligible epoch && nbr.prior_count sequence != 0

/-- `eigrp_sequence_encode`: the TLV is taken back if it lists nobody. -/
def sequence_encode (nbrs : List Rtp.Peer) (sequence : Rtp.Sequence) (epoch : UInt64) : UInt16 × List UInt8 :=
  let listed := busy nbrs sequence epoch
  let length := listed.foldl (fun length _ => length + 1 + UInt16.ofNat port.afi.packet_address_bytes) 4
  if listed.isEmpty then (0, [])
  else (length, stream_putw 0x0003 ++ (stream_putw length ++ listed.flatMap fun nbr => port.address_encode (port.src nbr.id)))

/-- `eigrp_next_sequence_encode`. -/
def next_sequence_encode (sequence : Rtp.Sequence) : UInt16 × List UInt8 :=
  (8, stream_putw 0x0005 ++ (stream_putw 8 ++ stream_putl sequence.1))

/-- `eigrp_peer_termination_encode`. -/
def peer_termination_encode (nbr_addr : Address) : UInt16 × List UInt8 :=
  let length := 4 + 1 + UInt16.ofNat port.afi.packet_address_bytes
  (length, stream_putw 0x0007 ++ (stream_putw length ++ port.address_encode nbr_addr))

/-- `eigrp_hello_encode`: the length of the packet, counted in sixteen bits, and its octets. A Hello with a SEQUENCE TLV comes
    with the neighbors of the interface, the sequence number and the epoch of the multicast. -/
def hello_encode (ack : UInt32) (flags : HelloFlags) (nbr_addr : Option Address) (multicast : List Rtp.Peer × Rtp.Sequence × UInt64) :
    UInt16 × List UInt8 :=
  let (nbrs, sequence, epoch) := multicast
  let auth := auth_tlv_encode port.auth port.key_id
  let parameter := port.hello_parameter_encode flags.graceful_shutdown
  let version := port.sw_version_encode
  let listing := if flags.add_sequence then port.sequence_encode nbrs sequence epoch else (0, [])
  let next := if flags.add_sequence then next_sequence_encode sequence else (0, [])
  let termination := match flags.graceful_shutdown_nbr, nbr_addr with
    | true, some nbr_addr => port.peer_termination_encode nbr_addr
    | _, _ => (0, [])
  (20 + UInt16.ofNat auth.length + parameter.1 + version.1 + listing.1 + next.1 + termination.1,
    packet_header_init Auth.opc_hello port.vrid port.as 0 0 ack ++ (auth ++ (parameter.2 ++ (version.2 ++ (listing.2 ++
      (next.2 ++ termination.2))))))

/-- What `eigrp_hello_sequence_fits` allows for the authentication TLV: a key chain counts, with or without a key. -/
def auth_budget : Nat := if port.auth.material_available then port.auth.auth_type.tlv_size else 0

/-- `eigrp_hello_sequence_fits`. -/
def hello_sequence_fits (nbrs : List Rtp.Peer) (sequence : Rtp.Sequence) (epoch : UInt64) : Bool :=
  20 + 12 + 8 + 4 + 8 + port.auth_budget + (busy nbrs sequence epoch).length * (port.afi.packet_address_bytes + 1) ≤
    packet_payload_limit port.curr_mtu.toNat

/-- The SEQUENCE Hello of `eigrp_packet_multicast_admit`: some receivers are ready for the multicast, some are busy, none is
    too far behind, and the list of the busy ones fits. -/
def multicast_hello (nbrs : List Rtp.Peer) (packet : Rtp.Multicast) : Option (UInt16 × List UInt8) :=
  let receivers := nbrs.filter (·.eligible packet.multicast_epoch)
  if receivers.any fun nbr => Rtp.multicast_reliable_max ≤ nbr.prior_count packet.sequence then none
  else if !receivers.any fun nbr => nbr.prior_count packet.sequence == 0 then none
  else if (busy nbrs packet.sequence packet.multicast_epoch).isEmpty then none
  else if port.hello_sequence_fits nbrs packet.sequence packet.multicast_epoch then
    some (port.hello_encode 0 { add_sequence := true } none (nbrs, packet.sequence, packet.multicast_epoch))
  else none

/-- The limit that the packetizer and the walks hold in a `uint16_t`. -/
def packet_limit : UInt16 := UInt16.ofNat (packet_payload_limit port.curr_mtu.toNat)

/-- The interface for the walks over the table. -/
def sync_link (intf : Intf) : SyncLink where
  intf := intf
  header := 20 + (auth_tlv_encode port.auth port.key_id).length
  packet_limit := port.packet_limit.toNat

end Port

/-! ## The graceful restart walk -/

/-- `enum Packet_part_type`. -/
inductive PacketPart where
  | na
  | first
  | last
deriving DecidableEq, Repr

/-- The fields of `eigrp_nbr_t` that keep a graceful restart, with the packets it has queued. -/
structure GrWalk where
  nbr_gr_prefixes_send : Option (List Nat) := none
  nbr_gr_packet_type : PacketPart := .na
  queued : List SyncPacket := []
  fault : Bool := false

section Parts
variable (link : SyncLink) (eigrp : Instance) (turn : SyncTurn)

/-- The loop of `eigrp_update_send_GR_part`: the packet and the destinations it has no room for, or nothing if a destination is
    read behind its end. An inbound filter raises an event for a destination that has been encoded before, so the loop does not
    see what that event changes. -/
def gr_loop : List Nat → SyncPacket → Nat → Option (SyncPacket × List Nat)
  | [], packet, _ => some (packet, [])
  | id :: prefixes, packet, route_count =>
    match eigrp.descriptor id with
    | none => none
    | some pd => match gr_tlvs (turn.egress eigrp) link.intf pd with
      | [] => gr_loop prefixes packet route_count
      | tlv :: _ =>
        let (longer, encoded) := route_encode_append turn.encoded link.packet_limit packet tlv
        if encoded < 0 ∧ route_count ≠ 0 then some (packet, id :: prefixes)
        else if encoded < 0 then gr_loop prefixes packet route_count
        else gr_loop prefixes longer (if encoded > 0 then route_count + 1 else route_count)

/-- `eigrp_update_send_GR_part`. -/
def update_send_gr_part (walk : GrWalk) : GrWalk :=
  match walk.nbr_gr_prefixes_send with
  | none => walk
  | some prefixes =>
    if walk.nbr_gr_packet_type = .last ∨ ¬ turn.allocates 0 then walk
    else
      let flags := if walk.nbr_gr_packet_type = .first then init_flag ||| rs_flag else 0
      match gr_loop link eigrp turn prefixes { flags, length := link.header } 0 with
      | none => { walk with fault := true }
      | some (packet, []) =>
        { walk with nbr_gr_prefixes_send := none, nbr_gr_packet_type := .last
                    queued := walk.queued ++ [{ packet with flags := flags ||| eot_flag }] }
      | some (packet, left) =>
        { walk with nbr_gr_prefixes_send := some left, nbr_gr_packet_type := .na, queued := walk.queued ++ [packet] }

/-- `eigrp_update_send_GR_event`: the next part waits until the last one is acknowledged. -/
def update_send_gr_event (walk : GrWalk) : GrWalk :=
  if turn.count > 0 ∨ walk.fault then walk else update_send_gr_part link eigrp turn walk

end Parts

/-- `eigrp_update_send_GR`. -/
def update_send_gr (eigrp : Instance) (walk : GrWalk) : GrWalk :=
  { walk with nbr_gr_prefixes_send := some eigrp.topology_table, nbr_gr_packet_type := .first }

/-- The events of a graceful restart, each with the instance as it finds it. -/
def gr_turns (link : SyncLink) (turns : List (Instance × SyncTurn)) (walk : GrWalk) : GrWalk :=
  turns.foldl (fun walk turn => update_send_gr_event link turn.1 turn.2 walk) walk

/-! ## Packets of an interface -/

/-- The lengths of the packets that are built for an interface. -/
inductive Port.Builds (port : Port) : UInt16 → Prop
  | packetizer (out : Outgoing) (sequence_number : UInt32) (adverts : List Advert) {packet : Stream} :
      out.afi = port.afi → out.auth = port.auth → out.key_id = port.key_id →
      packet ∈ out.packets port.packet_limit sequence_number adverts → port.Builds (UInt16.ofNat packet.endp)
  | sync (intf : Intf) (allocates : Bool) (turns : List (Instance × SyncTurn)) {packet : SyncPacket} :
      packet ∈ (sync_turns (port.sync_link intf) turns (update_send_eot (port.sync_link intf) allocates)).queued →
      port.Builds (UInt16.ofNat packet.length)
  | graceful_restart (intf : Intf) (eigrp : Instance) (turns : List (Instance × SyncTurn)) {packet : SyncPacket} :
      packet ∈ (gr_turns (port.sync_link intf) turns (update_send_gr eigrp {})).queued → port.Builds (UInt16.ofNat packet.length)
  | hello (ack : UInt32) (flags : HelloFlags) (nbr_addr : Option Address) (multicast : List Rtp.Peer × Rtp.Sequence × UInt64) :
      flags.add_sequence = false → port.Builds (port.hello_encode ack flags nbr_addr multicast).1
  | sequence_hello (nbrs : List Rtp.Peer) (packet : Rtp.Multicast) {hello : UInt16 × List UInt8} :
      port.multicast_hello nbrs packet = some hello → port.Builds hello.1

/-! ## Packets of routes -/

section Packetizer
variable {out : Outgoing} {packet_limit : UInt16}

theorem append_within {encoder : Route → Stream → UInt16 × Route × Stream} {route : Route} {pkt : Stream} :
    (pkt.packet_route_encode_append encoder packet_limit route).1 ≤ 0 ∧
        (pkt.packet_route_encode_append encoder packet_limit route).2.2 = pkt ∨
      0 < (pkt.packet_route_encode_append encoder packet_limit route).1 ∧
        (pkt.packet_route_encode_append encoder packet_limit route).2.2.endp ≤ packet_limit.toNat := by
  simp only [Stream.packet_route_encode_append]
  by_cases closed : packet_limit = 0
  · exact .inl (by simp [closed])
  rw [if_neg closed]
  generalize encoder route { data := List.replicate packet_limit.toNat 0 } = result
  obtain ⟨encoded,behind,scratch⟩ := result
  dsimp only
  by_cases nothing : encoded = 0
  · exact .inl (by simp [nothing])
  rw [if_neg nothing]
  by_cases full : pkt.endp + encoded.toNat > packet_limit.toNat
  · exact .inl (by simp [full])
  · rw [if_neg full]
    refine .inr ⟨?_,?_⟩
    · have some : encoded.toNat ≠ 0 := fun zero => nothing (UInt16.toNat_inj.1 zero)
      simp only
      omega
    · have taken : (scratch.data.take encoded.toNat).length ≤ encoded.toNat := List.length_take_le _ _
      show pkt.endp + (scratch.data.take encoded.toNat).length ≤ packet_limit.toNat
      omega

/-- A packet that holds a route is within the limit. -/
structure Within (packet_limit : UInt16) (builder : Builder) : Prop where
  sent : ∀ packet ∈ builder.sent, packet.endp ≤ packet_limit.toNat
  current : builder.route_count ≠ 0 → ∀ packet, builder.packet = some packet → packet.endp ≤ packet_limit.toNat

theorem builder_start_within {builder : Builder} (within : Within packet_limit builder) :
    Within packet_limit (out.builder_start builder) :=
  ⟨within.sent,fun used => absurd rfl used⟩

theorem builder_flush_within {builder : Builder} (within : Within packet_limit builder) :
    Within packet_limit (Outgoing.builder_flush builder) := by
  unfold Outgoing.builder_flush
  cases found : builder.packet with
  | none => exact within
  | some packet =>
    refine ⟨?_,by rintro _ _ ⟨⟩⟩
    dsimp only
    split
    · exact within.sent
    · rename_i used
      intro other member
      rcases List.mem_append.1 member with old | new
      · exact within.sent other old
      · rw [List.mem_singleton.1 new]
        exact within.current used packet found

theorem taken_within {builder : Builder} {encoder : Route → Stream → UInt16 × Route × Stream} {route : Route} {packet : Stream}
    (within : Within packet_limit builder) (found : builder.packet = some packet) :
    Within packet_limit { builder with
      packet := some (packet.packet_route_encode_append encoder packet_limit route).2.2
      route_count := if (packet.packet_route_encode_append encoder packet_limit route).1 > 0 then builder.route_count + 1
        else builder.route_count } := by
  refine ⟨within.sent,fun used other same => ?_⟩
  obtain rfl := Option.some.inj same
  rcases @append_within packet_limit encoder route packet with ⟨none_taken,same⟩ | ⟨_,small⟩
  · rw [same]
    simp only [gt_iff_lt,not_lt.2 none_taken,if_false] at used
    exact within.current used packet found
  · exact small

theorem builder_route_add_within {builder : Builder} (advert : Advert) (within : Within packet_limit builder) :
    Within packet_limit (out.builder_route_add packet_limit advert builder).2 := by
  unfold Outgoing.builder_route_add
  have started : Within packet_limit (if builder.packet.isNone then out.builder_start builder else builder) := by
    split
    · exact builder_start_within within
    · exact within
  generalize (if builder.packet.isNone then out.builder_start builder else builder) = builder at started
  dsimp only
  cases found : builder.packet with
  | none => exact started
  | some packet =>
    dsimp only
    split
    · exact taken_within started found
    · split
      · exact started
      · exact taken_within (builder_start_within (builder_flush_within started)) rfl

theorem packets_within (out : Outgoing) (packet_limit : UInt16) (sequence_number : UInt32) (adverts : List Advert) :
    ∀ packet ∈ out.packets packet_limit sequence_number adverts, packet.endp ≤ packet_limit.toNat := by
  have run (builder : Builder) (within : Within packet_limit builder) :
      Within packet_limit (adverts.foldl (fun builder advert => (out.builder_route_add packet_limit advert builder).2) builder) := by
    induction adverts generalizing builder with
    | nil => exact within
    | cons advert adverts ih => exact ih _ (builder_route_add_within advert within)
  exact (builder_flush_within (run _ ⟨by simp,by simp⟩)).sent

end Packetizer

/-! ## Packets of the walks -/

section Walks
variable {link : SyncLink} {eigrp : Instance} {turn : SyncTurn} {walk : SyncWalk}

/-- Whatever comes of a computation, the property holds of it. -/
def Either {σ : Type} (holds : σ → Prop) (result : Except σ σ) : Prop :=
  ∀ outcome, result = .ok outcome ∨ result = .error outcome → holds outcome

theorem either_ok {σ : Type} {holds : σ → Prop} {outcome : σ} (held : holds outcome) : Either holds (.ok outcome) := by
  rintro other (same | same)
  · cases same
    exact held
  · cases same

theorem either_error {σ : Type} {holds : σ → Prop} {outcome : σ} (held : holds outcome) : Either holds (.error outcome) := by
  rintro other (same | same)
  · cases same
  · cases same
    exact held

theorem either_bind {σ : Type} {holds : σ → Prop} {first : Except σ σ} {second : σ → Except σ σ} (one : Either holds first)
    (two : ∀ middle, holds middle → Either holds (second middle)) : Either holds (first >>= second) := by
  cases first with
  | error failed => exact either_error (one failed (.inr rfl))
  | ok middle => exact two middle (one middle (.inl rfl))

/-- What a packet of a walk comes to at most: a packet without routes is only a front. -/
def longest (link : SyncLink) : Nat := max link.header link.packet_limit

/-- No packet is longer than that. -/
structure Short (link : SyncLink) (walk : SyncWalk) : Prop where
  packet : walk.packet.length ≤ longest link
  queued : ∀ packet ∈ walk.queued, packet.length ≤ longest link

theorem route_encode_append_short (encoded : Tlv → Nat) {packet : SyncPacket} (tlv : Tlv) (short : packet.length ≤ longest link) :
    (route_encode_append encoded link.packet_limit packet tlv).1.length ≤ longest link := by
  unfold route_encode_append
  split_ifs with refused full
  · exact short
  · exact short
  · simp only [longest]
    omega

theorem header_short (link : SyncLink) : link.header ≤ longest link := Nat.le_max_left _ _

theorem sync_append_short (tlv : Tlv) (short : Short link walk) : Either (Short link) (sync_append link turn walk tlv) := by
  unfold sync_append
  dsimp only
  split
  · split
    · refine either_ok ⟨route_encode_append_short turn.encoded tlv (header_short link),?_⟩
      intro packet member
      rcases List.mem_append.1 member with old | new
      · exact short.queued packet old
      · rw [List.mem_singleton.1 new]
        exact short.packet
    · exact either_error short
  · exact either_ok ⟨route_encode_append_short turn.encoded tlv short.packet,short.queued⟩

theorem summary_grow_short (short : Short link walk) : Either (Short link) (summary_grow turn walk) := by
  unfold summary_grow
  split
  · split
    · exact either_ok ⟨short.packet,short.queued⟩
    · exact either_error short
  · exact either_ok short

theorem sync_specific_short (pd : PrefixDescriptor) (route : RouteDescriptor) (short : Short link walk) :
    Either (Short link) (sync_specific link eigrp turn pd route walk) := by
  unfold sync_specific
  split
  · exact either_ok short
  · exact sync_append_short _ short

theorem sync_visit_short (id : Nat) (short : Short link walk) : Either (Short link) (sync_visit link eigrp turn walk id) := by
  unfold sync_visit
  split
  · exact either_ok short
  split
  · exact either_ok short
  split
  · exact sync_specific_short _ _ short
  dsimp only
  split
  · split
    · exact either_bind (summary_grow_short short) fun _ grown => sync_specific_short _ _ grown
    · exact either_ok short
  · refine either_bind (summary_grow_short short) fun middle grown => ?_
    have noted (seen : List Prefix) : Short link { middle with summary_seen := seen } := ⟨grown.packet,grown.queued⟩
    split
    · exact either_ok (noted _)
    · refine either_bind (sync_append_short _ (noted _)) fun behind appended => ?_
      split
      · exact sync_specific_short _ _ appended
      · exact either_ok appended

theorem sync_loop_short (ids : List Nat) (inspected : Nat) (cursor : Option Nat) (short : Short link walk) :
    Short link (sync_loop link eigrp turn ids inspected cursor walk).walk := by
  induction ids generalizing inspected cursor walk with
  | nil => exact short
  | cons id ids ih =>
    have visited := @sync_visit_short link eigrp turn walk id short
    unfold sync_loop
    split
    · rename_i blocked failed
      have kept := visited blocked (.inr failed)
      exact ⟨kept.packet,kept.queued⟩
    · rename_i next done
      have kept := visited next (.inl done)
      split
      · exact kept
      · exact ih _ _ kept

/-- The packets of a walk so far. -/
structure SyncShort (link : SyncLink) (sync : Sync) : Prop where
  packet : ∀ packet, sync.sync_packet = some packet → packet.length ≤ longest link
  queued : ∀ packet ∈ sync.queued, packet.length ≤ longest link

theorem update_sync_continue_short {sync : Sync} (short : SyncShort link sync) :
    SyncShort link (update_sync_continue link eigrp turn sync) := by
  unfold update_sync_continue
  split
  · exact short
  split
  · exact short
  split
  · exact ⟨short.packet,short.queued⟩
  have begun : Short link (sync_walk link turn sync) := by
    refine ⟨?_,short.queued⟩
    cases found : sync.sync_packet with
    | none => simpa [sync_walk,found] using header_short link
    | some packet => simpa [sync_walk,found] using short.packet packet found
  have walked := @sync_loop_short link eigrp turn _ (ahead sync.sync_cursor eigrp.topology_table) 0 sync.sync_cursor begun
  dsimp only
  split
  · refine ⟨by rintro _ ⟨⟩,?_⟩
    intro packet member
    rcases List.mem_append.1 member with old | new
    · exact walked.queued packet old
    · rw [List.mem_singleton.1 new]
      exact walked.packet
  · refine ⟨?_,walked.queued⟩
    rintro packet ⟨⟩
    exact walked.packet

theorem sync_turns_short (link : SyncLink) (turns : List (Instance × SyncTurn)) (allocates : Bool) :
    SyncShort link (sync_turns link turns (update_send_eot link allocates)) := by
  have run (sync : Sync) (short : SyncShort link sync) : SyncShort link (sync_turns link turns sync) := by
    induction turns generalizing sync with
    | nil => exact short
    | cons turn turns ih => exact ih _ (update_sync_continue_short short)
  refine run _ ⟨?_,by simp [update_send_eot]⟩
  intro packet same
  cases allocates
  · cases same
  · cases same
    exact header_short link

theorem gr_loop_short {prefixes left : List Nat} {packet longer : SyncPacket} {route_count : Nat} (short : packet.length ≤ longest link)
    (done : gr_loop link eigrp turn prefixes packet route_count = some (longer, left)) : longer.length ≤ longest link := by
  induction prefixes generalizing packet route_count with
  | nil =>
    cases done
    exact short
  | cons id prefixes ih =>
    unfold gr_loop at done
    split at done
    · cases done
    split at done
    · exact ih short done
    dsimp only at done
    split at done
    · cases done
      exact short
    split at done
    · exact ih short done
    · exact ih (route_encode_append_short turn.encoded _ short) done

theorem update_send_gr_part_short {gr : GrWalk} (short : ∀ packet ∈ gr.queued, packet.length ≤ longest link) :
    ∀ packet ∈ (update_send_gr_part link eigrp turn gr).queued, packet.length ≤ longest link := by
  unfold update_send_gr_part
  split
  · exact short
  split
  · exact short
  have front (flags : UInt32) : ({ flags, length := link.header } : SyncPacket).length ≤ longest link := header_short link
  dsimp only
  split
  · exact short
  all_goals
    rename_i done
    have built := gr_loop_short (front _) done
    intro other member
    rcases List.mem_append.1 member with old | new
    · exact short other old
    · rw [List.mem_singleton.1 new]
      exact built

theorem gr_turns_short (link : SyncLink) (eigrp : Instance) (turns : List (Instance × SyncTurn)) :
    ∀ packet ∈ (gr_turns link turns (update_send_gr eigrp {})).queued, packet.length ≤ longest link := by
  have run (gr : GrWalk) (short : ∀ packet ∈ gr.queued, packet.length ≤ longest link) :
      ∀ packet ∈ (gr_turns link turns gr).queued, packet.length ≤ longest link := by
    induction turns generalizing gr with
    | nil => exact short
    | cons turn turns ih =>
      refine ih _ ?_
      dsimp only [update_send_gr_event]
      split
      · exact short
      · exact update_send_gr_part_short short
  exact run _ (by simp [update_send_gr])

end Walks

/-! ## Lengths of Hellos -/

namespace Port
variable {port : Port} {nbrs : List Rtp.Peer} {sequence : Rtp.Sequence} {epoch : UInt64}

/-- The octets of the authentication TLV. -/
def auth_len (port : Port) : Nat := (auth_tlv_encode port.auth port.key_id).length

/-- A key chain is configured that has no key to send with. -/
def keyless (port : Port) : Bool :=
  port.auth.material_available && port.auth.key_get.isNone && port.auth.auth_type.tlv_size != 0

theorem auth_len_eq (port : Port) :
    port.auth_len = if port.auth.material_available ∧ port.auth.key_get.isSome then port.auth.auth_type.tlv_size else 0 := by
  unfold auth_len auth_tlv_encode
  split
  · cases type : port.auth.auth_type <;> simp [Auth.AuthType.tlv_size,stream_putw,stream_putl]
  · rfl

theorem tlv_size_cases (auth_type : Auth.AuthType) : auth_type.tlv_size = 0 ∨ auth_type.tlv_size = 40 ∨ auth_type.tlv_size = 56 := by
  cases auth_type <;> simp [Auth.AuthType.tlv_size]

/-- The TLV is what the SEQUENCE Hello allows for, unless the key is missing. -/
theorem auth_len_budget (port : Port) :
    (port.keyless = true ∧ port.auth_len = 0 ∧ 40 ≤ port.auth_budget ∨ port.keyless = false ∧ port.auth_len = port.auth_budget) ∧
      (port.auth_len = 0 ∨ port.auth_len = 40 ∨ port.auth_len = 56) := by
  have sizes := tlv_size_cases port.auth.auth_type
  rw [auth_len_eq]
  unfold keyless auth_budget
  cases available : port.auth.material_available with
  | false => simp
  | true =>
    cases key : port.auth.key_get with
    | some key => simp [sizes]
    | none =>
      by_cases none : port.auth.auth_type.tlv_size = 0
      · simp [none]
      · simp [none]
        omega

theorem sequence_encode_length (listed : (busy nbrs sequence epoch).isEmpty = false) :
    (port.sequence_encode nbrs sequence epoch).1 =
      UInt16.ofNat (4 + (busy nbrs sequence epoch).length * (port.afi.packet_address_bytes + 1)) := by
  have counted (peers : List Rtp.Peer) (start : Nat) :
      peers.foldl (fun length _ => length + 1 + UInt16.ofNat port.afi.packet_address_bytes) (UInt16.ofNat start) =
        UInt16.ofNat (start + peers.length * (port.afi.packet_address_bytes + 1)) := by
    induction peers generalizing start with
    | nil => simp
    | cons peer peers ih =>
      have next : UInt16.ofNat start + 1 + UInt16.ofNat port.afi.packet_address_bytes =
          UInt16.ofNat (start + (port.afi.packet_address_bytes + 1)) := by
        rw [UInt16.ofNat_add,UInt16.ofNat_add,UInt16.add_assoc,UInt16.add_comm 1]
        rfl
      rw [List.foldl_cons,next,ih,List.length_cons,Nat.succ_mul]
      congr 1
      omega
  simp only [sequence_encode,listed]
  exact counted (busy nbrs sequence epoch) 4

/-- The length of a SEQUENCE Hello, modulo 2^16. -/
theorem sequence_hello_length (listed : (busy nbrs sequence epoch).isEmpty = false) :
    (port.hello_encode 0 { add_sequence := true } none (nbrs, sequence, epoch)).1.toNat =
      (52 + port.auth_len + (busy nbrs sequence epoch).length * (port.afi.packet_address_bytes + 1)) % 2 ^ 16 := by
  have listing := @sequence_encode_length port nbrs sequence epoch listed
  have octets : (auth_tlv_encode port.auth port.key_id).length = port.auth_len := rfl
  simp only [hello_encode,hello_parameter_encode,sw_version_encode,next_sequence_encode,if_true,listing,octets]
  simp only [UInt16.toNat_add,UInt16.toNat_ofNat',UInt16.toNat_zero,UInt16.reduceToNat]
  omega

/-- The length of every other Hello. -/
theorem hello_length (ack : UInt32) (flags : HelloFlags) (nbr_addr : Option Address) (multicast : List Rtp.Peer × Rtp.Sequence × UInt64)
    (unlisted : flags.add_sequence = false) :
    (port.hello_encode ack flags nbr_addr multicast).1.toNat =
      40 + port.auth_len + if flags.graceful_shutdown_nbr ∧ nbr_addr.isSome then 5 + port.afi.packet_address_bytes else 0 := by
  obtain ⟨_,sizes⟩ := port.auth_len_budget
  have octets : (UInt16.ofNat (auth_tlv_encode port.auth port.key_id).length).toNat = port.auth_len := by
    have same : (auth_tlv_encode port.auth port.key_id).length = port.auth_len := rfl
    rw [UInt16.toNat_ofNat',same]
    omega
  simp only [hello_encode,hello_parameter_encode,sw_version_encode,unlisted]
  cases flags.graceful_shutdown_nbr with
  | false =>
    simp only [UInt16.toNat_add,UInt16.toNat_zero,UInt16.reduceToNat,octets]
    simp
    omega
  | true =>
    cases nbr_addr with
    | none =>
      simp only [UInt16.toNat_add,UInt16.toNat_zero,UInt16.reduceToNat,octets]
      simp
      omega
    | some nbr_addr =>
      have address : (UInt16.ofNat port.afi.packet_address_bytes).toNat = port.afi.packet_address_bytes := by
        cases port.afi <;> rfl
      have small := packet_address_bytes_le port.afi
      simp only [peer_termination_encode,UInt16.toNat_add,UInt16.reduceToNat,octets,address]
      simp
      omega

theorem multicast_hello_length {packet : Rtp.Multicast} {hello : UInt16 × List UInt8} (built : port.multicast_hello nbrs packet = some hello) :
    ∃ listed, hello.1.toNat = (52 + port.auth_len + listed * (port.afi.packet_address_bytes + 1)) % 2 ^ 16 ∧
      52 + port.auth_budget + listed * (port.afi.packet_address_bytes + 1) ≤ packet_payload_limit port.curr_mtu.toNat := by
  unfold multicast_hello at built
  dsimp only at built
  split at built
  · cases built
  split at built
  · cases built
  split at built
  · cases built
  rename_i listed
  split at built
  · rename_i fits
    cases built
    refine ⟨_,sequence_hello_length (Bool.eq_false_iff.2 listed),?_⟩
    simpa [hello_sequence_fits] using fits
  · cases built

end Port

/-! ## Packets that are filled -/

section Filling
variable {out : Outgoing} {packet_limit : UInt16} {builder : Builder} {packet : Stream} {advert : Advert}

/-- A route that fits joins the packet at hand. -/
theorem builder_route_add_fits (found : builder.packet = some packet) (some_octets : out.full advert ≠ [])
    (fits : packet.endp + (out.full advert).length ≤ packet_limit.toNat) :
    ∃ longer, (out.builder_route_add packet_limit advert builder).2 =
        { builder with packet := some longer, route_count := builder.route_count + 1 } ∧
      longer.endp = packet.endp + (out.full advert).length := by
  have positive := List.length_pos_of_ne_nil some_octets
  have nonzero : packet_limit ≠ 0 := by
    rintro rfl
    rw [UInt16.toNat_zero] at fits
    omega
  have eq := @packet_route_encode_append_eq out.afi out.outlet (out.wire_route out.next_hop_self advert) out.encoder packet_limit nonzero packet
  change _ = (if _ + (out.full advert).length > _ ∧ out.full advert ≠ [] then _ else ((out.full advert).length : Int)) ∧
    _ = _ ++ (if _ + (out.full advert).length > _ then [] else out.full advert) at eq
  rw [if_neg (by omega),if_neg (by omega)] at eq
  obtain ⟨encoded,content⟩ := eq
  refine ⟨(packet.packet_route_encode_append (encode out.encoder out.afi out.outlet) packet_limit
    (out.wire_route out.next_hop_self advert)).2.2,?_,?_⟩
  · unfold Outgoing.builder_route_add
    simp only [found,Option.isNone_some,Bool.false_eq_true,if_false,encoded]
    rw [if_pos (by omega),if_pos (by omega)]
  · rw [← Stream.content_length,content,List.length_append,Stream.content_length]

theorem builder_routes_fit {adverts : List Advert} (found : builder.packet = some packet)
    (some_octets : ∀ advert ∈ adverts, out.full advert ≠ [])
    (fits : packet.endp + (adverts.map fun advert => (out.full advert).length).sum ≤ packet_limit.toNat) :
    ∃ longer, adverts.foldl (fun builder advert => (out.builder_route_add packet_limit advert builder).2) builder =
        { builder with packet := some longer, route_count := builder.route_count + adverts.length } ∧
      longer.endp = packet.endp + (adverts.map fun advert => (out.full advert).length).sum := by
  induction adverts generalizing builder packet with
  | nil => exact ⟨packet,by rw [← found]; rfl,rfl⟩
  | cons advert adverts ih =>
    rw [List.map_cons,List.sum_cons] at fits ⊢
    obtain ⟨longer,added,length⟩ :=
      @builder_route_add_fits out packet_limit builder packet advert found (some_octets advert (List.mem_cons_self ..)) (by omega)
    obtain ⟨last,rest,total⟩ := @ih { builder with packet := some longer, route_count := builder.route_count + 1 } longer rfl
      (fun advert member => some_octets advert (List.mem_cons_of_mem _ member)) (by omega)
    refine ⟨last,?_,by omega⟩
    rw [List.foldl_cons,added,rest,List.length_cons]
    congr 1
    dsimp only
    omega

/-- Routes that fit together are one packet. -/
theorem packets_one {adverts : List Advert} (some_adverts : adverts ≠ []) (some_octets : ∀ advert ∈ adverts, out.full advert ≠ [])
    (fits : out.base + (adverts.map fun advert => (out.full advert).length).sum ≤ packet_limit.toNat) (sequence_number : UInt32) :
    ∃ packet ∈ out.packets packet_limit sequence_number adverts,
      packet.endp = out.base + (adverts.map fun advert => (out.full advert).length).sum := by
  cases adverts with
  | nil => exact absurd rfl some_adverts
  | cons advert adverts =>
    let start : Builder := { sequence_number := sequence_number }
    let first : Stream := Stream.put {} (out.front (sequence_reserve sequence_number).1)
    have front : first.endp = out.base := by
      show 0 + (out.front (sequence_reserve sequence_number).1).length = out.base
      rw [out.front_length,Nat.zero_add]
    obtain ⟨longer,filled,length⟩ := @builder_routes_fit out packet_limit (out.builder_start start) first (advert :: adverts) rfl some_octets
      (by rw [front]; exact fits)
    rw [front] at length
    refine ⟨longer,?_,length⟩
    have started : (advert :: adverts).foldl (fun builder advert => (out.builder_route_add packet_limit advert builder).2) start =
        (advert :: adverts).foldl (fun builder advert => (out.builder_route_add packet_limit advert builder).2) (out.builder_start start) := by
      rw [List.foldl_cons,List.foldl_cons,Outgoing.builder_route_add_started advert rfl]
    have used : (out.builder_start start).route_count + (advert :: adverts).length ≠ 0 := by simp
    show longer ∈ (Outgoing.builder_flush ((advert :: adverts).foldl _ start)).sent
    rw [started,filled]
    simp [Outgoing.builder_flush]

end Filling

/-- The packetizer of an IPv6 interface without policy, for classic neighbors. -/
def plain (port : Port) : Outgoing where
  afi := .ipv6
  encoder := .tlv1
  offsets := fun _ => ⟨[],none,fun _ => false⟩
  auth := port.auth
  key_id := port.key_id
  opcode := Auth.opc_update
  vrid := port.vrid
  as := port.as

/-- A route to one of the networks with a prefix length of 16. -/
def site_route (external : Bool) (site : Nat) : Advert where
  destination := ⟨BitVec.ofNat 128 (site * 2 ^ 112),16⟩
  route :=
    { type := if external then eigrp_ext else eigrp_int, dest_afi := .ipv6, dest := ⟨BitVec.ofNat 128 (site * 2 ^ 112),16⟩
      metric := { delay := 10, bandwidth := 100 } }

theorem site_route_length (port : Port) (external : Bool) (site : Nat) :
    ((plain port).full (site_route external site)).length = if external then 60 else 40 := by
  let route : Route := ((plain port).wire_route true (site_route external site)).filtered {}
  let type : UInt16 := if external then Afi.classic_external_tlv_type .ipv6 else Afi.classic_internal_tlv_type .ipv6
  have nexthop : Afi.packet_address_encode .ipv6 route = some (put 16 0) := rfl
  have bits : route.dest.prefix_length = 16 := rfl
  obtain ⟨dest,encoded,octets⟩ : ∃ dest, Afi.packet_prefix_encode .ipv6 route = some dest ∧ dest.length = 4 := by
    unfold Afi.packet_prefix_encode
    rw [if_pos ⟨rfl,by rw [bits]; decide⟩,bits]
    refine ⟨_,rfl,?_⟩
    rw [List.length_append,put_length]
    simp [Afi.prefix_normalize,Afi.prefix_bytes,stream_putc]
  have typed : route.tlv1_type .ipv6 = some type := by cases external <;> rfl
  have size : tlv_hdr_size + (route.tlv1_body .ipv6 type (put 16 0) dest).length = if external then 60 else 40 := by
    have extdata := tlv1_external_encode_length route.extdata
    have metric := tlv1_metric_encode_length route.metric
    cases external <;>
      simp [Route.tlv1_body,type,tlv_hdr_size,metric,extdata,octets,Afi.classic_external_tlv_type,Afi.classic_internal_tlv_type]
  let frame : FramedTlv := ⟨type,route.tlv1_body .ipv6 type (put 16 0) dest,
    lt_trans (Route.tlv1_body_length nexthop encoded) (by decide)⟩
  have encodes : route.Tlv1Frame .ipv6 frame := ⟨typed,_,_,nexthop,encoded,rfl⟩
  rw [Outgoing.full,tlv_set_length]
  rcases outcome_count (Stream.tlv1_encoder_spec .ipv6 {} ((plain port).wire_route true (site_route external site)) {}).2 with
    ⟨_,none⟩ | ⟨other,is_other,counted⟩
  · exact absurd encodes (none frame)
  · obtain rfl := tlv1_frame_unique encodes is_other
    exact counted.trans size

/-- Routes that fill a packet up to less than twenty octets. -/
def filling (room : Nat) : List Advert :=
  (List.range (room / 40 - 1)).map (site_route false) ++ [site_route (20 ≤ room % 40) (room / 40)]

theorem filling_length (port : Port) {room : Nat} (some_room : 40 ≤ room) :
    ((filling room).map fun advert => ((plain port).full advert).length).sum ≤ room ∧
      room < ((filling room).map fun advert => ((plain port).full advert).length).sum + 20 := by
  have sites : ((List.range (room / 40 - 1)).map fun site => ((plain port).full (site_route false site)).length).sum =
      (room / 40 - 1) * 40 := by
    have each : (List.range (room / 40 - 1)).map (fun site => ((plain port).full (site_route false site)).length) =
        List.replicate (room / 40 - 1) 40 := by
      rw [List.map_congr_left fun site _ => site_route_length port false site]
      simp
    rw [each,List.sum_replicate,smul_eq_mul]
  rw [filling,List.map_append,List.map_map,List.sum_append]
  have last := site_route_length port (20 ≤ room % 40) (room / 40)
  simp only [Function.comp_def,sites,List.map_cons,List.map_nil,List.sum_cons,List.sum_nil,last]
  by_cases much : 20 ≤ room % 40 <;> simp [much] <;> omega

/-! ## A crowd of neighbors -/

/-- A neighbor that has one packet left in front of the multicast. -/
def busy_peer (id : Nat) : Rtp.Peer :=
  { id, state := .up, multicast_epoch := 1, retrans_queue := [{ sequence := ⟨1,Rtp.one_nonzero⟩ }] }

/-- One neighbor is ready for the multicast, the others are not. -/
def crowd (listed : Nat) : List Rtp.Peer :=
  { id := 0, state := .up, multicast_epoch := 1 } :: (List.range listed).map fun i => busy_peer (i + 1)

def announced : Rtp.Multicast := { sequence := ⟨2,Rtp.two_nonzero⟩, multicast_epoch := 1 }

theorem crowd_busy (listed : Nat) :
    (Port.busy (crowd listed) announced.sequence announced.multicast_epoch).length = listed := by
  have all : ((List.range listed).map fun i => busy_peer (i + 1)).filter (fun nbr => nbr.eligible 1 && nbr.prior_count ⟨2,by decide⟩ != 0) =
      (List.range listed).map fun i => busy_peer (i + 1) := by
    rw [List.filter_eq_self]
    intro nbr member
    obtain ⟨i,_,rfl⟩ := List.mem_map.1 member
    rfl
  have ready : Port.busy (crowd listed) announced.sequence announced.multicast_epoch =
      ((List.range listed).map fun i => busy_peer (i + 1)).filter (fun nbr => nbr.eligible 1 && nbr.prior_count ⟨2,by decide⟩ != 0) := rfl
  rw [ready,all,List.length_map,List.length_range]

/-- The Hello for the crowd is built if it fits. -/
theorem crowd_hello (port : Port) {listed : Nat} (some_listed : listed ≠ 0)
    (fits : 52 + port.auth_budget + listed * (port.afi.packet_address_bytes + 1) ≤ packet_payload_limit port.curr_mtu.toNat) :
    ∃ hello, port.multicast_hello (crowd listed) announced = some hello ∧
      hello.1.toNat = (52 + port.auth_len + listed * (port.afi.packet_address_bytes + 1)) % 2 ^ 16 := by
  have count := crowd_busy listed
  have nonempty : (Port.busy (crowd listed) announced.sequence announced.multicast_epoch).isEmpty = false := by
    rw [List.isEmpty_eq_false_iff,← List.length_pos_iff_ne_nil,count]
    omega
  have few : ((crowd listed).filter (·.eligible announced.multicast_epoch)).any
      (fun nbr => Rtp.multicast_reliable_max ≤ nbr.prior_count announced.sequence) = false := by
    rw [List.any_eq_false]
    intro nbr member
    rcases List.mem_cons.1 (List.mem_filter.1 member).1 with rfl | member
    · decide
    · obtain ⟨i,_,rfl⟩ := List.mem_map.1 member
      show ¬ decide (Rtp.multicast_reliable_max ≤ 1) = true
      decide
  have ready : ((crowd listed).filter (·.eligible announced.multicast_epoch)).any
      (fun nbr => nbr.prior_count announced.sequence == 0) = true := by
    rw [List.any_eq_true]
    exact ⟨_,List.mem_filter.2 ⟨List.mem_cons_self ..,rfl⟩,rfl⟩
  have small : port.hello_sequence_fits (crowd listed) announced.sequence announced.multicast_epoch = true := by
    simpa [Port.hello_sequence_fits,count] using fits
  refine ⟨port.hello_encode 0 { add_sequence := true } none (crowd listed, announced.sequence, announced.multicast_epoch),?_,?_⟩
  · unfold Port.multicast_hello
    dsimp only
    rw [if_neg (by rw [few]; decide),if_neg (by rw [ready]; decide),if_neg (by rw [nonempty]; decide),if_pos small]
  · rw [Port.sequence_hello_length nonempty,count]

/-! ## When datagrams fit -/

namespace Port

/-- The MTU from which on every packet fits. For IPv6 that is beyond what the packetizer counts in sixteen bits, and where the
    longest Hello whose length is not cut off fits as well. -/
def ample (port : Port) : Nat :=
  match port.afi with
  | .ipv4 => 69 + port.auth_len
  | .ipv6 => if port.keyless then 65556 else 65575 - (65483 - port.auth_len) % 17

/-- Every packet that is built fits the MTU. -/
def Fits (port : Port) : Prop := ∀ length, port.Builds length → length.toNat + network_header port.afi ≤ port.curr_mtu.toNat

theorem packet_limit_toNat (port : Port) : port.packet_limit.toNat = packet_payload_limit port.curr_mtu.toNat % 2 ^ 16 :=
  UInt16.toNat_ofNat' ..

/-- A packet is within the limit, or without routes, or a Hello. -/
theorem builds_length {port : Port} {length : UInt16} (builds : port.Builds length) :
    length.toNat ≤ max (20 + port.auth_len) port.packet_limit.toNat ∨ length.toNat ≤ 45 + port.auth_len + port.afi.packet_address_bytes ∨
      ∃ listed, length.toNat = (52 + port.auth_len + listed * (port.afi.packet_address_bytes + 1)) % 2 ^ 16 ∧
        52 + port.auth_budget + listed * (port.afi.packet_address_bytes + 1) ≤ packet_payload_limit port.curr_mtu.toNat := by
  have cut (length : Nat) : (UInt16.ofNat length).toNat ≤ length := by
    rw [UInt16.toNat_ofNat']
    exact Nat.mod_le _ _
  cases builds with
  | packetizer out sequence_number adverts _ _ _ member =>
    exact .inl ((cut _).trans ((packets_within out port.packet_limit sequence_number adverts _ member).trans (Nat.le_max_right ..)))
  | sync intf allocates turns member =>
    exact .inl ((cut _).trans ((sync_turns_short (port.sync_link intf) turns allocates).queued _ member))
  | graceful_restart intf eigrp turns member =>
    exact .inl ((cut _).trans (gr_turns_short (port.sync_link intf) eigrp turns _ member))
  | hello ack flags nbr_addr multicast unlisted =>
    refine .inr (.inl ?_)
    rw [hello_length ack flags nbr_addr multicast unlisted]
    split <;> omega
  | sequence_hello nbrs packet built => exact .inr (.inr (multicast_hello_length built))

theorem fits_of_ample {port : Port} (enough : port.ample ≤ port.curr_mtu.toNat) : port.Fits := by
  intro length builds
  have limit := port.packet_limit_toNat
  obtain ⟨key,sizes⟩ := port.auth_len_budget
  have range := port.curr_mtu.toNat_lt
  have bound := builds_length builds
  unfold ample at enough
  unfold packet_payload_limit ipv4_header_len at limit bound
  cases family : port.afi with
  | ipv4 =>
    simp only [family,Afi.packet_address_bytes,network_header] at enough bound ⊢
    rw [if_neg (by omega)] at limit bound
    rcases bound with small | small | ⟨listed,counted,fits⟩
    · omega
    · omega
    · rcases key with ⟨_,none,_⟩ | ⟨_,same⟩ <;> omega
  | ipv6 =>
    simp only [family,Afi.packet_address_bytes,network_header] at enough bound ⊢
    have large : 65556 ≤ port.curr_mtu.toNat := by
      split at enough <;> omega
    rw [if_neg (by omega)] at limit bound
    rcases bound with small | small | ⟨listed,counted,fits⟩
    · omega
    · omega
    · rcases key with ⟨missing,none,room⟩ | ⟨present,same⟩
      · omega
      · rw [present] at enough
        simp only [Bool.false_eq_true,if_false] at enough
        by_cases whole : 52 + port.auth_len + listed * 17 < 2 ^ 16
        · rw [Nat.mod_eq_of_lt whole] at counted
          omega
        · have wrapped : (52 + port.auth_len + listed * 17) % 2 ^ 16 ≤ 52 + port.auth_len + listed * 17 - 2 ^ 16 := by omega
          omega

/-- The goodbye to one neighbor is sent whatever it comes to. -/
theorem not_fits_of_termination {port : Port}
    (narrow : port.curr_mtu.toNat < 45 + port.auth_len + port.afi.packet_address_bytes + network_header port.afi) : ¬ port.Fits := by
  intro fits
  have goodbye := fits _ (.hello 0 { graceful_shutdown_nbr := true } (some 0) ([],⟨1,by decide⟩,0) rfl)
  rw [hello_length _ _ _ _ rfl] at goodbye
  simp at goodbye
  omega

/-- The packetizer of an IPv6 interface takes the octets of the longer header. -/
theorem not_fits_of_routes {port : Port} (family : port.afi = .ipv6) (wide : 101 + port.auth_len ≤ port.curr_mtu.toNat)
    (counted : port.curr_mtu.toNat < 65556) : ¬ port.Fits := by
  intro fits
  have limit := port.packet_limit_toNat
  unfold packet_payload_limit ipv4_header_len at limit
  rw [if_neg (by omega),Nat.mod_eq_of_lt (by omega)] at limit
  have base : (plain port).base = 20 + port.auth_len := rfl
  obtain ⟨fills,close⟩ := @filling_length port (port.curr_mtu.toNat - 20 - (20 + port.auth_len)) (by omega)
  have octets : ∀ advert ∈ filling (port.curr_mtu.toNat - 20 - (20 + port.auth_len)), (plain port).full advert ≠ [] := by
    intro advert member none
    have length (external : Bool) (site : Nat) : (plain port).full (site_route external site) ≠ [] := by
      have size := site_route_length port external site
      intro none
      rw [none] at size
      cases external <;> simp at size
    rcases List.mem_append.1 member with member | member
    · obtain ⟨site,_,rfl⟩ := List.mem_map.1 member
      exact length _ _ none
    · rw [List.mem_singleton.1 member] at none
      exact length _ _ none
  have some_routes : filling (port.curr_mtu.toNat - 20 - (20 + port.auth_len)) ≠ [] := by simp [filling]
  obtain ⟨packet,sent,size⟩ := @packets_one (plain port) port.packet_limit _ some_routes octets (by rw [base,limit]; omega) 1
  have carried : (UInt16.ofNat packet.endp).toNat + network_header port.afi ≤ port.curr_mtu.toNat :=
    fits _ (.packetizer (plain port) 1 _ family.symm rfl rfl sent)
  rw [size,base,family,UInt16.toNat_ofNat'] at carried
  simp only [network_header] at carried
  omega

/-- The longest list of neighbors whose Hello is not cut off. -/
theorem not_fits_of_crowd {port : Port} (family : port.afi = .ipv6) (present : port.keyless = false) (wide : 65556 ≤ port.curr_mtu.toNat)
    (narrow : port.curr_mtu.toNat < 65575 - (65483 - port.auth_len) % 17) : ¬ port.Fits := by
  intro fits
  obtain ⟨key,sizes⟩ := port.auth_len_budget
  have same : port.auth_len = port.auth_budget := by
    rcases key with ⟨missing,_⟩ | ⟨_,same⟩
    · rw [present] at missing
      cases missing
    · exact same
  obtain ⟨hello,built,size⟩ := @crowd_hello port ((65483 - port.auth_len) / 17) (by omega) (by
    unfold packet_payload_limit ipv4_header_len
    rw [if_neg (by omega),family]
    simp only [Afi.packet_address_bytes]
    omega)
  have carried := fits _ (.sequence_hello _ _ built)
  rw [size,family] at carried
  simp only [Afi.packet_address_bytes,network_header] at carried
  omega

end Port

/-- Every packet fits the MTU if and only if it is ample for the family: the front of the packet, the software version and a
    goodbye for IPv4, and more than sixteen bits can count for IPv6. -/
theorem datagrams_fit_iff (port : Port) : port.Fits ↔ port.ample ≤ port.curr_mtu.toNat := by
  refine ⟨fun fits => ?_,Port.fits_of_ample⟩
  by_contra narrow
  refine absurd fits ?_
  unfold Port.ample at narrow
  cases family : port.afi with
  | ipv4 =>
    simp only [family] at narrow
    refine Port.not_fits_of_termination ?_
    rw [family]
    simp only [Afi.packet_address_bytes,network_header]
    omega
  | ipv6 =>
    simp only [family] at narrow
    by_cases goodbye : port.curr_mtu.toNat < 101 + port.auth_len
    · refine Port.not_fits_of_termination ?_
      rw [family]
      simp only [Afi.packet_address_bytes,network_header]
      omega
    by_cases counted : port.curr_mtu.toNat < 65556
    · exact Port.not_fits_of_routes family (by omega) counted
    · cases missing : port.keyless with
      | true =>
        rw [missing,if_pos rfl] at narrow
        omega
      | false =>
        rw [missing,if_neg Bool.false_ne_true] at narrow
        exact Port.not_fits_of_crowd family missing (by omega) (Nat.not_le.1 narrow)

/-- An IPv6 interface of an Ethernet. -/
def ethernet : Port := { afi := .ipv6, curr_mtu := 1500, auth := { address := ⟨.ipv6,1⟩ } }

/-- Thirty-six routes make an EIGRP packet of 1480 octets, with the IPv6 header a datagram of 1520. -/
theorem ethernet_exceeded : ¬ ∀ port : Port, port.Fits := by
  intro fits
  have lengths : ((plain ethernet).packets ethernet.packet_limit 1 (filling 1460)).map (·.endp) = [1480] := by decide +kernel
  obtain ⟨packet,sent,length⟩ := List.mem_map.1 (lengths ▸ List.mem_singleton_self 1480)
  have carried := fits ethernet _ (.packetizer (plain ethernet) 1 _ rfl rfl rfl sent)
  rw [length] at carried
  exact absurd carried (by decide)

end Eigrp.Datagrams
