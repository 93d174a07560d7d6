import Eigrp.Packetizer

/-!
# Events of an instance

Everything that makes an instance act: packets, neighbors and interfaces that come and go, the host's
routes, configuration, the operator, timers and turns of the packetizer. Each event is the function of
the source that handles it, and a run is any list of events.
-/

namespace Eigrp
open Eigrp.Lib

/-! ## Sending -/

/-- `eigrp_query_send_all`. -/
def query_send_all (machine : Machine) : Machine :=
  if machine.state.topology_changes.any (fun id => (machine.state.descriptor id).any (·.need_query)) then
    machine.other fun eigrp => eigrp.packetizer_enqueue { opcode := .query }
  else machine

/-- `eigrp_update_send_all`. -/
def update_send_all_enqueue (exception : Option Nat) (machine : Machine) : Machine :=
  machine.other fun eigrp => eigrp.packetizer_enqueue { opcode := .update, exception }

def send_all (exception : Option Nat) (machine : Machine) : Machine :=
  update_send_all_enqueue exception (query_send_all machine)

/-- `eigrp_topology_changes_send`. -/
def topology_changes_send (destination : Prefix) (machine : Machine) : Machine :=
  match machine.state.topology_table_lookup destination with
  | none => machine
  | some pd =>
    let machine := if pd.need_query then query_send_all machine else machine
    if pd.need_update then update_send_all_enqueue none machine else machine

/-- A call on every destination of the table. -/
def perform_all (call : Call) (machine : Machine) : Machine :=
  machine.state.topology_table.foldl (fun machine id => machine.perform id call) machine

/-! ## Neighbors -/

def Instance.neighbor_write (eigrp : Instance) (nbr : Nbr) (update : Neighbor → Neighbor) : Instance :=
  { eigrp with eiflist := eigrp.eiflist.map fun intf =>
      if nbr.ei = some intf.id then
        { intf with nbrs := intf.nbrs.map fun neighbor =>
            if nbr = .peer intf.id neighbor.id then update neighbor else neighbor }
      else intf }

/-- What `eigrp_nbr_state_update_reason` resets when a neighbor goes DOWN. -/
def Neighbor.down (neighbor : Neighbor) : Neighbor :=
  { neighbor with state := .down, recv_sequence_number := 0, peer_init_sequence_number := 0
                  peer_init_retransmit_eligible := false, peer_init_resync_prefixes := none }

/-- `eigrp_topology_neighbor_down`. -/
def topology_neighbor_down (nbr : Nbr) (machine : Machine) : Machine :=
  send_all nbr.ei (perform_all (.neighbor_down nbr) machine)

/-- `eigrp_nbr_down_deferred`: the list saved by a graceful restart is freed a second time. -/
def nbr_down_deferred (nbr : Nbr) (machine : Machine) : Machine :=
  machine.other fun eigrp =>
    match eigrp.neighbor nbr with
    | none => eigrp
    | some neighbor =>
      if neighbor.nbr_gr_prefixes then eigrp.fail .dangling else eigrp.neighbor_write nbr Neighbor.down

/-- `eigrp_nbr_down`. -/
def nbr_down (nbr : Nbr) (machine : Machine) : Machine := topology_neighbor_down nbr (nbr_down_deferred nbr machine)

/-- `eigrp_nbr_delete`. The neighbor is unpublished before its teardown. -/
def nbr_delete (nbr : Nbr) (machine : Machine) : Machine :=
  if (machine.state.neighbor nbr).isNone then machine
  else
    let machine := nbr_down_deferred nbr machine
    let machine := machine.other fun eigrp =>
      { eigrp with eiflist := eigrp.eiflist.map fun intf =>
          { intf with nbrs := intf.nbrs.filter fun neighbor => nbr ≠ .peer intf.id neighbor.id } }
    topology_neighbor_down nbr machine

/-- The suspended peers that hold a route of the destination or owe it a REPLY. -/
def suspended_peers (peers : List Nbr) (pd : PrefixDescriptor) : List Nbr :=
  ((pd.routes.filterMap (·.adv_router) ++ pd.rij.map (·.neighbor)).filter fun nbr => nbr ∈ peers).reverse.dedup.reverse

/-- `eigrp_topology_suspended_neighbors_down`, behind the teardown of every peer. -/
def topology_suspended_neighbors_down (peers : List Nbr) (machine : Machine) : Machine :=
  let machine := machine.state.topology_table.foldl (fun machine id =>
    let machine := machine.perform id (.suspended_origin_clear peers)
    match machine.state.descriptor id with
    | none => machine
    | some pd => (suspended_peers peers pd).foldl (fun machine nbr => machine.perform id (.neighbor_down nbr)) machine) machine
  send_all none machine

/-! ## Packets -/

structure Packet where
  opcode : Opcode
  flags : UInt32 := 0
  sequence : UInt32 := 1
  routes : List Received := []

/-- `eigrp_nbr_prefixes_lookup`. -/
def nbr_prefixes_lookup (nbr : Nbr) (eigrp : Instance) : List Nat :=
  eigrp.topology_table.filter fun id =>
    (eigrp.descriptor id).any fun pd => (prefix_descriptor_lookup pd nbr).isSome

/-- Admission may take the neighbor down while its packet is walked. -/
def limit_mark (nbr : Nbr) (received : Received) (machine : Machine) : Machine :=
  if received.limit_mark_down then
    machine.other fun eigrp => eigrp.neighbor_write nbr fun neighbor => { neighbor with state := .down }
  else machine

/-- The walk over the route TLVs of a packet; one that takes the neighbor down ends it where `stops` says so. -/
def walk (nbr : Nbr) (stops : Bool) (body : Received → Machine → Machine) : List Received → Machine → Machine
  | [], machine => machine
  | received :: routes, machine =>
    let machine := body received (limit_mark nbr received machine)
    if stops && received.limit_mark_down then machine else walk nbr stops body routes machine

/-- The body of `eigrp_update_receive` for one TLV, with the prefixes a restarting peer has not sent again. -/
def update_receive_route (nbr : Nbr) (received : Received) (machine : Machine) : Machine :=
  match machine.state.topology_table_lookup received.tlv.dest with
  | some pd => machine.perform pd.id (.update_receive nbr received)
  | none =>
    if metric_calculate machine.state.metric received.tlv.metric = max_metric
        ∨ ¬ nbr_route_admitted machine.state.env received (ingress_metric received) then machine
    else machine.act (.create (.update nbr received))

/-- What an UPDATE does to the receive state of a neighbor, and how it is handled. -/
inductive Reception where
  | replay
  | plain
  | restart
  | gr_final
  | gr_start
  | gr_saved
deriving DecidableEq, Repr

def init_flag : UInt32 := 1
def rs_flag : UInt32 := 4
def eot_flag : UInt32 := 8

/-- `eigrp_packet_sequence_before`. -/
def sequence_before (first second : UInt32) : Bool := first != second && second - first < 0x80000000

/-- The case distinction of `eigrp_update_receive` over flags and sequence numbers. -/
def update_reception (neighbor : Neighbor) (packet : Packet) : Reception :=
  let same := neighbor.recv_sequence_number == packet.sequence
  if packet.flags = init_flag ∧ packet.sequence ≠ 0 ∧ neighbor.peer_init_retransmit_eligible
      ∧ neighbor.peer_init_sequence_number = packet.sequence then .replay
  else if same then .plain
  else if packet.flags = init_flag + rs_flag + eot_flag then .gr_final
  else if packet.flags = init_flag + rs_flag then .gr_start
  else if packet.flags = eot_flag ∨ packet.flags = 0 then if neighbor.nbr_gr_prefixes then .gr_saved else .plain
  else if packet.flags &&& init_flag ≠ 0 ∧ neighbor.state = .up ∧ neighbor.peer_init_sequence_number ≠ 0 then .restart
  else .plain

/-- The receive state behind the first part of `eigrp_update_receive`. -/
def Neighbor.update_received (neighbor : Neighbor) (packet : Packet) : Neighbor :=
  let neighbor :=
    if packet.flags = init_flag ∧ neighbor.peer_init_sequence_number = 0 then
      { neighbor with peer_init_sequence_number := packet.sequence, peer_init_retransmit_eligible := packet.sequence ≠ 0 }
    else if packet.flags = eot_flag ∧ neighbor.peer_init_sequence_number ≠ 0
        ∧ sequence_before neighbor.peer_init_sequence_number packet.sequence then
      { neighbor with peer_init_retransmit_eligible := false }
    else neighbor
  { neighbor with recv_sequence_number := packet.sequence }

/-- The EOT that completes a resynchronisation. -/
def resync_complete (neighbor : Neighbor) (packet : Packet) : Bool :=
  packet.flags == eot_flag && neighbor.peer_init_sequence_number != 0
    && sequence_before neighbor.peer_init_sequence_number packet.sequence && neighbor.peer_init_resync_prefixes.isSome

/-- The peer has restarted: it goes DOWN, its routes are withdrawn, and it is PENDING again. -/
def peer_restart (nbr : Nbr) (packet : Packet) (machine : Machine) : Machine :=
  let machine := machine.other fun eigrp => eigrp.neighbor_write nbr Neighbor.down
  let machine := topology_neighbor_down nbr machine
  machine.other fun eigrp => eigrp.neighbor_write nbr fun neighbor =>
    { neighbor with state := .pending, peer_init_sequence_number := packet.sequence
                    peer_init_retransmit_eligible := packet.sequence ≠ 0, recv_sequence_number := packet.sequence }

def receive_gr_ask (nbr : Nbr) (ids : List Nat) (machine : Machine) : Machine :=
  ids.foldl (fun machine id => machine.perform id (.gr_ask nbr)) machine

/-- The TLVs of an UPDATE or QUERY that are looked at, up to the one that takes the neighbor down. -/
def walked_routes : List Received → List Received
  | [] => []
  | received :: routes => received :: if received.limit_mark_down then [] else walked_routes routes

/-- The destinations whose TLVs were looked at leave a list of prefixes that the neighbor has not sent again. -/
def unreceived (packet : Packet) (eigrp : Instance) (ids : List Nat) : List Nat :=
  ids.filter fun id => ¬ (walked_routes packet.routes).any fun received =>
    (eigrp.topology_table_lookup received.tlv.dest).any fun pd => pd.id = id

/-- `eigrp_update_receive`. -/
def update_receive (nbr : Nbr) (packet : Packet) (machine : Machine) : Machine :=
  match machine.state.neighbor nbr with
  | none => machine
  | some neighbor =>
    match update_reception neighbor packet with
    | .replay =>
      machine.other fun eigrp =>
        if neighbor.state = .up ∧ neighbor.peer_init_resync_prefixes.isNone then
          eigrp.neighbor_write nbr fun neighbor =>
            { neighbor with peer_init_resync_prefixes := some (nbr_prefixes_lookup nbr eigrp) }
        else eigrp
    | reception =>
      let machine := machine.other fun eigrp => eigrp.neighbor_write nbr fun neighbor => neighbor.update_received packet
      let machine := if reception = .restart then peer_restart nbr packet machine else machine
      let nbr_prefixes := nbr_prefixes_lookup nbr machine.state
      let resync := ((machine.state.neighbor nbr).bind (·.peer_init_resync_prefixes)).getD []
      let walked := walk nbr true (update_receive_route nbr) packet.routes machine
      let walked := if reception = .gr_final then receive_gr_ask nbr (unreceived packet machine.state nbr_prefixes) walked else walked
      let walked :=
        if resync_complete neighbor packet then receive_gr_ask nbr (unreceived packet machine.state resync) walked else walked
      let walked := walked.other fun eigrp => eigrp.neighbor_write nbr fun neighbor' =>
        { neighbor' with
          peer_init_resync_prefixes :=
            if resync_complete neighbor packet then none
            else neighbor'.peer_init_resync_prefixes.map (unreceived packet machine.state)
          nbr_gr_prefixes := neighbor'.nbr_gr_prefixes || reception = .gr_start }
      let walked := send_all nbr.ei walked
      -- the list that a first restart packet saved was freed with that packet
      if reception = .gr_saved then walked.other fun eigrp => eigrp.fail .dangling else walked

/-- The body of `eigrp_query_receive` for one TLV. -/
def query_receive_route (nbr : Nbr) (received : Received) (machine : Machine) : Machine :=
  match machine.state.topology_table_lookup received.tlv.dest, received.summary with
  | some pd, _ => machine.perform pd.id (.query_receive nbr received)
  | none, some summary =>
    machine.other fun eigrp =>
      eigrp.packetizer_enqueue
        { opcode := .reply, nbr := some nbr, pd := some (.owned { id := 0, destination := received.tlv.dest })
          route := some summary }
  | none, none =>
    let machine := machine.other fun eigrp =>
      eigrp.effect { id := 0, destination := received.tlv.dest } (query_unknown_reply_send nbr received.tlv)
    if query_recordable machine.state.env received then machine.act (.create (.query nbr received)) else machine

/-- The body of the other receivers for one TLV: an unknown destination is passed over. -/
def known_receive_route (call : Received → Call) (received : Received) (machine : Machine) : Machine :=
  match machine.state.topology_table_lookup received.tlv.dest with
  | none => machine
  | some pd => machine.perform pd.id (call received)

def recv_sequence_update (nbr : Nbr) (packet : Packet) (machine : Machine) : Machine :=
  machine.other fun eigrp => eigrp.neighbor_write nbr fun neighbor => { neighbor with recv_sequence_number := packet.sequence }

/-- The dispatch of a packet by opcode, and the teardown of a neighbor that admission marked DOWN. -/
def packet_receive (nbr : Nbr) (packet : Packet) (machine : Machine) : Machine :=
  match machine.state.neighbor nbr with
  | none => machine
  | some neighbor =>
    if packet.opcode ≠ .update ∧ neighbor.state ≠ .up then machine
    else
      let machine := match packet.opcode with
        | .update => update_receive nbr packet machine
        | .query =>
          send_all nbr.ei (walk nbr true (query_receive_route nbr) packet.routes (recv_sequence_update nbr packet machine))
        | .reply =>
          send_all nbr.ei (walk nbr false (known_receive_route (.reply_receive nbr)) packet.routes
            (recv_sequence_update nbr packet machine))
        | .siaquery =>
          walk nbr false (known_receive_route (.siaquery_receive nbr)) packet.routes (recv_sequence_update nbr packet machine)
        | .siareply =>
          walk nbr false (known_receive_route (.siareply_receive nbr)) packet.routes (recv_sequence_update nbr packet machine)
      if packet.routes.any (·.limit_mark_down) then nbr_down nbr machine else machine

/-! ## Graceful restarts -/

/-- `eigrp_update_send_GR`, which saves the prefixes of the table. -/
def update_send_GR (nbr : Nbr) (machine : Machine) : Machine :=
  machine.other fun eigrp => eigrp.neighbor_write nbr fun neighbor =>
    { neighbor with nbr_gr_prefixes_send := some eigrp.topology_table }

/-- The answers of policy and codec for one packet of a graceful restart: the inbound filter, and whether a TLV still fits. -/
structure Restart where
  egress : Egress := {}
  filter_in : Prefix → Bool := fun _ => false
  fits : Prefix → RouteDescriptor → Bool := fun _ _ => true

/-- The TLV of one prefix of a graceful restart. A prefix that the inbound filter denies is poisoned for the neighbor behind
    it, without a change-set item. -/
def gr_part_send (restart : Restart) (nbr : Nbr) (intf : Intf) (pd : PrefixDescriptor) (route : RouteDescriptor) (machine : Machine) :
    Machine :=
  let tlv := walk_route_tlv restart.egress intf pd.destination route route.metric
  let machine :=
    if restart.egress.encodes intf.id nbr pd.destination route then
      machine.other fun eigrp => { eigrp with sent := eigrp.sent ++ [{ ei := intf.id, nbr, opcode := .update, tlv }] }
    else machine
  if restart.filter_in pd.destination then machine.perform pd.id (.gr_ask nbr) else machine

/-- The loop of `eigrp_update_send_GR_part` with the prefixes it leaves for the next packet. -/
def gr_part_walk (restart : Restart) (nbr : Nbr) (intf : Intf) : List Nat → Nat → Machine → Machine × List Nat
  | [], _, machine => (machine, [])
  | id :: ids, route_count, machine =>
    match machine.state.descriptor id with
    | none => (machine.other fun eigrp => eigrp.fail .dangling, [])
    | some pd =>
      if restart.egress.filtered intf.id pd.destination then gr_part_walk restart nbr intf ids route_count machine
      else match pd.routes.find? (·.successor) with
        | none => gr_part_walk restart nbr intf ids route_count machine
        | some route =>
          if restart.fits pd.destination route then
            let sent := if restart.egress.encodes intf.id nbr pd.destination route then 1 else 0
            gr_part_walk restart nbr intf ids (route_count + sent) (gr_part_send restart nbr intf pd route machine)
          else if route_count ≠ 0 then (machine, id :: ids)
          else gr_part_walk restart nbr intf ids route_count machine

/-- `eigrp_update_send_GR_part`. -/
def update_send_GR_part (nbr : Nbr) (restart : Restart) (machine : Machine) : Machine :=
  match (machine.state.neighbor nbr).bind (·.nbr_gr_prefixes_send), nbr.ei.bind machine.state.intf with
  | some prefixes, some intf =>
    let (machine, rest) := gr_part_walk restart nbr intf prefixes 0 machine
    machine.other fun eigrp => eigrp.neighbor_write nbr fun neighbor =>
      { neighbor with nbr_gr_prefixes_send := if rest = [] then none else some rest }
  | _, _ => machine

/-! ## Interfaces -/

/-- `eigrp_intf_up`; an interface without a destination of its own creates no route. -/
def intf_up (ei : Nat) (machine : Machine) : Machine :=
  match (machine.state.intf ei).bind (·.destination) with
  | none => machine
  | some destination =>
    let machine := match machine.state.topology_table_lookup destination with
      | some pd => machine.perform pd.id (.intf_up ei)
      | none => machine.act (.create (.connected destination ei))
    update_send_all_enqueue none machine

/-- `eigrp_intf_down`. -/
def intf_down (ei : Nat) (machine : Machine) : Machine :=
  match machine.state.intf ei with
  | none => machine
  | some intf =>
    let machine := intf.nbrs.foldl (fun machine neighbor => nbr_delete (.peer ei neighbor.id) machine) machine
    send_all (some ei) (perform_all (.connected_interface_down ei) machine)

/-- `eigrp_intf_free`. -/
def intf_free (ei : Nat) (machine : Machine) : Machine :=
  match machine.state.intf ei with
  | none => machine
  | some intf =>
    let machine := match intf.destination.bind machine.state.topology_table_lookup with
      | some pd => machine.act (.delete pd.id)
      | none => machine
    (intf_down ei machine).other fun eigrp =>
      { eigrp with eiflist := eigrp.eiflist.filter fun intf => intf.id ≠ ei }

/-! ## Redistribution, configuration, operator -/

/-- `eigrp_topology_redistributed_route_update`. -/
def redistributed_route_update (destination : Prefix) (source : Source) (metric : Metrics) (machine : Machine) : Machine :=
  let machine := match machine.state.topology_table_lookup destination with
    | some pd => machine.perform pd.id (.redistributed_update source metric)
    | none => machine.act (.create (.redistributed destination source metric))
  topology_changes_send destination machine

/-- `eigrp_topology_redistributed_route_remove`. -/
def redistributed_route_remove (destination : Prefix) (source : Source) (machine : Machine) : Machine :=
  match machine.state.topology_table_lookup destination with
  | none => machine
  | some pd =>
    if (redistributed_route_lookup pd source).isNone then machine
    else topology_changes_send destination (machine.perform pd.id (.redistributed_remove source))

/-- `eigrp_topology_redistributed_source_remove`. -/
def redistributed_source_remove (source : Source) (machine : Machine) : Machine :=
  (machine.state.topology_table.filterMap machine.state.descriptor).foldl
    (fun machine pd => redistributed_route_remove pd.destination source machine) machine

/-- `eigrp_topology_clear_prefix`. -/
def topology_clear_prefix (pd : PrefixDescriptor) (machine : Machine) : Machine :=
  let machine := machine.act (.detach pd.id)
  if pd.nt = .connected then
    if pd.internal_routes.any (fun route => route.adv_router = some .self) then machine.act (.create (.connected_recreate pd))
    else machine
  else if machine.state.nbr_count = 0 then machine
  else machine.act (.create (.remote_requery pd))

/-- `clear eigrp topology` for one destination. -/
def topology_clear (destination : Prefix) (machine : Machine) : Machine :=
  match machine.state.topology_table_lookup destination with
  | none => machine
  | some pd => topology_clear_prefix pd machine

/-- `eigrp_topology_clear_all`. -/
def topology_clear_all (machine : Machine) : Machine :=
  (machine.state.topology_table.filterMap machine.state.descriptor).foldl
    (fun machine pd => topology_clear pd.destination machine) machine

/-- The expiry of the active timer of a destination; the first stuck neighbor, read through a pointer, is deleted. -/
def active_timer_expired (id : Nat) (machine : Machine) : Machine :=
  match machine.state.descriptor id with
  | none => machine
  | some pd =>
    if !pd.t_active then machine
    else
      let stuck := (fsm_active_timer_expired machine.state.env pd).2.findSome? fun effect =>
        match effect with
        | .stuck nbr => some nbr
        | _ => none
      let machine := machine.perform id .active_timer_expired
      match stuck with
      | some nbr =>
        if (machine.state.neighbor nbr).isSome then nbr_delete nbr machine else machine.other fun eigrp => eigrp.fail .dangling
      | none => machine

/-! ## Runs -/

/-- The settings that change without a refresh of the topology, and what the host grants from now on. -/
structure Settings where
  max_hops : UInt8
  active_time : UInt16
  rib_accepts : RibRoute → Bool
  links : Nat → Nat → Metrics → Bool

inductive Event where
  | packet_receive (nbr : Nbr) (packet : Packet)
  | nbr_create (ei : Nat)
  | nbr_pending (nbr : Nbr)
  | nbr_up (nbr : Nbr)
  | nbr_k_mismatch (nbr : Nbr)
  | nbr_delete (nbr : Nbr)
  | nbr_limit (nbr : Nbr)
  | af_suspend (peers : List Nbr)
  | intf_create (intf : Intf)
  | intf_params (ei : Nat) (params : IntfParams) (split_horizon next_hop_self : Bool)
  | intf_up (ei : Nat)
  | intf_down (ei : Nat)
  | intf_free (ei : Nat)
  | redistributed_update (destination : Prefix) (source : Source) (metric : Metrics)
  | redistributed_remove (destination : Prefix) (source : Source)
  | redistributed_source_remove (source : Source)
  | metric_weights (metric : MetricConfig)
  | multipath (variance max_paths : UInt8)
  | traffic_share (balanced : Bool)
  | distance (internal_distance external_distance : UInt8)
  | routes_replay
  | settings (settings : Settings)
  | gr_send (nbr : Nbr)
  | gr_part (nbr : Nbr) (restart : Restart)
  | clear (destination : Prefix)
  | clear_all
  | active_timer (id : Nat)
  | packetizer (egress : Egress)

/-- A state change of the neighbor that the adjacency handshake allows from its present state. -/
def neighbor_move (nbr : Nbr) (from_state to_state : NbrState) (machine : Machine) : Machine :=
  machine.other fun eigrp => eigrp.neighbor_write nbr fun neighbor =>
    if neighbor.state = from_state then { neighbor with state := to_state } else neighbor

def handle (machine : Machine) : Event → Machine
  | .packet_receive nbr packet => packet_receive nbr packet machine
  | .nbr_create ei =>
    machine.other fun eigrp =>
      { eigrp with next_nbr := eigrp.next_nbr + 1
                   eiflist := eigrp.eiflist.map fun intf =>
                     if intf.id = ei then { intf with nbrs := intf.nbrs ++ [{ id := eigrp.next_nbr }] } else intf }
  | .nbr_pending nbr => neighbor_move nbr .down .pending machine
  | .nbr_up nbr => neighbor_move nbr .pending .up machine
  | .nbr_k_mismatch nbr => machine.other fun eigrp => eigrp.neighbor_write nbr Neighbor.down
  | .nbr_delete nbr => nbr_delete nbr machine
  | .nbr_limit nbr => if (machine.state.neighbor nbr).isSome then nbr_down nbr machine else machine
  | .af_suspend peers =>
    let peers := peers.filter fun nbr => (machine.state.neighbor nbr).isSome
    topology_suspended_neighbors_down peers (peers.foldl (fun machine nbr => nbr_down_deferred nbr machine) machine)
  | .intf_create intf =>
    machine.other fun eigrp =>
      if (eigrp.intf intf.id).isSome then eigrp else { eigrp with eiflist := eigrp.eiflist ++ [{ intf with nbrs := [] }] }
  | .intf_params ei params split_horizon next_hop_self =>
    machine.other fun eigrp =>
      { eigrp with eiflist := eigrp.eiflist.map fun intf =>
          if intf.id = ei then { intf with params, split_horizon, next_hop_self } else intf }
  | .intf_up ei => intf_up ei machine
  | .intf_down ei => intf_down ei machine
  | .intf_free ei => intf_free ei machine
  | .redistributed_update destination source metric => redistributed_route_update destination source metric machine
  | .redistributed_remove destination source => redistributed_route_remove destination source machine
  | .redistributed_source_remove source => redistributed_source_remove source machine
  | .metric_weights metric =>
    let machine := machine.other fun eigrp => { eigrp with metric := { metric with max_hops := eigrp.metric.max_hops } }
    update_send_all_enqueue none (perform_all .metric_update machine)
  | .multipath variance max_paths =>
    if 1 ≤ variance ∧ variance ≤ 128 ∧ 1 ≤ max_paths ∧ max_paths ≤ 32 then
      perform_all .multipath_update (machine.other fun eigrp => { eigrp with variance, max_paths })
    else machine
  | .traffic_share balanced =>
    perform_all .traffic_share_update (machine.other fun eigrp => { eigrp with traffic_share_balanced := balanced })
  | .distance internal_distance external_distance =>
    if internal_distance = 0 ∨ external_distance = 0 then machine
    else
      perform_all .routes_replay <| machine.other fun eigrp =>
        { eigrp with distance_internal := internal_distance, distance_external := external_distance }
  | .routes_replay => perform_all .routes_replay machine
  | .settings settings =>
    machine.other fun eigrp =>
      { eigrp with metric := { eigrp.metric with max_hops := settings.max_hops }
                   active_time := settings.active_time, rib_accepts := settings.rib_accepts, links := settings.links }
  | .gr_send nbr => update_send_GR nbr machine
  | .gr_part nbr restart => update_send_GR_part nbr restart machine
  | .clear destination => topology_clear destination machine
  | .clear_all => topology_clear_all machine
  | .active_timer id => active_timer_expired id machine
  | .packetizer egress => packetizer_turn egress machine

/-- A new instance: configuration as given, nothing learned or sent yet. -/
def Instance.start (metric : MetricConfig) : Machine := ⟨{ metric }, []⟩

def run (metric : MetricConfig) (events : List Event) : Machine := events.foldl handle (Instance.start metric)

end Eigrp
