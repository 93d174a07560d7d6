import Eigrp.Instance

/-!
# The packetizer

`eigrp_packetizer.c`: how a work item becomes route TLVs, which neighbors a QUERY is addressed to,
and how the list of changes is drained. What the outbound policy and the codec answer is given with
the turn.
-/

namespace Eigrp
open Eigrp.Lib

/-- The answers of filters, summaries, offset lists and codec during one turn, by interface and destination. -/
structure Egress where
  filtered : Nat → Prefix → Bool := fun _ _ => false
  summary_covers : Nat → Prefix → Bool := fun _ _ => false
  summary_route_build : Nat → PrefixDescriptor → RouteDescriptor → Option (Prefix × RouteDescriptor) := fun _ _ _ => none
  summary_specific_leak : Nat → Prefix → Bool := fun _ _ => false
  offsets : Nat → Prefix → OffsetPolicy := fun _ _ => ⟨[], none, fun _ => false⟩
  encodes : Nat → Option Nbr → Prefix → RouteDescriptor → Bool := fun _ _ _ _ => true

/-! ## Routes for the wire -/

/-- `eigrp_packetizer_poison_route_create`. -/
def packetizer_poison_route_create (pd : PrefixDescriptor) : RouteDescriptor :=
  { id := 0, external := pd.nt = .remote_external, metric := { poisoned pd.reported_metric with flags := 0 } }

/-- `eigrp_packetizer_route_select`: a stored route is sent with the vector of the whole path. -/
def packetizer_route_select (pd : PrefixDescriptor) (route_hint : Option RouteDescriptor) (opcode : Opcode) : RouteDescriptor :=
  match route_hint with
  | some route => route
  | none =>
    if opcode = .query then packetizer_poison_route_create pd
    else match route_read pd with
      | some route => { route with metric := route.total_metric }
      | none => packetizer_poison_route_create pd

/-- `eigrp_nbr_split_horizon`. -/
def nbr_split_horizon (route : RouteDescriptor) (intf : Intf) : Bool :=
  intf.split_horizon && route.distance != max_distance && route.ei == some intf.id

/-- `eigrp_packetizer_poison_reverse`. -/
def packetizer_poison_reverse (intf : Intf) (opcode : Opcode) (route : RouteDescriptor) : RouteDescriptor :=
  if opcode = .update ∧ nbr_split_horizon route intf then { route with metric := { poisoned route.metric with flags := 0 } }
  else route

/-- `eigrp_packetizer_query_split_horizon`. -/
def packetizer_query_split_horizon (pd : PrefixDescriptor) (intf : Intf) : Bool :=
  intf.split_horizon && pd.query_origin.bind Nbr.ei == some intf.id

/-- The TLV that `eigrp_packetizer_builder_route_add` encodes, behind the outbound offset list. A next hop of zero stands
    for the advertising router. -/
def builder_route_tlv (egress : Egress) (ei : Nat) (next_hop_self : Bool) (dest : Prefix) (route : RouteDescriptor) : Tlv where
  dest := dest
  external := route.external
  nexthop := if next_hop_self then 0 else route.nexthop
  extdata := route.extdata
  metric := offset_metric_update (egress.offsets ei dest) .outbound route.metric

/-- A route with the vector it is sent with by the two walks over the table. -/
def walk_route_tlv (egress : Egress) (intf : Intf) (dest : Prefix) (route : RouteDescriptor) (metric : Metrics) : Tlv where
  dest := dest
  external := route.external
  nexthop := route.nexthop
  extdata := route.extdata
  metric := offset_metric_update (egress.offsets intf.id dest) .outbound
    (if nbr_split_horizon route intf then { poisoned metric with flags := 0 } else metric)

/-- `eigrp_packetizer_builder_route_add` with the flush behind it. -/
def builder_route_add (egress : Egress) (ei : Nat) (nbr : Option Nbr) (opcode : Opcode) (dest : Prefix)
    (route : RouteDescriptor) (machine : Machine) : Machine :=
  if egress.encodes ei nbr dest route then
    machine.other fun eigrp =>
      let next_hop_self := (eigrp.intf ei).any (·.next_hop_self)
      { eigrp with sent := eigrp.sent ++ [{ ei, nbr, opcode, tlv := builder_route_tlv egress ei next_hop_self dest route }] }
  else machine

/-- Reading a descriptor through a pointer that may have outlived it. -/
def Machine.dereference (id : Nat) (body : PrefixDescriptor → Machine → Machine) (machine : Machine) : Machine :=
  match machine.state.descriptor id with
  | some pd => body pd machine
  | none => machine.other fun eigrp => eigrp.fail .dangling

/-- Advertising one destination on one interface, as it is or behind a summary. -/
def intf_route_send (egress : Egress) (intf : Intf) (opcode : Opcode) (pd : PrefixDescriptor) (route : RouteDescriptor)
    (summary : Option (Prefix × RouteDescriptor)) (emit : Bool) (machine : Machine) : Machine :=
  let advertise (dest : Prefix) (route : RouteDescriptor) (machine : Machine) : Machine :=
    if egress.filtered intf.id dest then machine
    else builder_route_add egress intf.id none opcode dest (packetizer_poison_reverse intf opcode route) machine
  match summary with
  | none =>
    let queried := opcode = .query ∧ ¬ egress.filtered intf.id pd.destination
      ∧ egress.encodes intf.id none pd.destination (packetizer_poison_reverse intf opcode route)
    let machine := advertise pd.destination route machine
    if queried then machine.perform pd.id (.query_rij_add intf.up_neighbors) else machine
  | some (dest, summary_route) =>
    let machine := if emit then advertise dest summary_route machine else machine
    if egress.summary_specific_leak intf.id pd.destination then advertise pd.destination route machine else machine

/-! ## Work for one destination -/

/-- `eigrp_packetizer_intf_prefix_send`. -/
def packetizer_intf_prefix_send (egress : Egress) (work : Work) (id : Nat) (machine : Machine) (intf : Intf) : Machine :=
  if intf.up_neighbors = [] ∨ work.exception = some intf.id then machine
  else machine.dereference id fun pd machine =>
    if work.opcode = .query ∧ (packetizer_query_split_horizon pd intf ∨ egress.summary_covers intf.id pd.destination) then
      machine
    else
      let route := packetizer_route_select pd work.route work.opcode
      let summary := if work.opcode = .update then egress.summary_route_build intf.id pd route else none
      intf_route_send egress intf work.opcode pd route summary true machine

/-- The route that `eigrp_packetizer_neighbor_route_send` sends: never the neighbor's own path in a REPLY. -/
def neighbor_wire_route (work : Work) (pd : PrefixDescriptor) (nbr : Nbr) : RouteDescriptor :=
  let route := packetizer_route_select pd work.route work.opcode
  let route :=
    if work.poison ∨ ((work.opcode = .reply ∨ work.opcode = .siareply) ∧ route.adv_router = some nbr) then
      packetizer_poison_route_create pd
    else route
  if work.route_active then { route with metric := { route.metric with flags := route.metric.flags ||| 4 } } else route

/-- `eigrp_packetizer_neighbor_route_send`; the neighbor is read through a pointer. -/
def packetizer_neighbor_route_send (egress : Egress) (work : Work) (nbr : Nbr) (machine : Machine) : Machine :=
  let send (ei : Nat) (pd : PrefixDescriptor) (machine : Machine) : Machine :=
    builder_route_add egress ei (some nbr) work.opcode pd.destination (neighbor_wire_route work pd nbr) machine
  match machine.state.neighbor nbr, nbr.ei with
  | some neighbor, some ei =>
    if neighbor.state ≠ .up then machine
    else match work.pd with
      | none => machine
      | some (.owned pd) => send ei pd machine
      | some (.shared id) => machine.dereference id (send ei)
  | _, _ => machine.other fun eigrp => eigrp.fail .dangling

/-! ## The list of changes -/

def Action.opcode : Action → Opcode
  | .need_update => .update
  | .need_query => .query

/-- The first loop of `eigrp_packetizer_changes_send` for one interface and one change; a summary is sent once. -/
def change_send (egress : Egress) (action : Action) (intf : Intf) (turn : Machine × List Prefix) (id : Nat) :
    Machine × List Prefix :=
  let (machine, summary_seen) := turn
  match machine.state.descriptor id with
  | none => (machine.other fun eigrp => eigrp.fail .dangling, summary_seen)
  | some pd =>
    if ¬ pd.needs action then turn
    else if action = .need_query ∧ (packetizer_query_split_horizon pd intf ∨ egress.summary_covers intf.id pd.destination) then
      turn
    else
      let route := packetizer_route_select pd none action.opcode
      let summary := if action = .need_update then egress.summary_route_build intf.id pd route else none
      let seen := summary.any fun (dest, _) => dest ∈ summary_seen
      (intf_route_send egress intf action.opcode pd route summary (!seen) machine,
        match summary with
        | some (dest, _) => if seen then summary_seen else summary_seen ++ [dest]
        | none => summary_seen)

/-- The first loop of `eigrp_packetizer_changes_send` for one interface. An UPDATE is sent on every interface. -/
def intf_changes_send (egress : Egress) (action : Action) (exception : Option Nat) (machine : Machine) (intf : Intf) :
    Machine :=
  if intf.up_neighbors = [] ∨ (action ≠ .need_update ∧ exception = some intf.id) then machine
  else (machine.state.topology_changes.foldl (change_send egress action intf) (machine, [])).1

/-- What the second loop of `eigrp_packetizer_changes_send` carries: the entries that stay and the destinations to retire. -/
structure Drain where
  machine : Machine
  kept : List Nat := []
  retire : List Nat := []

/-- One turn of the second loop. -/
def change_drain (action : Action) (drain : Drain) (id : Nat) : Drain :=
  match drain.machine.state.descriptor id with
  | none => { drain with machine := drain.machine.other fun eigrp => eigrp.fail .dangling }
  | some pd =>
    if ¬ pd.needs action then
      if pd.need_update ∨ pd.need_query then { drain with kept := drain.kept ++ [id] } else drain
    else
      let machine := if action = .need_query then drain.machine.perform id .query_sent else drain.machine
      let machine := machine.perform id (.action_clear action)
      match machine.state.descriptor id with
      | none => { drain with machine }
      | some pd =>
        if pd.need_update ∨ pd.need_query then { drain with machine, kept := drain.kept ++ [id] }
        else if action = .need_update ∧ pd.state = .passive ∧ id ∉ drain.retire then
          { drain with machine, retire := drain.retire ++ [id] }
        else { drain with machine }

/-- `eigrp_packetizer_changes_send`. An entry that DUAL appends while the list is drained finds its action already
    cleared, so the loop is over the entries that were there at its start. -/
def packetizer_changes_send (egress : Egress) (action : Action) (exception : Option Nat) (machine : Machine) : Machine :=
  let machine := machine.state.eiflist.foldl (intf_changes_send egress action exception) machine
  let changes := machine.state.topology_changes
  let machine := machine.other fun eigrp => { eigrp with topology_changes := [] }
  let drain := changes.foldl (change_drain action) { machine }
  let machine := drain.machine.other fun eigrp =>
    { eigrp with topology_changes := drain.kept ++ eigrp.topology_changes }
  drain.retire.foldl (fun machine id => machine.perform id .retire) machine

/-! ## Turns -/

/-- `eigrp_packetizer_query_send` for an item without a neighbor. -/
def packetizer_query_send (egress : Egress) (work : Work) (action : Action) (machine : Machine) : Machine :=
  match work.pd with
  | none => packetizer_changes_send egress action work.exception machine
  | some (.owned _) => machine
  | some (.shared id) =>
    let machine := machine.state.eiflist.foldl (packetizer_intf_prefix_send egress work id) machine
    if action = .need_query then machine.perform id .query_sent else machine

/-- `eigrp_packetizer_work_process`. -/
def packetizer_work_process (egress : Egress) (work : Work) (machine : Machine) : Machine :=
  if work.defer_free then machine
  else match work.nbr, work.opcode with
    | some nbr, _ => packetizer_neighbor_route_send egress work nbr machine
    | none, .update => packetizer_query_send egress work .need_update machine
    | none, .query => packetizer_query_send egress work .need_query machine
    | none, .reply | none, .siaquery | none, .siareply => machine

/-- One turn: the oldest item is taken, processed and freed, with the descriptor that a deferred free owns. -/
def packetizer_turn (egress : Egress) (machine : Machine) : Machine :=
  match machine.state.packetizer with
  | [] => machine
  | work :: packetizer =>
    let machine := machine.other fun eigrp => { eigrp with packetizer }
    let machine := packetizer_work_process egress work machine
    match work.defer_free, work.pd with
    | true, some (.shared id) => machine.act (.free id)
    | _, _ => machine

end Eigrp
