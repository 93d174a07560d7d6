import Eigrp.Fsm

/-!
# What the program does to one destination

The parts of the receive functions, of neighbor and interface loss, of redistribution, of the
configuration refreshes and of the packetizer that work on a single prefix descriptor. Each is one
`Call`; a descriptor changes in no other way, and comes into being only through the constructors at
the end.
-/

namespace Eigrp

/-- A decoded route TLV. -/
structure Tlv where
  dest : Prefix
  external : Bool := false
  nexthop : Address := 0
  extdata : ExtData := {}
  metric : Metrics := {}
  topology_id : UInt16 := 0
deriving DecidableEq, Repr

/-- A decoded route TLV with the answers of policy and host for it: the inbound filter, the inbound offset lists,
    the two admission limits, whether they take the neighbor down, and the summary route that answers a QUERY at a
    summary boundary. -/
structure Received where
  tlv : Tlv
  filtered : Bool := false
  offsets : OffsetPolicy := ⟨[], none, fun _ => false⟩
  nbr_prefix_admitted : Bool := true
  topology_prefix_admitted : Bool := true
  limit_mark_down : Bool := false
  summary : Option RouteDescriptor := none

def data_type (external : Bool) : DataType := if external then .ext else .int

def poisoned (metric : Metrics) : Metrics := { metric with delay := max_metric }

/-- `eigrp_nbr_route_admit`. -/
def nbr_route_admitted (env : Env) (received : Received) (metric : Metrics) : Bool :=
  metric_calculate env.metric metric != max_metric && received.nbr_prefix_admitted && received.topology_prefix_admitted

/-- The vector of a received QUERY or REPLY behind the inbound filter. -/
def filtered_metric (received : Received) : Metrics :=
  if received.filtered then poisoned received.tlv.metric else received.tlv.metric

/-- The vector of a received UPDATE behind the inbound filter and offset list. -/
def ingress_metric (received : Received) : Metrics :=
  if received.filtered then poisoned received.tlv.metric
  else offset_metric_update received.offsets .inbound received.tlv.metric

/-- The route a decoder returns for a neighbor, numbered among the routes of the destination. -/
def received_route (pd : PrefixDescriptor) (nbr : Nbr) (tlv : Tlv) : RouteDescriptor :=
  { id := pd.next_route, external := tlv.external, nexthop := tlv.nexthop, extdata := tlv.extdata
    metric := tlv.metric, adv_router := some nbr, ei := nbr.ei }

def refreshed (route : RouteDescriptor) (tlv : Tlv) : RouteDescriptor :=
  { route with external := tlv.external, nexthop := tlv.nexthop, extdata := tlv.extdata }

/-- Handing a received TLV to DUAL: a stored route of the neighbor takes over class, next hop and external data,
    otherwise the received route is used, and is transient unless it is admitted. -/
def receive (env : Env) (pd : PrefixDescriptor) (packet_type : Opcode) (nbr : Nbr) (tlv : Tlv) (metrics : Metrics)
    (admitted : Bool) : Option (PrefixDescriptor × List Effect) :=
  let msg : Msg := { packet_type, adv_router := some nbr, data_type := data_type tlv.external, metrics }
  match prefix_descriptor_lookup pd nbr with
  | some route =>
    fsm_event env (route_write pd route.id fun route => refreshed route tlv) msg (refreshed route tlv)
  | none =>
    fsm_event env { pd with next_route := pd.next_route + 1 } { msg with transient_route := !admitted }
      (received_route pd nbr tlv)

/-! ## Packets -/

/-- The branch of `eigrp_update_receive` for a destination that is in the table. -/
def update_receive_pd (env : Env) (pd : PrefixDescriptor) (nbr : Nbr) (received : Received) :
    Option (PrefixDescriptor × List Effect) :=
  let metric := ingress_metric received
  let known := (prefix_descriptor_lookup pd nbr).isSome
  let unreachable := metric_calculate env.metric metric == max_metric
  if !known && unreachable then some (pd, [])
  else if !unreachable && (if known then !received.topology_prefix_admitted else !nbr_route_admitted env received metric) then
    some (pd, [])
  else receive env pd .update nbr received.tlv metric true

/-- A PASSIVE destination that only holds routes retained from QUERYs. -/
def unelected (pd : PrefixDescriptor) : Bool :=
  pd.distance = max_distance ∧ pd.fdistance = max_distance ∧ pd.reported_metric.delay = max_metric

/-- `eigrp_query_unknown_reply_send`: the item owns a descriptor of its own. -/
def query_unknown_reply_send (nbr : Nbr) (tlv : Tlv) : Effect :=
  .enqueue { opcode := .reply, nbr := some nbr, pd := some (.owned { id := 0, destination := tlv.dest })
             route := some { id := 0, external := tlv.external, adv_router := some nbr, ei := nbr.ei
                             metric := { poisoned tlv.metric with flags := 0 } } }

/-- The REPLY at a summary boundary: the item owns the aggregate that was built for it. -/
def query_summary_reply_send (nbr : Nbr) (tlv : Tlv) (summary : RouteDescriptor) : Effect :=
  .enqueue { opcode := .reply, nbr := some nbr, pd := some (.owned { id := 0, destination := tlv.dest })
             route := some summary }

/-- The condition under which a QUERY for an unknown destination is remembered. -/
def query_recordable (env : Env) (received : Received) : Bool :=
  received.tlv.metric.delay != max_metric && received.tlv.metric.delay != metric_max && !received.filtered
    && nbr_route_admitted env received received.tlv.metric

/-- The route that `eigrp_query_unknown_route_record` stores. -/
def recorded_route (env : Env) (pd : PrefixDescriptor) (nbr : Nbr) (tlv : Tlv) : Option RouteDescriptor :=
  route_learn env (received_route pd nbr tlv) tlv.metric

/-- `eigrp_query_unknown_route_record` on a destination that exists. -/
def query_unknown_route_record (env : Env) (pd : PrefixDescriptor) (nbr : Nbr) (received : Received) :
    Option PrefixDescriptor :=
  if !query_recordable env received then some pd
  else match prefix_descriptor_lookup pd nbr with
    | some previous => do
      let route := refreshed previous received.tlv
      let msg : Msg := { packet_type := .update, adv_router := some nbr
                         data_type := data_type received.tlv.external, metrics := received.tlv.metric }
      let (pd, _) ← update_distance env (route_write pd previous.id fun route => refreshed route received.tlv) msg route
      some pd
    | none => do
      let route ← recorded_route env pd nbr received.tlv
      some (route_insert { pd with next_route := pd.next_route + 1 } route)

/-- The body of `eigrp_query_receive` for a destination that is in the table. -/
def query_receive_pd (env : Env) (pd : PrefixDescriptor) (nbr : Nbr) (received : Received) :
    Option (PrefixDescriptor × List Effect) :=
  match received.summary with
  | some summary => some (pd, [query_summary_reply_send nbr received.tlv summary])
  | none =>
    if pd.state = .passive ∧ unelected pd then do
      let pd ← query_unknown_route_record env pd nbr received
      some (pd, [query_unknown_reply_send nbr received.tlv])
    else receive env pd .query nbr received.tlv (filtered_metric received) (nbr_route_admitted env received (filtered_metric received))

/-- The body of `eigrp_reply_receive`. -/
def reply_receive_pd (env : Env) (pd : PrefixDescriptor) (nbr : Nbr) (received : Received) :
    Option (PrefixDescriptor × List Effect) :=
  if pd.state = .passive then some (pd, [])
  else receive env pd .reply nbr received.tlv (filtered_metric received) (nbr_route_admitted env received (filtered_metric received))

/-- The body of `eigrp_siaquery_receive`, which applies no inbound filter. -/
def siaquery_receive_pd (env : Env) (pd : PrefixDescriptor) (nbr : Nbr) (received : Received) :
    Option (PrefixDescriptor × List Effect) := do
  let packet_type := if pd.state = .passive then Opcode.query else .siaquery
  let (pd, out) ← receive env pd packet_type nbr received.tlv received.tlv.metric
    (nbr_route_admitted env received received.tlv.metric)
  some (pd, out ++ if pd.state ≠ .passive then [siareply_send pd nbr true] else [])

/-- `EIGRP_OPAQUE_ACTIVE` in the flags of a received vector. -/
def opaque_active (metric : Metrics) : Bool := metric.flags &&& 4 ≠ 0

/-- The body of `eigrp_siareply_receive`; unlike the other receivers it leaves a stored route's class alone. -/
def siareply_receive_pd (env : Env) (pd : PrefixDescriptor) (nbr : Nbr) (received : Received) :
    Option (PrefixDescriptor × List Effect) :=
  if pd.state = .passive ∨ ¬ reply_status_pending pd nbr then some (pd, [])
  else if opaque_active received.tlv.metric then some (sia_reply_received pd nbr, [])
  else
    let msg : Msg := { packet_type := .reply, adv_router := some nbr
                       data_type := data_type received.tlv.external, metrics := received.tlv.metric }
    match prefix_descriptor_lookup pd nbr with
    | some route => fsm_event env pd msg route
    | none =>
      fsm_event env { pd with next_route := pd.next_route + 1 }
        { msg with transient_route := !nbr_route_admitted env received received.tlv.metric }
        (received_route pd nbr received.tlv)

/-- The body of `eigrp_update_receive_GR_ask`. Without a stored route `eigrp_fsm_event_select` creates one. -/
def gr_ask_pd (env : Env) (pd : PrefixDescriptor) (nbr : Nbr) : Option (PrefixDescriptor × List Effect) :=
  let msg : Msg := { packet_type := .update, adv_router := some nbr, data_type := .int
                     metrics := poisoned pd.reported_metric }
  match prefix_descriptor_lookup pd nbr with
  | some route => fsm_event env pd msg route
  | none =>
    fsm_event env { pd with next_route := pd.next_route + 1 } msg
      { id := pd.next_route, adv_router := some nbr, ei := nbr.ei }

/-! ## Loss of neighbors and interfaces -/

/-- The body of `eigrp_topology_neighbor_down` behind the clearing of the QUERY origin. -/
def neighbor_lost (env : Env) (pd : PrefixDescriptor) (nbr : Nbr) : Option (PrefixDescriptor × List Effect) :=
  match prefix_descriptor_lookup pd nbr with
  | some route =>
    fsm_event env pd
      { packet_type := if pd.state = .passive then .update else .reply, adv_router := some nbr
        data_type := data_type route.external, metrics := { delay := max_metric } } route
  | none => fsm_neighbor_down env pd nbr

/-- The body of `eigrp_topology_neighbor_down`. -/
def neighbor_down_pd (env : Env) (pd : PrefixDescriptor) (nbr : Nbr) : Option (PrefixDescriptor × List Effect) :=
  neighbor_lost env { pd with query_origin := if pd.query_origin = some nbr then none else pd.query_origin } nbr

/-- The loop of `eigrp_topology_connected_interface_down` over the local routes of one destination. -/
def connected_routes_down (env : Env) : List Nat → PrefixDescriptor → Option (PrefixDescriptor × List Effect)
  | [], pd => some (pd, [])
  | id :: ids, pd => do
    let route ← pd.routes.find? fun route => route.id = id
    let (pd, out) ← fsm_event env pd
      { packet_type := .update, adv_router := some .self, data_type := .int, metrics := poisoned route.reported_metric } route
    let (pd, rest) ← connected_routes_down env ids pd
    some (pd, out ++ rest)

/-- The body of `eigrp_topology_connected_interface_down`. -/
def connected_interface_down_pd (env : Env) (pd : PrefixDescriptor) (ei : Nat) :
    Option (PrefixDescriptor × List Effect) :=
  connected_routes_down env ((pd.routes.filter fun route => route.adv_router = some .self ∧ route.ei = some ei).map (·.id)) pd

/-! ## Local routes -/

/-- The connected route that `eigrp_intf_up` prepares. -/
def connected_route (env : Env) (id ei : Nat) : RouteDescriptor :=
  let metric := intf_metric (env.params ei)
  { id, metric, reported_metric := metric, total_metric := metric, distance := store (metric_calculate env.metric metric)
    reported_distance := 0, adv_router := some .self, successor := true, ei := some ei }

/-- The branch of `eigrp_intf_up` for a destination that is in the table. -/
def intf_up_pd (env : Env) (pd : PrefixDescriptor) (ei : Nat) : Option (PrefixDescriptor × List Effect) := do
  let (pd, deleted) := match prefix_descriptor_lookup pd .self with
    | some old_local => if old_local.ei = some ei then route_descriptor_delete pd old_local else (pd, [])
    | none => (pd, [])
  let id := pd.next_route
  let (pd, added) := route_descriptor_add env { pd with next_route := id + 1 } (connected_route env id ei)
  let route ← pd.routes.find? fun route => route.id = id
  let (pd, out) ← fsm_event env pd { packet_type := .update, data_type := .connected } route
  some (pd, deleted ++ added ++ out)

/-- What redistribution reads from a route of the host: its external data and next hop. -/
structure Source where
  extdata : ExtData
  nexthop : Address
deriving DecidableEq, Repr

/-- `eigrp_topology_redistributed_route_lookup`. -/
def redistributed_route_lookup (pd : PrefixDescriptor) (source : Source) : Option RouteDescriptor :=
  pd.external_routes.find? fun route =>
    route.adv_router = some .self ∧ route.external ∧ route.extdata.protocol = source.extdata.protocol
      ∧ route.extdata.as = source.extdata.as

/-- `eigrp_topology_redistributed_update_mark`. -/
def redistributed_update_mark (pd : PrefixDescriptor) : PrefixDescriptor × List Effect :=
  if pd.state = .passive then ({ pd with need_update := true }, [.topology_change_once]) else (pd, [])

/-- The branch of `eigrp_topology_redistributed_route_update` for a destination that is in the table. -/
def redistributed_update_pd (env : Env) (pd : PrefixDescriptor) (source : Source) (metric : Metrics) :
    Option (PrefixDescriptor × List Effect) := do
  let existing := redistributed_route_lookup pd source
  let (pd, added, route) := match existing with
    | some route => (pd, [], route)
    | none =>
      let route : RouteDescriptor := { id := pd.next_route, external := true, adv_router := some .self }
      let (pd, added) := route_descriptor_add env { pd with next_route := pd.next_route + 1 } route
      (pd, added, route)
  let update := fun route : RouteDescriptor =>
    { route with external := true, adv_router := some .self, ei := none, extdata := source.extdata, nexthop := source.nexthop }
  let metadata_changed := existing.isNone || route.extdata != source.extdata || route.nexthop != source.nexthop
  let (pd, out) ← fsm_event env (route_write pd route.id update)
    { packet_type := .update, adv_router := some .self, data_type := .ext, metrics := metric } (update route)
  let (pd, marked) := if metadata_changed then redistributed_update_mark pd else (pd, [])
  some (pd, added ++ out ++ marked)

/-- The body of `eigrp_topology_redistributed_route_remove`. -/
def redistributed_remove_pd (env : Env) (pd : PrefixDescriptor) (source : Source) : Option (PrefixDescriptor × List Effect) :=
  match redistributed_route_lookup pd source with
  | none => some (pd, [])
  | some route =>
    fsm_event env pd
      { packet_type := .update, adv_router := some .self, data_type := .ext, metrics := poisoned route.metric } route

/-! ## Refreshes -/

/-- The new vectors and distances of a local route in `eigrp_topology_metric_update`. -/
def local_route_refresh (env : Env) (route : RouteDescriptor) : RouteDescriptor :=
  let route := { route with reported_distance := 0 }
  let route := if route.ei.isNone then { route with reported_metric := route.metric, total_metric := route.metric } else route
  if route.metric.delay = max_metric then
    { route with reported_metric := route.metric, total_metric := route.metric, distance := max_distance }
  else match route.ei with
    | some ei =>
      let metric := { intf_metric (env.params ei) with mtu := route.metric.mtu, tag := route.metric.tag, flags := route.metric.flags }
      { route with metric, reported_metric := metric, total_metric := metric
                   distance := store (metric_calculate env.metric metric) }
    | none => { route with distance := store (redistributed_distance env.metric route.metric) }

/-- The new distances of a learned route in `eigrp_topology_metric_update`. -/
def learned_route_refresh (env : Env) (route : RouteDescriptor) : RouteDescriptor :=
  let route := { route with reported_distance := store (metric_calculate env.metric route.reported_metric) }
  match route.ei with
  | some ei =>
    { route with total_metric := metric_total env.metric route.reported_metric (env.params ei)
                 distance := store (metric_total_calculate env.metric route.reported_metric (env.params ei)) }
  | none => { route with distance := store (metric_calculate env.metric route.total_metric) }

def route_refresh (env : Env) (route : RouteDescriptor) : RouteDescriptor :=
  if route.adv_router = some .self then local_route_refresh env route else learned_route_refresh env route

/-- `eigrp_topology_route_queue_resort`: exchanges of neighbors in the wrong order end in the stable order by distance. -/
def queue_resort (queue : List RouteDescriptor) : List RouteDescriptor :=
  queue.insertionSort fun a b => a.distance ≤ b.distance

/-- The body of `eigrp_topology_metric_update`. -/
def metric_update_pd (env : Env) (pd : PrefixDescriptor) : PrefixDescriptor × List Effect :=
  if pd.state ≠ .passive then (pd, [])
  else
    let unelected := unelected pd && pd.routes.all fun route => route.adv_router ≠ some .self
    let pd := routes_map pd (route_refresh env)
    let pd := { pd with internal_routes := queue_resort pd.internal_routes, external_routes := queue_resort pd.external_routes }
    if unelected then (pd, [])
    else
      let pd := match route_read pd with
        | some best => { pd with distance := best.distance, fdistance := best.distance, rdistance := best.distance
                                 reported_metric := best.total_metric }
        | none => pd
      let (pd, out) := update_routing_table env (update_node_flags env pd)
      ({ pd with need_update := true }, out ++ [.topology_change_once])

/-- The body of `eigrp_topology_multipath_update`. -/
def multipath_update_pd (env : Env) (pd : PrefixDescriptor) : PrefixDescriptor × List Effect :=
  if pd.state ≠ .passive then (pd, []) else update_routing_table env (update_node_flags env pd)

/-- The body of `eigrp_topology_traffic_share_update`. -/
def traffic_share_update_pd (env : Env) (pd : PrefixDescriptor) : PrefixDescriptor × List Effect :=
  if pd.state ≠ .passive then (pd, []) else update_routing_table env pd

/-- The body of `eigrp_rib_routes_replay_instance`, with `eigrp_rib_prefix_installed`: whatever the state. -/
def routes_replay_pd (env : Env) (pd : PrefixDescriptor) : PrefixDescriptor × List Effect :=
  if pd.routes.any (·.intable) then update_routing_table env pd else (pd, [])

/-! ## Calls -/

inductive Action where
  | need_update
  | need_query
deriving DecidableEq, Repr

def PrefixDescriptor.needs (pd : PrefixDescriptor) : Action → Bool
  | .need_update => pd.need_update
  | .need_query => pd.need_query

def action_clear (pd : PrefixDescriptor) : Action → PrefixDescriptor
  | .need_update => { pd with need_update := false }
  | .need_query => { pd with need_query := false }

/-- Everything that is ever done to a prefix descriptor after its creation. -/
inductive Call where
  | update_receive (nbr : Nbr) (received : Received)
  | query_receive (nbr : Nbr) (received : Received)
  | reply_receive (nbr : Nbr) (received : Received)
  | siaquery_receive (nbr : Nbr) (received : Received)
  | siareply_receive (nbr : Nbr) (received : Received)
  | gr_ask (nbr : Nbr)
  | neighbor_down (nbr : Nbr)
  | suspended_origin_clear (nbrs : List Nbr)
  | connected_interface_down (ei : Nat)
  | intf_up (ei : Nat)
  | redistributed_update (source : Source) (metric : Metrics)
  | redistributed_remove (source : Source)
  | metric_update
  | multipath_update
  | traffic_share_update
  | routes_replay
  | query_rij_add (nbrs : List Nbr)
  | query_sent
  | action_clear (action : Action)
  | retire
  | active_timer_expired

/-- The neighbor that the call is about. -/
def Call.nbr : Call → Option Nbr
  | .update_receive nbr _ => some nbr
  | .query_receive nbr _ => some nbr
  | .reply_receive nbr _ => some nbr
  | .siaquery_receive nbr _ => some nbr
  | .siareply_receive nbr _ => some nbr
  | .gr_ask nbr => some nbr
  | .neighbor_down nbr => some nbr
  | _ => none

/-- The descriptor and the effects of a call. -/
def exec (env : Env) (pd : PrefixDescriptor) : Call → Option (PrefixDescriptor × List Effect)
  | .update_receive nbr received => update_receive_pd env pd nbr received
  | .query_receive nbr received => query_receive_pd env pd nbr received
  | .reply_receive nbr received => reply_receive_pd env pd nbr received
  | .siaquery_receive nbr received => siaquery_receive_pd env pd nbr received
  | .siareply_receive nbr received => siareply_receive_pd env pd nbr received
  | .gr_ask nbr => gr_ask_pd env pd nbr
  | .neighbor_down nbr => neighbor_down_pd env pd nbr
  | .suspended_origin_clear nbrs =>
    some ({ pd with query_origin := pd.query_origin.filter fun nbr => nbr ∉ nbrs }, [])
  | .connected_interface_down ei => connected_interface_down_pd env pd ei
  | .intf_up ei => intf_up_pd env pd ei
  | .redistributed_update source metric => redistributed_update_pd env pd source metric
  | .redistributed_remove source => redistributed_remove_pd env pd source
  | .metric_update => some (metric_update_pd env pd)
  | .multipath_update => some (multipath_update_pd env pd)
  | .traffic_share_update => some (traffic_share_update_pd env pd)
  | .routes_replay => some (routes_replay_pd env pd)
  | .query_rij_add nbrs => some (nbrs.foldl reply_status_add pd, [])
  | .query_sent => some (fsm_query_sent env pd)
  | .action_clear action => some (action_clear pd action, [])
  | .retire => some <| update_topology_table_prefix pd
  | .active_timer_expired => some (fsm_active_timer_expired env pd)

/-! ## Constructors -/

/-- The branch of `eigrp_update_receive` that creates a destination. -/
def update_prefix_create (env : Env) (id : Nat) (nbr : Nbr) (received : Received) : Option (PrefixDescriptor × List Effect) := do
  let tlv := received.tlv
  let pd : PrefixDescriptor :=
    { id, destination := tlv.dest, nt := if tlv.external then .remote_external else .remote, next_route := 1 }
  let learned ← route_learn env { received_route { pd with next_route := 0 } nbr tlv with successor := true } (ingress_metric received)
  let route := { learned with metric := tlv.metric }
  let pd := { pd with fdistance := route.distance, distance := route.distance, rdistance := route.distance }
  let (pd, out) := route_descriptor_add env pd route
  let pd := update_node_flags env { pd with reported_metric := route.total_metric }
  some ({ pd with need_update := true }, out ++ [.topology_change])

/-- `eigrp_query_unknown_route_record` for a destination that is not in the table. -/
def query_prefix_create (env : Env) (id : Nat) (nbr : Nbr) (received : Received) : Option (PrefixDescriptor × List Effect) := do
  let tlv := received.tlv
  let pd : PrefixDescriptor :=
    { id, destination := tlv.dest, nt := if tlv.external then .remote_external else .remote
      reported_metric := { delay := max_metric } }
  let route ← recorded_route env pd nbr tlv
  some (route_insert { pd with next_route := 1 } route, [])

/-- The branch of `eigrp_intf_up` that creates a destination. -/
def connected_prefix_create (env : Env) (id : Nat) (destination : Prefix) (ei : Nat) : PrefixDescriptor × List Effect :=
  let metric := intf_metric (env.params ei)
  let pd : PrefixDescriptor :=
    { id, destination, nt := .connected, reported_metric := metric
      fdistance := store (metric_calculate env.metric metric), need_update := true, next_route := 1 }
  let (pd, out) := route_descriptor_add env pd (connected_route env 0 ei)
  (pd, .topology_change :: out)

/-- The branch of `eigrp_topology_redistributed_route_update` that creates a destination. -/
def redistributed_prefix_create (env : Env) (id : Nat) (destination : Prefix) (source : Source) (metric : Metrics) :
    PrefixDescriptor × List Effect :=
  let distance := store (redistributed_distance env.metric metric)
  let pd : PrefixDescriptor :=
    { id, destination, nt := .remote_external, reported_metric := metric
      fdistance := distance, distance := distance, rdistance := distance, next_route := 1 }
  let (pd, out) := route_descriptor_add env pd
    { id := 0, external := true, adv_router := some .self, metric, reported_metric := metric, total_metric := metric
      reported_distance := 0, distance, successor := true, extdata := source.extdata, nexthop := source.nexthop }
  let (pd, marked) := redistributed_update_mark pd
  (pd, out ++ marked)

/-- The loop of `eigrp_topology_connected_recreate` that links the copied routes. -/
def routes_add (env : Env) : List RouteDescriptor → PrefixDescriptor → PrefixDescriptor × List Effect
  | [], pd => (pd, [])
  | route :: routes, pd =>
    let (pd, out) := route_descriptor_add env pd route
    let (pd, rest) := routes_add env routes pd
    (pd, out ++ rest)

/-- `eigrp_topology_connected_recreate` from the descriptor that was cleared. -/
def connected_recreate (env : Env) (id : Nat) (old : PrefixDescriptor) : PrefixDescriptor × List Effect :=
  routes_add env (old.internal_routes.filter fun route => route.adv_router = some .self)
    { id, destination := old.destination, nt := old.nt, reported_metric := old.reported_metric, distance := old.distance
      fdistance := old.fdistance, rdistance := old.rdistance, next_route := old.next_route }

/-- The route of the QUERY that `eigrp_topology_remote_requery` queues: the first learned or local route of the
    cleared descriptor, or a bare one. -/
def requery_route (old : PrefixDescriptor) : RouteDescriptor :=
  let route := (old.routes.find? fun route => route.adv_router.isSome).getD
    { id := 0, external := old.nt = .remote_external, metric := old.reported_metric }
  { route with adv_router := none, ei := none, metric := { poisoned route.metric with flags := 0 } }

/-- `eigrp_topology_remote_requery` from the descriptor that was cleared. -/
def remote_requery (id : Nat) (old : PrefixDescriptor) : PrefixDescriptor × List Effect :=
  ({ id, destination := old.destination, nt := old.nt, reported_metric := old.reported_metric, state := .active_1 },
    [.enqueue { opcode := .query, pd := some (.shared id), route := some (requery_route old) }])

end Eigrp
