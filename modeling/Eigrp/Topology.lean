import Eigrp.Metric
import Eigrp.Wire
import Mathlib.Data.List.Sort

/-!
# Prefix and route descriptors

`eigrp_topology.c` below the level of the table: the two route queues of a destination, how a route
is read, selected, added and deleted, how a message changes its distance, and how the successor flags
and the host's routing table are refreshed. A function that writes to the rest of the instance
returns what it writes as a list of `Effect`s, in the order of the source.
-/

namespace Eigrp

/-! ## Data -/

/-- A neighbor object. The interface of a learned neighbor never changes; `eigrp->neighbor_self` has none. -/
inductive Nbr where
  | self
  | peer (ei : Nat) (id : Nat)
deriving DecidableEq, Repr

def Nbr.ei : Nbr → Option Nat
  | .self => none
  | .peer ei _ => some ei

inductive State where
  | passive
  | active_0
  | active_1
  | active_2
  | active_3
deriving DecidableEq, Repr

inductive FsmEvent where
  | nq_fcn
  | lr
  | q_fcn
  | lr_fcs
  | dinc
  | qact
  | lr_fcn
  | keep_state
deriving DecidableEq, Repr

inductive Opcode where
  | update
  | query
  | reply
  | siaquery
  | siareply
deriving DecidableEq, Repr

/-- `EIGRP_TOPOLOGY_TYPE_*`. -/
inductive TopologyType where
  | connected
  | remote
  | remote_external
deriving DecidableEq, Repr

/-- A destination in normal form: host bits are zero. -/
structure Prefix where
  address : BitVec 128
  prefix_length : UInt8
deriving DecidableEq, Repr

/-- `eigrp_route_descriptor_t`; `id` stands for the pointer among the routes of one destination. -/
structure RouteDescriptor where
  id : Nat
  external : Bool := false
  nexthop : Address := 0
  adv_router : Option Nbr := none
  reported_metric : Metrics := {}
  reported_distance : UInt32 := 0xffffffff
  total_metric : Metrics := {}
  distance : UInt32 := 0xffffffff
  metric : Metrics := {}
  extdata : ExtData := {}
  successor : Bool := false
  fsuccessor : Bool := false
  intable : Bool := false
  ei : Option Nat := none
deriving DecidableEq, Repr

structure ReplyStatus where
  neighbor : Nbr
  sia_queries : UInt8 := 0
  sia_response_received : Bool := true
deriving DecidableEq, Repr

/-- `eigrp_prefix_descriptor_t`; `id` stands for the pointer, `next_route` numbers the routes created for it. -/
structure PrefixDescriptor where
  id : Nat
  destination : Prefix
  internal_routes : List RouteDescriptor := []
  external_routes : List RouteDescriptor := []
  rij : List ReplyStatus := []
  reported_metric : Metrics := {}
  fdistance : UInt32 := 0xffffffff
  rdistance : UInt32 := 0xffffffff
  distance : UInt32 := 0xffffffff
  nt : TopologyType := .connected
  state : State := .passive
  need_update : Bool := false
  need_query : Bool := false
  t_active : Bool := false
  query_origin : Option Nbr := none
  next_route : Nat := 0
deriving DecidableEq, Repr

structure RibNexthop where
  ifindex : Nat
  gateway : Option Nbr
  weight : Nat := 0
deriving DecidableEq, Repr

/-- What EIGRP asks the host to install for a destination. -/
structure RibRoute where
  nexthops : List RibNexthop
  metric : UInt32
  admin_dist : UInt8
  external : Bool
  tag : UInt32 := 0
deriving DecidableEq, Repr

/-- The destination of a work item: a descriptor of the topology, or one the item owns. -/
inductive WorkPrefix where
  | shared (id : Nat)
  | owned (pd : PrefixDescriptor)
deriving DecidableEq, Repr

/-- `eigrp_packetizer_work_t`. -/
structure Work where
  opcode : Opcode
  pd : Option WorkPrefix := none
  route : Option RouteDescriptor := none
  exception : Option Nat := none
  nbr : Option Nbr := none
  defer_free : Bool := false
  poison : Bool := false
  route_active : Bool := false
deriving DecidableEq, Repr

/-- What the code of one destination does to the rest of the instance. -/
inductive Effect where
  | topology_change
  | topology_change_once
  | enqueue (work : Work)
  | rib_route_add (route : RibRoute)
  | rib_route_del
  | dual_state_change (old new : State) (event : FsmEvent)
  | detach
  | stuck (nbr : Nbr)
deriving DecidableEq, Repr

/-- What the code of one destination reads from the instance and the host. `links` are the list items that the host grants
    to DUAL, given the numbers of destination and route and the vector to be linked; every other allocation succeeds. -/
structure Env where
  metric : MetricConfig
  variance : UInt8
  max_paths : UInt8
  traffic_share_balanced : Bool
  distance_internal : UInt8
  distance_external : UInt8
  active_time : UInt16
  params : Nat → IntfParams
  nbr_count : Nat
  rib_accepts : RibRoute → Bool
  links : Nat → Nat → Metrics → Bool := fun _ _ _ => true

/-- `EIGRP_MAX_METRIC` in a distance field. -/
def max_distance : UInt32 := 0xffffffff

/-! ## Route queues -/

/-- The iterator over both queues, internal routes first. -/
def PrefixDescriptor.routes (pd : PrefixDescriptor) : List RouteDescriptor := pd.internal_routes ++ pd.external_routes

/-- `eigrp_topology_route_read`. -/
def route_read (pd : PrefixDescriptor) : Option RouteDescriptor :=
  match pd.routes.find? (fun route => route.distance ≠ max_distance) with
  | some route => some route
  | none => pd.routes.head?

/-- `eigrp_topology_route_select`. -/
def route_select (pd : PrefixDescriptor) : Option RouteDescriptor :=
  pd.routes.find? fun route => route.distance ≠ max_distance ∧ route.reported_distance < pd.fdistance

/-- `eigrp_prefix_descriptor_lookup`. -/
def prefix_descriptor_lookup (pd : PrefixDescriptor) (nbr : Nbr) : Option RouteDescriptor :=
  pd.routes.find? fun route => route.adv_router = some nbr

/-- `eigrp_list_insert` with `eigrp_route_descriptor_cmp`: behind the routes of the same distance. -/
def queue_insert (route : RouteDescriptor) (queue : List RouteDescriptor) : List RouteDescriptor :=
  queue.orderedInsert (fun a b => a.distance < b.distance) route

def queue_delete (id : Nat) (queue : List RouteDescriptor) : List RouteDescriptor := queue.filter fun route => route.id ≠ id

/-- `eigrp_topology_route_insert`: into the queue of the route's class. -/
def route_insert (pd : PrefixDescriptor) (route : RouteDescriptor) : PrefixDescriptor :=
  if route.external then { pd with external_routes := queue_insert route pd.external_routes }
  else { pd with internal_routes := queue_insert route pd.internal_routes }

/-- An update of one stored object, wherever it is linked. -/
def route_write (pd : PrefixDescriptor) (id : Nat) (update : RouteDescriptor → RouteDescriptor) : PrefixDescriptor :=
  let write := fun route : RouteDescriptor => if route.id = id then update route else route
  { pd with internal_routes := pd.internal_routes.map write, external_routes := pd.external_routes.map write }

def routes_map (pd : PrefixDescriptor) (update : RouteDescriptor → RouteDescriptor) : PrefixDescriptor :=
  { pd with internal_routes := pd.internal_routes.map update, external_routes := pd.external_routes.map update }

/-! ## The host's routing table -/

/-- `eigrp_topology_southbound_nexthop`: routes without an interface are not sent to the host. -/
def southbound_nexthop (route : RouteDescriptor) : Option RibNexthop :=
  route.ei.map fun ei =>
    { ifindex := ei, gateway := route.adv_router.bind fun nbr => if nbr = .self then none else some nbr }

/-- `eigrp_topology_southbound_nexthops`. -/
def southbound_nexthops (env : Env) (routes : List RouteDescriptor) : List RibNexthop :=
  let largest := (routes.filter fun route => route.distance ≠ max_distance).foldl
    (fun largest route => max largest route.distance.toNat) 0
  let weight (route : RouteDescriptor) : Nat :=
    if env.traffic_share_balanced && largest != 0 && route.distance != 0 && route.distance != max_distance then
      max 1 (largest / route.distance.toNat)
    else 0
  (routes.filterMap fun route => (southbound_nexthop route).map fun hop => { hop with weight := weight route }).take 32

def admin_dist (env : Env) (external : Bool) : UInt8 := if external then env.distance_external else env.distance_internal

/-- `eigrp_route_descriptor_add` for a route that is not stored yet: a route that becomes the first to be read is
    installed at once, and flagged if the host accepts it. -/
def route_descriptor_add (env : Env) (pd : PrefixDescriptor) (route : RouteDescriptor) :
    PrefixDescriptor × List Effect :=
  let pd := route_insert pd route
  match (route_read pd).filter (fun first => first.id = route.id), southbound_nexthop route with
  | some _, some nexthop =>
    let rib_route : RibRoute :=
      { nexthops := [nexthop], metric := pd.distance, admin_dist := admin_dist env route.external
        external := route.external, tag := route.extdata.tag }
    let pd := if env.rib_accepts rib_route then route_write pd route.id fun route => { route with intable := true } else pd
    (pd, [.rib_route_add rib_route])
  | _, _ => (pd, [])

/-- `eigrp_route_descriptor_delete`. -/
def route_descriptor_delete (pd : PrefixDescriptor) (route : RouteDescriptor) : PrefixDescriptor × List Effect :=
  ({ pd with
      internal_routes := if route.external then pd.internal_routes else queue_delete route.id pd.internal_routes
      external_routes := if route.external then queue_delete route.id pd.external_routes else pd.external_routes },
    if route.intable then [.rib_route_del] else [])

/-- The flag of one route of the eligible class, with the number of successors marked before it. -/
def mark_route (env : Env) (pd : PrefixDescriptor) (max_paths successor_count : Nat) (route : RouteDescriptor) :
    RouteDescriptor × Nat :=
  let feasible := route.reported_distance < pd.fdistance
  let within_variance := route.distance ≠ max_distance ∧ route.distance.toNat ≤ pd.distance.toNat * env.variance.toNat
  if feasible then
    if within_variance ∧ successor_count < max_paths then ({ route with successor := true }, successor_count + 1)
    else ({ route with fsuccessor := true }, successor_count)
  else (route, successor_count)

def mark_queue (env : Env) (pd : PrefixDescriptor) (max_paths : Nat) : Nat → List RouteDescriptor → List RouteDescriptor
  | _, [] => []
  | successor_count, route :: queue =>
    let (marked, successor_count) := mark_route env pd max_paths successor_count route
    marked :: mark_queue env pd max_paths successor_count queue

/-- `eigrp_topology_update_node_flags`. -/
def update_node_flags (env : Env) (pd : PrefixDescriptor) : PrefixDescriptor :=
  let best := route_select pd
  let max_paths := if env.max_paths ≠ 0 then env.max_paths.toNat else 4
  let pd := routes_map pd fun route => { route with successor := false, fsuccessor := false }
  match best with
  | none => pd
  | some best =>
    if best.external then { pd with external_routes := mark_queue env pd max_paths 0 pd.external_routes }
    else { pd with internal_routes := mark_queue env pd max_paths 0 pd.internal_routes }

/-- `eigrp_topology_successors_max_read`. -/
def successors_max_read (pd : PrefixDescriptor) (maxpaths : Nat) : List RouteDescriptor :=
  (pd.routes.filter (·.successor)).take maxpaths

/-- `eigrp_update_routing_table`. -/
def update_routing_table (env : Env) (pd : PrefixDescriptor) : PrefixDescriptor × List Effect :=
  let pd := routes_map pd fun route => { route with intable := false }
  if pd.routes.any (·.successor) then
    let successors := successors_max_read pd env.max_paths.toNat
    let nexthops := southbound_nexthops env successors
    let external := (successors.head?.map (·.external)).getD false
    let rib_route : RibRoute :=
      { nexthops, metric := pd.distance, admin_dist := admin_dist env external, external
        tag := if external then (successors.head?.map (·.extdata.tag)).getD 0 else 0 }
    (routes_map pd fun route => if successors.any (fun chosen => chosen.id = route.id) then { route with intable := true } else route,
      if nexthops.isEmpty then [] else [.rib_route_add rib_route])
  else (pd, [.rib_route_del])

/-! ## Messages and distances -/

inductive DataType where
  | connected
  | int
  | ext
deriving DecidableEq, Repr

inductive MetricChange where
  | decrease
  | same
  | increase
deriving DecidableEq, Repr

/-- `eigrp_fsm_action_message_t` without the pointers to the instance and the destination. The route of a
    message is passed beside it. -/
structure Msg where
  packet_type : Opcode
  adv_router : Option Nbr := none
  data_type : DataType
  metrics : Metrics := {}
  transient_route : Bool := false
deriving DecidableEq, Repr

/-- The vector and the distances of a learned route, `route->ei` being read without a test. -/
def route_learn (env : Env) (route : RouteDescriptor) (metrics : Metrics) : Option RouteDescriptor :=
  route.ei.map fun ei =>
    { route with
      metric := metrics
      reported_metric := metrics
      reported_distance := store (metric_calculate env.metric metrics)
      total_metric := metric_total env.metric metrics (env.params ei)
      distance := store (metric_total_calculate env.metric metrics (env.params ei)) }

/-- Taking a route out of whichever queue holds it and linking it again by class and distance. -/
def route_relink (pd : PrefixDescriptor) (route : RouteDescriptor) : PrefixDescriptor :=
  route_insert
    { pd with
      internal_routes := queue_delete route.id pd.internal_routes
      external_routes := queue_delete route.id pd.external_routes } route

/-- `eigrp_topology_update_distance` where the list item is granted. -/
def distance_measure (env : Env) (pd : PrefixDescriptor) (msg : Msg) (route : RouteDescriptor) :
    Option (PrefixDescriptor × RouteDescriptor × MetricChange) :=
  if msg.transient_route then some (pd, route, .same)
  else
    let route := { route with
      adv_router := route.adv_router <|> msg.adv_router
      ei := route.ei <|> msg.adv_router.bind Nbr.ei }
    let stored := pd.routes.any fun other => other.id = route.id
    let class_changed := (pd.external_routes.any fun other => other.id = route.id) != route.external
    let unchanged := stored && !class_changed && metrics_match msg.metrics route.reported_metric
    match msg.data_type with
    | .connected =>
      if pd.nt = .connected then some (pd, route, .same) else some (route_relink pd route, route, .decrease)
    | .int =>
      if unchanged then some (pd, route, .same)
      else do
        let learned ← route_learn env route msg.metrics
        some (route_relink pd learned, learned,
          if route.reported_distance < learned.reported_distance then .increase else .decrease)
    | .ext =>
      if unchanged then some (pd, route, .same)
      else if route.adv_router = some .self ∧ route.ei = none then
        let distance := redistributed_distance env.metric msg.metrics
        let seeded := { route with
          metric := msg.metrics
          reported_metric := msg.metrics
          reported_distance := 0
          total_metric := msg.metrics
          distance := store distance }
        some (route_relink pd seeded, seeded,
          if route.distance.toUInt64 < distance then .increase
          else if route.distance.toUInt64 > distance then .decrease else .same)
      else do
        let learned ← route_learn env route msg.metrics
        some (route_relink pd learned, learned,
          if route.reported_distance < learned.reported_distance then .increase
          else if route.reported_distance > learned.reported_distance then .decrease else .same)

def route_stored (pd : PrefixDescriptor) (id : Nat) : Bool := pd.routes.any fun other => other.id = id

/-- Taking a route out of whichever queue holds it. -/
def route_unlink (pd : PrefixDescriptor) (id : Nat) : PrefixDescriptor :=
  { pd with internal_routes := queue_delete id pd.internal_routes, external_routes := queue_delete id pd.external_routes }

/-- Whether `eigrp_topology_update_distance` comes to the place where it links the route of the message. -/
def relinks (pd : PrefixDescriptor) (msg : Msg) (route : RouteDescriptor) : Bool :=
  let class_changed := (pd.external_routes.any fun other => other.id = route.id) != route.external
  !msg.transient_route && match msg.data_type with
    | .connected => pd.nt ≠ .connected
    | .int | .ext => !(route_stored pd route.id && !class_changed && metrics_match msg.metrics route.reported_metric)

def link_refused (env : Env) (pd : PrefixDescriptor) (msg : Msg) (route : RouteDescriptor) : Bool :=
  relinks pd msg route && !env.links pd.id route.id msg.metrics

/-- `eigrp_topology_update_distance`. A refused item leaves the route unlinked, whether or not it was stored, and the message
    transient if it was not. -/
def update_distance (env : Env) (pd : PrefixDescriptor) (msg : Msg) (route : RouteDescriptor) :
    Option (PrefixDescriptor × Msg × RouteDescriptor × MetricChange) := do
  let (next, after, change) ← distance_measure env pd msg route
  if link_refused env pd msg route then
    some (route_unlink pd route.id, { msg with transient_route := !route_stored pd route.id }, after, .same)
  else some (next, msg, after, change)

end Eigrp
