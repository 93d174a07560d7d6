import Eigrp.Topology

/-!
# The DUAL state machine of one destination

`eigrp_fsm.c`. Every handler takes the descriptor and returns it changed, with the effects on the
instance in the order of the source; `none` is a dereference of a null pointer. The handlers of the
table `NSM` come before `eigrp_fsm_event`, which selects one of them.
-/

namespace Eigrp

/-! ## Reply status and the active timer -/

/-- `eigrp_fsm_reply_status_pending`. -/
def reply_status_pending (pd : PrefixDescriptor) (nbr : Nbr) : Bool := pd.rij.any fun status => status.neighbor = nbr

/-- `eigrp_fsm_reply_status_add`. -/
def reply_status_add (pd : PrefixDescriptor) (nbr : Nbr) : PrefixDescriptor :=
  if reply_status_pending pd nbr then pd else { pd with rij := pd.rij ++ [{ neighbor := nbr }] }

/-- `eigrp_fsm_reply_status_remove`. The lookup finds the one entry of the neighbor, and no entry for a null pointer. -/
def reply_status_remove (pd : PrefixDescriptor) (nbr : Option Nbr) : PrefixDescriptor :=
  { pd with rij := pd.rij.filter fun status => some status.neighbor ≠ nbr }

/-- `eigrp_fsm_sia_reply_received`. -/
def sia_reply_received (pd : PrefixDescriptor) (nbr : Nbr) : PrefixDescriptor :=
  { pd with rij := pd.rij.map fun status =>
      if status.neighbor = nbr then { status with sia_response_received := true } else status }

/-- `eigrp_fsm_active_timer_start`. -/
def active_timer_start (env : Env) (pd : PrefixDescriptor) : PrefixDescriptor :=
  if pd.state = .passive ∨ pd.rij = [] ∨ env.active_time = 0 then pd else { pd with t_active := true }

/-! ## Work items -/

/-- `eigrp_reply_send_route`; without a neighbor nothing is sent. -/
def reply_send_route (pd : PrefixDescriptor) (nbr : Option Nbr) (route : Option RouteDescriptor) (poison : Bool) : List Effect :=
  match nbr with
  | none => []
  | some nbr => [.enqueue { opcode := .reply, nbr := some nbr, pd := some (.shared pd.id), route, poison }]

/-- `eigrp_reply_send`. -/
def reply_send (pd : PrefixDescriptor) (nbr : Option Nbr) : List Effect := reply_send_route pd nbr none false

/-- `eigrp_siaquery_send`. -/
def siaquery_send (pd : PrefixDescriptor) (nbr : Nbr) : Effect :=
  .enqueue { opcode := .siaquery, nbr := some nbr, pd := some (.shared pd.id) }

/-- `eigrp_siareply_send`. -/
def siareply_send (pd : PrefixDescriptor) (nbr : Nbr) (active : Bool) : Effect :=
  .enqueue { opcode := .siareply, nbr := some nbr, pd := some (.shared pd.id), route_active := active }

/-- `eigrp_update_send_all`. -/
def update_send_all (exception : Option Nat) : Effect := .enqueue { opcode := .update, exception }

/-! ## Retirement -/

/-- The loops of `eigrp_update_topology_table_prefix` over the unreachable routes. -/
def delete_unreachable : List RouteDescriptor → PrefixDescriptor → PrefixDescriptor × List Effect
  | [], pd => (pd, [])
  | route :: routes, pd =>
    if route.distance = max_distance then
      let (pd, out) := route_descriptor_delete pd route
      let (pd, rest) := delete_unreachable routes pd
      (pd, out ++ rest)
    else delete_unreachable routes pd

/-- `eigrp_update_topology_table_prefix`; `detach` stands for the detachment from the table and the deferred free. -/
def update_topology_table_prefix (pd : PrefixDescriptor) : PrefixDescriptor × List Effect :=
  if pd.need_update then (pd, [])
  else
    let (pd, out) := delete_unreachable pd.routes pd
    if pd.state = .passive ∧ ¬ pd.need_query ∧ pd.rij = [] ∧ pd.query_origin = none ∧ pd.routes = [] then
      (pd, out ++ [.detach])
    else (pd, out)

/-! ## Handlers -/

/-- The end of LR and LR_FCS: the destination is announced, and flags and routing table follow the new distances. -/
def passive_refresh (env : Env) (pd : PrefixDescriptor) : PrefixDescriptor × List Effect :=
  let pd := { pd with need_update := true }
  let pd := update_node_flags env pd
  let (pd, table) := update_routing_table env pd
  let (pd, retired) := update_topology_table_prefix pd
  (pd, .topology_change :: table ++ retired ++ [update_send_all none])

/-- `eigrp_fsm_event_lr`. -/
def fsm_event_lr (env : Env) (pd : PrefixDescriptor) : PrefixDescriptor × List Effect :=
  let old := pd.state
  let pd := match route_read pd with
    | some route =>
      { pd with fdistance := route.distance, distance := route.distance, rdistance := route.distance
                reported_metric := route.total_metric }
    | none =>
      { pd with fdistance := max_distance, distance := max_distance, rdistance := max_distance
                reported_metric := { delay := max_metric } }
  let replies := if old = .active_3 ∨ old = .active_2 then reply_send pd pd.query_origin else []
  let pd := { pd with query_origin := none, t_active := false, rij := [], state := .passive }
  let (pd, out) := passive_refresh env pd
  (pd, replies ++ .dual_state_change old .passive .lr :: out)

/-- `eigrp_fsm_event_lr_fcs`. -/
def fsm_event_lr_fcs (env : Env) (pd : PrefixDescriptor) : Option (PrefixDescriptor × List Effect) := do
  let old := pd.state
  let route ← route_select pd
  let pd := { pd with
    t_active := false, rij := [], state := .passive
    distance := route.distance, rdistance := route.distance, reported_metric := route.total_metric
    fdistance := if pd.fdistance > route.distance then route.distance else pd.fdistance }
  let replies := if old = .active_2 then reply_send pd pd.query_origin else []
  let pd := { pd with query_origin := none }
  let (pd, out) := passive_refresh env pd
  some (pd, .dual_state_change old .passive .lr_fcs :: replies ++ out)

/-- What NQ_FCN, Q_FCN and LR_FCN do once the state is set: ask the neighbors, or finish at once without any. -/
def diffuse (env : Env) (pd : PrefixDescriptor) : PrefixDescriptor × List Effect :=
  let pd := { pd with t_active := false, rij := [] }
  if env.nbr_count ≠ 0 then ({ pd with need_query := true }, [.topology_change])
  else fsm_event_lr env pd

/-- `eigrp_fsm_event_nq_fcn`. -/
def fsm_event_nq_fcn (env : Env) (pd : PrefixDescriptor) : PrefixDescriptor × List Effect :=
  let (next, out) := diffuse env { pd with state := .active_1 }
  (next, .dual_state_change pd.state .active_1 .nq_fcn :: out)

/-- `eigrp_fsm_event_q_fcn`. -/
def fsm_event_q_fcn (env : Env) (pd : PrefixDescriptor) (msg : Msg) : PrefixDescriptor × List Effect :=
  let (next, out) := diffuse env { pd with state := .active_3, query_origin := msg.adv_router }
  (next, .dual_state_change pd.state .active_3 .q_fcn :: out)

/-- `eigrp_fsm_event_lr_fcn`. -/
def fsm_event_lr_fcn (env : Env) (pd : PrefixDescriptor) : PrefixDescriptor × List Effect :=
  let state := if pd.state = .active_0 then State.active_1 else .active_3
  let (next, out) := diffuse env { pd with state }
  (next, .dual_state_change pd.state state .lr_fcn :: out)

/-- `eigrp_fsm_event_qact`. -/
def fsm_event_qact (pd : PrefixDescriptor) (msg : Msg) : PrefixDescriptor × List Effect :=
  ({ pd with state := .active_2, query_origin := msg.adv_router }, [.dual_state_change pd.state .active_2 .qact])

/-- `eigrp_fsm_active_non_successor_reply_send`. -/
def active_non_successor_reply_send (pd : PrefixDescriptor) (nbr : Option Nbr) : List Effect :=
  match pd.routes.find? (fun route => route.intable ∧ route.distance ≠ max_distance) with
  | some route => reply_send_route pd nbr (some { route with metric := pd.reported_metric }) false
  | none => reply_send_route pd nbr none true

/-- The part of `eigrp_fsm_event_keep_state` for a PASSIVE destination: commit the route in use, if its vector changed. -/
def keep_passive (env : Env) (pd : PrefixDescriptor) (route : RouteDescriptor) : PrefixDescriptor × List Effect :=
  let (pd, changed) :=
    if metrics_match pd.reported_metric route.total_metric then (pd, [])
    else
      ({ pd with
          distance := route.distance
          rdistance := route.distance
          fdistance := if route.distance < pd.fdistance then route.distance else pd.fdistance
          reported_metric := route.total_metric
          need_update := true }, [Effect.topology_change])
  let (pd, table) := update_routing_table env (update_node_flags env pd)
  (pd, changed ++ table)

/-- `eigrp_fsm_event_keep_state`. -/
def fsm_event_keep_state (env : Env) (pd : PrefixDescriptor) (msg : Msg) (route : RouteDescriptor) :
    Option (PrefixDescriptor × List Effect) :=
  if pd.state = .passive then do
    let used ← (route_select pd).or (route_read pd)
    let (pd, out) := keep_passive env pd used
    some (pd, out ++ if msg.packet_type = .query then reply_send pd msg.adv_router else [])
  else
    some (pd,
      if msg.packet_type = .query ∧ ¬ route.successor then active_non_successor_reply_send pd msg.adv_router else [])

/-! ## Events -/

/-- What a REPLY does in `eigrp_fsm_event_select`: `finished` is the event once no neighbor owes one. -/
def select_reply (pd : PrefixDescriptor) (route : RouteDescriptor) (finished : FsmEvent) : PrefixDescriptor × FsmEvent :=
  let pd := reply_status_remove pd route.adv_router
  (pd, if pd.rij ≠ [] then .keep_state else finished)

/-- The switch of `eigrp_fsm_event_select`, behind the distance update. -/
def event_choose (pd : PrefixDescriptor) (msg : Msg) (route : RouteDescriptor) (change : MetricChange) :
    PrefixDescriptor × FsmEvent :=
  let feasible := if (route_select pd).isSome then FsmEvent.lr_fcs else .lr_fcn
  match pd.state with
  | .passive =>
    if change = .same ∨ ((route_select pd).isNone ∧ pd.fdistance = max_distance) then (pd, .keep_state)
    else if (route_select pd).isSome then (pd, .keep_state)
    else if msg.packet_type = .query then (pd, .q_fcn) else (pd, .nq_fcn)
  | .active_0 =>
    if msg.packet_type = .reply then select_reply pd route feasible
    else if msg.packet_type = .query ∧ route.successor then (pd, .qact) else (pd, .keep_state)
  | .active_2 =>
    if msg.packet_type = .query ∧ route.successor then (pd, .qact)
    else if msg.packet_type = .reply then select_reply pd route feasible else (pd, .keep_state)
  | .active_1 | .active_3 =>
    if msg.packet_type = .query ∧ route.successor then (pd, .qact)
    else if msg.packet_type = .reply then select_reply pd route .lr
    else if msg.packet_type = .update ∧ change = .increase ∧ route.successor then (pd, .dinc) else (pd, .keep_state)

/-- `eigrp_fsm_event_select`, with the message and its route as they are afterwards. -/
def event_select (env : Env) (pd : PrefixDescriptor) (msg : Msg) (route : RouteDescriptor) :
    Option (PrefixDescriptor × Msg × RouteDescriptor × FsmEvent) := do
  let (pd, msg, route, change) ← update_distance env pd msg route
  let (pd, event) := event_choose pd msg route change
  some (pd, msg, route, event)

/-- The rows `ACTIVE_0` and `ACTIVE_2` of `NSM`. -/
def nsm_even (env : Env) (pd : PrefixDescriptor) (msg : Msg) (route : RouteDescriptor) :
    FsmEvent → Option (PrefixDescriptor × List Effect)
  | .lr_fcs => fsm_event_lr_fcs env pd
  | .qact => some (fsm_event_qact pd msg)
  | .lr_fcn => some (fsm_event_lr_fcn env pd)
  | .nq_fcn | .lr | .q_fcn | .dinc | .keep_state => fsm_event_keep_state env pd msg route

/-- `eigrp_fsm_event_dinc`: it moves to an even row, and selects again there when no neighbor owes a REPLY. -/
def fsm_event_dinc (env : Env) (pd : PrefixDescriptor) (msg : Msg) (route : RouteDescriptor) :
    Option (PrefixDescriptor × List Effect) := do
  let state := if pd.state = .active_1 then State.active_0 else .active_2
  let change := Effect.dual_state_change pd.state state .dinc
  let pd := { pd with state }
  if pd.rij = [] then
    let (pd, msg, route, event) ← event_select env pd msg route
    let (pd, out) ← nsm_even env pd msg route event
    some (pd, change :: out)
  else some (pd, [change])

/-- The rows `ACTIVE_1` and `ACTIVE_3` of `NSM`. -/
def nsm_odd (env : Env) (pd : PrefixDescriptor) (msg : Msg) (route : RouteDescriptor) :
    FsmEvent → Option (PrefixDescriptor × List Effect)
  | .lr => some (fsm_event_lr env pd)
  | .dinc => fsm_event_dinc env pd msg route
  | .qact => some (fsm_event_qact pd msg)
  | .nq_fcn | .q_fcn | .lr_fcs | .lr_fcn | .keep_state => fsm_event_keep_state env pd msg route

/-- The row `PASSIVE` of `NSM`. -/
def nsm_passive (env : Env) (pd : PrefixDescriptor) (msg : Msg) (route : RouteDescriptor) :
    FsmEvent → Option (PrefixDescriptor × List Effect)
  | .nq_fcn => some (fsm_event_nq_fcn env pd)
  | .q_fcn => some (fsm_event_q_fcn env pd msg)
  | .lr | .lr_fcs | .dinc | .qact | .lr_fcn | .keep_state => fsm_event_keep_state env pd msg route

/-- `NSM[prefix->state][event]`. -/
def nsm (env : Env) (pd : PrefixDescriptor) (msg : Msg) (route : RouteDescriptor) (event : FsmEvent) :
    Option (PrefixDescriptor × List Effect) :=
  match pd.state with
  | .passive => nsm_passive env pd msg route event
  | .active_0 | .active_2 => nsm_even env pd msg route event
  | .active_1 | .active_3 => nsm_odd env pd msg route event

/-- `eigrp_fsm_event`. -/
def fsm_event (env : Env) (pd : PrefixDescriptor) (msg : Msg) (route : RouteDescriptor) :
    Option (PrefixDescriptor × List Effect) := do
  let (pd, msg, route, event) ← event_select env pd msg route
  nsm env pd msg route event

/-! ## Entries without a message -/

/-- `eigrp_fsm_query_sent`. -/
def fsm_query_sent (env : Env) (pd : PrefixDescriptor) : PrefixDescriptor × List Effect :=
  if pd.state = .passive then (pd, [])
  else if pd.rij ≠ [] then (active_timer_start env pd, [])
  else fsm_event_lr env pd

/-- `eigrp_fsm_neighbor_down`. -/
def fsm_neighbor_down (env : Env) (pd : PrefixDescriptor) (nbr : Nbr) : Option (PrefixDescriptor × List Effect) :=
  if pd.state = .passive ∨ ¬ reply_status_pending pd nbr then some (pd, [])
  else
    let pd := reply_status_remove pd (some nbr)
    if pd.rij ≠ [] then some (pd, [])
    else if pd.state = .active_0 ∨ pd.state = .active_2 then
      if (route_select pd).isSome then fsm_event_lr_fcs env pd else some (fsm_event_lr_fcn env pd)
    else some (fsm_event_lr env pd)

/-- `eigrp_fsm_active_timer_expired`. The timer has cleared its owner; `stuck` hands the first neighbor that stayed
    silent, or used up its SIA exchanges, to the instance for teardown. -/
def fsm_active_timer_expired (env : Env) (pd : PrefixDescriptor) : PrefixDescriptor × List Effect :=
  let pd := { pd with t_active := false }
  if pd.state = .passive ∨ pd.rij = [] then (pd, [])
  else match pd.rij.find? (fun status => !status.sia_response_received || status.sia_queries ≥ 3) with
    | some status => (pd, [.stuck status.neighbor])
    | none =>
      ({ pd with
          rij := pd.rij.map fun status =>
            { status with sia_response_received := false, sia_queries := status.sia_queries + 1 }
          t_active := env.active_time ≠ 0 },
        pd.rij.map fun status => siaquery_send pd status.neighbor)

end Eigrp
