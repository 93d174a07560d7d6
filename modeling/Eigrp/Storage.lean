import Eigrp.Clear

/-!
# Storage of routes

What links or deletes a route keeps the counts behind the prefix limits, and a route that is added needs
a list item, which the host may refuse as it may refuse one to DUAL. The functions of the topology are
given here once more with both. What they leave of a destination is what it was before, unless an added
route is refused. The object of a deleted neighbor is neither freed nor used again while its routes are
stored, since their deletion reads it.
-/

namespace Eigrp
namespace Storage

/-- The list items that the host grants to routes that are added, by number; those of DUAL are the `links` of `Env`. -/
structure Memory where
  added : Nat → Bool := fun _ => true

/-- `limit_prefix_count` of the neighbors and `redist_prefix_count`. No memory holds as many destinations as 32 bits
    count. -/
structure Counts where
  limit_prefix_count : Nbr → Nat := fun _ => 0
  redist_prefix_count : Nat := 0

def Counts.limit_write (counts : Counts) (nbr : Nbr) (count : Nat) : Counts :=
  { counts with limit_prefix_count := Function.update counts.limit_prefix_count nbr count }

/-! ## Queues -/

/-- `eigrp_topology_redist_present`. -/
def topology_redist_present (pd : PrefixDescriptor) : Bool :=
  pd.external_routes.any fun route => route.adv_router = some .self ∧ route.ei = none

/-- `eigrp_topology_route_insert`. -/
def topology_route_insert (granted : Bool) (pd : PrefixDescriptor) (counts : Counts) (route : RouteDescriptor)
    (first_peer_path : Bool) : Option (PrefixDescriptor × Counts) :=
  if !granted then none
  else
    let counts := match route.adv_router with
      | some nbr =>
        if first_peer_path ∧ nbr ≠ .self then counts.limit_write nbr (counts.limit_prefix_count nbr + 1) else counts
      | none => counts
    some (route_insert pd route, counts)

/-- `eigrp_route_descriptor_add` for a route that is not stored yet. -/
def route_descriptor_add (granted : Bool) (env : Env) (pd : PrefixDescriptor) (counts : Counts) (route : RouteDescriptor) :
    PrefixDescriptor × Counts :=
  let first_peer_path := route.adv_router.any fun nbr => (prefix_descriptor_lookup pd nbr).isNone
  let first_redist := route.adv_router = some .self ∧ route.ei = none ∧ route.external ∧ ¬ topology_redist_present pd
  match topology_route_insert granted pd counts route first_peer_path with
  | none => (pd, counts)
  | some (_, counts) =>
    ((Eigrp.route_descriptor_add env pd route).1,
      if first_redist then { counts with redist_prefix_count := counts.redist_prefix_count + 1 } else counts)

/-- `eigrp_route_descriptor_delete`. -/
def route_descriptor_delete (pd : PrefixDescriptor) (counts : Counts) (route : RouteDescriptor) : PrefixDescriptor × Counts :=
  let queue := if route.external then pd.external_routes else pd.internal_routes
  let was_redist := route.adv_router = some .self ∧ route.ei = none ∧ route.external
  if queue.any fun other => other.id = route.id then
    let (pd, _) := Eigrp.route_descriptor_delete pd route
    let counts :=
      if was_redist ∧ ¬ topology_redist_present pd then { counts with redist_prefix_count := counts.redist_prefix_count - 1 }
      else counts
    let counts := match route.adv_router with
      | some nbr =>
        if (prefix_descriptor_lookup pd nbr).isNone then counts.limit_write nbr (counts.limit_prefix_count nbr - 1) else counts
      | none => counts
    (pd, counts)
  else (pd, counts)

/-- The loops of `eigrp_update_topology_table_prefix` over the unreachable routes. -/
def delete_unreachable : List RouteDescriptor → PrefixDescriptor → Counts → PrefixDescriptor × Counts
  | [], pd, counts => (pd, counts)
  | route :: routes, pd, counts =>
    if route.distance = max_distance then
      let (pd, counts) := route_descriptor_delete pd counts route
      delete_unreachable routes pd counts
    else delete_unreachable routes pd counts

/-- `eigrp_update_topology_table_prefix`. -/
def update_topology_table_prefix (pd : PrefixDescriptor) (counts : Counts) : PrefixDescriptor × Counts :=
  if pd.need_update then (pd, counts) else delete_unreachable pd.routes pd counts

/-! ## DUAL -/

/-- `eigrp_topology_update_distance`, with the counts. -/
def update_distance (env : Env) (pd : PrefixDescriptor) (counts : Counts) (msg : Msg) (route : RouteDescriptor) :
    Option (PrefixDescriptor × Counts × Msg × RouteDescriptor × MetricChange) := do
  let (next, after, change) ← distance_measure env pd msg route
  if relinks pd msg route then
    let stored := route_stored pd route.id
    let first_peer_path := !stored && after.adv_router.any fun nbr => nbr ≠ .self ∧ (prefix_descriptor_lookup pd nbr).isNone
    match topology_route_insert (env.links pd.id route.id msg.metrics) (route_unlink pd route.id) counts after first_peer_path with
    | some (pd, counts) => some (pd, counts, msg, after, change)
    | none => some (route_unlink pd route.id, counts, { msg with transient_route := !stored }, after, .same)
  else some (next, counts, msg, after, change)

/-- `eigrp_fsm_event`. -/
def fsm_event (env : Env) (pd : PrefixDescriptor) (counts : Counts) (msg : Msg) (route : RouteDescriptor) :
    Option (PrefixDescriptor × Counts) := do
  let (pd, counts, msg, route, change) ← update_distance env pd counts msg route
  let (pd, event) := event_choose pd msg route change
  let (pd, _) ← nsm env pd msg route event
  some (pd, counts)

/-! ## Messages -/

def handed_run (env : Env) (counts : Counts) (handed : Handed) : Option (PrefixDescriptor × Counts) :=
  if handed.dual then fsm_event env handed.pd counts handed.msg handed.route
  else do
    let (pd, counts, _) ← update_distance env handed.pd counts handed.msg handed.route
    some (pd, counts)

/-! ## Turns -/

/-- What is done to a destination: a call, or one round of the loop of `eigrp_topology_connected_interface_down`. -/
inductive Turn where
  | call (call : Call)
  | withdraw (id : Nat)

/-- The deletion of an old local route in `eigrp_intf_up`. -/
def intf_up_delete (pd : PrefixDescriptor) (counts : Counts) (ei : Nat) : PrefixDescriptor × Counts :=
  match prefix_descriptor_lookup pd .self with
  | some old_local => if old_local.ei = some ei then route_descriptor_delete pd counts old_local else (pd, counts)
  | none => (pd, counts)

/-- The part of `eigrp_intf_up` in front of the message. -/
def intf_up_handed (memory : Memory) (env : Env) (pd : PrefixDescriptor) (counts : Counts) (ei : Nat) : Handed × Counts :=
  let (pd, counts) := intf_up_delete pd counts ei
  let route := connected_route env pd.next_route ei
  let (pd, counts) := route_descriptor_add (memory.added route.id) env { pd with next_route := pd.next_route + 1 } counts route
  ({ pd, msg := { packet_type := .update, data_type := .connected }
     route := (pd.routes.find? fun other => other.id = route.id).getD route }, counts)

/-- The part of `eigrp_topology_redistributed_route_update` in front of the message. -/
def redistributed_update_handed (memory : Memory) (env : Env) (pd : PrefixDescriptor) (counts : Counts) (source : Source)
    (metric : Metrics) : Handed × Counts :=
  let (pd, counts, route) := match redistributed_route_lookup pd source with
    | some route => (pd, counts, route)
    | none =>
      let route : RouteDescriptor := { id := pd.next_route, external := true, adv_router := some .self }
      let (pd, counts) := route_descriptor_add (memory.added route.id) env { pd with next_route := pd.next_route + 1 } counts route
      (pd, counts, route)
  let update := fun route : RouteDescriptor =>
    { route with external := true, adv_router := some .self, ei := none, extdata := source.extdata, nexthop := source.nexthop }
  ({ pd := route_write pd route.id update, route := update route
     msg := { packet_type := .update, adv_router := some .self, data_type := .ext, metrics := metric } }, counts)

/-- The message of a turn, with the counts as they are by then. -/
def Turn.handed (memory : Memory) (env : Env) (pd : PrefixDescriptor) (counts : Counts) : Turn → Option (Handed × Counts)
  | .call (.intf_up ei) => some (intf_up_handed memory env pd counts ei)
  | .call (.redistributed_update source metric) => some (redistributed_update_handed memory env pd counts source metric)
  | .call made => (received_message env pd made).map fun handed => (handed, counts)
  | .withdraw id => (pd.routes.find? fun route => route.id = id).map fun route =>
      ({ pd, route, msg := withdrawal route }, counts)

/-- `eigrp_query_unknown_route_record` for a neighbor without a route. -/
def query_route_record (memory : Memory) (env : Env) (pd : PrefixDescriptor) (counts : Counts) (nbr : Nbr) (received : Received) :
    Option (PrefixDescriptor × Counts) := do
  let route ← recorded_route env pd nbr received.tlv
  let pd := { pd with next_route := pd.next_route + 1 }
  some ((topology_route_insert (memory.added route.id) pd counts route true).getD (pd, counts))

/-- A call without a message. -/
def quiet_call (memory : Memory) (env : Env) (pd : PrefixDescriptor) (counts : Counts) : Call → Option (PrefixDescriptor × Counts)
  | .query_receive nbr received =>
    if received.summary.isNone ∧ pd.state = .passive ∧ unelected pd ∧ query_recordable env received then
      query_route_record memory env pd counts nbr received
    else some (pd, counts)
  | .retire => some <| update_topology_table_prefix pd counts
  | call => (Eigrp.exec env pd call).map fun (next, _) => (next, counts)

def Turn.finish (pd next : PrefixDescriptor) : Turn → PrefixDescriptor
  | .call (.redistributed_update source _) => redistributed_finish pd source next
  | _ => next

def Turn.message (env : Env) (pd : PrefixDescriptor) (turn : Turn) (handed : Handed) (counts : Counts) :
    Option (PrefixDescriptor × Counts) := do
  let (next, counts) ← handed_run env counts handed
  some (turn.finish pd next, counts)

/-- The rounds of `eigrp_topology_connected_interface_down`. -/
def connected_routes_down (memory : Memory) (env : Env) : List Nat → PrefixDescriptor → Counts → Option (PrefixDescriptor × Counts)
  | [], pd, counts => some (pd, counts)
  | id :: ids, pd, counts => do
    let (handed, counts) ← (Turn.withdraw id).handed memory env pd counts
    let (pd, counts) ← (Turn.withdraw id).message env pd handed counts
    connected_routes_down memory env ids pd counts

/-- The descriptor and the counts behind a turn. -/
def Turn.exec (memory : Memory) (env : Env) (pd : PrefixDescriptor) (counts : Counts) (turn : Turn) :
    Option (PrefixDescriptor × Counts) :=
  match turn.handed memory env pd counts with
  | some (handed, counts) => turn.message env pd handed counts
  | none => match turn with
    | .call (.connected_interface_down ei) =>
      let down := pd.routes.filter fun route => route.adv_router = some .self ∧ route.ei = some ei
      connected_routes_down memory env (down.map (·.id)) pd counts
    | .call made => quiet_call memory env pd counts made
    | .withdraw _ => none

/-! ## What DUAL leaves -/

section Distances
variable {env : Env} {msg : Msg} {pd : PrefixDescriptor} {route : RouteDescriptor} {counts : Counts} {handed : Handed}

theorem route_relink_eq {after : RouteDescriptor} (same : after.id = route.id) :
    route_relink pd after = route_insert (route_unlink pd route.id) after := by
  rw [route_relink,same,route_unlink]

/-- The counts apart, the topology is measured and linked as before. -/
theorem update_distance_fst (env : Env) (pd : PrefixDescriptor) (counts : Counts) (msg : Msg) (route : RouteDescriptor) :
    (update_distance env pd counts msg route).map (fun (pd, _, msg, after, change) => (pd, msg, after, change)) =
      Eigrp.update_distance env pd msg route := by
  unfold update_distance Eigrp.update_distance
  cases done : distance_measure env pd msg route with
  | none => rfl
  | some result =>
    obtain ⟨next,after,change⟩ := result
    rcases distance_measure_links done with ⟨rests,_,_,_⟩ | ⟨links,rfl,measured,_⟩
    · simp [link_refused,rests]
    · have relinked := @route_relink_eq pd route after measured.id
      cases granted : env.links pd.id route.id msg.metrics <;>
        simp [link_refused,links,granted,topology_route_insert,relinked]

theorem fsm_event_fst (env : Env) (pd : PrefixDescriptor) (counts : Counts) (msg : Msg) (route : RouteDescriptor) :
    (fsm_event env pd counts msg route).map Prod.fst = (Eigrp.fsm_event env pd msg route).map Prod.fst := by
  have measured := update_distance_fst env pd counts msg route
  unfold fsm_event Eigrp.fsm_event event_select
  rw [← measured]
  cases update_distance env pd counts msg route with
  | none => rfl
  | some result =>
    obtain ⟨next,last,msg',after,change⟩ := result
    simp only [Option.map_some,Option.bind_eq_bind,Option.bind_some]
    cases nsm env (event_choose next msg' after change).1 msg' after (event_choose next msg' after change).2 <;> rfl

theorem handed_run_fst (env : Env) (counts : Counts) (handed : Handed) :
    (handed_run env counts handed).map Prod.fst = handed.run env := by
  unfold handed_run Handed.run
  split
  · exact fsm_event_fst env handed.pd counts handed.msg handed.route
  · rw [← update_distance_fst env handed.pd counts handed.msg handed.route]
    cases update_distance env handed.pd counts handed.msg handed.route <;> rfl

/-- The counts that a message leaves are those behind the distance update, and the routes too, flags apart. -/
theorem handed_run_linked {next : PrefixDescriptor} {last : Counts} (done : handed_run env counts handed = some (next, last)) :
    ∃ current msg after change, update_distance env handed.pd counts handed.msg handed.route = some (current, last, msg, after, change) ∧
      SameQueues current next := by
  have run := handed_run_fst env counts handed
  unfold handed_run Handed.run at *
  split at done
  · rename_i dual
    obtain ⟨⟨current,last',msg,after,change⟩,measured,done⟩ := Option.bind_eq_some_iff.mp done
    obtain ⟨⟨result,out⟩,handled,finished⟩ := Option.bind_eq_some_iff.mp done
    cases finished
    have distance := update_distance_fst env handed.pd counts handed.msg handed.route
    rw [measured,Option.map_some] at distance
    refine ⟨current,msg,after,change,measured,?_⟩
    have event : Eigrp.fsm_event env handed.pd handed.msg handed.route = some (next, out) := by
      unfold Eigrp.fsm_event event_select
      rw [← distance]
      exact handled
    obtain ⟨current',msg',after',change',found,same⟩ := fsm_event_linked event
    rw [← distance] at found
    cases found
    exact same
  · obtain ⟨⟨current,last',msg,after,change⟩,measured,finished⟩ := Option.bind_eq_some_iff.mp done
    cases finished
    exact ⟨next,msg,after,change,measured,.refl next⟩

end Distances

/-! ## With every item granted -/

section Granted
variable {env : Env} {pd : PrefixDescriptor} {counts : Counts}

theorem queue_delete_absent {id : Nat} {queue : List RouteDescriptor} (absent : (queue.any fun other => other.id = id) = false) :
    queue_delete id queue = queue := by
  refine List.filter_eq_self.mpr ?_
  intro route member
  have different := List.any_eq_false.mp absent route member
  simpa using different

theorem route_descriptor_delete_fst (pd : PrefixDescriptor) (counts : Counts) (route : RouteDescriptor) :
    (route_descriptor_delete pd counts route).1 = (Eigrp.route_descriptor_delete pd route).1 := by
  unfold route_descriptor_delete
  dsimp only
  by_cases found : (if route.external then pd.external_routes else pd.internal_routes).any fun other => other.id = route.id
  · rw [if_pos found]
  · rw [if_neg found]
    have absent := Bool.eq_false_of_not_eq_true found
    unfold Eigrp.route_descriptor_delete
    cases external : route.external with
    | true =>
      rw [external,if_pos rfl] at absent
      simp [queue_delete_absent absent]
    | false =>
      rw [external,if_neg (by simp)] at absent
      simp [queue_delete_absent absent]

theorem delete_unreachable_fst (routes : List RouteDescriptor) (pd : PrefixDescriptor) (counts : Counts) :
    (delete_unreachable routes pd counts).1 = (Eigrp.delete_unreachable routes pd).1 := by
  induction routes generalizing pd counts with
  | nil => rfl
  | cons route routes ih =>
    unfold delete_unreachable Eigrp.delete_unreachable
    split
    · rw [ih,route_descriptor_delete_fst]
    · exact ih pd counts

theorem update_topology_table_prefix_fst (pd : PrefixDescriptor) (counts : Counts) :
    (counts |> update_topology_table_prefix pd).1 = (pd |> Eigrp.update_topology_table_prefix).1 := by
  unfold update_topology_table_prefix Eigrp.update_topology_table_prefix
  split
  · rfl
  · rw [delete_unreachable_fst]
    split
    rename_i next rest deleted
    rw [deleted]
    split <;> rfl

theorem message_fst (env : Env) (pd : PrefixDescriptor) (turn : Turn) (handed : Handed) (counts : Counts) :
    (turn.message env pd handed counts).map Prod.fst = (handed.run env).map (turn.finish pd) := by
  rw [← handed_run_fst env counts handed]
  unfold Turn.message
  cases handed_run env counts handed <;> rfl

theorem message_kept (turn : Turn) (handed : Handed) (counts : Counts) (plain : turn.finish pd = id) :
    (turn.message env pd handed counts).map Prod.fst = handed.run env := by
  rw [message_fst,plain,Option.map_id,id]

theorem connected_routes_down_granted (ids : List Nat) (pd : PrefixDescriptor) (counts : Counts) :
    (connected_routes_down {} env ids pd counts).map Prod.fst = (Eigrp.connected_routes_down env ids pd).map Prod.fst := by
  induction ids generalizing pd counts with
  | nil => rfl
  | cons id ids ih =>
    unfold connected_routes_down Eigrp.connected_routes_down
    cases found : pd.routes.find? fun route => route.id = id with
    | none => simp [Turn.handed,found]
    | some route =>
      simp only [Turn.handed,found,Option.map_some,Option.bind_eq_bind,Option.bind_some]
      have kept : ((Turn.withdraw id).message env pd { pd, route, msg := withdrawal route } counts).map Prod.fst =
          (Eigrp.fsm_event env pd (withdrawal route) route).map Prod.fst := message_kept _ _ _ rfl
      change ((Turn.message env pd (.withdraw id) { pd, route, msg := withdrawal route } counts).bind _).map _ =
        ((Eigrp.fsm_event env pd (withdrawal route) route).bind _).map _
      cases done : (Turn.withdraw id).message env pd { pd, route, msg := withdrawal route } counts with
      | none =>
        rw [done] at kept
        have missing := Option.map_eq_none_iff.mp kept.symm
        rw [missing]
        rfl
      | some result =>
        rw [done] at kept
        obtain ⟨⟨next,out⟩,event,same⟩ := Option.map_eq_some_iff.mp kept.symm
        rw [event]
        simp only [Option.bind_some]
        rw [ih,← same]
        cases Eigrp.connected_routes_down env ids next <;> rfl

theorem intf_up_delete_fst (ei : Nat) : (intf_up_delete pd counts ei).1 = (intf_up_deleted pd ei).1 := by
  unfold intf_up_delete intf_up_deleted
  cases prefix_descriptor_lookup pd .self with
  | none => rfl
  | some old_local =>
    by_cases same : old_local.ei = some ei
    · simp [same,route_descriptor_delete_fst]
    · simp [same]

theorem intf_up_handed_granted (ei : Nat) : (intf_up_handed {} env pd counts ei).1 = Eigrp.intf_up_handed env pd ei := by
  have deleted := @intf_up_delete_fst pd counts ei
  unfold intf_up_handed
  generalize intf_up_delete pd counts ei = result at deleted ⊢
  obtain ⟨start,last⟩ := result
  obtain rfl := deleted
  rfl

theorem redistributed_update_handed_granted (source : Source) (metric : Metrics) :
    (redistributed_update_handed {} env pd counts source metric).1 = Eigrp.redistributed_update_handed env pd source metric := by
  unfold redistributed_update_handed Eigrp.redistributed_update_handed
  cases redistributed_route_lookup pd source <;> rfl

/-- With every item granted to what is added, a call leaves the descriptor that it left before. -/
theorem exec_granted (call : Call) :
    ((Turn.call call).exec {} env pd counts).map Prod.fst = (Eigrp.exec env pd call).map Prod.fst := by
  have received (other : (Turn.call call).handed {} env pd counts = (received_message env pd call).map fun handed => (handed, counts))
      (plain : (Turn.call call).finish pd = id)
      (quiet : received_message env pd call = none →
        ((Turn.call call).exec {} env pd counts).map Prod.fst = (Eigrp.exec env pd call).map Prod.fst) :
      ((Turn.call call).exec {} env pd counts).map Prod.fst = (Eigrp.exec env pd call).map Prod.fst := by
    cases message : received_message env pd call with
    | none => exact quiet message
    | some handed =>
      rw [exec_received message]
      simp only [Turn.exec,other,message,Option.map_some]
      exact message_kept _ _ _ plain
  have silent (other : (Turn.call call).exec {} env pd counts = (Eigrp.exec env pd call).map fun (next, _) => (next, counts)) :
      ((Turn.call call).exec {} env pd counts).map Prod.fst = (Eigrp.exec env pd call).map Prod.fst := by
    rw [other,Option.map_map]
    rfl
  cases call with
  | intf_up ei =>
    simp only [Turn.exec,Turn.handed,intf_up_handed_granted]
    rw [exec_intf_up]
    exact message_kept _ _ _ rfl
  | redistributed_update source metric =>
    simp only [Turn.exec,Turn.handed,redistributed_update_handed_granted]
    rw [exec_redistributed_update]
    exact message_fst ..
  | connected_interface_down ei => exact connected_routes_down_granted _ pd counts
  | query_receive nbr received' =>
    refine received rfl rfl fun message => ?_
    simp only [Turn.exec,Turn.handed,message,Option.map_none,quiet_call]
    simp only [received_message] at message
    simp only [Eigrp.exec,query_receive_pd]
    cases aggregate : received'.summary with
    | some summary => simp
    | none =>
      simp only [aggregate,Option.isSome_none,Bool.false_eq_true,if_false] at message
      by_cases unknown : pd.state = .passive ∧ unelected pd
      · rw [if_pos unknown] at message ⊢
        cases recordable : query_recordable env received' with
        | false => simp [query_unknown_route_record,recordable]
        | true =>
          simp only [recordable,Bool.not_true,Bool.false_eq_true,if_false,Option.map_eq_none_iff] at message
          simp only [Option.isNone_none,unknown,query_unknown_route_record,recordable,message,query_route_record,and_self,if_true,
            Bool.not_true,Bool.false_eq_true,if_false]
          cases recorded_route env pd nbr received'.tlv <;> rfl
      · rw [if_neg unknown] at message
        cases message
  | retire =>
    simp only [Turn.exec,Turn.handed,received_message,Option.map_none,quiet_call,Eigrp.exec,Option.map_some,
      update_topology_table_prefix_fst]
  | update_receive | reply_receive | siaquery_receive | siareply_receive | gr_ask | neighbor_down | redistributed_remove =>
    refine received rfl rfl fun message => silent ?_
    simp only [Turn.exec,Turn.handed,message,Option.map_none,quiet_call]
  | suspended_origin_clear | metric_update | multipath_update | traffic_share_update | routes_replay | query_rij_add | query_sent
    | action_clear | active_timer_expired => exact silent rfl

end Granted

/-! ## Creation -/

/-- The loop of `eigrp_topology_connected_recreate` that links the copied routes. -/
def routes_add (memory : Memory) (env : Env) : List RouteDescriptor → PrefixDescriptor → Counts → PrefixDescriptor × Counts
  | [], pd, counts => (pd, counts)
  | route :: routes, pd, counts =>
    let (pd, counts) := route_descriptor_add (memory.added route.id) env pd counts route
    routes_add memory env routes pd counts

/-- The branch of `eigrp_update_receive` that creates a destination. -/
def update_prefix_create (memory : Memory) (env : Env) (id : Nat) (counts : Counts) (nbr : Nbr) (received : Received) :
    Option (PrefixDescriptor × Counts) := do
  let tlv := received.tlv
  let pd : PrefixDescriptor :=
    { id, destination := tlv.dest, nt := if tlv.external then .remote_external else .remote, next_route := 1 }
  let learned ← route_learn env { received_route { pd with next_route := 0 } nbr tlv with successor := true } (ingress_metric received)
  let route := { learned with metric := tlv.metric }
  let pd := { pd with fdistance := route.distance, distance := route.distance, rdistance := route.distance }
  let (pd, counts) := route_descriptor_add (memory.added route.id) env pd counts route
  let pd := update_node_flags env { pd with reported_metric := route.total_metric }
  some ({ pd with need_update := true }, counts)

/-- `eigrp_query_unknown_route_record` for a destination that is not in the table; without the item there is none. -/
def query_prefix_create (memory : Memory) (env : Env) (id : Nat) (counts : Counts) (nbr : Nbr) (received : Received) :
    Option (Option PrefixDescriptor × Counts) := do
  let tlv := received.tlv
  let pd : PrefixDescriptor :=
    { id, destination := tlv.dest, nt := if tlv.external then .remote_external else .remote
      reported_metric := { delay := max_metric } }
  let route ← recorded_route env pd nbr tlv
  match topology_route_insert (memory.added route.id) { pd with next_route := 1 } counts route true with
  | some (pd, counts) => some (some pd, counts)
  | none => some (none, counts)

/-- The branch of `eigrp_intf_up` that creates a destination. -/
def connected_prefix_create (memory : Memory) (env : Env) (id : Nat) (counts : Counts) (destination : Prefix) (ei : Nat) :
    PrefixDescriptor × Counts :=
  let metric := intf_metric (env.params ei)
  let route := connected_route env 0 ei
  route_descriptor_add (memory.added route.id) env
    { id, destination, nt := .connected, reported_metric := metric
      fdistance := store (metric_calculate env.metric metric), need_update := true, next_route := 1 } counts route

/-- The branch of `eigrp_topology_redistributed_route_update` that creates a destination. -/
def redistributed_prefix_create (memory : Memory) (env : Env) (id : Nat) (counts : Counts) (destination : Prefix) (source : Source)
    (metric : Metrics) : PrefixDescriptor × Counts :=
  let distance := store (redistributed_distance env.metric metric)
  let route : RouteDescriptor :=
    { id := 0, external := true, adv_router := some .self, metric, reported_metric := metric, total_metric := metric
      reported_distance := 0, distance, successor := true, extdata := source.extdata, nexthop := source.nexthop }
  let (pd, counts) := route_descriptor_add (memory.added route.id) env
    { id, destination, nt := .remote_external, reported_metric := metric
      fdistance := distance, distance := distance, rdistance := distance, next_route := 1 } counts route
  ((redistributed_update_mark pd).1, counts)

/-- `eigrp_topology_connected_recreate` from the descriptor that was cleared. -/
def connected_recreate (memory : Memory) (env : Env) (id : Nat) (counts : Counts) (old : PrefixDescriptor) : PrefixDescriptor × Counts :=
  routes_add memory env (old.internal_routes.filter fun route => route.adv_router = some .self)
    { id, destination := old.destination, nt := old.nt, reported_metric := old.reported_metric, distance := old.distance
      fdistance := old.fdistance, rdistance := old.rdistance, next_route := old.next_route } counts

/-- The descriptor that is created, if it is kept, and the counts. -/
def create (memory : Memory) (env : Env) (id : Nat) (counts : Counts) : Creation → Option (Option PrefixDescriptor × Counts)
  | .update nbr received => (update_prefix_create memory env id counts nbr received).map fun (pd, counts) => (some pd, counts)
  | .query nbr received => query_prefix_create memory env id counts nbr received
  | .connected destination ei =>
    let (pd, counts) := connected_prefix_create memory env id counts destination ei
    some (some pd, counts)
  | .redistributed destination source metric =>
    let (pd, counts) := redistributed_prefix_create memory env id counts destination source metric
    some (some pd, counts)
  | .connected_recreate old =>
    let (pd, counts) := connected_recreate memory env id counts old
    some (some pd, counts)
  | .remote_requery old => some (some (Eigrp.remote_requery id old).1, counts)

theorem routes_add_granted (env : Env) (routes : List RouteDescriptor) (pd : PrefixDescriptor) (counts : Counts) :
    (routes_add {} env routes pd counts).1 = (Eigrp.routes_add env routes pd).1 := by
  induction routes generalizing pd counts with
  | nil => rfl
  | cons route routes ih =>
    unfold routes_add Eigrp.routes_add
    exact ih _ _

/-- With every item granted a destination is created as before. -/
theorem create_granted (env : Env) (id : Nat) (counts : Counts) (creation : Creation) :
    (create {} env id counts creation).map Prod.fst = (creation.build env id).map fun (pd, _) => some pd := by
  cases creation with
  | update nbr received =>
    simp only [create,Creation.build,update_prefix_create,Eigrp.update_prefix_create]
    generalize route_learn env _ _ = learned
    cases learned <;> rfl
  | query nbr received =>
    simp only [create,Creation.build,query_prefix_create,Eigrp.query_prefix_create]
    generalize recorded_route env _ _ _ = recorded
    cases recorded <;> rfl
  | connected destination ei => rfl
  | redistributed destination source metric => rfl
  | connected_recreate old =>
    simp only [create,Creation.build,connected_recreate,Eigrp.connected_recreate,Option.map_some,routes_add_granted]
  | remote_requery old => rfl

/-! ## The table -/

/-- The destinations that the topology table finds, and the descriptors that were taken out of it and are not freed yet,
    since work items may refer to them. -/
structure Table where
  prefixes : List PrefixDescriptor := []
  detached : List PrefixDescriptor := []
  counts : Counts := {}

/-- What is done to the table. A descriptor gets a number of its own when it is created. -/
inductive Operation where
  | turn (id : Nat) (turn : Turn)
  | create (id : Nat) (creation : Creation)
  | clear (id fresh : Nat)
  | free (id : Nat)
  | delete (id : Nat)

def Table.descriptors (table : Table) : List PrefixDescriptor := table.prefixes ++ table.detached

def Table.find (table : Table) (id : Nat) : Option PrefixDescriptor := table.prefixes.find? fun pd => pd.id = id

/-- What still reaches a descriptor that is detached: the work items that refer to it, and its timer. -/
def Turn.lingers : Turn → Bool
  | .call (.query_rij_add _) | .call .query_sent | .call (.action_clear _) | .call .retire | .call .active_timer_expired => true
  | _ => false

/-- The descriptor that a turn is about. -/
def Table.reach (table : Table) (id : Nat) (turn : Turn) : Option PrefixDescriptor :=
  (table.find id).or (if turn.lingers then table.detached.find? fun pd => pd.id = id else none)

def Table.vacant (table : Table) (id : Nat) (destination : Prefix) : Bool :=
  (table.descriptors.all fun pd => pd.id ≠ id) && table.prefixes.all fun pd => pd.destination ≠ destination

def without (id : Nat) (prefixes : List PrefixDescriptor) : List PrefixDescriptor := prefixes.filter fun pd => pd.id ≠ id

/-- Retirement detaches a PASSIVE destination without routes. -/
def Turn.retires (pd : PrefixDescriptor) : Turn → Bool
  | .call .retire => Effect.detach ∈ (pd |> Eigrp.update_topology_table_prefix).2
  | _ => false

/-- What `eigrp_topology_clear_prefix` creates in the place of a descriptor. -/
def recreation (env : Env) (old : PrefixDescriptor) : Option Creation :=
  if old.nt = .connected then
    if old.internal_routes.any fun route => route.adv_router = some .self then some (.connected_recreate old) else none
  else if env.nbr_count = 0 then none
  else some (.remote_requery old)

/-- The loops of `eigrp_prefix_descriptor_delete` over the routes. -/
def routes_delete (pd : PrefixDescriptor) (counts : Counts) : PrefixDescriptor × Counts :=
  pd.routes.foldl (fun (pd, counts) route => route_descriptor_delete pd counts route) (pd, counts)

/-- What is taken out of the table stays until the work item behind the earlier ones frees it, with the routes it holds by
    then; what is detached already cannot be taken out again. -/
def Table.step (memory : Memory) (env : Env) (table : Table) : Operation → Option Table
  | .turn id turn => do
    let pd ← table.reach id turn
    let (next, counts) ← turn.exec memory env pd table.counts
    let write := fun pd : PrefixDescriptor => if pd.id = id then next else pd
    if turn.retires pd && (table.find id).isSome then
      some { prefixes := without id table.prefixes, detached := table.detached ++ [next], counts }
    else some { prefixes := table.prefixes.map write, detached := table.detached.map write, counts }
  | .create id creation =>
    if table.vacant id creation.destination then do
      let (created, counts) ← create memory env id table.counts creation
      some { table with prefixes := table.prefixes ++ created.toList, counts }
    else none
  | .clear id fresh => do
    let pd ← table.find id
    let rest : Table := { table with prefixes := without id table.prefixes, detached := table.detached ++ [pd] }
    match recreation env pd with
    | none => some rest
    | some creation =>
      if rest.vacant fresh pd.destination then do
        let (created, counts) ← create memory env fresh table.counts creation
        some { rest with prefixes := rest.prefixes ++ created.toList, counts }
      else none
  | .free id => some { table with detached := without id table.detached }
  | .delete id => do
    let pd ← table.find id
    some { table with prefixes := without id table.prefixes, counts := (routes_delete pd table.counts).2 }

/-- A neighbor that is heard is never the router itself, and a descriptor is created anew only when one is cleared. -/
def Operation.Permitted : Operation → Prop
  | .turn _ (.call call) => call.nbr ≠ some .self
  | .create _ creation => (Label.create creation).nbr ≠ some .self ∧ (Label.create creation).old = none
  | _ => True

/-- The tables that operations lead to which all meet a condition. -/
inductive Reached (Meets : Memory → Env → Table → Operation → Prop) : Table → Prop
  | start : Reached Meets {}
  | step {memory : Memory} {env : Env} {table next : Table} {operation : Operation} : Reached Meets table →
      operation.Permitted → Meets memory env table operation → table.step memory env operation = some next → Reached Meets next

end Storage
end Eigrp
