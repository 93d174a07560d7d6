import Eigrp.Numbers

/-!
# The messages of a call

Most calls prepare one message, with the descriptor and the route as they are by then, and hand it to
DUAL. What such a call leaves of a destination is what its message leaves of it.
-/

namespace Eigrp

/-! ## What is handed over -/

/-- A message with the descriptor and the route it is handed over with. The record of a QUERY about a destination that
    nothing is known of measures the route and leaves the state machine alone. -/
structure Handed where
  pd : PrefixDescriptor
  msg : Msg
  route : RouteDescriptor
  dual : Bool := true

def Handed.run (env : Env) (handed : Handed) : Option PrefixDescriptor :=
  if handed.dual then (fsm_event env handed.pd handed.msg handed.route).map Prod.fst
  else (update_distance env handed.pd handed.msg handed.route).map Prod.fst

/-- A received TLV as it is handed to DUAL. -/
def received_handed (pd : PrefixDescriptor) (packet_type : Opcode) (nbr : Nbr) (tlv : Tlv) (metrics : Metrics) (admitted : Bool) :
    Handed :=
  let msg : Msg := { packet_type, adv_router := some nbr, data_type := data_type tlv.external, metrics }
  match prefix_descriptor_lookup pd nbr with
  | some route =>
    { pd := route_write pd route.id fun route => refreshed route tlv, msg, route := refreshed route tlv }
  | none =>
    { pd := { pd with next_route := pd.next_route + 1 }, msg := { msg with transient_route := !admitted }
      route := received_route pd nbr tlv }

/-- A message about the route of a neighbor, which is created if it is not stored. -/
def about_handed (pd : PrefixDescriptor) (msg : Msg) (nbr : Nbr) (fresh : RouteDescriptor) (transient_route : Bool) : Handed :=
  match prefix_descriptor_lookup pd nbr with
  | some route => { pd, msg, route }
  | none => { pd := { pd with next_route := pd.next_route + 1 }, msg := { msg with transient_route }, route := fresh }

/-- The TLVs that `eigrp_update_receive` does not hand to DUAL. -/
def update_dropped (env : Env) (pd : PrefixDescriptor) (nbr : Nbr) (received : Received) : Bool :=
  let metric := ingress_metric received
  let known := (prefix_descriptor_lookup pd nbr).isSome
  let unreachable := metric_calculate env.metric metric == max_metric
  (!known && unreachable)
    || (!unreachable && if known then !received.topology_prefix_admitted else !nbr_route_admitted env received metric)

/-- The withdrawal of a local route when its interface goes down. -/
def withdrawal (route : RouteDescriptor) : Msg :=
  { packet_type := .update, adv_router := some .self, data_type := .int, metrics := poisoned route.reported_metric }

/-- What a call hands over that prepares nothing else, if it does not stop before. -/
def received_message (env : Env) (pd : PrefixDescriptor) : Call → Option Handed
  | .update_receive nbr received =>
    if update_dropped env pd nbr received then none
    else some (received_handed pd .update nbr received.tlv (ingress_metric received) true)
  | .query_receive nbr received =>
    if received.summary.isSome then none
    else if pd.state = .passive ∧ unelected pd then
      if !query_recordable env received then none
      else (prefix_descriptor_lookup pd nbr).map fun previous =>
        { pd := route_write pd previous.id fun route => refreshed route received.tlv
          msg := { packet_type := .update, adv_router := some nbr, data_type := data_type received.tlv.external
                   metrics := received.tlv.metric }
          route := refreshed previous received.tlv, dual := false }
    else
      let metric := filtered_metric received
      some (received_handed pd .query nbr received.tlv metric (nbr_route_admitted env received metric))
  | .reply_receive nbr received =>
    let metric := filtered_metric received
    if pd.state = .passive then none
    else some (received_handed pd .reply nbr received.tlv metric (nbr_route_admitted env received metric))
  | .siaquery_receive nbr received =>
    let metric := received.tlv.metric
    some (received_handed pd (if pd.state = .passive then .query else .siaquery) nbr received.tlv metric
      (nbr_route_admitted env received metric))
  | .siareply_receive nbr received =>
    let metric := received.tlv.metric
    if pd.state = .passive ∨ ¬ reply_status_pending pd nbr ∨ opaque_active metric then none
    else
      let msg : Msg := { packet_type := .reply, adv_router := some nbr, data_type := data_type received.tlv.external, metrics := metric }
      some (about_handed pd msg nbr (received_route pd nbr received.tlv) (!nbr_route_admitted env received metric))
  | .gr_ask nbr =>
    let msg : Msg := { packet_type := .update, adv_router := some nbr, data_type := .int, metrics := poisoned pd.reported_metric }
    some (about_handed pd msg nbr { id := pd.next_route, adv_router := some nbr, ei := nbr.ei } false)
  | .neighbor_down nbr =>
    let pd := { pd with query_origin := if pd.query_origin = some nbr then none else pd.query_origin }
    (prefix_descriptor_lookup pd nbr).map fun route =>
      { pd, route, msg := { packet_type := if pd.state = .passive then .update else .reply, adv_router := some nbr
                            data_type := data_type route.external, metrics := { delay := max_metric } } }
  | .redistributed_remove source =>
    (redistributed_route_lookup pd source).map fun route =>
      { pd, route, msg := { packet_type := .update, adv_router := some .self, data_type := .ext, metrics := poisoned route.metric } }
  | _ => none

/-- The message of an interface that comes up, about the route it has just added. -/
def intf_up_handed (env : Env) (pd : PrefixDescriptor) (ei : Nat) : Handed :=
  let id := (intf_up_deleted pd ei).1.next_route
  { pd := (intf_up_added env pd ei).1, msg := { packet_type := .update, data_type := .connected }
    route := ((intf_up_added env pd ei).1.routes.find? fun other => other.id = id).getD (connected_route env id ei) }

/-- The message about a redistributed route, which is added first if the source has none. -/
def redistributed_update_handed (env : Env) (pd : PrefixDescriptor) (source : Source) (metric : Metrics) : Handed :=
  let (pd, route) := match redistributed_route_lookup pd source with
    | some route => (pd, route)
    | none =>
      let route : RouteDescriptor := { id := pd.next_route, external := true, adv_router := some .self }
      ((route_descriptor_add env { pd with next_route := pd.next_route + 1 } route).1, route)
  let update := fun route : RouteDescriptor =>
    { route with external := true, adv_router := some .self, ei := none, extdata := source.extdata, nexthop := source.nexthop }
  { pd := route_write pd route.id update, route := update route
    msg := { packet_type := .update, adv_router := some .self, data_type := .ext, metrics := metric } }

/-- The one message of a call. -/
def Call.handed (env : Env) (pd : PrefixDescriptor) : Call → Option Handed
  | .intf_up ei => some (intf_up_handed env pd ei)
  | .redistributed_update source metric => some (redistributed_update_handed env pd source metric)
  | call => received_message env pd call

/-- What is left to do behind the message about a redistributed route. -/
def redistributed_finish (pd : PrefixDescriptor) (source : Source) (next : PrefixDescriptor) : PrefixDescriptor :=
  let metadata_changed := (redistributed_route_lookup pd source).all fun route =>
    route.extdata != source.extdata || route.nexthop != source.nexthop
  if metadata_changed then (redistributed_update_mark next).1 else next

/-! ## What a call leaves -/

section Messages
variable {env : Env} {pd : PrefixDescriptor} {handed : Handed} {nbr : Nbr} {received : Received}

theorem data_type_learned (external : Bool) : data_type external ≠ .connected := by cases external <;> simp [data_type]

theorem receive_eq (packet_type : Opcode) (nbr : Nbr) (tlv : Tlv) (metrics : Metrics) (admitted : Bool) :
    (receive env pd packet_type nbr tlv metrics admitted).map Prod.fst =
      (received_handed pd packet_type nbr tlv metrics admitted).run env := by
  unfold receive received_handed
  cases prefix_descriptor_lookup pd nbr <;> rfl

theorem update_receive_dropped (nbr : Nbr) (received : Received) :
    update_receive_pd env pd nbr received =
      if update_dropped env pd nbr received then some (pd, [])
      else receive env pd .update nbr received.tlv (ingress_metric received) true := by
  unfold update_receive_pd update_dropped
  cases known : (prefix_descriptor_lookup pd nbr).isSome <;>
    by_cases unreachable : metric_calculate env.metric (ingress_metric received) = max_metric <;> simp [unreachable]

theorem exec_received {call : Call} (message : received_message env pd call = some handed) :
    (exec env pd call).map Prod.fst = handed.run env := by
  cases call with
  | update_receive nbr received =>
    simp only [received_message] at message
    simp only [exec,update_receive_dropped]
    split at message
    · cases message
    · rename_i taken
      cases message
      rw [if_neg taken,receive_eq]
  | query_receive nbr received =>
    simp only [received_message] at message
    simp only [exec,query_receive_pd]
    cases aggregate : received.summary with
    | some summary => simp [aggregate] at message
    | none =>
      simp only [aggregate,Option.isSome_none,Bool.false_eq_true,if_false] at message
      split at message
      · rename_i unknown
        split at message
        · cases message
        · rename_i recordable
          obtain ⟨previous,found,rfl⟩ := Option.map_eq_some_iff.mp message
          simp only [unknown,if_true,and_self,query_unknown_route_record,recordable,Bool.false_eq_true,if_false,found,Handed.run]
          generalize update_distance env _ _ _ = measured
          cases measured <;> rfl
      · rename_i known
        cases message
        rw [if_neg known,receive_eq]
  | reply_receive nbr received =>
    simp only [received_message] at message
    simp only [exec,reply_receive_pd]
    split at message
    · cases message
    · rename_i active
      cases message
      rw [if_neg active,receive_eq]
  | siaquery_receive nbr received =>
    cases message
    rw [← receive_eq]
    simp only [exec,siaquery_receive_pd]
    generalize receive env _ _ _ _ _ _ = result
    cases result <;> rfl
  | siareply_receive nbr received =>
    simp only [received_message] at message
    simp only [exec,siareply_receive_pd]
    split at message
    · cases message
    · rename_i waiting
      push Not at waiting
      obtain ⟨active,pending,final⟩ := waiting
      cases message
      rw [if_neg (by simp [active,pending]),if_neg final]
      unfold about_handed
      cases prefix_descriptor_lookup pd nbr <;> rfl
  | gr_ask nbr =>
    cases message
    simp only [exec,gr_ask_pd,about_handed]
    cases prefix_descriptor_lookup pd nbr <;> rfl
  | neighbor_down nbr =>
    obtain ⟨route,found,rfl⟩ := Option.map_eq_some_iff.mp message
    simp only [exec,neighbor_down_pd,neighbor_lost,found]
    rfl
  | redistributed_remove source =>
    obtain ⟨route,found,rfl⟩ := Option.map_eq_some_iff.mp message
    simp only [exec,redistributed_remove_pd,found]
    rfl
  | _ => cases message

theorem intf_up_route (env : Env) (pd : PrefixDescriptor) (ei : Nat) :
    (intf_up_added env pd ei).1.routes.find? (fun other => other.id = (intf_up_deleted pd ei).1.next_route) =
      some (intf_up_handed env pd ei).route := by
  have numbers := (route_descriptor_add_numbers env { (intf_up_deleted pd ei).1 with
    next_route := (intf_up_deleted pd ei).1.next_route + 1 } (connected_route env (intf_up_deleted pd ei).1.next_route ei)).numbers
  have listed : (intf_up_deleted pd ei).1.next_route ∈ (intf_up_added env pd ei).1.routes.map (·.id) := by
    unfold intf_up_added
    dsimp only
    rw [numbers]
    exact List.mem_map.mpr ⟨_,mem_routes_insert.mpr (.inl rfl),rfl⟩
  obtain ⟨route,member,same⟩ := List.mem_map.mp listed
  have present : ((intf_up_added env pd ei).1.routes.find? fun other => other.id = (intf_up_deleted pd ei).1.next_route).isSome :=
    List.find?_isSome.mpr ⟨route,member,by simpa using same⟩
  obtain ⟨route,found⟩ := Option.isSome_iff_exists.mp present
  simp only [intf_up_handed,found,Option.getD_some]

theorem exec_intf_up (env : Env) (pd : PrefixDescriptor) (ei : Nat) :
    (exec env pd (.intf_up ei)).map Prod.fst = (intf_up_handed env pd ei).run env := by
  have found := intf_up_route env pd ei
  have unfolded : exec env pd (.intf_up ei) = (do
      let route ← (intf_up_added env pd ei).1.routes.find? fun other => other.id = (intf_up_deleted pd ei).1.next_route
      let event ← fsm_event env (intf_up_added env pd ei).1 { packet_type := .update, data_type := .connected } route
      some (event.1, (intf_up_added env pd ei).2 ++ event.2)) := rfl
  rw [unfolded,found]
  have same : (intf_up_handed env pd ei).run env = (fsm_event env (intf_up_added env pd ei).1
      { packet_type := .update, data_type := .connected } (intf_up_handed env pd ei).route).map Prod.fst := rfl
  rw [same]
  simp only [Option.bind_eq_bind,Option.bind_some]
  generalize fsm_event env _ _ _ = event
  cases event <;> rfl

theorem exec_redistributed_update (env : Env) (pd : PrefixDescriptor) (source : Source) (metric : Metrics) :
    (exec env pd (.redistributed_update source metric)).map Prod.fst =
      ((redistributed_update_handed env pd source metric).run env).map (redistributed_finish pd source) := by
  have finish : redistributed_finish pd source = fun next =>
      if (redistributed_route_lookup pd source).all (fun route => route.extdata != source.extdata || route.nexthop != source.nexthop)
      then (redistributed_update_mark next).1 else next := rfl
  rw [finish]
  simp only [exec,redistributed_update_pd,redistributed_update_handed,Handed.run,if_true]
  cases redistributed_route_lookup pd source with
  | some route =>
    simp only [Option.isNone_some,Bool.false_or,Option.all_some,Option.bind_eq_bind,Option.map_bind]
    generalize fsm_event env _ _ _ = event
    cases event with
    | none => rfl
    | some result =>
      simp only [Option.map_some,Option.bind_some,Function.comp]
      split <;> rfl
  | none =>
    simp only [Option.isNone_none,Bool.true_or,Option.all_none,if_true,Option.bind_eq_bind,Option.map_bind]
    generalize fsm_event env _ _ _ = event
    cases event <;> rfl

/-! ## What the descriptor and the route are by then -/

theorem received_handed_presented (packet_type : Opcode) (nbr : Nbr) (tlv : Tlv) (metrics : Metrics) (admitted : Bool) :
    Presented pd (received_handed pd packet_type nbr tlv metrics admitted).pd
      (received_handed pd packet_type nbr tlv metrics admitted).route := by
  unfold received_handed
  cases found : prefix_descriptor_lookup pd nbr with
  | some route => exact presented_stored (lookup_stored found).1 (fun _ => rfl) (fun _ => rfl) (fun _ => rfl)
  | none => exact presented_fresh rfl rfl rfl

theorem about_handed_presented {msg : Msg} {fresh : RouteDescriptor} (transient_route : Bool) (number : fresh.id = pd.next_route)
    (successor : fresh.successor = false) (intable : fresh.intable = false) :
    Presented pd (about_handed pd msg nbr fresh transient_route).pd (about_handed pd msg nbr fresh transient_route).route := by
  unfold about_handed
  cases found : prefix_descriptor_lookup pd nbr with
  | some route => exact presented_self (lookup_stored found).1
  | none => exact presented_fresh number successor intable

theorem redistributed_update_presented (source : Source) (metric : Metrics) :
    Presented pd (redistributed_update_handed env pd source metric).pd (redistributed_update_handed env pd source metric).route := by
  unfold redistributed_update_handed
  cases found : redistributed_route_lookup pd source with
  | some route =>
    have stored : route ∈ pd.routes := List.mem_append_right _ (List.mem_of_find?_eq_some found)
    exact presented_stored stored (fun _ => rfl) (fun _ => rfl) (fun _ => rfl)
  | none =>
    let fresh : RouteDescriptor := { id := pd.next_route, external := true, adv_router := some .self }
    have plain : route_descriptor_add env { pd with next_route := pd.next_route + 1 } fresh =
        (route_insert { pd with next_route := pd.next_route + 1 } fresh, []) := route_descriptor_add_plain rfl
    dsimp only
    rw [show route_descriptor_add env { pd with next_route := pd.next_route + 1 } _ = _ from plain]
    exact presented_inserted rfl ⟨rfl,rfl⟩ (fun _ => rfl) (fun _ => rfl) (fun _ => rfl)

/-- A message of a call finds the destination in its state, its routes numbered and its flags as they were. -/
theorem received_presented {call : Call} (message : received_message env pd call = some handed) :
    handed.pd.state = pd.state ∧ (Tidy pd → InOrder pd handed.pd handed.route) ∧ (pd.state ≠ .passive → handed.dual = true) := by
  have dual (packet_type : Opcode) (nbr : Nbr) (tlv : Tlv) (metrics : Metrics) (admitted : Bool) :
      (received_handed pd packet_type nbr tlv metrics admitted).dual = true := by
    unfold received_handed
    cases prefix_descriptor_lookup pd nbr <;> rfl
  have about (msg : Msg) (nbr : Nbr) (fresh : RouteDescriptor) (transient_route : Bool) :
      (about_handed pd msg nbr fresh transient_route).dual = true := by
    unfold about_handed
    cases prefix_descriptor_lookup pd nbr <;> rfl
  have fits (presented : Presented pd handed.pd handed.route) (dual : pd.state ≠ .passive → handed.dual = true) :
      handed.pd.state = pd.state ∧ (Tidy pd → InOrder pd handed.pd handed.route) ∧ (pd.state ≠ .passive → handed.dual = true) :=
    ⟨presented.rerouted.state,presented.order,dual⟩
  cases call with
  | update_receive nbr received =>
    simp only [received_message] at message
    split at message
    · cases message
    · cases message
      exact fits (received_handed_presented _ _ _ _ _) (fun _ => dual _ _ _ _ _)
  | query_receive nbr received =>
    simp only [received_message] at message
    split at message
    · cases message
    · split at message
      · rename_i unknown
        split at message
        · cases message
        · obtain ⟨previous,found,rfl⟩ := Option.map_eq_some_iff.mp message
          refine fits ?_ (fun active => absurd unknown.1 active)
          exact presented_stored (lookup_stored found).1 (fun _ => rfl) (fun _ => rfl) (fun _ => rfl)
      · cases message
        exact fits (received_handed_presented _ _ _ _ _) (fun _ => dual _ _ _ _ _)
  | reply_receive nbr received =>
    simp only [received_message] at message
    split at message
    · cases message
    · cases message
      exact fits (received_handed_presented _ _ _ _ _) (fun _ => dual _ _ _ _ _)
  | siaquery_receive nbr received =>
    cases message
    exact fits (received_handed_presented _ _ _ _ _) (fun _ => dual _ _ _ _ _)
  | siareply_receive nbr received =>
    simp only [received_message] at message
    split at message
    · cases message
    · cases message
      exact fits (about_handed_presented _ rfl rfl rfl) (fun _ => about _ _ _ _)
  | gr_ask nbr =>
    cases message
    exact fits (about_handed_presented _ rfl rfl rfl) (fun _ => about _ _ _ _)
  | neighbor_down nbr =>
    obtain ⟨route,found,rfl⟩ := Option.map_eq_some_iff.mp message
    have stored : route ∈ pd.routes := (lookup_stored found).1
    refine ⟨rfl,?_,fun _ => rfl⟩
    intro tidy
    obtain ⟨ordered,bounded,flags,consistent⟩ := (presented_self stored).order tidy
    exact ⟨⟨ordered.numbers,ordered.bounded⟩,bounded,⟨flags.successor,flags.intable⟩,⟨consistent.stored,consistent.fresh⟩⟩
  | redistributed_remove source =>
    obtain ⟨route,found,rfl⟩ := Option.map_eq_some_iff.mp message
    exact fits (presented_self (List.mem_append_right _ (List.mem_of_find?_eq_some found))) (fun _ => rfl)
  | _ => cases message

end Messages

end Eigrp
