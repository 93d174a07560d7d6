import Eigrp.Messages

/-!
# DUAL finds the routes it reads

`eigrp_fsm_event` has a handler for every state and event, and the handlers read routes without
asking whether there are any. Two kinds of messages leave a PASSIVE destination without a route: a
transient one, which is not stored, where there is none, and one about its only route that is refused
the list item.
-/

namespace Eigrp
open Eigrp.Lib

/-! ## Messages -/

/-- The route with what the message knows of its neighbor and interface. -/
def filled (msg : Msg) (route : RouteDescriptor) : RouteDescriptor :=
  { route with adv_router := route.adv_router <|> msg.adv_router
               ei := route.ei <|> msg.adv_router.bind Nbr.ei }

/-- The message is not stored, is about a connected route, or names an interface by itself or its route; a
    redistributed route needs none. -/
def Learnable (msg : Msg) (route : RouteDescriptor) : Prop :=
  msg.transient_route ∨ msg.data_type = .connected ∨ (filled msg route).ei.isSome ∨
    msg.data_type = .ext ∧ (filled msg route).adv_router = some .self

section Messages
variable {env : Env} {pd next : PrefixDescriptor} {msg last : Msg} {route after : RouteDescriptor} {change : MetricChange}

theorem distance_measure_total (env : Env) (pd : PrefixDescriptor) (learnable : Learnable msg route) :
    (distance_measure env pd msg route).isSome := by
  unfold distance_measure
  by_cases transient : msg.transient_route
  · simp [transient]
  · simp only [transient,Bool.false_eq_true,if_false]
    have learned (found : (filled msg route).ei.isSome) : (route_learn env (filled msg route) msg.metrics).isSome := by
      simpa [route_learn] using found
    cases kind : msg.data_type with
    | connected =>
      dsimp only
      split <;> rfl
    | int =>
      dsimp only
      split
      · rfl
      · obtain ⟨after,measured⟩ := Option.isSome_iff_exists.mp (learned (by simpa only [Learnable,transient,kind,
          Bool.false_eq_true,reduceCtorEq,false_and,or_false,false_or] using learnable))
        simp only [filled] at measured
        simp only [measured]
        rfl
    | ext =>
      dsimp only
      split
      · rfl
      · split
        · rfl
        · rename_i other
          have found : (filled msg route).ei.isSome := by
            rcases learnable with stored | connected | found | ⟨_,self⟩
            · exact absurd stored transient
            · simp [kind] at connected
            · exact found
            · exact Option.isSome_iff_ne_none.mpr fun missing => other ⟨self,missing⟩
          obtain ⟨after,measured⟩ := Option.isSome_iff_exists.mp (learned found)
          simp only [filled] at measured
          simp only [measured]
          rfl

/-- A message that links nothing is measured without the interface. -/
theorem distance_measure_rests (env : Env) (rests : relinks pd msg route = false) : (distance_measure env pd msg route).isSome := by
  unfold distance_measure
  by_cases transient : msg.transient_route
  · simp [transient]
  · simp only [transient,Bool.false_eq_true,if_false]
    cases kind : msg.data_type with
    | connected =>
      dsimp only
      split <;> rfl
    | int =>
      have unchanged := rests
      simp only [relinks,kind,route_stored,transient] at unchanged
      simp only [Bool.not_false,Bool.true_and,Bool.not_eq_false'] at unchanged
      simp [unchanged]
    | ext =>
      have unchanged := rests
      simp only [relinks,kind,route_stored,transient] at unchanged
      simp only [Bool.not_false,Bool.true_and,Bool.not_eq_false'] at unchanged
      simp [unchanged]

theorem update_distance_some (measured : (distance_measure env pd msg route).isSome) :
    ∃ current last after change, update_distance env pd msg route = some (current, last, after, change) := by
  obtain ⟨⟨current,after,change⟩,measured⟩ := Option.isSome_iff_exists.mp measured
  unfold update_distance
  simp only [measured,Option.bind_eq_bind,Option.bind_some]
  split
  · exact ⟨_,_,_,_,rfl⟩
  · exact ⟨_,_,_,_,rfl⟩

theorem keep_state_total (env : Env) (msg : Msg) (route : RouteDescriptor) (stored : pd.state = .passive → pd.routes ≠ []) :
    (fsm_event_keep_state env pd msg route).isSome := by
  unfold fsm_event_keep_state
  split
  · rename_i passive
    have read : (route_read pd).isSome := by
      unfold route_read
      split
      · rfl
      · exact List.isSome_head?.mpr (stored passive)
    obtain ⟨used,found⟩ := Option.isSome_iff_exists.mp read
    cases selected : route_select pd <;> simp [found]
  · rfl

theorem nsm_even_total (env : Env) (msg : Msg) (route : RouteDescriptor) {event : FsmEvent} (active : pd.state ≠ .passive)
    (feasible : event = .lr_fcs → (route_select pd).isSome) : (nsm_even env pd msg route event).isSome := by
  have waits := keep_state_total env msg route (fun passive => absurd passive active)
  cases event with
  | lr_fcs =>
    obtain ⟨best,found⟩ := Option.isSome_iff_exists.mp (feasible rfl)
    simp [nsm_even,fsm_event_lr_fcs,found]
  | qact => rfl
  | lr_fcn => rfl
  | _ => exact waits

/-- LR_FCS is chosen only with a feasible route at hand. -/
theorem event_choose_feasible (chosen : (event_choose pd msg route change).2 = .lr_fcs) :
    (route_select (event_choose pd msg route change).1).isSome := by
  have same : route_select (event_choose pd msg route change).1 = route_select pd := by
    unfold event_choose
    dsimp only
    split <;> (repeat' split) <;> rfl
  rw [same]
  by_contra missing
  simp only [event_choose,missing,select_reply,if_false] at chosen
  revert chosen
  split <;> (repeat' split) <;> simp

/-- The choice of the event takes at most a neighbor off the reply status. -/
theorem event_choose_linked : (event_choose pd msg route change).1.state = pd.state ∧
    (event_choose pd msg route change).1.internal_routes = pd.internal_routes ∧
      (event_choose pd msg route change).1.external_routes = pd.external_routes := by
  unfold event_choose
  dsimp only
  split <;> (repeat' split) <;> exact ⟨rfl,rfl,rfl⟩

/-- Only a message that finds a greater distance raises it in the computation. -/
theorem event_choose_quiet (chosen : (event_choose pd msg route change).2 = .dinc) : change = .increase := by
  have replied {finished : FsmEvent} (quiet : finished ≠ .dinc) : (select_reply pd route finished).2 ≠ .dinc := by
    simp only [select_reply]
    split
    · simp
    · exact quiet
  by_contra other
  revert chosen
  cases state : pd.state with
  | passive =>
    simp only [event_choose,state]
    (repeat' split) <;> simp
  | active_0 | active_2 =>
    simp only [event_choose,state]
    (repeat' split) <;> first | exact replied (by simp) | simp
  | active_1 | active_3 =>
    simp only [event_choose,state]
    (repeat' split) <;> first | exact replied (by simp) | simp_all

theorem dinc_total (env : Env) (rests : ∀ state, relinks { pd with state } msg route = false) :
    (fsm_event_dinc env pd msg route).isSome := by
  unfold fsm_event_dinc
  dsimp only
  split
  · have still := rests (if pd.state = .active_1 then .active_0 else .active_2)
    obtain ⟨current,last,after,change,measured⟩ := update_distance_some (distance_measure_rests env still)
    have active : (event_choose current last after change).1.state ≠ .passive := by
      rw [event_choose_linked.1,(update_distance_linking measured).rerouted.state]
      dsimp only
      split <;> simp
    obtain ⟨result,handled⟩ := Option.isSome_iff_exists.mp (nsm_even_total env last after active event_choose_feasible)
    simp [event_select,measured,handled]
  · rfl

/-- The message finds no route at a PASSIVE destination, or takes the only one from it. -/
def strands (env : Env) (pd : PrefixDescriptor) (msg : Msg) (route : RouteDescriptor) : Bool :=
  pd.state = .passive &&
    if relinks pd msg route then !env.links pd.id route.id msg.metrics && pd.routes.all fun other => other.id = route.id
    else pd.routes.isEmpty

theorem Linking.strands_iff (linking : Linking env pd msg route next last after change) :
    strands env pd msg route ↔ next.state = .passive ∧ next.routes = [] := by
  rw [linking.rerouted.state]
  cases linking with
  | rests _ rests => simp [strands,rests]
  | linked _ _ relinked granted =>
    have stored : after ∈ (route_relink pd after).routes := mem_routes_relink.mpr (.inl rfl)
    simp [strands,relinked,granted,List.ne_nil_of_mem stored]
  | refused _ relinked refused =>
    simp only [strands,relinked,refused,if_true,Bool.not_false,Bool.true_and,Bool.and_eq_true,decide_eq_true_eq,List.all_eq_true,
      List.eq_nil_iff_forall_not_mem,mem_routes_unlink,not_and,not_not]

/-- A message that finds no other distance leaves a PASSIVE destination in its state. -/
theorem fsm_event_rests (passive : pd.state = .passive) (measured : update_distance env pd msg route = some (next, last, after, .same)) :
    fsm_event env pd msg route = fsm_event_keep_state env next last after := by
  have resting : next.state = .passive := (update_distance_linking measured).rerouted.state.trans passive
  simp [fsm_event,event_select,measured,event_choose,resting,nsm,nsm_passive]

/-- `eigrp_fsm_event` returns, unless it is left without a route for a PASSIVE destination. -/
theorem fsm_event_none_iff (env : Env) (pd : PrefixDescriptor) (learnable : Learnable msg route) :
    fsm_event env pd msg route = none ↔ strands env pd msg route := by
  obtain ⟨current,last,after,change,measured⟩ := update_distance_some (distance_measure_total env pd learnable)
  have linking := update_distance_linking measured
  rw [linking.strands_iff]
  obtain ⟨state,internal,external⟩ := @event_choose_linked current last after change
  have routes : (event_choose current last after change).1.routes = current.routes := by
    simp only [PrefixDescriptor.routes,internal,external]
  have selected : fsm_event env pd msg route =
      nsm env (event_choose current last after change).1 last after (event_choose current last after change).2 := by
    simp [fsm_event,event_select,measured]
  rw [selected]
  constructor
  · intro fails
    by_contra present
    have waits := @keep_state_total (event_choose current last after change).1 env last after (by
      intro passive empty
      exact present ⟨state ▸ passive,routes ▸ empty⟩)
    have raised (chosen : (event_choose current last after change).2 = .dinc) :
        (fsm_event_dinc env (event_choose current last after change).1 last after).isSome := by
      refine dinc_total env fun _ => ?_
      obtain rfl := event_choose_quiet chosen
      have unmarked : last = msg := by
        cases linking
        rfl
      subst unmarked
      exact remeasured_rests linking internal external
    have total : (nsm env (event_choose current last after change).1 last after (event_choose current last after change).2).isSome := by
      unfold nsm
      split
      · cases (event_choose current last after change).2 <;> first | rfl | exact waits
      · rename_i even
        exact nsm_even_total env last after (by simp [even]) event_choose_feasible
      · rename_i even
        exact nsm_even_total env last after (by simp [even]) event_choose_feasible
      · cases chosen : (event_choose current last after change).2 <;> first | rfl | exact waits | exact raised chosen
      · cases chosen : (event_choose current last after change).2 <;> first | rfl | exact waits | exact raised chosen
    simp [fails] at total
  · rintro ⟨passive,empty⟩
    have missing : route_select current = none := by simp [route_select,empty]
    have unread : route_read current = none := by simp [route_read,empty]
    have fails : fsm_event_keep_state env current last after = none := by
      simp [fsm_event_keep_state,passive,missing,unread]
    obtain rfl : change = .same := by
      cases linking with
      | rests => rfl
      | linked => exact absurd empty (List.ne_nil_of_mem (mem_routes_relink.mpr (.inl rfl)))
      | refused => rfl
    rw [← selected,fsm_event_rests (linking.rerouted.state.symm.trans passive) measured,fails]

end Messages

/-! ## Calls -/

/-- The interface carries every route of a PASSIVE destination, and the host refuses to link any of the withdrawn ones. -/
def withdrawals_strand (env : Env) (pd : PrefixDescriptor) (ei : Nat) : Bool :=
  pd.state = .passive ∧ pd.routes ≠ [] ∧ pd.routes.all fun route =>
    route.adv_router = some .self ∧ route.ei = some ei ∧ link_refused env pd (withdrawal route) route

/-- What a call hands to DUAL leaves a PASSIVE destination without a route to read. -/
def routeless (env : Env) (call : Call) (pd : PrefixDescriptor) : Bool :=
  match call with
  | .connected_interface_down ei => withdrawals_strand env pd ei
  | call => (call.handed env pd).any fun handed => handed.dual && strands env handed.pd handed.msg handed.route

section Calls
variable {env : Env} {pd next : PrefixDescriptor} {nbr : Nbr} {received : Received} {handed : Handed}

theorem learnable_peer {msg : Msg} (sender : msg.adv_router = some nbr) (peer : nbr ≠ .self) (route : RouteDescriptor) :
    Learnable msg route := by
  refine .inr (.inr (.inl ?_))
  cases nbr with
  | self => exact absurd rfl peer
  | peer ei id => cases found : route.ei <;> simp [filled,sender,Nbr.ei,found]

theorem received_handed_learnable (peer : nbr ≠ .self) (packet_type : Opcode) (tlv : Tlv) (metrics : Metrics) (admitted : Bool) :
    Learnable (received_handed pd packet_type nbr tlv metrics admitted).msg
      (received_handed pd packet_type nbr tlv metrics admitted).route := by
  unfold received_handed
  cases prefix_descriptor_lookup pd nbr <;> exact learnable_peer rfl peer _

theorem about_handed_learnable {msg : Msg} (sender : msg.adv_router = some nbr) (peer : nbr ≠ .self) (fresh : RouteDescriptor)
    (transient_route : Bool) :
    Learnable (about_handed pd msg nbr fresh transient_route).msg (about_handed pd msg nbr fresh transient_route).route := by
  unfold about_handed
  cases prefix_descriptor_lookup pd nbr with
  | some route => exact learnable_peer sender peer route
  | none => exact @learnable_peer nbr { msg with transient_route } sender peer fresh

/-- A message names the neighbor it comes from, or is about a local route. -/
theorem handed_learnable {call : Call} (peer : call.nbr ≠ some .self) (message : call.handed env pd = some handed) :
    Learnable handed.msg handed.route := by
  cases call with
  | update_receive nbr received =>
    simp only [Call.handed,received_message] at message
    split at message
    · cases message
    · cases message
      exact received_handed_learnable (by simpa [Call.nbr] using peer) _ _ _ _
  | query_receive nbr received =>
    have peer : nbr ≠ .self := by simpa [Call.nbr] using peer
    simp only [Call.handed,received_message] at message
    split at message
    · cases message
    · split at message
      · split at message
        · cases message
        · obtain ⟨previous,_,rfl⟩ := Option.map_eq_some_iff.mp message
          exact learnable_peer rfl peer _
      · cases message
        exact received_handed_learnable peer _ _ _ _
  | reply_receive nbr received =>
    simp only [Call.handed,received_message] at message
    split at message
    · cases message
    · cases message
      exact received_handed_learnable (by simpa [Call.nbr] using peer) _ _ _ _
  | siaquery_receive nbr received =>
    cases message
    exact received_handed_learnable (by simpa [Call.nbr] using peer) _ _ _ _
  | siareply_receive nbr received =>
    simp only [Call.handed,received_message] at message
    split at message
    · cases message
    · cases message
      exact about_handed_learnable rfl (by simpa [Call.nbr] using peer) _ _
  | gr_ask nbr =>
    cases message
    exact about_handed_learnable rfl (by simpa [Call.nbr] using peer) _ _
  | neighbor_down nbr =>
    obtain ⟨route,_,rfl⟩ := Option.map_eq_some_iff.mp message
    exact learnable_peer rfl (by simpa [Call.nbr] using peer) route
  | intf_up ei =>
    cases message
    exact .inr (.inl rfl)
  | redistributed_update source metric =>
    cases message
    exact .inr (.inr (.inr ⟨rfl,rfl⟩))
  | redistributed_remove source =>
    obtain ⟨route,found,rfl⟩ := Option.map_eq_some_iff.mp message
    have chosen := List.find?_some found
    simp only [decide_eq_true_eq] at chosen
    exact .inr (.inr (.inr ⟨rfl,by simp [filled,chosen.1]⟩))
  | _ => cases message

theorem run_none_iff (learnable : Learnable handed.msg handed.route) :
    handed.run env = none ↔ handed.dual && strands env handed.pd handed.msg handed.route := by
  unfold Handed.run
  cases handed.dual with
  | true => simpa using fsm_event_none_iff env handed.pd learnable
  | false =>
    obtain ⟨_,_,_,_,measured⟩ := update_distance_some (distance_measure_total env handed.pd learnable)
    simp [measured]

theorem message_none_iff {call : Call} (peer : call.nbr ≠ some .self) (message : call.handed env pd = some handed) :
    exec env pd call = none ↔ handed.dual && strands env handed.pd handed.msg handed.route := by
  rw [← run_none_iff (handed_learnable peer message)]
  have received (direct : received_message env pd call = some handed) : exec env pd call = none ↔ handed.run env = none := by
    rw [← exec_received direct,Option.map_eq_none_iff]
  cases call with
  | intf_up ei =>
    cases message
    rw [← exec_intf_up,Option.map_eq_none_iff]
  | redistributed_update source metric =>
    cases message
    have same := exec_redistributed_update env pd source metric
    rw [← Option.map_eq_none_iff,same,Option.map_eq_none_iff]
  | _ => exact received message

theorem query_unknown_route_record_total (env : Env) (pd : PrefixDescriptor) (received : Received) (peer : nbr ≠ .self) :
    (query_unknown_route_record env pd nbr received).isSome := by
  unfold query_unknown_route_record
  split
  · rfl
  · split
    · rename_i previous found
      let msg : Msg := { packet_type := .update, adv_router := some nbr
                         data_type := data_type received.tlv.external, metrics := received.tlv.metric }
      obtain ⟨_,_,_,_,measured⟩ := update_distance_some (distance_measure_total env
        (route_write pd previous.id fun route => refreshed route received.tlv)
        (@learnable_peer nbr msg rfl peer (refreshed previous received.tlv)))
      simp only [msg] at measured
      simp [measured]
    · cases nbr with
      | self => exact absurd rfl peer
      | peer ei id => rfl

theorem fsm_neighbor_down_total (env : Env) (pd : PrefixDescriptor) (nbr : Nbr) : (fsm_neighbor_down env pd nbr).isSome := by
  unfold fsm_neighbor_down
  dsimp only
  split
  · rfl
  · split
    · rfl
    · split
      · split
        · rename_i feasible
          obtain ⟨best,found⟩ := Option.isSome_iff_exists.mp feasible
          simp [fsm_event_lr_fcs,found]
        · rfl
      · rfl

/-- A call without a message returns. -/
theorem quiet_total {call : Call} (peer : call.nbr ≠ some .self) (quiet : call.handed env pd = none)
    (other : ∀ ei, call ≠ .connected_interface_down ei) : (exec env pd call).isSome := by
  cases call with
  | update_receive nbr received =>
    simp only [Call.handed,received_message] at quiet
    simp only [exec,update_receive_dropped]
    split at quiet
    · rename_i dropped
      simp [dropped]
    · cases quiet
  | query_receive nbr received =>
    simp only [Call.handed,received_message] at quiet
    simp only [exec,query_receive_pd]
    cases answered : received.summary with
    | some summary => rfl
    | none =>
      simp only [answered,Option.isSome_none,Bool.false_eq_true,if_false] at quiet
      split at quiet
      · rename_i unknown
        obtain ⟨recorded,found⟩ := Option.isSome_iff_exists.mp
          (query_unknown_route_record_total env pd received (by simpa [Call.nbr] using peer))
        simp [unknown.1,unknown.2,found]
      · cases quiet
  | reply_receive nbr received =>
    simp only [Call.handed,received_message] at quiet
    simp only [exec,reply_receive_pd]
    split at quiet
    · rename_i passive
      simp [passive]
    · cases quiet
  | siaquery_receive nbr received => cases quiet
  | siareply_receive nbr received =>
    simp only [Call.handed,received_message] at quiet
    simp only [exec,siareply_receive_pd]
    split at quiet
    · rename_i ignored
      split
      · rfl
      · rename_i waiting
        push Not at waiting
        have active : opaque_active received.tlv.metric := by simpa [waiting.1,waiting.2] using ignored
        simp [active]
    · cases quiet
  | gr_ask nbr => cases quiet
  | neighbor_down nbr =>
    have missing := Option.map_eq_none_iff.mp quiet
    simp only [exec,neighbor_down_pd,neighbor_lost,missing]
    exact fsm_neighbor_down_total env _ nbr
  | connected_interface_down ei => exact absurd rfl (other ei)
  | intf_up ei => cases quiet
  | redistributed_update source metric => cases quiet
  | redistributed_remove source =>
    have missing := Option.map_eq_none_iff.mp quiet
    simp [exec,redistributed_remove_pd,missing]
  | _ => rfl

/-- The routes of other numbers stay where they are. -/
theorem Linking.others {msg last : Msg} {route after other : RouteDescriptor} {change : MetricChange}
    (linking : Linking env pd msg route next last after change) (different : other.id ≠ route.id) :
    (other ∈ next.routes ↔ other ∈ pd.routes) ∧
      ((next.external_routes.any fun stored => stored.id = other.id) = pd.external_routes.any fun stored => stored.id = other.id) := by
  have filtered : (queue_delete route.id pd.external_routes).any (fun stored => stored.id = other.id) =
      pd.external_routes.any fun stored => stored.id = other.id := by
    rw [Bool.eq_iff_iff]
    simp only [queue_delete,List.any_eq_true,List.mem_filter,decide_eq_true_eq]
    constructor
    · rintro ⟨stored,member,number⟩
      exact ⟨stored,member.1,number⟩
    · rintro ⟨stored,member,number⟩
      exact ⟨stored,⟨member,number ▸ different⟩,number⟩
  have number := linking.id
  cases linking with
  | rests => exact ⟨.rfl,rfl⟩
  | linked =>
    constructor
    · rw [mem_routes_relink,number]
      constructor
      · rintro (rfl | ⟨stored,_⟩)
        · exact absurd number different
        · exact stored
      · exact fun stored => .inr ⟨stored,different⟩
    · unfold route_relink route_insert
      split
      · rw [any_queue_insert,number,filtered]
        simp [Ne.symm different]
      · rw [number,filtered]
  | refused => exact ⟨mem_routes_unlink.trans (and_iff_left different),filtered⟩

theorem any_bare {queue stored : List RouteDescriptor} (same : queue.map (·.bare) = stored.map (·.bare)) (id : Nat) :
    (queue.any fun route => route.id = id) = stored.any fun route => route.id = id := by
  have counted := congrArg (fun queue : List RouteDescriptor => queue.any fun route => route.id = id) same
  simpa only [List.any_map,Function.comp_def,RouteDescriptor.bare] using counted

theorem bare_number {route other : RouteDescriptor} (same : route.bare = other.bare) : route.id = other.id := by
  have number := congrArg RouteDescriptor.id same
  exact number

section Withdrawn
variable {msg last : Msg} {route after other kept : RouteDescriptor} {change : MetricChange} {current : PrefixDescriptor}
  {out : List Effect}

/-- What a message leaves of the routes of other numbers, flags apart. -/
theorem Linking.fate (linking : Linking env pd msg route current last after change) (queues : SameQueues current next)
    (stored : other ∈ pd.routes) (different : other.id ≠ route.id) : ∃ kept ∈ next.routes, kept.bare = other.bare := by
  have listed : other.bare ∈ next.routes.map (·.bare) :=
    queues.routes.routes.symm ▸ List.mem_map_of_mem ((linking.others different).1.mpr stored)
  obtain ⟨kept,present,bare⟩ := List.mem_map.mp listed
  exact ⟨kept,present,bare⟩

theorem Linking.origin (linking : Linking env pd msg route current last after change) (queues : SameQueues current next)
    (present : kept ∈ next.routes) (different : kept.id ≠ route.id) : ∃ other ∈ pd.routes, kept.bare = other.bare := by
  have listed : kept.bare ∈ current.routes.map (·.bare) := queues.routes.routes ▸ List.mem_map_of_mem present
  obtain ⟨other,stored,bare⟩ := List.mem_map.mp listed
  exact ⟨other,(linking.others ((bare_number bare) ▸ different)).1.mp stored,bare.symm⟩

/-- Whether the withdrawal of a route is refused its item does not depend on the other routes. -/
theorem link_refused_kept (linking : Linking env pd msg route current last after change) (queues : SameQueues current next)
    (same : next.id = current.id) (different : other.id ≠ route.id) (stored : other ∈ pd.routes) (present : kept ∈ next.routes)
    (bare : kept.bare = other.bare) :
    link_refused env next (withdrawal kept) kept = link_refused env pd (withdrawal other) other := by
  have number := bare_number bare
  have external : kept.bare.external = other.bare.external := congrArg RouteDescriptor.external bare
  have vector : kept.bare.reported_metric = other.bare.reported_metric := congrArg RouteDescriptor.reported_metric bare
  simp only [RouteDescriptor.bare] at external vector
  have placed := (any_bare queues.external other.id).trans (linking.others different).2
  have linked : route_stored next other.id = true := List.any_eq_true.mpr ⟨kept,present,by simpa using number⟩
  have held : route_stored pd other.id = true := List.any_eq_true.mpr ⟨other,stored,by simp⟩
  simp only [link_refused,relinks,withdrawal,linked,held,number,external,vector,placed,same,linking.rerouted.id]

/-- A refused message takes its route from a PASSIVE destination, and leaves it PASSIVE. -/
theorem fsm_event_refused (passive : pd.state = .passive) (refused : link_refused env pd msg route)
    (done : fsm_event env pd msg route = some (next, out)) : next.state = .passive ∧ ∀ kept ∈ next.routes, kept.id ≠ route.id := by
  obtain ⟨current,last,after,change,measured,queues⟩ := fsm_event_linked done
  have linking := update_distance_linking measured
  have unlinked : change = .same ∧ ∀ kept ∈ current.routes, kept.id ≠ route.id := by
    simp only [link_refused,Bool.and_eq_true,Bool.not_eq_true'] at refused
    cases linking with
    | rests _ rests => simp [refused.1] at rests
    | linked _ _ _ granted => simp [refused.2] at granted
    | refused => exact ⟨rfl,fun kept held => (mem_routes_unlink.mp held).2⟩
  obtain ⟨rfl,unlinked⟩ := unlinked
  constructor
  · rw [fsm_event_rests passive measured] at done
    have resting : current.state = .passive := linking.rerouted.state.trans passive
    simp only [fsm_event_keep_state,resting,if_true] at done
    obtain ⟨used,_,finished⟩ := Option.bind_eq_some_iff.mp done
    cases finished
    exact (keep_passive_control env current used).state.trans resting
  · intro kept held
    have listed : kept.bare ∈ current.routes.map (·.bare) := queues.routes.routes ▸ List.mem_map_of_mem held
    obtain ⟨other,stored,bare⟩ := List.mem_map.mp listed
    exact bare_number bare ▸ unlinked other stored

/-- A stored route that is refused nothing stays. -/
theorem fsm_event_stored (stored : route ∈ pd.routes) (granted : link_refused env pd msg route = false)
    (done : fsm_event env pd msg route = some (next, out)) : ∃ kept ∈ next.routes, kept.id = route.id := by
  obtain ⟨current,last,after,change,measured,queues⟩ := fsm_event_linked done
  have present : ∃ kept ∈ current.routes, kept.id = route.id := by
    cases update_distance_linking measured with
    | rests => exact ⟨route,stored,rfl⟩
    | linked _ _ _ _ same => exact ⟨after,mem_routes_relink.mpr (.inl rfl),same.id⟩
    | refused _ relinked refused => simp [link_refused,relinked,refused] at granted
  obtain ⟨other,held,number⟩ := present
  have listed : other.bare ∈ next.routes.map (·.bare) := queues.routes.routes.symm ▸ List.mem_map_of_mem held
  obtain ⟨kept,present,bare⟩ := List.mem_map.mp listed
  exact ⟨kept,present,(bare_number bare).trans number⟩

end Withdrawn

theorem Tidy.find (tidy : Tidy pd) {route : RouteDescriptor} (member : route ∈ pd.routes) :
    pd.routes.find? (fun other => other.id = route.id) = some route := by
  have present : (pd.routes.find? fun other => other.id = route.id).isSome := List.find?_isSome.mpr ⟨route,member,by simp⟩
  obtain ⟨first,found⟩ := Option.isSome_iff_exists.mp present
  have number := List.find?_some found
  rw [found,tidy.unique member (List.mem_of_find?_eq_some found) (by simpa using number)]

theorem withdrawal_learnable (anchored : route.ei ≠ none) : Learnable (withdrawal route) route := by
  refine .inr (.inr (.inl ?_))
  obtain ⟨anchor,known⟩ := Option.ne_none_iff_exists'.mp anchored
  simp [filled,known]

/-- A withdrawal that leaves no route to read is refused for the only route of a PASSIVE destination. -/
theorem withdrawal_strands (tidy : Tidy pd) (member : route ∈ pd.routes) (strand : strands env pd (withdrawal route) route) :
    pd.state = .passive ∧ ∀ other ∈ pd.routes, other = route ∧ link_refused env pd (withdrawal other) other := by
  simp only [strands,Bool.and_eq_true,decide_eq_true_eq] at strand
  obtain ⟨passive,strand⟩ := strand
  refine ⟨passive,fun other present => ?_⟩
  split at strand
  · rename_i relinked
    simp only [Bool.and_eq_true,List.all_eq_true,decide_eq_true_eq] at strand
    obtain rfl := tidy.unique member present (strand.2 other present)
    exact ⟨rfl,by simpa [link_refused,relinked] using strand.1⟩
  · simp [List.ne_nil_of_mem member] at strand

/-- The rounds fail as soon as the destination is PASSIVE and no route is left to it. -/
theorem connected_routes_down_none_iff {ids : List Nat} (tidy : Tidy pd) (distinct : ids.Nodup)
    (stored : ∀ id ∈ ids, ∃ route ∈ pd.routes, route.id = id) (ei : ∀ route ∈ pd.routes, route.id ∈ ids → route.ei ≠ none) :
    connected_routes_down env ids pd = none ↔ pd.state = .passive ∧ pd.routes ≠ [] ∧
      ∀ route ∈ pd.routes, route.id ∈ ids ∧ link_refused env pd (withdrawal route) route := by
  induction ids generalizing pd with
  | nil =>
    simp only [connected_routes_down,reduceCtorEq,false_iff]
    rintro ⟨_,nonempty,listed⟩
    obtain ⟨route,member⟩ := List.exists_mem_of_ne_nil _ nonempty
    simpa using (listed route member).1
  | cons id ids ih =>
    simp only [List.nodup_cons] at distinct
    obtain ⟨route,member,rfl⟩ := stored id (by simp)
    have found := tidy.find member
    have routed : pd.routes ≠ [] := List.ne_nil_of_mem member
    have strand := fsm_event_none_iff env pd (withdrawal_learnable (ei route member (by simp)))
    cases event : fsm_event env pd (withdrawal route) route with
    | none =>
      have fails : connected_routes_down env (route.id :: ids) pd = none := by
        simp only [withdrawal] at event
        simp [connected_routes_down,found,event]
      obtain ⟨passive,alone⟩ := withdrawal_strands tidy member (strand.mp event)
      refine iff_of_true fails ⟨passive,routed,fun other present => ?_⟩
      obtain ⟨rfl,refused⟩ := alone other present
      exact ⟨by simp,refused⟩
    | some result =>
      obtain ⟨middle,out⟩ := result
      have sound : ¬ strands env pd (withdrawal route) route := by simpa [event] using strand.not
      have onward : connected_routes_down env (route.id :: ids) pd = none ↔ connected_routes_down env ids middle = none := by
        simp only [withdrawal] at event
        simp only [connected_routes_down,found,event,Option.bind_eq_bind,Option.bind_some]
        cases connected_routes_down env ids middle <;> simp
      obtain ⟨current,last,after,change,measured,queues⟩ := fsm_event_linked event
      have linking := update_distance_linking measured
      have reaction : Reaction env pd .update (some .self) .self middle out :=
        (presented_self member).reaction_other (by simp [withdrawal]) event
      have numbered : middle.id = current.id := (reaction_identity reaction).id.trans linking.rerouted.id.symm
      have apart {id : Nat} (listed : id ∈ ids) : id ≠ route.id := fun same => distinct.1 (same ▸ listed)
      rw [onward,ih (reaction_tidy tidy reaction) distinct.2]
      · constructor
        · rintro ⟨passive,_,all⟩
          have waiting : pd.state = .passive := by
            by_contra active
            exact reaction_update_active active reaction passive
          refine ⟨waiting,routed,fun other present => ?_⟩
          by_cases same : other.id = route.id
          · obtain rfl := tidy.unique member present same
            refine ⟨by simp,?_⟩
            -- a route that stays is in none of the rounds to come
            by_contra granted
            obtain ⟨kept,held,number⟩ := fsm_event_stored member (Bool.eq_false_of_not_eq_true granted) event
            exact apart (all kept held).1 number
          · obtain ⟨kept,held,bare⟩ := linking.fate queues present same
            obtain ⟨listed,refused⟩ := all kept held
            have number := bare_number bare
            exact ⟨by simp [← number,listed],(link_refused_kept linking queues numbered same present held bare).symm.trans refused⟩
        · rintro ⟨passive,_,all⟩
          obtain ⟨resting,gone⟩ := fsm_event_refused passive (all route member).2 event
          refine ⟨resting,fun empty => sound ?_,fun kept held => ?_⟩
          · have none : current.routes = [] := by
              have same := queues.routes.routes
              rw [empty] at same
              simpa using same.symm
            exact linking.strands_iff.mpr ⟨linking.rerouted.state.trans passive,none⟩
          · obtain ⟨other,present,bare⟩ := linking.origin queues held (gone kept held)
            obtain ⟨listed,refused⟩ := all other present
            have number := bare_number bare
            refine ⟨?_,(link_refused_kept linking queues numbered (number ▸ gone kept held) present held bare).trans refused⟩
            rcases List.mem_cons.mp listed with same | later
            · exact absurd (number.trans same) (gone kept held)
            · exact number ▸ later
      · intro later listed
        obtain ⟨other,present,rfl⟩ := stored later (by simp [listed])
        obtain ⟨kept,held,bare⟩ := linking.fate queues present (apart listed)
        exact ⟨kept,held,bare_number bare⟩
      · intro kept held listed missing
        obtain ⟨other,present,bare⟩ := linking.origin queues held (apart listed)
        have anchor : kept.bare.ei = other.bare.ei := congrArg RouteDescriptor.ei bare
        exact ei other present (by simp [← bare_number bare,listed]) (anchor ▸ missing)

theorem connected_interface_down_none_iff (env : Env) (tidy : Tidy pd) (ei : Nat) :
    connected_interface_down_pd env pd ei = none ↔ withdrawals_strand env pd ei := by
  have chosen {route : RouteDescriptor} (member : route ∈ pd.routes) :
      route.id ∈ (pd.routes.filter fun route => route.adv_router = some .self ∧ route.ei = some ei).map (·.id) ↔
        route.adv_router = some .self ∧ route.ei = some ei := by
    constructor
    · intro listed
      obtain ⟨other,held,same⟩ := List.mem_map.mp listed
      obtain ⟨stored,anchored⟩ := List.mem_filter.mp held
      rw [← tidy.unique member stored same]
      simpa using anchored
    · exact fun anchored => List.mem_map.mpr ⟨route,List.mem_filter.mpr ⟨member,by simpa using anchored⟩,rfl⟩
  have distinct : ((pd.routes.filter fun route => route.adv_router = some .self ∧ route.ei = some ei).map (·.id)).Nodup :=
    tidy.numbers.sublist (List.Sublist.map _ List.filter_sublist)
  have loop := @connected_routes_down_none_iff env pd _ tidy distinct
    (by
      intro id listed
      obtain ⟨route,member,same⟩ := List.mem_map.mp listed
      exact ⟨route,List.mem_of_mem_filter member,same⟩)
    (by
      intro route member listed
      simp [((chosen member).mp listed).2])
  refine loop.trans ?_
  simp only [withdrawals_strand,decide_eq_true_eq,List.all_eq_true]
  refine and_congr_right fun _ => and_congr_right fun _ => forall_congr' fun route => forall_congr' fun member => ?_
  rw [chosen member,and_assoc]

theorem handed_none_iff {call : Call} (peer : call.nbr ≠ some .self) (other : ∀ ei, call ≠ .connected_interface_down ei) :
    exec env pd call = none ↔ routeless env call pd := by
  have unfolded : routeless env call pd =
      (call.handed env pd).any fun handed => handed.dual && strands env handed.pd handed.msg handed.route := by
    cases call <;> first | rfl | exact absurd rfl (other _)
  rw [unfolded]
  cases message : call.handed env pd with
  | none => simpa using Option.isSome_iff_ne_none.mp (quiet_total peer message other)
  | some handed => simpa using message_none_iff peer message

/-- A call fails exactly when what it hands to DUAL leaves a PASSIVE destination without a route to read. -/
theorem exec_none_iff {call : Call} (peer : call.nbr ≠ some .self) (tidy : Tidy pd) :
    exec env pd call = none ↔ routeless env call pd := by
  by_cases down : ∃ ei, call = .connected_interface_down ei
  · obtain ⟨ei,rfl⟩ := down
    exact connected_interface_down_none_iff env tidy ei
  · exact handed_none_iff peer fun ei same => down ⟨ei,same⟩

end Calls

/-! ## Runs -/

/-- What is handed to DUAL leaves every PASSIVE destination a route to read. -/
def routes_present (eigrp : Instance) (call : Call) (pd : PrefixDescriptor) : Bool := !routeless eigrp.env call pd

theorem build_total (env : Env) (id : Nat) {creation : Creation} (peer : (Label.create creation).nbr ≠ some .self) :
    (creation.build env id).isSome := by
  cases creation with
  | update nbr received =>
    cases nbr with
    | self => exact absurd rfl peer
    | peer ei number => rfl
  | query nbr received =>
    cases nbr with
    | self => exact absurd rfl peer
    | peer ei number => rfl
  | _ => rfl

theorem Finds.fails {step : Step Instance Label} {call : Call} {pd : PrefixDescriptor} (allowed : Allowed step)
    (finds : Finds step call pd) (none : exec step.before.env pd call = none) : step.after.fault = some .null := by
  obtain ⟨id,label,found⟩ := finds
  cases allowed with
  | other _ => cases label
  | act _ _ =>
    cases label
    simp [Instance.act,Instance.perform,found,none,Instance.fail]

/-- A step dereferences null only by a call that fails. -/
theorem Allowed.null {step : Step Instance Label} (allowed : Allowed step) (sound : step.before.fault ≠ some .null)
    (fails : step.after.fault = some .null) : ∃ call pd, Finds step call pd ∧ exec step.before.env pd call = none := by
  cases allowed with
  | other frame =>
    rcases frame.fault with same | dangling
    · exact absurd (same ▸ fails) sound
    · rw [dangling] at fails
      cases fails
  | @act label before permitted sound =>
    cases label with
    | other => exact absurd rfl permitted.named
    | free id => simp [Instance.act,sound] at fails
    | perform id call =>
      cases found : before.descriptor id with
      | none => simp [Instance.act,Instance.perform,found,Instance.fail] at fails
      | some pd =>
        cases done : exec before.env pd call with
        | none => exact ⟨call,pd,⟨id,rfl,found⟩,done⟩
        | some result => simp [Instance.act,Instance.perform,found,done,(effects_next_id _ _ _).2,sound] at fails
    | create creation =>
      obtain ⟨result,built⟩ := Option.isSome_iff_exists.mp (build_total before.env before.next_id permitted.peer)
      simp [Instance.act,Instance.create,built,(effects_next_id _ _ _).2,sound] at fails
    | detach id =>
      simp only [Instance.act] at fails
      split at fails
      · simp [Instance.fail] at fails
      · simp only [Instance.prefix_detach] at fails
        split at fails
        · simp [Instance.rib_write,Instance.packetizer_enqueue,sound] at fails
        · simp [sound] at fails
    | delete id =>
      simp only [Instance.act,Instance.delete] at fails
      split at fails
      · simp [Instance.fail] at fails
      · split at fails
        · simp [Instance.rib_write,sound] at fails
        · simp [sound] at fails

/-- A step dereferences null exactly if its call finds a destination without the routes that DUAL reads. -/
theorem Allowed.null_iff {step : Step Instance Label} (allowed : Allowed step) (tidy : ∀ pd ∈ step.before.prefixes, Tidy pd)
    (sound : step.before.fault ≠ some .null) :
    step.after.fault ≠ some .null ↔ ∀ call pd, Finds step call pd → routes_present step.before call pd := by
  constructor
  · intro kept call pd finds
    have peer := finds.peer allowed
    obtain ⟨id,label,found⟩ := id finds
    simp only [routes_present,Bool.not_eq_true']
    by_contra crash
    have none := (exec_none_iff peer (tidy pd (descriptor_mem found).1)).mpr (by simpa using crash)
    exact kept (finds.fails allowed none)
  · intro present fails
    obtain ⟨call,pd,finds,none⟩ := allowed.null sound fails
    have peer := finds.peer allowed
    obtain ⟨id,_,found⟩ := id finds
    have crash := (exec_none_iff peer (tidy pd (descriptor_mem found).1)).mp none
    have checked := present call pd finds
    simp [routes_present,crash] at checked

theorem Machine.calls_all_iff {check : Instance → Call → PrefixDescriptor → Bool} {machine : Machine} :
    machine.calls_all check ↔ ∀ step ∈ machine.trace, ∀ call pd, Finds step call pd → check step.before call pd := by
  constructor
  · intro all step member call pd finds
    exact Machine.calls_all_finds all member finds
  · intro all
    refine List.all_eq_true.mpr (fun step member => ?_)
    split
    · rename_i id call label
      cases found : step.before.descriptor id with
      | none => rfl
      | some pd => exact all step member call pd ⟨id,label,found⟩
    · rfl

/-- What goes on without a fault finds the routes that DUAL reads. -/
theorem Machine.Continues.present {machine next : Machine} (continues : machine.Continues next)
    (tidy : ∀ pd ∈ machine.state.prefixes, Tidy pd) (sound : next.state.fault = none) :
    (next.since machine).calls_all routes_present := by
  obtain ⟨steps,trace,linked,allowed⟩ := continues
  have later : (next.since machine).trace = steps := by rw [Machine.since,trace,List.drop_left]
  -- behind a fault no state is sound again, so every state on the way is
  have quiet := (@Linked.backward _ _ _ _ _ (fun eigrp : Instance => eigrp.fault = none) linked sound
    (fun step member after => (allowed step member).before_sound after)).2
  have ordered := @Linked.invariant _ _ _ _ _ (fun eigrp : Instance => ∀ pd ∈ eigrp.prefixes, Tidy pd) linked tidy
    (fun step member before => (allowed step member).tidy before)
  rw [Machine.calls_all_iff,later]
  intro step member call pd finds
  have after := quiet step member
  have before : step.before.fault ≠ some .null := by simp [(allowed step member).before_sound after]
  exact ((allowed step member).null_iff (ordered.2 step member).1 before).mp (by simp [after]) call pd finds

end Eigrp
