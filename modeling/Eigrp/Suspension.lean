import Eigrp.Allocation
import Eigrp.Restart
import Eigrp.Sync

/-!
# Suspension of a whole address family

The limit of an address family takes all its neighbors down at once. Their routes and pending replies are
then withdrawn in one scan of the topology, which collects the neighbors of a destination before the first
event changes the lists they were collected from.
-/

namespace Eigrp
open Eigrp.Lib

/-! ## The origin of a query does not steer -/

/-- The descriptor without the neighbor that waits for its answer. -/
def PrefixDescriptor.orphaned (pd : PrefixDescriptor) : PrefixDescriptor := { pd with query_origin := none }

/-- A REPLY is put into the queue. -/
def Effect.replies : Effect → Bool
  | .enqueue work => work.opcode = .reply
  | _ => false

/-- A result without the origin and what is queued for it. -/
def unanswered (result : PrefixDescriptor × List Effect) : PrefixDescriptor × List Effect :=
  (result.1.orphaned, result.2.filter fun effect => !effect.replies)

section Orphaned
variable (env : Env) (pd : PrefixDescriptor)

theorem mark_queue_orphaned (max_paths count : Nat) (queue : List RouteDescriptor) :
    mark_queue env pd.orphaned max_paths count queue = mark_queue env pd max_paths count queue := by
  induction queue generalizing count with
  | nil => rfl
  | cons route queue ih =>
    have same : mark_route env pd.orphaned max_paths count route = mark_route env pd max_paths count route := rfl
    simp only [mark_queue,same,ih]

theorem update_node_flags_orphaned : update_node_flags env pd.orphaned = (update_node_flags env pd).orphaned := by
  have same : route_select pd.orphaned = route_select pd := rfl
  have mapped (update : RouteDescriptor → RouteDescriptor) : routes_map pd.orphaned update = (routes_map pd update).orphaned := rfl
  unfold update_node_flags
  rw [same]
  dsimp only
  rw [mapped]
  cases route_select pd with
  | none => rfl
  | some best =>
    dsimp only
    rw [mark_queue_orphaned,mark_queue_orphaned]
    split <;> rfl

theorem update_routing_table_orphaned :
    update_routing_table env pd.orphaned = ((update_routing_table env pd).1.orphaned, (update_routing_table env pd).2) := by
  unfold update_routing_table
  dsimp only
  change (if (routes_map pd fun route => { route with intable := false }).routes.any (·.successor) = true then _ else _) = _
  split <;> rfl

theorem refreshed_table_orphaned :
    update_routing_table env (update_node_flags env pd.orphaned) =
      ((update_routing_table env (update_node_flags env pd)).1.orphaned, (update_routing_table env (update_node_flags env pd)).2) := by
  rw [update_node_flags_orphaned,update_routing_table_orphaned]

theorem update_routing_table_unreplied :
    (update_routing_table env pd).2.filter (fun effect => !effect.replies) = (update_routing_table env pd).2 := by
  refine List.filter_eq_self.mpr fun effect member => ?_
  unfold update_routing_table at member
  dsimp only at member
  split at member
  · split at member
    · cases member
    · rw [List.mem_singleton.mp member]
      rfl
  · rw [List.mem_singleton.mp member]
    rfl

theorem passive_refresh_orphaned :
    passive_refresh env pd.orphaned = unanswered (passive_refresh env pd) := by
  have table := refreshed_table_orphaned env { pd with need_update := true }
  have start : ({ pd.orphaned with need_update := true } : PrefixDescriptor) =
      ({ pd with need_update := true } : PrefixDescriptor).orphaned := rfl
  have quiet := update_routing_table_unreplied env (update_node_flags env { pd with need_update := true })
  rw [passive_refresh_eq,passive_refresh_eq,start,table,unanswered]
  simp only [List.filter_cons,List.filter_append,quiet]
  rfl

theorem reply_send_route_unreplied (nbr : Option Nbr) (route : Option RouteDescriptor) (poison : Bool) :
    (reply_send_route pd nbr route poison).filter (fun effect => !effect.replies) = [] := by
  cases nbr <;> rfl

theorem passive_refresh_unanswered (origin : pd.query_origin = none) : unanswered (passive_refresh env pd) = passive_refresh env pd := by
  have same : pd.orphaned = pd := by
    cases pd
    cases origin
    rfl
  exact (passive_refresh_orphaned env pd).symm.trans (by rw [same])

/-- The end of a computation is the same whoever asked for it, apart from the answer. -/
theorem fsm_event_lr_orphaned : fsm_event_lr env pd.orphaned = unanswered (fsm_event_lr env pd) := by
  have read : route_read pd.orphaned = route_read pd := rfl
  have ended (pd : PrefixDescriptor) (state : State) :
      ((passive_refresh env { pd with query_origin := none, t_active := false, rij := [], state := .passive }).1,
        (if state = .active_3 ∨ state = .active_2 then reply_send pd.orphaned none else []) ++ .dual_state_change state .passive .lr ::
          (passive_refresh env { pd with query_origin := none, t_active := false, rij := [], state := .passive }).2) =
      unanswered ((passive_refresh env { pd with query_origin := none, t_active := false, rij := [], state := .passive }).1,
        (if state = .active_3 ∨ state = .active_2 then reply_send pd pd.query_origin else []) ++ .dual_state_change state .passive .lr ::
          (passive_refresh env { pd with query_origin := none, t_active := false, rij := [], state := .passive }).2) := by
    have same := passive_refresh_unanswered env { pd with query_origin := none, t_active := false, rij := [], state := .passive } rfl
    have stored := congrArg Prod.fst same
    have queued := congrArg Prod.snd same
    simp only [unanswered] at stored queued ⊢
    rw [stored,List.filter_append,List.filter_cons,queued]
    have silent : (if state = .active_3 ∨ state = .active_2 then reply_send pd.orphaned none else []) = [] := by split <;> rfl
    have answered : (if state = .active_3 ∨ state = .active_2 then reply_send pd pd.query_origin else []).filter
        (fun effect => !effect.replies) = [] := by
      split
      · exact reply_send_route_unreplied pd _ _ _
      · rfl
    rw [silent,answered]
    rfl
  unfold fsm_event_lr
  rw [read]
  cases route_read pd with
  | none =>
    exact ended { pd with fdistance := max_distance, distance := max_distance, rdistance := max_distance
                          reported_metric := { delay := max_metric } } pd.state
  | some route =>
    exact ended { pd with fdistance := route.distance, distance := route.distance, rdistance := route.distance
                          reported_metric := route.total_metric } pd.state

theorem fsm_event_lr_fcs_orphaned : fsm_event_lr_fcs env pd.orphaned = (fsm_event_lr_fcs env pd).map unanswered := by
  have selected : route_select pd.orphaned = route_select pd := rfl
  have ended (pd : PrefixDescriptor) (state : State) (origin : pd.query_origin = none) (replies : List Effect)
      (answered : replies.filter (fun effect => !effect.replies) = []) :
      ((passive_refresh env pd).1, .dual_state_change state .passive .lr_fcs :: ([] ++ (passive_refresh env pd).2)) =
        unanswered ((passive_refresh env pd).1, .dual_state_change state .passive .lr_fcs :: (replies ++ (passive_refresh env pd).2)) := by
    have same := passive_refresh_unanswered env pd origin
    have stored := congrArg Prod.fst same
    have queued := congrArg Prod.snd same
    simp only [unanswered] at stored queued ⊢
    rw [stored,List.filter_cons,List.filter_append,queued,answered]
    rfl
  unfold fsm_event_lr_fcs
  rw [selected]
  cases route_select pd with
  | none => rfl
  | some route =>
    simp only [Option.bind_eq_bind,Option.bind_some,Option.map_some,Option.some.injEq]
    have silent (state : State) (pd : PrefixDescriptor) : (if state = .active_2 then reply_send pd none else []) = [] := by split <;> rfl
    have answered (state : State) (pd : PrefixDescriptor) (origin : Option Nbr) :
        (if state = .active_2 then reply_send pd origin else []).filter (fun effect => !effect.replies) = [] := by
      split
      · exact reply_send_route_unreplied pd _ _ _
      · rfl
    have none_asked : pd.orphaned.query_origin = none := rfl
    simp only [none_asked,silent]
    exact ended _ _ rfl _ (answered _ _ _)

theorem diffuse_orphaned : diffuse env pd.orphaned = unanswered (diffuse env pd) := by
  unfold diffuse
  dsimp only
  split
  · rfl
  · exact fsm_event_lr_orphaned env { pd with t_active := false, rij := [] }

theorem fsm_event_nq_fcn_orphaned : fsm_event_nq_fcn env pd.orphaned = unanswered (fsm_event_nq_fcn env pd) := by
  have asked := diffuse_orphaned env { pd with state := .active_1 }
  have start : fsm_event_nq_fcn env pd.orphaned = ((diffuse env ({ pd with state := .active_1 } : PrefixDescriptor).orphaned).1,
    .dual_state_change pd.state .active_1 .nq_fcn :: (diffuse env ({ pd with state := .active_1 } : PrefixDescriptor).orphaned).2) := rfl
  rw [start,asked]
  rfl

theorem fsm_event_lr_fcn_orphaned : fsm_event_lr_fcn env pd.orphaned = unanswered (fsm_event_lr_fcn env pd) := by
  have asked := diffuse_orphaned env { pd with state := if pd.state = .active_0 then .active_1 else .active_3 }
  have start : fsm_event_lr_fcn env pd.orphaned =
      ((diffuse env ({ pd with state := if pd.state = .active_0 then .active_1 else .active_3 } : PrefixDescriptor).orphaned).1,
        .dual_state_change pd.state (if pd.state = .active_0 then .active_1 else .active_3) .lr_fcn ::
          (diffuse env ({ pd with state := if pd.state = .active_0 then .active_1 else .active_3 } : PrefixDescriptor).orphaned).2) := rfl
  rw [start,asked]
  rfl

theorem keep_passive_orphaned (used : RouteDescriptor) : keep_passive env pd.orphaned used = unanswered (keep_passive env pd used) := by
  have ended (pd : PrefixDescriptor) (changed : List Effect) (quiet : changed.filter (fun effect => !effect.replies) = changed) :
      ((update_routing_table env (update_node_flags env pd.orphaned)).1,
        changed ++ (update_routing_table env (update_node_flags env pd.orphaned)).2) =
      unanswered ((update_routing_table env (update_node_flags env pd)).1,
        changed ++ (update_routing_table env (update_node_flags env pd)).2) := by
    rw [refreshed_table_orphaned,unanswered,List.filter_append,quiet,update_routing_table_unreplied]
  have same : pd.orphaned.reported_metric = pd.reported_metric := rfl
  unfold keep_passive
  rw [same]
  cases matched : metrics_match pd.reported_metric used.total_metric with
  | true => exact ended pd [] rfl
  | false =>
    exact ended { pd with
      distance := used.distance
      rdistance := used.distance
      fdistance := if used.distance < pd.fdistance then used.distance else pd.fdistance
      reported_metric := used.total_metric
      need_update := true } [.topology_change] rfl

section Message
variable {msg : Msg}

theorem fsm_event_keep_state_orphaned (answer : msg.packet_type ≠ .query) (route : RouteDescriptor) :
    fsm_event_keep_state env pd.orphaned msg route = (fsm_event_keep_state env pd msg route).map unanswered := by
  have state : pd.orphaned.state = pd.state := rfl
  have selected : route_select pd.orphaned = route_select pd := rfl
  have read : route_read pd.orphaned = route_read pd := rfl
  unfold fsm_event_keep_state
  rw [state,selected,read]
  by_cases passive : pd.state = .passive
  · rw [if_pos passive,if_pos passive]
    cases (route_select pd).or (route_read pd) with
    | none => rfl
    | some used =>
      simp only [Option.bind_eq_bind,Option.bind_some,Option.map_some,answer,if_false,List.append_nil]
      rw [keep_passive_orphaned]
  · simp only [passive,answer,false_and,if_false]
    rfl

theorem route_relink_orphaned (route : RouteDescriptor) : route_relink pd.orphaned route = (route_relink pd route).orphaned := by
  unfold route_relink route_insert
  split <;> rfl

theorem distance_measure_orphaned (msg : Msg) (route : RouteDescriptor) :
    distance_measure env pd.orphaned msg route = (distance_measure env pd msg route).map fun measured => (measured.1.orphaned, measured.2) := by
  have external : pd.orphaned.external_routes = pd.external_routes := rfl
  have routes : pd.orphaned.routes = pd.routes := rfl
  have nt : pd.orphaned.nt = pd.nt := rfl
  unfold distance_measure
  simp only [external,routes,nt,route_relink_orphaned]
  split
  · rfl
  · cases msg.data_type with
    | connected =>
      dsimp only
      split <;> rfl
    | int =>
      dsimp only
      split
      · rfl
      · simp only [Option.bind_eq_bind,Option.map_bind]
        rfl
    | ext =>
      dsimp only
      split
      · rfl
      · split
        · rfl
        · simp only [Option.bind_eq_bind,Option.map_bind]
          rfl

theorem update_distance_orphaned (msg : Msg) (route : RouteDescriptor) :
    update_distance env pd.orphaned msg route = (update_distance env pd msg route).map fun measured => (measured.1.orphaned, measured.2) := by
  have refused : link_refused env pd.orphaned msg route = link_refused env pd msg route := rfl
  have unlinked : route_unlink pd.orphaned route.id = (route_unlink pd route.id).orphaned := rfl
  have stored : route_stored pd.orphaned route.id = route_stored pd route.id := rfl
  unfold update_distance
  rw [distance_measure_orphaned,refused,unlinked,stored]
  cases distance_measure env pd msg route with
  | none => rfl
  | some measured =>
    simp only [Option.bind_eq_bind,Option.map_some,Option.bind_some]
    split <;> rfl

theorem event_choose_orphaned (answer : msg.packet_type ≠ .query) (route : RouteDescriptor) (change : MetricChange) :
    event_choose pd.orphaned msg route change =
      ((event_choose pd msg route change).1.orphaned, (event_choose pd msg route change).2) := by
  have state : pd.orphaned.state = pd.state := rfl
  have selected : route_select pd.orphaned = route_select pd := rfl
  have fdistance : pd.orphaned.fdistance = pd.fdistance := rfl
  have removed (finished : FsmEvent) : select_reply pd.orphaned route finished =
      ((select_reply pd route finished).1.orphaned, (select_reply pd route finished).2) := rfl
  unfold event_choose
  simp only [state,selected,fdistance,answer,false_and,if_false,removed]
  cases pd.state with
  | passive =>
    dsimp only
    split
    · rfl
    · split <;> rfl
  | active_0 =>
    dsimp only
    split <;> rfl
  | active_2 =>
    dsimp only
    split <;> rfl
  | active_1 =>
    dsimp only
    split
    · rfl
    · split <;> rfl
  | active_3 =>
    dsimp only
    split
    · rfl
    · split <;> rfl

theorem event_select_orphaned (answer : msg.packet_type ≠ .query) (route : RouteDescriptor) :
    event_select env pd.orphaned msg route =
      (event_select env pd msg route).map fun selected => (selected.1.orphaned, selected.2) := by
  unfold event_select
  rw [update_distance_orphaned]
  cases measures : update_distance env pd msg route with
  | none => rfl
  | some measured =>
    obtain ⟨next,last,after,change⟩ := measured
    obtain ⟨transient_route,same⟩ := (update_distance_linking measures).message
    have kept : last.packet_type ≠ .query := by
      rw [same]
      exact answer
    simp only [Option.bind_eq_bind,Option.map_some,Option.bind_some]
    rw [event_choose_orphaned next kept]

theorem nsm_even_orphaned (answer : msg.packet_type ≠ .query) (route : RouteDescriptor) (event : FsmEvent) (asked : event ≠ .qact) :
    nsm_even env pd.orphaned msg route event = (nsm_even env pd msg route event).map unanswered := by
  have kept := fsm_event_keep_state_orphaned env pd answer route
  cases event with
  | lr_fcs => exact fsm_event_lr_fcs_orphaned env pd
  | lr_fcn => exact congrArg some (fsm_event_lr_fcn_orphaned env pd)
  | qact => exact absurd rfl asked
  | nq_fcn | lr | q_fcn | dinc | keep_state => exact kept

theorem event_choose_answer (answer : msg.packet_type ≠ .query) (route : RouteDescriptor) (change : MetricChange) :
    (event_choose pd msg route change).2 ≠ .qact ∧ (event_choose pd msg route change).2 ≠ .q_fcn := by
  unfold event_choose select_reply
  simp only [answer,false_and,if_false]
  cases pd.state <;> dsimp only <;> repeat' split
  all_goals simp

theorem event_select_answer (answer : msg.packet_type ≠ .query) {last : Msg} {route after : RouteDescriptor} {next : PrefixDescriptor}
    {event : FsmEvent} (selected : event_select env pd msg route = some (next, last, after, event)) :
    last.packet_type ≠ .query ∧ event ≠ .qact ∧ event ≠ .q_fcn := by
  unfold event_select at selected
  obtain ⟨⟨current,last,route,change⟩,measures,chosen⟩ := Option.bind_eq_some_iff.mp selected
  obtain ⟨transient_route,same⟩ := (update_distance_linking measures).message
  have kept : last.packet_type ≠ .query := by
    rw [same]
    exact answer
  cases chosen
  exact ⟨kept,event_choose_answer current kept _ change⟩

theorem fsm_event_dinc_orphaned (answer : msg.packet_type ≠ .query) (route : RouteDescriptor) :
    fsm_event_dinc env pd.orphaned msg route = (fsm_event_dinc env pd msg route).map unanswered := by
  have state : pd.orphaned.state = pd.state := rfl
  have moved (state : State) : ({ pd.orphaned with state } : PrefixDescriptor) = ({ pd with state } : PrefixDescriptor).orphaned := rfl
  unfold fsm_event_dinc
  simp only [state,moved]
  generalize ({ pd with state := if pd.state = .active_1 then State.active_0 else .active_2 } : PrefixDescriptor) = start
  have rij : pd.orphaned.rij = pd.rij := rfl
  rw [rij]
  by_cases owed : pd.rij = []
  · simp only [owed,if_true]
    rw [event_select_orphaned env start answer]
    cases selected : event_select env start msg route with
    | none => rfl
    | some chosen =>
      obtain ⟨next,last,after,event⟩ := chosen
      obtain ⟨kept,asked,_⟩ := event_select_answer env start answer selected
      simp only [Option.bind_eq_bind,Option.map_some,Option.bind_some]
      rw [nsm_even_orphaned env next kept after event asked]
      cases nsm_even env next last after event <;> rfl
  · simp only [owed,if_false]
    rfl

theorem nsm_orphaned (answer : msg.packet_type ≠ .query) (route : RouteDescriptor) {event : FsmEvent}
    (asked : event ≠ .qact ∧ event ≠ .q_fcn) : nsm env pd.orphaned msg route event = (nsm env pd msg route event).map unanswered := by
  have state : pd.orphaned.state = pd.state := rfl
  have kept := fsm_event_keep_state_orphaned env pd answer route
  have even := nsm_even_orphaned env pd answer route event asked.1
  have odd : nsm_odd env pd.orphaned msg route event = (nsm_odd env pd msg route event).map unanswered := by
    cases event with
    | lr => exact congrArg some (fsm_event_lr_orphaned env pd)
    | dinc => exact fsm_event_dinc_orphaned env pd answer route
    | qact => exact absurd rfl asked.1
    | nq_fcn | q_fcn | lr_fcs | lr_fcn | keep_state => exact kept
  have passive : nsm_passive env pd.orphaned msg route event = (nsm_passive env pd msg route event).map unanswered := by
    cases event with
    | nq_fcn => exact congrArg some (fsm_event_nq_fcn_orphaned env pd)
    | q_fcn => exact absurd rfl asked.2
    | lr | lr_fcs | dinc | qact | lr_fcn | keep_state => exact kept
  unfold nsm
  rw [state]
  cases pd.state with
  | passive => exact passive
  | active_0 | active_2 => exact even
  | active_1 | active_3 => exact odd

/-- An UPDATE or a REPLY does the same whoever waits for the answer to a query, apart from that answer. -/
theorem fsm_event_orphaned (answer : msg.packet_type ≠ .query) (route : RouteDescriptor) :
    fsm_event env pd.orphaned msg route = (fsm_event env pd msg route).map unanswered := by
  unfold fsm_event
  rw [event_select_orphaned env pd answer]
  cases selected : event_select env pd msg route with
  | none => rfl
  | some chosen =>
    obtain ⟨next,last,after,event⟩ := chosen
    obtain ⟨kept,asked⟩ := event_select_answer env pd answer selected
    exact nsm_orphaned env next kept after asked

end Message

theorem fsm_neighbor_down_orphaned (nbr : Nbr) :
    fsm_neighbor_down env pd.orphaned nbr = (fsm_neighbor_down env pd nbr).map unanswered := by
  have state : pd.orphaned.state = pd.state := rfl
  have pending : reply_status_pending pd.orphaned nbr = reply_status_pending pd nbr := rfl
  have removed : reply_status_remove pd.orphaned (some nbr) = (reply_status_remove pd (some nbr)).orphaned := rfl
  unfold fsm_neighbor_down
  rw [state,pending,removed]
  split
  · rfl
  · dsimp only
    generalize reply_status_remove pd (some nbr) = left
    have rij : left.orphaned.rij = left.rij := rfl
    have still : left.orphaned.state = left.state := rfl
    have selected : route_select left.orphaned = route_select left := rfl
    rw [rij,still,selected]
    split
    · rfl
    · split
      · split
        · exact fsm_event_lr_fcs_orphaned env left
        · exact congrArg some (fsm_event_lr_fcn_orphaned env left)
      · exact congrArg some (fsm_event_lr_orphaned env left)

theorem neighbor_lost_orphaned (nbr : Nbr) : neighbor_lost env pd.orphaned nbr = (neighbor_lost env pd nbr).map unanswered := by
  have found : prefix_descriptor_lookup pd.orphaned nbr = prefix_descriptor_lookup pd nbr := rfl
  have state : pd.orphaned.state = pd.state := rfl
  unfold neighbor_lost
  rw [found,state]
  cases prefix_descriptor_lookup pd nbr with
  | none => exact fsm_neighbor_down_orphaned env pd nbr
  | some route =>
    refine fsm_event_orphaned env pd ?_ route
    dsimp only
    split <;> simp

/-- The body of the teardown for one neighbor is the same with the origin forgotten before. -/
theorem neighbor_down_orphaned (nbr : Nbr) :
    neighbor_down_pd env pd.orphaned nbr = (neighbor_down_pd env pd nbr).map unanswered := by
  have start : neighbor_down_pd env pd.orphaned nbr = neighbor_lost env pd.orphaned nbr := by
    unfold neighbor_down_pd
    congr 1
  have forgotten : neighbor_lost env ({ pd with query_origin := if pd.query_origin = some nbr then none else pd.query_origin } :
      PrefixDescriptor).orphaned nbr = (neighbor_down_pd env pd nbr).map unanswered := neighbor_lost_orphaned env _ nbr
  exact start.trans forgotten

end Orphaned

/-! ## One destination -/

section Down
variable {env : Env} {pd next : PrefixDescriptor} {nbr : Nbr} {out : List Effect}

/-- An UPDATE or a REPLY lets the origin wait, or ends the computation. -/
theorem outcome_origin {msg : Msg} {after : RouteDescriptor} (answer : msg.packet_type ≠ .query) (outcome : Outcome env msg after pd next out) :
    next.query_origin = none ∨ next.query_origin = pd.query_origin := by
  have diffused (pd : PrefixDescriptor) : (diffuse env pd).1.query_origin = none ∨ (diffuse env pd).1.query_origin = pd.query_origin := by
    rcases diffuse_cases env pd with ⟨_,asked⟩ | ⟨_,ended⟩
    · rw [asked]
      exact .inr rfl
    · rw [ended]
      exact .inl (fsm_event_lr_finished env _).query_origin
  cases outcome with
  | commit used passive found => exact .inr (keep_passive_control env pd used).query_origin
  | start passive other => exact diffused _
  | start_query passive query => exact absurd query answer
  | wait active owed other => exact .inr rfl
  | origin active query successor => exact absurd query answer
  | increase state states update => exact .inr rfl
  | last_reply odd reply owed => exact .inl (fsm_event_lr_finished env pd).query_origin
  | last_reply_feasible next out even reply owed done => exact .inl (fsm_event_lr_fcs_finished done).query_origin
  | last_reply_infeasible even reply owed => exact diffused _

theorem neighbor_down_origin (done : neighbor_down_pd env pd nbr = some (next, out)) :
    next.query_origin = none ∨ (next.query_origin = pd.query_origin ∧ pd.query_origin ≠ some nbr) := by
  have forgotten : next.query_origin = none ∨ next.query_origin = if pd.query_origin = some nbr then none else pd.query_origin := by
    have reacts {packet : Opcode} {start : PrefixDescriptor} (answer : packet ≠ .query)
        (reaction : Reaction env start packet (some nbr) nbr next out) :
        next.query_origin = none ∨ next.query_origin = start.query_origin := by
      obtain ⟨current,msg,after,rerouted,_,kind,_,outcome⟩ := reaction.reacts
      have origin : (discharge current msg (some nbr)).query_origin = current.query_origin := by
        unfold discharge
        split <;> rfl
      rw [← rerouted.query_origin,← origin]
      exact outcome_origin (by rw [kind]; exact answer) outcome
    rcases neighbor_lost_cases done with ⟨rfl,_⟩ | ⟨_,reaction⟩ | ⟨_,reaction⟩
    · exact .inr rfl
    · exact reacts (by simp) reaction
    · exact reacts (by simp) reaction
  by_cases here : pd.query_origin = some nbr
  · rw [if_pos here] at forgotten
    exact .inl (forgotten.elim id id)
  · rw [if_neg here] at forgotten
    exact forgotten.imp_right fun same => ⟨same,here⟩

/-- A neighbor without a route that owes no REPLY is forgotten, and nothing else happens. -/
theorem neighbor_down_idle (missing : prefix_descriptor_lookup pd nbr = none) (idle : ¬ reply_status_pending pd nbr) :
    neighbor_down_pd env pd nbr =
      some ({ pd with query_origin := if pd.query_origin = some nbr then none else pd.query_origin }, []) := by
  have forgotten (origin : Option Nbr) : neighbor_lost env { pd with query_origin := origin } nbr =
      some ({ pd with query_origin := origin }, []) := by
    have lost : prefix_descriptor_lookup { pd with query_origin := origin } nbr = none := missing
    have silent : ¬ reply_status_pending { pd with query_origin := origin } nbr := idle
    simp only [neighbor_lost,lost,fsm_neighbor_down]
    rw [if_pos (.inr silent)]
  exact forgotten _

end Down

/-! ## What an operation leaves of another destination -/

/-- The host's route for a destination, and its entries in the list of changes. -/
def Instance.posted (eigrp : Instance) (destination : Prefix) (id : Nat) : Option RibRoute × List Nat :=
  (eigrp.rib destination, eigrp.topology_changes.filter fun other => other = id)

section Posted
variable {first second one two : Instance} {pd other : PrefixDescriptor} {out : List Effect}

theorem effect_posted (id : other.id = pd.id) (destination : other.destination = pd.destination) {effect : Effect}
    (contained : effect.contained pd.id) (accepts : one.rib_accepts = two.rib_accepts)
    (same : one.posted pd.destination pd.id = two.posted pd.destination pd.id) :
    (one.effect other effect).posted pd.destination pd.id = (two.effect pd effect).posted pd.destination pd.id := by
  obtain ⟨rib,changes⟩ := Prod.mk.inj same
  have listed (eigrp : Instance) : pd.id ∈ eigrp.topology_changes ↔
      pd.id ∈ eigrp.topology_changes.filter fun other => other = pd.id := by simp
  cases effect with
  | topology_change => simp [Instance.posted,Instance.effect,id,rib,changes]
  | topology_change_once =>
    have member : pd.id ∈ one.topology_changes ↔ pd.id ∈ two.topology_changes := by rw [listed,changes,← listed]
    simp only [Instance.effect,id]
    by_cases here : pd.id ∈ two.topology_changes
    · rw [if_pos here,if_pos (member.mpr here)]
      exact same
    · rw [if_neg here,if_neg (fun there => here (member.mp there))]
      simp [Instance.posted,rib,changes]
  | enqueue work => exact same
  | rib_route_add route =>
    simp only [Instance.effect,accepts]
    split
    · simp [Instance.posted,Instance.rib_write,destination,changes]
    · exact same
  | rib_route_del => simp [Instance.posted,Instance.effect,Instance.rib_write,destination,changes]
  | detach => simp [Effect.contained] at contained
  | dual_state_change old new event => exact same
  | stuck nbr => exact same

/-- The same effects but for REPLYs leave the same behind. -/
theorem effects_posted (id : other.id = pd.id) (destination : other.destination = pd.destination)
    (contained : Contained pd.id out) (accepts : one.rib_accepts = two.rib_accepts)
    (same : one.posted pd.destination pd.id = two.posted pd.destination pd.id) :
    (one.effects other (out.filter fun effect => !effect.replies)).posted pd.destination pd.id =
      (two.effects pd out).posted pd.destination pd.id := by
  induction out generalizing one two with
  | nil => exact same
  | cons effect out ih =>
    have rest : Contained pd.id out := fun effect member => contained effect (List.mem_cons_of_mem _ member)
    have kept (eigrp : Instance) (pd : PrefixDescriptor) (effect : Effect) : (eigrp.effect pd effect).rib_accepts = eigrp.rib_accepts :=
      congrArg Env.rib_accepts (effect_env pd eigrp effect)
    cases replies : effect.replies with
    | true =>
      have unposted : (two.effect pd effect).posted pd.destination pd.id = two.posted pd.destination pd.id := by
        cases effect <;> simp [Effect.replies] at replies
        rfl
      rw [List.filter_cons_of_neg (by simp [replies])]
      exact ih rest (accepts.trans (kept two pd effect).symm) (same.trans unposted.symm)
    | false =>
      rw [List.filter_cons_of_pos (by simp [replies])]
      refine ih rest ?_ (effect_posted id destination (contained effect List.mem_cons_self) accepts same)
      rw [kept,kept,accepts]

/-- Effects on one destination leave another one alone. -/
theorem effects_elsewhere {destination : Prefix} {id : Nat} (number : pd.id ≠ id) (different : pd.destination ≠ destination)
    (contained : Contained pd.id out) : (one.effects pd out).posted destination id = one.posted destination id := by
  induction out generalizing one with
  | nil => rfl
  | cons effect out ih =>
    refine (ih fun effect member => contained effect (List.mem_cons_of_mem _ member)).trans ?_
    have within := contained effect List.mem_cons_self
    cases effect with
    | topology_change => simp [Instance.posted,Instance.effect,number]
    | topology_change_once =>
      simp only [Instance.effect]
      split
      · rfl
      · simp [Instance.posted,number]
    | rib_route_add route =>
      simp only [Instance.effect]
      split
      · simp [Instance.posted,Instance.rib_write,Function.update_of_ne different.symm]
      · rfl
    | rib_route_del => simp [Instance.posted,Instance.effect,Instance.rib_write,Function.update_of_ne different.symm]
    | detach => simp [Effect.contained] at within
    | _ => rfl

end Posted

/-! ## The scan -/

/-- What the batch reads of `eigrp_nbr_t`: whether the neighbor is published, under a limit of its own, and suspended with
    its address family. -/
structure Member where
  nbr : Nbr
  published : Bool
  penalized : Bool
  af_suspended : Bool
deriving DecidableEq, Repr

/-- `eigrp_topology_suspended_peer`. -/
def Member.suspended_peer (member : Member) : Bool := member.published && member.af_suspended && !member.penalized

/-- The suspended peers. -/
def suspended_set (members : List Member) : List Nbr := (members.filter (·.suspended_peer)).map (·.nbr)

/-- The count in `eigrp_pfxlimits_nbr_update` for which the array is allocated. -/
def peers_capacity (members : List Member) : Nat := (members.filter fun member => member.published && !member.penalized).length

/-- The array of `eigrp_topology_suspended_neighbors_down`, and the neighbors with `topo_batch_seen`. -/
structure Batch where
  peers : List Nbr := []
  seen : List Nbr := []
deriving DecidableEq, Repr

/-- `eigrp_topology_suspended_peer_add`; `none` is a failed assertion. -/
def suspended_peer_add (members : List Member) (capacity : Nat) (batch : Batch) (nbr : Option Nbr) : Option Batch :=
  match nbr with
  | none => some batch
  | some nbr =>
    if nbr ∉ suspended_set members ∨ nbr ∈ batch.seen then some batch
    else if batch.peers.length < capacity then some { peers := batch.peers ++ [nbr], seen := batch.seen ++ [nbr] }
    else none

/-- The peers of a destination, its routes before its pending replies. -/
def suspended_peers_collect (members : List Member) (capacity : Nat) (pd : PrefixDescriptor) : Option Batch :=
  (pd.routes.map (·.adv_router) ++ pd.rij.map fun status => some status.neighbor).foldlM (suspended_peer_add members capacity) {}

/-- The neighbor owns a route of the destination, or owes it a REPLY. -/
def Involved (pd : PrefixDescriptor) (nbr : Nbr) : Prop :=
  (∃ route ∈ pd.routes, route.adv_router = some nbr) ∨ nbr ∈ pd.rij.map (·.neighbor)

theorem mem_suspended_peers {peers : List Nbr} {pd : PrefixDescriptor} {nbr : Nbr} :
    nbr ∈ suspended_peers peers pd ↔ nbr ∈ peers ∧ Involved pd nbr := by
  simp only [suspended_peers,List.mem_reverse,List.mem_dedup,List.mem_filter,List.mem_append,List.mem_filterMap,decide_eq_true_eq,
    Involved]
  exact and_comm

theorem suspended_peers_nodup (peers : List Nbr) (pd : PrefixDescriptor) : (suspended_peers peers pd).Nodup :=
  List.nodup_reverse.mpr (List.nodup_dedup _)

/-- The first occurrences of what the scan comes by. -/
def first_seen (peers : List Nbr) (nbrs : List (Option Nbr)) : List Nbr :=
  ((nbrs.filterMap id).filter fun nbr => nbr ∈ peers).reverse.dedup.reverse

theorem dedup_snoc (nbrs : List Nbr) (nbr : Nbr) :
    (nbrs ++ [nbr]).reverse.dedup.reverse = if nbr ∈ nbrs then nbrs.reverse.dedup.reverse else nbrs.reverse.dedup.reverse ++ [nbr] := by
  rw [List.reverse_append,List.reverse_singleton,List.singleton_append]
  by_cases member : nbr ∈ nbrs
  · rw [if_pos member,List.dedup_cons_of_mem (List.mem_reverse.mpr member)]
  · rw [if_neg member,List.dedup_cons_of_notMem (fun there => member (List.mem_reverse.mp there)),List.reverse_cons]

theorem first_seen_snoc (peers : List Nbr) (nbrs : List (Option Nbr)) (nbr : Nbr) :
    first_seen peers (nbrs ++ [some nbr]) =
      if nbr ∉ peers ∨ nbr ∈ first_seen peers nbrs then first_seen peers nbrs else first_seen peers nbrs ++ [nbr] := by
  have scanned : ((nbrs ++ [some nbr]).filterMap id).filter (fun nbr => nbr ∈ peers) =
      (nbrs.filterMap id).filter (fun nbr => nbr ∈ peers) ++ if nbr ∈ peers then [nbr] else [] := by
    rw [List.filterMap_append,List.filter_append]
    congr 1
    by_cases suspended : nbr ∈ peers <;> simp [suspended]
  have again : nbr ∈ first_seen peers nbrs ↔ nbr ∈ (nbrs.filterMap id).filter fun nbr => nbr ∈ peers := by
    simp only [first_seen,List.mem_reverse,List.mem_dedup]
  by_cases suspended : nbr ∈ peers
  · rw [if_pos suspended] at scanned
    simp only [suspended,not_true,false_or,again]
    unfold first_seen
    rw [scanned,dedup_snoc]
  · rw [if_neg suspended,List.append_nil] at scanned
    simp only [suspended,not_false_eq_true,true_or,if_true]
    unfold first_seen
    rw [scanned]

/-- The scan keeps the first occurrence of every suspended peer, and the array is long enough. -/
theorem collect_first_seen {members : List Member} {capacity : Nat} (nbrs : List (Option Nbr))
    (room : (suspended_set members).length ≤ capacity) :
    nbrs.foldlM (suspended_peer_add members capacity) {} =
      some { peers := first_seen (suspended_set members) nbrs, seen := first_seen (suspended_set members) nbrs } := by
  induction nbrs using List.reverseRecOn with
  | nil => rfl
  | append_singleton nbrs last ih =>
    rw [List.foldlM_append,ih]
    cases last with
    | none => simp [suspended_peer_add,first_seen]
    | some nbr =>
      rw [first_seen_snoc]
      by_cases passed : nbr ∉ suspended_set members ∨ nbr ∈ first_seen (suspended_set members) nbrs
      · simp [suspended_peer_add,passed]
      · have suspended : nbr ∈ suspended_set members := by
          by_contra outside
          exact passed (.inl outside)
        have new : nbr ∉ first_seen (suspended_set members) nbrs := fun seen => passed (.inr seen)
        have distinct : (nbr :: first_seen (suspended_set members) nbrs).Nodup :=
          List.nodup_cons.mpr ⟨new,List.nodup_reverse.mpr (List.nodup_dedup _)⟩
        have within : nbr :: first_seen (suspended_set members) nbrs ⊆ suspended_set members := by
          intro other member
          rcases List.mem_cons.mp member with rfl | earlier
          · exact suspended
          · simp only [first_seen,List.mem_reverse,List.mem_dedup,List.mem_filter,decide_eq_true_eq] at earlier
            exact earlier.2
        have bounded := (List.subperm_of_subset distinct within).length_le
        rw [List.length_cons] at bounded
        simp [suspended_peer_add,passed,show (first_seen (suspended_set members) nbrs).length < capacity by omega]

theorem suspended_set_room (members : List Member) : (suspended_set members).length ≤ peers_capacity members := by
  unfold suspended_set peers_capacity
  rw [List.length_map]
  refine List.Sublist.length_le (List.monotone_filter_right members ?_)
  intro member suspended
  simp only [Member.suspended_peer,Bool.and_eq_true] at suspended ⊢
  exact ⟨suspended.1.1,suspended.2⟩

/-- The array never overflows, and holds each suspended peer that owns a route or owes a REPLY once. -/
theorem suspended_peers_collect_eq (members : List Member) (pd : PrefixDescriptor) :
    suspended_peers_collect members (peers_capacity members) pd =
      some { peers := suspended_peers (suspended_set members) pd, seen := suspended_peers (suspended_set members) pd } := by
  have listed : first_seen (suspended_set members) (pd.routes.map (·.adv_router) ++ pd.rij.map fun status => some status.neighbor) =
      suspended_peers (suspended_set members) pd := by
    simp only [first_seen,suspended_peers,List.filterMap_append,List.filterMap_map,Function.comp_def,id]
    rw [List.filterMap_eq_map' (f := fun status : ReplyStatus => status.neighbor)]
  rw [suspended_peers_collect,collect_first_seen _ (suspended_set_room members),listed]

/-! ## Performing a teardown -/

section Perform
variable {machine : Machine} {start : Instance} {id : Nat} {pd : PrefixDescriptor} {call : Call} {peers : List Nbr}

/-- The two calls of the batch. -/
def Call.Teardown (call : Call) : Prop :=
  (∃ nbr, nbr ≠ .self ∧ call = .neighbor_down nbr) ∨ ∃ nbrs, call = .suspended_origin_clear nbrs

/-- What the code of a teardown leaves of its destination. -/
structure TornDown (pd next : PrefixDescriptor) (out : List Effect) : Prop where
  contained : Contained pd.id out
  tidy : Tidy next
  id : next.id = pd.id
  destination : next.destination = pd.destination

theorem teardown_exec {env : Env} {next : PrefixDescriptor} {out : List Effect} (tidy : Tidy pd) (teardown : call.Teardown)
    (done : exec env pd call = some (next, out)) : TornDown pd next out := by
  have contained : Contained pd.id out := by
    rcases teardown with ⟨nbr,peer,rfl⟩ | ⟨nbrs,rfl⟩
    · exact (exec_loses rfl done).2
    · obtain ⟨rfl,rfl⟩ := exec_some done
      exact .nil
  exact ⟨contained,exec_tidy tidy done,(exec_identity done).id,(exec_identity done).destination⟩

/-- What a successful call leaves behind. -/
structure Performed (machine : Machine) (id : Nat) (call : Call) (next : PrefixDescriptor) (out : List Effect) : Prop where
  sound : (machine.perform id call).state.fault = none
  env : (machine.perform id call).state.env = machine.state.env
  descriptor : ∀ other, (machine.perform id call).state.descriptor other =
    if other = id then some next else machine.state.descriptor other
  posted : ∃ prefixes, (machine.perform id call).state = ({ machine.state with prefixes } : Instance).effects next out

theorem perform_performed (sound : machine.state.fault = none) (found : machine.state.descriptor id = some pd)
    {next : PrefixDescriptor} {out : List Effect} (done : exec machine.state.env pd call = some (next, out)) :
    Performed machine id call next out := by
  have state : (machine.perform id call).state =
      ({ machine.state with prefixes := machine.state.prefixes.map fun pd : PrefixDescriptor =>
          if pd.id = id then next else pd } : Instance).effects next out := by
    rw [Machine.perform,Machine.act_state sound]
    simp only [Instance.act,Instance.perform,found,done]
  constructor
  · rw [state,(effects_next_id next out _).2]
    exact sound
  · rw [state,effects_env]
    rfl
  · intro other
    rw [state,descriptor_of_prefixes (effects_prefixes next out _)]
    exact descriptor_write found (exec_identity done).id other
  · exact ⟨_,state⟩

/-- Behind a fault nothing is done any more. -/
theorem perform_faulty (faulty : machine.state.fault ≠ none) (id : Nat) (call : Call) : machine.perform id call = machine := by
  have stopped : machine.state.fault.isSome := Option.isSome_iff_ne_none.mpr faulty
  simp only [Machine.perform,Machine.act,stopped,if_true]

/-- A call succeeds, or changes nothing but the fault. -/
theorem perform_cases (found : machine.state.descriptor id = some pd) (call : Call) :
    ((machine.perform id call).state.fault ≠ none ∧ ∃ fault, (machine.perform id call).state = { machine.state with fault }) ∨
      machine.state.fault = none ∧ ∃ next out, exec machine.state.env pd call = some (next, out) ∧
        Performed machine id call next out := by
  by_cases sound : machine.state.fault = none
  · cases done : exec machine.state.env pd call with
    | some result => exact .inr ⟨sound,result.1,result.2,rfl,perform_performed sound found done⟩
    | none =>
      have failed : (machine.perform id call).state = { machine.state with fault := some .null } := by
        rw [Machine.perform,Machine.act_state sound]
        simp only [Instance.act,Instance.perform,found,done,Instance.fail]
      exact .inl ⟨by rw [failed]; simp,_,failed⟩
  · rw [perform_faulty sound]
    exact .inl ⟨sound,machine.state.fault,rfl⟩

/-- Every descriptor is still there, in order and under its destination. -/
structure Stable (start now : Instance) : Prop where
  env : now.env = start.env
  stored : ∀ id pd, start.descriptor id = some pd → ∃ next, now.descriptor id = some next ∧ Tidy next ∧
    next.destination = pd.destination

theorem Stable.perform (stable : Stable start machine.state) (present : start.descriptor id = some pd) (teardown : call.Teardown) :
    Stable start (machine.perform id call).state := by
  obtain ⟨current,found,tidy,same⟩ := stable.stored id pd present
  rcases perform_cases found call with ⟨_,fault,failed⟩ | ⟨_,next,out,done,performed⟩
  · rw [failed]
    exact ⟨stable.env,stable.stored⟩
  · have torn := teardown_exec tidy teardown done
    refine ⟨performed.env.trans stable.env,fun other stored known => ?_⟩
    rw [performed.descriptor]
    by_cases here : other = id
    · subst here
      have equal : pd = stored := Option.some.inj (present.symm.trans known)
      subst equal
      exact ⟨next,if_pos rfl,torn.tidy,torn.destination.trans same⟩
    · rw [if_neg here]
      exact stable.stored other stored known

/-- What the batch and the teardown of one neighbor after the other must agree in: the descriptor, and what is posted for it. -/
def Instance.outlook (eigrp : Instance) (id : Nat) (destination : Prefix) : Option PrefixDescriptor × Option RibRoute × List Nat :=
  (eigrp.descriptor id, eigrp.posted destination id)

/-- A call on one destination leaves the others alone. -/
theorem perform_elsewhere {other : Nat} {destination : Prefix} (stable : Stable start machine.state)
    (present : start.descriptor id = some pd) (different : pd.destination ≠ destination) (elsewhere : id ≠ other) (teardown : call.Teardown) :
    (machine.perform id call).state.outlook other destination = machine.state.outlook other destination := by
  obtain ⟨current,found,tidy,same⟩ := stable.stored id pd present
  rcases perform_cases found call with ⟨_,fault,failed⟩ | ⟨_,next,out,done,performed⟩
  · rw [failed]
    rfl
  · have torn := teardown_exec tidy teardown done
    obtain ⟨prefixes,state⟩ := performed.posted
    have current_id := (descriptor_mem found).2
    unfold Instance.outlook
    rw [performed.descriptor,if_neg (Ne.symm elsewhere),state]
    congr 1
    refine effects_elsewhere ?_ ?_ (torn.id ▸ torn.contained)
    · rw [torn.id,current_id]
      exact elsewhere
    · rw [torn.destination,same]
      exact different

end Perform

/-! ## One destination, in the batch and by itself -/

section Twins
variable {first second machine : Machine} {start : Instance} {id : Nat} {target : Prefix} {pd : PrefixDescriptor} {nbrs : List Nbr} {hidden : Bool}

/-- The descriptor as the batch has it, where the origin may have been forgotten before. -/
def concealed (hidden : Bool) (pd : PrefixDescriptor) : PrefixDescriptor := if hidden then pd.orphaned else pd

/-- The two instances have the destination in common, but for an origin that is still to be forgotten in the second one. -/
structure Twin (hidden : Bool) (id : Nat) (destination : Prefix) (left : List Nbr) (first second : Instance) : Prop where
  first_sound : first.fault = none
  second_sound : second.fault = none
  env : first.env = second.env
  stored : ∃ pd, Tidy pd ∧ pd.destination = destination ∧ second.descriptor id = some pd ∧
    first.descriptor id = some (concealed hidden pd) ∧ first.posted destination id = second.posted destination id ∧
      (hidden → ∀ nbr, pd.query_origin = some nbr → nbr ∈ left)

/-- A teardown succeeds on both sides or on neither. -/
theorem Twin.step {nbr : Nbr} (peer : nbr ≠ .self) (twin : Twin hidden id target (nbr :: nbrs) first.state second.state) :
    ((first.perform id (.neighbor_down nbr)).state.fault ≠ none ∧ (second.perform id (.neighbor_down nbr)).state.fault ≠ none) ∨
      Twin hidden id target nbrs (first.perform id (.neighbor_down nbr)).state (second.perform id (.neighbor_down nbr)).state := by
  obtain ⟨first_sound,second_sound,env,pd,tidy,rfl,found,twin_found,posted,waiting⟩ := twin
  have current_id := (descriptor_mem found).2
  have concealed_exec : exec first.state.env (concealed hidden pd) (.neighbor_down nbr) =
      (exec second.state.env pd (.neighbor_down nbr)).map fun result =>
        (concealed hidden result.1, if hidden then result.2.filter fun effect => !effect.replies else result.2) := by
    rw [env]
    cases hidden with
    | false => exact Option.map_id'.symm
    | true => exact neighbor_down_orphaned second.state.env pd nbr
  rcases perform_cases found (.neighbor_down nbr) with ⟨failed,_⟩ | ⟨_,next,out,done,performed⟩
  · refine .inl ⟨?_,failed⟩
    rcases perform_cases twin_found (.neighbor_down nbr) with ⟨twin_failed,_⟩ | ⟨_,next,out,done,_⟩
    · exact twin_failed
    · rw [concealed_exec] at done
      obtain ⟨result,second_done,_⟩ := Option.map_eq_some_iff.mp done
      exact absurd (perform_performed second_sound found second_done).sound failed
  · have torn := teardown_exec tidy (.inl ⟨nbr,peer,rfl⟩) done
    rw [done,Option.map_some] at concealed_exec
    have twin_performed := perform_performed first_sound twin_found concealed_exec
    obtain ⟨prefixes,state⟩ := performed.posted
    obtain ⟨twin_prefixes,twin_state⟩ := twin_performed.posted
    have number := torn.id
    have destination := torn.destination
    refine .inr ⟨twin_performed.sound,performed.sound,?_,next,torn.tidy,destination,?_,?_,?_,?_⟩
    · rw [twin_performed.env,performed.env,env]
    · rw [performed.descriptor,if_pos rfl]
    · rw [twin_performed.descriptor,if_pos rfl]
    · rw [state,twin_state,← destination,← current_id,← number]
      rw [← destination,← current_id,← number] at posted
      have accepts : first.state.rib_accepts = second.state.rib_accepts := congrArg Env.rib_accepts env
      have contained : Contained next.id out := number.symm ▸ torn.contained
      have heard (one two : Instance) (other : PrefixDescriptor) := @effects_posted one two next other out
      cases hidden with
      | true => exact heard { first.state with prefixes := twin_prefixes } { second.state with prefixes } next.orphaned rfl rfl contained accepts posted
      | false =>
        have answered := heard { first.state with prefixes := twin_prefixes } { first.state with prefixes := twin_prefixes } next
          rfl rfl contained rfl rfl
        have shared := heard { first.state with prefixes := twin_prefixes } { second.state with prefixes } next rfl rfl contained accepts posted
        exact answered.symm.trans shared
    · intro shown other origin
      rcases neighbor_down_origin done with forgotten | ⟨same,different⟩
      · rw [forgotten] at origin
        cases origin
      · rw [same] at origin
        rcases List.mem_cons.mp (waiting shown other origin) with rfl | rest
        · exact absurd origin different
        · exact rest

theorem down_loop_faulty (faulty : machine.state.fault ≠ none) (nbrs : List Nbr) :
    nbrs.foldl (fun machine nbr => machine.perform id (.neighbor_down nbr)) machine = machine := by
  induction nbrs with
  | nil => rfl
  | cons nbr nbrs ih => rwa [List.foldl_cons,perform_faulty faulty]

theorem Twin.loop (named : ∀ nbr ∈ nbrs, nbr ≠ .self) (twin : Twin hidden id target nbrs first.state second.state) :
    ((nbrs.foldl (fun machine nbr => machine.perform id (.neighbor_down nbr)) first).state.fault ≠ none ∧
      (nbrs.foldl (fun machine nbr => machine.perform id (.neighbor_down nbr)) second).state.fault ≠ none) ∨
    Twin hidden id target [] (nbrs.foldl (fun machine nbr => machine.perform id (.neighbor_down nbr)) first).state
      (nbrs.foldl (fun machine nbr => machine.perform id (.neighbor_down nbr)) second).state := by
  induction nbrs generalizing first second with
  | nil => exact .inr twin
  | cons nbr nbrs ih =>
    rcases twin.step (named nbr List.mem_cons_self) with ⟨failed,second_failed⟩ | next
    · refine .inl ⟨?_,?_⟩
      · rwa [List.foldl_cons,down_loop_faulty failed]
      · rwa [List.foldl_cons,down_loop_faulty second_failed]
    · exact ih (fun other member => named other (List.mem_cons_of_mem _ member)) next

/-- Peers that neither own a route nor owe a REPLY are only forgotten. -/
theorem idle_loop (sound : machine.state.fault = none) (tidy : Tidy pd) (found : machine.state.descriptor id = some pd)
    (idle : ∀ nbr ∈ nbrs, ¬ Involved pd nbr) :
    ∃ origin, (origin = none ∨ origin = pd.query_origin) ∧ (∀ nbr ∈ nbrs, origin ≠ some nbr) ∧
      ((∀ nbr ∈ nbrs, pd.query_origin ≠ some nbr) → origin = pd.query_origin) ∧
        let after := (nbrs.foldl (fun machine nbr => machine.perform id (.neighbor_down nbr)) machine).state
        after.fault = none ∧ after.env = machine.state.env ∧ after.descriptor id = some { pd with query_origin := origin } ∧
          after.posted pd.destination id = machine.state.posted pd.destination id := by
  induction nbrs generalizing machine pd with
  | nil => exact ⟨pd.query_origin,.inr rfl,by simp,fun _ => rfl,sound,rfl,found,rfl⟩
  | cons nbr nbrs ih =>
    have alone := idle nbr List.mem_cons_self
    have missing : prefix_descriptor_lookup pd nbr = none := by
      refine List.find?_eq_none.mpr fun route member owner => ?_
      exact alone (.inl ⟨route,member,by simpa using owner⟩)
    have silent : ¬ reply_status_pending pd nbr := fun pending => alone (.inr (reply_status_pending_iff.mp pending))
    have done : exec machine.state.env pd (.neighbor_down nbr) =
        some ({ pd with query_origin := if pd.query_origin = some nbr then none else pd.query_origin }, []) :=
      neighbor_down_idle missing silent
    have performed := perform_performed sound found done
    obtain ⟨prefixes,state⟩ := performed.posted
    have posted : (machine.perform id (.neighbor_down nbr)).state.posted pd.destination id = machine.state.posted pd.destination id := by
      rw [state]
      rfl
    have left : ∀ other ∈ nbrs, ¬ Involved { pd with query_origin := if pd.query_origin = some nbr then none else pd.query_origin } other :=
      fun other member => idle other (List.mem_cons_of_mem _ member)
    have next := performed.descriptor id
    rw [if_pos rfl] at next
    obtain ⟨origin,kept,apart,same,clean,env,stored,still⟩ := @ih (machine.perform id (.neighbor_down nbr))
      { pd with query_origin := if pd.query_origin = some nbr then none else pd.query_origin }
      performed.sound ⟨tidy.numbers,tidy.bounded⟩ next left
    dsimp only at kept same
    refine ⟨origin,?_,?_,?_,clean,env.trans performed.env,stored,still.trans posted⟩
    · rcases kept with gone | kept
      · exact .inl gone
      · by_cases here : pd.query_origin = some nbr
        · rw [if_pos here] at kept
          exact .inl kept
        · rw [if_neg here] at kept
          exact .inr kept
    · intro other member
      rcases List.mem_cons.mp member with rfl | later
      · rcases kept with gone | kept
        · rw [gone]
          simp
        · rw [kept]
          split
          · simp
          · assumption
      · exact apart other later
    · intro unknown
      have here := unknown nbr List.mem_cons_self
      rw [if_neg here] at same
      exact same fun other member => unknown other (List.mem_cons_of_mem _ member)

end Twins

/-! ## The batch -/

/-- The body of `eigrp_topology_suspended_neighbors_down`; `none` is a failed assertion. -/
def suspended_prefix_down (members : List Member) (machine : Machine) (id : Nat) : Option Machine :=
  let machine := machine.perform id (.suspended_origin_clear (suspended_set members))
  match machine.state.descriptor id with
  | none => some machine
  | some pd => (suspended_peers_collect members (peers_capacity members) pd).map fun batch =>
      batch.peers.foldl (fun machine nbr => machine.perform id (.neighbor_down nbr)) machine

/-- `eigrp_topology_suspended_neighbors_down`, called with the array that `eigrp_pfxlimits_nbr_update` allocates. -/
def suspended_neighbors_down (members : List Member) (machine : Machine) : Option Machine :=
  if peers_capacity members = 0 then some machine
  else (machine.state.topology_table.foldlM (suspended_prefix_down members) machine).map (send_all none)

/-- One destination of the batch, without the array. -/
def prefix_batch (peers : List Nbr) (machine : Machine) (id : Nat) : Machine :=
  let machine := machine.perform id (.suspended_origin_clear peers)
  match machine.state.descriptor id with
  | none => machine
  | some pd => (suspended_peers peers pd).foldl (fun machine nbr => machine.perform id (.neighbor_down nbr)) machine

/-- The body of `eigrp_topology_neighbor_down` for one destination, for one peer after the other. -/
def prefix_neighbors_down (id : Nat) (nbrs : List Nbr) (machine : Machine) : Machine :=
  nbrs.foldl (fun machine nbr => machine.perform id (.neighbor_down nbr)) machine

section Batches
variable {machine : Machine} {start : Instance} {id : Nat} {pd : PrefixDescriptor} {members : List Member} {peers : List Nbr}

theorem suspended_prefix_down_eq (members : List Member) (machine : Machine) (id : Nat) :
    suspended_prefix_down members machine id = some (prefix_batch (suspended_set members) machine id) := by
  unfold suspended_prefix_down prefix_batch
  dsimp only
  split
  · rfl
  · rw [suspended_peers_collect_eq]
    rfl

theorem suspended_prefixes_down_eq (members : List Member) (ids : List Nat) (machine : Machine) :
    ids.foldlM (suspended_prefix_down members) machine = some (ids.foldl (prefix_batch (suspended_set members)) machine) := by
  induction ids generalizing machine with
  | nil => rfl
  | cons id ids ih =>
    rw [List.foldlM_cons,suspended_prefix_down_eq]
    exact ih _

/-- With room in the array the scan is the event of the instance. -/
theorem suspended_neighbors_down_eq (room : peers_capacity members ≠ 0) :
    suspended_neighbors_down members machine = some (topology_suspended_neighbors_down (suspended_set members) machine) := by
  rw [suspended_neighbors_down,if_neg room,suspended_prefixes_down_eq]
  rfl

theorem down_loop_stable (stable : Stable start machine.state) (present : start.descriptor id = some pd)
    {nbrs : List Nbr} (named : ∀ nbr ∈ nbrs, nbr ≠ .self) :
    Stable start (nbrs.foldl (fun machine nbr => machine.perform id (.neighbor_down nbr)) machine).state := by
  induction nbrs generalizing machine with
  | nil => exact stable
  | cons nbr nbrs ih =>
    have first := stable.perform present (.inl ⟨nbr,named nbr List.mem_cons_self,rfl⟩)
    exact ih first fun other member => named other (List.mem_cons_of_mem _ member)

theorem down_loop_elsewhere {other : Nat} {destination : Prefix} (stable : Stable start machine.state)
    (present : start.descriptor id = some pd) (different : pd.destination ≠ destination) (elsewhere : id ≠ other)
    {nbrs : List Nbr} (named : ∀ nbr ∈ nbrs, nbr ≠ .self) :
    (nbrs.foldl (fun machine nbr => machine.perform id (.neighbor_down nbr)) machine).state.outlook other destination =
      machine.state.outlook other destination := by
  induction nbrs generalizing machine with
  | nil => rfl
  | cons nbr nbrs ih =>
    have teardown : (Call.neighbor_down nbr).Teardown := .inl ⟨nbr,named nbr List.mem_cons_self,rfl⟩
    have rest := ih (stable.perform present teardown) fun other member => named other (List.mem_cons_of_mem _ member)
    exact rest.trans (perform_elsewhere stable present different elsewhere teardown)

theorem suspended_peers_named (named : ∀ nbr ∈ peers, nbr ≠ .self) (pd : PrefixDescriptor) :
    ∀ nbr ∈ suspended_peers peers pd, nbr ≠ .self := fun nbr member => named nbr (mem_suspended_peers.mp member).1

theorem prefix_batch_stable (stable : Stable start machine.state) (present : start.descriptor id = some pd)
    (named : ∀ nbr ∈ peers, nbr ≠ .self) : Stable start (prefix_batch peers machine id).state := by
  have cleared := stable.perform present (.inr ⟨peers,rfl⟩)
  unfold prefix_batch
  dsimp only
  split
  · exact cleared
  · exact down_loop_stable cleared present (suspended_peers_named named _)

theorem prefix_batch_elsewhere {other : Nat} {destination : Prefix} (stable : Stable start machine.state)
    (present : start.descriptor id = some pd) (different : pd.destination ≠ destination) (elsewhere : id ≠ other)
    (named : ∀ nbr ∈ peers, nbr ≠ .self) :
    (prefix_batch peers machine id).state.outlook other destination = machine.state.outlook other destination := by
  have teardown : (Call.suspended_origin_clear peers).Teardown := .inr ⟨peers,rfl⟩
  have cleared := perform_elsewhere stable present different elsewhere teardown
  unfold prefix_batch
  dsimp only
  split
  · exact cleared
  · exact (down_loop_elsewhere (stable.perform present teardown) present different elsewhere (suspended_peers_named named _)).trans cleared

/-- Destinations that are distinct from the one in question pass by without effect on it. -/
theorem prefixes_batch_elsewhere {other : Nat} {destination : Prefix} (stable : Stable start machine.state) {ids : List Nat}
    (apart : ∀ id ∈ ids, id ≠ other ∧ ∃ pd, start.descriptor id = some pd ∧ pd.destination ≠ destination)
    (named : ∀ nbr ∈ peers, nbr ≠ .self) :
    Stable start (ids.foldl (prefix_batch peers) machine).state ∧
      (ids.foldl (prefix_batch peers) machine).state.outlook other destination = machine.state.outlook other destination := by
  induction ids generalizing machine with
  | nil => exact ⟨stable,rfl⟩
  | cons id ids ih =>
    obtain ⟨elsewhere,pd,present,different⟩ := apart id List.mem_cons_self
    obtain ⟨last,same⟩ := ih (prefix_batch_stable stable present named) fun other member => apart other (List.mem_cons_of_mem _ member)
    exact ⟨last,same.trans (prefix_batch_elsewhere stable present different elsewhere named)⟩

theorem scan_faulty (faulty : machine.state.fault ≠ none) {ids : List Nat} : ids.foldl (prefix_batch peers) machine = machine := by
  induction ids with
  | nil => rfl
  | cons id ids ih =>
    have idle : prefix_batch peers machine id = machine := by
      unfold prefix_batch
      rw [perform_faulty faulty]
      dsimp only
      split
      · rfl
      · exact down_loop_faulty faulty _
    rwa [List.foldl_cons,idle]

theorem send_all_kept (sound : machine.state.fault = none) (exception : Option Nat) :
    (send_all exception machine).state.fault = none ∧
      ∀ id destination, (send_all exception machine).state.outlook id destination = machine.state.outlook id destination := by
  have queried : (query_send_all machine).state.fault = none ∧
      ∀ id destination, (query_send_all machine).state.outlook id destination = machine.state.outlook id destination := by
    unfold query_send_all
    split
    · rw [Machine.other_state sound]
      exact ⟨sound,fun _ _ => rfl⟩
    · exact ⟨sound,fun _ _ => rfl⟩
  unfold send_all update_send_all_enqueue
  rw [Machine.other_state queried.1]
  exact ⟨queried.1,queried.2⟩

/-! ## One destination -/

/-- The peers one after the other, those first that neither own a route nor owe a REPLY. -/
def teardown_order (peers : List Nbr) (pd : PrefixDescriptor) : List Nbr :=
  peers.filter (fun nbr => nbr ∉ suspended_peers peers pd) ++ suspended_peers peers pd

theorem teardown_order_perm (distinct : peers.Nodup) (pd : PrefixDescriptor) : (teardown_order peers pd).Perm peers := by
  have chosen : (suspended_peers peers pd).Perm (peers.filter fun nbr => nbr ∈ suspended_peers peers pd) := by
    refine (List.perm_ext_iff_of_nodup (suspended_peers_nodup peers pd) (distinct.filter _)).mpr fun nbr => ?_
    simp only [List.mem_filter,decide_eq_true_eq]
    exact ⟨fun member => ⟨(mem_suspended_peers.mp member).1,member⟩,And.right⟩
  refine (List.perm_append_comm.trans (chosen.append_right _)).trans ?_
  have halves := List.filter_append_perm (fun nbr => decide (nbr ∈ suspended_peers peers pd)) peers
  simpa only [decide_not] using halves

/-- Forgetting the suspended origins leaves the routes and the pending replies alone, so that the same peers are collected. -/
theorem cleared_peers (peers : List Nbr) (pd : PrefixDescriptor) (query_origin : Option Nbr) :
    suspended_peers peers { pd with query_origin } = suspended_peers peers pd := rfl

/-- The descriptor that the batch begins with is the one that the other peers leave behind, but for the origin. -/
theorem cleared_concealed {origin : Option Nbr} (kept : origin = none ∨ origin = pd.query_origin)
    (unmet : (∀ nbr ∈ peers, nbr ∉ suspended_peers peers pd → pd.query_origin ≠ some nbr) → origin = pd.query_origin) :
    ({ pd with query_origin := pd.query_origin.filter fun nbr => nbr ∉ peers } : PrefixDescriptor) =
      concealed (pd.query_origin.any fun nbr => nbr ∈ peers) { pd with query_origin := origin } := by
  cases asked : pd.query_origin with
  | none =>
    rw [asked] at kept
    obtain rfl : origin = none := kept.elim id id
    rfl
  | some nbr =>
    by_cases member : nbr ∈ peers
    · simp [concealed,member,PrefixDescriptor.orphaned]
    · have remains : origin = some nbr := by
        rw [← asked]
        refine unmet fun other inside _ same => ?_
        rw [asked] at same
        cases same
        exact member inside
      simp [concealed,member,remains]

/-- On one destination the batch fails if the teardowns one after the other do, and leaves the same behind if they do not. -/
theorem prefix_batch_matches {first second : Machine} (named : ∀ nbr ∈ peers, nbr ≠ .self)
    (clean : first.state.fault = none) (sound : second.state.fault = none) (env : first.state.env = second.state.env)
    (tidy : Tidy pd) (found : second.state.descriptor id = some pd)
    (same : first.state.outlook id pd.destination = second.state.outlook id pd.destination) :
    ((prefix_batch peers first id).state.fault = none ↔ (prefix_neighbors_down id (teardown_order peers pd) second).state.fault = none) ∧
      ((prefix_batch peers first id).state.fault = none → (prefix_batch peers first id).state.outlook id pd.destination =
        (prefix_neighbors_down id (teardown_order peers pd) second).state.outlook id pd.destination) := by
  obtain ⟨stored,posted⟩ := Prod.mk.inj same
  have present : first.state.descriptor id = some pd := stored.trans found
  -- the peers that the batch does not collect are only forgotten
  have idle : ∀ nbr ∈ peers.filter (fun nbr => nbr ∉ suspended_peers peers pd), ¬ Involved pd nbr := by
    intro nbr member involved
    obtain ⟨inside,left⟩ := List.mem_filter.mp member
    exact (by simpa using left : nbr ∉ suspended_peers peers pd) (mem_suspended_peers.mpr ⟨inside,involved⟩)
  obtain ⟨origin,kept,apart,unmet,idle_sound,idle_env,idle_found,idle_posted⟩ := idle_loop sound tidy found idle
  -- the batch forgets the origin at once
  have done : exec first.state.env pd (.suspended_origin_clear peers) =
      some ({ pd with query_origin := pd.query_origin.filter fun nbr => nbr ∉ peers }, []) := rfl
  have performed := perform_performed clean present done
  obtain ⟨prefixes,state⟩ := performed.posted
  have cleared := performed.descriptor id
  rw [if_pos rfl] at cleared
  have cleared_posted : (first.perform id (.suspended_origin_clear peers)).state.posted pd.destination id =
      second.state.posted pd.destination id := by
    rw [state,← posted]
    rfl
  have hidden : ({ pd with query_origin := pd.query_origin.filter fun nbr => nbr ∉ peers } : PrefixDescriptor) =
      concealed (pd.query_origin.any fun nbr => nbr ∈ peers) { pd with query_origin := origin } := by
    refine cleared_concealed kept fun outside => unmet fun nbr member => ?_
    obtain ⟨inside,left⟩ := List.mem_filter.mp member
    exact outside nbr inside (by simpa using left)
  have batch : prefix_batch peers first id =
      (suspended_peers peers pd).foldl (fun machine nbr => machine.perform id (.neighbor_down nbr))
        (first.perform id (.suspended_origin_clear peers)) := by
    unfold prefix_batch
    simp only [cleared,cleared_peers]
  rw [prefix_neighbors_down,teardown_order,List.foldl_append,batch]
  generalize (peers.filter fun nbr => nbr ∉ suspended_peers peers pd).foldl
    (fun machine nbr => machine.perform id (.neighbor_down nbr)) second = rest at idle_sound idle_env idle_found idle_posted ⊢
  have twin : Twin (pd.query_origin.any fun nbr => nbr ∈ peers) id pd.destination (suspended_peers peers pd)
      (first.perform id (.suspended_origin_clear peers)).state rest.state := by
    refine ⟨performed.sound,idle_sound,?_,{ pd with query_origin := origin },⟨tidy.numbers,tidy.bounded⟩,rfl,idle_found,?_,?_,?_⟩
    · rw [performed.env,idle_env,env]
    · rw [cleared,hidden]
    · exact cleared_posted.trans idle_posted.symm
    · intro asked nbr waits
      have waits : origin = some nbr := waits
      have here : pd.query_origin = some nbr := by
        rcases kept with gone | kept
        · rw [gone] at waits
          cases waits
        · exact kept ▸ waits
      have inside : nbr ∈ peers := by simpa [here] using asked
      by_contra left
      exact apart nbr (List.mem_filter.mpr ⟨inside,by simpa using left⟩) waits
  rcases twin.loop (suspended_peers_named named pd) with ⟨failed,second_failed⟩ | last_twin
  · exact ⟨iff_of_false failed second_failed,fun sound => absurd sound failed⟩
  obtain ⟨first_final,final_sound,_,last,_,_,last_found,twin_found,last_posted,waiting⟩ := last_twin
  refine ⟨iff_of_true first_final final_sound,fun _ => ?_⟩
  -- nobody is left to be forgotten
  have revealed : concealed (pd.query_origin.any fun nbr => nbr ∈ peers) last = last := by
    unfold concealed
    split
    · rename_i asked
      have gone : last.query_origin = none := by
        cases waits : last.query_origin with
        | none => rfl
        | some nbr => cases waiting asked nbr waits
      rw [PrefixDescriptor.orphaned,← gone]
    · rfl
  rw [Instance.outlook,Instance.outlook,twin_found,last_found,revealed,last_posted]

/-! ## Runs -/

/-- The adjacencies are taken down before the topology hears of it. -/
def nbrs_down_deferred (nbrs : List Nbr) (machine : Machine) : Machine :=
  nbrs.foldl (fun machine nbr => nbr_down_deferred nbr machine) machine

/-- What the batch does to a destination: it comes by it as the suspension left it, collects every suspended peer with a route or a
    pending REPLY once, and if it ends it leaves behind what the teardowns one after the other leave behind in some order. -/
structure Batched (members : List Member) (machine after : Machine) (id : Nat) (pd : PrefixDescriptor) : Prop where
  reached : ∃ before later middle, machine.state.topology_table = before ++ id :: later ∧
    before.foldlM (suspended_prefix_down members) machine = some middle ∧ middle.state.descriptor id = some pd
  collected : ∃ batch, suspended_peers_collect members (peers_capacity members) pd = some batch ∧ batch.peers.Nodup ∧
    ∀ nbr, nbr ∈ batch.peers ↔ nbr ∈ suspended_set members ∧ Involved pd nbr
  matched : after.state.fault = none →
    ∃ order : List Nbr, order.Perm (suspended_set members) ∧ (prefix_neighbors_down id order machine).state.fault = none ∧
    after.state.outlook id pd.destination = (prefix_neighbors_down id order machine).state.outlook id pd.destination

theorem suspended_set_nodup (distinct : (members.map (·.nbr)).Nodup) : (suspended_set members).Nodup :=
  distinct.sublist (List.filter_sublist.map _)

theorem suspended_set_named (named : ∀ member ∈ members, member.nbr ≠ .self) : ∀ nbr ∈ suspended_set members, nbr ≠ .self := by
  intro nbr member
  obtain ⟨peer,inside,rfl⟩ := List.mem_map.mp member
  exact named peer (List.mem_filter.mp inside).1

/-- The destinations of the table but one, and what the batch does to them, are no concern of that one. -/
theorem others_apart (numbered : Numbered start) (indexed : Indexed start) (allocated : Allocated start) {before later : List Nat}
    (table : start.topology_table = before ++ id :: later) (found : start.descriptor id = some pd) :
    ∀ other ∈ before ++ later, other ≠ id ∧ ∃ stored, start.descriptor other = some stored ∧ stored.destination ≠ pd.destination := by
  intro other member
  have distinct := numbered.nodup
  rw [table,List.nodup_middle] at distinct
  have different : other ≠ id := by
    rintro rfl
    exact (List.nodup_cons.mp distinct).1 member
  have linked : other ∈ start.topology_table := by
    rw [table]
    rcases List.mem_append.mp member with earlier | later
    · exact List.mem_append_left _ earlier
    · exact List.mem_append_right _ (List.mem_cons_of_mem _ later)
  obtain ⟨stored,present⟩ := Option.ne_none_iff_exists'.mp (allocated.table other linked)
  refine ⟨different,stored,present,fun same => different ?_⟩
  exact indexed.unique other linked id (by simp [table]) stored pd present found same

/-- The scan fails if the teardown of a destination does, in its order. -/
theorem scan_sound_iff (named : ∀ nbr ∈ peers, nbr ≠ .self) (sound : machine.state.fault = none)
    (tidy : ∀ id pd, machine.state.descriptor id = some pd → Tidy pd) {ids : List Nat} (distinct : ids.Nodup)
    (apart : ∀ id ∈ ids, ∀ other ∈ ids, id ≠ other → ∀ pd stored, machine.state.descriptor id = some pd →
      machine.state.descriptor other = some stored → pd.destination ≠ stored.destination)
    (present : ∀ id ∈ ids, ∃ pd, machine.state.descriptor id = some pd) {now : Machine} (stable : Stable machine.state now.state)
    (clean : now.state.fault = none) (same : ∀ id ∈ ids, ∀ pd, machine.state.descriptor id = some pd →
      now.state.outlook id pd.destination = machine.state.outlook id pd.destination) :
    (ids.foldl (prefix_batch peers) now).state.fault = none ↔ ∀ id ∈ ids, ∀ pd, machine.state.descriptor id = some pd →
      (prefix_neighbors_down id (teardown_order peers pd) machine).state.fault = none := by
  induction ids generalizing now with
  | nil => exact iff_of_true clean (by simp)
  | cons id ids ih =>
    obtain ⟨pd,found⟩ := present id List.mem_cons_self
    obtain ⟨fresh,rest⟩ := List.nodup_cons.mp distinct
    obtain ⟨alike,_⟩ := prefix_batch_matches named clean sound stable.env (tidy id pd found) found (same id List.mem_cons_self pd found)
    by_cases here : (prefix_batch peers now id).state.fault = none
    · have ahead := ih rest (fun id member other present => apart id (by simp [member]) other (by simp [present]))
        (fun id member => present id (by simp [member])) (prefix_batch_stable stable found named) here ?_
      · rw [List.foldl_cons,ahead]
        constructor
        · intro later other member stored known
          rcases List.mem_cons.mp member with rfl | member
          · obtain rfl := Option.some.inj (found.symm.trans known)
            exact alike.mp here
          · exact later other member stored known
        · exact fun all other member => all other (by simp [member])
      · intro other member stored known
        have elsewhere : id ≠ other := fun equal => fresh (equal ▸ member)
        have different := apart id List.mem_cons_self other (by simp [member]) elsewhere pd stored found known
        exact (prefix_batch_elsewhere stable found different elsewhere named).trans (same other (by simp [member]) stored known)
    · refine iff_of_false ?_ fun all => here (alike.mpr (all id List.mem_cons_self pd found))
      rw [List.foldl_cons,scan_faulty here]
      exact here

theorem batched (distinct : (members.map (·.nbr)).Nodup) (named : ∀ member ∈ members, member.nbr ≠ .self)
    (sound : machine.state.fault = none) (stable : Stable machine.state machine.state) (numbered : Numbered machine.state)
    (indexed : Indexed machine.state) (allocated : Allocated machine.state) :
    ∃ after, suspended_neighbors_down members machine = some after ∧
      (after.state.fault = none ↔ ∀ id ∈ machine.state.topology_table, ∀ pd, machine.state.descriptor id = some pd →
        (prefix_neighbors_down id (teardown_order (suspended_set members) pd) machine).state.fault = none) ∧
      ∀ id pd, id ∈ machine.state.topology_table → machine.state.descriptor id = some pd → Batched members machine after id pd := by
  have named := suspended_set_named named
  have tidy (id : Nat) (pd : PrefixDescriptor) (found : machine.state.descriptor id = some pd) : Tidy pd := by
    obtain ⟨_,stored,tidy,_⟩ := stable.stored id pd found
    obtain rfl := Option.some.inj (found.symm.trans stored)
    exact tidy
  have present (id : Nat) (linked : id ∈ machine.state.topology_table) :=
    Option.ne_none_iff_exists'.mp (allocated.table id linked)
  have scanned {ids : List Nat} (part : ids.Sublist machine.state.topology_table) :=
    @scan_sound_iff _ _ named sound tidy ids (numbered.nodup.sublist part)
      (fun id member other inside different pd stored found known same =>
        different (indexed.unique id (part.subset member) other (part.subset inside) pd stored found known same))
      (fun id member => present id (part.subset member)) machine stable sound (fun _ _ _ _ => rfl)
  -- what does not depend on whether there is an array
  have prepared {after : Machine} {id : Nat} {pd : PrefixDescriptor} (linked : id ∈ machine.state.topology_table)
      (found : machine.state.descriptor id = some pd)
      (matched : ∀ before later, machine.state.topology_table = before ++ id :: later → after.state.fault = none →
        ∃ order : List Nbr, order.Perm (suspended_set members) ∧ (prefix_neighbors_down id order machine).state.fault = none ∧
          after.state.outlook id pd.destination = (prefix_neighbors_down id order machine).state.outlook id pd.destination) :
      Batched members machine after id pd := by
    obtain ⟨before,later,table⟩ := List.append_of_mem linked
    have apart := others_apart numbered indexed allocated table found
    have passed := prefixes_batch_elsewhere stable (fun other member => apart other (List.mem_append_left _ member)) named
    refine ⟨⟨before,later,_,table,suspended_prefixes_down_eq members before machine,?_⟩,?_,matched before later table⟩
    · exact (Prod.mk.inj passed.2).1.trans found
    · exact ⟨_,suspended_peers_collect_eq members pd,suspended_peers_nodup _ pd,fun nbr => mem_suspended_peers⟩
  by_cases room : peers_capacity members = 0
  · have none := suspended_set_room members
    rw [room,Nat.le_zero,List.length_eq_zero_iff] at none
    refine ⟨machine,if_pos room,iff_of_true sound ?_,fun id pd linked found => prepared linked found fun _ _ _ _ => ⟨[],?_,sound,rfl⟩⟩
    · intro id _ pd _
      rw [none,(teardown_order_perm List.nodup_nil pd).eq_nil]
      exact sound
    · rw [none]
  · have whole := scanned (List.Sublist.refl _)
    have ended : (send_all none (machine.state.topology_table.foldl (prefix_batch (suspended_set members)) machine)).state.fault = none ↔
        (machine.state.topology_table.foldl (prefix_batch (suspended_set members)) machine).state.fault = none :=
      ⟨(send_all_responds none _).continues.sound,fun scanned => (send_all_kept scanned none).1⟩
    refine ⟨_,suspended_neighbors_down_eq room,ended.trans whole,fun id pd linked found => prepared linked found fun before later table final => ?_⟩
    have scan_sound := ended.mp final
    obtain ⟨_,kept⟩ := send_all_kept scan_sound none
    have apart := others_apart numbered indexed allocated table found
    obtain ⟨earlier,same⟩ := prefixes_batch_elsewhere stable (fun other member => apart other (List.mem_append_left _ member)) named
    have all := whole.mp scan_sound
    have clean := (scanned (table ▸ List.sublist_append_left before (id :: later))).mpr fun other member =>
      all other (table ▸ List.mem_append_left _ member)
    obtain ⟨alike,matches_here⟩ := prefix_batch_matches named clean sound earlier.env (tidy id pd found) found same
    have separate := all id linked pd found
    have rest := prefixes_batch_elsewhere (prefix_batch_stable earlier found named)
      (fun other member => apart other (List.mem_append_right _ member)) named
    refine ⟨teardown_order (suspended_set members) pd,teardown_order_perm (suspended_set_nodup distinct) pd,separate,?_⟩
    have scan : machine.state.topology_table.foldl (prefix_batch (suspended_set members)) machine =
        later.foldl (prefix_batch (suspended_set members))
          (prefix_batch (suspended_set members) (before.foldl (prefix_batch (suspended_set members)) machine) id) := by
      rw [table,List.foldl_append,List.foldl_cons]
    exact ((kept id pd.destination).trans (by rw [scan,rest.2])).trans (matches_here (alike.mpr separate))

theorem nbr_down_deferred_prefixes (nbr : Nbr) (machine : Machine) :
    (nbr_down_deferred nbr machine).state.prefixes = machine.state.prefixes := by
  unfold nbr_down_deferred Machine.other
  split
  · rfl
  · dsimp only [Recorded.record]
    split
    · rfl
    · split <;> rfl

theorem nbrs_down_deferred_prefixes (nbrs : List Nbr) (machine : Machine) :
    (nbrs_down_deferred nbrs machine).state.prefixes = machine.state.prefixes := by
  unfold nbrs_down_deferred
  induction nbrs generalizing machine with
  | nil => rfl
  | cons nbr nbrs ih => exact (ih _).trans (nbr_down_deferred_prefixes nbr machine)

/-- In every run, for every set of suspended peers: the batch never overflows its array, comes to its end exactly if the
    teardowns of its peers do on every destination, and does to every destination what they do in some order. -/
theorem suspended_batch_matches (metric : MetricConfig) (events : List Event) (down : List Nbr) (members : List Member)
    (distinct : (members.map (·.nbr)).Nodup) (named : ∀ member ∈ members, member.nbr ≠ .self)
    (sound : (nbrs_down_deferred down (run metric events)).state.fault = none) :
    ∃ after, suspended_neighbors_down members (nbrs_down_deferred down (run metric events)) = some after ∧
      (after.state.fault = none ↔ ∀ id ∈ (nbrs_down_deferred down (run metric events)).state.topology_table, ∀ pd,
        (nbrs_down_deferred down (run metric events)).state.descriptor id = some pd → (prefix_neighbors_down id
          (teardown_order (suspended_set members) pd) (nbrs_down_deferred down (run metric events))).state.fault = none) ∧
      ∀ id pd, id ∈ (nbrs_down_deferred down (run metric events)).state.topology_table →
        (nbrs_down_deferred down (run metric events)).state.descriptor id = some pd →
          Batched members (nbrs_down_deferred down (run metric events)) after id pd := by
  have responds : (run metric events).Responds (nbrs_down_deferred down (run metric events)) :=
    Recorded.Extends.foldl _ (fun machine nbr => nbr_down_deferred_responds nbr machine) _ _
  have kept := nbrs_down_deferred_prefixes down (run metric events)
  have tidy := @run_tidy metric events _ (.inl rfl)
  refine batched distinct named sound ⟨rfl,fun id pd found => ⟨pd,found,tidy pd ?_,rfl⟩⟩
    (responds.continues.table_edited.numbered (run_numbered metric events)) (responds.continues.indexed (run_indexed (.inl rfl)))
    (responds.allocated (run_allocated metric events))
  rw [← kept]
  exact (descriptor_mem found).1

end Batches

/-- A destination that is learned from two neighbors. -/
def learned_from_both : List Event :=
  two_neighbors ++ [.packet_receive (.peer 0 0) (route_packet .update 100), .packet_receive (.peer 1 1) (route_packet .update 100)]

/-- Both neighbors are suspended with their address family. A third one is under a limit of its own. -/
def suspended_pair : List Member :=
  [⟨.peer 0 0,true,false,true⟩,⟨.peer 1 1,true,false,true⟩,⟨.peer 1 2,true,true,true⟩]

theorem learned_from_both_matches : (nbrs_down_deferred [.peer 0 0,.peer 1 1] (run {} learned_from_both)).state.topology_table = [0] ∧
    ∃ after, suspended_neighbors_down suspended_pair (nbrs_down_deferred [.peer 0 0,.peer 1 1] (run {} learned_from_both)) = some after ∧
      after.state.fault = none ∧ ∀ id pd,
        id ∈ (nbrs_down_deferred [.peer 0 0,.peer 1 1] (run {} learned_from_both)).state.topology_table →
        (nbrs_down_deferred [.peer 0 0,.peer 1 1] (run {} learned_from_both)).state.descriptor id = some pd →
          Batched suspended_pair (nbrs_down_deferred [.peer 0 0,.peer 1 1] (run {} learned_from_both)) after id pd := by
  have table : (nbrs_down_deferred [.peer 0 0,.peer 1 1] (run {} learned_from_both)).state.topology_table = [0] := by decide +kernel
  obtain ⟨after,ended,sound,all⟩ := suspended_batch_matches {} learned_from_both [.peer 0 0,.peer 1 1] suspended_pair (by decide) (by decide)
    (by decide +kernel)
  refine ⟨table,after,ended,sound.mpr fun id member pd found => ?_,all⟩
  rw [table,List.mem_singleton] at member
  subst member
  have teardown : (((nbrs_down_deferred [.peer 0 0,.peer 1 1] (run {} learned_from_both)).state.descriptor 0).all fun pd =>
      (prefix_neighbors_down 0 (teardown_order (suspended_set suspended_pair) pd)
        (nbrs_down_deferred [.peer 0 0,.peer 1 1] (run {} learned_from_both))).state.fault.isNone) = true := by decide +kernel
  rw [found] at teardown
  simpa using teardown

end Eigrp
