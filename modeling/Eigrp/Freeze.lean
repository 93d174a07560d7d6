import Eigrp.Table
import Eigrp.Total

/-!
# The freeze of ACTIVE destinations

While a diffusing computation runs, the destination keeps its distances, its advertised vector, its
successors and the host's route. Four things break this: an interface that comes up adds its route to
an ACTIVE destination as a successor, a change of the administrative distances writes the host's route
whatever the state, a route in use may be refused the item by which a message links it again, and a
descriptor that the operator has cleared may still be handed to DUAL and then writes the route of its
successor in the table.
-/

namespace Eigrp
open Eigrp.Lib

/-! ## The frozen part -/

/-- What may not change during a computation, flags apart, with effects that do not reach the host. -/
structure Frozen (pd next : PrefixDescriptor) (out : List Effect) : Prop where
  distance : next.distance = pd.distance
  fdistance : next.fdistance = pd.fdistance
  rdistance : next.rdistance = pd.rdistance
  reported_metric : next.reported_metric = pd.reported_metric
  silent : ∀ effect ∈ out, effect.silent

section Frozen
variable {env : Env} {msg : Msg} {pd next : PrefixDescriptor} {after : RouteDescriptor} {nbr : Nbr} {packet : Opcode}
  {sender : Option Nbr} {out more : List Effect}

theorem Frozen.refl (pd : PrefixDescriptor) : Frozen pd pd [] := ⟨rfl,rfl,rfl,rfl,by simp⟩

theorem Frozen.trans {middle : PrefixDescriptor} (first : Frozen pd middle out) (second : Frozen middle next more) :
    Frozen pd next (out ++ more) where
  distance := second.distance.trans first.distance
  fdistance := second.fdistance.trans first.fdistance
  rdistance := second.rdistance.trans first.rdistance
  reported_metric := second.reported_metric.trans first.reported_metric
  silent := by
    intro effect member
    rcases List.mem_append.mp member with member | member
    · exact first.silent effect member
    · exact second.silent effect member

theorem Rerouted.frozen (rerouted : Rerouted pd next) : Frozen pd next [] :=
  ⟨rerouted.distance,rerouted.fdistance,rerouted.rdistance,rerouted.reported_metric,by simp⟩

theorem reply_send_silent (pd : PrefixDescriptor) (nbr : Option Nbr) (route : Option RouteDescriptor) (poison : Bool) :
    ∀ effect ∈ reply_send_route pd nbr route poison, effect.silent := by
  unfold reply_send_route
  split <;> simp [Effect.silent]

theorem active_non_successor_silent (pd : PrefixDescriptor) (nbr : Option Nbr) :
    ∀ effect ∈ active_non_successor_reply_send pd nbr, effect.silent := by
  unfold active_non_successor_reply_send
  split <;> exact reply_send_silent _ _ _ _

/-- An outcome that leaves the destination ACTIVE touches none of its routes. -/
theorem outcome_frozen (active : pd.state ≠ .passive) (still : next.state ≠ .passive)
    (outcome : Outcome env msg after pd next out) : Frozen pd next out ∧ next.routes = pd.routes := by
  cases outcome with
  | commit used passive found => exact absurd passive active
  | start passive other => exact absurd passive active
  | start_query passive query => exact absurd passive active
  | wait _ owed other =>
    refine ⟨⟨rfl,rfl,rfl,rfl,?_⟩,rfl⟩
    split
    · exact active_non_successor_silent _ _
    · simp
  | origin _ query successor => exact ⟨⟨rfl,rfl,rfl,rfl,by simp [fsm_event_qact,Effect.silent]⟩,rfl⟩
  | increase state states update => exact ⟨⟨rfl,rfl,rfl,rfl,by simp [Effect.silent]⟩,rfl⟩
  | last_reply odd reply owed => exact absurd (fsm_event_lr_finished env pd).state still
  | last_reply_feasible _ _ even reply owed done => exact absurd (fsm_event_lr_fcs_finished done).state still
  | last_reply_infeasible even reply owed =>
    simp only [fsm_event_lr_fcn] at still ⊢
    rcases diffuse_cases env { pd with state := if pd.state = .active_0 then .active_1 else .active_3 } with ⟨_,asked⟩ | ⟨_,ended⟩
    · rw [asked]
      exact ⟨⟨rfl,rfl,rfl,rfl,by simp [Effect.silent]⟩,rfl⟩
    · rw [ended] at still
      exact absurd (fsm_event_lr_finished env _).state still

theorem discharge_frozen (pd : PrefixDescriptor) (msg : Msg) (nbr : Option Nbr) :
    Frozen pd (discharge pd msg nbr) [] ∧ (discharge pd msg nbr).routes = pd.routes := by
  unfold discharge
  split
  · exact ⟨⟨rfl,rfl,rfl,rfl,by simp⟩,rfl⟩
  · exact ⟨.refl pd,rfl⟩

theorem reaction_frozen (active : pd.state ≠ .passive) (still : next.state ≠ .passive)
    (reaction : Reaction env pd packet sender nbr next out) : Frozen pd next out := by
  obtain ⟨current,msg,after,rerouted,_,_,_,outcome⟩ := reaction.reacts
  have waiting : (discharge current msg (some nbr)).state ≠ .passive := by
    rw [discharge_state,rerouted.state]
    exact active
  exact (rerouted.frozen.trans (discharge_frozen current msg _).1).trans (outcome_frozen waiting still outcome).1

theorem withdrawals_frozen (active : pd.state ≠ .passive) (withdrawals : Withdrawals env pd next out) :
    Frozen pd next out := by
  induction withdrawals with
  | nil => exact .refl _
  | cons reaction _ ih =>
    have middle := reaction_update_active active reaction
    exact (reaction_frozen active middle reaction).trans (ih middle)

end Frozen

/-! ## Calls -/

/-- The bookkeeping of a computation, which no descriptor's routes are touched by. -/
def Call.clerical (pd : PrefixDescriptor) : Call → Bool
  | .suspended_origin_clear _ | .query_rij_add _ | .action_clear _ | .active_timer_expired => true
  | .query_sent => pd.state = .passive ∨ pd.rij ≠ []
  | _ => false

/-- A message of the call costs a route in use its place in the queues. -/
def Call.costs (env : Env) (pd : PrefixDescriptor) : Call → Bool
  | .connected_interface_down ei =>
    pd.routes.any fun route => route.adv_router = some .self ∧ route.ei = some ei ∧ flag_lost env pd (withdrawal route) route
  | call => (call.handed env pd).any fun handed => flag_lost env handed.pd handed.msg handed.route

/-- The route that a replay writes for a destination with successors, and the routes it marks as installed. -/
def replay_route (env : Env) (pd : PrefixDescriptor) : RibRoute :=
  let successors := successors_max_read pd env.max_paths.toNat
  let external := (successors.head?.map (·.external)).getD false
  { nexthops := southbound_nexthops env successors, metric := pd.distance, admin_dist := admin_dist env external, external
    tag := if external then (successors.head?.map (·.extdata.tag)).getD 0 else 0 }

def replay_marks (env : Env) (pd : PrefixDescriptor) (route : RouteDescriptor) : Bool :=
  (successors_max_read pd env.max_paths.toNat).any fun chosen => chosen.id = route.id

/-- A replay finds nothing installed, or the host's route and the installed routes as it leaves them. -/
def replay_rests (eigrp : Instance) (pd : PrefixDescriptor) : Bool :=
  let route := replay_route eigrp.env pd
  !pd.routes.any (·.intable) ||
    pd.routes.any (·.successor) && pd.routes.all (fun route => route.intable == replay_marks eigrp.env pd route) &&
      (route.nexthops.isEmpty || !eigrp.rib_accepts route || eigrp.rib pd.destination == some route)

/-- DUAL works on descriptors of the table only, and what finds a destination ACTIVE is no interface that comes up, no
    replay that writes another route, and no message that costs a route in use its place. -/
def freeze_kept (eigrp : Instance) (call : Call) (pd : PrefixDescriptor) : Bool :=
  (pd.id ∈ eigrp.topology_table || call.clerical pd) &&
    (pd.state == .passive || match call with
      | .intf_up _ => false
      | .routes_replay => replay_rests eigrp pd
      | call => !call.costs eigrp.env pd)

section Calls
variable {env : Env} {pd next : PrefixDescriptor} {out : List Effect}

theorem active_timer_expired_silent (env : Env) (pd : PrefixDescriptor) :
    ∀ effect ∈ (fsm_active_timer_expired env pd).2, effect.silent := by
  unfold fsm_active_timer_expired
  dsimp only
  split
  · simp
  · split
    · simp [Effect.silent]
    · simp [siaquery_send,Effect.silent]

theorem clerical_silent {call : Call} (clerical : call.clerical pd) (done : exec env pd call = some (next, out)) :
    ∀ effect ∈ out, effect.silent := by
  cases call with
  | suspended_origin_clear nbrs =>
    obtain ⟨rfl,rfl⟩ := exec_some done
    simp
  | query_rij_add nbrs =>
    obtain ⟨rfl,rfl⟩ := exec_some done
    simp
  | action_clear action =>
    obtain ⟨rfl,rfl⟩ := exec_some done
    simp
  | active_timer_expired =>
    obtain ⟨rfl,rfl⟩ := exec_some done
    exact active_timer_expired_silent env pd
  | query_sent =>
    obtain ⟨rfl,rfl⟩ := exec_some done
    rcases fsm_query_sent_cases env pd with ⟨_,same⟩ | ⟨_,_,_,armed⟩ | ⟨active,empty,_⟩
    · simp [same]
    · simp [armed]
    · simp [Call.clerical,active,empty] at clerical
  | _ => cases clerical

theorem exec_frozen {call : Call} (active : pd.state ≠ .passive) (still : next.state ≠ .passive)
    (remote : ∀ ei, call ≠ .intf_up ei) (written : call ≠ .routes_replay) (working : call ≠ .retire)
    (done : exec env pd call = some (next, out)) : Frozen pd next out := by
  cases call with
  | update_receive nbr received =>
    rcases update_receive_cases done with ⟨rfl,rfl⟩ | reaction
    · exact .refl _
    · exact reaction_frozen active still reaction
  | query_receive nbr received =>
    rcases query_receive_cases done with ⟨_,rfl,rfl⟩ | ⟨passive,_⟩ | reaction
    · exact ⟨rfl,rfl,rfl,rfl,by simp [query_summary_reply_send,Effect.silent]⟩
    · exact absurd passive active
    · exact reaction_frozen active still reaction
  | reply_receive nbr received =>
    rcases reply_receive_cases done with ⟨_,rfl,rfl⟩ | ⟨_,reaction⟩
    · exact .refl _
    · exact reaction_frozen active still reaction
  | siaquery_receive nbr received =>
    obtain ⟨more,reaction,rfl⟩ := siaquery_receive_cases done
    have answered : Frozen next next (if next.state ≠ .passive then [siareply_send next nbr true] else []) :=
      ⟨rfl,rfl,rfl,rfl,by simp [still,siareply_send,Effect.silent]⟩
    exact (reaction_frozen active still reaction).trans answered
  | siareply_receive nbr received =>
    rcases siareply_receive_cases done with ⟨rfl,rfl,_⟩ | ⟨_,_,rfl,rfl⟩ | ⟨_,_,_,reaction⟩
    · exact .refl _
    · exact ⟨rfl,rfl,rfl,rfl,by simp⟩
    · exact reaction_frozen active still reaction
  | gr_ask nbr => exact reaction_frozen active still (gr_ask_reaction done)
  | neighbor_down nbr =>
    let forgotten : PrefixDescriptor := { pd with query_origin := if pd.query_origin = some nbr then none else pd.query_origin }
    have cleared : Frozen pd forgotten [] := ⟨rfl,rfl,rfl,rfl,by simp⟩
    rcases neighbor_lost_cases done with ⟨rfl,rfl,_⟩ | ⟨passive,_⟩ | ⟨_,reaction⟩
    · exact cleared
    · exact absurd passive active
    · exact cleared.trans (reaction_frozen active still reaction)
  | suspended_origin_clear nbrs =>
    obtain ⟨rfl,rfl⟩ := exec_some done
    exact ⟨rfl,rfl,rfl,rfl,by simp⟩
  | connected_interface_down ei => exact withdrawals_frozen active (connected_routes_down_withdrawals done)
  | intf_up ei => exact absurd rfl (remote ei)
  | redistributed_update source metric =>
    obtain ⟨middle,more,reaction,fate⟩ := redistributed_update_cases done
    have waiting := reaction_update_active active reaction
    have course := reaction_frozen active waiting reaction
    rcases fate with ⟨rfl,rfl⟩ | ⟨rfl,rfl⟩
    · exact course
    · simpa [redistributed_update_mark,waiting] using course
  | redistributed_remove source =>
    rcases redistributed_remove_cases done with ⟨rfl,rfl⟩ | reaction
    · exact .refl _
    · exact reaction_frozen active still reaction
  | metric_update =>
    obtain ⟨rfl,rfl⟩ := exec_some done
    simpa [metric_update_pd,active] using Frozen.refl pd
  | multipath_update =>
    obtain ⟨rfl,rfl⟩ := exec_some done
    simpa [multipath_update_pd,active] using Frozen.refl pd
  | traffic_share_update =>
    obtain ⟨rfl,rfl⟩ := exec_some done
    simpa [traffic_share_update_pd,active] using Frozen.refl pd
  | routes_replay => exact absurd rfl written
  | query_rij_add nbrs =>
    obtain ⟨rfl,rfl⟩ := exec_some done
    obtain ⟨_,same,_⟩ := reply_status_add_foldl nbrs pd
    rw [same]
    exact ⟨rfl,rfl,rfl,rfl,by simp⟩
  | query_sent =>
    obtain ⟨rfl,rfl⟩ := exec_some done
    rcases fsm_query_sent_cases env pd with ⟨passive,_⟩ | ⟨_,_,_,armed⟩ | ⟨_,_,ended⟩
    · exact absurd passive active
    · rw [armed]
      exact ⟨rfl,rfl,rfl,rfl,by simp⟩
    · rw [ended] at still
      exact absurd (fsm_event_lr_finished env pd).state still
  | action_clear action =>
    obtain ⟨rfl,rfl⟩ := exec_some done
    cases action <;> exact ⟨rfl,rfl,rfl,rfl,by simp⟩
  | retire => exact absurd rfl working
  | active_timer_expired =>
    obtain ⟨rfl,rfl⟩ := exec_some done
    obtain ⟨_,_,same,_⟩ := fsm_active_timer_expired_cases env pd
    have silent := active_timer_expired_silent env pd
    rw [same]
    exact ⟨rfl,rfl,rfl,rfl,silent⟩

/-! ### Flags -/

theorem SameFlags.of_routes (same : next.routes = pd.routes) : SameFlags pd next := by
  constructor <;> simp only [flagged,same]

theorem fsm_event_flags {msg : Msg} {route : RouteDescriptor} (consistent : Consistent pd route) (active : pd.state ≠ .passive)
    (still : next.state ≠ .passive) (kept : flag_lost env pd msg route = false)
    (done : fsm_event env pd msg route = some (next, out)) : SameFlags pd next := by
  obtain ⟨current,last,after,change,measured,outcome⟩ := fsm_event_outcome done
  have linking := update_distance_linking measured
  have waiting : (discharge current msg after.adv_router).state ≠ .passive := by
    rw [discharge_state,linking.rerouted.state]
    exact active
  have untouched := (outcome_frozen waiting still outcome).2.trans (discharge_frozen current msg after.adv_router).2
  exact (linking.flags consistent kept).trans (.of_routes untouched)

theorem handed_flags {handed : Handed} (same : handed.pd.state = pd.state) (order : InOrder pd handed.pd handed.route)
    (dual : handed.dual = true) (active : pd.state ≠ .passive) (still : next.state ≠ .passive)
    (kept : flag_lost env handed.pd handed.msg handed.route = false) (done : handed.run env = some next) : SameFlags pd next := by
  rw [Handed.run,if_pos dual] at done
  obtain ⟨⟨result,out⟩,event,rfl⟩ := Option.map_eq_some_iff.mp done
  exact order.flags.trans (fsm_event_flags order.consistent (same ▸ active) still kept event)

theorem connected_routes_down_flags {ids : List Nat} (tidy : Tidy pd) (distinct : ids.Nodup) (active : pd.state ≠ .passive)
    (kept : ∀ route ∈ pd.routes, route.id ∈ ids → flag_lost env pd (withdrawal route) route = false)
    (done : connected_routes_down env ids pd = some (next, out)) : SameFlags pd next := by
  induction ids generalizing pd out with
  | nil =>
    cases done
    exact .refl _
  | cons id ids ih =>
    simp only [List.nodup_cons] at distinct
    obtain ⟨route,found,done⟩ := Option.bind_eq_some_iff.mp done
    obtain ⟨⟨middle,first⟩,event,done⟩ := Option.bind_eq_some_iff.mp done
    obtain ⟨⟨last,rest⟩,loop,finished⟩ := Option.bind_eq_some_iff.mp done
    cases finished
    have member := List.mem_of_find?_eq_some found
    have number : route.id = id := by simpa using List.find?_some found
    have presented : Presented pd pd route := presented_self member
    have order := presented.order tidy
    have reaction : Reaction env pd .update (some .self) .self middle first := presented.reaction_other (by simp) event
    have waiting := reaction_update_active active reaction
    have flags : SameFlags pd middle :=
      fsm_event_flags order.consistent active waiting (kept route member (by simp [number])) event
    obtain ⟨current,_,after,change,measured,queues⟩ := fsm_event_linked event
    have linking := update_distance_linking measured
    have same : middle.id = current.id := (reaction_identity reaction).id.trans linking.rerouted.id.symm
    refine flags.trans (ih (reaction_tidy tidy reaction) distinct.2 waiting ?_ loop)
    intro later held listed
    have apart : later.id ≠ route.id := fun equal => distinct.1 (number ▸ equal ▸ listed)
    obtain ⟨other,present,bare⟩ := linking.origin queues held apart
    have equal := bare_number bare
    have refused := link_refused_kept linking queues same (equal ▸ apart) present held bare
    -- a flag that is still raised was raised before
    have raised (flag : RouteDescriptor → Bool) (agree : flagged flag middle = flagged flag pd) (up : flag later) : flag other := by
      have listed : later.id ∈ flagged flag pd := agree ▸ ⟨later,held,rfl,up⟩
      obtain ⟨found,stored,numbered,up⟩ := listed
      rwa [tidy.unique present stored (numbered.trans equal)] at up
    have lost := kept other present (by simp [← equal,listed])
    simp only [flag_lost,refused] at lost ⊢
    by_contra costs
    simp only [Bool.not_eq_false,Bool.and_eq_true,Bool.or_eq_true] at costs
    obtain ⟨denied,up⟩ := costs
    rcases up with up | up
    · simp [denied,raised _ flags.successor up] at lost
    · simp [denied,raised _ flags.intable up] at lost

theorem connected_interface_down_flags {ei : Nat} (tidy : Tidy pd) (active : pd.state ≠ .passive)
    (kept : (Call.connected_interface_down ei).costs env pd = false)
    (done : connected_interface_down_pd env pd ei = some (next, out)) : SameFlags pd next := by
  refine connected_routes_down_flags tidy ?_ active ?_ done
  · exact tidy.numbers.sublist (List.filter_sublist.map _)
  · intro route stored listed
    obtain ⟨other,member,number⟩ := List.mem_map.mp listed
    obtain ⟨present,placed⟩ := List.mem_filter.mp member
    obtain rfl := tidy.unique stored present number
    by_contra lost
    refine Bool.eq_false_iff.mp kept (List.any_eq_true.mpr ⟨other,present,?_⟩)
    simp only [decide_eq_true_eq] at placed ⊢
    exact ⟨placed.1,placed.2,by simpa using lost⟩

/-- A call that hands nothing to DUAL leaves the routes of an ACTIVE destination alone, or is one of five. -/
theorem quiet_flags {call : Call} (active : pd.state ≠ .passive) (quiet : call.handed env pd = none)
    (down : ∀ ei, call ≠ .connected_interface_down ei) (written : call ≠ .routes_replay) (working : call ≠ .retire)
    (still : next.state ≠ .passive) (done : exec env pd call = some (next, out)) : SameFlags pd next := by
  cases call with
  | update_receive nbr received =>
    simp only [Call.handed,received_message] at quiet
    simp only [exec,update_receive_dropped] at done
    split at quiet
    · rename_i dropped
      rw [if_pos dropped] at done
      cases done
      exact .refl _
    · cases quiet
  | query_receive nbr received =>
    rcases query_receive_cases done with ⟨_,rfl,rfl⟩ | ⟨passive,_⟩ | _
    · exact .refl _
    · exact absurd passive active
    · simp only [Call.handed,received_message,active,false_and,if_false] at quiet
      split at quiet
      · rename_i summarized
        obtain ⟨summary,aggregate⟩ := Option.isSome_iff_exists.mp summarized
        simp only [exec,query_receive_pd,aggregate] at done
        cases done
        exact .refl _
      · cases quiet
  | reply_receive nbr received =>
    simp only [Call.handed,received_message,active,if_false] at quiet
    cases quiet
  | siaquery_receive nbr received => cases quiet
  | siareply_receive nbr received =>
    simp only [Call.handed,received_message] at quiet
    simp only [exec,siareply_receive_pd] at done
    split at done
    · cases done
      exact .refl _
    · rename_i waiting
      split at done
      · cases done
        exact .of_routes rfl
      · rename_i final
        push Not at waiting
        rw [if_neg (by simp [waiting,final])] at quiet
        cases quiet
  | gr_ask nbr => cases quiet
  | neighbor_down nbr =>
    have missing := Option.map_eq_none_iff.mp quiet
    simp only [exec,neighbor_down_pd,neighbor_lost,missing] at done
    have forgotten : SameFlags pd { pd with query_origin := if pd.query_origin = some nbr then none else pd.query_origin } :=
      .of_routes rfl
    rcases fsm_neighbor_down_outcome done with ⟨rfl,rfl,_⟩ | ⟨_,_,outcome⟩
    · exact forgotten
    · refine forgotten.trans (.of_routes ?_)
      have waiting : (discharge { pd with query_origin := if pd.query_origin = some nbr then none else pd.query_origin }
          (neighbor_down_reply nbr) (some nbr)).state ≠ .passive := by
        rw [discharge_state]
        exact active
      exact (outcome_frozen waiting still outcome).2.trans (discharge_frozen _ _ _).2
  | suspended_origin_clear nbrs =>
    obtain ⟨rfl,rfl⟩ := exec_some done
    exact .of_routes rfl
  | connected_interface_down ei => exact absurd rfl (down ei)
  | intf_up ei => cases quiet
  | redistributed_update source metric => cases quiet
  | redistributed_remove source =>
    have missing := Option.map_eq_none_iff.mp quiet
    simp only [exec,redistributed_remove_pd,missing] at done
    cases done
    exact .refl _
  | metric_update =>
    obtain ⟨rfl,rfl⟩ := exec_some done
    simpa [metric_update_pd,active] using SameFlags.refl pd
  | multipath_update =>
    obtain ⟨rfl,rfl⟩ := exec_some done
    simpa [multipath_update_pd,active] using SameFlags.refl pd
  | traffic_share_update =>
    obtain ⟨rfl,rfl⟩ := exec_some done
    simpa [traffic_share_update_pd,active] using SameFlags.refl pd
  | routes_replay => exact absurd rfl written
  | query_rij_add nbrs =>
    obtain ⟨rfl,rfl⟩ := exec_some done
    obtain ⟨_,same,_⟩ := reply_status_add_foldl nbrs pd
    rw [same]
    exact .of_routes rfl
  | query_sent =>
    obtain ⟨rfl,rfl⟩ := exec_some done
    rcases fsm_query_sent_cases env pd with ⟨passive,_⟩ | ⟨_,_,_,armed⟩ | ⟨_,_,ended⟩
    · exact absurd passive active
    · rw [armed]
      exact .of_routes rfl
    · rw [ended] at still
      exact absurd (fsm_event_lr_finished env pd).state still
  | action_clear action =>
    obtain ⟨rfl,rfl⟩ := exec_some done
    cases action <;> exact .of_routes rfl
  | retire => exact absurd rfl working
  | active_timer_expired =>
    obtain ⟨rfl,rfl⟩ := exec_some done
    obtain ⟨_,_,same,_⟩ := fsm_active_timer_expired_cases env pd
    rw [same]
    exact .of_routes rfl

theorem exec_flags {call : Call} (tidy : Tidy pd) (active : pd.state ≠ .passive) (still : next.state ≠ .passive)
    (remote : ∀ ei, call ≠ .intf_up ei) (written : call ≠ .routes_replay) (working : call ≠ .retire)
    (kept : call.costs env pd = false) (done : exec env pd call = some (next, out)) : SameFlags pd next := by
  by_cases down : ∃ ei, call = .connected_interface_down ei
  · obtain ⟨ei,rfl⟩ := down
    exact connected_interface_down_flags tidy active kept done
  · have down : ∀ ei, call ≠ .connected_interface_down ei := fun ei same => down ⟨ei,same⟩
    cases message : call.handed env pd with
    | none => exact quiet_flags active message down written working still done
    | some handed =>
      have granted : flag_lost env handed.pd handed.msg handed.route = false := by
        cases call with
        | connected_interface_down ei => exact absurd rfl (down ei)
        | _ => simpa [Call.costs,message] using kept
      have result := congrArg (Option.map Prod.fst) done
      by_cases seeded : ∃ source metric, call = .redistributed_update source metric
      · obtain ⟨source,metric,rfl⟩ := seeded
        cases message
        rw [exec_redistributed_update] at result
        obtain ⟨middle,ran,finished⟩ := Option.map_eq_some_iff.mp result
        have presented : Presented pd (redistributed_update_handed env pd source metric).pd
            (redistributed_update_handed env pd source metric).route := redistributed_update_presented source metric
        have marked : next.routes = middle.routes ∧ next.state = middle.state := by
          have finished : redistributed_finish pd source middle = next := finished
          rw [← finished]
          unfold redistributed_finish redistributed_update_mark
          dsimp only
          split <;> (repeat' split) <;> exact ⟨rfl,rfl⟩
        have flags : SameFlags pd middle :=
          handed_flags presented.rerouted.state (presented.order tidy) rfl active (marked.2 ▸ still) granted ran
        exact flags.trans (.of_routes marked.1)
      · have received : received_message env pd call = some handed := by
          cases call with
          | intf_up ei => exact absurd rfl (remote ei)
          | redistributed_update source metric => exact absurd ⟨source,metric,rfl⟩ seeded
          | _ => exact message
        obtain ⟨same,order,dual⟩ := received_presented received
        rw [exec_received received] at result
        exact handed_flags same (order tidy) (dual active) active still granted result

/-! ### Replays -/

theorem successors_max_read_cleared (pd : PrefixDescriptor) (maxpaths : Nat) :
    successors_max_read (routes_map pd fun route => { route with intable := false }) maxpaths =
      (successors_max_read pd maxpaths).map fun route => { route with intable := false } := by
  unfold successors_max_read
  rw [routes_map_routes,List.filter_map,List.map_take]
  rfl

theorem southbound_nexthops_cleared (env : Env) (routes : List RouteDescriptor) :
    southbound_nexthops env (routes.map fun route => { route with intable := false }) = southbound_nexthops env routes := by
  unfold southbound_nexthops southbound_nexthop
  simp only [List.filter_map,List.foldl_map,List.filterMap_map,Function.comp_def]

/-- Unless it finds no successor, a replay writes the one route and marks the routes that are read. -/
theorem update_routing_table_replay (successor : pd.routes.any (·.successor)) :
    update_routing_table env pd = (routes_map pd fun route => { route with intable := replay_marks env pd route },
      if (replay_route env pd).nexthops.isEmpty then [] else [.rib_route_add (replay_route env pd)]) := by
  unfold update_routing_table
  have present : (routes_map pd fun route => { route with intable := false }).routes.any (·.successor) = true := by
    rw [routes_map_routes,List.any_map]
    exact successor
  dsimp only
  rw [if_pos present]
  simp only [successors_max_read_cleared,southbound_nexthops_cleared,List.head?_map,Option.map_map,Function.comp_def]
  refine Prod.ext ?_ rfl
  simp only [routes_map,List.map_map,Function.comp_def,replay_marks,List.any_map]
  congr 1
  · refine List.map_congr_left fun route _ => ?_
    split <;> simp_all
  · refine List.map_congr_left fun route _ => ?_
    split <;> simp_all

theorem routes_replay_frozen {eigrp : Instance} (rests : replay_rests eigrp pd) :
    Frozen pd (routes_replay_pd eigrp.env pd).1 [] ∧ SameFlags pd (routes_replay_pd eigrp.env pd).1 ∧
      ∀ effect ∈ (routes_replay_pd eigrp.env pd).2, ∃ route, effect = .rib_route_add route ∧
        (eigrp.rib_accepts route → eigrp.rib pd.destination = some route) := by
  unfold routes_replay_pd
  split
  · rename_i installed
    simp only [replay_rests,installed,Bool.not_true,Bool.false_or,Bool.and_eq_true,Bool.or_eq_true,Bool.not_eq_true',beq_iff_eq,
      List.all_eq_true] at rests
    obtain ⟨⟨successor,marked⟩,written⟩ := rests
    rw [update_routing_table_replay successor]
    have same : (routes_map pd fun route => { route with intable := replay_marks eigrp.env pd route }).routes = pd.routes := by
      rw [routes_map_routes]
      refine (List.map_congr_left fun route stored => ?_).trans (List.map_id _)
      rw [← marked route stored]
      rfl
    refine ⟨⟨rfl,rfl,rfl,rfl,by simp⟩,.of_routes same,?_⟩
    intro effect member
    split at member
    · cases member
    · rename_i hops
      simp only [List.mem_singleton] at member
      refine ⟨_,member,fun accepted => ?_⟩
      rcases written with (empty | refused) | same
      · exact absurd empty hops
      · simp [accepted] at refused
      · exact same
  · exact ⟨.refl pd,.refl pd,by simp⟩

theorem replayed_rib {before after : Instance} {out : List Effect} (accepts : after.rib_accepts = before.rib_accepts)
    (rib : after.rib = before.rib) (written : ∀ effect ∈ out, ∃ route, effect = .rib_route_add route ∧
      (before.rib_accepts route → before.rib pd.destination = some route)) (same : next.destination = pd.destination) :
    (after.effects next out).rib pd.destination = before.rib pd.destination := by
  unfold Instance.effects
  induction out generalizing after with
  | nil => rw [List.foldl_nil,rib]
  | cons effect out ih =>
    rw [List.foldl_cons]
    obtain ⟨route,rfl,kept⟩ := written effect List.mem_cons_self
    have step : (Instance.effect next after (.rib_route_add route)).rib = before.rib := by
      simp only [Instance.effect,accepts]
      split
      · rename_i accepted
        rw [Instance.rib_write,rib,same,← kept accepted,Function.update_eq_self]
      · exact rib
    have host : (Instance.effect next after (.rib_route_add route)).rib_accepts = before.rib_accepts := by
      simp only [Instance.effect]
      split <;> exact accepts
    exact ih host step fun other member => written other (List.mem_cons_of_mem _ member)

end Calls

/-! ## Runs -/

/-- The frozen part of a destination, and the host's route for it. -/
structure Snapshot where
  distance : UInt32
  fdistance : UInt32
  rdistance : UInt32
  reported_metric : Metrics
  successors : Set Nat
  intable : Set Nat
  rib : Option RibRoute

def Instance.snapshot (eigrp : Instance) (id : Nat) : Option Snapshot :=
  (eigrp.descriptor id).map fun pd =>
    { distance := pd.distance, fdistance := pd.fdistance, rdistance := pd.rdistance, reported_metric := pd.reported_metric
      successors := flagged (·.successor) pd, intable := flagged (·.intable) pd, rib := eigrp.rib pd.destination }

/-- The table finds the destination, and finds it ACTIVE. -/
def Instance.computing (eigrp : Instance) (id : Nat) : Bool :=
  id ∈ eigrp.topology_table && (eigrp.descriptor id).any fun pd => pd.state != .passive

theorem computing_descriptor {eigrp : Instance} {id : Nat} (computing : eigrp.computing id) :
    id ∈ eigrp.topology_table ∧ ∃ pd, eigrp.descriptor id = some pd ∧ pd.state ≠ .passive := by
  simp only [Instance.computing,Bool.and_eq_true,decide_eq_true_eq] at computing
  obtain ⟨linked,active⟩ := computing
  cases found : eigrp.descriptor id with
  | none => simp [found] at active
  | some pd => exact ⟨linked,pd,rfl,by simpa [found] using active⟩

theorem snapshot_eq {before after : Instance} {id : Nat} {pd next : PrefixDescriptor} {out : List Effect}
    (found : before.descriptor id = some pd) (stored : after.descriptor id = some next) (frozen : Frozen pd next out)
    (flags : SameFlags pd next) (same : next.destination = pd.destination) (rib : after.rib pd.destination = before.rib pd.destination) :
    after.snapshot id = before.snapshot id := by
  simp only [Instance.snapshot,found,stored,Option.map_some]
  rw [frozen.distance,frozen.fdistance,frozen.rdistance,frozen.reported_metric,flags.successor,flags.intable,same,rib]

section Steps
variable {step : Step Instance Label} {id : Nat} {pd : PrefixDescriptor}

/-- A step on behalf of another descriptor does not reach the host's route of a destination in the table. -/
theorem Allowed.rib (allowed : Allowed step) (indexed : Indexed step.before)
    (kept : ∀ call pd, Finds step call pd → freeze_kept step.before call pd) (found : step.before.descriptor id = some pd)
    (linked : id ∈ step.before.topology_table) (present : step.after.descriptor id ≠ none)
    (still : id ∈ step.after.topology_table) (other : ∀ call, step.label ≠ .perform id call) :
    step.after.rib pd.destination = step.before.rib pd.destination := by
  have apart {target : Nat} {stored : PrefixDescriptor} (different : target ≠ id) (member : target ∈ step.before.topology_table)
      (here : step.before.descriptor target = some stored) : pd.destination ≠ stored.destination :=
    fun same => different (indexed.unique id linked target member pd stored found here same).symm
  cases allowed with
  | other frame => rw [frame.rib]
  | @act label before permitted _ =>
    cases label with
    | other => rfl
    | free target => rfl
    | perform target call =>
      have different : target ≠ id := by
        rintro rfl
        exact other call rfl
      simp only [Instance.act,Instance.perform]
      split
      · rfl
      · rename_i stored here
        split
        · rfl
        · rename_i next out done
          have same := (exec_identity done).destination
          refine effects_rib ?_ _
          have checked := kept call stored ⟨target,rfl,here⟩
          simp only [freeze_kept,Bool.and_eq_true,Bool.or_eq_true,decide_eq_true_eq] at checked
          rcases checked.1 with member | clerical
          · rw [(descriptor_mem here).2] at member
            exact .inl (same ▸ apart different member here)
          · exact .inr (clerical_silent clerical done)
    | create creation =>
      simp only [Instance.act,Instance.create]
      split
      · rfl
      · rename_i new out built
        refine effects_rib (.inl ?_) _
        rw [(creation_fresh built).destination]
        exact lookup_none (permitted.vacant creation rfl) linked found
    | detach target =>
      simp only [Instance.act] at still ⊢
      split
      · rfl
      · rename_i stored here
        simp only [here,Instance.prefix_detach] at still ⊢
        split
        · rename_i member
          rw [(descriptor_mem here).2] at member
          simp only [(descriptor_mem here).2,member,if_true] at still
          have different : target ≠ id := by
            rintro rfl
            have gone := (List.mem_filter.mp still).2
            simp [here] at gone
          exact Function.update_of_ne (apart different member here) _ _
        · rfl
    | delete target =>
      simp only [Instance.act,Instance.delete] at present ⊢
      split
      · rfl
      · rename_i stored here
        simp only [here] at present
        split
        · rename_i member
          simp only [member,if_true] at present
          have different : target ≠ id := by
            rintro rfl
            exact present ((descriptor_filter before target target).trans (if_pos rfl))
          exact Function.update_of_ne (apart different member here) _ _
        · rfl

theorem Allowed.frozen (allowed : Allowed step) (indexed : Indexed step.before) (tidy : ∀ pd ∈ step.before.prefixes, Tidy pd)
    (kept : ∀ call pd, Finds step call pd → freeze_kept step.before call pd) (computing : step.before.computing id)
    (still : step.after.computing id) : step.after.snapshot id = step.before.snapshot id := by
  obtain ⟨linked,pd,found,active⟩ := computing_descriptor computing
  obtain ⟨staying,next,stored,waiting⟩ := computing_descriptor still
  by_cases called : ∃ call, step.label = .perform id call
  · obtain ⟨call,label⟩ := called
    cases allowed with
    | other frame => cases label
    | @act _ before permitted sound =>
      obtain rfl : _ = Label.perform id call := label
      have checked := kept call pd ⟨id,rfl,found⟩
      simp only [Instance.act,Instance.perform,found] at stored ⊢
      split
      · rename_i failed
        simp only [failed] at stored
        exact snapshot_eq found found (.refl pd) (.refl pd) rfl rfl
      · rename_i result out done
        simp only [done] at stored
        rw [descriptor_of_prefixes (effects_prefixes result out _)] at stored
        have written := (descriptor_write found (exec_identity done).id id).symm.trans stored
        rw [if_pos rfl] at written
        obtain rfl := Option.some.inj written
        have remote : ∀ ei, call ≠ .intf_up ei := by
          rintro ei rfl
          simp [freeze_kept,active] at checked
        have working : call ≠ .retire := by
          rintro rfl
          exact active (permitted.resting id rfl pd found)
        have held : (Instance.effects { before with prefixes := before.prefixes.map fun pd : PrefixDescriptor =>
            if pd.id = id then result else pd } result out).descriptor id = some result := by
          rw [descriptor_of_prefixes (effects_prefixes result out _)]
          exact stored
        have same := (exec_identity done).destination
        simp only [freeze_kept,Bool.and_eq_true,Bool.or_eq_true,beq_iff_eq,active,false_or] at checked
        by_cases written : call = .routes_replay
        · subst written
          obtain ⟨rfl,rfl⟩ := exec_some done
          obtain ⟨frozen,flags,written⟩ := routes_replay_frozen checked.2
          exact snapshot_eq found held frozen flags same (replayed_rib rfl rfl written same)
        · have costs : call.costs before.env pd = false := by
            cases call with
            | intf_up ei => exact absurd rfl (remote ei)
            | routes_replay => exact absurd rfl written
            | _ => simpa using checked.2
          have course := exec_frozen active waiting remote written working done
          have flags := exec_flags (tidy pd (descriptor_mem found).1) active waiting remote written working costs done
          exact snapshot_eq found held course flags same (effects_rib (.inr course.silent) _)
  · have other : ∀ call, step.label ≠ .perform id call := fun call label => called ⟨call,label⟩
    have rib := allowed.rib indexed kept found linked (by simp [stored]) staying other
    by_cases changed : next = pd
    · subst changed
      exact snapshot_eq found stored (.refl next) (.refl next) rfl rib
    · obtain ⟨_,call,_,performs⟩ := allowed.performs found stored changed
      exact absurd performs.label (other call)

end Steps

/-- In a run that keeps interfaces from coming up for ACTIVE destinations, and cleared descriptors from DUAL, nothing of
    the frozen part changes in any stretch of steps through which the destination is ACTIVE. -/
theorem run_frozen (metric : MetricConfig) (events : List Event) (kept : (run metric events).calls_all freeze_kept) (id : Nat)
    (earlier during later : List (Step Instance Label)) (first : Step Instance Label)
    (split : (run metric events).trace = earlier ++ (first :: during) ++ later)
    (computing : ∀ step ∈ first :: during, step.before.computing id ∧ step.after.computing id) :
    ∀ step ∈ first :: during, step.after.snapshot id = first.before.snapshot id := by
  obtain ⟨linked,allowed⟩ := run_linked metric events
  rw [split] at linked
  refine @Linked.stretch _ _ _ _ _ _ _ _ _ (fun eigrp : Instance => eigrp.snapshot id) linked ?_
  intro step member
  have present : step ∈ (run metric events).trace := by
    rw [split]
    simp only [List.mem_append]
    exact .inl (.inr member)
  have reached : Reached metric events step.before := .inr ⟨step,present,.inl rfl⟩
  obtain ⟨before,after⟩ := computing step member
  exact (allowed step present).frozen (run_indexed reached) (run_tidy reached)
    (fun call pd finds => Machine.calls_all_finds kept present finds) before after

theorem run_frozen_computation : ((run {} computation).trace.get ⟨21,by decide +kernel⟩).before.snapshot 0 ≠ none ∧
    ∀ step ∈ (run {} computation).trace.get ⟨21,by decide +kernel⟩ :: ((run {} computation).trace.drop 22).take 18,
      step.after.snapshot 0 = ((run {} computation).trace.get ⟨21,by decide +kernel⟩).before.snapshot 0 :=
  ⟨by decide +kernel,
    run_frozen {} computation (by decide +kernel) 0 _ _ _ _ (Machine.trace_stretch _ ⟨21,by decide +kernel⟩ 18) (by decide +kernel)⟩

/-- The successor's distance rises, and an interface to the destination itself comes up during the computation. -/
def recovery : List Event :=
  .intf_create { id := 2, destination := some ⟨10,8⟩ } :: two_neighbors ++
    [.packet_receive (.peer 0 0) (route_packet .update 100), .packetizer {},
      .packet_receive (.peer 0 0) (route_packet .update 90000), .intf_up 2]

theorem recovery_not_frozen : ¬ ∀ id earlier during later first,
    (run {} recovery).trace = earlier ++ (first :: during) ++ later →
      (∀ step ∈ first :: during, step.before.computing id ∧ step.after.computing id) →
        ∀ step ∈ first :: during, step.after.snapshot id = first.before.snapshot id := by
  intro frozen
  have same := frozen 0 _ _ _ _ (Machine.trace_stretch (run {} recovery) ⟨25,by decide +kernel⟩ 0) (by decide +kernel) _
    List.mem_cons_self
  have host := congrArg (Option.map Snapshot.rib) same
  simp only [Instance.snapshot,Option.map_map] at host
  revert host
  decide +kernel

end Eigrp
