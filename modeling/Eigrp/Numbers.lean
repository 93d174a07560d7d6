import Eigrp.Runs

/-!
# Numbers of routes

Every route of a destination has its own number, in every state of every run. What is said about
the route of a message is thereby said about one stored route.
-/

namespace Eigrp
open Eigrp.Lib

/-! ## Handlers -/

theorem keep_passive_queues (env : Env) (pd : PrefixDescriptor) (used : RouteDescriptor) :
    SameQueues pd (keep_passive env pd used).1 := by
  simp only [keep_passive]
  split
  · exact refreshed_table_queues env pd
  · exact (refreshed_table_queues env _).of_eq rfl rfl rfl

theorem fsm_event_lr_queues (env : Env) (pd : PrefixDescriptor) : SameQueues pd (fsm_event_lr env pd).1 := by
  simp only [fsm_event_lr,passive_refresh_eq]
  refine (refreshed_table_queues env _).of_eq ?_ ?_ ?_
  · cases route_read pd <;> rfl
  · cases route_read pd <;> rfl
  · cases route_read pd <;> rfl

theorem fsm_event_lr_fcs_queues {env : Env} {pd next : PrefixDescriptor} {out : List Effect}
    (done : fsm_event_lr_fcs env pd = some (next, out)) : SameQueues pd next := by
  obtain ⟨route,_,finished⟩ := Option.bind_eq_some_iff.mp done
  simp only [passive_refresh_eq] at finished
  obtain ⟨rfl,rfl⟩ := exec_some finished
  exact (refreshed_table_queues env _).of_eq rfl rfl rfl

theorem diffuse_queues (env : Env) (pd : PrefixDescriptor) : SameQueues pd (diffuse env pd).1 := by
  rcases diffuse_cases env pd with ⟨_,asked⟩ | ⟨_,ended⟩
  · rw [asked]
    exact ⟨rfl,rfl,rfl⟩
  · rw [ended]
    exact (fsm_event_lr_queues env _).of_eq rfl rfl rfl

theorem routes_replay_queues (env : Env) (pd : PrefixDescriptor) : SameQueues pd (routes_replay_pd env pd).1 := by
  unfold routes_replay_pd
  split
  · exact update_routing_table_queues env pd
  · exact .refl pd

theorem keep_passive_same (env : Env) (pd : PrefixDescriptor) (used : RouteDescriptor) :
    SameRoutes pd (keep_passive env pd used).1 := (keep_passive_queues env pd used).routes

theorem fsm_event_lr_same (env : Env) (pd : PrefixDescriptor) : SameRoutes pd (fsm_event_lr env pd).1 :=
  (fsm_event_lr_queues env pd).routes

theorem fsm_event_lr_fcs_same {env : Env} {pd next : PrefixDescriptor} {out : List Effect}
    (done : fsm_event_lr_fcs env pd = some (next, out)) : SameRoutes pd next := (fsm_event_lr_fcs_queues done).routes

theorem diffuse_same (env : Env) (pd : PrefixDescriptor) : SameRoutes pd (diffuse env pd).1 := (diffuse_queues env pd).routes

/-! ## Calls -/

section Calls
variable {env : Env} {msg : Msg} {pd next : PrefixDescriptor} {after : RouteDescriptor} {nbr : Nbr} {packet : Opcode}
  {sender : Option Nbr} {out : List Effect}

/-- An outcome changes nothing of the routes but flags. -/
theorem outcome_queues (outcome : Outcome env msg after pd next out) : SameQueues pd next := by
  cases outcome with
  | commit used => exact keep_passive_queues env pd used
  | start => exact (diffuse_queues env { pd with state := .active_1 }).of_eq rfl rfl rfl
  | start_query =>
    exact (diffuse_queues env { pd with state := .active_3, query_origin := msg.adv_router }).of_eq rfl rfl rfl
  | wait => exact .refl pd
  | origin => exact ⟨rfl,rfl,rfl⟩
  | increase => exact ⟨rfl,rfl,rfl⟩
  | last_reply => exact fsm_event_lr_queues env pd
  | last_reply_feasible _ _ _ _ _ done => exact fsm_event_lr_fcs_queues done
  | last_reply_infeasible =>
    have asked := diffuse_queues env { pd with state := if pd.state = .active_0 then .active_1 else .active_3 }
    exact asked.of_eq rfl rfl rfl

theorem discharge_queues (pd : PrefixDescriptor) (msg : Msg) (nbr : Option Nbr) : SameQueues pd (discharge pd msg nbr) := by
  unfold discharge
  split <;> exact ⟨rfl,rfl,rfl⟩

/-- The routes that a message leaves are those behind the distance update, flags apart. -/
theorem fsm_event_linked {route : RouteDescriptor} (done : fsm_event env pd msg route = some (next, out)) :
    ∃ current last after change, update_distance env pd msg route = some (current, last, after, change) ∧
      SameQueues current next := by
  obtain ⟨current,last,after,change,measured,outcome⟩ := fsm_event_outcome done
  exact ⟨current,last,after,change,measured,(discharge_queues current msg after.adv_router).trans (outcome_queues outcome)⟩

theorem reaction_tidy (tidy : Tidy pd) (reaction : Reaction env pd packet sender nbr next out) : Tidy next := by
  obtain ⟨current,msg,after,_,order,_,_,outcome⟩ := reaction.reacts
  have same := (discharge_queues current msg (some nbr)).trans (outcome_queues outcome)
  exact same.routes.numbers.tidy (order tidy)

theorem withdrawals_tidy (tidy : Tidy pd) (withdrawals : Withdrawals env pd next out) : Tidy next := by
  induction withdrawals with
  | nil => exact tidy
  | cons reaction _ ih => exact ih (reaction_tidy tidy reaction)

/-- Routes may be taken out, and the rest reordered. -/
theorem Tidy.of_subperm (tidy : Tidy pd) (fewer : (next.routes.map (·.id)).Subperm (pd.routes.map (·.id)))
    (next_route : next.next_route = pd.next_route) : Tidy next where
  numbers := by
    obtain ⟨list,perm,sublist⟩ := fewer
    exact perm.nodup_iff.mp (tidy.numbers.sublist sublist)
  bounded := by
    intro route member
    obtain ⟨other,stored,same⟩ := List.mem_map.mp (fewer.subset (List.mem_map_of_mem member))
    have bound := tidy.bounded other stored
    rw [next_route]
    exact same ▸ bound

theorem route_descriptor_delete_tidy (tidy : Tidy pd) (route : RouteDescriptor) : Tidy (route_descriptor_delete pd route).1 := by
  refine tidy.of_subperm (List.Sublist.subperm (List.Sublist.map _ ?_)) rfl
  simp only [route_descriptor_delete,PrefixDescriptor.routes]
  split
  · exact (List.Sublist.refl _).append List.filter_sublist
  · exact List.filter_sublist.append (List.Sublist.refl _)

theorem delete_unreachable_tidy (tidy : Tidy pd) (routes : List RouteDescriptor) : Tidy (delete_unreachable routes pd).1 := by
  induction routes generalizing pd with
  | nil => exact tidy
  | cons route routes ih =>
    unfold delete_unreachable
    split
    · exact ih (route_descriptor_delete_tidy tidy route)
    · exact ih tidy

theorem retire_tidy (tidy : Tidy pd) : Tidy (pd |> update_topology_table_prefix).1 := by
  unfold update_topology_table_prefix
  dsimp only
  split
  · exact tidy
  · split <;> exact delete_unreachable_tidy tidy _

theorem route_descriptor_add_numbers (env : Env) (pd : PrefixDescriptor) (route : RouteDescriptor) :
    SameNumbers (route_insert pd route) (route_descriptor_add env pd route).1 := by
  unfold route_descriptor_add
  dsimp only
  split
  · split
    · refine routes_map_numbers _ fun other => ?_
      split <;> rfl
    · exact .refl _
  · exact .refl _

theorem route_descriptor_add_tidy {route : RouteDescriptor} (tidy : Tidy (route_insert pd route)) :
    Tidy (route_descriptor_add env pd route).1 := (route_descriptor_add_numbers env pd route).tidy tidy

theorem intf_up_added_tidy (tidy : Tidy pd) (ei : Nat) : Tidy (intf_up_added env pd ei).1 := by
  have deleted : Tidy (intf_up_deleted pd ei).1 := by
    unfold intf_up_deleted
    split
    · split
      · exact route_descriptor_delete_tidy tidy _
      · exact tidy
    · exact tidy
  exact route_descriptor_add_tidy (tidy_insert deleted rfl)

theorem route_refresh_id (env : Env) (route : RouteDescriptor) : (route_refresh env route).id = route.id := by
  unfold route_refresh local_route_refresh learned_route_refresh
  dsimp only
  split
  · split <;> split <;> (try split) <;> rfl
  · split <;> rfl

theorem metric_refreshed_tidy (tidy : Tidy pd) : Tidy (metric_refreshed env pd) := by
  refine ((routes_map_numbers pd (route_refresh_id env)).tidy tidy).of_subperm (List.Perm.subperm (List.Perm.map _ ?_)) rfl
  exact (List.perm_insertionSort _ _).append (List.perm_insertionSort _ _)

theorem metric_update_tidy (tidy : Tidy pd) : Tidy (metric_update_pd env pd).1 := by
  rcases metric_update_cases env pd with ⟨_,same⟩ | ⟨_,refreshed⟩ | ⟨_,committed⟩
  · rwa [same]
  · rw [refreshed]
    exact metric_refreshed_tidy tidy
  · have chosen : SameNumbers (metric_refreshed env pd) (metric_committed (metric_refreshed env pd)) := by
      unfold metric_committed
      split <;> exact ⟨rfl,rfl⟩
    have table := (chosen.trans (refreshed_table_same env _).numbers).tidy (metric_refreshed_tidy tidy)
    rw [committed]
    exact ⟨table.numbers,table.bounded⟩

theorem exec_tidy {call : Call} (tidy : Tidy pd) (done : exec env pd call = some (next, out)) : Tidy next := by
  have same {next : PrefixDescriptor} (same : SameNumbers pd next) : Tidy next := same.tidy tidy
  cases call with
  | update_receive nbr received =>
    rcases update_receive_cases done with ⟨rfl,_⟩ | reaction
    · exact tidy
    · exact reaction_tidy tidy reaction
  | query_receive nbr received =>
    rcases query_receive_cases done with ⟨_,rfl,_⟩ | ⟨_,_,_,kept⟩ | reaction
    · exact tidy
    · exact kept tidy
    · exact reaction_tidy tidy reaction
  | reply_receive nbr received =>
    rcases reply_receive_cases done with ⟨_,rfl,_⟩ | ⟨_,reaction⟩
    · exact tidy
    · exact reaction_tidy tidy reaction
  | siaquery_receive nbr received =>
    obtain ⟨_,reaction,_⟩ := siaquery_receive_cases done
    exact reaction_tidy tidy reaction
  | siareply_receive nbr received =>
    rcases siareply_receive_cases done with ⟨rfl,_⟩ | ⟨_,_,rfl,_⟩ | ⟨_,_,_,reaction⟩
    · exact tidy
    · exact same ⟨rfl,rfl⟩
    · exact reaction_tidy tidy reaction
  | gr_ask nbr => exact reaction_tidy tidy (gr_ask_reaction done)
  | neighbor_down nbr =>
    have forgotten : Tidy { pd with query_origin := if pd.query_origin = some nbr then none else pd.query_origin } :=
      same ⟨rfl,rfl⟩
    rcases neighbor_lost_cases done with ⟨rfl,_⟩ | ⟨_,reaction⟩ | ⟨_,reaction⟩
    · exact forgotten
    · exact reaction_tidy forgotten reaction
    · exact reaction_tidy forgotten reaction
  | suspended_origin_clear nbrs =>
    obtain ⟨rfl,rfl⟩ := exec_some done
    exact same ⟨rfl,rfl⟩
  | connected_interface_down ei => exact withdrawals_tidy tidy (connected_routes_down_withdrawals done)
  | intf_up ei =>
    obtain ⟨_,reaction,_⟩ := intf_up_cases done
    exact reaction_tidy (intf_up_added_tidy tidy ei) reaction
  | redistributed_update source metric =>
    obtain ⟨middle,_,reaction,fate⟩ := redistributed_update_cases done
    rcases fate with ⟨rfl,_⟩ | ⟨rfl,_⟩
    · exact reaction_tidy tidy reaction
    · have marked : SameNumbers middle (redistributed_update_mark middle).1 := by
        unfold redistributed_update_mark
        split <;> exact ⟨rfl,rfl⟩
      exact marked.tidy (reaction_tidy tidy reaction)
  | redistributed_remove source =>
    rcases redistributed_remove_cases done with ⟨rfl,_⟩ | reaction
    · exact tidy
    · exact reaction_tidy tidy reaction
  | metric_update =>
    obtain ⟨rfl,rfl⟩ := exec_some done
    exact metric_update_tidy tidy
  | multipath_update =>
    obtain ⟨rfl,rfl⟩ := exec_some done
    unfold multipath_update_pd
    split
    · exact tidy
    · exact same (refreshed_table_same env pd).numbers
  | traffic_share_update =>
    obtain ⟨rfl,rfl⟩ := exec_some done
    unfold traffic_share_update_pd
    split
    · exact tidy
    · exact same (update_routing_table_same env pd).numbers
  | routes_replay =>
    obtain ⟨rfl,rfl⟩ := exec_some done
    exact same (routes_replay_queues env pd).routes.numbers
  | query_rij_add nbrs =>
    obtain ⟨rfl,rfl⟩ := exec_some done
    obtain ⟨_,eq,_⟩ := reply_status_add_foldl nbrs pd
    rw [eq]
    exact same ⟨rfl,rfl⟩
  | query_sent =>
    obtain ⟨rfl,rfl⟩ := exec_some done
    rcases fsm_query_sent_cases env pd with ⟨_,eq⟩ | ⟨_,_,_,eq⟩ | ⟨_,_,eq⟩
    · rwa [eq]
    · rw [eq]
      exact same ⟨rfl,rfl⟩
    · rw [eq]
      exact same (fsm_event_lr_same env pd).numbers
  | action_clear action =>
    obtain ⟨rfl,rfl⟩ := exec_some done
    cases action <;> exact same ⟨rfl,rfl⟩
  | retire =>
    obtain ⟨rfl,rfl⟩ := exec_some done
    exact retire_tidy tidy
  | active_timer_expired =>
    obtain ⟨rfl,rfl⟩ := exec_some done
    obtain ⟨_,_,eq,_⟩ := fsm_active_timer_expired_cases env pd
    rw [eq]
    exact same ⟨rfl,rfl⟩

end Calls

/-! ## Runs -/

theorem tidy_empty {pd : PrefixDescriptor} (empty : pd.routes = []) : Tidy pd := ⟨by simp [empty],by simp [empty]⟩

theorem routes_add_tidy {env : Env} {routes : List RouteDescriptor} {pd : PrefixDescriptor} (tidy : Tidy pd)
    (bounded : ∀ route ∈ routes, route.id < pd.next_route) (different : (routes.map (·.id)).Nodup)
    (new : ∀ route ∈ routes, ∀ other ∈ pd.routes, other.id ≠ route.id) : Tidy (routes_add env routes pd).1 := by
  induction routes generalizing pd with
  | nil => exact tidy
  | cons route routes ih =>
    have added := route_descriptor_add_numbers env pd route
    have next_route : (route_descriptor_add env pd route).1.next_route = pd.next_route := by
      rw [added.next_route]
      unfold route_insert
      split <;> rfl
    have inserted : Tidy (route_insert pd route) := tidy_insert_new tidy (bounded route (by simp)) (new route (by simp))
    simp only [List.map_cons,List.nodup_cons] at different
    have rest : ∀ other ∈ routes, other.id < (route_descriptor_add env pd route).1.next_route := by
      intro other member
      rw [next_route]
      exact bounded other (by simp [member])
    refine ih (added.tidy inserted) rest different.2 ?_
    · intro later member other stored same
      have listed : other.id ∈ (route_insert pd route).routes.map (·.id) := added.numbers ▸ List.mem_map_of_mem stored
      obtain ⟨found,present,equal⟩ := List.mem_map.mp listed
      rcases mem_routes_insert.mp present with rfl | earlier
      · exact different.1 (List.mem_map.mpr ⟨later,member,same.symm.trans equal.symm⟩)
      · exact new later (by simp [member]) found earlier (equal.trans same)

theorem creation_tidy {env : Env} {id : Nat} {creation : Creation} {pd : PrefixDescriptor} {out : List Effect}
    (built : creation.build env id = some (pd, out)) (old : ∀ old, (Label.create creation).old = some old → Tidy old) : Tidy pd := by
  cases creation with
  | update nbr received =>
    obtain ⟨learned,found,finished⟩ := Option.bind_eq_some_iff.mp built
    obtain ⟨_,_,rfl⟩ := Option.map_eq_some_iff.mp found
    obtain ⟨rfl,rfl⟩ := exec_some finished
    have added {start : PrefixDescriptor} {route : RouteDescriptor} {metric : Metrics} (empty : start.routes = [])
        (number : route.id = 0) (next_route : start.next_route = 1) :
        Tidy { update_node_flags env { (route_descriptor_add env start route).1 with reported_metric := metric } with
          need_update := true } := by
      have stored : Tidy (route_descriptor_add env start route).1 :=
        route_descriptor_add_tidy (tidy_insert_new (tidy_empty empty) (by omega) (by simp [empty]))
      have flagged := (update_node_flags_same env
        { (route_descriptor_add env start route).1 with reported_metric := metric }).numbers.tidy ⟨stored.numbers,stored.bounded⟩
      exact ⟨flagged.numbers,flagged.bounded⟩
    exact added rfl rfl rfl
  | query nbr received =>
    obtain ⟨route,found,finished⟩ := Option.bind_eq_some_iff.mp built
    obtain ⟨_,_,rfl⟩ := Option.map_eq_some_iff.mp found
    obtain ⟨rfl,rfl⟩ := exec_some finished
    exact tidy_insert_new (tidy_empty rfl) Nat.zero_lt_one (by simp [PrefixDescriptor.routes])
  | connected destination ei =>
    obtain ⟨rfl,rfl⟩ := exec_some built
    exact route_descriptor_add_tidy (tidy_insert_new (tidy_empty rfl) Nat.zero_lt_one (by simp [PrefixDescriptor.routes]))
  | redistributed destination source metric =>
    obtain ⟨rfl,rfl⟩ := exec_some built
    have marked (start : PrefixDescriptor) : SameNumbers start (redistributed_update_mark start).1 := by
      unfold redistributed_update_mark
      split <;> exact ⟨rfl,rfl⟩
    refine (marked _).tidy (route_descriptor_add_tidy (tidy_insert_new (tidy_empty rfl) Nat.zero_lt_one ?_))
    simp [PrefixDescriptor.routes]
  | connected_recreate cleared =>
    obtain ⟨rfl,rfl⟩ := exec_some built
    have tidy : Tidy cleared := old cleared rfl
    have fewer : (cleared.internal_routes.filter fun route => route.adv_router = some .self).Sublist cleared.routes :=
      List.filter_sublist.trans (List.sublist_append_left _ _)
    refine routes_add_tidy (tidy_empty rfl) ?_ (tidy.numbers.sublist (fewer.map _)) (by simp [PrefixDescriptor.routes])
    intro route member
    exact tidy.bounded route (fewer.subset member)
  | remote_requery cleared =>
    obtain ⟨rfl,rfl⟩ := exec_some built
    exact tidy_empty rfl

theorem Allowed.tidy {step : Step Instance Label} (allowed : Allowed step) (tidy : ∀ pd ∈ step.before.prefixes, Tidy pd) :
    ∀ pd ∈ step.after.prefixes, Tidy pd := by
  intro next present
  rcases allowed.origin present with old | ⟨call,pd,out,finds,done⟩ | ⟨creation,out,label,built⟩
  · exact tidy next old
  · obtain ⟨id,_,found⟩ := finds
    exact exec_tidy (tidy pd (descriptor_mem found).1) done
  · have permitted := allowed.permitted (by simp [label])
    exact creation_tidy built fun old named => tidy old (permitted.old old (label ▸ named))

theorem Machine.Continues.tidy {machine next : Machine} (continues : machine.Continues next)
    (tidy : ∀ pd ∈ machine.state.prefixes, Tidy pd) : ∀ pd ∈ next.state.prefixes, Tidy pd :=
  @Recorded.Extends.invariant _ _ _ _ _ (fun eigrp : Instance => ∀ pd ∈ eigrp.prefixes, Tidy pd) continues
    (fun _ _ allowed before => allowed.tidy before) tidy

theorem run_tidy {metric : MetricConfig} {events : List Event} {eigrp : Instance} (reached : Reached metric events eigrp) :
    ∀ pd ∈ eigrp.prefixes, Tidy pd := by
  refine run_descriptors ?_ ?_ reached
  · intro step member creation pd out label built old
    exact creation_tidy built old
  · intro step member call pd next out finds done tidy
    exact exec_tidy tidy done

end Eigrp
