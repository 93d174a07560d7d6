import Eigrp.Ingress
import Eigrp.Parameters

/-!
# Distances under the current parameters

A stored route keeps the distances that were computed when it was measured. A change of the K values or
of the metric version recomputes those of the PASSIVE destinations of the table, and of no other; a
change of the maximum number of hops or of an interface recomputes none.
-/

namespace Eigrp
open Eigrp.Lib

/-! ## Recomputed distances -/

/-- The distance that a neighbor reports, from the stored vector; a local path has none. -/
def recomputed_reported_distance (env : Env) (route : RouteDescriptor) : UInt32 :=
  if route.adv_router = some .self then 0 else store (metric_calculate env.metric route.reported_metric)

/-- The distance of a route, from the stored vector and the interface: a connected path costs its own link, a redistributed
    path its seed, a learned one the reported vector over the link. -/
def recomputed_distance (env : Env) (route : RouteDescriptor) : UInt32 :=
  if route.adv_router = some .self then
    match route.ei with
    | some ei =>
      if route.total_metric.delay = max_metric then max_distance
      else store (metric_calculate env.metric (intf_metric (env.params ei)))
    | none => store (redistributed_distance env.metric route.total_metric)
  else match route.ei with
    | some ei => store (metric_total_calculate env.metric route.reported_metric (env.params ei))
    | none => store (metric_calculate env.metric route.total_metric)

/-- The stored distances of a route are those that would be computed now. A connected path that DUAL withdrew reports infinity, as
    its vector does, until it is refreshed. -/
structure Coherent (env : Env) (route : RouteDescriptor) : Prop where
  reported_distance : route.reported_distance = recomputed_reported_distance env route ∨
    (route.adv_router = some .self ∧ route.total_metric.delay = max_metric ∧ route.reported_distance = max_distance)
  distance : route.distance = recomputed_distance env route

/-- What is known of every route: somebody advertises it, a learned path has an interface, and a local external one has none. -/
structure Attributed (route : RouteDescriptor) : Prop where
  adv_router : route.adv_router ≠ none
  learned : route.adv_router ≠ some .self → route.ei ≠ none
  external : route.adv_router = some .self → route.external → route.ei = none

/-- The routes that may still carry the distances of earlier parameters. -/
structure Lag where
  stale : RouteDescriptor → Prop
  same : ∀ {route after : RouteDescriptor}, SameData route after → stale route → stale after

/-- The distances are up to date unless the route lags behind. -/
structure Kept (lag : Lag) (env : Env) (route : RouteDescriptor) : Prop where
  coherent : Coherent env route ∨ lag.stale route
  attributed : Attributed route

section Routes
variable {lag : Lag} {env : Env} {route after : RouteDescriptor}

theorem Coherent.same (coherent : Coherent env route) (same : SameData route after) : Coherent env after := by
  obtain ⟨reported,distance⟩ := coherent
  have recomputed : recomputed_reported_distance env after = recomputed_reported_distance env route := by
    simp only [recomputed_reported_distance,same.adv_router,same.reported_metric]
  have total : recomputed_distance env after = recomputed_distance env route := by
    simp only [recomputed_distance,same.adv_router,same.ei,same.total_metric,same.reported_metric]
  constructor
  · rw [recomputed,same.adv_router,same.total_metric,same.reported_distance]
    exact reported
  · rw [total,same.distance]
    exact distance

theorem Kept.same (kept : Kept lag env route) (same : SameData route after)
    (external : after.adv_router = some .self → after.external = route.external) : Kept lag env after := by
  refine ⟨kept.coherent.imp (fun coherent => coherent.same same) fun stale => lag.same same stale,?_,?_,fun own class_external => ?_⟩
  · rw [same.adv_router]
    exact kept.attributed.adv_router
  · rw [same.adv_router,same.ei]
    exact kept.attributed.learned
  · rw [same.ei]
    exact kept.attributed.external (same.adv_router ▸ own) (external own ▸ class_external)

theorem Kept.bare (kept : Kept lag env route) (same : after.bare = route.bare) : Kept lag env after :=
  kept.same (.of_bare same) fun _ => (congrArg RouteDescriptor.external same : after.bare.external = route.bare.external)

/-- An unreachable vector has an unreachable distance. -/
theorem calculate_unreachable {metric : Metrics} (gone : metric.delay = max_metric) : store (metric_calculate env.metric metric) = max_distance := by
  simp only [metric_calculate,gone]
  rfl

/-- A measured vector of a neighbor, or the loss of a connected path. -/
theorem learned_kept {metrics : Metrics} (learned : route_learn env route metrics = some after) (attributed : Attributed route)
    (unreachable : route.adv_router = some .self → metrics.delay = max_metric) : Kept lag env after := by
  obtain ⟨ei,known,rfl⟩ := Option.map_eq_some_iff.mp learned
  refine ⟨.inl ?_,attributed.adv_router,attributed.learned,attributed.external⟩
  by_cases own : route.adv_router = some .self
  · have gone := unreachable own
    have total : metric_total env.metric metrics (env.params ei) = metrics := by simp [metric_total,gone]
    constructor
    · exact .inr ⟨own,by simp [total,gone],calculate_unreachable gone⟩
    · simp only [recomputed_distance,own,if_true,known,total,gone,metric_total_calculate,calculate_unreachable gone]
  · constructor
    · left
      simp [recomputed_reported_distance,own]
    · simp [recomputed_distance,own,known]

/-- The seed of a redistributed path. -/
theorem seeded_kept {metrics : Metrics} (own : route.adv_router = some .self) (ei : route.ei = none) :
    Kept lag env { route with metric := metrics, reported_metric := metrics, reported_distance := 0, total_metric := metrics
                              distance := store (redistributed_distance env.metric metrics) } := by
  refine ⟨.inl ⟨.inl ?_,?_⟩,?_,fun peer => absurd own peer,fun _ _ => ei⟩
  · simp [recomputed_reported_distance,own]
  · simp [recomputed_distance,own,ei]
  · simp [own]

theorem connected_route_kept (lag : Lag) (env : Env) (id ei : Nat) : Kept lag env (connected_route env id ei) := by
  refine ⟨.inl ⟨.inl rfl,?_⟩,by simp [connected_route],by simp [connected_route],by simp [connected_route]⟩
  change _ = if (intf_metric (env.params ei)).delay = max_metric then max_distance else _
  split
  · rename_i gone
    exact calculate_unreachable gone
  · rfl

/-- A refresh changes neither whose the route is nor its interface and class. -/
theorem route_refresh_attribution (env : Env) (route : RouteDescriptor) : (route_refresh env route).adv_router = route.adv_router ∧
    (route_refresh env route).ei = route.ei ∧ (route_refresh env route).external = route.external := by
  unfold route_refresh local_route_refresh learned_route_refresh
  dsimp only
  split
  · split <;> split <;> (try split) <;> exact ⟨rfl,rfl,rfl⟩
  · split <;> exact ⟨rfl,rfl,rfl⟩

theorem local_route_refresh_coherent (own : route.adv_router = some .self) : Coherent env (local_route_refresh env route) := by
  cases known : route.ei with
  | none =>
    by_cases gone : route.metric.delay = max_metric
    · simp only [local_route_refresh,known,gone,Option.isNone_none,if_true]
      refine ⟨.inl ?_,?_⟩
      · simp [recomputed_reported_distance,own]
      · simp only [recomputed_distance,own,if_true,redistributed_distance,gone]
        rfl
    · simp only [local_route_refresh,known,gone,Option.isNone_none,if_true,if_false]
      refine ⟨.inl ?_,?_⟩
      · simp [recomputed_reported_distance,own]
      · simp only [recomputed_distance,own,if_true]
  | some ei =>
    by_cases gone : route.metric.delay = max_metric
    · simp only [local_route_refresh,known,gone,Option.isNone_some,Bool.false_eq_true,if_false,if_true]
      refine ⟨.inl ?_,?_⟩
      · simp [recomputed_reported_distance,own]
      · simp only [recomputed_distance,own,if_true,gone]
    · simp only [local_route_refresh,known,gone,Option.isNone_some,Bool.false_eq_true,if_false]
      refine ⟨.inl ?_,?_⟩
      · simp [recomputed_reported_distance,own]
      · simp only [recomputed_distance,own,if_true]
        split
        · rename_i unreachable
          exact calculate_unreachable unreachable
        · rfl

theorem learned_route_refresh_coherent (peer : route.adv_router ≠ some .self) : Coherent env (learned_route_refresh env route) := by
  cases known : route.ei with
  | none =>
    simp only [learned_route_refresh,known]
    exact ⟨.inl (by simp [recomputed_reported_distance,peer]),by simp [recomputed_distance,peer]⟩
  | some ei =>
    simp only [learned_route_refresh,known]
    exact ⟨.inl (by simp [recomputed_reported_distance,peer]),by simp [recomputed_distance,peer]⟩

/-- A refresh recomputes the distances whatever they were. -/
theorem route_refresh_kept (attributed : Attributed route) : Kept lag env (route_refresh env route) := by
  obtain ⟨adv_router,ei,external⟩ := route_refresh_attribution env route
  refine ⟨.inl ?_,?_,?_,?_⟩
  · unfold route_refresh
    split
    · rename_i own
      exact local_route_refresh_coherent own
    · rename_i peer
      exact learned_route_refresh_coherent peer
  · rw [adv_router]
    exact attributed.adv_router
  · rw [adv_router,ei]
    exact attributed.learned
  · rw [adv_router,ei,external]
    exact attributed.external

end Routes

/-! ## Destinations -/

/-- All routes of a destination are kept up to date. -/
def Current (lag : Lag) (env : Env) (pd : PrefixDescriptor) : Prop := ∀ route ∈ pd.routes, Kept lag env route

section Destinations
variable {lag : Lag} {env : Env} {pd next : PrefixDescriptor} {msg : Msg} {route after : RouteDescriptor} {out : List Effect}

theorem Current.of_routes (current : Current lag env pd) (routes : next.routes = pd.routes) : Current lag env next := by
  intro route member
  exact current route (routes ▸ member)

theorem Current.fewer (current : Current lag env pd) (fewer : ∀ route ∈ next.routes, route ∈ pd.routes) : Current lag env next :=
  fun route member => current route (fewer route member)

theorem Current.same (current : Current lag env pd) (same : SameRoutes pd next) : Current lag env next := by
  intro route member
  have listed : route.bare ∈ pd.routes.map (·.bare) := same.routes ▸ List.mem_map_of_mem member
  obtain ⟨old,stored,equal⟩ := List.mem_map.mp listed
  exact (current old stored).bare equal.symm

theorem Current.insert (current : Current lag env pd) (kept : Kept lag env route) : Current lag env (route_insert pd route) := by
  intro other member
  rcases mem_routes_insert.mp member with rfl | stored
  · exact kept
  · exact current other stored

theorem Current.add (current : Current lag env pd) (kept : Kept lag env route) : Current lag env (route_descriptor_add env pd route).1 := by
  have inserted := current.insert kept
  unfold route_descriptor_add
  dsimp only
  split
  · split
    · refine Current.same inserted (routes_map_same _ fun other => ?_)
      split <;> rfl
    · exact inserted
  · exact inserted

theorem Current.delete (current : Current lag env pd) (route : RouteDescriptor) : Current lag env (route_descriptor_delete pd route).1 := by
  refine current.fewer fun other member => ?_
  simp only [route_descriptor_delete,PrefixDescriptor.routes,List.mem_append] at member ⊢
  split at member
  · exact member.imp_right fun kept => (List.mem_filter.mp kept).1
  · exact member.imp_left fun kept => (List.mem_filter.mp kept).1

theorem delete_unreachable_current (routes : List RouteDescriptor) (current : Current lag env pd) :
    Current lag env (delete_unreachable routes pd).1 := by
  induction routes generalizing pd with
  | nil => exact current
  | cons route routes ih =>
    unfold delete_unreachable
    split
    · exact ih (current.delete route)
    · exact ih current

theorem retire_current (current : Current lag env pd) : Current lag env (pd |> update_topology_table_prefix).1 := by
  unfold update_topology_table_prefix
  dsimp only
  split
  · exact current
  · split <;> exact delete_unreachable_current _ current

/-- The route that a message names can be measured: it is attributed, a message about a connected route finds it up to date, and one
    of the router itself is about a redistributed path or withdraws. -/
structure Measurable (lag : Lag) (env : Env) (msg : Msg) (route : RouteDescriptor) : Prop where
  attributed : Attributed route
  connected : msg.data_type = .connected → Kept lag env route
  own : route.adv_router = some .self → (msg.data_type = .ext ∧ route.ei = none) ∨ msg.metrics.delay = max_metric ∨ msg.data_type = .connected

theorem Measurable.learned {learned : RouteDescriptor} (measurable : Measurable lag env msg route) (kind : msg.data_type ≠ .connected)
    (unseeded : ¬ (msg.data_type = .ext ∧ route.adv_router = some .self ∧ route.ei = none))
    (done : route_learn env route msg.metrics = some learned) : Kept lag env learned := by
  refine learned_kept done measurable.attributed fun own => ?_
  rcases measurable.own own with ⟨external,ei⟩ | gone | connected
  · exact absurd ⟨external,own,ei⟩ unseeded
  · exact gone
  · exact absurd connected kind

/-- Measuring leaves the other routes alone and brings the message's own up to date, unless that one is stored as it is. -/
theorem distance_measure_current {change : MetricChange} (stored : ∀ other ∈ pd.routes, other.id = route.id ∨ Kept lag env other)
    (unchanged : msg.transient_route ∨ msg.data_type = .connected ∨ metrics_match msg.metrics route.reported_metric → Current lag env pd)
    (named : msg.named route = route) (measurable : Measurable lag env msg route)
    (done : distance_measure env pd msg route = some (next, after, change)) : Current lag env next := by
  have adv_router : (route.adv_router <|> msg.adv_router) = route.adv_router := congrArg RouteDescriptor.adv_router named
  have interface : (route.ei <|> msg.adv_router.bind Nbr.ei) = route.ei := congrArg RouteDescriptor.ei named
  have relinked {after : RouteDescriptor} (kept : Kept lag env after) (number : after.id = route.id) : Current lag env (route_relink pd after) := by
    intro other member
    rcases mem_routes_relink.mp member with rfl | ⟨present,different⟩
    · exact kept
    · exact (stored other present).resolve_left (number ▸ different)
  have learns {learned : RouteDescriptor} (kind : msg.data_type ≠ .connected)
      (unseeded : ¬ (msg.data_type = .ext ∧ route.adv_router = some .self ∧ route.ei = none))
      (found : route_learn env route msg.metrics = some learned) : Current lag env (route_relink pd learned) := by
    have kept := measurable.learned kind unseeded found
    obtain ⟨ei,_,rfl⟩ := Option.map_eq_some_iff.mp found
    exact relinked kept rfl
  unfold distance_measure at done
  split at done
  · rename_i transient
    cases done
    exact unchanged (.inl transient)
  · simp only [adv_router,interface] at done
    cases kind : msg.data_type with
    | connected =>
      simp only [kind] at done
      split at done
      · cases done
        exact unchanged (.inr (.inl kind))
      · cases done
        exact relinked (measurable.connected kind) rfl
    | int =>
      simp only [kind] at done
      split at done
      · rename_i match_
        cases done
        simp only [Bool.and_eq_true] at match_
        exact unchanged (.inr (.inr match_.2))
      · obtain ⟨learned,found,result⟩ := Option.bind_eq_some_iff.mp done
        cases result
        exact learns (by simp [kind]) (by simp [kind]) found
    | ext =>
      simp only [kind] at done
      split at done
      · rename_i match_
        cases done
        simp only [Bool.and_eq_true] at match_
        exact unchanged (.inr (.inr match_.2))
      · split at done
        · rename_i seeded
          cases done
          exact relinked (@seeded_kept lag env route msg.metrics seeded.1 seeded.2) rfl
        · rename_i unseeded
          obtain ⟨learned,found,result⟩ := Option.bind_eq_some_iff.mp done
          cases result
          exact learns (by simp [kind]) (fun seeded => unseeded seeded.2) found

/-- A route that is refused its item is out of date nowhere any more. -/
theorem update_distance_current {last : Msg} {change : MetricChange}
    (stored : ∀ other ∈ pd.routes, other.id = route.id ∨ Kept lag env other)
    (unchanged : msg.transient_route ∨ msg.data_type = .connected ∨ metrics_match msg.metrics route.reported_metric → Current lag env pd)
    (named : msg.named route = route) (measurable : Measurable lag env msg route)
    (done : update_distance env pd msg route = some (next, last, after, change)) : Current lag env next := by
  obtain ⟨⟨measured,found,class_of⟩,distance,finished⟩ := Option.bind_eq_some_iff.mp done
  dsimp only at finished
  split at finished
  · cases finished
    intro other member
    obtain ⟨present,different⟩ := mem_routes_unlink.mp member
    exact (stored other present).resolve_left different
  · cases finished
    exact distance_measure_current stored unchanged named measurable distance

/-- An event of DUAL about a route that can be measured keeps the destination up to date. -/
theorem fsm_event_current (stored : ∀ other ∈ pd.routes, other.id = route.id ∨ Kept lag env other)
    (unchanged : msg.transient_route ∨ msg.data_type = .connected ∨ metrics_match msg.metrics route.reported_metric → Current lag env pd)
    (named : msg.named route = route) (measurable : Measurable lag env msg route)
    (done : fsm_event env pd msg route = some (next, out)) : Current lag env next := by
  obtain ⟨current,last,after,change,measured,queues⟩ := fsm_event_linked done
  exact (update_distance_current stored unchanged named measurable measured).same queues.routes

/-- The same where all routes are up to date before. -/
theorem Current.event (current : Current lag env pd) (named : msg.named route = route) (measurable : Measurable lag env msg route)
    (done : fsm_event env pd msg route = some (next, out)) : Current lag env next :=
  fsm_event_current (fun other member => .inr (current other member)) (fun _ => current) named measurable done

end Destinations

/-! ## Calls -/

section Calls
variable {lag : Lag} {env : Env} {pd next : PrefixDescriptor} {msg : Msg} {route : RouteDescriptor} {nbr : Nbr} {received : Received}
  {out : List Effect}

theorem peer_interface (peer : nbr ≠ .self) : nbr.ei ≠ none := by
  cases nbr with
  | self => exact absurd rfl peer
  | peer ei id => simp [Nbr.ei]

/-- A route of a neighbor that the event may measure. -/
theorem peer_measurable (peer : nbr ≠ .self) (owner : route.adv_router = some nbr) (ei : route.ei ≠ none)
    (kind : msg.data_type ≠ .connected) : msg.named route = route ∧ Measurable lag env msg route := by
  obtain ⟨ei,known⟩ := Option.ne_none_iff_exists'.mp ei
  have foreign : route.adv_router ≠ some .self := by
    rw [owner]
    simpa using peer
  refine ⟨?_,⟨by simp [owner],fun _ => by simp [known],fun own => absurd own foreign⟩,fun connected => absurd connected kind,
    fun own => absurd own foreign⟩
  cases route
  subst known
  subst owner
  rfl

theorem lookup_measurable (current : Current lag env pd) (peer : nbr ≠ .self) (found : prefix_descriptor_lookup pd nbr = some route)
    (kind : msg.data_type ≠ .connected) : msg.named route = route ∧ Measurable lag env msg route := by
  obtain ⟨stored,owner⟩ := lookup_owner found
  refine peer_measurable peer owner ((current route stored).attributed.learned ?_) kind
  rw [owner]
  simpa using peer

/-- The stored route of a neighbor takes over class, next hop and external data. -/
theorem refreshed_current (tidy : Tidy pd) (current : Current lag env pd) (peer : nbr ≠ .self)
    (found : prefix_descriptor_lookup pd nbr = some route) (tlv : Tlv) :
    Current lag env (route_write pd route.id fun route => refreshed route tlv) := by
  obtain ⟨stored,owner⟩ := lookup_owner found
  intro other member
  rw [route_write_eq_map] at member
  obtain ⟨old,present,rfl⟩ := mem_routes_map.mp member
  split
  · rename_i number
    obtain rfl := tidy.unique stored present number
    refine (current old present).same ⟨rfl,rfl,rfl,rfl,rfl,rfl,rfl⟩ fun own => ?_
    have own : old.adv_router = some .self := own
    rw [owner] at own
    cases own
    exact absurd rfl peer
  · exact current old present

theorem receive_current {packet_type : Opcode} {tlv : Tlv} {metrics : Metrics} {admitted : Bool} (tidy : Tidy pd) (current : Current lag env pd)
    (peer : nbr ≠ .self) (done : receive env pd packet_type nbr tlv metrics admitted = some (next, out)) : Current lag env next := by
  unfold receive at done
  dsimp only at done
  split at done
  · rename_i route found
    have written := refreshed_current tidy current peer found tlv
    obtain ⟨stored,owner⟩ := lookup_owner found
    have interface : route.ei ≠ none := (current route stored).attributed.learned (by rw [owner]; simpa using peer)
    have fits := @peer_measurable lag env { packet_type, adv_router := some nbr, data_type := data_type tlv.external, metrics }
      (refreshed route tlv) nbr peer owner interface (data_type_learned _)
    exact written.event fits.1 fits.2 done
  · have fits := @peer_measurable lag env
      { packet_type, adv_router := some nbr, data_type := data_type tlv.external, metrics, transient_route := !admitted }
      (received_route pd nbr tlv) nbr peer rfl (peer_interface peer) (data_type_learned _)
    have start : Current lag env { pd with next_route := pd.next_route + 1 } := current.of_routes rfl
    exact start.event fits.1 fits.2 done

theorem query_unknown_route_record_current (tidy : Tidy pd) (current : Current lag env pd) (peer : nbr ≠ .self)
    (done : query_unknown_route_record env pd nbr received = some next) : Current lag env next := by
  unfold query_unknown_route_record at done
  split at done
  · cases done
    exact current
  · split at done
    · rename_i previous found
      obtain ⟨⟨measured,last,after,change⟩,update,result⟩ := Option.bind_eq_some_iff.1 done
      cases result
      have written := refreshed_current tidy current peer found received.tlv
      obtain ⟨stored,owner⟩ := lookup_owner found
      have interface : previous.ei ≠ none := (current previous stored).attributed.learned (by rw [owner]; simpa using peer)
      let msg : Msg := { packet_type := .update, adv_router := some nbr
                         data_type := data_type received.tlv.external, metrics := received.tlv.metric }
      have fits := @peer_measurable lag env msg (refreshed previous received.tlv) nbr peer owner interface (data_type_learned _)
      exact update_distance_current (fun other member => .inr (written other member)) (fun _ => written) fits.1 fits.2 update
    · obtain ⟨route,learned,result⟩ := Option.bind_eq_some_iff.1 done
      cases result
      have start : Current lag env { pd with next_route := pd.next_route + 1 } := current.of_routes rfl
      refine start.insert (learned_kept learned ?_ fun own => ?_)
      · exact ⟨by simp [received_route],fun _ => peer_interface peer,fun own => absurd (Option.some.inj own) peer⟩
      · exact absurd (Option.some.inj own) peer

theorem neighbor_lost_current (current : Current lag env pd) (peer : nbr ≠ .self) (done : neighbor_lost env pd nbr = some (next, out)) :
    Current lag env next := by
  unfold neighbor_lost at done
  split at done
  · rename_i route found
    obtain ⟨named,measurable⟩ := @lookup_measurable lag env pd
      { packet_type := if pd.state = .passive then .update else .reply, adv_router := some nbr
        data_type := data_type route.external, metrics := { delay := max_metric } } route nbr current peer found (data_type_learned _)
    exact current.event named measurable done
  · exact current.same (fsm_neighbor_down_same done)

/-- A connected path that is withdrawn keeps its interface. -/
theorem connected_routes_down_current {ids : List Nat} (current : Current lag env pd)
    (done : connected_routes_down env ids pd = some (next, out)) : Current lag env next := by
  induction ids generalizing pd next out with
  | nil =>
    cases done
    exact current
  | cons id ids ih =>
    obtain ⟨route,found,done⟩ := Option.bind_eq_some_iff.mp done
    obtain ⟨⟨middle,first⟩,event,done⟩ := Option.bind_eq_some_iff.mp done
    obtain ⟨⟨last,rest⟩,loop,finished⟩ := Option.bind_eq_some_iff.mp done
    cases finished
    have attributed := (current route (List.mem_of_find?_eq_some found)).attributed
    refine ih (current.event ?_ ?_ event) loop
    · obtain ⟨owner,known⟩ := Option.ne_none_iff_exists'.mp attributed.adv_router
      cases route
      subst known
      simp [Msg.named,Nbr.ei]
    · exact ⟨attributed,by simp,fun _ => .inr (.inl rfl)⟩

theorem redistributed_remove_current {source : Source} (current : Current lag env pd)
    (done : redistributed_remove_pd env pd source = some (next, out)) : Current lag env next := by
  unfold redistributed_remove_pd at done
  split at done
  · cases done
    exact current
  · rename_i route found
    have stored : route ∈ pd.routes := List.mem_append_right _ (List.mem_of_find?_eq_some found)
    have own := List.find?_some found
    simp only [Bool.decide_and,Bool.and_eq_true,decide_eq_true_eq] at own
    have attributed := (current route stored).attributed
    have ei := attributed.external own.1 (by simpa using own.2.1)
    refine current.event ?_ ⟨attributed,by simp,fun _ => .inl ⟨rfl,ei⟩⟩ done
    obtain ⟨owner,_⟩ := own
    cases route
    subst owner
    subst ei
    rfl

theorem update_receive_current (tidy : Tidy pd) (current : Current lag env pd) (peer : nbr ≠ .self)
    (done : update_receive_pd env pd nbr received = some (next, out)) : Current lag env next := by
  rcases update_receive_eq env pd nbr received with refused | taken
  · rw [refused] at done
    cases done
    exact current
  · rw [taken] at done
    exact receive_current tidy current peer done

theorem query_receive_current (tidy : Tidy pd) (current : Current lag env pd) (peer : nbr ≠ .self)
    (done : query_receive_pd env pd nbr received = some (next, out)) : Current lag env next := by
  unfold query_receive_pd at done
  split at done
  · cases done
    exact current
  · split at done
    · obtain ⟨recorded,record,finished⟩ := Option.bind_eq_some_iff.mp done
      cases finished
      exact query_unknown_route_record_current tidy current peer record
    · exact receive_current tidy current peer done

theorem siareply_receive_current (current : Current lag env pd) (peer : nbr ≠ .self)
    (done : siareply_receive_pd env pd nbr received = some (next, out)) : Current lag env next := by
  unfold siareply_receive_pd at done
  split at done
  · cases done
    exact current
  · split at done
    · cases done
      exact current.of_routes rfl
    · dsimp only at done
      split at done
      · rename_i route found
        let msg : Msg := { packet_type := .reply, adv_router := some nbr
                           data_type := data_type received.tlv.external, metrics := received.tlv.metric }
        have fits := @lookup_measurable lag env pd msg route nbr current peer found (data_type_learned _)
        exact current.event fits.1 fits.2 done
      · have fits := @peer_measurable lag env
          { packet_type := .reply, adv_router := some nbr, data_type := data_type received.tlv.external, metrics := received.tlv.metric
            transient_route := !nbr_route_admitted env received received.tlv.metric }
          (received_route pd nbr received.tlv) nbr peer rfl (peer_interface peer) (data_type_learned _)
        have start : Current lag env { pd with next_route := pd.next_route + 1 } := current.of_routes rfl
        exact start.event fits.1 fits.2 done

theorem gr_ask_current (current : Current lag env pd) (peer : nbr ≠ .self) (done : gr_ask_pd env pd nbr = some (next, out)) :
    Current lag env next := by
  let msg : Msg := { packet_type := .update, adv_router := some nbr, data_type := .int, metrics := poisoned pd.reported_metric }
  unfold gr_ask_pd at done
  dsimp only at done
  split at done
  · rename_i route found
    have fits := @lookup_measurable lag env pd msg route nbr current peer found (by simp [msg])
    exact current.event fits.1 fits.2 done
  · have fits := @peer_measurable lag env msg { id := pd.next_route, adv_router := some nbr, ei := nbr.ei } nbr peer rfl
      (peer_interface peer) (by simp [msg])
    have start : Current lag env { pd with next_route := pd.next_route + 1 } := current.of_routes rfl
    exact start.event fits.1 fits.2 done

/-- The new connected path is measured when it is built. -/
theorem intf_up_current {ei : Nat} (current : Current lag env pd) (done : intf_up_pd env pd ei = some (next, out)) : Current lag env next := by
  obtain ⟨route,found,done⟩ := Option.bind_eq_some_iff.mp done
  obtain ⟨⟨last,more⟩,event,finished⟩ := Option.bind_eq_some_iff.mp done
  cases finished
  have deleted : Current lag env (intf_up_deleted pd ei).1 := by
    unfold intf_up_deleted
    split
    · split
      · exact current.delete _
      · exact current
    · exact current
  have numbered : Current lag env { (intf_up_deleted pd ei).1 with next_route := (intf_up_deleted pd ei).1.next_route + 1 } :=
    deleted.of_routes rfl
  have added : Current lag env (intf_up_added env pd ei).1 := numbered.add (connected_route_kept lag env _ ei)
  have kept : Kept lag env route := added route (List.mem_of_find?_eq_some found)
  refine added.event ?_ ⟨kept.attributed,fun _ => kept,fun _ => .inr (.inr rfl)⟩ event
  obtain ⟨owner,known⟩ := Option.ne_none_iff_exists'.mp kept.attributed.adv_router
  cases route
  subst known
  simp [Msg.named]

theorem redistributed_update_mark_current (current : Current lag env pd) : Current lag env (redistributed_update_mark pd).1 := by
  unfold redistributed_update_mark
  split
  · exact current.of_routes rfl
  · exact current

theorem redistributed_update_current {source : Source} {metric : Metrics} (tidy : Tidy pd) (current : Current lag env pd)
    (seeded : Seeded metric) (done : redistributed_update_pd env pd source metric = some (next, out)) :
    Current lag env next := by
  let update := fun route : RouteDescriptor =>
    { route with external := true, adv_router := some .self, ei := none, extdata := source.extdata, nexthop := source.nexthop }
  let msg : Msg := { packet_type := .update, adv_router := some .self, data_type := .ext, metrics := metric }
  have fits (route : RouteDescriptor) : msg.named (update route) = update route ∧ Measurable lag env msg (update route) := by
    refine ⟨rfl,⟨by simp [update],?_,fun _ _ => rfl⟩,by simp [msg],fun _ => .inl ⟨rfl,rfl⟩⟩
    intro peer
    exact absurd rfl peer
  have fate {middle : PrefixDescriptor} {more : List Effect} {changed : Bool} (kept : Current lag env middle)
      (finished : some ((if changed then redistributed_update_mark middle else (middle, [])).1,
        [] ++ more ++ (if changed then redistributed_update_mark middle else (middle, [])).2) = some (next, out)) : Current lag env next := by
    cases finished
    cases changed with
    | false => exact kept
    | true => exact redistributed_update_mark_current kept
  unfold redistributed_update_pd at done
  cases found : redistributed_route_lookup pd source with
  | some route =>
    simp only [found] at done
    obtain ⟨⟨middle,more⟩,event,finished⟩ := Option.bind_eq_some_iff.mp done
    have stored : route ∈ pd.routes := List.mem_append_right _ (List.mem_of_find?_eq_some found)
    have own := List.find?_some found
    simp only [Bool.decide_and,Bool.and_eq_true,decide_eq_true_eq] at own
    have ei := (current route stored).attributed.external own.1 (by simpa using own.2.1)
    have written : Current lag env (route_write pd route.id update) := by
      intro other member
      rw [route_write_eq_map] at member
      obtain ⟨old,present,rfl⟩ := mem_routes_map.mp member
      split
      · rename_i number
        obtain rfl := tidy.unique stored present number
        refine (current old present).same ⟨rfl,own.1.symm,ei.symm,rfl,rfl,rfl,rfl⟩ fun _ => ?_
        simpa [update] using own.2.1.symm
      · exact current old present
    exact fate (written.event (fits route).1 (fits route).2 event) finished
  | none =>
    let fresh : RouteDescriptor := { id := pd.next_route, external := true, adv_router := some .self }
    let start := route_insert { pd with next_route := pd.next_route + 1 } fresh
    have plain : route_descriptor_add env { pd with next_route := pd.next_route + 1 }
        { id := pd.next_route, external := true, adv_router := some .self } = (start, []) := route_descriptor_add_plain rfl
    simp only [found,plain] at done
    obtain ⟨⟨middle,more⟩,event,finished⟩ := Option.bind_eq_some_iff.mp done
    refine fate (fsm_event_current ?_ ?_ (fits fresh).1 (fits fresh).2 event) finished
    · -- the new route is empty until the seed is measured
      intro other member
      rw [route_write_eq_map] at member
      obtain ⟨old,present,rfl⟩ := mem_routes_map.mp member
      split
      · rename_i number
        exact .inl number
      · rename_i different
        rcases mem_routes_insert.mp present with rfl | stored
        · exact absurd rfl different
        · exact .inr (current old stored)
    · intro unmeasured
      rcases unmeasured with transient | connected | same
      · cases transient
      · cases connected
      · have same : metrics_match metric {} = true := same
        simp only [Seeded] at seeded
        rw [seeded] at same
        cases same

/-- A refresh of a PASSIVE destination recomputes all its routes. -/
theorem metric_update_current {old : Env} (kept : Current lag old pd) (passive : pd.state = .passive) :
    Current lag env (metric_update_pd env pd).1 := by
  have refreshed : Current lag env (metric_refreshed env pd) := by
    intro route member
    have listed : route ∈ pd.internal_routes.map (route_refresh env) ∨ route ∈ pd.external_routes.map (route_refresh env) := by
      rcases List.mem_append.mp member with inside | outside
      · exact .inl ((List.perm_insertionSort _ _).mem_iff.mp inside)
      · exact .inr ((List.perm_insertionSort _ _).mem_iff.mp outside)
    rcases listed with inside | outside
    · obtain ⟨before,stored,rfl⟩ := List.mem_map.mp inside
      exact route_refresh_kept (kept before (List.mem_append_left _ stored)).attributed
    · obtain ⟨before,stored,rfl⟩ := List.mem_map.mp outside
      exact route_refresh_kept (kept before (List.mem_append_right _ stored)).attributed
  rcases metric_update_cases env pd with ⟨active,_⟩ | ⟨_,unelected⟩ | ⟨_,committed⟩
  · exact absurd passive active
  · rw [unelected]
    exact refreshed
  · rw [committed]
    have routes : (metric_committed (metric_refreshed env pd)).routes = (metric_refreshed env pd).routes := by
      unfold metric_committed
      split <;> rfl
    have chosen : Current lag env (metric_committed (metric_refreshed env pd)) := refreshed.of_routes routes
    have posted := chosen.same (refreshed_table_same env (metric_committed (metric_refreshed env pd)))
    exact posted.of_routes rfl

theorem metric_update_keeps_current (current : Current lag env pd) : Current lag env (metric_update_pd env pd).1 := by
  by_cases passive : pd.state = .passive
  · exact metric_update_current current passive
  · rcases metric_update_cases env pd with ⟨_,same⟩ | ⟨rests,_⟩ | ⟨rests,_⟩
    · rw [same]
      exact current
    · exact absurd rests passive
    · exact absurd rests passive

end Calls

/-! ## All calls and constructors -/

section Everything
variable {lag : Lag} {env : Env} {pd next : PrefixDescriptor} {out : List Effect}

theorem exec_current {call : Call} (tidy : Tidy pd) (peer : call.nbr ≠ some .self) (seeds : call.Seeds)
    (done : exec env pd call = some (next, out)) (current : Current lag env pd) : Current lag env next := by
  have other {nbr : Nbr} (named : some nbr ≠ some Nbr.self) : nbr ≠ .self := fun same => named (congrArg some same)
  cases call with
  | update_receive nbr received => exact update_receive_current tidy current (other peer) done
  | query_receive nbr received => exact query_receive_current tidy current (other peer) done
  | reply_receive nbr received =>
    simp only [exec,reply_receive_pd] at done
    split at done
    · cases done
      exact current
    · exact receive_current tidy current (other peer) done
  | siaquery_receive nbr received =>
    obtain ⟨⟨result,more⟩,heard,finished⟩ := Option.bind_eq_some_iff.mp done
    cases finished
    exact receive_current tidy current (other peer) heard
  | siareply_receive nbr received => exact siareply_receive_current current (other peer) done
  | gr_ask nbr => exact gr_ask_current current (other peer) done
  | neighbor_down nbr =>
    have forgotten : Current lag env { pd with query_origin := if pd.query_origin = some nbr then none else pd.query_origin } :=
      current.of_routes rfl
    exact neighbor_lost_current forgotten (other peer) done
  | suspended_origin_clear nbrs =>
    obtain ⟨rfl,rfl⟩ := exec_some done
    exact current.of_routes rfl
  | connected_interface_down ei => exact connected_routes_down_current current done
  | intf_up ei => exact intf_up_current current done
  | redistributed_update source metric => exact redistributed_update_current tidy current (seeds source metric rfl) done
  | redistributed_remove source => exact redistributed_remove_current current done
  | metric_update =>
    obtain ⟨rfl,rfl⟩ := exec_some done
    exact metric_update_keeps_current current
  | multipath_update =>
    obtain ⟨rfl,rfl⟩ := exec_some done
    unfold multipath_update_pd
    split
    · exact current
    · exact current.same (refreshed_table_same env pd)
  | traffic_share_update =>
    obtain ⟨rfl,rfl⟩ := exec_some done
    unfold traffic_share_update_pd
    split
    · exact current
    · exact current.same (update_routing_table_same env pd)
  | routes_replay =>
    obtain ⟨rfl,rfl⟩ := exec_some done
    exact current.same (routes_replay_queues env pd).routes
  | query_rij_add nbrs =>
    obtain ⟨rfl,rfl⟩ := exec_some done
    obtain ⟨_,eq,_⟩ := reply_status_add_foldl nbrs pd
    rw [eq]
    exact current.of_routes rfl
  | query_sent =>
    obtain ⟨rfl,rfl⟩ := exec_some done
    rcases fsm_query_sent_cases env pd with ⟨_,eq⟩ | ⟨_,_,_,eq⟩ | ⟨_,_,eq⟩
    · rwa [eq]
    · rw [eq]
      exact current.of_routes rfl
    · rw [eq]
      exact current.same (fsm_event_lr_same env pd)
  | action_clear action =>
    obtain ⟨rfl,rfl⟩ := exec_some done
    cases action <;> exact current.of_routes rfl
  | retire =>
    obtain ⟨rfl,rfl⟩ := exec_some done
    exact retire_current current
  | active_timer_expired =>
    obtain ⟨rfl,rfl⟩ := exec_some done
    obtain ⟨_,_,eq,_⟩ := fsm_active_timer_expired_cases env pd
    rw [eq]
    exact current.of_routes rfl

theorem empty_current (empty : pd.routes = []) : Current lag env pd := by
  intro route member
  rw [empty] at member
  cases member

theorem routes_add_current {routes : List RouteDescriptor} (current : Current lag env pd) (kept : ∀ route ∈ routes, Kept lag env route) :
    Current lag env (routes_add env routes pd).1 := by
  induction routes generalizing pd with
  | nil => exact current
  | cons route routes ih =>
    exact ih (current.add (kept route List.mem_cons_self)) fun other member => kept other (List.mem_cons_of_mem route member)

theorem creation_current {id : Nat} {creation : Creation} (peer : (Label.create creation).nbr ≠ some .self)
    (old : ∀ old, (Label.create creation).old = some old → Current lag env old) (built : creation.build env id = some (pd, out)) :
    Current lag env pd := by
  have other {nbr : Nbr} (named : some nbr ≠ some Nbr.self) : nbr ≠ .self := fun same => named (congrArg some same)
  cases creation with
  | update nbr received =>
    have peer := other peer
    obtain ⟨learned,found,finished⟩ := Option.bind_eq_some_iff.mp built
    obtain ⟨rfl,rfl⟩ := exec_some finished
    have kept : Kept lag env learned :=
      learned_kept found ⟨by simp [received_route],fun _ => peer_interface peer,fun own => absurd (Option.some.inj own) peer⟩
        fun own => absurd (Option.some.inj own) peer
    have stored {start : PrefixDescriptor} {metric : Metrics} (empty : start.routes = []) :
        Current lag env { update_node_flags env { (route_descriptor_add env start { learned with metric := received.tlv.metric }).1 with
          reported_metric := metric } with need_update := true } := by
      have named : Kept lag env { learned with metric := received.tlv.metric } := kept.same ⟨rfl,rfl,rfl,rfl,rfl,rfl,rfl⟩ fun _ => rfl
      have added : Current lag env { (route_descriptor_add env start { learned with metric := received.tlv.metric }).1 with
          reported_metric := metric } := ((empty_current empty).add named).of_routes rfl
      exact (added.same (update_node_flags_same env _)).of_routes rfl
    exact stored rfl
  | query nbr received =>
    have peer := other peer
    obtain ⟨route,found,finished⟩ := Option.bind_eq_some_iff.mp built
    obtain ⟨rfl,rfl⟩ := exec_some finished
    refine (empty_current rfl).insert (learned_kept found ?_ fun own => absurd (Option.some.inj own) peer)
    exact ⟨by simp [received_route],fun _ => peer_interface peer,fun own => absurd (Option.some.inj own) peer⟩
  | connected destination ei =>
    obtain ⟨rfl,rfl⟩ := exec_some built
    exact (empty_current rfl).add (connected_route_kept lag env 0 ei)
  | redistributed destination source metric =>
    obtain ⟨rfl,rfl⟩ := exec_some built
    refine redistributed_update_mark_current ((empty_current rfl).add ?_)
    refine ⟨.inl ⟨.inl ?_,?_⟩,?_,fun foreign => absurd rfl foreign,fun _ _ => rfl⟩
    · rfl
    · rfl
    · simp
  | connected_recreate cleared =>
    obtain ⟨rfl,rfl⟩ := exec_some built
    refine routes_add_current (empty_current rfl) fun route member => ?_
    exact old cleared rfl route (List.mem_append_left _ (List.mem_filter.mp member).1)
  | remote_requery cleared =>
    obtain ⟨rfl,rfl⟩ := exec_some built
    exact empty_current rfl

end Everything

end Eigrp
