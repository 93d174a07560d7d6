import Eigrp.Destination

/-!
# What an event does to a destination

`eigrp_fsm_event` in terms of its outcomes: the routes are brought up to date first, a REPLY is
taken off the neighbors that owe one, and then exactly one thing happens to the destination. The
properties of runs rest on these cases and never look into the handlers again.
-/

namespace Eigrp

/-! ## Changes of routes -/

/-- The descriptors differ at most in their routes. -/
structure Rerouted (pd next : PrefixDescriptor) : Prop where
  id : next.id = pd.id
  destination : next.destination = pd.destination
  rij : next.rij = pd.rij
  reported_metric : next.reported_metric = pd.reported_metric
  fdistance : next.fdistance = pd.fdistance
  rdistance : next.rdistance = pd.rdistance
  distance : next.distance = pd.distance
  nt : next.nt = pd.nt
  state : next.state = pd.state
  need_update : next.need_update = pd.need_update
  need_query : next.need_query = pd.need_query
  t_active : next.t_active = pd.t_active
  query_origin : next.query_origin = pd.query_origin

/-- A route may be stored anew, or leave its number to the next one, and nothing else changes. -/
theorem Rerouted.of_routes (pd : PrefixDescriptor) (internal external : List RouteDescriptor) (next_route : Nat) :
    Rerouted pd { pd with internal_routes := internal, external_routes := external, next_route } :=
  ⟨rfl,rfl,rfl,rfl,rfl,rfl,rfl,rfl,rfl,rfl,rfl,rfl,rfl⟩

theorem Rerouted.refl (pd : PrefixDescriptor) : Rerouted pd pd := .of_routes pd _ _ _

theorem Rerouted.trans {pd middle next : PrefixDescriptor} (first : Rerouted pd middle) (second : Rerouted middle next) :
    Rerouted pd next where
  id := second.id.trans first.id
  destination := second.destination.trans first.destination
  rij := second.rij.trans first.rij
  reported_metric := second.reported_metric.trans first.reported_metric
  fdistance := second.fdistance.trans first.fdistance
  rdistance := second.rdistance.trans first.rdistance
  distance := second.distance.trans first.distance
  nt := second.nt.trans first.nt
  state := second.state.trans first.state
  need_update := second.need_update.trans first.need_update
  need_query := second.need_query.trans first.need_query
  t_active := second.t_active.trans first.t_active
  query_origin := second.query_origin.trans first.query_origin

theorem route_insert_rerouted (pd : PrefixDescriptor) (route : RouteDescriptor) : Rerouted pd (route_insert pd route) := by
  unfold route_insert
  split <;> exact .of_routes pd _ _ _

theorem route_write_rerouted (pd : PrefixDescriptor) (id : Nat) (update : RouteDescriptor → RouteDescriptor) :
    Rerouted pd (route_write pd id update) := .of_routes pd _ _ _

theorem routes_map_rerouted (pd : PrefixDescriptor) (update : RouteDescriptor → RouteDescriptor) :
    Rerouted pd (routes_map pd update) := .of_routes pd _ _ _

theorem route_relink_rerouted (pd : PrefixDescriptor) (route : RouteDescriptor) : Rerouted pd (route_relink pd route) :=
  (Rerouted.of_routes pd _ _ _).trans (route_insert_rerouted _ route)

theorem route_descriptor_add_rerouted (env : Env) (pd : PrefixDescriptor) (route : RouteDescriptor) :
    Rerouted pd (route_descriptor_add env pd route).1 := by
  have inserted := route_insert_rerouted pd route
  unfold route_descriptor_add
  dsimp only
  split
  · split
    · exact inserted.trans (route_write_rerouted _ _ _)
    · exact inserted
  · exact inserted

theorem route_descriptor_delete_rerouted (pd : PrefixDescriptor) (route : RouteDescriptor) :
    Rerouted pd (route_descriptor_delete pd route).1 := .of_routes pd _ _ _

theorem update_node_flags_rerouted (env : Env) (pd : PrefixDescriptor) : Rerouted pd (update_node_flags env pd) := by
  unfold update_node_flags
  dsimp only
  split
  · exact routes_map_rerouted pd _
  · split <;> exact (routes_map_rerouted pd _).trans (.of_routes _ _ _ _)

theorem update_routing_table_rerouted (env : Env) (pd : PrefixDescriptor) : Rerouted pd (update_routing_table env pd).1 := by
  unfold update_routing_table
  dsimp only
  split
  · exact (routes_map_rerouted pd _).trans (routes_map_rerouted _ _)
  · exact routes_map_rerouted pd _

theorem delete_unreachable_rerouted (routes : List RouteDescriptor) (pd : PrefixDescriptor) :
    Rerouted pd (delete_unreachable routes pd).1 := by
  induction routes generalizing pd with
  | nil => exact .refl pd
  | cons route routes ih =>
    unfold delete_unreachable
    split
    · exact (route_descriptor_delete_rerouted pd route).trans (ih _)
    · exact ih pd

/-! ## Route numbers -/

/-- The routes of a destination have different numbers, all of them handed out. -/
structure Tidy (pd : PrefixDescriptor) : Prop where
  numbers : (pd.routes.map (·.id)).Nodup
  bounded : ∀ route ∈ pd.routes, route.id < pd.next_route

theorem Tidy.unique {pd : PrefixDescriptor} (tidy : Tidy pd) {route other : RouteDescriptor} (stored : route ∈ pd.routes)
    (member : other ∈ pd.routes) (same : other.id = route.id) : other = route :=
  List.inj_on_of_nodup_map tidy.numbers member stored same

/-- The same routes in the same order, whatever else changes about them. -/
structure SameNumbers (pd next : PrefixDescriptor) : Prop where
  numbers : next.routes.map (·.id) = pd.routes.map (·.id)
  next_route : next.next_route = pd.next_route

theorem SameNumbers.refl (pd : PrefixDescriptor) : SameNumbers pd pd := ⟨rfl,rfl⟩

theorem SameNumbers.trans {pd middle next : PrefixDescriptor} (first : SameNumbers pd middle) (second : SameNumbers middle next) :
    SameNumbers pd next := ⟨second.numbers.trans first.numbers,second.next_route.trans first.next_route⟩

theorem SameNumbers.tidy {pd next : PrefixDescriptor} (same : SameNumbers pd next) (tidy : Tidy pd) : Tidy next where
  numbers := same.numbers ▸ tidy.numbers
  bounded := by
    intro route member
    have listed : route.id ∈ pd.routes.map (·.id) := same.numbers ▸ List.mem_map_of_mem member
    obtain ⟨other,stored,equal⟩ := List.mem_map.mp listed
    have bound := tidy.bounded other stored
    rw [same.next_route]
    exact equal ▸ bound

theorem mem_routes_map {pd : PrefixDescriptor} {update : RouteDescriptor → RouteDescriptor} {other : RouteDescriptor} :
    other ∈ (routes_map pd update).routes ↔ ∃ route ∈ pd.routes, update route = other := by
  simp only [routes_map,PrefixDescriptor.routes,List.mem_append,List.mem_map]
  constructor
  · rintro (⟨route,member,rfl⟩ | ⟨route,member,rfl⟩)
    · exact ⟨route,.inl member,rfl⟩
    · exact ⟨route,.inr member,rfl⟩
  · rintro ⟨route,member | member,rfl⟩
    · exact .inl ⟨route,member,rfl⟩
    · exact .inr ⟨route,member,rfl⟩

theorem routes_map_routes (pd : PrefixDescriptor) (update : RouteDescriptor → RouteDescriptor) :
    (routes_map pd update).routes = pd.routes.map update := by
  simp [routes_map,PrefixDescriptor.routes]

theorem routes_map_numbers (pd : PrefixDescriptor) {update : RouteDescriptor → RouteDescriptor}
    (number : ∀ route, (update route).id = route.id) : SameNumbers pd (routes_map pd update) := by
  refine ⟨?_,rfl⟩
  rw [routes_map_routes,List.map_map]
  exact List.map_congr_left fun route _ => number route

/-- A route without its flags. -/
def RouteDescriptor.bare (route : RouteDescriptor) : RouteDescriptor :=
  { route with successor := false, fsuccessor := false, intable := false }

/-- The descriptors differ in their routes at most by flags. -/
structure SameRoutes (pd next : PrefixDescriptor) : Prop where
  routes : next.routes.map (·.bare) = pd.routes.map (·.bare)
  next_route : next.next_route = pd.next_route

theorem SameRoutes.refl (pd : PrefixDescriptor) : SameRoutes pd pd := ⟨rfl,rfl⟩

theorem SameRoutes.trans {pd middle next : PrefixDescriptor} (first : SameRoutes pd middle) (second : SameRoutes middle next) :
    SameRoutes pd next := ⟨second.routes.trans first.routes,second.next_route.trans first.next_route⟩

theorem SameRoutes.of_eq {pd start next : PrefixDescriptor} (same : SameRoutes start next) (routes : start.routes = pd.routes)
    (next_route : start.next_route = pd.next_route) : SameRoutes pd next :=
  ⟨same.routes.trans (by rw [routes]),same.next_route.trans next_route⟩

/-- Whatever is read off the routes without looking at flags is the same. -/
theorem SameRoutes.map {α : Type} {pd next : PrefixDescriptor} (same : SameRoutes pd next) (read : RouteDescriptor → α) :
    next.routes.map (read ∘ RouteDescriptor.bare) = pd.routes.map (read ∘ RouteDescriptor.bare) := by
  simpa only [List.map_map] using congrArg (List.map read) same.routes

theorem SameRoutes.numbers {pd next : PrefixDescriptor} (same : SameRoutes pd next) : SameNumbers pd next :=
  ⟨same.map (·.id),same.next_route⟩

/-- The descriptors differ at most by flags in each of the queues. -/
structure SameQueues (pd next : PrefixDescriptor) : Prop where
  internal : next.internal_routes.map (·.bare) = pd.internal_routes.map (·.bare)
  external : next.external_routes.map (·.bare) = pd.external_routes.map (·.bare)
  next_route : next.next_route = pd.next_route

theorem SameQueues.refl (pd : PrefixDescriptor) : SameQueues pd pd := ⟨rfl,rfl,rfl⟩

theorem SameQueues.trans {pd middle next : PrefixDescriptor} (first : SameQueues pd middle) (second : SameQueues middle next) :
    SameQueues pd next :=
  ⟨second.internal.trans first.internal,second.external.trans first.external,second.next_route.trans first.next_route⟩

theorem SameQueues.of_eq {pd start next : PrefixDescriptor} (same : SameQueues start next)
    (internal : start.internal_routes = pd.internal_routes) (external : start.external_routes = pd.external_routes)
    (next_route : start.next_route = pd.next_route) : SameQueues pd next :=
  ⟨same.internal.trans (by rw [internal]),same.external.trans (by rw [external]),same.next_route.trans next_route⟩

theorem SameQueues.routes {pd next : PrefixDescriptor} (same : SameQueues pd next) : SameRoutes pd next :=
  ⟨by simp [PrefixDescriptor.routes,same.internal,same.external],same.next_route⟩

theorem routes_map_queues (pd : PrefixDescriptor) {update : RouteDescriptor → RouteDescriptor}
    (kept : ∀ route, (update route).bare = route.bare) : SameQueues pd (routes_map pd update) := by
  refine ⟨?_,?_,rfl⟩
  · simp only [routes_map,List.map_map]
    exact List.map_congr_left fun route _ => kept route
  · simp only [routes_map,List.map_map]
    exact List.map_congr_left fun route _ => kept route

theorem routes_map_same (pd : PrefixDescriptor) {update : RouteDescriptor → RouteDescriptor}
    (kept : ∀ route, (update route).bare = route.bare) : SameRoutes pd (routes_map pd update) := (routes_map_queues pd kept).routes

theorem mark_queue_bare (env : Env) (pd : PrefixDescriptor) (max_paths count : Nat) (queue : List RouteDescriptor) :
    (mark_queue env pd max_paths count queue).map (·.bare) = queue.map (·.bare) := by
  induction queue generalizing count with
  | nil => rfl
  | cons route queue ih =>
    have marked : (mark_route env pd max_paths count route).1.bare = route.bare := by
      simp only [mark_route]
      split
      · split <;> rfl
      · rfl
    simp [mark_queue,ih,marked]

theorem update_node_flags_queues (env : Env) (pd : PrefixDescriptor) : SameQueues pd (update_node_flags env pd) := by
  have cleared : SameQueues pd (routes_map pd fun route => { route with successor := false, fsuccessor := false }) :=
    routes_map_queues pd fun _ => rfl
  unfold update_node_flags
  dsimp only
  split
  · exact cleared
  · refine cleared.trans ?_
    split
    · exact ⟨rfl,mark_queue_bare _ _ _ _ _,rfl⟩
    · exact ⟨mark_queue_bare _ _ _ _ _,rfl,rfl⟩

theorem update_routing_table_queues (env : Env) (pd : PrefixDescriptor) : SameQueues pd (update_routing_table env pd).1 := by
  have cleared : SameQueues pd (routes_map pd fun route => { route with intable := false }) := routes_map_queues pd fun _ => rfl
  unfold update_routing_table
  dsimp only
  split
  · refine cleared.trans (routes_map_queues _ fun route => ?_)
    split <;> rfl
  · exact cleared

theorem refreshed_table_queues (env : Env) (pd : PrefixDescriptor) :
    SameQueues pd (update_routing_table env (update_node_flags env pd)).1 :=
  (update_node_flags_queues env pd).trans (update_routing_table_queues env _)

theorem update_node_flags_same (env : Env) (pd : PrefixDescriptor) : SameRoutes pd (update_node_flags env pd) :=
  (update_node_flags_queues env pd).routes

theorem update_routing_table_same (env : Env) (pd : PrefixDescriptor) : SameRoutes pd (update_routing_table env pd).1 :=
  (update_routing_table_queues env pd).routes

theorem refreshed_table_same (env : Env) (pd : PrefixDescriptor) :
    SameRoutes pd (update_routing_table env (update_node_flags env pd)).1 := (refreshed_table_queues env pd).routes

theorem routes_insert_perm (pd : PrefixDescriptor) (route : RouteDescriptor) :
    (route_insert pd route).routes.Perm (route :: pd.routes) := by
  unfold route_insert PrefixDescriptor.routes queue_insert
  split
  · refine ((List.perm_orderedInsert _ route pd.external_routes).append_left pd.internal_routes).trans ?_
    exact List.perm_middle
  · exact (List.perm_orderedInsert _ route pd.internal_routes).append_right pd.external_routes

theorem tidy_relink {pd : PrefixDescriptor} {route : RouteDescriptor} (tidy : Tidy pd) (numbered : route.id < pd.next_route) :
    Tidy (route_relink pd route) := by
  have rest : ({ pd with internal_routes := queue_delete route.id pd.internal_routes
                         external_routes := queue_delete route.id pd.external_routes } : PrefixDescriptor).routes =
      pd.routes.filter fun other => other.id ≠ route.id := by
    simp [PrefixDescriptor.routes,queue_delete]
  have same := routes_insert_perm { pd with internal_routes := queue_delete route.id pd.internal_routes
                                            external_routes := queue_delete route.id pd.external_routes } route
  rw [rest] at same
  have next_route : (route_relink pd route).next_route = pd.next_route := by
    unfold route_relink route_insert
    split <;> rfl
  constructor
  · refine (same.map (·.id)).nodup_iff.mpr (List.nodup_cons.mpr ⟨?_,?_⟩)
    · intro member
      obtain ⟨other,stored,equal⟩ := List.mem_map.mp member
      have different := (List.mem_filter.mp stored).2
      simp only [decide_eq_true_eq] at different
      exact different equal
    · exact tidy.numbers.sublist (List.Sublist.map _ List.filter_sublist)
  · intro other member
    rw [next_route]
    rcases List.mem_cons.mp (same.mem_iff.mp member) with rfl | stored
    · exact numbered
    · exact tidy.bounded other (List.mem_of_mem_filter stored)

/-! ## Flags -/

/-- The routes that carry a flag, by number. -/
def flagged (flag : RouteDescriptor → Bool) (pd : PrefixDescriptor) : Set Nat :=
  { id | ∃ route ∈ pd.routes, route.id = id ∧ flag route }

/-- The same routes are successors and are in the host's table. -/
structure SameFlags (pd next : PrefixDescriptor) : Prop where
  successor : flagged (·.successor) next = flagged (·.successor) pd
  intable : flagged (·.intable) next = flagged (·.intable) pd

theorem SameFlags.refl (pd : PrefixDescriptor) : SameFlags pd pd := ⟨rfl,rfl⟩

theorem SameFlags.trans {pd middle next : PrefixDescriptor} (first : SameFlags pd middle) (second : SameFlags middle next) :
    SameFlags pd next := ⟨second.successor.trans first.successor,second.intable.trans first.intable⟩

/-- A route that carries the flags of what is stored under its number, or no flag if nothing is. -/
structure Consistent (pd : PrefixDescriptor) (route : RouteDescriptor) : Prop where
  stored : ∀ other ∈ pd.routes, other.id = route.id → other.successor = route.successor ∧ other.intable = route.intable
  fresh : (∀ other ∈ pd.routes, other.id ≠ route.id) → route.successor = false ∧ route.intable = false

theorem mem_queue_insert {route other : RouteDescriptor} {queue : List RouteDescriptor} :
    other ∈ queue_insert route queue ↔ other = route ∨ other ∈ queue := List.mem_orderedInsert _

theorem mem_routes_insert {pd : PrefixDescriptor} {route other : RouteDescriptor} :
    other ∈ (route_insert pd route).routes ↔ other = route ∨ other ∈ pd.routes := by
  unfold route_insert PrefixDescriptor.routes
  split
  · simp only [List.mem_append,mem_queue_insert]
    tauto
  · simp only [List.mem_append,mem_queue_insert]
    tauto

theorem mem_routes_relink {pd : PrefixDescriptor} {route other : RouteDescriptor} :
    other ∈ (route_relink pd route).routes ↔ other = route ∨ (other ∈ pd.routes ∧ other.id ≠ route.id) := by
  unfold route_relink
  rw [mem_routes_insert]
  simp only [PrefixDescriptor.routes,queue_delete,List.mem_append,List.mem_filter,decide_eq_true_eq]
  tauto

theorem flagged_relink {pd : PrefixDescriptor} {route : RouteDescriptor} (flag : RouteDescriptor → Bool)
    (stored : ∀ other ∈ pd.routes, other.id = route.id → flag other = flag route)
    (fresh : (∀ other ∈ pd.routes, other.id ≠ route.id) → flag route = false) :
    flagged flag (route_relink pd route) = flagged flag pd := by
  ext id
  constructor
  · rintro ⟨other,member,rfl,raised⟩
    rcases mem_routes_relink.mp member with rfl | ⟨member,_⟩
    · by_contra absent
      have missing : ∀ stored ∈ pd.routes, stored.id ≠ other.id := by
        intro found member same
        exact absent ⟨found,member,same,(stored found member same).trans raised⟩
      simp [fresh missing] at raised
    · exact ⟨other,member,rfl,raised⟩
  · rintro ⟨other,member,rfl,raised⟩
    by_cases same : other.id = route.id
    · exact ⟨route,mem_routes_relink.mpr (.inl rfl),same.symm,(stored other member same).symm.trans raised⟩
    · exact ⟨other,mem_routes_relink.mpr (.inr ⟨member,same⟩),rfl,raised⟩

/-- Linking a remeasured route again keeps the flags. -/
theorem sameFlags_relink {pd : PrefixDescriptor} {route : RouteDescriptor} (consistent : Consistent pd route) :
    SameFlags pd (route_relink pd route) where
  successor := flagged_relink _ (fun other member same => (consistent.stored other member same).1)
    (fun missing => (consistent.fresh missing).1)
  intable := flagged_relink _ (fun other member same => (consistent.stored other member same).2)
    (fun missing => (consistent.fresh missing).2)

/-! ## The distance update -/

/-- The message's route takes over what is missing of neighbor and interface, and keeps number, class and flags. -/
structure Measured (msg : Msg) (route after : RouteDescriptor) : Prop where
  id : after.id = route.id
  external : after.external = route.external
  successor : after.successor = route.successor
  intable : after.intable = route.intable
  adv_router : after.adv_router = (route.adv_router <|> msg.adv_router)
  ei : after.ei = (route.ei <|> msg.adv_router.bind Nbr.ei)

/-- `update_distance` by what becomes of the list item of the message's route. -/
inductive Linking (env : Env) (pd : PrefixDescriptor) (msg : Msg) (route : RouteDescriptor) :
    PrefixDescriptor → Msg → RouteDescriptor → MetricChange → Prop
  | rests (after : RouteDescriptor) : relinks pd msg route = false →
      (msg.transient_route ∧ after = route ∨ Measured msg route after) → Linking env pd msg route pd msg after .same
  | linked (after : RouteDescriptor) (change : MetricChange) : relinks pd msg route = true →
      env.links pd.id route.id msg.metrics = true → Measured msg route after →
      (change = .increase → after.reported_metric = msg.metrics ∧ msg.data_type ≠ .connected) →
      Linking env pd msg route (route_relink pd after) msg after change
  | refused (after : RouteDescriptor) : relinks pd msg route = true → env.links pd.id route.id msg.metrics = false →
      Measured msg route after →
      Linking env pd msg route (route_unlink pd route.id) { msg with transient_route := !route_stored pd route.id } after .same

section Linking
variable {env : Env} {msg last : Msg} {pd next : PrefixDescriptor} {route after : RouteDescriptor} {change : MetricChange}

theorem metrics_match_self (metrics : Metrics) : metrics_match metrics metrics := by
  simp [metrics_match]

/-- The route of the message is linked again, or nothing changes. -/
theorem distance_measure_links (done : distance_measure env pd msg route = some (next, after, change)) :
    (relinks pd msg route = false ∧ next = pd ∧ change = .same ∧
        (msg.transient_route ∧ after = route ∨ Measured msg route after)) ∨
      (relinks pd msg route = true ∧ next = route_relink pd after ∧ Measured msg route after ∧
        (change = .increase → after.reported_metric = msg.metrics ∧ msg.data_type ≠ .connected)) := by
  unfold distance_measure at done
  split at done
  · rename_i transient
    cases done
    exact .inl ⟨by simp [relinks,transient],rfl,rfl,.inl ⟨transient,rfl⟩⟩
  · rename_i stored
    dsimp only at done
    cases kind : msg.data_type with
    | connected =>
      simp only [kind] at done
      split at done
      · rename_i local_net
        cases done
        exact .inl ⟨by simp [relinks,kind,local_net],rfl,rfl,.inr ⟨rfl,rfl,rfl,rfl,rfl,rfl⟩⟩
      · rename_i other
        cases done
        refine .inr ⟨by simp [relinks,kind,other,stored],rfl,⟨rfl,rfl,rfl,rfl,rfl,rfl⟩,?_⟩
        intro increase
        cases increase
    | int =>
      simp only [kind] at done
      split at done
      · rename_i unchanged
        cases done
        exact .inl ⟨by simpa [relinks,kind,stored,route_stored] using unchanged,rfl,rfl,.inr ⟨rfl,rfl,rfl,rfl,rfl,rfl⟩⟩
      · rename_i changed
        obtain ⟨learned,found,result⟩ := Option.bind_eq_some_iff.mp done
        obtain ⟨ei,known,rfl⟩ := Option.map_eq_some_iff.mp found
        cases result
        have links : relinks pd msg route = true := by
          simp only [relinks,kind,route_stored]
          rw [Bool.eq_false_of_not_eq_true changed]
          simp [stored]
        exact .inr ⟨links,rfl,⟨rfl,rfl,rfl,rfl,rfl,rfl⟩,fun _ => ⟨rfl,by simp⟩⟩
    | ext =>
      simp only [kind] at done
      split at done
      · rename_i unchanged
        cases done
        exact .inl ⟨by simpa [relinks,kind,stored,route_stored] using unchanged,rfl,rfl,.inr ⟨rfl,rfl,rfl,rfl,rfl,rfl⟩⟩
      · rename_i changed
        have links : relinks pd msg route = true := by
          simp only [relinks,kind,route_stored]
          rw [Bool.eq_false_of_not_eq_true changed]
          simp [stored]
        split at done
        · cases done
          exact .inr ⟨links,rfl,⟨rfl,rfl,rfl,rfl,rfl,rfl⟩,fun _ => ⟨rfl,by simp⟩⟩
        · obtain ⟨learned,found,result⟩ := Option.bind_eq_some_iff.mp done
          obtain ⟨ei,known,rfl⟩ := Option.map_eq_some_iff.mp found
          cases result
          exact .inr ⟨links,rfl,⟨rfl,rfl,rfl,rfl,rfl,rfl⟩,fun _ => ⟨rfl,by simp⟩⟩

theorem update_distance_linking (done : update_distance env pd msg route = some (next, last, after, change)) :
    Linking env pd msg route next last after change := by
  obtain ⟨⟨measured,learned,found⟩,distance,finished⟩ := Option.bind_eq_some_iff.mp done
  rcases distance_measure_links distance with ⟨rests,rfl,rfl,same⟩ | ⟨relinked,rfl,same,raised⟩
  · simp only [link_refused,rests,Bool.false_and,Bool.false_eq_true,if_false] at finished
    cases finished
    exact .rests after rests same
  · cases granted : env.links pd.id route.id msg.metrics with
    | true =>
      simp only [link_refused,relinked,granted,Bool.not_true,Bool.and_false,Bool.false_eq_true,if_false] at finished
      cases finished
      exact .linked after change relinked granted same raised
    | false =>
      simp only [link_refused,relinked,granted,Bool.not_false,Bool.and_true,if_true] at finished
      cases finished
      exact .refused after relinked granted same

theorem any_queue_insert (id : Nat) (queue : List RouteDescriptor) :
    ((queue_insert route queue).any fun other => other.id = id) = (decide (route.id = id) || queue.any fun other => other.id = id) := by
  rw [Bool.eq_iff_iff]
  simp [List.any_eq_true,mem_queue_insert]

theorem any_queue_delete (id : Nat) (queue : List RouteDescriptor) : ((queue_delete id queue).any fun other => other.id = id) = false := by
  simp [queue_delete]

/-- A route that has just been linked with the vector of the message is left alone by that message, so `eigrp_fsm_event_dinc`
    asks for no item. -/
theorem remeasured_rests (linking : Linking env pd msg route next last after .increase) {again : PrefixDescriptor}
    (internal : again.internal_routes = next.internal_routes) (external : again.external_routes = next.external_routes) :
    relinks again last after = false := by
  cases linking with
  | linked _ _ _ _ measured raised =>
    obtain ⟨vector,learned⟩ := raised rfl
    have stored : route_stored again after.id = true := by
      have member : after ∈ (route_relink pd after).routes := mem_routes_relink.mpr (.inl rfl)
      refine List.any_eq_true.mpr ⟨after,?_,by simp⟩
      rwa [PrefixDescriptor.routes,internal,external]
    have placed : (again.external_routes.any fun other => other.id = after.id) = after.external := by
      rw [external]
      unfold route_relink route_insert
      split
      · rename_i outside
        rw [any_queue_insert]
        simp [outside]
      · rename_i inside
        simp only [any_queue_delete]
        simpa using inside
    have same : metrics_match msg.metrics after.reported_metric := vector ▸ metrics_match_self _
    unfold relinks
    cases kind : msg.data_type with
    | connected => exact absurd kind learned
    | int => simp [stored,placed,same]
    | ext => simp [stored,placed,same]

theorem mem_routes_unlink {id : Nat} {other : RouteDescriptor} :
    other ∈ (route_unlink pd id).routes ↔ other ∈ pd.routes ∧ other.id ≠ id := by
  simp only [route_unlink,PrefixDescriptor.routes,queue_delete,List.mem_append,List.mem_filter,decide_eq_true_eq]
  tauto

theorem route_unlink_tidy (tidy : Tidy pd) (id : Nat) : Tidy (route_unlink pd id) where
  numbers := by
    have rest : (route_unlink pd id).routes = pd.routes.filter fun other => other.id ≠ id := by
      simp [route_unlink,PrefixDescriptor.routes,queue_delete]
    rw [rest]
    exact tidy.numbers.sublist (List.Sublist.map _ List.filter_sublist)
  bounded := fun other member => tidy.bounded other (mem_routes_unlink.mp member).1

theorem Linking.rerouted (linking : Linking env pd msg route next last after change) : Rerouted pd next := by
  cases linking with
  | rests => exact .refl pd
  | linked => exact route_relink_rerouted pd after
  | refused => exact .of_routes pd _ _ _

theorem Linking.next_route (linking : Linking env pd msg route next last after change) : next.next_route = pd.next_route := by
  cases linking with
  | rests => rfl
  | linked =>
    unfold route_relink route_insert
    split <;> rfl
  | refused => rfl

theorem Linking.measured (linking : Linking env pd msg route next last after change) :
    msg.transient_route ∧ after = route ∨ Measured msg route after := by
  cases linking with
  | rests _ _ same => exact same
  | linked _ _ _ _ same => exact .inr same
  | refused _ _ _ same => exact .inr same

theorem Linking.id (linking : Linking env pd msg route next last after change) : after.id = route.id := by
  rcases linking.measured with ⟨_,rfl⟩ | same
  · rfl
  · exact same.id

theorem Linking.successor (linking : Linking env pd msg route next last after change) : after.successor = route.successor := by
  rcases linking.measured with ⟨_,rfl⟩ | same
  · rfl
  · exact same.successor

theorem Linking.intable (linking : Linking env pd msg route next last after change) : after.intable = route.intable := by
  rcases linking.measured with ⟨_,rfl⟩ | same
  · rfl
  · exact same.intable

theorem Linking.adv_router (linking : Linking env pd msg route next last after change) {nbr : Nbr}
    (known : route.adv_router = some nbr) : after.adv_router = some nbr := by
  rcases linking.measured with ⟨_,rfl⟩ | same
  · exact known
  · simp [same.adv_router,known]

/-- Of the message only the mark of a transient route may change. -/
theorem Linking.message (linking : Linking env pd msg route next last after change) :
    ∃ transient_route, last = { msg with transient_route } := by
  cases linking with
  | rests => exact ⟨msg.transient_route,rfl⟩
  | linked => exact ⟨msg.transient_route,rfl⟩
  | refused => exact ⟨!route_stored pd route.id,rfl⟩

theorem Linking.tidy (linking : Linking env pd msg route next last after change) (tidy : Tidy pd)
    (numbered : route.id < pd.next_route) : Tidy next := by
  have same := linking.id
  cases linking with
  | rests => exact tidy
  | linked => exact tidy_relink tidy (same ▸ numbered)
  | refused => exact route_unlink_tidy tidy route.id

/-- The message costs a route its place in the queues that the computation or the host uses. -/
def flag_lost (env : Env) (pd : PrefixDescriptor) (msg : Msg) (route : RouteDescriptor) : Bool :=
  link_refused env pd msg route && (route.successor || route.intable)

theorem Linking.flags (linking : Linking env pd msg route next last after change) (consistent : Consistent pd route)
    (kept : flag_lost env pd msg route = false) : SameFlags pd next := by
  have number := linking.id
  have successor := linking.successor
  have intable := linking.intable
  cases linking with
  | rests => exact .refl pd
  | linked =>
    refine sameFlags_relink ⟨?_,?_⟩
    · intro other member same
      rw [successor,intable]
      exact consistent.stored other member (same.trans number)
    · intro missing
      rw [successor,intable]
      exact consistent.fresh fun other member same => missing other member (same.trans number.symm)
  | refused _ relinked refused =>
    have plain : route.successor = false ∧ route.intable = false := by
      simpa [flag_lost,link_refused,relinked,refused] using kept
    have same (flag : RouteDescriptor → Bool) (lowered : ∀ other ∈ pd.routes, other.id = route.id → flag other = false) :
        flagged flag (route_unlink pd route.id) = flagged flag pd := by
      ext id
      constructor
      · rintro ⟨other,member,number,raised⟩
        exact ⟨other,(mem_routes_unlink.mp member).1,number,raised⟩
      · rintro ⟨other,member,number,raised⟩
        refine ⟨other,mem_routes_unlink.mpr ⟨member,fun same => ?_⟩,number,raised⟩
        simp [lowered other member same] at raised
    constructor
    · exact same _ fun other member number => (consistent.stored other member number).1.trans plain.1
    · exact same _ fun other member number => (consistent.stored other member number).2.trans plain.2

end Linking

/-! ## Handlers -/

/-- The descriptors agree in what the diffusing computation reads. -/
structure SameControl (pd next : PrefixDescriptor) : Prop where
  id : next.id = pd.id
  destination : next.destination = pd.destination
  state : next.state = pd.state
  rij : next.rij = pd.rij
  t_active : next.t_active = pd.t_active
  query_origin : next.query_origin = pd.query_origin

theorem Rerouted.control {pd next : PrefixDescriptor} (rerouted : Rerouted pd next) : SameControl pd next :=
  ⟨rerouted.id,rerouted.destination,rerouted.state,rerouted.rij,rerouted.t_active,rerouted.query_origin⟩

theorem SameControl.trans {pd middle next : PrefixDescriptor} (first : SameControl pd middle) (second : SameControl middle next) :
    SameControl pd next where
  id := second.id.trans first.id
  destination := second.destination.trans first.destination
  state := second.state.trans first.state
  rij := second.rij.trans first.rij
  t_active := second.t_active.trans first.t_active
  query_origin := second.query_origin.trans first.query_origin

/-- A computation that has ended leaves nothing behind. -/
structure Finished (pd next : PrefixDescriptor) : Prop where
  id : next.id = pd.id
  destination : next.destination = pd.destination
  state : next.state = .passive
  rij : next.rij = []
  t_active : next.t_active = false
  query_origin : next.query_origin = none

/-- The withdrawal that was just marked keeps the destination from being retired. -/
theorem update_topology_table_marked {pd : PrefixDescriptor} (marked : pd.need_update) :
    update_topology_table_prefix pd = (pd, []) := by
  unfold update_topology_table_prefix
  simp [marked]

theorem refreshed_table_rerouted (env : Env) (pd : PrefixDescriptor) :
    Rerouted pd (update_routing_table env (update_node_flags env pd)).1 :=
  (update_node_flags_rerouted env pd).trans (update_routing_table_rerouted env _)

theorem passive_refresh_eq (env : Env) (pd : PrefixDescriptor) :
    passive_refresh env pd = ((update_routing_table env (update_node_flags env { pd with need_update := true })).1,
      .topology_change :: (update_routing_table env (update_node_flags env { pd with need_update := true })).2
        ++ [update_send_all none]) := by
  have marked : (update_routing_table env (update_node_flags env { pd with need_update := true })).1.need_update :=
    (refreshed_table_rerouted env _).need_update
  simp only [passive_refresh,update_topology_table_marked marked,List.append_nil]

theorem fsm_event_lr_finished (env : Env) (pd : PrefixDescriptor) : Finished pd (fsm_event_lr env pd).1 := by
  simp only [fsm_event_lr,passive_refresh_eq]
  constructor
  · rw [(refreshed_table_rerouted env _).id]
    dsimp only
    split <;> rfl
  · rw [(refreshed_table_rerouted env _).destination]
    dsimp only
    split <;> rfl
  · rw [(refreshed_table_rerouted env _).state]
  · rw [(refreshed_table_rerouted env _).rij]
  · rw [(refreshed_table_rerouted env _).t_active]
  · rw [(refreshed_table_rerouted env _).query_origin]

theorem fsm_event_lr_fcs_finished {env : Env} {pd next : PrefixDescriptor} {out : List Effect}
    (done : fsm_event_lr_fcs env pd = some (next, out)) : Finished pd next := by
  obtain ⟨route,_,finished⟩ := Option.bind_eq_some_iff.mp done
  simp only [passive_refresh_eq] at finished
  cases finished
  constructor
  · rw [(refreshed_table_rerouted env _).id]
  · rw [(refreshed_table_rerouted env _).destination]
  · rw [(refreshed_table_rerouted env _).state]
  · rw [(refreshed_table_rerouted env _).rij]
  · rw [(refreshed_table_rerouted env _).t_active]
  · rw [(refreshed_table_rerouted env _).query_origin]

theorem keep_passive_control (env : Env) (pd : PrefixDescriptor) (used : RouteDescriptor) :
    SameControl pd (keep_passive env pd used).1 := by
  simp only [keep_passive]
  split
  · exact (refreshed_table_rerouted env pd).control
  · obtain ⟨id,destination,state,rij,t_active,query_origin⟩ := (refreshed_table_rerouted env
      { pd with distance := used.distance, rdistance := used.distance
                fdistance := if used.distance < pd.fdistance then used.distance else pd.fdistance
                reported_metric := used.total_metric, need_update := true }).control
    exact ⟨id,destination,state,rij,t_active,query_origin⟩

/-- The neighbors are asked, or there is none and the computation ends at once. -/
theorem diffuse_cases (env : Env) (pd : PrefixDescriptor) :
    (env.nbr_count ≠ 0 ∧
      diffuse env pd = ({ pd with t_active := false, rij := [], need_query := true }, [.topology_change])) ∨
      (env.nbr_count = 0 ∧ diffuse env pd = fsm_event_lr env { pd with t_active := false, rij := [] }) := by
  unfold diffuse
  split
  · rename_i some
    exact .inl ⟨some,rfl⟩
  · rename_i none
    exact .inr ⟨by simpa using none,rfl⟩

/-! ## Outcomes -/

/-- A REPLY for an ACTIVE destination is taken off the neighbors that owe one. -/
def discharge (pd : PrefixDescriptor) (msg : Msg) (nbr : Option Nbr) : PrefixDescriptor :=
  if pd.state ≠ .passive ∧ msg.packet_type = .reply then reply_status_remove pd nbr else pd

/-- What happens to a destination whose routes and reply status are up to date; `after` is the route of the message. -/
inductive Outcome (env : Env) (msg : Msg) (after : RouteDescriptor) (pd : PrefixDescriptor) :
    PrefixDescriptor → List Effect → Prop
  | commit (used : RouteDescriptor) : pd.state = .passive → (route_select pd).or (route_read pd) = some used →
      Outcome env msg after pd (keep_passive env pd used).1 ((keep_passive env pd used).2 ++
        if msg.packet_type = .query then reply_send (keep_passive env pd used).1 msg.adv_router else [])
  | start : pd.state = .passive → msg.packet_type ≠ .query →
      Outcome env msg after pd (fsm_event_nq_fcn env pd).1 (fsm_event_nq_fcn env pd).2
  | start_query : pd.state = .passive → msg.packet_type = .query →
      Outcome env msg after pd (fsm_event_q_fcn env pd msg).1 (fsm_event_q_fcn env pd msg).2
  | wait : pd.state ≠ .passive → (msg.packet_type = .reply → pd.rij ≠ []) →
      ¬ (msg.packet_type = .query ∧ after.successor) →
      Outcome env msg after pd pd
        (if msg.packet_type = .query then active_non_successor_reply_send pd msg.adv_router else [])
  | origin : pd.state ≠ .passive → msg.packet_type = .query → after.successor →
      Outcome env msg after pd (fsm_event_qact pd msg).1 (fsm_event_qact pd msg).2
  | increase (state : State) : pd.state = .active_1 ∧ state = .active_0 ∨ pd.state = .active_3 ∧ state = .active_2 →
      msg.packet_type = .update → Outcome env msg after pd { pd with state } [.dual_state_change pd.state state .dinc]
  | last_reply : pd.state = .active_1 ∨ pd.state = .active_3 → msg.packet_type = .reply → pd.rij = [] →
      Outcome env msg after pd (fsm_event_lr env pd).1 (fsm_event_lr env pd).2
  | last_reply_feasible (next : PrefixDescriptor) (out : List Effect) : pd.state = .active_0 ∨ pd.state = .active_2 →
      msg.packet_type = .reply → pd.rij = [] → fsm_event_lr_fcs env pd = some (next, out) →
      Outcome env msg after pd next out
  | last_reply_infeasible : pd.state = .active_0 ∨ pd.state = .active_2 → msg.packet_type = .reply → pd.rij = [] →
      Outcome env msg after pd (fsm_event_lr_fcn env pd).1 (fsm_event_lr_fcn env pd).2

section Outcomes
variable {env : Env} {msg : Msg} {pd next : PrefixDescriptor} {route after : RouteDescriptor} {out : List Effect}
  {change : MetricChange}

theorem keep_state_passive (passive : pd.state = .passive)
    (done : fsm_event_keep_state env pd msg route = some (next, out)) : Outcome env msg route pd next out := by
  simp only [fsm_event_keep_state,passive,if_true] at done
  obtain ⟨used,found,result⟩ := Option.bind_eq_some_iff.mp done
  cases result
  exact .commit used passive found

theorem keep_state_active (active : pd.state ≠ .passive) (owed : msg.packet_type = .reply → pd.rij ≠ [])
    (other : ¬ (msg.packet_type = .query ∧ route.successor))
    (done : fsm_event_keep_state env pd msg route = some (next, out)) : Outcome env msg route pd next out := by
  simp only [fsm_event_keep_state,active,if_false] at done
  cases done
  have outcome := @Outcome.wait env msg route pd active owed other
  by_cases query : msg.packet_type = .query
  · have plain : route.successor = false := by simpa [query] using other
    simpa [query,plain] using outcome
  · simpa [query] using outcome

theorem passive_outcome (passive : pd.state = .passive)
    (done : nsm env (event_choose pd msg route change).1 msg route (event_choose pd msg route change).2 = some (next, out)) :
    Outcome env msg route pd next out := by
  have unchanged : (event_choose pd msg route change).1 = pd := by
    simp only [event_choose,passive]
    split <;> (try split) <;> (try split) <;> rfl
  rw [unchanged] at done
  simp only [nsm,passive] at done
  simp only [event_choose,passive] at done
  split at done
  · exact keep_state_passive passive done
  · split at done
    · exact keep_state_passive passive done
    · split at done
      · rename_i query
        cases done
        exact .start_query passive query
      · rename_i other
        cases done
        exact .start passive other

theorem even_outcome (even : pd.state = .active_0 ∨ pd.state = .active_2)
    (done : nsm_even env (event_choose pd msg route change).1 msg route (event_choose pd msg route change).2 = some (next, out)) :
    Outcome env msg route (discharge pd msg route.adv_router) next out := by
  have active : pd.state ≠ .passive := by rcases even with even | even <;> simp [even]
  by_cases reply : msg.packet_type = .reply
  · have chosen : event_choose pd msg route change =
        select_reply pd route (if (route_select pd).isSome then .lr_fcs else .lr_fcn) := by
      rcases even with even | even <;> simp [event_choose,even,reply]
    have discharged : discharge pd msg route.adv_router = reply_status_remove pd route.adv_router := by
      simp [discharge,active,reply]
    rw [chosen] at done
    rw [discharged]
    have even : (reply_status_remove pd route.adv_router).state = .active_0 ∨
        (reply_status_remove pd route.adv_router).state = .active_2 := even
    by_cases owed : (reply_status_remove pd route.adv_router).rij = []
    · simp only [select_reply,owed,ne_eq,not_true_eq_false,if_false] at done
      split at done
      · exact .last_reply_feasible next out even reply owed done
      · cases done
        exact .last_reply_infeasible even reply owed
    · simp only [select_reply,owed,ne_eq,not_false_eq_true,if_true] at done
      exact keep_state_active active (fun _ => owed) (by simp [reply]) done
  · have discharged : discharge pd msg route.adv_router = pd := by simp [discharge,reply]
    rw [discharged]
    by_cases query : msg.packet_type = .query ∧ route.successor
    · have chosen : event_choose pd msg route change = (pd, .qact) := by
        rcases even with even | even <;> simp [event_choose,even,query]
      rw [chosen] at done
      cases done
      exact .origin active query.1 query.2
    · have chosen : event_choose pd msg route change = (pd, .keep_state) := by
        rcases even with even | even <;> simp [event_choose,even,query,reply]
      rw [chosen] at done
      exact keep_state_active active (fun reply' => absurd reply' reply) query done

/-- Behind a distance increase the destination is in an even state, where an UPDATE changes nothing more. -/
theorem dinc_outcome (odd : pd.state = .active_1 ∨ pd.state = .active_3) (update : msg.packet_type = .update)
    (rests : ∀ again : PrefixDescriptor, again.internal_routes = pd.internal_routes →
      again.external_routes = pd.external_routes → relinks again msg route = false)
    (done : fsm_event_dinc env pd msg route = some (next, out)) : Outcome env msg route pd next out := by
  have states : pd.state = .active_1 ∧ (if pd.state = .active_1 then State.active_0 else .active_2) = .active_0 ∨
      pd.state = .active_3 ∧ (if pd.state = .active_1 then State.active_0 else .active_2) = .active_2 := by
    rcases odd with odd | odd <;> simp [odd]
  unfold fsm_event_dinc at done
  dsimp only at done
  generalize (if pd.state = .active_1 then State.active_0 else .active_2) = state at states done
  split at done
  · obtain ⟨⟨selected,last,again,event⟩,found,done⟩ := Option.bind_eq_some_iff.mp done
    obtain ⟨⟨remeasured,last',again',change⟩,measured,chosen⟩ := Option.bind_eq_some_iff.mp found
    have unlinked := rests { pd with state } rfl rfl
    have idle : remeasured = { pd with state } ∧ last' = msg := by
      cases update_distance_linking measured with
      | rests => exact ⟨rfl,rfl⟩
      | linked _ _ links => simp [unlinked] at links
      | refused _ links => simp [unlinked] at links
    obtain ⟨rfl,rfl⟩ := idle
    have even : state = .active_0 ∨ state = .active_2 := states.imp And.right And.right
    have kept : event_choose { pd with state } last' again' change = ({ pd with state }, .keep_state) := by
      rcases even with rfl | rfl <;> simp [event_choose,update]
    simp only [kept] at chosen
    cases chosen
    obtain ⟨⟨result,more⟩,handled,finished⟩ := Option.bind_eq_some_iff.mp done
    have waiting : ({ pd with state } : PrefixDescriptor).state ≠ .passive := by rcases even with rfl | rfl <;> simp
    have handled : fsm_event_keep_state env { pd with state } last again = some (result, more) := handled
    simp only [fsm_event_keep_state,waiting,if_false,update] at handled
    cases handled
    cases finished
    exact .increase state states update
  · cases done
    exact .increase state states update

theorem odd_outcome (odd : pd.state = .active_1 ∨ pd.state = .active_3)
    (rests : change = .increase → ∀ again : PrefixDescriptor, again.internal_routes = pd.internal_routes →
      again.external_routes = pd.external_routes → relinks again msg route = false)
    (done : nsm_odd env (event_choose pd msg route change).1 msg route (event_choose pd msg route change).2 = some (next, out)) :
    Outcome env msg route (discharge pd msg route.adv_router) next out := by
  have active : pd.state ≠ .passive := by rcases odd with odd | odd <;> simp [odd]
  by_cases reply : msg.packet_type = .reply
  · have chosen : event_choose pd msg route change = select_reply pd route .lr := by
      rcases odd with odd | odd <;> simp [event_choose,odd,reply]
    have discharged : discharge pd msg route.adv_router = reply_status_remove pd route.adv_router := by
      simp [discharge,active,reply]
    rw [chosen] at done
    rw [discharged]
    by_cases owed : (reply_status_remove pd route.adv_router).rij = []
    · simp only [select_reply,owed,ne_eq,not_true_eq_false,if_false] at done
      cases done
      exact .last_reply odd reply owed
    · simp only [select_reply,owed,ne_eq,not_false_eq_true,if_true] at done
      exact keep_state_active active (fun _ => owed) (by simp [reply]) done
  · have discharged : discharge pd msg route.adv_router = pd := by simp [discharge,reply]
    rw [discharged]
    by_cases query : msg.packet_type = .query ∧ route.successor
    · have chosen : event_choose pd msg route change = (pd, .qact) := by
        rcases odd with odd | odd <;> simp [event_choose,odd,query]
      rw [chosen] at done
      cases done
      exact .origin active query.1 query.2
    · by_cases increase : msg.packet_type = .update ∧ change = .increase ∧ route.successor
      · have chosen : event_choose pd msg route change = (pd, .dinc) := by
          rcases odd with odd | odd <;> simp [event_choose,odd,increase]
        rw [chosen] at done
        exact dinc_outcome odd increase.1 (rests increase.2.1) done
      · have chosen : event_choose pd msg route change = (pd, .keep_state) := by
          rcases odd with odd | odd <;> simp [event_choose,odd,query,reply,increase]
        rw [chosen] at done
        exact keep_state_active active (fun reply' => absurd reply' reply) query done

/-- The mark of a transient route is read by nothing that follows the distance update. -/
theorem Outcome.transient {transient_route : Bool} (outcome : Outcome env { msg with transient_route } after pd next out) :
    Outcome env msg after pd next out := by
  cases outcome with
  | commit used passive found => exact .commit used passive found
  | start passive other => exact .start passive other
  | start_query passive query => exact .start_query passive query
  | wait active owed other => exact .wait active owed other
  | origin active query successor => exact .origin active query successor
  | increase state states update => exact .increase state states update
  | last_reply odd reply owed => exact .last_reply odd reply owed
  | last_reply_feasible _ _ even reply owed done => exact .last_reply_feasible next out even reply owed done
  | last_reply_infeasible even reply owed => exact .last_reply_infeasible even reply owed

/-- `eigrp_fsm_event` by cases. -/
theorem fsm_event_outcome (done : fsm_event env pd msg route = some (next, out)) :
    ∃ current last after change, update_distance env pd msg route = some (current, last, after, change) ∧
      Outcome env msg after (discharge current msg after.adv_router) next out := by
  obtain ⟨⟨chosen,last,after,event⟩,selected,done⟩ := Option.bind_eq_some_iff.mp done
  obtain ⟨⟨current,last',after',change⟩,measured,result⟩ := Option.bind_eq_some_iff.mp selected
  cases result
  have linking := update_distance_linking measured
  refine ⟨current,last,after,change,measured,?_⟩
  have rests : change = .increase → ∀ again : PrefixDescriptor, again.internal_routes = current.internal_routes →
      again.external_routes = current.external_routes → relinks again last after = false := by
    rintro rfl again internal external
    exact remeasured_rests linking internal external
  have state : (event_choose current last after change).1.state = current.state := by
    unfold event_choose
    dsimp only
    split <;> (repeat' split) <;> rfl
  have done : nsm env (event_choose current last after change).1 last after (event_choose current last after change).2 =
      some (next, out) := done
  obtain ⟨transient_route,rfl⟩ := linking.message
  suffices outcome : Outcome env { msg with transient_route } after
      (discharge current { msg with transient_route } after.adv_router) next out from outcome.transient
  cases now : current.state with
  | passive =>
    have untouched : discharge current { msg with transient_route } after.adv_router = current := by simp [discharge,now]
    rw [untouched]
    exact passive_outcome now done
  | active_0 =>
    simp only [nsm,state,now] at done
    exact even_outcome (.inl now) done
  | active_2 =>
    simp only [nsm,state,now] at done
    exact even_outcome (.inr now) done
  | active_1 =>
    simp only [nsm,state,now] at done
    exact odd_outcome (.inl now) rests done
  | active_3 =>
    simp only [nsm,state,now] at done
    exact odd_outcome (.inr now) rests done

end Outcomes

end Eigrp
