import Eigrp.Feasibility
import Eigrp.Numbers

/-!
# What a last reply leaves behind

`eigrp_fsm_event_lr` makes the distance of the best route the feasible distance and then asks for
routes that are reported nearer than that. Over a link that adds nothing to the distance, or behind
a distance that wrapped, the best route itself does not pass.
-/

namespace Eigrp
open Eigrp.Lib

/-! ## Successors -/

theorem route_read_finite {pd : PrefixDescriptor} :
    (∃ route ∈ pd.routes, route.distance ≠ max_distance) ↔ ∃ best, route_read pd = some best ∧ best.distance ≠ max_distance := by
  unfold route_read
  constructor
  · rintro ⟨route,member,finite⟩
    cases found : pd.routes.find? (fun route => route.distance ≠ max_distance) with
    | none =>
      have missing := List.find?_eq_none.mp found route member
      simp [finite] at missing
    | some best => exact ⟨best,rfl,by simpa using List.find?_some found⟩
  · rintro ⟨best,found,finite⟩
    split at found
    · rename_i first here
      obtain rfl := Option.some.inj found
      exact ⟨first,List.mem_of_find?_eq_some here,finite⟩
    · exact ⟨best,List.mem_of_mem_head? found,finite⟩

/-- The condition on a route of the eligible class to be marked as successor. -/
def Eligible (env : Env) (pd : PrefixDescriptor) (route : RouteDescriptor) : Prop :=
  route.reported_distance < pd.fdistance ∧ route.distance ≠ max_distance ∧
    route.distance.toNat ≤ pd.distance.toNat * env.variance.toNat

theorem mark_route_successor {env : Env} {pd : PrefixDescriptor} {max_paths count : Nat} {route : RouteDescriptor}
    (cleared : route.successor = false) :
    (mark_route env pd max_paths count route).1.successor = true ↔ Eligible env pd route ∧ count < max_paths := by
  unfold mark_route Eligible
  dsimp only
  split
  · rename_i feasible
    split
    · rename_i within
      simpa [feasible] using within
    · rename_i beyond
      simp only [cleared,Bool.false_eq_true,feasible,true_and,false_iff]
      exact beyond
  · rename_i infeasible
    simp [cleared,infeasible]

theorem mark_route_count {env : Env} {pd : PrefixDescriptor} {max_paths count : Nat} {route : RouteDescriptor}
    (passed : ¬ Eligible env pd route) : (mark_route env pd max_paths count route).2 = count := by
  unfold Eligible at passed
  unfold mark_route
  dsimp only
  split
  · rename_i feasible
    split
    · rename_i within
      exact absurd ⟨feasible,within.1⟩ passed
    · rfl
  · rfl

/-- Some route of the queue is marked if and only if one is eligible: the first one finds room. -/
theorem mark_queue_successor {env : Env} {pd : PrefixDescriptor} {max_paths : Nat} (room : 0 < max_paths)
    {queue : List RouteDescriptor} (cleared : ∀ route ∈ queue, route.successor = false) :
    (∃ route ∈ mark_queue env pd max_paths 0 queue, route.successor) ↔ ∃ route ∈ queue, Eligible env pd route := by
  induction queue with
  | nil => simp [mark_queue]
  | cons first queue ih =>
    have later := ih fun route member => cleared route (by simp [member])
    have marked := @mark_route_successor env pd max_paths 0 first (cleared first (by simp))
    by_cases eligible : Eligible env pd first
    · have chosen := marked.mpr ⟨eligible,room⟩
      simp only [mark_queue,List.exists_mem_cons_iff,chosen,eligible,true_or]
    · have passed : (mark_route env pd max_paths 0 first).1.successor = false := by simpa [eligible] using marked
      simp only [mark_queue,mark_route_count eligible,List.exists_mem_cons_iff,passed,Bool.false_eq_true,eligible,false_or]
      exact later

/-- The queue that `eigrp_topology_update_node_flags` marks. -/
def eligible_queue (pd : PrefixDescriptor) (best : RouteDescriptor) : List RouteDescriptor :=
  if best.external then pd.external_routes else pd.internal_routes

theorem eligible_clear (env : Env) (pd : PrefixDescriptor) (queue : List RouteDescriptor) :
    (∃ route ∈ queue.map fun route => { route with successor := false, fsuccessor := false }, Eligible env pd route) ↔
      ∃ route ∈ queue, Eligible env pd route := by
  simp only [List.mem_map,exists_exists_and_eq_and]
  rfl

theorem update_node_flags_successor (env : Env) (pd : PrefixDescriptor) :
    (∃ route ∈ (update_node_flags env pd).routes, route.successor) ↔
      ∃ best, route_select pd = some best ∧ ∃ route ∈ eligible_queue pd best, Eligible env pd route := by
  have room : 0 < (if env.max_paths ≠ 0 then env.max_paths.toNat else 4) := by
    split
    · rename_i some
      exact Nat.pos_of_ne_zero fun zero => some (UInt8.toNat_inj.mp zero)
    · exact Nat.zero_lt_succ 3
  let clear := fun route : RouteDescriptor => { route with successor := false, fsuccessor := false }
  have lowered (queue : List RouteDescriptor) : ∀ route ∈ queue.map clear, route.successor = false := by
    intro route member
    obtain ⟨_,_,rfl⟩ := List.mem_map.mp member
    rfl
  have without (queue : List RouteDescriptor) : ¬ ∃ route ∈ queue.map clear, route.successor := by
    rintro ⟨route,member,raised⟩
    simp [lowered queue route member] at raised
  -- the other queue carries no flag, so the marked one decides
  have marked (queue : List RouteDescriptor) : (∃ route ∈ mark_queue env (routes_map pd clear)
        (if env.max_paths ≠ 0 then env.max_paths.toNat else 4) 0 (queue.map clear), route.successor) ↔
      ∃ route ∈ queue, Eligible env pd route :=
    (mark_queue_successor room (lowered queue)).trans (eligible_clear env pd queue)
  unfold update_node_flags
  cases selected : route_select pd with
  | none =>
    simp only [reduceCtorEq,false_and,exists_false,iff_false]
    rw [routes_map_routes]
    exact without pd.routes
  | some best =>
    simp only [Option.some.injEq,exists_eq_left',eligible_queue]
    split
    · simp only [PrefixDescriptor.routes,List.mem_append,or_and_right,exists_or]
      exact (or_iff_right (without pd.internal_routes)).trans (marked pd.external_routes)
    · simp only [PrefixDescriptor.routes,List.mem_append,or_and_right,exists_or]
      exact (or_iff_left (without pd.external_routes)).trans (marked pd.internal_routes)

theorem update_routing_table_successor (env : Env) (pd : PrefixDescriptor) :
    (∃ route ∈ (update_routing_table env pd).1.routes, route.successor) ↔ ∃ route ∈ pd.routes, route.successor := by
  have kept {pd : PrefixDescriptor} {update : RouteDescriptor → RouteDescriptor}
      (same : ∀ route, (update route).successor = route.successor) :
      (∃ route ∈ (routes_map pd update).routes, route.successor) ↔ ∃ route ∈ pd.routes, route.successor := by
    simp [routes_map_routes,same]
  unfold update_routing_table
  dsimp only
  split
  · refine (kept fun route => ?_).trans (kept fun _ => rfl)
    split <;> rfl
  · exact kept fun _ => rfl

/-! ## The last reply -/

/-- Behind the last reply some route passes the feasibility test against the best route's own distance, is within the
    variance, and is of the class of the first that passes. -/
def last_reply_usable (env : Env) (pd : PrefixDescriptor) : Bool :=
  match route_read pd with
  | none => true
  | some best =>
    best.distance == max_distance ||
      match route_select { pd with fdistance := best.distance } with
      | none => false
      | some chosen => (eligible_queue pd chosen).any fun route =>
          route.reported_distance < best.distance ∧ route.distance ≠ max_distance ∧
            route.distance.toNat ≤ best.distance.toNat * env.variance.toNat

/-- A last reply over reachable routes leaves a successor if and only if one of them is usable in this sense. -/
theorem fsm_event_lr_usable_iff (env : Env) (pd : PrefixDescriptor) :
    ((∃ route ∈ pd.routes, route.distance ≠ max_distance) → ∃ route ∈ (fsm_event_lr env pd).1.routes, route.successor) ↔
      last_reply_usable env pd := by
  rw [route_read_finite]
  simp only [fsm_event_lr,passive_refresh_eq,update_routing_table_successor,update_node_flags_successor,last_reply_usable]
  cases read : route_read pd with
  | none => simp
  | some best =>
    by_cases infinite : best.distance = max_distance
    · simp [infinite]
    · have finite : ∃ read, some best = some read ∧ read.distance ≠ max_distance := ⟨best,rfl,infinite⟩
      simp only [finite,true_implies,infinite,beq_iff_eq,Bool.or_eq_true,false_or]
      have same : route_select { pd with
          fdistance := best.distance, distance := best.distance, rdistance := best.distance, reported_metric := best.total_metric
          query_origin := none, t_active := false, rij := [], state := .passive, need_update := true } =
        route_select { pd with fdistance := best.distance } := rfl
      rw [same]
      cases route_select { pd with fdistance := best.distance } with
      | none => simp
      | some chosen => simp [Eligible,eligible_queue]

/-- The operator clears a destination whose only neighbor answers with a path as slow as before, delay having no weight. -/
def slow_requery : List Event :=
  let packet (opcode : Opcode) : Packet :=
    { opcode, routes := [{ tlv := { dest := ⟨10,8⟩, metric := { delay := 100, bandwidth := 30000 } } }] }
  .intf_create { id := 0 } :: adjacency 0 0 ++
    [.packet_receive (.peer 0 0) (packet .update), .packetizer {}, .clear ⟨10,8⟩, .packetizer {}, .packetizer {},
      .packetizer {}, .packet_receive (.peer 0 0) (packet .reply)]

theorem slow_requery_not_usable : ¬ ∀ step ∈ (run { k3 := 0 } slow_requery).trace, ∀ id call pd next out,
    Performs step id call pd next out → took_lr out → (∃ route ∈ next.routes, route.distance ≠ max_distance) →
      ∃ route ∈ next.routes, route.successor := by
  intro usable
  obtain ⟨call,out,performs⟩ := @run_performs { k3 := 0 } slow_requery ⟨23,by decide +kernel⟩ 1 (by decide +kernel)
    (by decide +kernel) (by decide +kernel)
  have took : took_lr out := by
    have shown : (step_effects ((run { k3 := 0 } slow_requery).trace.get ⟨23,by decide +kernel⟩)).map took_lr = some true := by
      decide +kernel
    rw [performs.effects] at shown
    exact Option.some.inj shown
  have chosen := usable _ (List.get_mem _ _) 1 call _ _ out performs took (by decide +kernel)
  revert chosen
  decide +kernel

end Eigrp
