import Eigrp.Dual

/-!
# Successors and feasible successors

What `eigrp_topology_update_node_flags` marks. The queue of the selected class is walked once: the first routes that are reachable,
feasible and within the variance are successors, the other feasible ones are feasible successors. The variance is a multiple of
the distance that the destination stores.
-/

namespace Eigrp

/-- `eigrp_topology_route_class_queue`. -/
def route_class_queue (pd : PrefixDescriptor) (route : RouteDescriptor) : List RouteDescriptor :=
  if route.external then pd.external_routes else pd.internal_routes

/-- The queue of the other class. -/
def other_class_queue (pd : PrefixDescriptor) (route : RouteDescriptor) : List RouteDescriptor :=
  if route.external then pd.internal_routes else pd.external_routes

/-- `EIGRP_MAX_PATHS_DEFAULT` stands in for no limit. -/
def Env.paths (env : Env) : Nat := if env.max_paths ≠ 0 then env.max_paths.toNat else 4

/-- The route is reachable, satisfies the feasibility condition and is within the variance of this distance. -/
def Shares (env : Env) (fdistance base : UInt32) (route : RouteDescriptor) : Bool :=
  route.distance ≠ max_distance ∧ route.reported_distance < fdistance ∧ route.distance.toNat ≤ base.toNat * env.variance.toNat

/-- The flags that routes of a queue carry when the variance is taken of this distance: a route shares while fewer than the limit
    in front of it do; the other reachable routes are feasible successors where they are feasible. -/
def MarkedQueue (env : Env) (fdistance base : UInt32) (queue : List RouteDescriptor) : Prop :=
  ∀ index route, queue[index]? = some route →
    (route.successor = true ↔ Shares env fdistance base route = true ∧ (queue.take index).countP (Shares env fdistance base) < env.paths) ∧
    (route.distance ≠ max_distance → (route.fsuccessor = true ↔ route.reported_distance < fdistance ∧ route.successor = false)) ∧
    ¬ (route.successor = true ∧ route.fsuccessor = true)

def Unmarked (queue : List RouteDescriptor) : Prop := ∀ route ∈ queue, route.successor = false ∧ route.fsuccessor = false

/-- The flags of a destination, with the variance taken of this distance of the selected route. -/
def Marked (env : Env) (pd marked : PrefixDescriptor) (base : RouteDescriptor → UInt32) : Prop :=
  match route_select pd with
  | none => Unmarked marked.routes
  | some best => MarkedQueue env pd.fdistance (base best) (route_class_queue marked best) ∧ Unmarked (other_class_queue marked best)

section Walk
variable {env : Env} {pd : PrefixDescriptor}

theorem bare_distances {first second : RouteDescriptor} (same : first.bare = second.bare) :
    first.distance = second.distance ∧ first.reported_distance = second.reported_distance := by
  have distance := congrArg RouteDescriptor.distance same
  have reported := congrArg RouteDescriptor.reported_distance same
  exact ⟨distance,reported⟩

theorem shares_bare {fdistance base : UInt32} {first second : RouteDescriptor} (same : first.bare = second.bare) :
    Shares env fdistance base first = Shares env fdistance base second := by
  obtain ⟨distance,reported⟩ := bare_distances same
  unfold Shares
  rw [distance,reported]

/-- What the walk does to one route. -/
theorem mark_route_spec (paths count : Nat) (route : RouteDescriptor) (plain : route.successor = false ∧ route.fsuccessor = false) :
    (mark_route env pd paths count route).1.bare = route.bare ∧
    ((mark_route env pd paths count route).1.successor = true ↔ Shares env pd.fdistance pd.distance route = true ∧ count < paths) ∧
    (route.distance ≠ max_distance → ((mark_route env pd paths count route).1.fsuccessor = true ↔
      route.reported_distance < pd.fdistance ∧ (mark_route env pd paths count route).1.successor = false)) ∧
    ¬ ((mark_route env pd paths count route).1.successor = true ∧ (mark_route env pd paths count route).1.fsuccessor = true) ∧
    (mark_route env pd paths count route).2 = count + if Shares env pd.fdistance pd.distance route = true ∧ count < paths then 1 else 0 := by
  have shares : Shares env pd.fdistance pd.distance route = true ↔ route.reported_distance < pd.fdistance ∧
      route.distance ≠ max_distance ∧ route.distance.toNat ≤ pd.distance.toNat * env.variance.toNat := by
    simp only [Shares,decide_eq_true_eq]
    exact and_left_comm
  unfold mark_route
  simp only
  by_cases feasible : route.reported_distance < pd.fdistance
  · rw [if_pos feasible]
    by_cases within : (route.distance ≠ max_distance ∧ route.distance.toNat ≤ pd.distance.toNat * env.variance.toNat) ∧ count < paths
    · have shared := shares.2 ⟨feasible,within.1⟩
      rw [if_pos within]
      refine ⟨rfl,by simp [shared,within.2],by simp [plain.2],by simp [plain.2],by simp [shared,within.2]⟩
    · have unshared : ¬ (Shares env pd.fdistance pd.distance route = true ∧ count < paths) :=
        fun both => within ⟨(shares.1 both.1).2,both.2⟩
      rw [if_neg within,if_neg unshared]
      exact ⟨rfl,by simp [plain.1,unshared],by simp [plain.1,feasible],by simp [plain.1],rfl⟩
  · have unshared : ¬ (Shares env pd.fdistance pd.distance route = true ∧ count < paths) := fun both => feasible (shares.1 both.1).1
    rw [if_neg feasible,if_neg unshared]
    exact ⟨rfl,by simp [plain.1,unshared],by simp [plain.2,feasible],by simp [plain.1],rfl⟩

/-- The walk over a queue, `count` successors having been marked before. -/
theorem mark_queue_spec (paths : Nat) (queue : List RouteDescriptor) (plain : Unmarked queue) : ∀ count index route,
    (mark_queue env pd paths count queue)[index]? = some route →
    (route.successor = true ↔ Shares env pd.fdistance pd.distance route = true ∧
      count + ((mark_queue env pd paths count queue).take index).countP (Shares env pd.fdistance pd.distance) < paths) ∧
    (route.distance ≠ max_distance → (route.fsuccessor = true ↔ route.reported_distance < pd.fdistance ∧ route.successor = false)) ∧
    ¬ (route.successor = true ∧ route.fsuccessor = true) := by
  induction queue with
  | nil => exact fun count index route here => by simp [mark_queue] at here
  | cons first queue ih =>
    intro count index route here
    obtain ⟨bare,successor,fsuccessor,disjoint,counted⟩ := @mark_route_spec env pd paths count first (plain first List.mem_cons_self)
    obtain ⟨distance,reported⟩ := bare_distances bare
    have shares := @shares_bare env pd.fdistance pd.distance _ _ bare
    rw [mark_queue] at here ⊢
    simp only at here ⊢
    cases index with
    | zero =>
      cases here
      rw [shares,distance,reported]
      exact ⟨by simpa using successor,fsuccessor,disjoint⟩
    | succ index =>
      rw [List.getElem?_cons_succ] at here
      obtain ⟨successor',rest⟩ := ih (fun other member => plain other (List.mem_cons_of_mem _ member)) _ index route here
      refine ⟨successor'.trans (and_congr_right fun _ => ?_),rest⟩
      rw [List.take_succ_cons,List.countP_cons,shares,counted]
      -- once the limit is reached the count stands still, and no later route is in front of it
      by_cases shared : Shares env pd.fdistance pd.distance first = true
      · by_cases room : count < paths
        · rw [if_pos ⟨shared,room⟩,if_pos shared]
          omega
        · rw [if_neg fun both => room both.2,if_pos shared]
          omega
      · rw [if_neg fun both => shared both.1,if_neg shared]
        omega

theorem unmarked_map (queue : List RouteDescriptor) : Unmarked (queue.map fun route => { route with successor := false, fsuccessor := false }) := by
  intro route member
  obtain ⟨old,_,rfl⟩ := List.mem_map.1 member
  exact ⟨rfl,rfl⟩

end Walk

/-- The flags of a destination whose variance is a multiple of the distance it stores: the first routes of the selected class that
share, in the order of the queue and up to the limit, and the other feasible ones; the routes are the same otherwise. -/
theorem successor_marking (env : Env) (pd : PrefixDescriptor) :
    Marked env pd (update_node_flags env pd) (fun _ => pd.distance) ∧
      (update_node_flags env pd).internal_routes.map (·.bare) = pd.internal_routes.map (·.bare) ∧
      (update_node_flags env pd).external_routes.map (·.bare) = pd.external_routes.map (·.bare) := by
  have bare (queue : List RouteDescriptor) :
      (queue.map fun route => { route with successor := false, fsuccessor := false }).map (·.bare) = queue.map (·.bare) := by
    rw [List.map_map]
    rfl
  have cleared (queue : List RouteDescriptor) := unmarked_map queue
  unfold Marked update_node_flags
  simp only
  generalize at_cleared : routes_map pd (fun route => { route with successor := false, fsuccessor := false }) = plain
  have internal : plain.internal_routes = pd.internal_routes.map fun route => { route with successor := false, fsuccessor := false } := by
    rw [← at_cleared]
    rfl
  have external : plain.external_routes = pd.external_routes.map fun route => { route with successor := false, fsuccessor := false } := by
    rw [← at_cleared]
    rfl
  have same_fields : plain.fdistance = pd.fdistance ∧ plain.distance = pd.distance := by
    rw [← at_cleared]
    exact ⟨rfl,rfl⟩
  cases selected : route_select pd with
  | none =>
    refine ⟨?_,by rw [internal,bare],by rw [external,bare]⟩
    intro route member
    rcases List.mem_append.1 member with first | second
    · exact cleared _ route (internal ▸ first)
    · exact cleared _ route (external ▸ second)
  | some best =>
    have walk (queue : List RouteDescriptor) (unmarked : Unmarked queue) :
        MarkedQueue env pd.fdistance pd.distance (mark_queue env plain env.paths 0 queue) := by
      intro index route here
      have spec := mark_queue_spec env.paths queue unmarked 0 index route here
      rw [same_fields.1,same_fields.2,Nat.zero_add] at spec
      exact spec
    have paths : (if env.max_paths ≠ 0 then env.max_paths.toNat else 4) = env.paths := rfl
    rw [paths]
    by_cases outside : best.external = true
    · simp only [outside,if_true,route_class_queue,other_class_queue]
      refine ⟨⟨walk _ (external ▸ cleared _),internal ▸ cleared _⟩,by rw [internal,bare],?_⟩
      rw [mark_queue_bare,external,bare]
    · have inside : best.external = false := by simpa using outside
      simp only [inside,Bool.false_eq_true,if_false,route_class_queue,other_class_queue]
      refine ⟨⟨walk _ (internal ▸ cleared _),external ▸ cleared _⟩,?_,by rw [external,bare]⟩
      rw [mark_queue_bare,internal,bare]

/-- An instance that shares among routes of the least distance only. -/
def equal_cost : Env :=
  { metric := {}, variance := 1, max_paths := 4, traffic_share_balanced := true, distance_internal := 90, distance_external := 170
    active_time := 180, params := fun _ => {}, nbr_count := 2, rib_accepts := fun _ => true }

/-- Two feasible routes of a destination whose stored distance is above both, and an unreachable one. -/
def stored_above : PrefixDescriptor :=
  { id := 0, destination := ⟨10,8⟩, fdistance := 2000, rdistance := 2000, distance := 2000, nt := .remote
    internal_routes := [{ id := 0, reported_distance := 500, distance := 1000 },{ id := 1, reported_distance := 600, distance := 1500 },
      { id := 2, reported_distance := 700, distance := max_distance }] }

theorem stored_distance_shares_more :
    stored_above.internal_routes.Pairwise (fun first second => first.distance ≤ second.distance) ∧
      ¬ Marked equal_cost stored_above (update_node_flags equal_cost stored_above) (fun best => best.distance) ∧
      ∃ route ∈ (update_node_flags equal_cost stored_above).routes, route.distance = max_distance ∧ route.fsuccessor = true := by
  refine ⟨by decide,fun marked => ?_,by decide⟩
  have shared := (marked.1 1 { id := 1, reported_distance := 600, distance := 1500, successor := true } (by decide)).1.1 rfl
  exact absurd shared.1 (by decide)

end Eigrp
