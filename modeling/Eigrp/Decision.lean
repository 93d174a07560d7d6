import Eigrp.Feasibility
import Eigrp.Numbers

/-!
# The decision to start a computation

A PASSIVE destination stays PASSIVE only while some route passes the feasibility condition, or when
nothing about its routes has changed. `eigrp_fsm_event_select` decides by the class of the change. For an
external route that class looks at the reported distance alone, and a route that is refused its list
item is gone without any change.
-/

namespace Eigrp
open Eigrp.Lib

/-- The route is reachable and nearer at the neighbor than the feasible distance. -/
def feasible (fdistance : UInt32) (route : RouteDescriptor) : Bool :=
  route.distance ≠ max_distance ∧ route.reported_distance < fdistance

/-- Every stored route is still stored, with the distances that it had. -/
def Steady (pd next : PrefixDescriptor) : Prop :=
  ∀ route ∈ pd.routes, ∃ kept ∈ next.routes, kept.id = route.id ∧ kept.distance = route.distance ∧
    kept.reported_distance = route.reported_distance

/-- A destination that is PASSIVE behind the event has a feasible route or steady ones, or there was nobody to ask. -/
def Decided (env : Env) (pd next : PrefixDescriptor) (out : List Effect) : Prop :=
  next.state = .passive → (∃ route ∈ next.routes, feasible pd.fdistance route) ∨ Steady pd next ∨
    (env.nbr_count = 0 ∧ took_lr out)

/-! ## The class of a change -/

/-- The message's route, with what is missing of neighbor and interface. -/
def named_route (msg : Msg) (route : RouteDescriptor) : RouteDescriptor :=
  { route with adv_router := route.adv_router <|> msg.adv_router, ei := route.ei <|> msg.adv_router.bind Nbr.ei }

/-- A route of this router that was redistributed into the topology. -/
def redistributed_route (route : RouteDescriptor) : Bool := route.adv_router = some .self ∧ route.ei = none

/-- An external route with the vector and the distances of a message. -/
def external_measured (env : Env) (msg : Msg) (route : RouteDescriptor) : Option RouteDescriptor :=
  if redistributed_route (named_route msg route) then
    some { named_route msg route with
      metric := msg.metrics, reported_metric := msg.metrics, reported_distance := 0, total_metric := msg.metrics
      distance := store (redistributed_distance env.metric msg.metrics) }
  else route_learn env (named_route msg route) msg.metrics

/-- An external route counts as unchanged: the distance of a redistributed one, the reported distance of a learned one. -/
def external_same (env : Env) (msg : Msg) (route after : RouteDescriptor) : Bool :=
  if redistributed_route (named_route msg route) then route.distance.toUInt64 = redistributed_distance env.metric msg.metrics
  else route.reported_distance = after.reported_distance

/-- The route of a message is to be linked again, and is refused its item or counts as unchanged although it is external and
    one of its distances is another; and what is left is no feasible route. -/
def misjudged (env : Env) (pd : PrefixDescriptor) (msg : Msg) (route : RouteDescriptor) : Bool :=
  relinks pd msg route && route_stored pd route.id
    && pd.routes.all (fun other => other.id = route.id || !feasible pd.fdistance other)
    && (!env.links pd.id route.id msg.metrics ||
      msg.data_type == .ext && (external_measured env msg route).any fun after =>
        external_same env msg route after
          && (after.distance != route.distance || after.reported_distance != route.reported_distance)
          && !feasible pd.fdistance after)

section Classes
variable {env : Env} {pd current : PrefixDescriptor} {msg last : Msg} {route after : RouteDescriptor} {change : MetricChange}

theorem distance_measure_external (relinked : relinks pd msg route) (kind : msg.data_type = .ext)
    (measured : distance_measure env pd msg route = some (current, after, change)) :
    external_measured env msg route = some after ∧ (change = .same ↔ external_same env msg route after) := by
  simp only [relinks,kind,route_stored,Bool.and_eq_true,Bool.not_eq_true'] at relinked
  obtain ⟨handed,new⟩ := relinked
  simp only [distance_measure,handed,Bool.false_eq_true,if_false,kind,new] at measured
  unfold external_measured external_same
  by_cases own : redistributed_route (named_route msg route)
  · have seeded : (named_route msg route).adv_router = some .self ∧ (named_route msg route).ei = none := by
      simpa [redistributed_route] using own
    simp only [named_route] at seeded
    rw [if_pos seeded] at measured
    simp only [own,if_true]
    cases measured
    refine ⟨rfl,?_⟩
    split
    · rename_i less
      simp [(UInt64.ne_of_lt less)]
    · split
      · rename_i _ more
        simp [(UInt64.ne_of_lt more).symm]
      · rename_i low high
        simp only [true_iff,decide_eq_true_eq]
        exact UInt64.le_antisymm (UInt64.not_lt.mp high) (UInt64.not_lt.mp low)
  · have learned : ¬ ((named_route msg route).adv_router = some .self ∧ (named_route msg route).ei = none) := by
      simpa [redistributed_route] using own
    simp only [named_route] at learned
    rw [if_neg learned] at measured
    simp only [own,Bool.false_eq_true,if_false]
    obtain ⟨result,found,finished⟩ := Option.bind_eq_some_iff.mp measured
    cases finished
    refine ⟨found,?_⟩
    split
    · rename_i less
      simp [(UInt32.ne_of_lt less)]
    · split
      · rename_i _ more
        simp [(UInt32.ne_of_lt more).symm]
      · rename_i low high
        simp only [true_iff,decide_eq_true_eq]
        exact UInt32.le_antisymm (UInt32.not_lt.mp high) (UInt32.not_lt.mp low)

/-- Of another class than external, a message that links its route counts as a change. -/
theorem distance_measure_counted (relinked : relinks pd msg route) (other : msg.data_type ≠ .ext)
    (measured : distance_measure env pd msg route = some (current, after, change)) : change ≠ .same := by
  rintro rfl
  cases kind : msg.data_type with
  | connected =>
    simp only [relinks,kind,Bool.and_eq_true,Bool.not_eq_true',decide_eq_true_eq] at relinked
    simp [distance_measure,relinked,kind] at measured
  | int =>
    simp only [relinks,kind,route_stored,Bool.and_eq_true,Bool.not_eq_true'] at relinked
    simp only [distance_measure,relinked.1,Bool.false_eq_true,if_false,kind,relinked.2] at measured
    obtain ⟨learned,_,finished⟩ := Option.bind_eq_some_iff.mp measured
    split at finished <;> cases finished
  | ext => exact other kind

theorem route_select_none : route_select pd = none ↔ ∀ route ∈ pd.routes, feasible pd.fdistance route = false := by
  simp [route_select,feasible]

/-- Relinking a stored route is steady if and only if its distances are the ones it had. -/
theorem steady_relink (tidy : Tidy pd) (stored : route ∈ pd.routes) (same : after.id = route.id) :
    Steady pd (route_relink pd after) ↔
      after.distance = route.distance ∧ after.reported_distance = route.reported_distance := by
  constructor
  · intro steady
    obtain ⟨kept,member,number,distance,reported⟩ := steady route stored
    rcases mem_routes_relink.mp member with rfl | ⟨_,different⟩
    · exact ⟨distance,reported⟩
    · exact absurd (number.trans same.symm) different
  · rintro ⟨distance,reported⟩ other member
    by_cases equal : other.id = route.id
    · obtain rfl := tidy.unique stored member equal
      exact ⟨after,mem_routes_relink.mpr (.inl rfl),same,distance,reported⟩
    · refine ⟨other,mem_routes_relink.mpr (.inr ⟨member,?_⟩),rfl,rfl,rfl⟩
      rwa [same]

theorem steady_relink_fresh (fresh : ∀ other ∈ pd.routes, other.id ≠ after.id) : Steady pd (route_relink pd after) :=
  fun other member => ⟨other,mem_routes_relink.mpr (.inr ⟨member,fresh other member⟩),rfl,rfl,rfl⟩

theorem relink_infeasible : (∀ other ∈ (route_relink pd after).routes, feasible pd.fdistance other = false) ↔
    feasible pd.fdistance after = false ∧ ∀ other ∈ pd.routes, other.id = after.id ∨ feasible pd.fdistance other = false := by
  constructor
  · intro none
    refine ⟨none after (mem_routes_relink.mpr (.inl rfl)),fun other member => ?_⟩
    by_cases same : other.id = after.id
    · exact .inl same
    · exact .inr (none other (mem_routes_relink.mpr (.inr ⟨member,same⟩)))
  · rintro ⟨first,rest⟩ other member
    rcases mem_routes_relink.mp member with rfl | ⟨member,different⟩
    · exact first
    · exact (rest other member).resolve_left different

theorem unlink_infeasible : (∀ other ∈ (route_unlink pd route.id).routes, feasible pd.fdistance other = false) ↔
    ∀ other ∈ pd.routes, other.id = route.id ∨ feasible pd.fdistance other = false := by
  simp only [mem_routes_unlink]
  constructor
  · intro none other member
    by_cases same : other.id = route.id
    · exact .inl same
    · exact .inr (none other ⟨member,same⟩)
  · rintro rest other ⟨member,different⟩
    exact (rest other member).resolve_left different

/-- Taking a route out of the queues is steady if and only if it was in none. -/
theorem steady_unlink : Steady pd (route_unlink pd route.id) ↔ route_stored pd route.id = false := by
  constructor
  · intro steady
    by_contra held
    simp only [route_stored,Bool.not_eq_false,List.any_eq_true,decide_eq_true_eq] at held
    obtain ⟨other,stored,number⟩ := held
    obtain ⟨kept,member,same,_⟩ := steady other stored
    exact (mem_routes_unlink.mp member).2 (same.trans number)
  · intro missing other stored
    simp only [route_stored,List.any_eq_false,decide_eq_true_eq] at missing
    exact ⟨other,mem_routes_unlink.mpr ⟨stored,missing other stored⟩,rfl,rfl,rfl⟩

theorem misjudged_rests (rests : relinks pd msg route = false) : misjudged env pd msg route = false := by
  simp [misjudged,rests]

/-- What is misjudged, in terms of the distance update. -/
theorem misjudged_iff (tidy : Tidy pd) (presented : route ∈ pd.routes ∨ ∀ other ∈ pd.routes, other.id ≠ route.id)
    (measured : update_distance env pd msg route = some (current, last, after, change)) :
    misjudged env pd msg route ↔ change = .same ∧ route_select current = none ∧ ¬ Steady pd current := by
  have steady : Steady pd pd := fun route member => ⟨route,member,rfl,rfl,rfl⟩
  have linking := update_distance_linking measured
  obtain ⟨⟨next,learned,class_of⟩,distance,finished⟩ := Option.bind_eq_some_iff.mp measured
  cases linking with
  | rests _ rests => simp [misjudged_rests rests,steady]
  | linked _ _ relinked granted same =>
    have granted' : link_refused env pd msg route = false := by simp [link_refused,granted]
    simp only [granted',Bool.false_eq_true,if_false] at finished
    cases finished
    have fdistance : (route_relink pd after).fdistance = pd.fdistance := (route_relink_rerouted pd after).fdistance
    rw [route_select_none,fdistance,relink_infeasible,same.id]
    by_cases kind : msg.data_type = .ext
    · obtain ⟨found,class_same⟩ := distance_measure_external relinked kind distance
      rw [class_same]
      rcases presented with stored | fresh
      · have listed : route_stored pd route.id := List.any_eq_true.mpr ⟨route,stored,by simp⟩
        rw [steady_relink tidy stored same.id]
        simp only [misjudged,relinked,granted,kind,listed,found]
        simp
        tauto
      · have unlisted : route_stored pd route.id = false := by simpa [route_stored] using fresh
        have kept : Steady pd (route_relink pd after) := steady_relink_fresh (same.id.symm ▸ fresh)
        simp [misjudged,unlisted,kept]
    · have counted := distance_measure_counted relinked kind distance
      simp [misjudged,granted,kind,counted]
  | refused _ relinked refused same =>
    have fdistance : (route_unlink pd route.id).fdistance = pd.fdistance := rfl
    rw [route_select_none,fdistance,unlink_infeasible,steady_unlink]
    simp only [misjudged,relinked,refused]
    simp [and_comm]

end Classes

/-! ## The event -/

section Events
variable {env : Env} {pd next : PrefixDescriptor} {msg : Msg} {route : RouteDescriptor} {out : List Effect}

theorem SameRoutes.feasible {fdistance : UInt32} (same : SameRoutes pd next) :
    (∃ route ∈ next.routes, feasible fdistance route) ↔ ∃ route ∈ pd.routes, feasible fdistance route := by
  have equal := same.map (Eigrp.feasible fdistance)
  have listed (pd : PrefixDescriptor) : (∃ route ∈ pd.routes, Eigrp.feasible fdistance route) ↔
      true ∈ pd.routes.map (Eigrp.feasible fdistance ∘ RouteDescriptor.bare) := by
    simp only [List.mem_map,Function.comp_apply]
    rfl
  rw [listed,listed,equal]

theorem SameRoutes.steady {first : PrefixDescriptor} (same : SameRoutes pd next) : Steady first next ↔ Steady first pd := by
  have equal := same.map fun route => (route.id,route.distance,route.reported_distance)
  have listed (pd : PrefixDescriptor) : Steady first pd ↔ ∀ route ∈ first.routes,
      (route.id,route.distance,route.reported_distance) ∈
        pd.routes.map ((fun route => (route.id,route.distance,route.reported_distance)) ∘ RouteDescriptor.bare) := by
    simp only [Steady,List.mem_map,Function.comp_apply,Prod.mk.injEq]
    rfl
  rw [listed,listed,equal]

theorem keep_passive_quiet (env : Env) (pd : PrefixDescriptor) (used : RouteDescriptor) : took_lr (keep_passive env pd used).2 = false := by
  have table (pd : PrefixDescriptor) : took_lr (update_routing_table env pd).2 = false := by
    unfold update_routing_table
    dsimp only
    split
    · split <;> rfl
    · rfl
  simp only [keep_passive]
  split
  · exact table _
  · simpa [took_lr] using table _

theorem reply_send_quiet (pd : PrefixDescriptor) (nbr : Option Nbr) : took_lr (reply_send pd nbr) = false := by
  unfold reply_send reply_send_route
  split <;> rfl

/-- A PASSIVE destination with a finite feasible distance is judged as the feasibility condition demands, unless a new
    vector of an external route is taken for no change, or a route that is not linked again. -/
theorem fsm_event_decided_iff (passive : pd.state = .passive) (finite : pd.fdistance ≠ max_distance) (tidy : Tidy pd)
    (presented : route ∈ pd.routes ∨ ∀ other ∈ pd.routes, other.id ≠ route.id)
    (done : fsm_event env pd msg route = some (next, out)) : Decided env pd next out ↔ ¬ misjudged env pd msg route := by
  obtain ⟨⟨chosen,last,after,event⟩,selected,done⟩ := Option.bind_eq_some_iff.mp done
  obtain ⟨⟨current,last',after',change⟩,measured,result⟩ := Option.bind_eq_some_iff.mp selected
  have linking := update_distance_linking measured
  have resting : current.state = .passive := linking.rerouted.state.trans passive
  have bound : current.fdistance = pd.fdistance := linking.rerouted.fdistance
  rw [misjudged_iff tidy presented measured]
  cases result
  have done : nsm env (event_choose current last after change).1 last after (event_choose current last after change).2 =
      some (next, out) := done
  -- the state machine keeps a PASSIVE destination, or starts a computation
  have kept (chose : event_choose current last after change = (current, .keep_state)) :
      ∃ used, (route_select current).or (route_read current) = some used ∧ next = (keep_passive env current used).1 ∧
        took_lr out = false := by
    simp only [chose,nsm,resting,nsm_passive,fsm_event_keep_state,if_true] at done
    obtain ⟨used,found,finished⟩ := Option.bind_eq_some_iff.mp done
    obtain ⟨rfl,rfl⟩ := exec_some finished
    refine ⟨used,found,rfl,?_⟩
    have quiet := keep_passive_quiet env current used
    have silent : took_lr (if last.packet_type = .query then reply_send (keep_passive env current used).1 last.adv_router else []) =
        false := by
      split
      · exact reply_send_quiet _ _
      · rfl
    unfold took_lr at quiet silent ⊢
    rw [List.any_append,quiet,silent,Bool.or_false]
  have infinite : ¬ current.fdistance = max_distance := bound ▸ finite
  by_cases quiet : change = .same
  · have chose : event_choose current last after change = (current, .keep_state) := by simp [event_choose,resting,quiet]
    obtain ⟨used,_,rfl,took⟩ := kept chose
    have same := keep_passive_same env current used
    have state : (keep_passive env current used).1.state = .passive := (keep_passive_control env current used).state.trans resting
    simp only [Decided,state,true_implies,took,Bool.false_eq_true,and_false,or_false,same.feasible,same.steady,quiet,true_and]
    rw [route_select_none,bound]
    constructor
    · rintro (⟨route,member,feasible⟩ | steady) ⟨none,unsteady⟩
      · simp [none route member] at feasible
      · exact unsteady steady
    · intro judged
      by_cases steady : Steady pd current
      · exact .inr steady
      · left
        by_contra none
        push Not at none
        exact judged ⟨fun route member => by simpa using none route member,steady⟩
  · simp only [quiet,false_and,not_false_eq_true,iff_true]
    by_cases some : (route_select current).isSome
    · have chose : event_choose current last after change = (current, .keep_state) := by
        simp [event_choose,resting,quiet,infinite,some]
      obtain ⟨used,_,rfl,_⟩ := kept chose
      intro _
      refine .inl ((keep_passive_same env current used).feasible.mpr ?_)
      obtain ⟨best,found⟩ := Option.isSome_iff_exists.mp some
      refine ⟨best,List.mem_of_find?_eq_some found,?_⟩
      rw [← bound]
      simpa [Eigrp.feasible] using List.find?_some found
    · -- a computation starts, and ends at once only without neighbors
      have begun (start : PrefixDescriptor) (effect : Effect) (active : start.state ≠ .passive)
          (begins : next = (diffuse env start).1 ∧ out = effect :: (diffuse env start).2) : Decided env pd next out := by
        obtain ⟨rfl,rfl⟩ := begins
        intro state
        rcases diffuse_cases env start with ⟨_,asked⟩ | ⟨alone,ended⟩
        · rw [asked] at state
          exact absurd state active
        · refine .inr (.inr ⟨alone,?_⟩)
          rw [ended]
          refine took_lr_append_left ?_ [effect]
          exact fsm_event_lr_took env active
      have missing : (route_select current).isSome = false := by simpa using some
      by_cases query : last.packet_type = .query
      · have chose : event_choose current last after change = (current, .q_fcn) := by
          simp [event_choose,resting,quiet,infinite,missing,query]
        simp only [chose,nsm,resting,nsm_passive] at done
        obtain ⟨rfl,rfl⟩ := exec_some done
        exact begun { current with state := .active_3, query_origin := last.adv_router } _ (by simp) ⟨rfl,rfl⟩
      · have chose : event_choose current last after change = (current, .nq_fcn) := by
          simp [event_choose,resting,quiet,infinite,missing,query]
        simp only [chose,nsm,resting,nsm_passive] at done
        obtain ⟨rfl,rfl⟩ := exec_some done
        exact begun { current with state := .active_1 } _ (by simp) ⟨rfl,rfl⟩

end Events

/-- A route of a neighbor over its interface, and the destination that uses it. -/
def sole_route : RouteDescriptor :=
  { id := 0, adv_router := some (.peer 0 0), ei := some 0, reported_distance := 500, distance := 1000, successor := true }

def sole_prefix : PrefixDescriptor :=
  { id := 0, destination := ⟨10,8⟩, internal_routes := [sole_route], fdistance := 1000, rdistance := 1000, distance := 1000
    nt := .remote, next_route := 1 }

/-- An instance with that neighbor. -/
def sole_neighbor : Instance := { eiflist := [{ id := 0, nbrs := [{ id := 0, state := .up }] }] }

/-- The neighbor withdraws its route. -/
def sole_withdrawal : Msg := { packet_type := .update, data_type := .int, metrics := { delay := max_metric } }

theorem fsm_event_decided_withdrawal : ∃ next out, fsm_event sole_neighbor.env sole_prefix sole_withdrawal sole_route = some (next, out) ∧
    next.state = .active_1 ∧ Decided sole_neighbor.env sole_prefix next out := by
  have done : fsm_event sole_neighbor.env sole_prefix sole_withdrawal sole_route =
    some ((fsm_event sole_neighbor.env sole_prefix sole_withdrawal sole_route).get (by decide +kernel)) := (Option.some_get _).symm
  have judged := fsm_event_decided_iff (by decide) (by decide) ⟨by decide,by decide⟩ (.inl (by decide)) done
  exact ⟨_,_,done,by decide +kernel,judged.mpr (by decide +kernel)⟩

/-- An external path grows longer than the hop limit, its composite staying the same. -/
def hop_limit : List Event :=
  let packet (hop_count : UInt8) : Packet :=
    { opcode := .update
      routes := [{ tlv := { dest := ⟨10,8⟩, external := true, metric := { delay := 100, bandwidth := 100, hop_count } } }] }
  two_neighbors ++ [.packet_receive (.peer 0 0) (packet 5), .packetizer {}, .packet_receive (.peer 0 0) (packet 100)]

theorem hop_limit_not_decided : ¬ ∀ step ∈ (run {} hop_limit).trace, ∀ id call pd next out, Performs step id call pd next out →
    pd.state = .passive → pd.fdistance ≠ max_distance → Decided step.before.env pd next out := by
  intro decided
  obtain ⟨call,out,performs⟩ := @run_performs {} hop_limit ⟨20,by decide +kernel⟩ 0 (by decide +kernel)
    (by decide +kernel) (by decide +kernel)
  have judged := decided _ (List.get_mem _ _) 0 call _ _ out performs (by decide +kernel) (by decide +kernel) (by decide +kernel)
  have neighbors : ((run {} hop_limit).trace.get ⟨20,by decide +kernel⟩).before.env.nbr_count ≠ 0 := by decide +kernel
  simp only [neighbors,false_and,or_false,Steady] at judged
  revert judged
  decide +kernel

end Eigrp
