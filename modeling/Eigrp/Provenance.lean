import Eigrp.Numbers

/-!
# Where stored routes come from

A route of a destination was there before the call, was measured by it, or belongs to the router
itself. What is known about the routes of a neighbor therefore follows from how one of them is
measured: a neighbor has at most one route, and an unreachable vector gives an unreachable distance.
-/

namespace Eigrp
open Eigrp.Lib

/-! ## Measured routes -/

/-- The routes agree in whose they are and in what was measured. -/
structure SameData (route after : RouteDescriptor) : Prop where
  id : after.id = route.id
  adv_router : after.adv_router = route.adv_router
  ei : after.ei = route.ei
  reported_metric : after.reported_metric = route.reported_metric
  total_metric : after.total_metric = route.total_metric
  reported_distance : after.reported_distance = route.reported_distance
  distance : after.distance = route.distance

theorem SameData.refl (route : RouteDescriptor) : SameData route route := ⟨rfl,rfl,rfl,rfl,rfl,rfl,rfl⟩

theorem SameData.trans {route middle after : RouteDescriptor} (first : SameData route middle) (second : SameData middle after) :
    SameData route after where
  id := second.id.trans first.id
  adv_router := second.adv_router.trans first.adv_router
  ei := second.ei.trans first.ei
  reported_metric := second.reported_metric.trans first.reported_metric
  total_metric := second.total_metric.trans first.total_metric
  reported_distance := second.reported_distance.trans first.reported_distance
  distance := second.distance.trans first.distance

theorem SameData.of_bare {route after : RouteDescriptor} (same : after.bare = route.bare) : SameData route after where
  id := (congrArg RouteDescriptor.id same : after.bare.id = route.bare.id)
  adv_router := (congrArg RouteDescriptor.adv_router same : after.bare.adv_router = route.bare.adv_router)
  ei := (congrArg RouteDescriptor.ei same : after.bare.ei = route.bare.ei)
  reported_metric := (congrArg RouteDescriptor.reported_metric same : after.bare.reported_metric = route.bare.reported_metric)
  total_metric := (congrArg RouteDescriptor.total_metric same : after.bare.total_metric = route.bare.total_metric)
  reported_distance := (congrArg RouteDescriptor.reported_distance same : after.bare.reported_distance = route.bare.reported_distance)
  distance := (congrArg RouteDescriptor.distance same : after.bare.distance = route.bare.distance)

/-- Every stored route of the second descriptor has the data of one of the first. -/
def Inherits (pd next : PrefixDescriptor) : Prop := ∀ route ∈ next.routes, ∃ old ∈ pd.routes, SameData old route

theorem Inherits.refl (pd : PrefixDescriptor) : Inherits pd pd := fun route member => ⟨route,member,.refl route⟩

theorem Inherits.trans {pd middle next : PrefixDescriptor} (first : Inherits pd middle) (second : Inherits middle next) :
    Inherits pd next := by
  intro route member
  obtain ⟨kept,stored,same⟩ := second route member
  obtain ⟨old,present,equal⟩ := first kept stored
  exact ⟨old,present,equal.trans same⟩

theorem Inherits.of_routes {pd next : PrefixDescriptor} (routes : next.routes = pd.routes) : Inherits pd next := by
  intro route member
  exact ⟨route,routes ▸ member,.refl route⟩

theorem SameRoutes.inherits {pd next : PrefixDescriptor} (same : SameRoutes pd next) : Inherits pd next := by
  intro route member
  have listed : route.bare ∈ pd.routes.map (·.bare) := same.routes ▸ List.mem_map_of_mem member
  obtain ⟨old,stored,equal⟩ := List.mem_map.mp listed
  exact ⟨old,stored,.of_bare equal.symm⟩

theorem routes_map_inherits (pd : PrefixDescriptor) {update : RouteDescriptor → RouteDescriptor}
    (kept : ∀ route, SameData route (update route)) : Inherits pd (routes_map pd update) := by
  intro route member
  obtain ⟨old,stored,rfl⟩ := mem_routes_map.mp member
  exact ⟨old,stored,kept old⟩

theorem route_write_inherits (pd : PrefixDescriptor) (id : Nat) {update : RouteDescriptor → RouteDescriptor}
    (kept : ∀ route, SameData route (update route)) : Inherits pd (route_write pd id update) := by
  rw [route_write_eq_map]
  refine routes_map_inherits pd fun route => ?_
  split
  · exact kept route
  · exact .refl route

/-- What the message says of its route: the interface of a connected route, or the vector and the distances behind it. -/
inductive Taken (env : Env) (msg : Msg) (route after : RouteDescriptor) : Prop
  | connected : msg.data_type = .connected → after.reported_metric = route.reported_metric →
      after.total_metric = route.total_metric → after.reported_distance = route.reported_distance →
      after.distance = route.distance → Taken env msg route after
  | learned (ei : Nat) : msg.data_type ≠ .connected → after.ei = some ei → after.reported_metric = msg.metrics →
      after.reported_distance = store (metric_calculate env.metric msg.metrics) →
      after.total_metric = metric_total env.metric msg.metrics (env.params ei) →
      after.distance = store (metric_total_calculate env.metric msg.metrics (env.params ei)) → Taken env msg route after
  | seeded : msg.data_type ≠ .connected → after.adv_router = some .self → after.ei = none → after.reported_distance = 0 →
      after.total_metric = msg.metrics → after.distance = store (redistributed_distance env.metric msg.metrics) →
      Taken env msg route after

/-- The message leaves its route as it is. -/
def Msg.skips (msg : Msg) (route : RouteDescriptor) : Prop :=
  msg.transient_route ∨ msg.data_type = .connected ∨ metrics_match msg.metrics route.reported_metric

/-- The route takes over from the message what is missing of neighbor and interface. -/
def Msg.named (msg : Msg) (route : RouteDescriptor) : RouteDescriptor :=
  { route with adv_router := route.adv_router <|> msg.adv_router, ei := route.ei <|> msg.adv_router.bind Nbr.ei }

section Measuring
variable {env : Env} {msg last : Msg} {pd next : PrefixDescriptor} {route after : RouteDescriptor} {change : MetricChange}
  {out : List Effect}

/-- The route of the message is left alone, or measured and linked again. -/
theorem distance_measure_stored (done : distance_measure env pd msg route = some (next, after, change)) :
    (next = pd ∧ msg.skips route ∧ (msg.transient_route ∨ after = msg.named route)) ∨
      (next = route_relink pd after ∧ ¬ msg.transient_route ∧ after.id = route.id ∧
        after.adv_router = (route.adv_router <|> msg.adv_router) ∧ Taken env msg route after) := by
  unfold distance_measure at done
  split at done
  · rename_i transient
    cases done
    exact .inl ⟨rfl,.inl transient,.inl transient⟩
  · rename_i stored
    dsimp only at done
    cases kind : msg.data_type with
    | connected =>
      simp only [kind] at done
      split at done
      · cases done
        exact .inl ⟨rfl,.inr (.inl kind),.inr rfl⟩
      · cases done
        exact .inr ⟨rfl,stored,rfl,rfl,.connected kind rfl rfl rfl rfl⟩
    | int =>
      simp only [kind] at done
      split at done
      · rename_i unchanged
        cases done
        simp only [Bool.and_eq_true] at unchanged
        exact .inl ⟨rfl,.inr (.inr unchanged.2),.inr rfl⟩
      · obtain ⟨learned,found,result⟩ := Option.bind_eq_some_iff.mp done
        obtain ⟨ei,known,rfl⟩ := Option.map_eq_some_iff.mp found
        cases result
        exact .inr ⟨rfl,stored,rfl,rfl,.learned ei (by simp [kind]) known rfl rfl rfl rfl⟩
    | ext =>
      simp only [kind] at done
      split at done
      · rename_i unchanged
        cases done
        simp only [Bool.and_eq_true] at unchanged
        exact .inl ⟨rfl,.inr (.inr unchanged.2),.inr rfl⟩
      · split at done
        · rename_i own
          cases done
          exact .inr ⟨rfl,stored,rfl,rfl,.seeded (by simp [kind]) own.1 own.2 rfl rfl rfl⟩
        · obtain ⟨learned,found,result⟩ := Option.bind_eq_some_iff.mp done
          obtain ⟨ei,known,rfl⟩ := Option.map_eq_some_iff.mp found
          cases result
          exact .inr ⟨rfl,stored,rfl,rfl,.learned ei (by simp [kind]) known rfl rfl rfl rfl⟩

/-- The route of the message is left alone, or measured and linked again, or taken out. -/
theorem update_distance_stored (done : update_distance env pd msg route = some (next, last, after, change)) :
    (next = pd ∧ msg.skips route ∧ (msg.transient_route ∨ after = msg.named route)) ∨
    (next = route_relink pd after ∧ ¬ msg.transient_route ∧ after.id = route.id ∧
        after.adv_router = (route.adv_router <|> msg.adv_router) ∧ Taken env msg route after) ∨
      (next = route_unlink pd route.id ∧ link_refused env pd msg route) := by
  obtain ⟨⟨measured,learned,found⟩,distance,finished⟩ := Option.bind_eq_some_iff.mp done
  by_cases refused : link_refused env pd msg route
  · simp only [refused,if_true] at finished
    cases finished
    exact .inr (.inr ⟨rfl,refused⟩)
  · simp only [refused,Bool.false_eq_true,if_false] at finished
    cases finished
    exact (distance_measure_stored distance).imp_right .inl

/-- A stored route behind a message: one from before, that of the message only if it was left alone, or the message's. -/
inductive Behind (env : Env) (msg : Msg) (pd : PrefixDescriptor) (route : RouteDescriptor) (other : RouteDescriptor) : Prop
  | kept {old : RouteDescriptor} : old ∈ pd.routes → SameData old other → (old.id = route.id → msg.skips route) →
      Behind env msg pd route other
  | taken {after : RouteDescriptor} : after.id = route.id → after.adv_router = (route.adv_router <|> msg.adv_router) →
      Taken env msg route after → SameData after other → ¬ msg.transient_route → Behind env msg pd route other

theorem Behind.same {other last : RouteDescriptor} (behind : Behind env msg pd route other) (same : SameData other last) :
    Behind env msg pd route last := by
  cases behind with
  | kept stored data skips => exact .kept stored (data.trans same) skips
  | taken number owner taken data fixed => exact .taken number owner taken (data.trans same) fixed

theorem update_distance_behind (done : update_distance env pd msg route = some (next, last, after, change)) :
    ∀ other ∈ next.routes, Behind env msg pd route other := by
  intro other member
  rcases update_distance_stored done with ⟨rfl,skips,_⟩ | ⟨rfl,fixed,number,owner,taken⟩ | ⟨rfl,_⟩
  · exact .kept member (.refl other) fun _ => skips
  · rcases mem_routes_relink.mp member with rfl | ⟨stored,different⟩
    · exact .taken number owner taken (.refl _) fixed
    · exact .kept stored (.refl other) fun same => absurd (same.trans number.symm) different
  · obtain ⟨stored,different⟩ := mem_routes_unlink.mp member
    exact .kept stored (.refl other) fun same => absurd same different

/-- The stored routes behind an event of DUAL. -/
theorem fsm_event_behind (done : fsm_event env pd msg route = some (next, out)) :
    ∀ other ∈ next.routes, Behind env msg pd route other := by
  obtain ⟨current,last,after,change,measured,queues⟩ := fsm_event_linked done
  intro other member
  obtain ⟨old,stored,data⟩ := queues.routes.inherits other member
  exact (update_distance_behind measured old stored).same data

end Measuring

end Eigrp
