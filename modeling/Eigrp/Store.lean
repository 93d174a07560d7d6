import Eigrp.Storage

/-!
# The store of routes

A stored route is linked once, in the queue of its class, and both queues are in the order of the
distances. Receivers write the class of a stored route before DUAL links it again, and every route is
taken out of its queue before a list item is asked for that links it; the host may refuse the item.
-/

namespace Eigrp
open Eigrp.Lib

/-! ## The invariant -/

/-- Every stored route is linked once, in the queue of its class and in the order of the distances. It has an owner, and
    no neighbor owns two. -/
structure RouteStore (pd : PrefixDescriptor) : Prop where
  ordered : QueueOrder pd
  tidy : Tidy pd
  owned : ∀ route ∈ pd.routes, route.adv_router ≠ none
  single : ∀ nbr, nbr ≠ .self → ∀ route ∈ pd.routes, ∀ other ∈ pd.routes, route.adv_router = some nbr →
    other.adv_router = some nbr → other.id = route.id

/-- The lookup finds the stored route of a neighbor. -/
theorem RouteStore.found {pd : PrefixDescriptor} (store : RouteStore pd) {route : RouteDescriptor} (stored : route ∈ pd.routes)
    {nbr : Nbr} (peer : nbr ≠ .self) (owner : route.adv_router = some nbr) : prefix_descriptor_lookup pd nbr = some route := by
  cases found : prefix_descriptor_lookup pd nbr with
  | none =>
    have missing := List.find?_eq_none.mp found route stored
    simp [owner] at missing
  | some other =>
    obtain ⟨member,same⟩ := lookup_stored found
    exact congrArg some (store.tidy.unique stored member (store.single nbr peer route stored other member owner same))

/-- What the store depends on. -/
def RouteDescriptor.key (route : RouteDescriptor) : RouteDescriptor :=
  { id := route.id, external := route.external, distance := route.distance, adv_router := route.adv_router }

/-- The queues hold the same routes in the same order, as far as the store depends on them. -/
structure SameKeys (pd next : PrefixDescriptor) : Prop where
  internal : next.internal_routes.map (·.key) = pd.internal_routes.map (·.key)
  external : next.external_routes.map (·.key) = pd.external_routes.map (·.key)
  next_route : next.next_route = pd.next_route

section Keys
variable {pd next : PrefixDescriptor}

theorem key_fields {old route : RouteDescriptor} (same : old.key = route.key) :
    old.id = route.id ∧ old.external = route.external ∧ old.distance = route.distance ∧ old.adv_router = route.adv_router := by
  simp only [RouteDescriptor.key,RouteDescriptor.mk.injEq] at same
  tauto

theorem SameQueues.keys (same : SameQueues pd next) : SameKeys pd next where
  internal := by simpa [Function.comp_def,RouteDescriptor.key,RouteDescriptor.bare] using congrArg (List.map (·.key)) same.internal
  external := by simpa [Function.comp_def,RouteDescriptor.key,RouteDescriptor.bare] using congrArg (List.map (·.key)) same.external
  next_route := same.next_route

theorem same_key_member {queue rest : List RouteDescriptor} (same : rest.map (·.key) = queue.map (·.key)) {route : RouteDescriptor}
    (member : route ∈ rest) : ∃ old ∈ queue, old.key = route.key := by
  have listed : route.key ∈ queue.map (·.key) := same ▸ List.mem_map_of_mem member
  exact List.mem_map.mp listed

theorem same_key_sorted {queue rest : List RouteDescriptor} (same : rest.map (·.key) = queue.map (·.key))
    (sorted : queue.Pairwise fun first second => first.distance ≤ second.distance) :
    rest.Pairwise fun first second => first.distance ≤ second.distance := by
  let nearer (first second : RouteDescriptor) : Prop := first.distance ≤ second.distance
  have keys : (queue.map (·.key)).Pairwise nearer := (List.pairwise_map (R := nearer)).mpr sorted
  rw [← same] at keys
  have plain : rest.Pairwise fun first second => nearer first.key second.key := List.pairwise_map.mp keys
  exact plain

theorem SameKeys.member (same : SameKeys pd next) {route : RouteDescriptor} (member : route ∈ next.routes) :
    ∃ old ∈ pd.routes, old.key = route.key := by
  rcases List.mem_append.mp member with near | far
  · obtain ⟨old,stored,key⟩ := same_key_member same.internal near
    exact ⟨old,List.mem_append_left _ stored,key⟩
  · obtain ⟨old,stored,key⟩ := same_key_member same.external far
    exact ⟨old,List.mem_append_right _ stored,key⟩

theorem SameKeys.store (same : SameKeys pd next) (store : RouteStore pd) : RouteStore next where
  ordered := by
    refine ⟨?_,?_,same_key_sorted same.internal store.ordered.internal_sorted,same_key_sorted same.external store.ordered.external_sorted⟩
    · intro route member
      obtain ⟨old,stored,key⟩ := same_key_member same.internal member
      exact (key_fields key).2.1.symm.trans (store.ordered.internal old stored)
    · intro route member
      obtain ⟨old,stored,key⟩ := same_key_member same.external member
      exact (key_fields key).2.1.symm.trans (store.ordered.external old stored)
  tidy := by
    have internal := congrArg (List.map (·.id)) same.internal
    have external := congrArg (List.map (·.id)) same.external
    simp only [List.map_map] at internal external
    have numbers : SameNumbers pd next := by
      refine ⟨?_,same.next_route⟩
      simp only [PrefixDescriptor.routes,List.map_append]
      exact congrArg₂ (· ++ ·) internal external
    exact numbers.tidy store.tidy
  owned := by
    intro route member
    obtain ⟨old,stored,key⟩ := same.member member
    exact (key_fields key).2.2.2 ▸ store.owned old stored
  single := by
    intro nbr peer route member other present first second
    obtain ⟨old,stored,key⟩ := same.member member
    obtain ⟨older,kept,key'⟩ := same.member present
    obtain ⟨number,_,_,owner⟩ := key_fields key
    obtain ⟨number',_,_,owner'⟩ := key_fields key'
    rw [← number,← number']
    exact store.single nbr peer old stored older kept (owner.trans first) (owner'.trans second)

/-- Writes that leave the keys of the stored routes alone. -/
theorem RouteStore.write (store : RouteStore pd) {update : RouteDescriptor → RouteDescriptor}
    (kept : ∀ route ∈ pd.routes, (update route).key = route.key) : RouteStore (routes_map pd update) := by
  have same : SameKeys pd (routes_map pd update) := by
    refine ⟨?_,?_,rfl⟩
    · simp only [routes_map,List.map_map]
      exact List.map_congr_left fun route member => kept route (List.mem_append_left _ member)
    · simp only [routes_map,List.map_map]
      exact List.map_congr_left fun route member => kept route (List.mem_append_right _ member)
  exact same.store store

theorem RouteStore.routes_eq (store : RouteStore pd) (internal : next.internal_routes = pd.internal_routes)
    (external : next.external_routes = pd.external_routes) (next_route : pd.next_route ≤ next.next_route) : RouteStore next where
  ordered := by
    refine ⟨?_,?_,?_,?_⟩
    · exact internal ▸ store.ordered.internal
    · exact external ▸ store.ordered.external
    · exact internal ▸ store.ordered.internal_sorted
    · exact external ▸ store.ordered.external_sorted
  tidy := by
    have routes : next.routes = pd.routes := by simp [PrefixDescriptor.routes,internal,external]
    exact ⟨routes ▸ store.tidy.numbers,fun route member => (store.tidy.bounded route (routes ▸ member)).trans_le next_route⟩
  owned := by
    have routes : next.routes = pd.routes := by simp [PrefixDescriptor.routes,internal,external]
    exact routes ▸ store.owned
  single := by
    have routes : next.routes = pd.routes := by simp [PrefixDescriptor.routes,internal,external]
    exact routes ▸ store.single

/-- Routes may be taken out of the queues. -/
theorem RouteStore.thinned (store : RouteStore pd) (internal : next.internal_routes.Sublist pd.internal_routes)
    (external : next.external_routes.Sublist pd.external_routes) (next_route : next.next_route = pd.next_route) :
    RouteStore next := by
  have routes : next.routes.Sublist pd.routes := internal.append external
  refine ⟨⟨?_,?_,?_,?_⟩,?_,?_,?_⟩
  · exact fun route member => store.ordered.internal route (internal.subset member)
  · exact fun route member => store.ordered.external route (external.subset member)
  · exact store.ordered.internal_sorted.sublist internal
  · exact store.ordered.external_sorted.sublist external
  · exact store.tidy.of_subperm (routes.map _).subperm next_route
  · exact fun route member => store.owned route (routes.subset member)
  · exact fun nbr peer route member other present =>
      store.single nbr peer route (routes.subset member) other (routes.subset present)

/-- A route with a number and an owner of its own. -/
theorem RouteStore.insert (store : RouteStore pd) {route : RouteDescriptor} (numbered : route.id < pd.next_route)
    (new : ∀ other ∈ pd.routes, other.id ≠ route.id) {nbr : Nbr} (owner : route.adv_router = some nbr)
    (alone : nbr ≠ .self → ∀ other ∈ pd.routes, other.adv_router ≠ some nbr) : RouteStore (route_insert pd route) where
  ordered := store.ordered.insert route
  tidy := tidy_insert_new store.tidy numbered new
  owned := by
    intro other member
    rcases mem_routes_insert.mp member with rfl | stored
    · simp [owner]
    · exact store.owned other stored
  single := by
    intro peer distinct first member second present firstOwner secondOwner
    have apart {other : RouteDescriptor} (stored : other ∈ pd.routes) (same : other.adv_router = some peer)
        (own : route.adv_router = some peer) : False := by
      obtain rfl : nbr = peer := Option.some.inj (owner.symm.trans own)
      exact alone distinct other stored same
    rcases mem_routes_insert.mp member with rfl | stored
    · rcases mem_routes_insert.mp present with rfl | kept
      · rfl
      · exact (apart kept secondOwner firstOwner).elim
    · rcases mem_routes_insert.mp present with rfl | kept
      · exact (apart stored firstOwner secondOwner).elim
      · exact store.single peer distinct first stored second kept firstOwner secondOwner

theorem store_empty (internal : pd.internal_routes = []) (external : pd.external_routes = []) : RouteStore pd := by
  have routes : pd.routes = [] := by simp [PrefixDescriptor.routes,internal,external]
  refine ⟨⟨?_,?_,?_,?_⟩,tidy_empty routes,?_,?_⟩ <;> simp [internal,external,routes]

end Keys

theorem SameKeys.symm {pd next : PrefixDescriptor} (same : SameKeys pd next) : SameKeys next pd :=
  ⟨same.internal.symm,same.external.symm,same.next_route.symm⟩

namespace Storage

/-! ## Messages -/

section Messages
variable {env : Env} {memory : Memory} {pd next : PrefixDescriptor} {msg : Msg} {route : RouteDescriptor} {counts last : Counts}
  {granted : Bool} {handed : Handed} {id : Nat} {nbr : Nbr}

theorem unlink_store (store : RouteStore pd) (id : Nat) : RouteStore (route_unlink pd id) :=
  store.thinned List.filter_sublist List.filter_sublist rfl

theorem route_stored_iff : route_stored pd id = true ↔ ∃ other ∈ pd.routes, other.id = id := by
  simp [route_stored]

theorem any_number (queue : List RouteDescriptor) (id : Nat) :
    (queue.any fun other => other.id = id) = decide (id ∈ queue.map (·.id)) := by
  rw [Bool.eq_iff_iff]
  simp

/-- A stored route is linked in the queue of its class. -/
theorem stored_class (store : RouteStore pd) (stored : route ∈ pd.routes) :
    (pd.external_routes.any fun other => other.id = route.id) = route.external := by
  cases kind : route.external with
  | true =>
    rcases List.mem_append.mp stored with near | far
    · rw [store.ordered.internal route near] at kind
      cases kind
    · exact List.any_eq_true.mpr ⟨route,far,by simp⟩
  | false =>
    refine List.any_eq_false.mpr fun other member same => ?_
    have equal := store.tidy.unique stored (List.mem_append_right _ member) (by simpa using same)
    rw [← equal,store.ordered.external other member] at kind
    cases kind

/-- What is handed to DUAL: the other routes are stored as ever, and the route of the message has a number and an owner of
    its own. It may stand in the wrong queue only if it is going to be linked again. -/
structure Ready (handed : Handed) : Prop where
  rest : RouteStore (route_unlink handed.pd handed.route.id)
  numbered : handed.route.id < handed.pd.next_route
  owned : handed.route.adv_router ≠ none
  alone : ∀ nbr, nbr ≠ .self → handed.route.adv_router = some nbr →
    ∀ other ∈ handed.pd.routes, other.adv_router = some nbr → other.id = handed.route.id
  same : ∀ other ∈ handed.pd.routes, other.id = handed.route.id → other.adv_router = handed.route.adv_router
  placed : relinks handed.pd handed.msg handed.route = false → RouteStore handed.pd

theorem measured_owner {after : RouteDescriptor} (measured : Measured msg route after) (owned : route.adv_router ≠ none) :
    after.adv_router = route.adv_router := by
  rw [measured.adv_router]
  cases owner : route.adv_router with
  | none => exact absurd owner owned
  | some nbr => rfl

/-- DUAL links the route again, takes it out without a place to put it, or leaves the queues alone. -/
theorem run_linked (done : handed_run env counts handed = some (next, last)) : ∃ current, SameQueues current next ∧
    ((relinks handed.pd handed.msg handed.route = false ∧ current = handed.pd) ∨
      (relinks handed.pd handed.msg handed.route = true ∧ link_refused env handed.pd handed.msg handed.route = false ∧
        ∃ after, Measured handed.msg handed.route after ∧
          current = route_insert (route_unlink handed.pd handed.route.id) after) ∨
      (relinks handed.pd handed.msg handed.route = true ∧ link_refused env handed.pd handed.msg handed.route = true ∧
        current = route_unlink handed.pd handed.route.id)) := by
  obtain ⟨current,msg,after,change,measured,same⟩ := handed_run_linked done
  have distance := update_distance_fst env handed.pd counts handed.msg handed.route
  rw [measured,Option.map_some] at distance
  refine ⟨current,same,?_⟩
  cases update_distance_linking distance.symm with
  | rests _ rests => exact .inl ⟨rests,rfl⟩
  | linked _ _ links granted kept =>
    exact .inr (.inl ⟨links,by simp [link_refused,granted],after,kept,route_relink_eq kept.id⟩)
  | refused _ links refused => exact .inr (.inr ⟨links,by simp [link_refused,links,refused],rfl⟩)

/-- The insertion of the measured route. -/
theorem Ready.insert (ready : Ready handed) {after : RouteDescriptor} (measured : Measured handed.msg handed.route after) :
    RouteStore (route_insert (route_unlink handed.pd handed.route.id) after) := by
  obtain ⟨nbr,owner⟩ := Option.ne_none_iff_exists'.mp ready.owned
  have same := measured_owner measured ready.owned
  refine ready.rest.insert ?_ ?_ (same.trans owner) ?_
  · rw [measured.id]
    exact ready.numbered
  · intro other member
    rw [measured.id]
    exact (mem_routes_unlink.mp member).2
  · intro peer other member present
    obtain ⟨stored,different⟩ := mem_routes_unlink.mp member
    exact different (ready.alone nbr peer owner other stored present)

theorem run_store (ready : Ready handed) (done : handed_run env counts handed = some (next, last)) : RouteStore next := by
  obtain ⟨current,same,⟨rests,rfl⟩ | ⟨_,_,after,measured,rfl⟩ | ⟨_,_,rfl⟩⟩ := run_linked done
  · exact same.keys.store (ready.placed rests)
  · exact same.keys.store (ready.insert measured)
  · exact same.keys.store ready.rest

theorem queues_stored (same : SameQueues pd next) : route_stored next id = route_stored pd id := by
  have numbers := same.routes.numbers.numbers
  rw [Bool.eq_iff_iff,route_stored_iff,route_stored_iff]
  constructor
  · rintro ⟨other,member,number⟩
    have listed : id ∈ pd.routes.map (·.id) := numbers ▸ number ▸ List.mem_map_of_mem member
    simpa using listed
  · rintro ⟨other,member,number⟩
    have listed : id ∈ next.routes.map (·.id) := numbers ▸ number ▸ List.mem_map_of_mem member
    simpa using listed

/-- DUAL comes without a list item to the route of the message, which is stored. -/
def loses (env : Env) (handed : Handed) : Bool :=
  route_stored handed.pd handed.route.id && link_refused env handed.pd handed.msg handed.route

/-- The routes that are stored once a message has been handled. -/
theorem run_stored_iff (done : handed_run env counts handed = some (next, last)) (stored : route_stored handed.pd id = true) :
    route_stored next id = false ↔ handed.route.id = id ∧ loses env handed = true := by
  obtain ⟨current,same,cases⟩ := run_linked done
  rw [queues_stored same]
  obtain ⟨other,member,number⟩ := route_stored_iff.mp stored
  rcases cases with ⟨rests,rfl⟩ | ⟨_,granted,after,measured,rfl⟩ | ⟨_,refused,rfl⟩
  · simp [stored,loses,link_refused,rests]
  · have kept : route_stored (route_insert (route_unlink handed.pd handed.route.id) after) id = true := by
      by_cases same : handed.route.id = id
      · exact route_stored_iff.mpr ⟨after,mem_routes_insert.mpr (.inl rfl),measured.id.trans same⟩
      · have apart : other.id ≠ handed.route.id := fun equal => same (equal.symm.trans number)
        exact route_stored_iff.mpr ⟨other,mem_routes_insert.mpr (.inr (mem_routes_unlink.mpr ⟨member,apart⟩)),number⟩
    simp [kept,loses,granted]
  · constructor
    · intro lost
      by_cases same : handed.route.id = id
      · exact ⟨same,by simp [loses,refused,same,stored]⟩
      · have apart : other.id ≠ handed.route.id := fun equal => same (equal.symm.trans number)
        have kept := route_stored_iff.mpr ⟨other,mem_routes_unlink.mpr ⟨member,apart⟩,number⟩
        rw [kept] at lost
        cases lost
    · rintro ⟨rfl,_⟩
      refine Bool.eq_false_iff.mpr fun kept => ?_
      obtain ⟨found,present,equal⟩ := route_stored_iff.mp kept
      exact (mem_routes_unlink.mp present).2 equal

/-! ## What is handed over -/

theorem stored_ready (store : RouteStore pd) (stored : route ∈ pd.routes) : Ready { pd, msg, route } where
  rest := unlink_store store route.id
  numbered := store.tidy.bounded route stored
  owned := store.owned route stored
  alone := fun nbr peer owner other member same => store.single nbr peer route stored other member owner same
  same := fun other member number => by rw [store.tidy.unique stored member number]
  placed := fun _ => store

/-- A route that is not stored, with a number of its own. -/
theorem fresh_ready (store : RouteStore pd) (numbered : route.id < pd.next_route) (new : ∀ other ∈ pd.routes, other.id ≠ route.id)
    (owner : route.adv_router = some nbr) (alone : nbr ≠ .self → ∀ other ∈ pd.routes, other.adv_router ≠ some nbr) :
    Ready { pd, msg, route } where
  rest := unlink_store store route.id
  numbered := numbered
  owned := by simp [owner]
  alone := by
    intro peer distinct found other member same
    obtain rfl : nbr = peer := Option.some.inj (owner.symm.trans found)
    exact absurd same (alone distinct other member)
  same := fun other member number => absurd number (new other member)
  placed := fun _ => store

/-- The stored route of a message whose class has been written already. -/
theorem written_ready (store : RouteStore pd) {old : RouteDescriptor} (stored : old ∈ pd.routes) {update : RouteDescriptor → RouteDescriptor}
    (number : (update old).id = old.id) (distance : (update old).distance = old.distance) (owner : (update old).adv_router = old.adv_router)
    (same : route.key = (update old).key) (lasting : msg.transient_route = false) (remote : msg.data_type ≠ .connected) (dual : Bool) :
    Ready { pd := route_write pd old.id update, msg, route, dual } := by
  obtain ⟨route_number,route_class,_,route_owner⟩ := key_fields same
  rw [number] at route_number
  rw [owner] at route_owner
  have write {other : RouteDescriptor} (member : other ∈ pd.routes) :
      (if other.id = old.id then update other else other) = if other.id = old.id then update old else other := by
    by_cases same : other.id = old.id
    · rw [if_pos same,if_pos same,store.tidy.unique stored member same]
    · rw [if_neg same,if_neg same]
  refine ⟨?_,?_,?_,?_,?_,?_⟩
  · have unlinked : route_unlink (route_write pd old.id update) old.id = route_unlink pd old.id := by
      have taken {queue : List RouteDescriptor} (within : ∀ other ∈ queue, other ∈ pd.routes) :
          queue_delete old.id (queue.map fun other => if other.id = old.id then update other else other) =
            queue_delete old.id queue := by
        induction queue with
        | nil => rfl
        | cons first rest ih =>
          have later := ih fun other member => within other (List.mem_cons_of_mem _ member)
          simp only [queue_delete] at later ⊢
          rw [List.map_cons,write (within first List.mem_cons_self)]
          by_cases same : first.id = old.id
          · rw [if_pos same,List.filter_cons_of_neg (by simp [number]),List.filter_cons_of_neg (by simp [same]),later]
          · rw [if_neg same,List.filter_cons_of_pos (by simp [same]),List.filter_cons_of_pos (by simp [same]),later]
      simp only [route_unlink,route_write]
      rw [taken fun other member => List.mem_append_left _ member,taken fun other member => List.mem_append_right _ member]
    change RouteStore (route_unlink (route_write pd old.id update) route.id)
    rw [route_number,unlinked]
    exact unlink_store store old.id
  · change route.id < pd.next_route
    rw [route_number]
    exact store.tidy.bounded old stored
  · change route.adv_router ≠ none
    rw [route_owner]
    exact store.owned old stored
  · intro nbr peer found other member same
    change route.adv_router = some nbr at found
    change other ∈ (route_write pd old.id update).routes at member
    change other.id = route.id
    rw [route_write_eq_map,routes_map_routes] at member
    obtain ⟨earlier,present,written⟩ := List.mem_map.mp member
    rw [write present] at written
    by_cases named : earlier.id = old.id
    · rw [if_pos named] at written
      rw [← written,number,route_number]
    · rw [if_neg named] at written
      subst written
      rw [route_number]
      exact store.single nbr peer old stored earlier present (route_owner.symm.trans found) same
  · intro other member same
    change other ∈ (route_write pd old.id update).routes at member
    change other.id = route.id at same
    change other.adv_router = route.adv_router
    rw [route_write_eq_map,routes_map_routes] at member
    obtain ⟨earlier,present,written⟩ := List.mem_map.mp member
    rw [write present] at written
    by_cases named : earlier.id = old.id
    · rw [if_pos named] at written
      rw [← written,owner,route_owner]
    · rw [if_neg named] at written
      subst written
      exact absurd (same.trans route_number) named
  · intro rests
    have kept : (update old).external = old.external := by
      have numbers : (route_write pd old.id update).external_routes.map (·.id) = pd.external_routes.map (·.id) := by
        simp only [route_write,List.map_map]
        refine List.map_congr_left fun other member => ?_
        have written := congrArg (·.id) (write (List.mem_append_right _ member))
        refine written.trans ?_
        split
        · rename_i same
          exact number.trans same.symm
        · rfl
      simp only [relinks,lasting,Bool.not_false,Bool.true_and] at rests
      cases kind : msg.data_type with
      | connected => exact absurd kind remote
      | int | ext =>
        simp only [kind,Bool.not_eq_false',Bool.and_eq_true,Bool.not_eq_true',bne_eq_false_iff_eq] at rests
        have placed := rests.1.2
        rw [any_number,numbers,route_number,← any_number,stored_class store stored] at placed
        exact route_class.symm.trans placed.symm
    refine store.write ?_
    intro other member
    rw [write member]
    by_cases same : other.id = old.id
    · rw [if_pos same,store.tidy.unique stored member same]
      simp [RouteDescriptor.key,number,distance,owner,kept]
    · rw [if_neg same]

theorem numbered_store (store : RouteStore pd) : RouteStore { pd with next_route := pd.next_route + 1 } :=
  store.routes_eq rfl rfl (Nat.le_succ _)

theorem bounded_new (store : RouteStore pd) : ∀ other ∈ pd.routes, other.id ≠ pd.next_route :=
  fun other member => Nat.ne_of_lt (store.tidy.bounded other member)

/-- No route of a neighbor that the lookup does not find. -/
theorem lookup_missing (missing : prefix_descriptor_lookup pd nbr = none) : ∀ other ∈ pd.routes, other.adv_router ≠ some nbr := by
  intro other member owner
  have different := List.find?_eq_none.mp missing other member
  simp [owner] at different

theorem receive_ready (store : RouteStore pd) (packet_type : Opcode) (tlv : Tlv) (metrics : Metrics) (admitted : Bool) :
    Ready (received_handed pd packet_type nbr tlv metrics admitted) := by
  unfold received_handed
  cases found : prefix_descriptor_lookup pd nbr with
  | some route =>
    obtain ⟨stored,_⟩ := lookup_stored found
    refine written_ready store stored rfl rfl rfl rfl rfl ?_ true
    cases tlv.external <;> simp [data_type]
  | none => exact fresh_ready (numbered_store store) (Nat.lt_succ_self _) (bounded_new store) rfl fun _ => lookup_missing found

theorem about_ready (store : RouteStore pd) {fresh : RouteDescriptor} (number : fresh.id = pd.next_route)
    (owner : fresh.adv_router = some nbr) (transient_route : Bool) : Ready (about_handed pd msg nbr fresh transient_route) := by
  unfold about_handed
  cases found : prefix_descriptor_lookup pd nbr with
  | some route => exact stored_ready store (lookup_stored found).1
  | none =>
    exact fresh_ready (numbered_store store) (number ▸ Nat.lt_succ_self _) (number ▸ bounded_new store) owner
      fun _ => lookup_missing found

/-- Every message of a neighbor or of redistribution is handed over in order. -/
theorem received_ready (store : RouteStore pd) {made : Call} (found : received_message env pd made = some handed) : Ready handed := by
  cases made with
  | update_receive nbr received =>
    simp only [received_message] at found
    split at found
    · cases found
    · cases found
      exact receive_ready store _ _ _ _
  | query_receive nbr received =>
    simp only [received_message] at found
    split at found
    · cases found
    · split at found
      · split at found
        · cases found
        · obtain ⟨previous,known,rfl⟩ := Option.map_eq_some_iff.mp found
          refine written_ready store (lookup_stored known).1 rfl rfl rfl rfl rfl ?_ false
          cases received.tlv.external <;> simp [data_type]
      · cases found
        exact receive_ready store _ _ _ _
  | reply_receive nbr received =>
    simp only [received_message] at found
    split at found
    · cases found
    · cases found
      exact receive_ready store _ _ _ _
  | siaquery_receive nbr received =>
    simp only [received_message] at found
    cases found
    exact receive_ready store _ _ _ _
  | siareply_receive nbr received =>
    simp only [received_message] at found
    split at found
    · cases found
    · cases found
      exact about_ready store rfl rfl _
  | gr_ask nbr =>
    simp only [received_message] at found
    cases found
    exact about_ready store rfl rfl _
  | neighbor_down nbr =>
    simp only [received_message] at found
    obtain ⟨route,known,rfl⟩ := Option.map_eq_some_iff.mp found
    exact stored_ready (store.routes_eq rfl rfl (Nat.le_refl _)) (lookup_stored known).1
  | redistributed_remove source =>
    simp only [received_message] at found
    obtain ⟨route,known,rfl⟩ := Option.map_eq_some_iff.mp found
    exact stored_ready store (List.mem_append_right _ (List.mem_of_find?_eq_some known))
  | _ => simp [received_message] at found

/-! ## Local routes -/

theorem deleted_store (store : RouteStore pd) (route : RouteDescriptor) : RouteStore (route_descriptor_delete pd counts route).1 := by
  rw [route_descriptor_delete_fst]
  unfold Eigrp.route_descriptor_delete
  dsimp only
  refine store.thinned ?_ ?_ rfl
  · dsimp only
    split
    · exact .refl _
    · exact List.filter_sublist
  · dsimp only
    split
    · exact List.filter_sublist
    · exact .refl _

theorem added_keys (env : Env) (pd : PrefixDescriptor) (route : RouteDescriptor) :
    SameKeys (route_insert pd route) (Eigrp.route_descriptor_add env pd route).1 := by
  unfold Eigrp.route_descriptor_add
  dsimp only
  split
  · split
    · refine ⟨?_,?_,rfl⟩
      · simp only [route_write,List.map_map]
        refine List.map_congr_left fun other _ => ?_
        simp only [Function.comp]
        split <;> rfl
      · simp only [route_write,List.map_map]
        refine List.map_congr_left fun other _ => ?_
        simp only [Function.comp]
        split <;> rfl
    · exact ⟨rfl,rfl,rfl⟩
  · exact ⟨rfl,rfl,rfl⟩

/-- A route is added, or refused and nothing changes. -/
theorem route_descriptor_add_cases :
    (granted = true ∧ (route_descriptor_add granted env pd counts route).1 = (Eigrp.route_descriptor_add env pd route).1) ∨
      (granted = false ∧ route_descriptor_add granted env pd counts route = (pd, counts)) := by
  cases granted with
  | true => exact .inl ⟨rfl,rfl⟩
  | false => exact .inr ⟨rfl,rfl⟩

theorem added_store (store : RouteStore pd) (numbered : route.id < pd.next_route) (new : ∀ other ∈ pd.routes, other.id ≠ route.id)
    (owner : route.adv_router = some nbr) (alone : nbr ≠ .self → ∀ other ∈ pd.routes, other.adv_router ≠ some nbr) :
    RouteStore (route_descriptor_add granted env pd counts route).1 := by
  rcases @route_descriptor_add_cases env pd route counts granted with ⟨_,same⟩ | ⟨_,same⟩
  · rw [same]
    exact (added_keys env pd route).store (store.insert numbered new owner alone)
  · rw [same]
    exact store

theorem intf_up_deleted_store (store : RouteStore pd) (ei : Nat) : RouteStore (intf_up_delete pd counts ei).1 := by
  unfold intf_up_delete
  split
  · split
    · exact deleted_store store _
    · exact store
  · exact store

theorem intf_up_ready (store : RouteStore pd) (ei : Nat) : Ready (intf_up_handed memory env pd counts ei).1 := by
  have deleted := @intf_up_deleted_store pd counts store ei
  unfold intf_up_handed
  generalize intf_up_delete pd counts ei = result at deleted
  obtain ⟨start,left⟩ := result
  dsimp only at deleted ⊢
  have added : RouteStore (route_descriptor_add (memory.added start.next_route) env { start with next_route := start.next_route + 1 }
      left (connected_route env start.next_route ei)).1 :=
    added_store (numbered_store deleted) (Nat.lt_succ_self _) (bounded_new deleted) rfl fun other => absurd rfl other
  have reached : (route_descriptor_add (memory.added start.next_route) env { start with next_route := start.next_route + 1 }
      left (connected_route env start.next_route ei)).1.next_route = start.next_route + 1 := by
    rcases @route_descriptor_add_cases env { start with next_route := start.next_route + 1 } (connected_route env start.next_route ei)
      left (memory.added start.next_route) with ⟨_,same⟩ | ⟨_,same⟩
    · rw [same,(added_keys env _ _).next_route]
      unfold route_insert
      split <;> rfl
    · rw [same]
  change Ready
    { pd := (route_descriptor_add (memory.added start.next_route) env { start with next_route := start.next_route + 1 } left
        (connected_route env start.next_route ei)).1
      msg := { packet_type := .update, data_type := .connected }
      route := ((route_descriptor_add (memory.added start.next_route) env { start with next_route := start.next_route + 1 } left
        (connected_route env start.next_route ei)).1.routes.find? fun other => other.id = start.next_route).getD
          (connected_route env start.next_route ei) }
  generalize (route_descriptor_add (memory.added start.next_route) env { start with next_route := start.next_route + 1 } left
    (connected_route env start.next_route ei)).1 = grown at added reached
  cases found : grown.routes.find? fun other => other.id = start.next_route with
  | some route => exact stored_ready added (List.mem_of_find?_eq_some found)
  | none =>
    refine fresh_ready added (reached ▸ Nat.lt_succ_self _) ?_ rfl fun other => absurd rfl other
    intro other member
    have different := List.find?_eq_none.mp found other member
    simp only [decide_eq_true_eq] at different
    exact different

theorem route_write_absent {update : RouteDescriptor → RouteDescriptor} (absent : ∀ other ∈ pd.routes, other.id ≠ id) :
    route_write pd id update = pd := by
  have kept {queue : List RouteDescriptor} (within : ∀ other ∈ queue, other ∈ pd.routes) :
      queue.map (fun other => if other.id = id then update other else other) = queue := by
    refine (List.map_congr_left fun other member => ?_).trans (List.map_id queue)
    exact if_neg (absent other (within other member))
  simp only [route_write]
  rw [kept fun other member => List.mem_append_left _ member,kept fun other member => List.mem_append_right _ member]

theorem redistributed_update_ready (store : RouteStore pd) (source : Source) (metric : Metrics) :
    Ready (redistributed_update_handed memory env pd counts source metric).1 := by
  unfold redistributed_update_handed
  cases found : redistributed_route_lookup pd source with
  | some route =>
    have stored : route ∈ pd.routes := List.mem_append_right _ (List.mem_of_find?_eq_some found)
    have sought := List.find?_some found
    simp only [decide_eq_true_eq] at sought
    exact written_ready store stored rfl rfl sought.1.symm rfl rfl (by simp) true
  | none =>
    dsimp only
    let start : PrefixDescriptor := { pd with next_route := pd.next_route + 1 }
    let fresh : RouteDescriptor := { id := pd.next_route, external := true, adv_router := some .self }
    have ordered : RouteStore start := numbered_store store
    have new : ∀ other ∈ start.routes, other.id ≠ fresh.id := bounded_new store
    change Ready
      { pd := route_write (route_descriptor_add (memory.added fresh.id) env start counts fresh).1 fresh.id fun route =>
          { route with external := true, adv_router := some .self, ei := none, extdata := source.extdata, nexthop := source.nexthop }
        msg := { packet_type := .update, adv_router := some .self, data_type := .ext, metrics := metric }
        route := { fresh with external := true, adv_router := some .self, ei := none, extdata := source.extdata, nexthop := source.nexthop } }
    have owner : fresh.adv_router = some .self := rfl
    rcases @route_descriptor_add_cases env start fresh counts (memory.added fresh.id) with ⟨_,same⟩ | ⟨_,same⟩
    · rw [same]
      have keys := added_keys env start fresh
      have grown := keys.store (ordered.insert (Nat.lt_succ_self _) new owner fun other => absurd rfl other)
      obtain ⟨stored,member,key⟩ := keys.symm.member (mem_routes_insert.mpr (.inl rfl))
      obtain ⟨number,_,distance,adv_router⟩ := key_fields key
      let update (route : RouteDescriptor) : RouteDescriptor :=
        { route with external := true, adv_router := some .self, ei := none, extdata := source.extdata, nexthop := source.nexthop }
      have same_key : (update fresh).key = (update stored).key := by
        simp only [RouteDescriptor.key,update,number,distance]
      have ready := @written_ready _
        { packet_type := .update, adv_router := some .self, data_type := .ext, metrics := metric } (update fresh)
        grown stored member update rfl rfl (adv_router.trans owner).symm same_key rfl (by simp) true
      rw [number] at ready
      exact ready
    · rw [same,route_write_absent new]
      exact fresh_ready ordered (Nat.lt_succ_self _) new rfl fun other => absurd rfl other

/-! ## Turns -/

theorem fsm_neighbor_down_queues {out : List Effect} (done : fsm_neighbor_down env pd nbr = some (next, out)) : SameQueues pd next := by
  unfold fsm_neighbor_down at done
  split at done
  · cases done
    exact .refl pd
  · dsimp only at done
    split at done
    · cases done
      exact ⟨rfl,rfl,rfl⟩
    · split at done
      · split at done
        · exact (fsm_event_lr_fcs_queues done).of_eq rfl rfl rfl
        · cases done
          exact (diffuse_queues env _).of_eq rfl rfl rfl
      · cases done
        exact (fsm_event_lr_queues env _).of_eq rfl rfl rfl

theorem route_refresh_owned (env : Env) (route : RouteDescriptor) :
    (route_refresh env route).external = route.external ∧ (route_refresh env route).adv_router = route.adv_router := by
  unfold route_refresh local_route_refresh learned_route_refresh
  dsimp only
  split
  · split <;> split <;> (try split) <;> exact ⟨rfl,rfl⟩
  · split <;> exact ⟨rfl,rfl⟩

theorem queue_resort_sorted (queue : List RouteDescriptor) :
    (queue_resort queue).Pairwise fun first second => first.distance ≤ second.distance := by
  let nearer (first second : RouteDescriptor) : Prop := first.distance ≤ second.distance
  have total : Std.Total nearer := ⟨fun first second => UInt32.le_total first.distance second.distance⟩
  have ordered : IsTrans RouteDescriptor nearer := ⟨fun _ _ _ first second => UInt32.le_trans first second⟩
  exact List.pairwise_insertionSort nearer queue

theorem refreshed_store (store : RouteStore pd) : RouteStore (metric_refreshed env pd) := by
  have member {queue : List RouteDescriptor} {route : RouteDescriptor} (listed : route ∈ queue_resort (queue.map (route_refresh env))) :
      ∃ old ∈ queue, route.id = old.id ∧ route.external = old.external ∧ route.adv_router = old.adv_router := by
    obtain ⟨old,stored,rfl⟩ := List.mem_map.mp ((List.mem_insertionSort _).mp listed)
    exact ⟨old,stored,route_refresh_id env old,route_refresh_owned env old⟩
  have stored {route : RouteDescriptor} (listed : route ∈ (metric_refreshed env pd).routes) :
      ∃ old ∈ pd.routes, route.id = old.id ∧ route.adv_router = old.adv_router := by
    rcases List.mem_append.mp listed with near | far
    · obtain ⟨old,inside,number,_,owner⟩ := member near
      exact ⟨old,List.mem_append_left _ inside,number,owner⟩
    · obtain ⟨old,outside,number,_,owner⟩ := member far
      exact ⟨old,List.mem_append_right _ outside,number,owner⟩
  refine ⟨⟨?_,?_,queue_resort_sorted _,queue_resort_sorted _⟩,metric_refreshed_tidy store.tidy,?_,?_⟩
  · intro route listed
    obtain ⟨old,inside,_,same,_⟩ := member listed
    exact same.trans (store.ordered.internal old inside)
  · intro route listed
    obtain ⟨old,outside,_,same,_⟩ := member listed
    exact same.trans (store.ordered.external old outside)
  · intro route listed
    obtain ⟨old,kept,_,owner⟩ := stored listed
    rw [owner]
    exact store.owned old kept
  · intro nbr peer route listed other present first second
    obtain ⟨old,kept,number,owner⟩ := stored listed
    obtain ⟨older,held,number',owner'⟩ := stored present
    rw [number,number']
    exact store.single nbr peer old kept older held (owner.symm.trans first) (owner'.symm.trans second)

theorem metric_update_store (store : RouteStore pd) : RouteStore (metric_update_pd env pd).1 := by
  rcases metric_update_cases env pd with ⟨_,same⟩ | ⟨_,refreshed⟩ | ⟨_,committed⟩
  · rwa [same]
  · rw [refreshed]
    exact refreshed_store store
  · rw [committed]
    have chosen : SameQueues (metric_refreshed env pd) (metric_committed (metric_refreshed env pd)) := by
      unfold metric_committed
      split <;> exact ⟨rfl,rfl,rfl⟩
    have table := ((chosen.trans (refreshed_table_queues env _)).keys.store (refreshed_store store))
    exact table.routes_eq rfl rfl (Nat.le_refl _)

theorem delete_unreachable_store (store : RouteStore pd) (routes : List RouteDescriptor) :
    RouteStore (delete_unreachable routes pd counts).1 := by
  induction routes generalizing pd counts with
  | nil => exact store
  | cons route routes ih =>
    unfold delete_unreachable
    split
    · exact ih (deleted_store store route)
    · exact ih store

theorem query_route_record_store (store : RouteStore pd) {received : Received} (missing : prefix_descriptor_lookup pd nbr = none)
    (done : query_route_record memory env pd counts nbr received = some (next, last)) : RouteStore next := by
  obtain ⟨route,recorded,finished⟩ := Option.bind_eq_some_iff.mp done
  have learned : route.id = pd.next_route ∧ route.adv_router = some nbr := by
    obtain ⟨ei,_,rfl⟩ := Option.map_eq_some_iff.mp recorded
    exact ⟨rfl,rfl⟩
  have inserted := (numbered_store store).insert (learned.1 ▸ Nat.lt_succ_self _)
    (fun other member => learned.1 ▸ bounded_new store other member) learned.2 fun _ => lookup_missing missing
  dsimp only at finished
  cases granted : memory.added route.id with
  | true =>
    rw [granted] at finished
    simp only [topology_route_insert,Bool.not_true,Bool.false_eq_true,if_false,Option.getD_some] at finished
    cases finished
    exact inserted
  | false =>
    rw [granted] at finished
    simp only [topology_route_insert,Bool.not_false,if_true,Option.getD_none] at finished
    cases finished
    exact numbered_store store

/-- What a call without a message does. -/
theorem quiet_cases {made : Call} (quiet : (Turn.call made).handed memory env pd counts = none)
    (other : ∀ ei, made ≠ .connected_interface_down ei) (done : quiet_call memory env pd counts made = some (next, last)) :
    (made = .retire ∧ update_topology_table_prefix pd counts = (next, last)) ∨
      (∃ nbr received, made = .query_receive nbr received ∧ prefix_descriptor_lookup pd nbr = none ∧
        query_route_record memory env pd counts nbr received = some (next, last)) ∨
      (made = .metric_update ∧ next = (metric_update_pd env pd).1 ∧ last = counts) ∨
      (made ≠ .retire ∧ SameQueues pd next ∧ last = counts) := by
  have kept {result : PrefixDescriptor × List Effect} (ran : Eigrp.exec env pd made = some result)
      (plain : quiet_call memory env pd counts made = (Eigrp.exec env pd made).map fun result => (result.1,counts))
      (same : SameQueues pd result.1) : SameQueues pd next ∧ last = counts := by
    rw [plain,ran] at done
    cases done
    exact ⟨same,rfl⟩
  cases made with
  | update_receive nbr received =>
    have dropped : update_dropped env pd nbr received = true := by
      simpa [Turn.handed,received_message] using quiet
    have ran : Eigrp.exec env pd (.update_receive nbr received) = some (pd, []) := by
      simp only [Eigrp.exec,update_receive_dropped,dropped,if_true]
    exact .inr (.inr (.inr ⟨by simp,kept ran rfl (.refl pd)⟩))
  | query_receive nbr received =>
    have ran := done
    simp only [quiet_call] at ran
    split at ran
    · rename_i asked
      obtain ⟨alone,passive,unknown,recordable⟩ := asked
      have missing : prefix_descriptor_lookup pd nbr = none := by
        simpa [Turn.handed,received_message,Option.isNone_iff_eq_none.mp alone,passive,unknown,recordable] using quiet
      exact .inr (.inl ⟨nbr,received,rfl,missing,ran⟩)
    · cases ran
      exact .inr (.inr (.inr ⟨by simp,.refl pd,rfl⟩))
  | reply_receive nbr received =>
    have passive : pd.state = .passive := by
      by_contra active
      simp [Turn.handed,received_message,active] at quiet
    have ran : Eigrp.exec env pd (.reply_receive nbr received) = some (pd, []) := by
      simp [Eigrp.exec,reply_receive_pd,passive]
    exact .inr (.inr (.inr ⟨by simp,kept ran rfl (.refl pd)⟩))
  | siaquery_receive nbr received => simp [Turn.handed,received_message] at quiet
  | siareply_receive nbr received =>
    have ignored : pd.state = .passive ∨ ¬ reply_status_pending pd nbr ∨ opaque_active received.tlv.metric := by
      by_contra answered
      simp only [Turn.handed,received_message,Option.map_eq_none_iff,if_neg answered] at quiet
      cases quiet
    by_cases unasked : pd.state = .passive ∨ ¬ reply_status_pending pd nbr
    · have ran : Eigrp.exec env pd (.siareply_receive nbr received) = some (pd, []) := by
        simp only [Eigrp.exec,siareply_receive_pd,unasked,if_true]
      exact .inr (.inr (.inr ⟨by simp,kept ran rfl (.refl pd)⟩))
    · have active : opaque_active received.tlv.metric := by tauto
      have ran : Eigrp.exec env pd (.siareply_receive nbr received) = some (sia_reply_received pd nbr, []) := by
        simp only [Eigrp.exec,siareply_receive_pd,unasked,if_false,active,if_true]
      exact .inr (.inr (.inr ⟨by simp,kept ran rfl ⟨rfl,rfl,rfl⟩⟩))
  | gr_ask nbr => simp [Turn.handed,received_message] at quiet
  | neighbor_down nbr =>
    have missing : prefix_descriptor_lookup { pd with query_origin := if pd.query_origin = some nbr then none else pd.query_origin } nbr =
        none := by
      simpa [Turn.handed,received_message] using quiet
    obtain ⟨⟨result,out⟩,ran,finished⟩ := Option.map_eq_some_iff.mp done
    cases finished
    simp only [Eigrp.exec,neighbor_down_pd,neighbor_lost,missing] at ran
    exact .inr (.inr (.inr ⟨by simp,(fsm_neighbor_down_queues ran).of_eq rfl rfl rfl,rfl⟩))
  | suspended_origin_clear nbrs => exact .inr (.inr (.inr ⟨by simp,kept rfl rfl ⟨rfl,rfl,rfl⟩⟩))
  | connected_interface_down ei => exact absurd rfl (other ei)
  | intf_up ei => cases quiet
  | redistributed_update source metric => cases quiet
  | redistributed_remove source =>
    have missing : redistributed_route_lookup pd source = none := by
      simpa [Turn.handed,received_message] using quiet
    have ran : Eigrp.exec env pd (.redistributed_remove source) = some (pd, []) := by
      simp only [Eigrp.exec,redistributed_remove_pd,missing]
    exact .inr (.inr (.inr ⟨by simp,kept ran rfl (.refl pd)⟩))
  | metric_update =>
    cases done
    exact .inr (.inr (.inl ⟨rfl,rfl,rfl⟩))
  | multipath_update =>
    refine .inr (.inr (.inr ⟨by simp,kept rfl rfl ?_⟩))
    unfold multipath_update_pd
    split
    · exact .refl pd
    · exact refreshed_table_queues env pd
  | traffic_share_update =>
    refine .inr (.inr (.inr ⟨by simp,kept rfl rfl ?_⟩))
    unfold traffic_share_update_pd
    split
    · exact .refl pd
    · exact update_routing_table_queues env pd
  | routes_replay => exact .inr (.inr (.inr ⟨by simp,kept rfl rfl (routes_replay_queues env pd)⟩))
  | query_rij_add nbrs =>
    refine .inr (.inr (.inr ⟨by simp,kept rfl rfl ?_⟩))
    obtain ⟨_,eq,_⟩ := reply_status_add_foldl nbrs pd
    rw [eq]
    exact ⟨rfl,rfl,rfl⟩
  | query_sent =>
    refine .inr (.inr (.inr ⟨by simp,kept rfl rfl ?_⟩))
    rcases fsm_query_sent_cases env pd with ⟨_,eq⟩ | ⟨_,_,_,eq⟩ | ⟨_,_,eq⟩
    · rw [eq]
      exact .refl pd
    · rw [eq]
      exact ⟨rfl,rfl,rfl⟩
    · rw [eq]
      exact fsm_event_lr_queues env pd
  | action_clear action =>
    refine .inr (.inr (.inr ⟨by simp,kept rfl rfl ?_⟩))
    cases action <;> exact ⟨rfl,rfl,rfl⟩
  | retire => exact .inl ⟨rfl,Option.some.inj done⟩
  | active_timer_expired =>
    refine .inr (.inr (.inr ⟨by simp,kept rfl rfl ?_⟩))
    obtain ⟨_,_,eq,_⟩ := fsm_active_timer_expired_cases env pd
    rw [eq]
    exact ⟨rfl,rfl,rfl⟩

theorem retired_store (store : RouteStore pd) : RouteStore (counts |> update_topology_table_prefix pd).1 := by
  unfold update_topology_table_prefix
  split
  · exact store
  · exact delete_unreachable_store store _

/-- A call without a message keeps the store. -/
theorem quiet_store (store : RouteStore pd) {made : Call} (quiet : (Turn.call made).handed memory env pd counts = none)
    (other : ∀ ei, made ≠ .connected_interface_down ei) (done : quiet_call memory env pd counts made = some (next, last)) :
    RouteStore next := by
  rcases quiet_cases quiet other done with ⟨_,retired⟩ | ⟨nbr,received,_,missing,recorded⟩ | ⟨_,rfl,_⟩ | ⟨_,same,_⟩
  · have kept := @retired_store pd counts store
    rwa [retired] at kept
  · exact query_route_record_store store missing recorded
  · exact metric_update_store store
  · exact same.keys.store store

theorem handed_received {made : Call} (learned : ∀ ei, made ≠ .intf_up ei) (other : ∀ source metric, made ≠ .redistributed_update source metric) :
    (Turn.call made).handed memory env pd counts = (received_message env pd made).map fun handed => (handed, counts) := by
  cases made with
  | intf_up ei => exact absurd rfl (learned ei)
  | redistributed_update source metric => exact absurd rfl (other source metric)
  | _ => rfl

theorem turn_ready (store : RouteStore pd) {turn : Turn} (found : turn.handed memory env pd counts = some (handed, last)) : Ready handed := by
  cases turn with
  | call made =>
    cases made with
    | intf_up ei =>
      cases found
      exact intf_up_ready store ei
    | redistributed_update source metric =>
      cases found
      exact redistributed_update_ready store source metric
    | _ =>
      rw [handed_received (by simp) (by simp)] at found
      obtain ⟨received,message,same⟩ := Option.map_eq_some_iff.mp found
      cases same
      exact received_ready store message
  | withdraw id =>
    obtain ⟨route,known,same⟩ := Option.map_eq_some_iff.mp found
    cases same
    exact stored_ready store (List.mem_of_find?_eq_some known)

theorem finish_queues (turn : Turn) : SameQueues next (turn.finish pd next) := by
  have marked : SameQueues next (redistributed_update_mark next).1 := by
    unfold redistributed_update_mark
    split <;> exact ⟨rfl,rfl,rfl⟩
  cases turn with
  | call made =>
    cases made with
    | redistributed_update source metric =>
      change SameQueues next (redistributed_finish pd source next)
      unfold redistributed_finish
      dsimp only
      split
      · exact marked
      · exact .refl next
    | _ => exact .refl next
  | withdraw id => exact .refl next

theorem message_store (ready : Ready handed) {turn : Turn}
    (done : turn.message env pd handed counts = some (next, last)) : RouteStore next := by
  obtain ⟨⟨result,left⟩,ran,finished⟩ := Option.bind_eq_some_iff.mp done
  cases finished
  exact (finish_queues turn).keys.store (run_store ready ran)

theorem connected_routes_down_store (store : RouteStore pd) {ids : List Nat}
    (done : connected_routes_down memory env ids pd counts = some (next, last)) : RouteStore next := by
  induction ids generalizing pd counts with
  | nil =>
    cases done
    exact store
  | cons id ids ih =>
    obtain ⟨⟨handed,left⟩,found,done⟩ := Option.bind_eq_some_iff.mp done
    obtain ⟨⟨result,rest⟩,ran,done⟩ := Option.bind_eq_some_iff.mp done
    exact ih (message_store (turn_ready store found) ran) done

/-- Whatever the host refuses, a turn keeps the store. -/
theorem turn_store (store : RouteStore pd) {turn : Turn} (done : turn.exec memory env pd counts = some (next, last)) : RouteStore next := by
  unfold Turn.exec at done
  cases found : turn.handed memory env pd counts with
  | some result =>
    obtain ⟨handed,left⟩ := result
    rw [found] at done
    exact message_store (turn_ready store found) done
  | none =>
    rw [found] at done
    cases turn with
    | withdraw id => cases done
    | call made =>
      cases made with
      | connected_interface_down ei => exact connected_routes_down_store store done
      | _ => exact quiet_store store found (by simp) done

/-! ## Losses -/

theorem number_kept (same : next.routes.map (·.id) = pd.routes.map (·.id)) : route_stored next id = route_stored pd id := by
  simp only [route_stored,any_number,same]

theorem write_numbers {update : RouteDescriptor → RouteDescriptor} (number : ∀ route, (update route).id = route.id) :
    (route_write pd id update).routes.map (·.id) = pd.routes.map (·.id) := by
  rw [route_write_eq_map]
  refine (routes_map_numbers pd fun route => ?_).numbers
  split
  · exact number route
  · rfl

theorem receive_numbers (packet_type : Opcode) (tlv : Tlv) (metrics : Metrics) (admitted : Bool) :
    (received_handed pd packet_type nbr tlv metrics admitted).pd.routes.map (·.id) = pd.routes.map (·.id) := by
  unfold received_handed
  cases prefix_descriptor_lookup pd nbr with
  | some route => exact write_numbers fun _ => rfl
  | none => rfl

theorem about_numbers (fresh : RouteDescriptor) (transient_route : Bool) :
    (about_handed pd msg nbr fresh transient_route).pd.routes.map (·.id) = pd.routes.map (·.id) := by
  unfold about_handed
  cases prefix_descriptor_lookup pd nbr <;> rfl

theorem received_numbers {made : Call} (found : received_message env pd made = some handed) :
    handed.pd.routes.map (·.id) = pd.routes.map (·.id) := by
  cases made with
  | update_receive nbr received =>
    simp only [received_message] at found
    split at found
    · cases found
    · cases found
      exact receive_numbers _ _ _ _
  | query_receive nbr received =>
    simp only [received_message] at found
    split at found
    · cases found
    · split at found
      · split at found
        · cases found
        · obtain ⟨previous,known,rfl⟩ := Option.map_eq_some_iff.mp found
          exact write_numbers fun _ => rfl
      · cases found
        exact receive_numbers _ _ _ _
  | reply_receive nbr received =>
    simp only [received_message] at found
    split at found
    · cases found
    · cases found
      exact receive_numbers _ _ _ _
  | siaquery_receive nbr received =>
    simp only [received_message] at found
    cases found
    exact receive_numbers _ _ _ _
  | siareply_receive nbr received =>
    simp only [received_message] at found
    split at found
    · cases found
    · cases found
      exact about_numbers _ _
  | gr_ask nbr =>
    simp only [received_message] at found
    cases found
    exact about_numbers _ _
  | neighbor_down nbr =>
    simp only [received_message] at found
    obtain ⟨route,known,rfl⟩ := Option.map_eq_some_iff.mp found
    rfl
  | redistributed_remove source =>
    simp only [received_message] at found
    obtain ⟨route,known,rfl⟩ := Option.map_eq_some_iff.mp found
    rfl
  | _ => simp [received_message] at found

/-- A route that is added is stored if its item is granted, and the others are as before. -/
theorem added_stored_iff : route_stored (route_descriptor_add granted env pd counts route).1 id = true ↔
    route_stored pd id = true ∨ route.id = id ∧ granted = true := by
  rcases @route_descriptor_add_cases env pd route counts granted with ⟨rfl,same⟩ | ⟨rfl,same⟩
  · rw [same,number_kept (route_descriptor_add_numbers env pd route).numbers,route_stored_iff,route_stored_iff]
    constructor
    · rintro ⟨other,member,number⟩
      rcases mem_routes_insert.mp member with rfl | earlier
      · exact .inr ⟨number,rfl⟩
      · exact .inl ⟨other,earlier,number⟩
    · rintro (⟨other,member,number⟩ | ⟨number,_⟩)
      · exact ⟨other,mem_routes_insert.mpr (.inr member),number⟩
      · exact ⟨route,mem_routes_insert.mpr (.inl rfl),number⟩
  · simp [same]

theorem redistributed_stored {source : Source} {metric : Metrics} (stored : route_stored pd id = true) :
    route_stored (redistributed_update_handed memory env pd counts source metric).1.pd id = true := by
  unfold redistributed_update_handed
  cases redistributed_route_lookup pd source with
  | some route =>
    refine (number_kept (write_numbers fun _ => ?_)).trans stored
    rfl
  | none =>
    refine (number_kept (write_numbers fun _ => ?_)).trans (added_stored_iff.mpr (.inl stored))
    rfl

/-- In front of a message everything is stored that the destination holds, but for the local route that `eigrp_intf_up`
    replaces. -/
theorem handed_stored {turn : Turn} (found : turn.handed memory env pd counts = some (handed, last))
    (other : ∀ ei, turn ≠ .call (.intf_up ei)) (stored : route_stored pd id = true) : route_stored handed.pd id = true := by
  cases turn with
  | withdraw number =>
    obtain ⟨route,known,same⟩ := Option.map_eq_some_iff.mp found
    cases same
    exact stored
  | call made =>
    cases made with
    | intf_up ei => exact absurd rfl (other ei)
    | redistributed_update source metric =>
      have kept := @redistributed_stored env memory pd counts id source metric stored
      rwa [Option.some.inj found] at kept
    | _ =>
      rw [handed_received (by simp) (by simp)] at found
      obtain ⟨received,message,same⟩ := Option.map_eq_some_iff.mp found
      cases same
      exact (number_kept (received_numbers message)).trans stored

theorem deleted_subset {left : RouteDescriptor} (member : left ∈ (Eigrp.route_descriptor_delete pd route).1.routes) : left ∈ pd.routes := by
  simp only [Eigrp.route_descriptor_delete,PrefixDescriptor.routes,List.mem_append] at member ⊢
  rcases member with near | far
  · left
    split at near
    · exact near
    · exact (List.mem_filter.mp near).1
  · right
    split at far
    · exact (List.mem_filter.mp far).1
    · exact far

theorem deleted_stored (store : RouteStore pd) {other : RouteDescriptor} (stored : route ∈ pd.routes) (member : other ∈ pd.routes) :
    route_stored (route_descriptor_delete pd counts other).1 route.id = false ↔ route = other := by
  rw [route_descriptor_delete_fst]
  constructor
  · intro lost
    by_contra different
    have apart : route.id ≠ other.id := fun same => different (store.tidy.unique member stored same)
    have kept : route_stored (Eigrp.route_descriptor_delete pd other).1 route.id = true := by
      refine route_stored_iff.mpr ⟨route,?_,rfl⟩
      rcases List.mem_append.mp stored with near | far
      · refine List.mem_append_left _ ?_
        simp only [Eigrp.route_descriptor_delete]
        split
        · exact near
        · exact List.mem_filter.mpr ⟨near,by simpa using apart⟩
      · refine List.mem_append_right _ ?_
        simp only [Eigrp.route_descriptor_delete]
        split
        · exact List.mem_filter.mpr ⟨far,by simpa using apart⟩
        · exact far
    rw [kept] at lost
    cases lost
  · rintro rfl
    refine Bool.eq_false_iff.mpr fun kept => ?_
    obtain ⟨left,present,number⟩ := route_stored_iff.mp kept
    have same : left = route := store.tidy.unique stored (deleted_subset present) number
    subst same
    have gone : left ∉ (Eigrp.route_descriptor_delete pd left).1.routes := by
      intro present
      simp only [Eigrp.route_descriptor_delete,PrefixDescriptor.routes,List.mem_append] at present
      cases kind : left.external with
      | true =>
        simp only [kind,if_true] at present
        rcases present with near | far
        · rw [store.ordered.internal left near] at kind
          cases kind
        · simpa using (List.mem_filter.mp far).2
      | false =>
        simp only [kind,Bool.false_eq_true,if_false] at present
        rcases present with near | far
        · simpa using (List.mem_filter.mp near).2
        · rw [store.ordered.external left far] at kind
          cases kind
    exact gone present

theorem delete_unreachable_fewer {routes : List RouteDescriptor} {left : RouteDescriptor}
    (member : left ∈ (delete_unreachable routes pd counts).1.routes) : left ∈ pd.routes := by
  induction routes generalizing pd counts with
  | nil => exact member
  | cons route routes ih =>
    unfold delete_unreachable at member
    split at member
    · have earlier : left ∈ (route_descriptor_delete pd counts route).1.routes := ih member
      rw [route_descriptor_delete_fst] at earlier
      exact deleted_subset earlier
    · exact ih member

/-- Retirement takes out the unreachable routes. -/
theorem delete_unreachable_stored {routes : List RouteDescriptor} (store : RouteStore pd) (stored : route ∈ pd.routes)
    (within : ∀ other ∈ routes, other ∈ pd.routes) (different : (routes.map (·.id)).Nodup) :
    route_stored (delete_unreachable routes pd counts).1 route.id = false ↔ route ∈ routes ∧ route.distance = max_distance := by
  induction routes generalizing pd counts with
  | nil =>
    have kept : route_stored (delete_unreachable [] pd counts).1 route.id = true := route_stored_iff.mpr ⟨route,stored,rfl⟩
    simp [kept]
  | cons first rest ih =>
    obtain ⟨apart,distinct⟩ := List.nodup_cons.mp different
    have known : first ∈ pd.routes := within first List.mem_cons_self
    unfold delete_unreachable
    by_cases unreachable : first.distance = max_distance
    · rw [if_pos unreachable]
      dsimp only
      have deleted := @deleted_stored pd route counts store
      have shrunk := @deleted_store pd counts store first
      by_cases same : route = first
      · subst same
        have gone := (deleted stored known).mpr rfl
        have never : route_stored (delete_unreachable rest (route_descriptor_delete pd counts route).1
            (route_descriptor_delete pd counts route).2).1 route.id = false := by
          refine Bool.eq_false_iff.mpr fun kept => ?_
          obtain ⟨left,present,number⟩ := route_stored_iff.mp kept
          have back := route_stored_iff.mpr ⟨left,delete_unreachable_fewer present,number⟩
          rw [gone] at back
          cases back
        simp [never,unreachable]
      · have left {other : RouteDescriptor} (member : other ∈ pd.routes) (distinct : other ≠ first) :
            other ∈ (route_descriptor_delete pd counts first).1.routes := by
          have kept : route_stored (route_descriptor_delete pd counts first).1 other.id ≠ false :=
            fun lost => distinct ((@deleted_stored pd other counts store first member known).mp lost)
          obtain ⟨found,present,number⟩ := route_stored_iff.mp (by simpa using kept)
          rw [route_descriptor_delete_fst] at present ⊢
          rwa [store.tidy.unique member (deleted_subset present) number] at present
        have rest_known : ∀ other ∈ rest, other ∈ (route_descriptor_delete pd counts first).1.routes := by
          intro other member
          refine left (within other (List.mem_cons_of_mem _ member)) ?_
          rintro rfl
          exact apart (List.mem_map_of_mem member)
        rw [ih shrunk (left stored same) rest_known distinct,List.mem_cons]
        tauto
    · rw [if_neg unreachable,ih store stored (fun other member => within other (List.mem_cons_of_mem _ member)) distinct,List.mem_cons]
      constructor
      · rintro ⟨member,far⟩
        exact ⟨.inr member,far⟩
      · rintro ⟨rfl | member,far⟩
        · exact absurd far unreachable
        · exact ⟨member,far⟩

end Messages

/-! ## Creation -/

section Creation
variable {env : Env} {memory : Memory} {pd next : PrefixDescriptor} {counts last : Counts} {id : Nat} {creation : Creation}
  {created : Option PrefixDescriptor}

theorem routes_add_store {routes : List RouteDescriptor} (store : RouteStore pd) (bounded : ∀ route ∈ routes, route.id < pd.next_route)
    (own : ∀ route ∈ routes, route.adv_router = some .self) (different : (routes.map (·.id)).Nodup)
    (new : ∀ route ∈ routes, ∀ other ∈ pd.routes, other.id ≠ route.id) : RouteStore (routes_add memory env routes pd counts).1 := by
  induction routes generalizing pd counts with
  | nil => exact store
  | cons route routes ih =>
    have mine := own route List.mem_cons_self
    have added : RouteStore (route_descriptor_add (memory.added route.id) env pd counts route).1 :=
      added_store store (bounded route List.mem_cons_self) (new route List.mem_cons_self) mine fun other => absurd rfl other
    have grown : (route_descriptor_add (memory.added route.id) env pd counts route).1.next_route = pd.next_route ∧
        ∀ other ∈ (route_descriptor_add (memory.added route.id) env pd counts route).1.routes, other.id = route.id ∨
          ∃ old ∈ pd.routes, old.id = other.id := by
      rcases @route_descriptor_add_cases env pd route counts (memory.added route.id) with ⟨_,same⟩ | ⟨_,same⟩
      · have keys := added_keys env pd route
        rw [same]
        refine ⟨?_,?_⟩
        · rw [keys.next_route]
          unfold route_insert
          split <;> rfl
        · intro other member
          obtain ⟨old,stored,key⟩ := keys.member member
          rcases mem_routes_insert.mp stored with rfl | earlier
          · exact .inl (key_fields key).1.symm
          · exact .inr ⟨old,earlier,(key_fields key).1⟩
      · rw [same]
        exact ⟨rfl,fun other member => .inr ⟨other,member,rfl⟩⟩
    obtain ⟨apart,distinct⟩ := List.nodup_cons.mp different
    unfold routes_add
    refine ih added ?_ ?_ distinct ?_
    · intro later member
      exact grown.1 ▸ bounded later (List.mem_cons_of_mem _ member)
    · intro later member
      exact own later (List.mem_cons_of_mem _ member)
    · intro later member other stored same
      rcases grown.2 other stored with number | ⟨old,earlier,number⟩
      · exact apart (List.mem_map.mpr ⟨later,member,same.symm.trans number⟩)
      · exact new later (List.mem_cons_of_mem _ member) old earlier (number.trans same)

/-- A destination is created with its store in order. -/
theorem create_store (old : ∀ old, (Label.create creation).old = some old → RouteStore old)
    (done : create memory env id counts creation = some (some pd, last)) : RouteStore pd := by
  have added {start : PrefixDescriptor} {route : RouteDescriptor} {nbr : Nbr} {granted : Bool} {counts : Counts}
      (empty : start.routes = []) (internal : start.internal_routes = []) (external : start.external_routes = [])
      (bounded : route.id < start.next_route) (owner : route.adv_router = some nbr) :
      RouteStore (route_descriptor_add granted env start counts route).1 :=
    added_store (store_empty internal external) bounded (by simp [empty]) owner (by simp [empty])
  cases creation with
  | update nbr received =>
    obtain ⟨⟨result,left⟩,built,same⟩ := Option.map_eq_some_iff.mp done
    cases same
    obtain ⟨learned,found,finished⟩ := Option.bind_eq_some_iff.mp built
    obtain ⟨_,_,rfl⟩ := Option.map_eq_some_iff.mp found
    cases finished
    have marked {start : PrefixDescriptor} {route : RouteDescriptor} {metric : Metrics} {granted : Bool} (empty : start.routes = [])
        (internal : start.internal_routes = []) (external : start.external_routes = []) (bounded : route.id < start.next_route)
        (owner : route.adv_router = some nbr) :
        RouteStore { update_node_flags env { (route_descriptor_add granted env start counts route).1 with reported_metric := metric } with
          need_update := true } := by
      have stored : RouteStore (route_descriptor_add granted env start counts route).1 := added empty internal external bounded owner
      have flagged := (update_node_flags_queues env
        { (route_descriptor_add granted env start counts route).1 with reported_metric := metric }).keys.store
          (stored.routes_eq rfl rfl (Nat.le_refl _))
      exact flagged.routes_eq rfl rfl (Nat.le_refl _)
    exact marked rfl rfl rfl Nat.zero_lt_one rfl
  | query nbr received =>
    obtain ⟨route,found,finished⟩ := Option.bind_eq_some_iff.mp done
    have learned : route.id = 0 ∧ route.adv_router = some nbr := by
      obtain ⟨_,_,rfl⟩ := Option.map_eq_some_iff.mp found
      exact ⟨rfl,rfl⟩
    dsimp only at finished
    cases granted : memory.added route.id with
    | false => simp [granted,topology_route_insert] at finished
    | true =>
      simp only [granted,topology_route_insert,Bool.not_true,Bool.false_eq_true,if_false] at finished
      cases finished
      exact (store_empty rfl rfl).insert (learned.1 ▸ Nat.zero_lt_one) (by simp [PrefixDescriptor.routes]) learned.2
        fun _ => by simp [PrefixDescriptor.routes]
  | connected destination ei =>
    cases done
    exact added rfl rfl rfl Nat.zero_lt_one rfl
  | redistributed destination source metric =>
    cases done
    have marked (start : PrefixDescriptor) : SameQueues start (redistributed_update_mark start).1 := by
      unfold redistributed_update_mark
      split <;> exact ⟨rfl,rfl,rfl⟩
    exact (marked _).keys.store (added rfl rfl rfl Nat.zero_lt_one rfl)
  | connected_recreate cleared =>
    cases done
    have store : RouteStore cleared := old cleared rfl
    have fewer : (cleared.internal_routes.filter fun route => route.adv_router = some .self).Sublist cleared.routes :=
      List.filter_sublist.trans (List.sublist_append_left _ _)
    refine routes_add_store (store_empty rfl rfl) ?_ ?_ (store.tidy.numbers.sublist (fewer.map _)) (by simp [PrefixDescriptor.routes])
    · intro route member
      exact store.tidy.bounded route (fewer.subset member)
    · intro route member
      simpa using (List.mem_filter.mp member).2
  | remote_requery cleared =>
    cases done
    exact store_empty rfl rfl

end Creation
end Storage

namespace Storage

section Losses
variable {env : Env} {memory : Memory} {pd next : PrefixDescriptor} {route : RouteDescriptor} {counts last : Counts} {turn : Turn}
  {granted : Bool} {id : Nat}

/-- What may take a stored route out: retirement, the local route that comes in its place, and a message about it for which
    the host refuses the list item. -/
inductive Turn.Drops (memory : Memory) (env : Env) (pd : PrefixDescriptor) (counts : Counts) (route : RouteDescriptor) : Turn → Prop
  | retired : pd.need_update = false → route.distance = max_distance → Drops memory env pd counts route (.call .retire)
  | replaced (ei : Nat) : prefix_descriptor_lookup pd .self = some route → route.ei = some ei →
      Drops memory env pd counts route (.call (.intf_up ei))
  | refused (turn : Turn) (handed : Handed) (last : Counts) : turn.handed memory env pd counts = some (handed, last) →
      handed.route.id = route.id → loses env handed = true → Drops memory env pd counts route turn

theorem added_stored_other (other : route.id ≠ id) :
    route_stored (route_descriptor_add granted env pd counts route).1 id = route_stored pd id := by
  rw [Bool.eq_iff_iff,added_stored_iff]
  simp [other]

theorem refreshed_stored : route_stored (metric_refreshed env pd) id = route_stored pd id := by
  have listed {queue : List RouteDescriptor} :
      (∃ other ∈ queue_resort (queue.map (route_refresh env)), other.id = id) ↔ ∃ other ∈ queue, other.id = id := by
    constructor
    · rintro ⟨other,member,number⟩
      obtain ⟨old,stored,rfl⟩ := List.mem_map.mp ((List.mem_insertionSort _).mp member)
      exact ⟨old,stored,(route_refresh_id env old).symm.trans number⟩
    · rintro ⟨old,stored,number⟩
      exact ⟨route_refresh env old,(List.mem_insertionSort _).mpr (List.mem_map_of_mem stored),(route_refresh_id env old).trans number⟩
  have split (pd : PrefixDescriptor) : route_stored pd id = true ↔
      (∃ other ∈ pd.internal_routes, other.id = id) ∨ ∃ other ∈ pd.external_routes, other.id = id := by
    simp only [route_stored_iff,PrefixDescriptor.routes,List.mem_append,or_and_right,exists_or]
  rw [Bool.eq_iff_iff,split,split]
  exact or_congr listed listed

theorem metric_update_stored : route_stored (metric_update_pd env pd).1 id = route_stored pd id := by
  rcases metric_update_cases env pd with ⟨_,same⟩ | ⟨_,refreshed⟩ | ⟨_,committed⟩
  · rw [same]
  · rw [refreshed]
    exact refreshed_stored
  · rw [committed]
    have chosen : SameQueues (metric_refreshed env pd) (metric_committed (metric_refreshed env pd)) := by
      unfold metric_committed
      split <;> exact ⟨rfl,rfl,rfl⟩
    have table := @queues_stored _ _ id (chosen.trans (refreshed_table_queues env (metric_committed (metric_refreshed env pd))))
    exact table.trans refreshed_stored

/-- `eigrp_intf_up` takes out the local route of its interface, and its message is about another. -/
theorem intf_up_stored (store : RouteStore pd) (stored : route ∈ pd.routes) (ei : Nat) :
    (intf_up_handed memory env pd counts ei).1.route.id ≠ route.id ∧
      (route_stored (intf_up_handed memory env pd counts ei).1.pd route.id = false ↔
        prefix_descriptor_lookup pd .self = some route ∧ route.ei = some ei) := by
  have number : (intf_up_delete pd counts ei).1.next_route = pd.next_route := by
    rw [intf_up_delete_fst]
    unfold intf_up_deleted
    split
    · split <;> rfl
    · rfl
  have deleted : route_stored (intf_up_delete pd counts ei).1 route.id = false ↔
      prefix_descriptor_lookup pd .self = some route ∧ route.ei = some ei := by
    have kept : route_stored pd route.id = true := route_stored_iff.mpr ⟨route,stored,rfl⟩
    unfold intf_up_delete
    cases found : prefix_descriptor_lookup pd .self with
    | none => simp [kept]
    | some old_local =>
      dsimp only
      split
      · rename_i same
        rw [deleted_stored store stored (lookup_stored found).1]
        constructor
        · rintro rfl
          exact ⟨rfl,same⟩
        · rintro ⟨equal,_⟩
          exact (Option.some.inj equal).symm
      · rename_i other
        simp only [kept,Bool.true_eq_false,false_iff,not_and]
        intro equal here
        exact other (Option.some.inj equal ▸ here)
  have fresh : pd.next_route ≠ route.id := (bounded_new store route stored).symm
  unfold intf_up_handed
  generalize intf_up_delete pd counts ei = result at number deleted ⊢
  obtain ⟨start,left⟩ := result
  dsimp only at number deleted ⊢
  constructor
  · cases found : List.find? (fun other => decide (other.id = (connected_route env start.next_route ei).id)) (route_descriptor_add
        (memory.added (connected_route env start.next_route ei).id) env { start with next_route := start.next_route + 1 } left
          (connected_route env start.next_route ei)).1.routes with
    | none =>
      change start.next_route ≠ route.id
      rwa [number]
    | some local_route =>
      have same := List.find?_some found
      simp only [decide_eq_true_eq] at same
      change local_route.id ≠ route.id
      rw [same]
      change start.next_route ≠ route.id
      rwa [number]
  · have other : (connected_route env start.next_route ei).id ≠ route.id := by
      change start.next_route ≠ route.id
      rwa [number]
    rw [added_stored_other other]
    exact deleted

theorem run_stored_before {handed : Handed} (done : handed_run env counts handed = some (next, last))
    (stored : route_stored next id = true) : handed.route.id = id ∨ route_stored handed.pd id = true := by
  obtain ⟨current,same,cases⟩ := run_linked done
  rw [queues_stored same] at stored
  rcases cases with ⟨_,rfl⟩ | ⟨_,_,after,measured,rfl⟩ | ⟨_,_,rfl⟩
  · exact .inr stored
  · obtain ⟨other,member,number⟩ := route_stored_iff.mp stored
    rcases mem_routes_insert.mp member with rfl | earlier
    · exact .inl (measured.id.symm.trans number)
    · exact .inr (route_stored_iff.mpr ⟨other,(mem_routes_unlink.mp earlier).1,number⟩)
  · obtain ⟨other,member,number⟩ := route_stored_iff.mp stored
    exact .inr (route_stored_iff.mpr ⟨other,(mem_routes_unlink.mp member).1,number⟩)

/-- A message loses a stored route that it is about, or the one that is replaced by the local route of an interface. -/
theorem message_lost_iff {handed : Handed} {middle : PrefixDescriptor} {left rest : Counts} (store : RouteStore pd)
    (found : turn.handed memory env pd counts = some (handed, left)) (ran : handed_run env left handed = some (middle, rest))
    (stored : route ∈ pd.routes) : route_stored middle route.id = false ↔ turn.Drops memory env pd counts route := by
  have kept : route_stored pd route.id = true := route_stored_iff.mpr ⟨route,stored,rfl⟩
  by_cases up : ∃ ei, turn = .call (.intf_up ei)
  · obtain ⟨ei,rfl⟩ := up
    obtain ⟨other,gone⟩ := @intf_up_stored env memory pd route counts store stored ei
    have same : intf_up_handed memory env pd counts ei = (handed, left) := Option.some.inj found
    rw [same] at other gone
    constructor
    · intro lost
      by_cases before : route_stored handed.pd route.id = true
      · exact absurd ((run_stored_iff ran before).mp lost).1 other
      · obtain ⟨known,here⟩ := gone.mp (by simpa using before)
        exact .replaced ei known here
    · rintro (_ | ⟨_,known,here⟩ | ⟨_,handed',last',found',number,_⟩)
      · refine Bool.eq_false_iff.mpr fun back => ?_
        rcases run_stored_before ran back with number | before
        · exact other number
        · rw [gone.mpr ⟨known,here⟩] at before
          cases before
      · rw [found] at found'
        cases found'
        exact absurd number other
  · have learned : ∀ ei, turn ≠ .call (.intf_up ei) := fun ei same => up ⟨ei,same⟩
    rw [run_stored_iff ran (handed_stored found learned kept)]
    constructor
    · rintro ⟨number,lost⟩
      exact .refused turn handed left found number lost
    · rintro (_ | ⟨ei,_,_⟩ | ⟨_,handed',last',found',number,lost⟩)
      · cases found
      · exact absurd rfl (learned ei)
      · rw [found] at found'
        cases found'
        exact ⟨number,lost⟩

/-- A call without a message loses only what it retires. -/
theorem quiet_lost_iff {made : Call} (store : RouteStore pd) (quiet : (Turn.call made).handed memory env pd counts = none)
    (single : ∀ ei, made ≠ .connected_interface_down ei) (done : quiet_call memory env pd counts made = some (next, last))
    (stored : route ∈ pd.routes) : route_stored next route.id = false ↔ (Turn.call made).Drops memory env pd counts route := by
  have kept : route_stored pd route.id = true := route_stored_iff.mpr ⟨route,stored,rfl⟩
  have silent (other : made ≠ .retire) (same : route_stored next route.id = true) :
      route_stored next route.id = false ↔ (Turn.call made).Drops memory env pd counts route := by
    constructor
    · intro lost
      rw [same] at lost
      cases lost
    · rintro (_ | ⟨ei,_,_⟩ | ⟨_,handed',last',found',_,_⟩)
      · exact absurd rfl other
      · cases quiet
      · rw [quiet] at found'
        cases found'
  rcases quiet_cases quiet single done with ⟨rfl,retired⟩ | ⟨nbr,received,rfl,_,recorded⟩ | ⟨rfl,rfl,_⟩ | ⟨other,same,_⟩
  · have drops : (Turn.call .retire).Drops memory env pd counts route ↔ pd.need_update = false ∧ route.distance = max_distance := by
      constructor
      · rintro (⟨idle,far⟩ | _ | ⟨_,handed',last',found',_,_⟩)
        · exact ⟨idle,far⟩
        · rw [quiet] at found'
          cases found'
      · rintro ⟨idle,far⟩
        exact .retired idle far
    rw [drops]
    unfold update_topology_table_prefix at retired
    split at retired
    · rename_i busy
      cases retired
      simp [kept,busy]
    · rename_i idle
      have deleted := @delete_unreachable_stored pd route counts pd.routes store stored (fun _ member => member) store.tidy.numbers
      rw [retired] at deleted
      rw [deleted]
      simp [idle,stored]
  · refine silent (by simp) ?_
    obtain ⟨fresh,_,finished⟩ := Option.bind_eq_some_iff.mp recorded
    dsimp only at finished
    cases granted : memory.added fresh.id with
    | false =>
      simp only [granted,topology_route_insert,Bool.not_false,if_true,Option.getD_none] at finished
      cases finished
      exact kept
    | true =>
      simp only [granted,topology_route_insert,Bool.not_true,Bool.false_eq_true,if_false,Option.getD_some] at finished
      cases finished
      exact route_stored_iff.mpr ⟨route,mem_routes_insert.mpr (.inr stored),rfl⟩
  · exact silent (by simp) (metric_update_stored.trans kept)
  · exact silent other ((queues_stored same).trans kept)

/-- A turn takes a stored route out for these reasons only. -/
theorem turn_lost_iff (store : RouteStore pd) (single : ∀ ei, turn ≠ .call (.connected_interface_down ei))
    (done : turn.exec memory env pd counts = some (next, last)) (stored : route ∈ pd.routes) :
    route_stored next route.id = false ↔ turn.Drops memory env pd counts route := by
  unfold Turn.exec at done
  cases found : turn.handed memory env pd counts with
  | some result =>
    obtain ⟨handed,left⟩ := result
    rw [found] at done
    obtain ⟨⟨middle,rest⟩,ran,finished⟩ := Option.bind_eq_some_iff.mp done
    cases finished
    rw [queues_stored (finish_queues turn)]
    exact message_lost_iff store found ran stored
  | none =>
    rw [found] at done
    cases turn with
    | withdraw id => cases done
    | call made =>
      have quiet : quiet_call memory env pd counts made = some (next, last) := by
        cases made with
        | connected_interface_down ei => exact absurd rfl (single ei)
        | _ => exact done
      exact quiet_lost_iff store found (fun ei same => single ei (congrArg Turn.call same)) quiet stored

end Losses

/-! ## Tables -/

section Tables
variable {Meets : Memory → Env → Table → Operation → Prop} {memory : Memory} {env : Env} {table next : Table} {operation : Operation}

theorem find_member {id : Nat} {pd : PrefixDescriptor} (found : table.find id = some pd) : pd ∈ table.prefixes :=
  List.mem_of_find?_eq_some found

theorem recreation_old {old : PrefixDescriptor} {creation : Creation} (made : recreation env old = some creation) {other : PrefixDescriptor}
    (copied : (Label.create creation).old = some other) : other = old := by
  unfold recreation at made
  split at made
  · split at made
    · cases made
      cases copied
      rfl
    · cases made
  · split at made
    · cases made
    · cases made
      cases copied
      rfl

theorem reach_found {id : Nat} {turn : Turn} {pd : PrefixDescriptor} (found : table.reach id turn = some pd) :
    table.descriptors.find? (fun pd => pd.id = id) = some pd := by
  unfold Table.descriptors
  rw [List.find?_append]
  unfold Table.reach Table.find at found
  cases live : table.prefixes.find? fun pd => pd.id = id with
  | some other =>
    rw [live] at found
    exact found
  | none =>
    rw [live,Option.none_or] at found
    split at found
    · exact found
    · cases found

theorem reach_member {id : Nat} {turn : Turn} {pd : PrefixDescriptor} (found : table.reach id turn = some pd) :
    pd ∈ table.descriptors :=
  List.mem_of_find?_eq_some (reach_found found)

/-- What a turn leaves of the table. -/
theorem turn_step {id : Nat} {turn : Turn} (done : table.step memory env (.turn id turn) = some next) :
    ∃ pd left, table.reach id turn = some pd ∧ turn.exec memory env pd table.counts = some (left, next.counts) ∧
      ((turn.retires pd = true ∧ (table.find id).isSome = true ∧ next.prefixes = without id table.prefixes ∧
          next.detached = table.detached ++ [left]) ∨
        (next.prefixes = table.prefixes.map (fun pd => if pd.id = id then left else pd) ∧
          next.detached = table.detached.map fun pd => if pd.id = id then left else pd)) := by
  obtain ⟨pd,found,done⟩ := Option.bind_eq_some_iff.mp done
  obtain ⟨⟨left,counts⟩,ran,finished⟩ := Option.bind_eq_some_iff.mp done
  dsimp only at finished
  by_cases gone : (turn.retires pd && (table.find id).isSome) = true
  · rw [if_pos gone] at finished
    cases finished
    rw [Bool.and_eq_true] at gone
    exact ⟨pd,left,found,ran,.inl ⟨gone.1,gone.2,rfl,rfl⟩⟩
  · rw [if_neg gone] at finished
    cases finished
    exact ⟨pd,left,found,ran,.inr ⟨rfl,rfl⟩⟩

theorem create_step {id : Nat} {creation : Creation} (done : table.step memory env (.create id creation) = some next) :
    ∃ created, table.vacant id creation.destination = true ∧
      create memory env id table.counts creation = some (created, next.counts) ∧
      next.prefixes = table.prefixes ++ created.toList ∧ next.detached = table.detached := by
  simp only [Table.step] at done
  split at done
  · rename_i vacant
    obtain ⟨⟨created,counts⟩,made,finished⟩ := Option.bind_eq_some_iff.mp done
    cases finished
    exact ⟨created,vacant,made,rfl,rfl⟩
  · cases done

/-- A clear detaches a descriptor, and may create one in its place. -/
theorem clear_step {id fresh : Nat} (done : table.step memory env (.clear id fresh) = some next) :
    ∃ old created, table.find id = some old ∧ next.prefixes = without id table.prefixes ++ Option.toList created ∧
      next.detached = table.detached ++ [old] ∧
      ((recreation env old = none ∧ created = none ∧ next.counts = table.counts) ∨
        ∃ creation, recreation env old = some creation ∧
          Table.vacant { table with prefixes := without id table.prefixes, detached := table.detached ++ [old] } fresh
            old.destination = true ∧
          create memory env fresh table.counts creation = some (created, next.counts)) := by
  obtain ⟨old,found,done⟩ := Option.bind_eq_some_iff.mp done
  cases made : recreation env old with
  | none =>
    rw [made] at done
    cases done
    exact ⟨old,none,found,(List.append_nil _).symm,rfl,.inl ⟨made,rfl,rfl⟩⟩
  | some creation =>
    rw [made] at done
    dsimp only at done
    split at done
    · rename_i vacant
      obtain ⟨⟨created,counts⟩,built,finished⟩ := Option.bind_eq_some_iff.mp done
      cases finished
      exact ⟨old,created,found,rfl,rfl,.inr ⟨creation,made,vacant,built⟩⟩
    · cases done

theorem delete_step {id : Nat} (done : table.step memory env (.delete id) = some next) :
    ∃ old, table.find id = some old ∧ next.prefixes = without id table.prefixes ∧ next.detached = table.detached ∧
      next.counts = (routes_delete old table.counts).2 := by
  obtain ⟨old,found,finished⟩ := Option.bind_eq_some_iff.mp done
  cases finished
  exact ⟨old,found,rfl,rfl,rfl⟩

theorem mem_descriptors {pd : PrefixDescriptor} : pd ∈ table.descriptors ↔ pd ∈ table.prefixes ∨ pd ∈ table.detached := List.mem_append

/-- No operation breaks a store. -/
theorem step_stored (holds : ∀ pd ∈ table.descriptors, RouteStore pd) (permitted : operation.Permitted)
    (done : table.step memory env operation = some next) : ∀ pd ∈ next.descriptors, RouteStore pd := by
  intro pd member
  have live {pd : PrefixDescriptor} (stored : pd ∈ table.prefixes) : RouteStore pd := holds pd (mem_descriptors.mpr (.inl stored))
  have kept {pd : PrefixDescriptor} (stored : pd ∈ table.detached) : RouteStore pd := holds pd (mem_descriptors.mpr (.inr stored))
  cases operation with
  | turn id turn =>
    obtain ⟨old,left,found,ran,moved⟩ := turn_step done
    have store : RouteStore left := turn_store (holds old (reach_member found)) ran
    rw [mem_descriptors] at member
    rcases moved with ⟨_,_,prefixes,detached⟩ | ⟨prefixes,detached⟩
    · rw [prefixes,detached,List.mem_append,List.mem_singleton] at member
      rcases member with earlier | earlier | rfl
      · exact live (List.mem_filter.mp earlier).1
      · exact kept earlier
      · exact store
    · rw [prefixes,detached,← List.mem_append,← List.map_append] at member
      obtain ⟨earlier,stored,rfl⟩ := List.mem_map.mp member
      split
      · exact store
      · exact holds earlier stored
  | create id creation =>
    obtain ⟨created,_,made,prefixes,detached⟩ := create_step done
    rw [mem_descriptors,prefixes,detached,List.mem_append] at member
    rcases member with (earlier | new) | earlier
    · exact live earlier
    · obtain rfl := Option.mem_toList.mp new
      refine create_store (fun old copied => ?_) made
      rw [permitted.2] at copied
      cases copied
    · exact kept earlier
  | clear id fresh =>
    obtain ⟨old,created,found,prefixes,detached,made⟩ := clear_step done
    have cleared : RouteStore old := live (find_member found)
    rw [mem_descriptors,prefixes,detached,List.mem_append,List.mem_append,List.mem_singleton] at member
    rcases member with (earlier | new) | earlier | rfl
    · exact live (List.mem_filter.mp earlier).1
    · obtain rfl := Option.mem_toList.mp new
      rcases made with ⟨_,none_made,_⟩ | ⟨creation,made,_,built⟩
      · cases none_made
      · refine create_store (fun other copied => ?_) built
        rw [recreation_old made copied]
        exact cleared
    · exact kept earlier
    · exact cleared
  | free id =>
    cases done
    rcases mem_descriptors.mp member with earlier | earlier
    · exact live earlier
    · exact kept (List.mem_filter.mp earlier).1
  | delete id =>
    obtain ⟨old,_,prefixes,detached,_⟩ := delete_step done
    rw [mem_descriptors,prefixes,detached] at member
    rcases member with earlier | earlier
    · exact live (List.mem_filter.mp earlier).1
    · exact kept earlier

theorem reached_stored (reached : Reached Meets table) : ∀ pd ∈ table.descriptors, RouteStore pd := by
  induction reached with
  | start =>
    intro pd member
    cases member
  | step _ permitted _ done ih => exact step_stored ih permitted done

/-- In every table that can be reached, whatever the host refuses, each queue holds its class in the order of the distances,
    a route is stored once, and the lookup finds the route of every neighbor that has one; also while it is detached. -/
theorem routes_found (reached : Reached Meets table) : ∀ pd ∈ table.descriptors, RouteStore pd ∧
    ∀ route ∈ pd.routes, ∀ nbr, nbr ≠ .self → route.adv_router = some nbr → prefix_descriptor_lookup pd nbr = some route := by
  intro pd member
  have store := reached_stored reached pd member
  exact ⟨store,fun route stored nbr peer owner => store.found stored peer owner⟩

theorem run_reached {operations : List Operation} (permitted : ∀ operation ∈ operations, operation.Permitted)
    (reached : Reached (fun _ _ _ _ => True) table)
    (done : operations.foldlM (fun table operation => table.step memory env operation) table = some next) :
    Reached (fun _ _ _ _ => True) next := by
  induction operations generalizing table with
  | nil =>
    cases done
    exact reached
  | cons operation operations ih =>
    rw [List.foldlM_cons] at done
    obtain ⟨middle,first,rest⟩ := Option.bind_eq_some_iff.mp done
    refine ih (fun other member => permitted other (List.mem_cons_of_mem _ member)) ?_ rest
    exact .step reached (permitted operation List.mem_cons_self) trivial first

/-- A neighbor's UPDATE about a destination, with a delay. -/
def advertised (delay : UInt64) : Received := { tlv := { dest := ⟨0x0a000000,8⟩, metric := { delay, bandwidth := 256 } } }

/-- Two neighbors advertise a destination. -/
def both_learned : List Operation :=
  [.create 0 (.update (.peer 0 0) (advertised 10)),.turn 0 (.call (.update_receive (.peer 0 1) (advertised 10)))]

def learned_table : Table :=
  ((both_learned.foldlM (fun (table : Table) operation => table.step {} ({} : Instance).env operation) {}).getD {})

theorem learned_reached : Reached (fun _ _ _ _ => True) learned_table := by
  have done : (both_learned.foldlM (fun (table : Table) operation => table.step {} ({} : Instance).env operation) {}).isSome := by
    decide +kernel
  obtain ⟨table,same⟩ := Option.isSome_iff_exists.mp done
  have last : learned_table = table := by rw [learned_table,same,Option.getD_some]
  rw [last]
  refine run_reached ?_ .start same
  intro operation member
  simp only [both_learned,List.mem_cons,List.not_mem_nil,or_false] at member
  rcases member with rfl | rfl <;> simp [Operation.Permitted,Label.nbr,Label.old,Call.nbr]

theorem routes_found_learned : ∃ pd, learned_table.find 0 = some pd ∧ RouteStore pd ∧
    (prefix_descriptor_lookup pd (.peer 0 0)).isSome = true := by
  have found := (Option.some_get (show (learned_table.find 0).isSome by decide +kernel)).symm
  exact ⟨_,found,(routes_found learned_reached _ (mem_descriptors.mpr (.inl (find_member found)))).1,by decide +kernel⟩

/-- A turn takes a route out of a table that can be reached by retirement, by the local route that comes in its place, or for want
    of a list item, and then always. The loss of an interface is not one turn but one for each of its routes. -/
theorem routes_lost_iff (reached : Reached Meets table) {id : Nat} {pd left : PrefixDescriptor} {turn : Turn}
    (found : table.reach id turn = some pd) (single : ∀ ei, turn ≠ .call (.connected_interface_down ei)) {counts : Counts}
    (done : turn.exec memory env pd table.counts = some (left, counts)) {route : RouteDescriptor} (stored : route ∈ pd.routes) :
    route_stored left route.id = false ↔ turn.Drops memory env pd table.counts route :=
  turn_lost_iff (reached_stored reached pd (reach_member found)) single done stored

/-- A host without a list item for DUAL. -/
def itemless : Env := { ({} : Instance).env with links := fun _ _ _ => false }

/-- The neighbor advertises another delay, and the host has no list item to link its route again. -/
theorem routes_lost_refused : ∃ pd left counts,
    learned_table.reach 0 (.call (.update_receive (.peer 0 0) (advertised 20))) = some pd ∧
    (Turn.call (.update_receive (.peer 0 0) (advertised 20))).exec {} itemless pd learned_table.counts = some (left, counts) ∧
      route_stored pd 0 = true ∧ route_stored left 0 = false := by
  have found := (Option.some_get (show (learned_table.reach 0 (.call (.update_receive (.peer 0 0) (advertised 20)))).isSome by
    decide +kernel)).symm
  have done := (Option.some_get (show ((Turn.call (.update_receive (.peer 0 0) (advertised 20))).exec {} itemless
    ((learned_table.reach 0 (.call (.update_receive (.peer 0 0) (advertised 20)))).get (by decide +kernel))
      learned_table.counts).isSome by decide +kernel)).symm
  have known := (Option.some_get (show (prefix_descriptor_lookup
    ((learned_table.reach 0 (.call (.update_receive (.peer 0 0) (advertised 20)))).get (by decide +kernel)) (.peer 0 0)).isSome by
      decide +kernel)).symm
  have lost := (routes_lost_iff learned_reached found (by simp) done (lookup_stored known).1).mpr
    (.refused _ _ _ (by rfl) (by decide +kernel) (by decide +kernel))
  exact ⟨_,_,_,found,done,by decide +kernel,lost⟩

end Tables

end Storage

end Eigrp
