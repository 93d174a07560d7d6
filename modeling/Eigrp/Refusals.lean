import Eigrp.Accounts
import Eigrp.Total

/-!
# Refused items and stored routes

A list item that the host refuses ought to cost no stored route. DUAL takes a route out of its queue before
it asks for the item that links it again, and a clear links the copies of the local routes one by one.
Where these items are granted, a route goes by deletion only.
-/

namespace Eigrp
open Eigrp.Lib

namespace Storage

/-! ## Deletion and refusal -/

/-- What a turn deletes: a route that it retires, and the local route in the place of which another comes. -/
inductive Turn.Deletes (pd : PrefixDescriptor) (route : RouteDescriptor) : Turn → Prop
  | retired : pd.need_update = false → route.distance = max_distance → Deletes pd route (.call .retire)
  | replaced (ei : Nat) : prefix_descriptor_lookup pd .self = some route → route.ei = some ei →
      Deletes pd route (.call (.intf_up ei))

/-- The host refuses the item with which a turn links a route again. -/
def Turn.refuses (memory : Memory) (env : Env) (pd : PrefixDescriptor) (counts : Counts) (route : RouteDescriptor) : Turn → Bool
  | .call (.connected_interface_down ei) =>
    decide (route.adv_router = some .self ∧ route.ei = some ei) && link_refused env pd (withdrawal route) route
  | other => (other.handed memory env pd counts).any fun (handed, _) =>
    decide (handed.route.id = route.id) && link_refused env handed.pd handed.msg handed.route

/-- The local routes that a clear copies. -/
def copies (old : PrefixDescriptor) : List RouteDescriptor :=
  if old.nt = .connected then old.internal_routes.filter fun route => route.adv_router = some .self else []

/-- The host refuses an item for a route that is stored, or for the copy of one. -/
def Operation.refuses (memory : Memory) (env : Env) (table : Table) : Operation → Bool
  | .turn id made =>
    (table.reach id made).any fun pd => pd.routes.any fun route => made.refuses memory env pd table.counts route
  | .clear id _ => (table.find id).any fun old => (copies old).any fun route => !memory.added route.id
  | _ => false

/-- What an operation deletes: by a turn, or with the descriptor. -/
inductive Operation.Deletes (table : Table) (pd : PrefixDescriptor) (route : RouteDescriptor) : Operation → Prop
  | turned (turn : Turn) : table.reach pd.id turn = some pd → turn.Deletes pd route → Deletes table pd route (.turn pd.id turn)
  | freed : pd ∈ table.detached → Deletes table pd route (.free pd.id)
  | deleted : pd ∈ table.prefixes → Deletes table pd route (.delete pd.id)

/-- A stored route that is not deleted is stored behind the operation, and a destination that is cleared has its local
    routes again. -/
structure Operation.Keeps (table next : Table) (operation : Operation) : Prop where
  stored : ∀ pd ∈ table.descriptors, ∀ route ∈ pd.routes, operation.Deletes table pd route ∨
    ∃ left ∈ next.descriptors, left.id = pd.id ∧ route_stored left route.id = true
  copied : ∀ id fresh old, operation = .clear id fresh → table.find id = some old → ∀ route ∈ copies old,
    ∃ created ∈ next.prefixes, created.id = fresh ∧ route_stored created route.id = true

/-! ## Turns -/

section Turns
variable {env : Env} {memory : Memory} {pd next middle : PrefixDescriptor} {route head : RouteDescriptor}
  {counts last rest : Counts} {turn : Turn} {id : Nat}

theorem withdraw_event
    (ran : (Turn.withdraw id).message env pd { pd, route, msg := withdrawal route } counts = some (next, last)) :
    ∃ out, Eigrp.fsm_event env pd (withdrawal route) route = some (next, out) := by
  have kept : ((Turn.withdraw id).message env pd { pd, route, msg := withdrawal route } counts).map Prod.fst =
      (Eigrp.fsm_event env pd (withdrawal route) route).map Prod.fst := message_kept _ _ _ rfl
  rw [ran] at kept
  obtain ⟨⟨middle,out⟩,event,same⟩ := Option.map_eq_some_iff.mp kept.symm
  exact ⟨out,event.trans (congrArg some (Prod.ext same rfl))⟩

/-- One round of the loss of an interface: its own route stays unless it is refused, and what becomes of another one does not
    depend on the round. -/
theorem withdraw_round (member : head ∈ pd.routes)
    (ran : (Turn.withdraw id).message env pd { pd, route := head, msg := withdrawal head } counts = some (middle, rest)) :
    (route_stored middle head.id = false ↔ link_refused env pd (withdrawal head) head = true) ∧
      ∀ route ∈ pd.routes, route.id ≠ head.id → ∃ kept ∈ middle.routes, kept.id = route.id ∧
        link_refused env middle (withdrawal kept) kept = link_refused env pd (withdrawal route) route := by
  have here : route_stored pd head.id = true := route_stored_iff.mpr ⟨head,member,rfl⟩
  constructor
  · obtain ⟨⟨result,left⟩,handled,finished⟩ := Option.bind_eq_some_iff.mp ran
    cases finished
    have lost := run_stored_iff handled here
    simpa [loses,here,Turn.finish] using lost
  · intro route stored different
    obtain ⟨out,event⟩ := withdraw_event ran
    obtain ⟨current,last,after,change,measured,queues⟩ := fsm_event_linked event
    have linking := update_distance_linking measured
    have numbered : middle.id = current.id := (message_identity ran).id.trans linking.rerouted.id.symm
    obtain ⟨kept,held,bare⟩ := linking.fate queues stored different
    exact ⟨kept,held,bare_number bare,link_refused_kept linking queues numbered different stored held bare⟩

/-- No round stores a route that another one has lost. -/
theorem connected_routes_down_before {ids : List Nat}
    (done : connected_routes_down memory env ids pd counts = some (next, last)) (apart : id ∉ ids)
    (stored : route_stored next id = true) : route_stored pd id = true := by
  induction ids generalizing pd counts with
  | nil =>
    cases done
    exact stored
  | cons head ids ih =>
    obtain ⟨⟨handed,left⟩,found,first⟩ := Option.bind_eq_some_iff.mp done
    obtain ⟨⟨middle,rest⟩,ran,later⟩ := Option.bind_eq_some_iff.mp first
    obtain ⟨⟨result,between⟩,handled,finished⟩ := Option.bind_eq_some_iff.mp ran
    cases finished
    obtain ⟨route,known,same⟩ := Option.map_eq_some_iff.mp found
    cases same
    have number : route.id = head := by simpa using List.find?_some known
    simp only [List.mem_cons,not_or] at apart
    rcases run_stored_before handled (ih later apart.2) with here | before
    · exact absurd (here.symm.trans number) apart.1
    · exact before

/-- The rounds lose the routes that they are refused. -/
theorem connected_routes_down_lost_iff {ids : List Nat} (store : RouteStore pd) (distinct : ids.Nodup)
    (done : connected_routes_down memory env ids pd counts = some (next, last)) (stored : route ∈ pd.routes) :
    route_stored next route.id = false ↔ route.id ∈ ids ∧ link_refused env pd (withdrawal route) route = true := by
  induction ids generalizing pd counts route with
  | nil =>
    cases done
    have kept : route_stored next route.id = true := route_stored_iff.mpr ⟨route,stored,rfl⟩
    simp [kept]
  | cons id ids ih =>
    obtain ⟨⟨handed,left⟩,found,first⟩ := Option.bind_eq_some_iff.mp done
    obtain ⟨⟨middle,rest⟩,ran,later⟩ := Option.bind_eq_some_iff.mp first
    have after := message_store (turn_ready store found) ran
    obtain ⟨head,known,same⟩ := Option.map_eq_some_iff.mp found
    cases same
    have member : head ∈ pd.routes := List.mem_of_find?_eq_some known
    have number : head.id = id := by simpa using List.find?_some known
    subst number
    obtain ⟨fresh,different⟩ := List.nodup_cons.mp distinct
    obtain ⟨own,others⟩ := withdraw_round member ran
    by_cases same : route.id = head.id
    · obtain rfl := store.tidy.unique member stored same
      rw [← own]
      simp only [List.mem_cons_self,true_and]
      constructor
      · intro lost
        by_contra present
        obtain ⟨kept,held,number⟩ := route_stored_iff.mp (Bool.eq_true_of_not_eq_false present)
        have gone := (ih after different later held).mp (number ▸ lost)
        exact fresh (number ▸ gone.1)
      · intro lost
        by_contra present
        have before := connected_routes_down_before later fresh (Bool.eq_true_of_not_eq_false present)
        rw [lost] at before
        cases before
    · obtain ⟨kept,held,number,refused⟩ := others route stored same
      rw [← number,ih after different later held,refused,number]
      simp [same]

theorem routes_down_stored (store : RouteStore pd) (ei : Nat) (stored : route ∈ pd.routes) :
    route.id ∈ (pd.routes.filter fun route => route.adv_router = some .self ∧ route.ei = some ei).map (·.id) ↔
      route.adv_router = some .self ∧ route.ei = some ei := by
  constructor
  · intro listed
    obtain ⟨other,down,number⟩ := List.mem_map.mp listed
    obtain ⟨held,local_route⟩ := List.mem_filter.mp down
    obtain rfl := store.tidy.unique stored held number
    simpa using local_route
  · exact fun local_route => List.mem_map.mpr ⟨route,List.mem_filter.mpr ⟨stored,by simpa using local_route⟩,rfl⟩

/-- A turn that is about no interface that goes down is refused the item of the route that its message is about. -/
theorem refuses_handed (single : ∀ ei, turn ≠ .call (.connected_interface_down ei)) :
    turn.refuses memory env pd counts route = true ↔ ∃ handed last, turn.handed memory env pd counts = some (handed, last) ∧
      handed.route.id = route.id ∧ link_refused env handed.pd handed.msg handed.route = true := by
  have unfolded : turn.refuses memory env pd counts route = (turn.handed memory env pd counts).any fun result =>
      decide (result.1.route.id = route.id) && link_refused env result.1.pd result.1.msg result.1.route := by
    cases turn with
    | withdraw id => rfl
    | call made => cases made <;> first | rfl | exact absurd rfl (single _)
  rw [unfolded,Option.any_eq_true]
  constructor
  · rintro ⟨⟨handed,last⟩,found,refused⟩
    obtain ⟨number,refused⟩ := Bool.and_eq_true_iff.mp refused
    exact ⟨handed,last,found,by simpa using number,refused⟩
  · rintro ⟨handed,last,found,number,refused⟩
    exact ⟨(handed, last),found,by simp [number,refused]⟩

/-- What is deleted was refused nothing. -/
theorem Turn.Deletes.granted (store : RouteStore pd) (stored : route ∈ pd.routes) (deletes : turn.Deletes pd route) :
    turn.refuses memory env pd counts route = false := by
  refine Bool.eq_false_iff.mpr fun refused => ?_
  cases deletes with
  | retired idle far =>
    obtain ⟨_,_,found,_⟩ := (refuses_handed (by simp)).mp refused
    cases found
  | replaced ei known here =>
    obtain ⟨handed,last,found,number,_⟩ := (refuses_handed (by simp)).mp refused
    have same : intf_up_handed memory env pd counts ei = (handed, last) := Option.some.inj found
    have other := (@intf_up_stored env memory pd route counts store stored ei).1
    rw [same] at other
    exact other number

/-- A turn takes a stored route out by deletion, or where it is refused the item that links the route again. -/
theorem turn_kept_iff (store : RouteStore pd) (done : turn.exec memory env pd counts = some (next, last))
    (stored : route ∈ pd.routes) :
    route_stored next route.id = false ↔ turn.Deletes pd route ∨ turn.refuses memory env pd counts route = true := by
  by_cases down : ∃ ei, turn = .call (.connected_interface_down ei)
  · obtain ⟨ei,rfl⟩ := down
    have distinct : ((pd.routes.filter fun route => route.adv_router = some .self ∧ route.ei = some ei).map (·.id)).Nodup :=
      store.tidy.numbers.sublist (List.filter_sublist.map _)
    rw [connected_routes_down_lost_iff store distinct done stored,routes_down_stored store ei stored]
    constructor
    · rintro ⟨local_route,refused⟩
      exact .inr (by simp [Turn.refuses,local_route,refused])
    · rintro (deletes | refused)
      · cases deletes
      · simpa [Turn.refuses] using refused
  · have single : ∀ ei, turn ≠ .call (.connected_interface_down ei) := fun ei same => down ⟨ei,same⟩
    rw [turn_lost_iff store single done stored]
    constructor
    · rintro (⟨idle,far⟩ | ⟨ei,known,here⟩ | ⟨_,handed,left,found,number,lost⟩)
      · exact .inl (.retired idle far)
      · exact .inl (.replaced ei known here)
      · obtain ⟨_,refused⟩ := Bool.and_eq_true_iff.mp lost
        exact .inr ((refuses_handed single).mpr ⟨handed,left,found,number,refused⟩)
    · rintro (deletes | refused)
      · cases deletes with
        | retired idle far => exact .retired idle far
        | replaced ei known here => exact .replaced ei known here
      · obtain ⟨handed,left,found,number,refused⟩ := (refuses_handed single).mp refused
        have learned : ∀ ei, turn ≠ .call (.intf_up ei) := by
          rintro ei rfl
          have same : intf_up_handed memory env pd counts ei = (handed, left) := Option.some.inj found
          have other := (@intf_up_stored env memory pd route counts store stored ei).1
          rw [same] at other
          exact other number
        have kept := handed_stored found learned (route_stored_iff.mpr ⟨route,stored,rfl⟩)
        exact .refused turn handed left found number (by simp [loses,number,kept,refused])

end Turns

/-! ## Copies -/

section Copies
variable {env : Env} {memory : Memory} {pd : PrefixDescriptor} {route : RouteDescriptor} {counts : Counts} {id : Nat}

/-- The copies whose items are granted are linked. -/
theorem routes_add_stored {routes : List RouteDescriptor} : route_stored (routes_add memory env routes pd counts).1 id = true ↔
    route_stored pd id = true ∨ memory.added id = true ∧ ∃ route ∈ routes, route.id = id := by
  induction routes generalizing pd counts with
  | nil => simp [routes_add]
  | cons route routes ih =>
    unfold routes_add
    rw [ih,added_stored_iff,or_assoc]
    refine or_congr_right ?_
    constructor
    · rintro (⟨rfl,granted⟩ | ⟨granted,other,member,number⟩)
      · exact ⟨granted,route,List.mem_cons_self,rfl⟩
      · exact ⟨granted,other,List.mem_cons_of_mem _ member,number⟩
    · rintro ⟨granted,other,member,number⟩
      rcases List.mem_cons.mp member with rfl | later
      · exact .inl ⟨number,number ▸ granted⟩
      · exact .inr ⟨granted,other,later,number⟩

end Copies

/-! ## Operations -/

section Operations
variable {Meets : Memory → Env → Table → Operation → Prop} {memory : Memory} {env : Env} {table next : Table}
  {operation : Operation} {stranded left : Nbr → Nat} {pd : PrefixDescriptor} {route : RouteDescriptor} {id : Nat}

theorem turn_keeps_iff {made : Turn} (accounted : Accounted table stranded) (after : Accounted next left)
    (done : table.step memory env (.turn id made) = some next) :
    (Operation.turn id made).Keeps table next ↔ (Operation.turn id made).refuses memory env table = false := by
  obtain ⟨pd,last,found,ran,moved⟩ := turn_step done
  have member := reach_member found
  have number : pd.id = id := by simpa using List.find?_some (reach_found found)
  have store := accounted.stores pd member
  have same : last.id = pd.id :=
    (turn_counted store (accounted.covered (show Nbr.peer 0 0 ≠ .self by simp) member) (by simp) ran).1.id
  have written : last ∈ next.descriptors ∧ ∀ other ∈ table.descriptors, other.id ≠ id → other ∈ next.descriptors := by
    unfold Table.descriptors
    rcases moved with ⟨_,_,prefixes,kept⟩ | ⟨prefixes,kept⟩
    · rw [prefixes,kept]
      refine ⟨by simp,fun other present different => ?_⟩
      rcases mem_descriptors.mp present with live | detached
      · exact List.mem_append_left _ (List.mem_filter.mpr ⟨live,by simpa using different⟩)
      · exact List.mem_append_right _ (List.mem_append_left _ detached)
    · rw [prefixes,kept,← List.map_append]
      exact ⟨List.mem_map.mpr ⟨pd,member,if_pos number⟩,
        fun other present different => List.mem_map.mpr ⟨other,present,if_neg different⟩⟩
  have refuses : (Operation.turn id made).refuses memory env table =
      pd.routes.any fun route => made.refuses memory env pd table.counts route := by
    change (table.reach id made).any _ = _
    rw [found,Option.any_some]
  rw [refuses]
  constructor
  · intro keeps
    refine List.any_eq_false.mpr fun route stored refused => ?_
    have lost := (turn_kept_iff store ran stored).mpr (.inr refused)
    rcases keeps.stored pd member route stored with deletes | ⟨other,present,here,held⟩
    · have deleted : made.Deletes pd route := by
        cases deletes
        assumption
      rw [deleted.granted store stored] at refused
      cases refused
    · obtain rfl := after.unique written.1 present (here.trans same.symm)
      rw [lost] at held
      cases held
  · intro granted
    refine ⟨fun other present route stored => ?_,fun _ _ _ cleared => by cases cleared⟩
    by_cases here : other.id = id
    · obtain rfl := accounted.unique member present (here.trans number.symm)
      by_cases deletes : made.Deletes other route
      · exact .inl (here ▸ .turned made (here ▸ found) deletes)
      · refine .inr ⟨last,written.1,same,Bool.eq_true_of_not_eq_false fun lost => ?_⟩
        rcases (turn_kept_iff store ran stored).mp lost with deleted | refused
        · exact deletes deleted
        · exact List.any_eq_false.mp granted route stored refused
    · exact .inr ⟨other,written.2 other present here,rfl,route_stored_iff.mpr ⟨route,stored,rfl⟩⟩

theorem recreation_copied {old : PrefixDescriptor} (member : route ∈ copies old) :
    recreation env old = some (.connected_recreate old) ∧
      copies old = old.internal_routes.filter fun route => route.adv_router = some .self := by
  unfold copies at member ⊢
  split at member
  · rename_i connected
    have found : old.internal_routes.any (fun route => route.adv_router = some .self) = true :=
      List.any_eq_true.mpr ⟨route,(List.mem_filter.mp member).1,(List.mem_filter.mp member).2⟩
    simp [recreation,connected,found]
  · cases member

/-- A destination with local routes to copy is created anew, with the copies that are granted an item. -/
theorem recreated_copies {old : PrefixDescriptor} {fresh : Nat} {counts last : Counts} {creation : Creation}
    {created : Option PrefixDescriptor}
    (made : recreation env old = some creation) (built : create memory env fresh counts creation = some (created, last))
    (member : route ∈ copies old) :
    ∃ pd, created = some pd ∧ pd.id = fresh ∧ (route_stored pd route.id = true ↔ memory.added route.id = true) := by
  obtain ⟨connected,copied⟩ := @recreation_copied env route old member
  obtain rfl := Option.some.inj (made.symm.trans connected)
  have identity := (create_counted (show Nbr.peer 0 0 ≠ .self by simp) built).1
  cases built
  refine ⟨_,rfl,(identity _ rfl).1,?_⟩
  rw [routes_add_stored,← copied]
  constructor
  · rintro (stored | ⟨granted,_⟩)
    · cases stored
    · exact granted
  · exact fun granted => .inr ⟨granted,route,member,rfl⟩

theorem clear_keeps_iff {fresh : Nat} (accounted : Accounted table stranded) (after : Accounted next left)
    (done : table.step memory env (.clear id fresh) = some next) :
    (Operation.clear id fresh).Keeps table next ↔ (Operation.clear id fresh).refuses memory env table = false := by
  obtain ⟨old,created,found,prefixes,detached,made⟩ := clear_step done
  have refuses : (Operation.clear id fresh).refuses memory env table =
      (copies old).any fun route => !memory.added route.id := by
    change (table.find id).any _ = _
    rw [found,Option.any_some]
  have copied {route : RouteDescriptor} (member : route ∈ copies old) : ∃ pd ∈ next.prefixes, pd.id = fresh ∧
      (route_stored pd route.id = true ↔ memory.added route.id = true) := by
    rcases made with ⟨none_made,_⟩ | ⟨creation,made,_,built⟩
    · rw [(recreation_copied member).1] at none_made
      cases none_made
    · obtain ⟨pd,rfl,number,linked⟩ := recreated_copies made built member
      exact ⟨pd,prefixes ▸ List.mem_append_right _ (by simp),number,linked⟩
  rw [refuses]
  constructor
  · intro keeps
    refine List.any_eq_false.mpr fun route member refused => ?_
    obtain ⟨pd,present,number,linked⟩ := copied member
    obtain ⟨other,held,same,stored⟩ := keeps.copied id fresh old rfl found route member
    obtain rfl := after.unique (mem_descriptors.mpr (.inl present)) (mem_descriptors.mpr (.inl held)) (same.trans number.symm)
    rw [linked.mp stored] at refused
    cases refused
  · intro granted
    constructor
    · intro pd member route stored
      refine .inr ⟨pd,mem_descriptors.mpr ?_,rfl,route_stored_iff.mpr ⟨route,stored,rfl⟩⟩
      rw [prefixes,detached]
      rcases mem_descriptors.mp member with live | kept
      · by_cases here : pd.id = id
        · have number : old.id = id := by simpa using List.find?_some found
          obtain rfl := accounted.unique (mem_descriptors.mpr (.inl (find_member found))) member (here.trans number.symm)
          exact .inr (List.mem_append_right _ (List.mem_singleton.mpr rfl))
        · exact .inl (List.mem_append_left _ (List.mem_filter.mpr ⟨live,by simpa using here⟩))
      · exact .inr (List.mem_append_left _ kept)
    · rintro _ _ other ⟨rfl,rfl⟩ sought route member
      obtain rfl := Option.some.inj (found.symm.trans sought)
      obtain ⟨pd,present,number,linked⟩ := copied member
      exact ⟨pd,present,number,linked.mpr (by simpa using List.any_eq_false.mp granted route member)⟩

/-- An operation keeps every stored route that it does not delete exactly if the host refuses no item for one. -/
theorem step_keeps_iff (accounted : Accounted table stranded) (permitted : operation.Permitted)
    (done : table.step memory env operation = some next) :
    operation.Keeps table next ↔ operation.refuses memory env table = false := by
  have after := step_accounted accounted permitted done
  have still (pd : PrefixDescriptor) (present : pd ∈ next.descriptors) (route : RouteDescriptor) (stored : route ∈ pd.routes) :
      ∃ left ∈ next.descriptors, left.id = pd.id ∧ route_stored left route.id = true :=
    ⟨pd,present,rfl,route_stored_iff.mpr ⟨route,stored,rfl⟩⟩
  cases operation with
  | turn id made => exact turn_keeps_iff accounted after done
  | create id creation =>
    obtain ⟨created,_,_,prefixes,detached⟩ := create_step done
    refine iff_of_true ⟨fun pd member route stored => .inr (still pd ?_ route stored),fun _ _ _ cleared => by cases cleared⟩ rfl
    rw [mem_descriptors,prefixes,detached,List.mem_append]
    rcases mem_descriptors.mp member with live | kept
    · exact .inl (.inl live)
    · exact .inr kept
  | clear id fresh => exact clear_keeps_iff accounted after done
  | free id =>
    cases done
    refine iff_of_true ⟨fun pd member route stored => ?_,fun _ _ _ cleared => by cases cleared⟩ rfl
    rcases mem_descriptors.mp member with live | kept
    · exact .inr (still pd (mem_descriptors.mpr (.inl live)) route stored)
    · by_cases here : pd.id = id
      · exact .inl (here ▸ .freed kept)
      · exact .inr (still pd (mem_descriptors.mpr (.inr (List.mem_filter.mpr ⟨kept,by simpa using here⟩))) route stored)
  | delete id =>
    obtain ⟨old,found,prefixes,detached,_⟩ := delete_step done
    refine iff_of_true ⟨fun pd member route stored => ?_,fun _ _ _ cleared => by cases cleared⟩ rfl
    rcases mem_descriptors.mp member with live | kept
    · by_cases here : pd.id = id
      · exact .inl (here ▸ .deleted live)
      · refine .inr (still pd (mem_descriptors.mpr (.inl ?_)) route stored)
        rw [prefixes]
        exact List.mem_filter.mpr ⟨live,by simpa using here⟩
    · refine .inr (still pd (mem_descriptors.mpr (.inr ?_)) route stored)
      rwa [detached]

theorem Reached.run (reached : Reached Meets table) : ∃ stranded, Run table stranded := by
  induction reached with
  | start => exact ⟨_,.start⟩
  | step _ permitted _ done ih =>
    obtain ⟨stranded,run⟩ := ih
    exact ⟨_,.step run permitted done⟩

/-- The operations that the host refuses no item for a stored route, or for the copy of one. -/
def Operation.Spared (memory : Memory) (env : Env) (table : Table) (operation : Operation) : Prop :=
  operation.refuses memory env table = false

/-- The operations that keep every stored route that they do not delete. -/
def Operation.Keeping (memory : Memory) (env : Env) (table : Table) (operation : Operation) : Prop :=
  ∀ next, table.step memory env operation = some next → operation.Keeps table next

/-- A run without such a refusal loses no stored route, and an operation of any run keeps them exactly without one; both queues
    stay in order, and the lookup finds the route of every neighbor that has one. -/
theorem spared_run_keeps (reached : Reached Operation.Spared table) :
    Reached Operation.Keeping table ∧
      (∀ pd ∈ table.descriptors, RouteStore pd ∧ ∀ route ∈ pd.routes, ∀ nbr, nbr ≠ .self → route.adv_router = some nbr →
        prefix_descriptor_lookup pd nbr = some route) ∧
      ∀ {memory : Memory} {env : Env} {operation : Operation} {next : Table}, operation.Permitted →
        table.step memory env operation = some next → (operation.Keeps table next ↔ operation.Spared memory env table) := by
  have stepped {table : Table} (reached : Reached Operation.Spared table) {memory : Memory} {env : Env} {operation : Operation}
      {next : Table} (permitted : operation.Permitted) (done : table.step memory env operation = some next) :
      operation.Keeps table next ↔ operation.Spared memory env table := by
    obtain ⟨stranded,run⟩ := reached.run
    exact step_keeps_iff (run_accounted run) permitted done
  refine ⟨?_,fun pd member => ?_,stepped reached⟩
  · induction reached with
    | start => exact .start
    | step reached permitted spared done ih =>
      refine .step ih permitted (fun next again => ?_) done
      exact (stepped reached permitted again).mpr spared
  · have store := reached_stored reached pd member
    exact ⟨store,fun route stored nbr peer owner => store.found stored peer owner⟩

/-- A neighbor advertises a destination and then another delay, and is refused nothing. -/
theorem spared_run_keeps_learned : ∃ table, Reached Operation.Keeping table ∧ ∃ pd ∈ table.descriptors, RouteStore pd ∧
    (prefix_descriptor_lookup pd (.peer 0 0)).isSome = true := by
  have learned := (Option.some_get (show (({} : Table).step {} ({} : Instance).env
    (.create 0 (.update (.peer 0 0) (advertised 10)))).isSome by decide +kernel)).symm
  have updated := (Option.some_get (show (Table.step {} ({} : Instance).env ((({} : Table).step {} ({} : Instance).env
    (.create 0 (.update (.peer 0 0) (advertised 10)))).get (by decide +kernel))
      (.turn 0 (.call (.update_receive (.peer 0 0) (advertised 20))))).isSome by decide +kernel)).symm
  have first : Reached Operation.Spared _ :=
    .step .start (by simp [Operation.Permitted,Label.nbr,Label.old]) (show Operation.refuses _ _ _ _ = false by rfl) learned
  have second : Reached Operation.Spared _ :=
    .step first (by simp [Operation.Permitted,Call.nbr]) (show Operation.refuses _ _ _ _ = false by decide +kernel) updated
  obtain ⟨keeping,stores,_⟩ := spared_run_keeps second
  have found := (Option.some_get (show (Table.find ((Table.step {} ({} : Instance).env ((({} : Table).step {} ({} : Instance).env
    (.create 0 (.update (.peer 0 0) (advertised 10)))).get (by decide +kernel))
      (.turn 0 (.call (.update_receive (.peer 0 0) (advertised 20))))).get (by decide +kernel)) 0).isSome by decide +kernel)).symm
  have member := mem_descriptors.mpr (.inl (find_member found))
  exact ⟨_,keeping,_,member,(stores _ member).1,by decide +kernel⟩

/-- The neighbor advertises another delay, and the host has no list item to link its route again: no queue holds it any more,
    and nothing has deleted it. -/
theorem refused_route_lost : ∃ next, Reached (fun _ _ _ _ => True) learned_table ∧
    learned_table.step {} itemless (.turn 0 (.call (.update_receive (.peer 0 0) (advertised 20)))) = some next ∧
    ¬ (Operation.turn 0 (.call (.update_receive (.peer 0 0) (advertised 20)))).Keeps learned_table next := by
  have done := (Option.some_get (show (learned_table.step {} itemless
    (.turn 0 (.call (.update_receive (.peer 0 0) (advertised 20))))).isSome by decide +kernel)).symm
  obtain ⟨stranded,run⟩ := learned_reached.run
  have kept := step_keeps_iff (run_accounted run) (by simp [Operation.Permitted,Call.nbr]) done
  refine ⟨_,learned_reached,done,fun keeps => ?_⟩
  have refused : (Operation.turn 0 (.call (.update_receive (.peer 0 0) (advertised 20)))).refuses {} itemless learned_table =
      true := by
    decide +kernel
  rw [kept.mp keeps] at refused
  cases refused

end Operations

end Storage
end Eigrp
