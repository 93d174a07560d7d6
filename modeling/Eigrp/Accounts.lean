import Eigrp.Store

/-!
# The accounts of the neighbors

`eigrp_nbr_prefix_count` walks over the table, or takes the count that is kept with the neighbor. The count
follows what is linked and deleted, in a descriptor that is detached too; what is freed with its descriptor,
and what is lost for want of a list item, it goes on counting. It is therefore never below the walk, and the
difference is known.
-/

namespace Eigrp
namespace Storage

/-! ## What is counted -/

/-- `eigrp_nbr_prefix_present`. -/
def nbr_prefix_present (pd : PrefixDescriptor) (nbr : Nbr) : Bool := (prefix_descriptor_lookup pd nbr).isSome

/-- The walk of `eigrp_nbr_prefix_count`. -/
def nbr_prefix_walk (nbr : Nbr) (prefixes : List PrefixDescriptor) : Nat := prefixes.countP fun pd => nbr_prefix_present pd nbr

/-- What a destination adds to the walk. -/
def held (pd : PrefixDescriptor) (nbr : Nbr) : Nat := (nbr_prefix_present pd nbr).toNat

/-- The route of a neighbor that a turn loses for want of a list item. -/
def Turn.strands (memory : Memory) (env : Env) (pd : PrefixDescriptor) (counts : Counts) (nbr : Nbr) (turn : Turn) : Bool :=
  (turn.handed memory env pd counts).any fun (handed, _) => decide (handed.route.adv_router = some nbr) && loses env handed

/-- What an operation leaves behind that goes on being counted. -/
def Operation.strands (memory : Memory) (env : Env) (table : Table) (nbr : Nbr) : Operation → Bool
  | .turn id made => (table.reach id made).any fun pd => made.strands memory env pd table.counts nbr
  | .free id => (table.detached.find? fun pd => pd.id = id).any fun pd => nbr_prefix_present pd nbr
  | _ => false

/-- The runs of the table, with what they have left behind of each neighbor. -/
inductive Run : Table → (Nbr → Nat) → Prop
  | start : Run {} fun _ => 0
  | step {memory : Memory} {env : Env} {table next : Table} {operation : Operation} {stranded : Nbr → Nat} : Run table stranded →
      operation.Permitted → table.step memory env operation = some next →
      Run next fun nbr => stranded nbr + (operation.strands memory env table nbr).toNat

theorem Run.reached {table : Table} {stranded : Nbr → Nat} (run : Run table stranded) : Reached (fun _ _ _ _ => True) table := by
  induction run with
  | start => exact .start
  | step _ permitted done ih => exact .step ih permitted trivial done

section Held
variable {pd next : PrefixDescriptor} {nbr : Nbr} {route : RouteDescriptor} {id : Nat}

theorem present_iff : nbr_prefix_present pd nbr = true ↔ ∃ route ∈ pd.routes, route.adv_router = some nbr := by
  simp [nbr_prefix_present,prefix_descriptor_lookup]

theorem held_le (pd : PrefixDescriptor) (nbr : Nbr) : held pd nbr ≤ 1 := by
  unfold held
  cases nbr_prefix_present pd nbr <;> simp

theorem held_congr (same : next.routes.map (·.adv_router) = pd.routes.map (·.adv_router)) : held next nbr = held pd nbr := by
  have listed (pd : PrefixDescriptor) : nbr_prefix_present pd nbr = true ↔ some nbr ∈ pd.routes.map (·.adv_router) := by
    rw [present_iff,List.mem_map]
  have equal : nbr_prefix_present next nbr = nbr_prefix_present pd nbr := by rw [Bool.eq_iff_iff,listed,listed,same]
  rw [held,held,equal]

theorem SameKeys.owners (same : SameKeys pd next) : next.routes.map (·.adv_router) = pd.routes.map (·.adv_router) := by
  have internal := congrArg (List.map (·.adv_router)) same.internal
  have external := congrArg (List.map (·.adv_router)) same.external
  simp only [List.map_map] at internal external
  simp only [PrefixDescriptor.routes,List.map_append]
  exact congrArg₂ (· ++ ·) internal external

theorem queues_held (same : SameQueues pd next) : held next nbr = held pd nbr := held_congr (SameKeys.owners same.keys)

theorem held_eq_one : held pd nbr = 1 ↔ ∃ route ∈ pd.routes, route.adv_router = some nbr := by
  rw [← present_iff]
  unfold held
  cases nbr_prefix_present pd nbr <;> simp

theorem held_eq_zero : held pd nbr = 0 ↔ ∀ route ∈ pd.routes, route.adv_router ≠ some nbr := by
  have present := @present_iff pd nbr
  unfold held
  cases found : nbr_prefix_present pd nbr with
  | true =>
    obtain ⟨route,member,owner⟩ := present.mp found
    simp only [Bool.toNat_true,Nat.one_ne_zero,false_iff,not_forall]
    exact ⟨route,member,fun other => other owner⟩
  | false =>
    simp only [Bool.toNat_false,true_iff]
    intro route member owner
    rw [present.mpr ⟨route,member,owner⟩] at found
    cases found

theorem held_of_iff {first second : PrefixDescriptor} {other : Nbr}
    (same : (∃ route ∈ first.routes, route.adv_router = some nbr) ↔ ∃ route ∈ second.routes, route.adv_router = some other) :
    held first nbr = held second other := by
  have equal : nbr_prefix_present first nbr = nbr_prefix_present second other := by rw [Bool.eq_iff_iff,present_iff,present_iff,same]
  rw [held,held,equal]

/-- A route that is linked makes its owner's destination one. -/
theorem held_insert : held (route_insert pd route) nbr = if route.adv_router = some nbr then 1 else held pd nbr := by
  split
  · rename_i owner
    exact held_eq_one.mpr ⟨route,mem_routes_insert.mpr (.inl rfl),owner⟩
  · rename_i other
    refine held_of_iff ?_
    constructor
    · rintro ⟨found,member,owner⟩
      rcases mem_routes_insert.mp member with rfl | stored
      · exact absurd owner other
      · exact ⟨found,stored,owner⟩
    · rintro ⟨found,member,owner⟩
      exact ⟨found,mem_routes_insert.mpr (.inr member),owner⟩

end Held

/-! ## Messages -/

section Messages
variable {env : Env} {memory : Memory} {pd next : PrefixDescriptor} {msg : Msg} {route : RouteDescriptor} {counts last : Counts}
  {granted : Bool} {handed : Handed} {id : Nat} {nbr : Nbr} {turn : Turn}

theorem limit_write_at (counts : Counts) (nbr other : Nbr) (count : Nat) :
    (counts.limit_write other count).limit_prefix_count nbr = if nbr = other then count else counts.limit_prefix_count nbr := by
  simp [Counts.limit_write,Function.update_apply]

/-- The count of a neighbor behind the distance update. -/
theorem run_limit (nbr : Nbr) (done : handed_run env counts handed = some (next, last)) (owned : handed.route.adv_router ≠ none) :
    last.limit_prefix_count nbr = counts.limit_prefix_count nbr +
      if relinks handed.pd handed.msg handed.route = true ∧ link_refused env handed.pd handed.msg handed.route = false ∧
        route_stored handed.pd handed.route.id = false ∧ handed.route.adv_router = some nbr ∧ nbr ≠ .self ∧
        held handed.pd nbr = 0 then 1 else 0 := by
  obtain ⟨current,_,_,_,distance,_⟩ := handed_run_linked done
  obtain ⟨⟨start,measured',change'⟩,found,finished⟩ := Option.bind_eq_some_iff.mp distance
  rcases distance_measure_links found with ⟨rests,_,_,_⟩ | ⟨links,_,kept,_⟩
  · simp only [rests,Bool.false_eq_true,if_false] at finished
    cases finished
    simp [rests]
  · simp only [links,if_true] at finished
    cases granted : env.links handed.pd.id handed.route.id handed.msg.metrics with
    | false =>
      simp only [granted,topology_route_insert,Bool.not_false,if_true] at finished
      cases finished
      simp [link_refused,links,granted]
    | true =>
      simp only [granted,topology_route_insert,Bool.not_true,Bool.false_eq_true,if_false] at finished
      obtain ⟨owner,own⟩ := Option.ne_none_iff_exists'.mp owned
      have adv_router := (measured_owner kept owned).trans own
      cases finished
      have alone : held handed.pd owner = 0 ↔ (prefix_descriptor_lookup handed.pd owner).isNone := by
        unfold held nbr_prefix_present
        cases prefix_descriptor_lookup handed.pd owner <;> simp
      simp only [adv_router,own,Option.any_some,Option.some.injEq,link_refused,links,granted,Bool.not_true,Bool.and_false,true_and]
      by_cases same : owner = nbr
      · subst same
        by_cases first : route_stored handed.pd handed.route.id = false ∧ owner ≠ .self ∧ held handed.pd owner = 0
        · obtain ⟨new,peer,empty⟩ := first
          simp [new,peer,empty,alone.mp empty,limit_write_at]
        · have stays : ¬ ((!route_stored handed.pd handed.route.id && decide (owner ≠ .self ∧
              (prefix_descriptor_lookup handed.pd owner).isNone = true)) = true ∧ owner ≠ .self) := by
            intro moved
            obtain ⟨grows,peer⟩ := moved
            simp only [Bool.and_eq_true,Bool.not_eq_true',decide_eq_true_eq] at grows
            exact first ⟨grows.1,peer,alone.mpr grows.2.2⟩
          rw [if_neg stays,if_neg]
          · rfl
          · exact fun counted => first ⟨counted.1,counted.2.2.1,counted.2.2.2⟩
      · have unmoved : ∀ grows : Prop, [Decidable grows] → (if grows then counts.limit_write owner
            (counts.limit_prefix_count owner + 1) else counts).limit_prefix_count nbr = counts.limit_prefix_count nbr := by
          intro grows _
          split
          · rw [limit_write_at,if_neg (Ne.symm same)]
          · rfl
        rw [unmoved,if_neg]
        · rfl
        · exact fun counted => same counted.2.1

/-- A message moves the count of a neighbor with its routes, but for one that it loses. -/
theorem run_counted (ready : Ready handed) (peer : nbr ≠ .self) (done : handed_run env counts handed = some (next, last)) :
    last.limit_prefix_count nbr + held handed.pd nbr = counts.limit_prefix_count nbr + held next nbr +
      (decide (handed.route.adv_router = some nbr) && loses env handed).toNat := by
  rw [run_limit nbr done ready.owned]
  obtain ⟨current,same,cases⟩ := run_linked done
  rw [queues_held same]
  have unlinked (other : handed.route.adv_router ≠ some nbr) : held (route_unlink handed.pd handed.route.id) nbr = held handed.pd nbr := by
    refine held_of_iff ?_
    constructor
    · rintro ⟨found,member,owner⟩
      exact ⟨found,(mem_routes_unlink.mp member).1,owner⟩
    · rintro ⟨found,member,owner⟩
      refine ⟨found,mem_routes_unlink.mpr ⟨member,fun number => ?_⟩,owner⟩
      exact other ((ready.same found member number).symm.trans owner)
  have emptied (own : handed.route.adv_router = some nbr) : held (route_unlink handed.pd handed.route.id) nbr = 0 := by
    refine held_eq_zero.mpr fun found member owner => ?_
    obtain ⟨stored,different⟩ := mem_routes_unlink.mp member
    exact different (ready.alone nbr peer own found stored owner)
  have known (own : handed.route.adv_router = some nbr) : held handed.pd nbr = (route_stored handed.pd handed.route.id).toNat := by
    cases stored : route_stored handed.pd handed.route.id with
    | true =>
      obtain ⟨found,member,number⟩ := route_stored_iff.mp stored
      exact held_eq_one.mpr ⟨found,member,(ready.same found member number).trans own⟩
    | false =>
      refine held_eq_zero.mpr fun found member owner => ?_
      rw [route_stored_iff.mpr ⟨found,member,ready.alone nbr peer own found member owner⟩] at stored
      cases stored
  rcases cases with ⟨rests,rfl⟩ | ⟨links,granted,after,measured,rfl⟩ | ⟨links,refused,rfl⟩
  · simp [rests,loses,link_refused]
  · have owner := measured_owner measured ready.owned
    rw [held_insert,owner]
    by_cases own : handed.route.adv_router = some nbr
    · rw [known own]
      cases stored : route_stored handed.pd handed.route.id <;> simp [own,links,peer,loses,granted,stored]
    · rw [if_neg own,unlinked own]
      simp [own]
  · by_cases own : handed.route.adv_router = some nbr
    · rw [emptied own,known own]
      cases stored : route_stored handed.pd handed.route.id <;> simp [own,refused,stored,loses]
    · rw [unlinked own]
      simp [own]

end Messages

/-! ## Lists -/

section Balances
variable {env : Env} {memory : Memory} {pd next middle : PrefixDescriptor} {route : RouteDescriptor} {counts last between : Counts}
  {granted : Bool} {nbr owner : Nbr}

/-- The count of a neighbor and its destinations move together. -/
def Balanced (nbr : Nbr) (pd : PrefixDescriptor) (counts : Counts) (next : PrefixDescriptor) (last : Counts) : Prop :=
  last.limit_prefix_count nbr + held pd nbr = counts.limit_prefix_count nbr + held next nbr

/-- The count of a neighbor is not below what the destination needs when it is given up. -/
def Covered (nbr : Nbr) (pd : PrefixDescriptor) (counts : Counts) : Prop := held pd nbr ≤ counts.limit_prefix_count nbr

theorem Balanced.still (same : held next nbr = held pd nbr) (count : last.limit_prefix_count nbr = counts.limit_prefix_count nbr) :
    Balanced nbr pd counts next last := by
  unfold Balanced
  omega

theorem Balanced.trans (first : Balanced nbr pd counts middle between) (second : Balanced nbr middle between next last) :
    Balanced nbr pd counts next last := by
  unfold Balanced at *
  omega

theorem Balanced.covered (balanced : Balanced nbr pd counts next last) (covered : Covered nbr pd counts) : Covered nbr next last := by
  unfold Balanced Covered at *
  omega

theorem limit_redist (counts : Counts) (count : Nat) (grows : Prop) [Decidable grows] :
    (if grows then { counts with redist_prefix_count := count } else counts).limit_prefix_count nbr = counts.limit_prefix_count nbr := by
  split <;> rfl

theorem missing_iff : (prefix_descriptor_lookup pd nbr).isNone = true ↔ held pd nbr = 0 := by
  unfold held nbr_prefix_present
  cases prefix_descriptor_lookup pd nbr <;> simp

/-- The insertion of a route that is not stored, counted if it is the neighbor's first. -/
theorem insert_balanced {first_peer_path : Bool} (own : route.adv_router = some owner)
    (first : owner ≠ .self → (first_peer_path = true ↔ held pd owner = 0)) (peer : nbr ≠ .self)
    (done : topology_route_insert granted pd counts route first_peer_path = some (next, last)) : Balanced nbr pd counts next last := by
  unfold topology_route_insert at done
  split at done
  · cases done
  · simp only [own] at done
    cases done
    unfold Balanced
    rw [held_insert,own]
    by_cases same : owner = nbr
    · subst same
      have known := first peer
      by_cases empty : held pd owner = 0
      · simp [known.mpr empty,peer,limit_write_at,empty]
      · have stays : first_peer_path = false := Bool.eq_false_iff.mpr fun grows => empty (known.mp grows)
        have one := held_le pd owner
        simp only [stays,Bool.false_eq_true,false_and,if_false,if_true]
        omega
    · rw [if_neg fun equal => same (Option.some.inj equal)]
      split
      · rw [limit_write_at,if_neg (Ne.symm same)]
      · rfl

theorem insert_limit {first_peer_path : Bool} (apart : route.adv_router ≠ some nbr)
    (done : topology_route_insert granted pd counts route first_peer_path = some (next, last)) :
    last.limit_prefix_count nbr = counts.limit_prefix_count nbr := by
  unfold topology_route_insert at done
  split at done
  · cases done
  · cases owner : route.adv_router with
    | none =>
      simp only [owner] at done
      cases done
      rfl
    | some owned =>
      simp only [owner] at done
      cases done
      split
      · rw [limit_write_at,if_neg fun same => apart (owner.trans (congrArg some same.symm))]
      · rfl

/-- A route that is added is the affair of its owner. -/
theorem added_other (apart : route.adv_router ≠ some nbr) :
    held (route_descriptor_add granted env pd counts route).1 nbr = held pd nbr ∧
      (route_descriptor_add granted env pd counts route).2.limit_prefix_count nbr = counts.limit_prefix_count nbr := by
  cases granted with
  | false => exact ⟨rfl,rfl⟩
  | true =>
    constructor
    · have keys := SameKeys.owners (added_keys env pd route)
      refine (held_congr keys).trans ?_
      rw [held_insert,if_neg apart]
    · unfold route_descriptor_add
      dsimp only
      split
      · rfl
      · rename_i inserted
        exact (limit_redist _ _ _).trans (insert_limit apart inserted)

theorem added_balanced {owner : Nbr} (own : route.adv_router = some owner) (peer : nbr ≠ .self) :
    Balanced nbr pd counts (route_descriptor_add granted env pd counts route).1 (route_descriptor_add granted env pd counts route).2 := by
  cases granted with
  | false => exact .still rfl rfl
  | true =>
    have inserted : ∃ result, topology_route_insert true pd counts route
        (route.adv_router.any fun nbr => (prefix_descriptor_lookup pd nbr).isNone) = some (route_insert pd route, result) := ⟨_,rfl⟩
    obtain ⟨result,done⟩ := inserted
    have linked := insert_balanced own (fun _ => by rw [own,Option.any_some,missing_iff]) peer done
    refine linked.trans (.still ?_ ?_)
    · simp only [route_descriptor_add,done]
      exact held_congr (SameKeys.owners (added_keys env pd route))
    · simp only [route_descriptor_add,done]
      exact limit_redist _ _ _

theorem mem_deleted (store : RouteStore pd) (stored : route ∈ pd.routes) {other : RouteDescriptor} :
    other ∈ (Eigrp.route_descriptor_delete pd route).1.routes ↔ other ∈ pd.routes ∧ other.id ≠ route.id := by
  constructor
  · intro member
    refine ⟨deleted_subset member,fun number => ?_⟩
    have deleted := (@deleted_stored pd route {} store _ stored stored).mpr rfl
    rw [route_descriptor_delete_fst,route_stored_iff.mpr ⟨other,member,number⟩] at deleted
    cases deleted
  · rintro ⟨member,different⟩
    simp only [Eigrp.route_descriptor_delete,PrefixDescriptor.routes,List.mem_append] at member ⊢
    rcases member with near | far
    · left
      split
      · exact near
      · exact List.mem_filter.mpr ⟨near,by simpa using different⟩
    · right
      split
      · exact List.mem_filter.mpr ⟨far,by simpa using different⟩
      · exact far

theorem deleted_limit (store : RouteStore pd) (stored : route ∈ pd.routes) (own : route.adv_router = some owner) :
    (route_descriptor_delete pd counts route).2.limit_prefix_count nbr =
      if held (Eigrp.route_descriptor_delete pd route).1 owner = 0 ∧ owner = nbr then counts.limit_prefix_count nbr - 1
      else counts.limit_prefix_count nbr := by
  have queued : (if route.external then pd.external_routes else pd.internal_routes).any (fun other => other.id = route.id) = true := by
    refine List.any_eq_true.mpr ⟨route,?_,by simp⟩
    rcases List.mem_append.mp stored with near | far
    · rw [store.ordered.internal route near]
      exact near
    · rw [store.ordered.external route far]
      exact far
  simp only [route_descriptor_delete]
  rw [if_pos queued]
  simp only [own]
  by_cases gone : held (Eigrp.route_descriptor_delete pd route).1 owner = 0
  · rw [if_pos (missing_iff.mpr gone),limit_write_at,limit_redist]
    by_cases mine : owner = nbr
    · subst mine
      simp [gone]
    · rw [if_neg (Ne.symm mine),limit_redist,if_neg fun both => mine both.2]
  · rw [if_neg fun missing => gone (missing_iff.mp missing),limit_redist,if_neg fun both => gone both.1]

theorem deleted_held (store : RouteStore pd) (stored : route ∈ pd.routes) (own : route.adv_router ≠ some nbr) :
    held (Eigrp.route_descriptor_delete pd route).1 nbr = held pd nbr := by
  refine held_of_iff ?_
  constructor
  · rintro ⟨other,member,own'⟩
    exact ⟨other,((mem_deleted store stored).mp member).1,own'⟩
  · rintro ⟨other,member,own'⟩
    refine ⟨other,(mem_deleted store stored).mpr ⟨member,fun number => ?_⟩,own'⟩
    rw [store.tidy.unique stored member number] at own'
    exact own own'

/-- What is deleted was counted once, and the last route of a neighbor takes the count with it. -/
theorem deleted_balanced (store : RouteStore pd) (stored : route ∈ pd.routes) (covered : Covered nbr pd counts) (peer : nbr ≠ .self) :
    Balanced nbr pd counts (route_descriptor_delete pd counts route).1 (route_descriptor_delete pd counts route).2 := by
  obtain ⟨owner,own⟩ := Option.ne_none_iff_exists'.mp (store.owned route stored)
  unfold Balanced Covered at *
  rw [deleted_limit store stored own,route_descriptor_delete_fst]
  by_cases mine : owner = nbr
  · subst mine
    have before : held pd owner = 1 := held_eq_one.mpr ⟨route,stored,own⟩
    have after : held (Eigrp.route_descriptor_delete pd route).1 owner = 0 := by
      refine held_eq_zero.mpr fun other member own' => ?_
      obtain ⟨kept,different⟩ := (mem_deleted store stored).mp member
      exact different (store.single owner peer route stored other kept own own')
    rw [if_pos ⟨after,rfl⟩]
    omega
  · have other : route.adv_router ≠ some nbr := fun same => mine (Option.some.inj (own.symm.trans same))
    rw [if_neg fun both => mine both.2,deleted_held store stored other]

/-- The routes of a list that are deleted one after the other stay stored until it is their turn. -/
theorem deleted_rest {rest : List RouteDescriptor} (store : RouteStore pd) (stored : ∀ other ∈ route :: rest, other ∈ pd.routes)
    (different : ((route :: rest).map (·.id)).Nodup) : ∀ other ∈ rest, other ∈ (route_descriptor_delete pd counts route).1.routes := by
  intro other member
  rw [route_descriptor_delete_fst]
  refine (mem_deleted store (stored route List.mem_cons_self)).mpr ⟨stored other (List.mem_cons_of_mem _ member),fun number => ?_⟩
  exact (List.nodup_cons.mp different).1 (List.mem_map.mpr ⟨other,member,number⟩)

theorem delete_unreachable_balanced {routes : List RouteDescriptor} (store : RouteStore pd) (stored : ∀ other ∈ routes, other ∈ pd.routes)
    (different : (routes.map (·.id)).Nodup) (covered : Covered nbr pd counts) (peer : nbr ≠ .self) :
    Balanced nbr pd counts (delete_unreachable routes pd counts).1 (delete_unreachable routes pd counts).2 := by
  induction routes generalizing pd counts with
  | nil => exact .still rfl rfl
  | cons route routes ih =>
    have rest := (List.nodup_cons.mp different).2
    unfold delete_unreachable
    split
    · have deleted := deleted_balanced store (stored route List.mem_cons_self) covered peer
      exact deleted.trans (ih (deleted_store store route) (deleted_rest store stored different) rest (deleted.covered covered))
    · exact ih store (fun other member => stored other (List.mem_cons_of_mem _ member)) rest covered

theorem routes_delete_balanced {routes : List RouteDescriptor} (store : RouteStore pd) (stored : ∀ other ∈ routes, other ∈ pd.routes)
    (different : (routes.map (·.id)).Nodup) (covered : Covered nbr pd counts) (peer : nbr ≠ .self)
    (done : routes.foldl (fun (pd, counts) route => route_descriptor_delete pd counts route) (pd, counts) = (next, last)) :
    Balanced nbr pd counts next last ∧ ∀ other ∈ next.routes, other ∈ pd.routes ∧ other ∉ routes := by
  induction routes generalizing pd counts with
  | nil =>
    cases done
    exact ⟨.still rfl rfl,fun other member => ⟨member,List.not_mem_nil⟩⟩
  | cons route routes ih =>
    have here := stored route List.mem_cons_self
    have deleted := deleted_balanced store here covered peer
    obtain ⟨balanced,left⟩ := ih (deleted_store store route) (deleted_rest store stored different) (List.nodup_cons.mp different).2
      (deleted.covered covered) done
    refine ⟨deleted.trans balanced,fun other member => ?_⟩
    obtain ⟨kept,apart⟩ := left other member
    rw [route_descriptor_delete_fst] at kept
    obtain ⟨earlier,number⟩ := (mem_deleted store here).mp kept
    refine ⟨earlier,fun listed => ?_⟩
    rcases List.mem_cons.mp listed with rfl | later
    · exact number rfl
    · exact apart later

/-- A destination that is given up gives back what was counted for it. -/
theorem given_back (store : RouteStore pd) (covered : Covered nbr pd counts) (peer : nbr ≠ .self) :
    (routes_delete pd counts).2.limit_prefix_count nbr + held pd nbr = counts.limit_prefix_count nbr := by
  obtain ⟨balanced,left⟩ := routes_delete_balanced store (fun _ member => member) store.tidy.numbers covered peer
    (Prod.mk.eta (p := routes_delete pd counts)).symm
  have empty : held (routes_delete pd counts).1 nbr = 0 :=
    held_eq_zero.mpr fun other member _ => (left other member).2 (left other member).1
  unfold Balanced at balanced
  omega

end Balances

/-! ## Turns -/

section Turns
variable {env : Env} {memory : Memory} {pd next : PrefixDescriptor} {msg : Msg} {route after : RouteDescriptor}
  {counts last : Counts} {granted : Bool} {handed : Handed} {id : Nat} {nbr owner : Nbr} {change : MetricChange}
  {out : List Effect} {turn : Turn}

theorem run_identity (done : handed_run env counts handed = some (next, last)) : SameIdentity handed.pd next := by
  have ran := handed_run_fst env counts handed
  rw [done,Option.map_some] at ran
  unfold Handed.run at ran
  split at ran
  · obtain ⟨⟨result,out⟩,event,rfl⟩ := Option.map_eq_some_iff.mp ran.symm
    obtain ⟨current,_,after,_,measured,outcome⟩ := fsm_event_outcome event
    have linked := (update_distance_linking measured).rerouted.control.identity
    exact (linked.trans (discharge_identity current _ _)).trans (outcome_identity outcome)
  · obtain ⟨⟨result,_,_,_⟩,measured,rfl⟩ := Option.map_eq_some_iff.mp ran.symm
    exact (update_distance_linking measured).rerouted.control.identity

/-- What comes in front of a message leaves the routes of the other routers as they are. -/
structure Fronts (pd : PrefixDescriptor) (counts : Counts) (handed : Handed) (last : Counts) : Prop where
  identity : SameIdentity pd handed.pd
  held : ∀ nbr, nbr ≠ .self → held handed.pd nbr = held pd nbr
  limit : ∀ nbr, nbr ≠ .self → last.limit_prefix_count nbr = counts.limit_prefix_count nbr

theorem write_held {update : RouteDescriptor → RouteDescriptor}
    (kept : ∀ other ∈ pd.routes, other.id = id → (update other).adv_router = other.adv_router) :
    held (route_write pd id update) nbr = held pd nbr := by
  refine held_congr ?_
  simp only [route_write,PrefixDescriptor.routes,← List.map_append,List.map_map]
  refine List.map_congr_left fun other member => ?_
  simp only [Function.comp]
  split
  · rename_i number
    exact kept other member number
  · rfl

theorem receive_fronts (packet_type : Opcode) (tlv : Tlv) (metrics : Metrics) (admitted : Bool) :
    Fronts pd counts (received_handed pd packet_type owner tlv metrics admitted) counts := by
  unfold received_handed
  cases prefix_descriptor_lookup pd owner with
  | some route => exact ⟨⟨rfl,rfl⟩,fun _ _ => write_held fun _ _ _ => rfl,fun _ _ => rfl⟩
  | none => exact ⟨⟨rfl,rfl⟩,fun _ _ => rfl,fun _ _ => rfl⟩

theorem about_fronts (fresh : RouteDescriptor) (transient_route : Bool) :
    Fronts pd counts (about_handed pd msg owner fresh transient_route) counts := by
  unfold about_handed
  cases prefix_descriptor_lookup pd owner <;> exact ⟨⟨rfl,rfl⟩,fun _ _ => rfl,fun _ _ => rfl⟩

theorem received_fronts {made : Call} (found : received_message env pd made = some handed) : Fronts pd counts handed counts := by
  cases made with
  | update_receive nbr received =>
    simp only [received_message] at found
    split at found
    · cases found
    · cases found
      exact receive_fronts _ _ _ _
  | query_receive nbr received =>
    simp only [received_message] at found
    split at found
    · cases found
    · split at found
      · split at found
        · cases found
        · obtain ⟨previous,known,rfl⟩ := Option.map_eq_some_iff.mp found
          exact ⟨⟨rfl,rfl⟩,fun _ _ => write_held fun _ _ _ => rfl,fun _ _ => rfl⟩
      · cases found
        exact receive_fronts _ _ _ _
  | reply_receive nbr received =>
    simp only [received_message] at found
    split at found
    · cases found
    · cases found
      exact receive_fronts _ _ _ _
  | siaquery_receive nbr received =>
    simp only [received_message] at found
    cases found
    exact receive_fronts _ _ _ _
  | siareply_receive nbr received =>
    simp only [received_message] at found
    split at found
    · cases found
    · cases found
      exact about_fronts _ _
  | gr_ask nbr =>
    simp only [received_message] at found
    cases found
    exact about_fronts _ _
  | neighbor_down nbr =>
    simp only [received_message] at found
    obtain ⟨route,known,rfl⟩ := Option.map_eq_some_iff.mp found
    exact ⟨⟨rfl,rfl⟩,fun _ _ => rfl,fun _ _ => rfl⟩
  | redistributed_remove source =>
    simp only [received_message] at found
    obtain ⟨route,known,rfl⟩ := Option.map_eq_some_iff.mp found
    exact ⟨⟨rfl,rfl⟩,fun _ _ => rfl,fun _ _ => rfl⟩
  | _ => simp [received_message] at found

theorem added_identity : SameIdentity pd (route_descriptor_add granted env pd counts route).1 := by
  rcases @route_descriptor_add_cases env pd route counts granted with ⟨_,same⟩ | ⟨_,same⟩
  · rw [same]
    exact (route_descriptor_add_rerouted env pd route).control.identity
  · rw [same]
    exact .refl pd

theorem intf_up_fronts (store : RouteStore pd) (ei : Nat) :
    Fronts pd counts (intf_up_handed memory env pd counts ei).1 (intf_up_handed memory env pd counts ei).2 := by
  have deleted : SameIdentity pd (intf_up_delete pd counts ei).1 ∧ ∀ nbr, nbr ≠ .self →
      held (intf_up_delete pd counts ei).1 nbr = held pd nbr ∧
        (intf_up_delete pd counts ei).2.limit_prefix_count nbr = counts.limit_prefix_count nbr := by
    unfold intf_up_delete
    cases found : prefix_descriptor_lookup pd .self with
    | none => exact ⟨.refl pd,fun _ _ => ⟨rfl,rfl⟩⟩
    | some old_local =>
      obtain ⟨stored,own⟩ := lookup_stored found
      dsimp only
      split
      · rw [route_descriptor_delete_fst]
        refine ⟨(route_descriptor_delete_rerouted pd old_local).control.identity,fun nbr peer => ⟨?_,?_⟩⟩
        · exact deleted_held store stored fun same => peer (Option.some.inj (same.symm.trans own))
        · rw [deleted_limit store stored own,if_neg fun both => peer both.2.symm]
      · exact ⟨.refl pd,fun _ _ => ⟨rfl,rfl⟩⟩
  unfold intf_up_handed
  dsimp only
  refine ⟨deleted.1.trans ⟨added_identity.id,added_identity.destination⟩,fun nbr peer => ?_,fun nbr peer => ?_⟩
  · exact (added_other fun same => peer (Option.some.inj same).symm).1.trans (deleted.2 nbr peer).1
  · exact (added_other fun same => peer (Option.some.inj same).symm).2.trans (deleted.2 nbr peer).2

theorem redistributed_update_fronts (store : RouteStore pd) (source : Source) (metric : Metrics) :
    Fronts pd counts (redistributed_update_handed memory env pd counts source metric).1
      (redistributed_update_handed memory env pd counts source metric).2 := by
  unfold redistributed_update_handed
  cases found : redistributed_route_lookup pd source with
  | some route =>
    have stored : route ∈ pd.routes := List.mem_append_right _ (List.mem_of_find?_eq_some found)
    have sought := List.find?_some found
    simp only [decide_eq_true_eq] at sought
    refine ⟨⟨rfl,rfl⟩,fun nbr peer => write_held fun other member number => ?_,fun _ _ => rfl⟩
    rw [store.tidy.unique stored member number]
    exact sought.1.symm
  | none =>
    dsimp only
    let start : PrefixDescriptor := { pd with next_route := pd.next_route + 1 }
    let fresh : RouteDescriptor := { id := pd.next_route, external := true, adv_router := some .self }
    have added {nbr : Nbr} (peer : nbr ≠ .self) : held (route_descriptor_add (memory.added fresh.id) env start counts fresh).1 nbr =
        held start nbr ∧ (route_descriptor_add (memory.added fresh.id) env start counts fresh).2.limit_prefix_count nbr =
          counts.limit_prefix_count nbr := added_other fun same => peer (Option.some.inj same).symm
    refine ⟨⟨added_identity.id,added_identity.destination⟩,fun nbr peer => ?_,fun nbr peer => (added peer).2⟩
    refine (write_held fun other member number => ?_).trans (added peer).1
    have new : ∀ other ∈ pd.routes, other.id ≠ pd.next_route := bounded_new store
    rcases @route_descriptor_add_cases env start fresh counts (memory.added pd.next_route) with ⟨_,same⟩ | ⟨_,same⟩
    · rw [same] at member
      obtain ⟨old,stored,key⟩ := (added_keys env _ _).member member
      obtain ⟨numbers,_,_,owners⟩ := key_fields key
      rcases mem_routes_insert.mp stored with rfl | earlier
      · exact owners
      · exact absurd (numbers.trans number) (new old earlier)
    · rw [same] at member
      exact absurd number (new other member)

theorem turn_fronts (store : RouteStore pd) (found : turn.handed memory env pd counts = some (handed, last)) :
    Fronts pd counts handed last := by
  cases turn with
  | call made =>
    cases made with
    | intf_up ei =>
      cases found
      exact intf_up_fronts store ei
    | redistributed_update source metric =>
      cases found
      exact redistributed_update_fronts store source metric
    | _ =>
      rw [handed_received (by simp) (by simp)] at found
      obtain ⟨received,message,same⟩ := Option.map_eq_some_iff.mp found
      cases same
      exact received_fronts message
  | withdraw id =>
    obtain ⟨route,known,same⟩ := Option.map_eq_some_iff.mp found
    cases same
    exact ⟨.refl pd,fun _ _ => rfl,fun _ _ => rfl⟩

theorem finish_identity (turn : Turn) : SameIdentity next (turn.finish pd next) := by
  have marked : SameIdentity next (redistributed_update_mark next).1 := by
    unfold redistributed_update_mark
    split <;> exact ⟨rfl,rfl⟩
  cases turn with
  | call made =>
    cases made with
    | redistributed_update source metric =>
      change SameIdentity next (redistributed_finish pd source next)
      unfold redistributed_finish
      dsimp only
      split
      · exact marked
      · exact .refl next
    | _ => exact .refl next
  | withdraw id => exact .refl next

theorem message_identity (done : turn.message env pd handed counts = some (next, last)) : SameIdentity handed.pd next := by
  obtain ⟨⟨result,left⟩,ran,finished⟩ := Option.bind_eq_some_iff.mp done
  cases finished
  exact (run_identity ran).trans (finish_identity turn)

/-- The message of a turn, with what it strands. -/
theorem message_counted (ready : Ready handed) (peer : nbr ≠ .self)
    (done : turn.message env pd handed counts = some (next, last)) :
    last.limit_prefix_count nbr + held handed.pd nbr = counts.limit_prefix_count nbr + held next nbr +
      (decide (handed.route.adv_router = some nbr) && loses env handed).toNat := by
  obtain ⟨⟨result,left⟩,ran,finished⟩ := Option.bind_eq_some_iff.mp done
  cases finished
  rw [queues_held (finish_queues turn)]
  exact run_counted ready peer ran

/-- The local routes of a list of numbers. -/
def Local (ids : List Nat) (pd : PrefixDescriptor) : Prop := ∀ route ∈ pd.routes, route.id ∈ ids → route.adv_router = some .self

theorem message_local {ids : List Nat} (locals : Local ids handed.pd) (own : handed.route.adv_router = some .self)
    (done : turn.message env pd handed counts = some (next, last)) : Local ids next := by
  obtain ⟨⟨result,left⟩,ran,finished⟩ := Option.bind_eq_some_iff.mp done
  cases finished
  obtain ⟨current,same,linked⟩ := run_linked ran
  have listed : Local ids current := by
    intro route member number
    rcases linked with ⟨_,rfl⟩ | ⟨_,_,after,measured,rfl⟩ | ⟨_,_,rfl⟩
    · exact locals route member number
    · rcases mem_routes_insert.mp member with rfl | earlier
      · exact (measured_owner measured (by simp [own])).trans own
      · exact locals route (mem_routes_unlink.mp earlier).1 number
    · exact locals route (mem_routes_unlink.mp member).1 number
  intro route member number
  obtain ⟨old,stored,key⟩ := (same.trans (finish_queues turn)).keys.member member
  obtain ⟨numbers,_,_,owners⟩ := key_fields key
  exact owners.symm.trans (listed old stored (numbers ▸ number))

theorem down_local (store : RouteStore pd) (ei : Nat) :
    Local ((pd.routes.filter fun route => route.adv_router = some .self ∧ route.ei = some ei).map (·.id)) pd := by
  intro route member number
  obtain ⟨down,listed,same⟩ := List.mem_map.mp number
  obtain ⟨stored,own⟩ := List.mem_filter.mp listed
  have equal := store.tidy.unique member stored same
  simp only [decide_eq_true_eq] at own
  exact equal ▸ own.1

theorem connected_routes_down_counted {ids : List Nat} (store : RouteStore pd) (locals : Local ids pd) (peer : nbr ≠ .self)
    (done : connected_routes_down memory env ids pd counts = some (next, last)) :
    SameIdentity pd next ∧ Balanced nbr pd counts next last ∧ last.limit_prefix_count nbr = counts.limit_prefix_count nbr := by
  induction ids generalizing pd counts with
  | nil =>
    cases done
    exact ⟨.refl _,.still rfl rfl,rfl⟩
  | cons id ids ih =>
    obtain ⟨⟨handed,left⟩,found,first⟩ := Option.bind_eq_some_iff.mp done
    obtain ⟨⟨result,rest⟩,ran,later⟩ := Option.bind_eq_some_iff.mp first
    have ready := turn_ready store found
    have identity := message_identity ran
    have counted := message_counted ready peer ran
    have stored := message_store ready ran
    obtain ⟨route,known,same⟩ := Option.map_eq_some_iff.mp found
    cases same
    have here : route ∈ pd.routes := List.mem_of_find?_eq_some known
    have number : route.id = id := by simpa using List.find?_some known
    have own := locals route here (number ▸ List.mem_cons_self)
    have tail : Local ids pd := fun other member listed => locals other member (List.mem_cons_of_mem _ listed)
    obtain ⟨same,balanced,kept⟩ := ih stored (message_local tail own ran) later
    have apart : route.adv_router ≠ some nbr := fun mine => peer (Option.some.inj (mine.symm.trans own))
    refine ⟨identity.trans same,Balanced.trans ?_ balanced,kept.trans ?_⟩
    · simpa [Balanced,apart] using counted
    · obtain ⟨⟨middle,between⟩,moved,finished⟩ := Option.bind_eq_some_iff.mp ran
      cases finished
      have limit := run_limit nbr moved (by simp [own])
      simpa [apart] using limit

theorem query_route_record_identity {received : Received} (done : query_route_record memory env pd counts owner received = some (next, last)) :
    SameIdentity pd next := by
  obtain ⟨route,recorded,finished⟩ := Option.bind_eq_some_iff.mp done
  dsimp only at finished
  unfold topology_route_insert at finished
  split at finished
  · cases finished
    exact ⟨rfl,rfl⟩
  · cases finished
    obtain ⟨id,destination⟩ := (route_insert_rerouted { pd with next_route := pd.next_route + 1 } route).control.identity
    exact ⟨id,destination⟩

theorem query_route_record_balanced {received : Received} (missing : prefix_descriptor_lookup pd owner = none)
    (done : query_route_record memory env pd counts owner received = some (next, last)) (peer : nbr ≠ .self) :
    Balanced nbr pd counts next last := by
  obtain ⟨route,recorded,finished⟩ := Option.bind_eq_some_iff.mp done
  have learned : route.adv_router = some owner := by
    obtain ⟨ei,_,rfl⟩ := Option.map_eq_some_iff.mp recorded
    rfl
  let start : PrefixDescriptor := { pd with next_route := pd.next_route + 1 }
  have empty : held start owner = 0 := missing_iff.mp (Option.isNone_iff_eq_none.mpr missing)
  have numbered : Balanced nbr pd counts start counts := .still rfl rfl
  refine numbered.trans ?_
  dsimp only at finished
  cases inserted : topology_route_insert (memory.added route.id) start counts route true with
  | none =>
    rw [inserted] at finished
    cases finished
    exact .still rfl rfl
  | some result =>
    rw [inserted] at finished
    cases finished
    exact insert_balanced learned (fun _ => by simp [empty]) peer inserted

theorem metric_update_held : held (metric_update_pd env pd).1 nbr = held pd nbr := by
  have listed {queue : List RouteDescriptor} : (∃ other ∈ queue_resort (queue.map (route_refresh env)), other.adv_router = some nbr) ↔
      ∃ other ∈ queue, other.adv_router = some nbr := by
    constructor
    · rintro ⟨other,member,owner⟩
      obtain ⟨old,stored,rfl⟩ := List.mem_map.mp ((List.mem_insertionSort _).mp member)
      exact ⟨old,stored,(route_refresh_owned env old).2.symm.trans owner⟩
    · rintro ⟨old,stored,owner⟩
      exact ⟨route_refresh env old,(List.mem_insertionSort _).mpr (List.mem_map_of_mem stored),(route_refresh_owned env old).2.trans owner⟩
  have refreshed : held (metric_refreshed env pd) nbr = held pd nbr := by
    refine held_of_iff ?_
    simp only [PrefixDescriptor.routes,List.mem_append,or_and_right,exists_or]
    exact or_congr listed listed
  rcases metric_update_cases env pd with ⟨_,same⟩ | ⟨_,same⟩ | ⟨_,committed⟩
  · rw [same]
  · rw [same]
    exact refreshed
  · rw [committed]
    have chosen : SameQueues (metric_refreshed env pd) (metric_committed (metric_refreshed env pd)) := by
      unfold metric_committed
      split <;> exact ⟨rfl,rfl,rfl⟩
    exact (queues_held (chosen.trans (refreshed_table_queues env (metric_committed (metric_refreshed env pd))))).trans refreshed

theorem quiet_counted (store : RouteStore pd) {made : Call} (quiet : (Turn.call made).handed memory env pd counts = none)
    (other : ∀ ei, made ≠ .connected_interface_down ei) (covered : Covered nbr pd counts) (peer : nbr ≠ .self)
    (done : quiet_call memory env pd counts made = some (next, last)) : Balanced nbr pd counts next last := by
  rcases quiet_cases quiet other done with ⟨_,retired⟩ | ⟨owner,received,_,missing,recorded⟩ | ⟨_,rfl,rfl⟩ | ⟨_,same,rfl⟩
  · unfold update_topology_table_prefix at retired
    split at retired
    · cases retired
      exact .still rfl rfl
    · have balanced := delete_unreachable_balanced store (fun _ member => member) store.tidy.numbers covered peer
      rwa [retired] at balanced
  · exact query_route_record_balanced missing recorded peer
  · exact .still metric_update_held rfl
  · exact .still (queues_held same) rfl

theorem quiet_identity {made : Call} (done : quiet_call memory env pd counts made = some (next, last)) : SameIdentity pd next := by
  have kept (plain : quiet_call memory env pd counts made = (Eigrp.exec env pd made).map fun result => (result.1,counts)) :
      SameIdentity pd next := by
    rw [plain] at done
    obtain ⟨⟨result,out⟩,ran,finished⟩ := Option.map_eq_some_iff.mp done
    cases finished
    exact exec_identity ran
  cases made with
  | query_receive nbr received =>
    simp only [quiet_call] at done
    split at done
    · exact query_route_record_identity done
    · cases done
      exact .refl pd
  | retire =>
    simp only [quiet_call,Option.some.injEq] at done
    have retired := congrArg Prod.fst done
    rw [update_topology_table_prefix_fst] at retired
    subst retired
    exact (retire_rerouted pd).control.identity
  | _ => exact kept rfl

/-- A turn moves the count of a neighbor with its routes, but for one that it strands. -/
theorem turn_counted (store : RouteStore pd) (covered : Covered nbr pd counts) (peer : nbr ≠ .self)
    (done : turn.exec memory env pd counts = some (next, last)) :
    SameIdentity pd next ∧ last.limit_prefix_count nbr + held pd nbr =
      counts.limit_prefix_count nbr + held next nbr + (turn.strands memory env pd counts nbr).toNat := by
  unfold Turn.exec at done
  unfold Turn.strands
  cases found : turn.handed memory env pd counts with
  | some result =>
    obtain ⟨handed,left⟩ := result
    rw [found] at done
    dsimp only at done
    have fronts := turn_fronts store found
    have counted := message_counted (turn_ready store found) peer done
    have same := fronts.held nbr peer
    have kept := fronts.limit nbr peer
    refine ⟨fronts.identity.trans (message_identity done),?_⟩
    rw [Option.any_some]
    dsimp only
    omega
  | none =>
    rw [found] at done
    have silent {next : PrefixDescriptor} {last : Counts} (balanced : Balanced nbr pd counts next last) :
        last.limit_prefix_count nbr + held pd nbr = counts.limit_prefix_count nbr + held next nbr +
          ((none : Option (Handed × Counts)).any fun (handed, _) =>
            decide (handed.route.adv_router = some nbr) && loses env handed).toNat := balanced
    cases turn with
    | withdraw id => cases done
    | call made =>
      cases made with
      | connected_interface_down ei =>
        obtain ⟨identity,balanced,_⟩ := connected_routes_down_counted store (down_local store ei) peer done
        exact ⟨identity,silent balanced⟩
      | _ => exact ⟨quiet_identity done,silent (quiet_counted store found (by simp) covered peer done)⟩

end Turns

/-! ## Creation -/

section Creation
variable {env : Env} {memory : Memory} {pd : PrefixDescriptor} {counts last : Counts} {id : Nat} {creation : Creation}
  {created : Option PrefixDescriptor} {nbr : Nbr}

theorem routes_add_balanced {routes : List RouteDescriptor} (own : ∀ route ∈ routes, route.adv_router = some .self) (peer : nbr ≠ .self) :
    SameIdentity pd (routes_add memory env routes pd counts).1 ∧
      Balanced nbr pd counts (routes_add memory env routes pd counts).1 (routes_add memory env routes pd counts).2 := by
  induction routes generalizing pd counts with
  | nil => exact ⟨.refl pd,.still rfl rfl⟩
  | cons route routes ih =>
    obtain ⟨identity,balanced⟩ := @ih (route_descriptor_add (memory.added route.id) env pd counts route).1
      (route_descriptor_add (memory.added route.id) env pd counts route).2 fun other member => own other (List.mem_cons_of_mem _ member)
    exact ⟨added_identity.trans identity,(added_balanced (own route List.mem_cons_self) peer).trans balanced⟩

/-- What is created is counted for whom it was learned from. -/
theorem create_counted (peer : nbr ≠ .self) (done : create memory env id counts creation = some (created, last)) :
    (∀ pd ∈ created, pd.id = id ∧ pd.destination = creation.destination) ∧
      last.limit_prefix_count nbr = counts.limit_prefix_count nbr + (created.map fun pd => held pd nbr).getD 0 := by
  have made {start next : PrefixDescriptor} {last : Counts} {destination : Prefix} (empty : start.routes = [])
      (fresh : start.id = id ∧ start.destination = destination) (identity : SameIdentity start next)
      (balanced : Balanced nbr start counts next last) :
      (∀ pd ∈ some next, pd.id = id ∧ pd.destination = destination) ∧
        last.limit_prefix_count nbr = counts.limit_prefix_count nbr + ((some next).map fun pd => held pd nbr).getD 0 := by
    have none : held start nbr = 0 := held_eq_zero.mpr (by simp [empty])
    unfold Balanced at balanced
    refine ⟨?_,by simpa [none] using balanced⟩
    rintro pd member
    cases member
    exact ⟨identity.id.trans fresh.1,identity.destination.trans fresh.2⟩
  have flagged (next : PrefixDescriptor) (reported_metric : Metrics) :
      SameQueues next { update_node_flags env { next with reported_metric } with need_update := true } := by
    obtain ⟨internal,external,number⟩ := update_node_flags_queues env { next with reported_metric }
    exact ⟨internal,external,number⟩
  have marked (next : PrefixDescriptor) : SameIdentity next (redistributed_update_mark next).1 ∧
      SameQueues next (redistributed_update_mark next).1 := by
    unfold redistributed_update_mark
    split <;> exact ⟨⟨rfl,rfl⟩,⟨rfl,rfl,rfl⟩⟩
  cases creation with
  | update owner received =>
    obtain ⟨⟨result,left⟩,built,same⟩ := Option.map_eq_some_iff.mp done
    cases same
    obtain ⟨learned,found,finished⟩ := Option.bind_eq_some_iff.mp built
    obtain ⟨_,_,rfl⟩ := Option.map_eq_some_iff.mp found
    cases finished
    refine made ?_ ?_ (added_identity.trans (announced_control env _ _).identity)
      ((added_balanced (show Option.some owner = some owner from rfl) peer).trans (.still (queues_held (flagged _ _)) rfl))
    · rfl
    · exact ⟨rfl,rfl⟩
  | query owner received =>
    obtain ⟨route,found,finished⟩ := Option.bind_eq_some_iff.mp done
    have learned : route.adv_router = some owner := by
      obtain ⟨_,_,rfl⟩ := Option.map_eq_some_iff.mp found
      rfl
    dsimp only at finished
    split at finished
    · rename_i inserted
      cases finished
      refine made ?_ ?_ ?_ (insert_balanced learned (fun _ => ?_) peer inserted)
      · rfl
      · exact ⟨rfl,rfl⟩
      · unfold topology_route_insert at inserted
        split at inserted
        · cases inserted
        · cases inserted
          exact (route_insert_rerouted _ route).control.identity
      · exact iff_of_true rfl (held_eq_zero.mpr (by simp [PrefixDescriptor.routes]))
    · cases finished
      exact ⟨by simp,rfl⟩
  | connected destination ei =>
    cases done
    exact made rfl ⟨rfl,rfl⟩ added_identity (added_balanced (show Option.some Nbr.self = some .self from rfl) peer)
  | redistributed destination source metric =>
    cases done
    refine made ?_ ?_ (added_identity.trans (marked _).1)
      ((added_balanced (show Option.some Nbr.self = some .self from rfl) peer).trans (.still (queues_held (marked _).2) rfl))
    · rfl
    · exact ⟨rfl,rfl⟩
  | connected_recreate cleared =>
    cases done
    obtain ⟨identity,balanced⟩ := @routes_add_balanced env memory
      { id, destination := cleared.destination, nt := cleared.nt, reported_metric := cleared.reported_metric, distance := cleared.distance
        fdistance := cleared.fdistance, rdistance := cleared.rdistance, next_route := cleared.next_route } counts nbr
      (cleared.internal_routes.filter fun route => route.adv_router = some .self)
      (fun route member => by simpa using (List.mem_filter.mp member).2) peer
    refine made ?_ ?_ identity balanced
    · rfl
    · exact ⟨rfl,rfl⟩
  | remote_requery cleared =>
    cases done
    exact made (show (Eigrp.remote_requery id cleared).1.routes = [] from rfl) ⟨rfl,rfl⟩ (.refl _) (.still rfl rfl)

end Creation

/-! ## Tables -/

section Tables
variable {env : Env} {memory : Memory} {table next : Table} {pd : PrefixDescriptor} {id : Nat} {nbr : Nbr} {operation : Operation}
  {stranded : Nbr → Nat} {prefixes front back : List PrefixDescriptor}

/-- The books of a table: no two descriptors have a number in common, a destination is found once, and the count of a neighbor is
    what a walk over all descriptors finds and what has been stranded. -/
structure Accounted (table : Table) (stranded : Nbr → Nat) : Prop where
  stores : ∀ pd ∈ table.descriptors, RouteStore pd
  numbers : (table.descriptors.map (·.id)).Nodup
  destinations : (table.prefixes.map (·.destination)).Nodup
  counted : ∀ nbr, nbr ≠ .self → table.counts.limit_prefix_count nbr = nbr_prefix_walk nbr table.descriptors + stranded nbr

theorem walk_append : nbr_prefix_walk nbr (front ++ back) = nbr_prefix_walk nbr front + nbr_prefix_walk nbr back := List.countP_append

theorem walk_cons : nbr_prefix_walk nbr (pd :: back) = held pd nbr + nbr_prefix_walk nbr back := by
  unfold nbr_prefix_walk held
  rw [List.countP_cons,Nat.add_comm]
  cases nbr_prefix_present pd nbr <;> rfl

theorem walk_created (created : Option PrefixDescriptor) :
    nbr_prefix_walk nbr created.toList = (created.map fun pd => held pd nbr).getD 0 := by
  cases created with
  | none => rfl
  | some pd =>
    rw [Option.toList_some,walk_cons]
    rfl

/-- The destination with a number, and those beside it. -/
theorem find_split (numbers : (prefixes.map (·.id)).Nodup) (found : prefixes.find? (fun pd => pd.id = id) = some pd) :
    ∃ front back, prefixes = front ++ pd :: back ∧ pd.id = id ∧ ∀ other ∈ front ++ back, other.id ≠ id := by
  obtain ⟨front,back,rfl⟩ := List.append_of_mem (List.mem_of_find?_eq_some found)
  have number : pd.id = id := by simpa using List.find?_some found
  refine ⟨front,back,rfl,number,fun other member same => ?_⟩
  rw [List.map_append,List.map_cons] at numbers
  have apart := (List.nodup_cons.mp (List.nodup_middle.mp numbers)).1
  rw [← List.map_append] at apart
  exact apart (List.mem_map.mpr ⟨other,member,same.trans number.symm⟩)

theorem without_split (number : pd.id = id) (apart : ∀ other ∈ front ++ back, other.id ≠ id) :
    without id (front ++ pd :: back) = front ++ back := by
  have kept {list : List PrefixDescriptor} (within : ∀ other ∈ list, other.id ≠ id) : without id list = list :=
    List.filter_eq_self.mpr fun other member => by simpa using within other member
  unfold without
  rw [List.filter_append,List.filter_cons_of_neg (by simp [number])]
  exact congrArg₂ (· ++ ·) (kept fun other member => apart other (List.mem_append_left _ member))
    (kept fun other member => apart other (List.mem_append_right _ member))

theorem replace_split (number : pd.id = id) (apart : ∀ other ∈ front ++ back, other.id ≠ id) (left : PrefixDescriptor) :
    (front ++ pd :: back).map (fun pd => if pd.id = id then left else pd) = front ++ left :: back := by
  have kept {list : List PrefixDescriptor} (within : ∀ other ∈ list, other.id ≠ id) :
      list.map (fun pd => if pd.id = id then left else pd) = list :=
    (List.map_congr_left fun other member => if_neg (within other member)).trans (List.map_id list)
  rw [List.map_append,List.map_cons,if_pos number,kept fun other member => apart other (List.mem_append_left _ member),
    kept fun other member => apart other (List.mem_append_right _ member)]

theorem walk_perm (perm : front.Perm back) : nbr_prefix_walk nbr front = nbr_prefix_walk nbr back := perm.countP_eq _

/-- What is taken out of a list held what it held for the walk. -/
theorem walk_without (numbers : (prefixes.map (·.id)).Nodup) (nbr : Nbr) : nbr_prefix_walk nbr prefixes = nbr_prefix_walk nbr (without id prefixes) +
    ((prefixes.find? fun pd => pd.id = id).any fun pd => nbr_prefix_present pd nbr).toNat := by
  cases found : prefixes.find? fun pd => pd.id = id with
  | none =>
    have kept : without id prefixes = prefixes := by
      refine List.filter_eq_self.mpr fun other member => ?_
      simpa using List.find?_eq_none.mp found other member
    rw [kept]
    rfl
  | some pd =>
    obtain ⟨front,back,rfl,number,apart⟩ := find_split numbers found
    rw [without_split number apart,walk_append,walk_append,walk_cons,Option.any_some,held]
    omega

/-- What is detached is not lost. -/
theorem detached_perm (numbers : (prefixes.map (·.id)).Nodup) (found : prefixes.find? (fun pd => pd.id = id) = some pd)
    (rest : List PrefixDescriptor) : (without id prefixes ++ (rest ++ [pd])).Perm (prefixes ++ rest) := by
  obtain ⟨front,back,rfl,number,apart⟩ := find_split numbers found
  rw [without_split number apart,← List.append_assoc]
  have moved : (front ++ back ++ rest ++ [pd]).Perm (pd :: (front ++ back ++ rest)) := List.perm_append_singleton _ _
  have back_again : (front ++ pd :: back ++ rest).Perm (pd :: (front ++ back ++ rest)) :=
    List.Perm.append_right rest List.perm_middle
  exact moved.trans back_again.symm

theorem created_perm (created rest : List PrefixDescriptor) : (prefixes ++ created ++ rest).Perm (prefixes ++ rest ++ created) := by
  rw [List.append_assoc,List.append_assoc]
  exact List.perm_append_comm.append_left prefixes

/-- A descriptor that is written keeps its number and its destination. -/
theorem written_keys {α : Type} {key : PrefixDescriptor → α} {left : PrefixDescriptor}
    (kept : ∀ other ∈ prefixes, other.id = id → key left = key other) :
    (prefixes.map fun pd => if pd.id = id then left else pd).map key = prefixes.map key := by
  rw [List.map_map]
  refine List.map_congr_left fun other member => ?_
  simp only [Function.comp]
  split
  · rename_i number
    exact kept other member number
  · rfl

theorem Accounted.unique (accounted : Accounted table stranded) {other : PrefixDescriptor} (member : pd ∈ table.descriptors)
    (present : other ∈ table.descriptors) (same : other.id = pd.id) : other = pd :=
  List.inj_on_of_nodup_map accounted.numbers present member same

theorem Accounted.live (accounted : Accounted table stranded) : (table.prefixes.map (·.id)).Nodup :=
  accounted.numbers.sublist ((List.sublist_append_left _ _).map _)

theorem Accounted.covered (accounted : Accounted table stranded) (peer : nbr ≠ .self) (member : pd ∈ table.descriptors) :
    Covered nbr pd table.counts := by
  obtain ⟨front,back,split⟩ := List.append_of_mem member
  have counted := accounted.counted nbr peer
  rw [split,walk_append,walk_cons] at counted
  unfold Covered
  omega

theorem delete_unreachable_lasts (routes : List RouteDescriptor) (pd : PrefixDescriptor) :
    Effect.detach ∉ (Eigrp.delete_unreachable routes pd).2 := by
  induction routes generalizing pd with
  | nil => exact List.not_mem_nil
  | cons route routes ih =>
    unfold Eigrp.delete_unreachable
    split
    · intro member
      rcases List.mem_append.mp member with deleted | later
      · unfold Eigrp.route_descriptor_delete at deleted
        dsimp only at deleted
        split at deleted
        · cases List.mem_singleton.mp deleted
        · cases deleted
      · exact ih _ later
    · exact ih pd

/-- Retirement detaches only what nothing is stored for. -/
theorem retires_empty {turn : Turn} (retires : turn.retires pd = true) {left : PrefixDescriptor} {counts last : Counts}
    (done : turn.exec memory env pd counts = some (left, last)) : held left nbr = 0 := by
  cases turn with
  | withdraw id => cases retires
  | call made =>
    cases made with
    | retire =>
      have retired : update_topology_table_prefix pd counts = (left, last) := Option.some.inj done
      have result := congrArg Prod.fst retired
      rw [update_topology_table_prefix_fst] at result
      subst result
      simp only [Turn.retires,decide_eq_true_eq] at retires
      have quiet := delete_unreachable_lasts pd.routes pd
      unfold Eigrp.update_topology_table_prefix at retires ⊢
      split at retires
      · cases retires
      · rename_i marked
        rw [if_neg marked]
        dsimp only at retires ⊢
        split at retires
        · rename_i empty
          rw [if_pos empty]
          exact held_eq_zero.mpr (by simp [empty.2.2.2.2])
        · exact absurd retires quiet
    | _ => cases retires

theorem without_nodup {α : Type} {key : PrefixDescriptor → α} (different : (prefixes.map key).Nodup) :
    ((without id prefixes).map key).Nodup :=
  different.sublist (List.filter_sublist.map _)

theorem created_nodup {α : Type} {key : PrefixDescriptor → α} {value : α} {created : Option PrefixDescriptor}
    (different : (prefixes.map key).Nodup) (free : ∀ other ∈ prefixes, key other ≠ value) (made : ∀ pd ∈ created, key pd = value) :
    ((prefixes ++ created.toList).map key).Nodup := by
  cases created with
  | none => simpa using different
  | some pd =>
    rw [Option.toList_some,List.map_append,List.map_singleton]
    refine List.Nodup.append different (List.nodup_singleton _) ?_
    intro found listed same
    obtain ⟨other,member,rfl⟩ := List.mem_map.mp listed
    exact free other member ((List.mem_singleton.mp same).trans (made pd rfl))

theorem vacant_free {destination : Prefix} (vacant : table.vacant id destination = true) :
    (∀ other ∈ table.descriptors, other.id ≠ id) ∧ ∀ other ∈ table.prefixes, other.destination ≠ destination := by
  obtain ⟨numbers,destinations⟩ := Bool.and_eq_true_iff.mp vacant
  constructor
  · intro other member
    simpa using List.all_eq_true.mp numbers other member
  · intro other member
    simpa using List.all_eq_true.mp destinations other member

theorem recreation_destination {old : PrefixDescriptor} {creation : Creation} (made : recreation env old = some creation) :
    creation.destination = old.destination := by
  unfold recreation at made
  split at made
  · split at made
    · cases made
      rfl
    · cases made
  · split at made
    · cases made
    · cases made
      rfl

/-- A turn keeps the books. -/
theorem turn_accounted {turn : Turn} (accounted : Accounted table stranded) (stores : ∀ pd ∈ next.descriptors, RouteStore pd)
    (done : table.step memory env (.turn id turn) = some next) :
    Accounted next fun nbr => stranded nbr + ((Operation.turn id turn).strands memory env table nbr).toNat := by
  obtain ⟨pd,left,found,ran,moved⟩ := turn_step done
  have sought := reach_found found
  have member := reach_member found
  have number : pd.id = id := by simpa using List.find?_some sought
  have turned (nbr : Nbr) (peer : nbr ≠ .self) := turn_counted (accounted.stores pd member) (accounted.covered peer member) peer ran
  have same := (turned (.peer 0 0) (by simp)).1
  have strands (nbr : Nbr) : (Operation.turn id turn).strands memory env table nbr = turn.strands memory env pd table.counts nbr := by
    change (table.reach id turn).any _ = _
    rw [found,Option.any_some]
  rcases moved with ⟨retires,live,prefixes,detached⟩ | ⟨prefixes,detached⟩
  · -- the descriptor leaves the table empty
    obtain ⟨old,here⟩ := Option.isSome_iff_exists.mp live
    have reached : table.reach id turn = some old := by rw [Table.reach,here,Option.some_or]
    obtain rfl : old = pd := Option.some.inj (reached.symm.trans found)
    have perm := detached_perm accounted.live here table.detached
    have listed : next.descriptors = without id table.prefixes ++ (table.detached ++ [left]) := by
      rw [Table.descriptors,prefixes,detached]
    refine ⟨stores,?_,?_,fun nbr peer => ?_⟩
    · have numbers := (perm.map (·.id)).nodup_iff.mpr accounted.numbers
      rw [listed]
      simpa [same.id] using numbers
    · rw [prefixes]
      exact without_nodup accounted.destinations
    · obtain ⟨_,counted⟩ := turned nbr peer
      have empty : held left nbr = 0 := retires_empty retires ran
      have walked : nbr_prefix_walk nbr _ = nbr_prefix_walk nbr _ := walk_perm perm
      have books := accounted.counted nbr peer
      rw [Table.descriptors,← walked,walk_append,walk_append,walk_cons] at books
      rw [strands,listed,walk_append,walk_append,walk_cons]
      omega
  · have listed : next.descriptors = table.descriptors.map fun pd => if pd.id = id then left else pd := by
      rw [Table.descriptors,prefixes,detached,Table.descriptors,List.map_append]
    have unique : ∀ other ∈ table.descriptors, other.id = id → other = pd :=
      fun other present equal => accounted.unique member present (equal.trans number.symm)
    refine ⟨stores,?_,?_,fun nbr peer => ?_⟩
    · rw [listed,written_keys fun other present equal => by rw [same.id,unique other present equal]]
      exact accounted.numbers
    · rw [prefixes,written_keys fun other present equal => by
        rw [same.destination,unique other (mem_descriptors.mpr (.inl present)) equal]]
      exact accounted.destinations
    · obtain ⟨_,counted⟩ := turned nbr peer
      obtain ⟨front,back,split,_,apart⟩ := find_split accounted.numbers sought
      have books := accounted.counted nbr peer
      rw [split,walk_append,walk_cons] at books
      rw [strands,listed,split,replace_split number apart,walk_append,walk_cons]
      omega

/-- Every operation keeps the books. -/
theorem step_accounted (accounted : Accounted table stranded) (permitted : operation.Permitted)
    (done : table.step memory env operation = some next) :
    Accounted next fun nbr => stranded nbr + (operation.strands memory env table nbr).toNat := by
  have stores := step_stored accounted.stores permitted done
  cases operation with
  | turn id turn => exact turn_accounted accounted stores done
  | create id creation =>
    obtain ⟨created,vacant,made,prefixes,detached⟩ := create_step done
    obtain ⟨new,apart⟩ := vacant_free vacant
    have fresh := (create_counted (show Nbr.peer 0 0 ≠ .self by simp) made).1
    have perm : next.descriptors.Perm (table.descriptors ++ created.toList) := by
      rw [Table.descriptors,prefixes,detached]
      exact created_perm _ _
    refine ⟨stores,?_,?_,fun nbr peer => ?_⟩
    · exact (perm.map _).nodup_iff.mpr (created_nodup accounted.numbers new fun pd same => (fresh pd same).1)
    · rw [prefixes]
      exact created_nodup accounted.destinations apart fun pd same => (fresh pd same).2
    · have counted := accounted.counted nbr peer
      have grown := (create_counted peer made).2
      rw [walk_perm perm,walk_append,walk_created]
      simp only [Operation.strands,Bool.toNat_false]
      omega
  | clear id fresh =>
    obtain ⟨old,created,found,prefixes,detached,made⟩ := clear_step done
    have perm := detached_perm accounted.live found table.detached
    have moved : next.descriptors.Perm (without id table.prefixes ++ (table.detached ++ [old]) ++ created.toList) := by
      rw [Table.descriptors,prefixes,detached]
      exact created_perm _ _
    have numbers : ((without id table.prefixes ++ (table.detached ++ [old])).map (·.id)).Nodup :=
      (perm.map _).nodup_iff.mpr accounted.numbers
    have destinations : ((without id table.prefixes).map (·.destination)).Nodup := without_nodup accounted.destinations
    have walked (nbr : Nbr) : nbr_prefix_walk nbr next.descriptors = nbr_prefix_walk nbr table.descriptors +
        (created.map fun pd => held pd nbr).getD 0 := by
      rw [walk_perm moved,walk_append,walk_perm perm,walk_created]
      rfl
    rcases made with ⟨_,rfl,counts⟩ | ⟨creation,made,vacant,built⟩
    · refine ⟨stores,?_,?_,fun nbr peer => ?_⟩
      · rw [(moved.map _).nodup_iff]
        simpa using numbers
      · rw [prefixes]
        simpa using destinations
      · rw [walked,counts]
        exact accounted.counted nbr peer
    · obtain ⟨new,apart⟩ := vacant_free vacant
      have fresh := (create_counted (show Nbr.peer 0 0 ≠ .self by simp) built).1
      refine ⟨stores,?_,?_,fun nbr peer => ?_⟩
      · exact (moved.map _).nodup_iff.mpr (created_nodup numbers new fun pd same => (fresh pd same).1)
      · rw [prefixes]
        exact created_nodup destinations apart fun pd same => (fresh pd same).2.trans (recreation_destination made)
      · have counted := accounted.counted nbr peer
        have grown := (create_counted peer built).2
        rw [walked]
        simp only [Operation.strands,Bool.toNat_false]
        omega
  | free id =>
    cases done
    refine ⟨stores,?_,accounted.destinations,fun nbr peer => ?_⟩
    · exact accounted.numbers.sublist ((List.filter_sublist.append_left table.prefixes).map _)
    · have detached : (table.detached.map (·.id)).Nodup := accounted.numbers.sublist ((List.sublist_append_right _ _).map _)
      have counted := accounted.counted nbr peer
      have walked := @walk_without id _ detached nbr
      rw [Table.descriptors,walk_append] at counted
      simp only [Table.descriptors,walk_append,Operation.strands]
      omega
  | delete id =>
    obtain ⟨old,found,prefixes,detached,counts⟩ := delete_step done
    refine ⟨stores,?_,?_,fun nbr peer => ?_⟩
    · rw [Table.descriptors,prefixes,detached]
      exact accounted.numbers.sublist ((List.filter_sublist.append_right table.detached).map _)
    · rw [prefixes]
      exact without_nodup accounted.destinations
    · have member := mem_descriptors.mpr (.inl (find_member found))
      have given := given_back (accounted.stores old member) (accounted.covered peer member) peer
      have counted := accounted.counted nbr peer
      have walked := @walk_without id _ accounted.live nbr
      have sought : table.prefixes.find? (fun pd => pd.id = id) = some old := found
      rw [sought,Option.any_some] at walked
      rw [Table.descriptors,walk_append] at counted
      simp only [Table.descriptors,prefixes,detached,counts,walk_append,Operation.strands,Bool.toNat_false]
      unfold held at given
      omega

theorem run_accounted (run : Run table stranded) : Accounted table stranded := by
  induction run with
  | start => exact ⟨by simp [Table.descriptors],by simp [Table.descriptors],by simp,fun _ _ => rfl⟩
  | step _ permitted done ih => exact step_accounted ih permitted done

end Tables
end Storage
end Eigrp
