import Eigrp.Restart

/-!
# Clearing a destination

The operator's clear takes a destination out of the table and the host's table before the destination
exists again. What it is built from afterwards depends on the stored type alone: the connected routes of
a connected destination, and a QUERY for every other one.
-/

namespace Eigrp
open Eigrp.Lib

/-! ## The operation -/

/-- The host's route goes over the next hop of the route. -/
def RibRoute.carries (rib_route : RibRoute) (route : RouteDescriptor) : Prop :=
  ∃ hop ∈ rib_route.nexthops, southbound_nexthop route = some { hop with weight := 0 }

def Instance.installed (eigrp : Instance) (destination : Prefix) (route : RouteDescriptor) : Prop :=
  ∃ rib_route, eigrp.rib destination = some rib_route ∧ rib_route.carries route

/-- The neighbor is UP. -/
def Instance.up (eigrp : Instance) (nbr : Nbr) : Prop := ∃ neighbor, eigrp.neighbor nbr = some neighbor ∧ neighbor.state = .up

/-- The turn of the packetizer for the item sends the neighbor a QUERY and expects its REPLY. -/
def Asks (egress : Egress) (work : Work) (pd : PrefixDescriptor) (nbr : Nbr) (machine : Machine) : Prop :=
  (∃ transmission ∈ (packetizer_work_process egress work machine).state.sent.drop machine.state.sent.length,
    transmission.opcode = .query ∧ transmission.reaches nbr pd.destination) ∧
    ∃ asking, (packetizer_work_process egress work machine).state.descriptor pd.id = some asking ∧ reply_status_pending asking nbr

/-- The class of a route for `eigrp_topology_route_read`: what can be reached before what cannot, internal before external. -/
def read_class (route : RouteDescriptor) : Nat := 2 * (decide (route.distance = max_distance)).toNat + route.external.toNat

/-- The route is read before the other one, which is stored already. -/
def read_before (route other : RouteDescriptor) : Prop :=
  read_class route < read_class other ∨ (read_class route = read_class other ∧ route.distance < other.distance)

instance (route other : RouteDescriptor) : Decidable (read_before route other) := inferInstanceAs (Decidable (_ ∨ _))

/-- The routes that come to be read first while the list is linked behind the one read first so far. -/
def read_first : Option RouteDescriptor → List RouteDescriptor → List RouteDescriptor
  | _, [] => []
  | first, route :: routes =>
    if first.all fun first => read_before route first then route :: read_first (some route) routes
    else read_first first routes

/-- A QUERY passes the outbound policy of an interface. -/
def query_passes (egress : Egress) (destination : Prefix) (route : RouteDescriptor) (ei : Nat) : Bool :=
  !egress.summary_covers ei destination && !egress.filtered ei destination && egress.encodes ei none destination route

section Linking
variable {env : Env} {pd : PrefixDescriptor}

/-- Each queue holds its own class in the order of the distances. -/
structure QueueOrder (pd : PrefixDescriptor) : Prop where
  internal : ∀ route ∈ pd.internal_routes, route.external = false
  external : ∀ route ∈ pd.external_routes, route.external = true
  internal_sorted : pd.internal_routes.Pairwise fun first second => first.distance ≤ second.distance
  external_sorted : pd.external_routes.Pairwise fun first second => first.distance ≤ second.distance

theorem queue_find_sorted {queue : List RouteDescriptor}
    (sorted : queue.Pairwise fun first second => first.distance ≤ second.distance) :
    queue.find? (fun route => route.distance ≠ max_distance) = queue.head?.filter fun route => route.distance ≠ max_distance := by
  cases queue with
  | nil => rfl
  | cons first rest =>
    by_cases unreachable : first.distance = max_distance
    · have none_reachable : (first :: rest).find? (fun route => route.distance ≠ max_distance) = none := by
        refine List.find?_eq_none.mpr ?_
        intro route member
        rcases List.mem_cons.mp member with rfl | later
        · simp [unreachable]
        · have above := List.rel_of_pairwise_cons sorted later
          rw [unreachable,UInt32.le_iff_toNat_le] at above
          have bounded := UInt32.toNat_lt route.distance
          have top : max_distance.toNat = 4294967295 := rfl
          have same : route.distance = max_distance := UInt32.toNat_inj.mp (by omega)
          simp [same]
      rw [none_reachable]
      simp [Option.filter,unreachable]
    · simp [Option.filter,unreachable]

theorem queue_insert_sorted {queue : List RouteDescriptor} (route : RouteDescriptor)
    (sorted : queue.Pairwise fun first second => first.distance ≤ second.distance) :
    (queue_insert route queue).Pairwise fun first second => first.distance ≤ second.distance := by
  induction queue with
  | nil => simp [queue_insert]
  | cons first rest ih =>
    rw [queue_insert,List.orderedInsert_cons]
    split
    · rename_i nearer
      refine List.pairwise_cons.mpr ⟨?_,sorted⟩
      intro other member
      rcases List.mem_cons.mp member with rfl | later
      · exact UInt32.le_of_lt nearer
      · exact UInt32.le_trans (UInt32.le_of_lt nearer) (List.rel_of_pairwise_cons sorted later)
    · rename_i further
      refine List.pairwise_cons.mpr ⟨?_,ih (List.pairwise_cons.mp sorted).2⟩
      intro other member
      rcases mem_queue_insert.mp member with rfl | later
      · exact UInt32.not_lt.mp further
      · exact List.rel_of_pairwise_cons sorted later

theorem QueueOrder.insert (ordered : QueueOrder pd) (route : RouteDescriptor) : QueueOrder (route_insert pd route) := by
  unfold route_insert
  split
  · rename_i external
    refine ⟨ordered.internal,?_,ordered.internal_sorted,queue_insert_sorted route ordered.external_sorted⟩
    intro other member
    rcases mem_queue_insert.mp member with rfl | stored
    · exact external
    · exact ordered.external other stored
  · rename_i internal
    refine ⟨?_,ordered.external,queue_insert_sorted route ordered.internal_sorted,ordered.external_sorted⟩
    intro other member
    rcases mem_queue_insert.mp member with rfl | stored
    · simpa using internal
    · exact ordered.internal other stored

/-- The first route read, from the heads of the queues. -/
theorem QueueOrder.route_read (ordered : QueueOrder pd) :
    Eigrp.route_read pd =
      (((pd.internal_routes.head?.filter fun route => route.distance ≠ max_distance).or
        (pd.external_routes.head?.filter fun route => route.distance ≠ max_distance)).or
          (pd.internal_routes.head?.or pd.external_routes.head?)) := by
  unfold Eigrp.route_read PrefixDescriptor.routes
  rw [List.find?_append,queue_find_sorted ordered.internal_sorted,queue_find_sorted ordered.external_sorted,List.head?_append]
  generalize (Option.filter _ pd.internal_routes.head?).or (Option.filter _ pd.external_routes.head?) = reachable
  cases reachable <;> rfl

@[simp] theorem not_max_distance_lt (distance : UInt32) : ¬ max_distance < distance := by
  rw [UInt32.lt_iff_toNat_lt]
  have bounded := UInt32.toNat_lt distance
  have top : max_distance.toNat = 4294967295 := rfl
  omega

end Linking

/-! ## The QUERY -/

/-- A call on a descriptor transmits nothing by itself. -/
theorem perform_sent (id : Nat) (call : Call) (machine : Machine) : (machine.perform id call).state.sent = machine.state.sent := by
  have effects (pd : PrefixDescriptor) (out : List Effect) (eigrp : Instance) : (eigrp.effects pd out).sent = eigrp.sent := by
    obtain ⟨_,_,_,_,same⟩ := effects_frame pd out eigrp
    rw [same]
  unfold Machine.perform Machine.act
  split
  · rfl
  · simp only [Recorded.record,Instance.act,Instance.perform]
    split
    · rfl
    · split
      · rfl
      · exact effects _ _ _

section Query
variable {egress : Egress} {asking : PrefixDescriptor} {work : Work} {route : RouteDescriptor} {start machine : Machine}

/-- The QUERY for all neighbors of an interface. -/
def Instance.query (eigrp : Instance) (egress : Egress) (intf : Intf) (destination : Prefix) (route : RouteDescriptor) : Transmission where
  ei := intf.id
  nbr := none
  opcode := .query
  tlv := builder_route_tlv egress intf.id ((eigrp.intf intf.id).any (·.next_hop_self)) destination route

/-- The interfaces that the packetizer has been through with the QUERY for a destination without an origin. -/
structure Queried (egress : Egress) (asking : PrefixDescriptor) (route : RouteDescriptor) (start machine : Machine) (done : List Intf) :
    Prop where
  sound : machine.state.fault = none
  stored : ∃ rij, machine.state.descriptor asking.id = some { asking with rij } ∧
    ∀ intf ∈ done, query_passes egress asking.destination route intf.id → ∀ nbr ∈ intf.up_neighbors, nbr ∈ rij.map (·.neighbor)
  sent : ∃ queries, machine.state.sent = start.state.sent ++ queries ∧
    (∀ query ∈ queries, query.opcode = .query ∧ query.tlv.dest = asking.destination ∧ query.nbr = none) ∧
      ∀ ei, (∃ intf ∈ done, intf.id = ei ∧ intf.up_neighbors ≠ [] ∧ query_passes egress asking.destination route ei) ↔
        ∃ query ∈ queries, query.ei = ei

/-- What the packetizer does on one interface with the QUERY. -/
theorem intf_query_send {rij : List ReplyStatus} (found : machine.state.descriptor asking.id = some { asking with rij })
    (origin : asking.query_origin = none) (opcode : work.opcode = .query) (hint : work.route = some route)
    (everyone : work.exception = none) (intf : Intf) :
    packetizer_intf_prefix_send egress work asking.id machine intf =
      if intf.up_neighbors ≠ [] ∧ query_passes egress asking.destination route intf.id then
        (builder_route_add egress intf.id none .query asking.destination route machine).perform asking.id
          (.query_rij_add intf.up_neighbors)
      else machine := by
  have horizon : packetizer_query_split_horizon { asking with rij } intf = false := by
    simp [packetizer_query_split_horizon,origin]
  have chosen (pd : PrefixDescriptor) : packetizer_poison_reverse intf .query (packetizer_route_select pd work.route .query) = route := by
    simp [packetizer_poison_reverse,packetizer_route_select,hint]
  by_cases silent : intf.up_neighbors = []
  · simp [packetizer_intf_prefix_send,silent]
  · simp only [packetizer_intf_prefix_send,silent,everyone,if_false,Machine.dereference,found,opcode,horizon,true_and,
      Bool.false_eq_true,false_or,reduceCtorEq,intf_route_send,or_self,chosen,ne_eq,not_false_eq_true]
    cases covered : egress.summary_covers intf.id asking.destination with
    | true => simp [query_passes,covered]
    | false =>
      cases filtered : egress.filtered intf.id asking.destination with
      | true => simp [query_passes,covered,filtered]
      | false =>
        cases encoded : egress.encodes intf.id none asking.destination route with
        | true => simp [query_passes,covered,filtered,encoded]
        | false => simp [query_passes,covered,filtered,encoded,builder_route_add]

/-- A successful addition to the neighbors that owe a REPLY. -/
theorem query_rij_add_state {rij : List ReplyStatus} (sound : machine.state.fault = none)
    (found : machine.state.descriptor asking.id = some { asking with rij }) (nbrs : List Nbr) :
    (machine.perform asking.id (.query_rij_add nbrs)).state.fault = none ∧
      ∃ more, (machine.perform asking.id (.query_rij_add nbrs)).state.descriptor asking.id = some { asking with rij := more } ∧
        ∀ nbr, nbr ∈ more.map (·.neighbor) ↔ nbr ∈ rij.map (·.neighbor) ∨ nbr ∈ nbrs := by
  obtain ⟨more,added,members⟩ := reply_status_add_foldl nbrs { asking with rij }
  have state : (machine.perform asking.id (.query_rij_add nbrs)).state =
      { machine.state with prefixes := machine.state.prefixes.map fun pd : PrefixDescriptor =>
          if pd.id = asking.id then { asking with rij := more } else pd } := by
    rw [Machine.perform,Machine.act_state sound]
    simp only [Instance.act,Instance.perform,found,exec,added]
    rfl
  rw [state]
  have written := @descriptor_write machine.state asking.id { asking with rij } { asking with rij := more } found rfl asking.id
  exact ⟨sound,more,written.trans (if_pos rfl),members⟩

theorem Queried.step {done : List Intf} (asked : Queried egress asking route start machine done) (origin : asking.query_origin = none)
    (opcode : work.opcode = .query) (hint : work.route = some route) (everyone : work.exception = none) (intf : Intf) :
    Queried egress asking route start (packetizer_intf_prefix_send egress work asking.id machine intf) (done ++ [intf]) := by
  obtain ⟨sound,⟨rij,found,pending⟩,queries,sent,shape,reached⟩ := asked
  have reached_more (ei : Nat) : (∃ other ∈ done ++ [intf], other.id = ei ∧ other.up_neighbors ≠ [] ∧
      query_passes egress asking.destination route ei) ↔ (∃ other ∈ done, other.id = ei ∧ other.up_neighbors ≠ [] ∧
        query_passes egress asking.destination route ei) ∨
      (intf.id = ei ∧ intf.up_neighbors ≠ [] ∧ query_passes egress asking.destination route ei) := by
    simp only [List.mem_append,List.mem_singleton,or_and_right,exists_or,exists_eq_left]
  rw [intf_query_send found origin opcode hint everyone]
  by_cases asks : intf.up_neighbors ≠ [] ∧ query_passes egress asking.destination route intf.id
  · rw [if_pos asks]
    have encoded : egress.encodes intf.id none asking.destination route := by
      have parts := asks.2
      simp only [query_passes,Bool.and_eq_true] at parts
      exact parts.2
    have state : (builder_route_add egress intf.id none .query asking.destination route machine).state =
        { machine.state with sent := machine.state.sent ++ [machine.state.query egress intf asking.destination route] } := by
      rw [builder_route_add,if_pos encoded]
      exact Machine.other_state sound _
    obtain ⟨after,more,stored,members⟩ := @query_rij_add_state asking
      (builder_route_add egress intf.id none .query asking.destination route machine) rij (by rw [state]; exact sound)
      (by rw [state]; exact found) intf.up_neighbors
    refine ⟨after,⟨more,stored,?_⟩,queries ++ [machine.state.query egress intf asking.destination route],?_,?_,fun ei => ?_⟩
    · intro other member passing nbr up
      rw [members]
      rcases List.mem_append.mp member with earlier | last
      · exact .inl (pending other earlier passing nbr up)
      · obtain rfl := List.mem_singleton.mp last
        exact .inr up
    · rw [perform_sent,state,sent,List.append_assoc]
    · intro query member
      rcases List.mem_append.mp member with earlier | last
      · exact shape query earlier
      · obtain rfl := List.mem_singleton.mp last
        exact ⟨rfl,rfl,rfl⟩
    · rw [reached_more,reached]
      constructor
      · rintro (⟨query,member,here⟩ | ⟨rfl,_⟩)
        · exact ⟨query,List.mem_append_left _ member,here⟩
        · exact ⟨_,List.mem_append_right _ (List.mem_singleton_self _),rfl⟩
      · rintro ⟨query,member,rfl⟩
        rcases List.mem_append.mp member with earlier | last
        · exact .inl ⟨query,earlier,rfl⟩
        · obtain rfl := List.mem_singleton.mp last
          exact .inr ⟨rfl,asks⟩
  · rw [if_neg asks]
    refine ⟨sound,⟨rij,found,?_⟩,queries,sent,shape,fun ei => ?_⟩
    · intro other member passing nbr up
      rcases List.mem_append.mp member with earlier | last
      · exact pending other earlier passing nbr up
      · obtain rfl := List.mem_singleton.mp last
        exact absurd ⟨List.ne_nil_of_mem up,passing⟩ asks
    · rw [reached_more,← reached]
      constructor
      · rintro (earlier | ⟨rfl,last⟩)
        · exact earlier
        · exact absurd last asks
      · exact .inl

/-- The loop over the interfaces. -/
theorem Queried.loop (origin : asking.query_origin = none) (opcode : work.opcode = .query) (hint : work.route = some route)
    (everyone : work.exception = none) (intfs done : List Intf) (asked : Queried egress asking route start machine done) :
    Queried egress asking route start (intfs.foldl (packetizer_intf_prefix_send egress work asking.id) machine) (done ++ intfs) := by
  induction intfs generalizing machine done with
  | nil => simpa using asked
  | cons intf intfs ih =>
    have stepped := ih (done ++ [intf]) (asked.step origin opcode hint everyone intf)
    rwa [List.append_assoc,List.singleton_append] at stepped

end Query

/-! ## The state behind a clear -/

section State
variable {machine : Machine} {eigrp after : Instance} {pd new : PrefixDescriptor}

variable (sound : machine.state.fault = none) (found : machine.state.descriptor pd.id = some pd)
  (linked : pd.id ∈ machine.state.topology_table) (indexed : Indexed machine.state)

include sound found linked

include indexed

end State

/-! ## What a clear keeps -/

section Result
variable {machine : Machine} {egress : Egress} {pd : PrefixDescriptor}

end Result

end Eigrp
