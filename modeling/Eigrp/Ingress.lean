import Eigrp.Provenance
import Eigrp.Total

/-!
# What the packets of a neighbor make DUAL store

The receivers of the five packet types, and the recorder of QUERYs for unknown destinations, prepare the
vector of a route TLV each in its own way: the inbound filter and the inbound offset list apply in an
UPDATE, the filter alone in a QUERY or REPLY, and neither of them in an SIA-QUERY or SIA-REPLY.
-/

namespace Eigrp
open Eigrp.Lib

/-! ## Receivers -/

/-- The body of a receiver for one route TLV of a packet. -/
def route_receive (opcode : Opcode) (nbr : Nbr) (received : Received) (machine : Machine) : Machine :=
  match opcode with
  | .update => update_receive_route nbr received machine
  | .query => query_receive_route nbr received machine
  | .reply => known_receive_route (.reply_receive nbr) received machine
  | .siaquery => known_receive_route (.siaquery_receive nbr) received machine
  | .siareply => known_receive_route (.siareply_receive nbr) received machine

/-- The vector that the receiver of a packet hands to DUAL. -/
def handed_metric (opcode : Opcode) (received : Received) : Metrics :=
  match opcode with
  | .update => ingress_metric received
  | .query | .reply => filtered_metric received
  | .siaquery | .siareply => received.tlv.metric

/-- Every route of the second descriptor has the data of one of the first, or this reported vector. -/
def Brought (metrics : Metrics) (pd next : PrefixDescriptor) : Prop :=
  ∀ route ∈ next.routes, (∃ old ∈ pd.routes, SameData old route) ∨ route.reported_metric = metrics

theorem Inherits.brought {pd next : PrefixDescriptor} (inherits : Inherits pd next) (metrics : Metrics) : Brought metrics pd next :=
  fun route member => .inl (inherits route member)

theorem Brought.after {metrics : Metrics} {pd middle next : PrefixDescriptor} (inherits : Inherits pd middle)
    (brought : Brought metrics middle next) : Brought metrics pd next := by
  intro route member
  rcases brought route member with ⟨kept,stored,same⟩ | reported
  · obtain ⟨old,present,equal⟩ := inherits kept stored
    exact .inl ⟨old,present,equal.trans same⟩
  · exact .inr reported

section Calls
variable {env : Env} {msg : Msg} {pd next : PrefixDescriptor} {route : RouteDescriptor} {nbr : Nbr} {received : Received}
  {out : List Effect}

/-- The message of a learned neighbor about its own route is measured as the interface's, or not at all. -/
theorem behind_brought (peer : nbr ≠ .self) (sender : msg.adv_router = some nbr) (kind : msg.data_type ≠ .connected)
    (owner : route.adv_router = some nbr) {other : RouteDescriptor} (behind : Behind env msg pd route other) :
    (∃ old ∈ pd.routes, SameData old other) ∨ other.reported_metric = msg.metrics := by
  cases behind with
  | kept stored same _ => exact .inl ⟨_,stored,same⟩
  | taken _ named taken same _ =>
    cases taken with
    | connected connected => exact absurd connected kind
    | learned _ _ _ reported => exact .inr (same.reported_metric.trans reported)
    | seeded _ own =>
      rw [named,owner] at own
      cases own
      exact absurd rfl peer

theorem fsm_event_brought {metrics : Metrics} (done : fsm_event env pd msg route = some (next, out)) (peer : nbr ≠ .self)
    (sender : msg.adv_router = some nbr) (kind : msg.data_type ≠ .connected) (vector : msg.metrics = metrics)
    (owner : route.adv_router = some nbr) : Brought metrics pd next :=
  fun other member => vector ▸ behind_brought peer sender kind owner (fsm_event_behind done other member)

theorem lookup_owner (found : prefix_descriptor_lookup pd nbr = some route) : route ∈ pd.routes ∧ route.adv_router = some nbr :=
  ⟨List.mem_of_find?_eq_some found,by simpa using List.find?_some found⟩

theorem refreshed_inherits (pd : PrefixDescriptor) (id : Nat) (tlv : Tlv) :
    Inherits pd (route_write pd id fun route => refreshed route tlv) :=
  route_write_inherits pd id fun _ => ⟨rfl,rfl,rfl,rfl,rfl,rfl,rfl⟩

theorem receive_brought {packet_type : Opcode} {tlv : Tlv} {metrics : Metrics} {admitted : Bool} (peer : nbr ≠ .self)
    (done : receive env pd packet_type nbr tlv metrics admitted = some (next, out)) : Brought metrics pd next := by
  unfold receive at done
  dsimp only at done
  split at done
  · rename_i route found
    exact Brought.after (refreshed_inherits pd route.id tlv)
      (fsm_event_brought done peer rfl (data_type_learned _) rfl (lookup_owner found).2)
  · have event : Brought metrics _ next := fsm_event_brought done peer rfl (data_type_learned _) rfl rfl
    exact event

theorem recordable_unfiltered (recordable : query_recordable env received) : filtered_metric received = received.tlv.metric := by
  unfold query_recordable at recordable
  simp only [Bool.and_eq_true,Bool.not_eq_true'] at recordable
  simp [filtered_metric,recordable.1.2]

theorem recorded_route_metric {tlv : Tlv} (learned : recorded_route env pd nbr tlv = some route) :
    route.reported_metric = tlv.metric := by
  obtain ⟨_,_,rfl⟩ := Option.map_eq_some_iff.1 learned
  rfl

theorem query_unknown_route_record_brought (peer : nbr ≠ .self)
    (done : query_unknown_route_record env pd nbr received = some next) : Brought (filtered_metric received) pd next := by
  unfold query_unknown_route_record at done
  split at done
  · cases done
    exact (Inherits.refl pd).brought _
  · rename_i recordable
    rw [recordable_unfiltered (by simpa using recordable)]
    split at done
    · rename_i previous found
      obtain ⟨⟨current,last,after,change⟩,measured,result⟩ := Option.bind_eq_some_iff.1 done
      cases result
      refine Brought.after (refreshed_inherits pd previous.id received.tlv) fun other member => ?_
      have behind := update_distance_behind measured other member
      have owner : (refreshed previous received.tlv).adv_router = some nbr := (lookup_owner found).2
      exact behind_brought peer rfl (data_type_learned _) owner behind
    · obtain ⟨route,learned,result⟩ := Option.bind_eq_some_iff.1 done
      cases result
      intro other member
      rcases mem_routes_insert.1 member with rfl | stored
      · exact .inr (recorded_route_metric learned)
      · exact .inl ⟨other,stored,.refl other⟩

/-- The call that a receiver makes for a destination of the table. -/
def receive_call (opcode : Opcode) (nbr : Nbr) (received : Received) : Call :=
  match opcode with
  | .update => .update_receive nbr received
  | .query => .query_receive nbr received
  | .reply => .reply_receive nbr received
  | .siaquery => .siaquery_receive nbr received
  | .siareply => .siareply_receive nbr received

theorem receive_call_brought {opcode : Opcode} (peer : nbr ≠ .self)
    (done : exec env pd (receive_call opcode nbr received) = some (next, out)) : Brought (handed_metric opcode received) pd next := by
  have unchanged : Brought (handed_metric opcode received) pd pd := (Inherits.refl pd).brought _
  cases opcode with
  | update =>
    simp only [exec,receive_call,update_receive_pd] at done
    split at done
    · cases done
      exact unchanged
    · split at done
      · split at done
        · cases done
          exact unchanged
        · exact receive_brought peer done
      · split at done
        · cases done
          exact unchanged
        · exact receive_brought peer done
  | query =>
    simp only [exec,receive_call,query_receive_pd] at done
    split at done
    · cases done
      exact unchanged
    · split at done
      · obtain ⟨recorded,record,result⟩ := Option.bind_eq_some_iff.1 done
        cases result
        exact query_unknown_route_record_brought peer record
      · exact receive_brought peer done
  | reply =>
    simp only [exec,receive_call,reply_receive_pd] at done
    split at done
    · cases done
      exact unchanged
    · exact receive_brought peer done
  | siaquery =>
    obtain ⟨⟨measured,effects⟩,event,result⟩ := Option.bind_eq_some_iff.1 done
    cases result
    exact receive_brought peer event
  | siareply =>
    simp only [exec,receive_call,siareply_receive_pd] at done
    split at done
    · cases done
      exact unchanged
    · split at done
      · cases done
        exact Inherits.brought (.of_routes rfl) _
      · split at done
        · rename_i route found
          exact fsm_event_brought done peer rfl (data_type_learned _) rfl (lookup_owner found).2
        · have event : Brought received.tlv.metric _ next := fsm_event_brought done peer rfl (data_type_learned _) rfl rfl
          exact event

end Calls

/-! ## Descriptors of an instance -/

/-- The TLV makes DUAL store the vector for the neighbor, which had another one there or none. -/
def Stores (opcode : Opcode) (nbr : Nbr) (received : Received) (machine : Machine) (metric : Metrics) : Prop :=
  ∃ pd ∈ (route_receive opcode nbr received machine).state.prefixes, ∃ route ∈ pd.routes,
    route.adv_router = some nbr ∧ route.reported_metric = metric ∧
      ∀ before ∈ machine.state.prefixes, before.id = pd.id →
        ∀ old ∈ before.routes, old.id = route.id → old.reported_metric ≠ metric

/-- A descriptor that was there, with at most the routes of before and the vector, or a new one with nothing else. -/
def Supplied (metric : Metrics) (before after : Instance) : Prop :=
  ∀ next ∈ after.prefixes, (∃ pd ∈ before.prefixes, pd.id = next.id ∧ Brought metric pd next) ∨
    ∀ route ∈ next.routes, route.reported_metric = metric

section Machines
variable {machine : Machine} {nbr : Nbr} {received : Received} {metric : Metrics}

theorem Supplied.refl (metric : Metrics) (eigrp : Instance) : Supplied metric eigrp eigrp :=
  fun next member => .inl ⟨next,member,rfl,(Inherits.refl next).brought metric⟩

theorem Supplied.of_prefixes {before after : Instance} (same : after.prefixes = before.prefixes) : Supplied metric before after :=
  fun next member => .inl ⟨next,same ▸ member,rfl,(Inherits.refl next).brought metric⟩

theorem Supplied.behind {before middle after : Instance} (supplied : Supplied metric middle after)
    (same : middle.prefixes = before.prefixes) : Supplied metric before after := by
  intro next member
  rcases supplied next member with ⟨pd,present,number,brought⟩ | fresh
  · exact .inl ⟨pd,same ▸ present,number,brought⟩
  · exact .inr fresh

theorem act_supplied {label : Label} (supplied : Supplied metric machine.state (machine.state.act label)) :
    Supplied metric machine.state (Machine.act label machine).state := by
  unfold Machine.act
  split
  · exact .refl metric _
  · exact supplied

theorem perform_supplied {id : Nat} {call : Call}
    (brought : ∀ pd next out, exec machine.state.env pd call = some (next, out) → Brought metric pd next) :
    Supplied metric machine.state (machine.perform id call).state := by
  refine act_supplied fun next member => ?_
  simp only [Instance.act,Instance.perform] at member
  split at member
  · exact Supplied.refl metric _ next member
  · rename_i pd found
    split at member
    · exact Supplied.refl metric _ next member
    · rename_i result out done
      rw [effects_prefixes] at member
      obtain ⟨other,stored,same⟩ := List.mem_map.1 member
      split at same
      · subst same
        exact .inl ⟨pd,(descriptor_mem found).1,(exec_identity done).id.symm,brought pd result out done⟩
      · subst same
        exact Supplied.refl metric _ other stored

theorem create_supplied {creation : Creation}
    (fresh : ∀ pd out, creation.build machine.state.env machine.state.next_id = some (pd, out) →
      ∀ route ∈ pd.routes, route.reported_metric = metric) :
    Supplied metric machine.state (Machine.act (.create creation) machine).state := by
  refine act_supplied fun next member => ?_
  simp only [Instance.act,Instance.create] at member
  split at member
  · exact Supplied.refl metric _ next member
  · rename_i pd out built
    rw [effects_prefixes] at member
    rcases List.mem_append.1 member with stored | added
    · exact Supplied.refl metric _ next stored
    · obtain rfl := List.mem_singleton.1 added
      exact .inr (fresh next out built)

theorem route_descriptor_add_inherits (env : Env) (pd : PrefixDescriptor) (route : RouteDescriptor) :
    Inherits (route_insert pd route) (route_descriptor_add env pd route).1 := by
  unfold route_descriptor_add
  dsimp only
  split
  · split
    · exact route_write_inherits _ _ fun _ => ⟨rfl,rfl,rfl,rfl,rfl,rfl,rfl⟩
    · exact .refl _
  · exact .refl _

theorem update_prefix_create_metric {env : Env} {id : Nat} {pd : PrefixDescriptor} {out : List Effect}
    (built : update_prefix_create env id nbr received = some (pd, out)) :
    ∀ route ∈ pd.routes, route.reported_metric = ingress_metric received := by
  obtain ⟨learned,taught,result⟩ := Option.bind_eq_some_iff.1 built
  obtain ⟨_,_,rfl⟩ := Option.map_eq_some_iff.1 taught
  obtain ⟨rfl,rfl⟩ := exec_some result
  intro route member
  obtain ⟨kept,stored,same⟩ := (update_node_flags_same env _).inherits route member
  obtain ⟨added,present,equal⟩ := route_descriptor_add_inherits env _ _ kept stored
  rw [same.reported_metric,equal.reported_metric]
  rcases mem_routes_insert.1 present with rfl | none
  · rfl
  · cases none

theorem query_prefix_create_metric {env : Env} {id : Nat} {pd : PrefixDescriptor} {out : List Effect}
    (built : query_prefix_create env id nbr received = some (pd, out)) :
    ∀ route ∈ pd.routes, route.reported_metric = received.tlv.metric := by
  obtain ⟨learned,taught,result⟩ := Option.bind_eq_some_iff.1 built
  obtain ⟨rfl,rfl⟩ := exec_some result
  intro route member
  rcases mem_routes_insert.1 member with rfl | stored
  · exact recorded_route_metric taught
  · cases stored

theorem known_receive_supplied {call : Received → Call}
    (brought : ∀ pd next out, exec machine.state.env pd (call received) = some (next, out) → Brought metric pd next) :
    Supplied metric machine.state (known_receive_route call received machine).state := by
  unfold known_receive_route
  split
  · exact .refl metric _
  · exact perform_supplied brought

theorem other_prefixes (update : Instance → Instance) (same : (update machine.state).prefixes = machine.state.prefixes) :
    (machine.other update).state.prefixes = machine.state.prefixes := by
  unfold Machine.other
  split
  · rfl
  · exact same

/-- A receiver stores nothing but the vector that it hands to DUAL. -/
theorem route_receive_supplied (opcode : Opcode) (peer : nbr ≠ .self) (received : Received) (machine : Machine) :
    Supplied (handed_metric opcode received) machine.state (route_receive opcode nbr received machine).state := by
  have brought : ∀ pd next out, exec machine.state.env pd (receive_call opcode nbr received) = some (next, out) →
      Brought (handed_metric opcode received) pd next := fun pd next out done => receive_call_brought peer done
  cases opcode with
  | update =>
    unfold route_receive update_receive_route
    dsimp only
    split
    · exact perform_supplied brought
    · split
      · exact .refl _ _
      · exact create_supplied fun pd out built => update_prefix_create_metric built
  | query =>
    unfold route_receive query_receive_route
    dsimp only
    split
    · exact perform_supplied brought
    · exact .of_prefixes (other_prefixes _ rfl)
    · split
      · rename_i recordable
        have metric : handed_metric .query received = received.tlv.metric := recordable_unfiltered recordable
        rw [metric]
        refine Supplied.behind (create_supplied fun pd out built => ?_) (other_prefixes _ rfl)
        exact query_prefix_create_metric built
      · exact .of_prefixes (other_prefixes _ rfl)
  | reply => exact known_receive_supplied brought
  | siaquery => exact known_receive_supplied brought
  | siareply => exact known_receive_supplied brought

/-- Whatever is stored is what the receiver of the packet handed to DUAL. -/
theorem stores_handed {opcode : Opcode} (peer : nbr ≠ .self) (stores : Stores opcode nbr received machine metric) :
    metric = handed_metric opcode received := by
  obtain ⟨pd,member,route,stored,_,reported,new⟩ := stores
  rcases route_receive_supplied opcode peer received machine pd member with ⟨before,present,same,brought⟩ | only
  · rcases brought route stored with ⟨old,kept,data⟩ | equal
    · exact absurd (data.reported_metric.symm.trans reported) (new before present same old kept data.id.symm)
    · exact reported.symm.trans equal
  · exact reported.symm.trans (only route stored)

end Machines

/-! ## A run that retains a route -/

/-- A neighbor that comes up on an interface of its own, with the number it is to have. -/
def lone_neighbor (ei id : Nat) : List Event :=
  List.replicate id (.nbr_create ei) ++
    [.intf_create { id := ei }, .nbr_create ei, .nbr_pending (.peer ei id), .nbr_up (.peer ei id)]

/-- A configuration without weights: every vector that is reachable has the distance zero. -/
def unweighted : MetricConfig := { k1 := 0, k2 := 0, k3 := 0, k4 := 0, k5 := 0 }

/-- The TLV of a QUERY that is remembered: reachable and admitted. -/
def queried (dest : Prefix) (delay : UInt64) : Received := { tlv := { dest, metric := { delay } } }

theorem neighbor_numbers (metric : MetricConfig) (ei id : Nat) :
    (run metric (List.replicate id (.nbr_create ei))).state = { metric, next_nbr := id } := by
  induction id with
  | zero => rfl
  | succ id ih =>
    rw [List.replicate_succ', run_snoc]
    simp [handle,@Machine.other_state (run metric (List.replicate id (.nbr_create ei))),ih]

theorem lone_neighbor_state (metric : MetricConfig) (ei id : Nat) : (run metric (lone_neighbor ei id)).state =
    { metric, next_nbr := id + 1, eiflist := [{ id := ei, nbrs := [{ id, state := .up }] }] } := by
  have taken := neighbor_numbers metric ei id
  unfold run at taken ⊢
  rw [lone_neighbor, List.foldl_append]
  generalize (List.replicate id (Event.nbr_create ei)).foldl handle (Instance.start metric) = machine at taken
  simp [handle,neighbor_move,Machine.other,Recorded.record,taken,Instance.intf,Instance.neighbor_write,Nbr.ei]

/-- What a QUERY for an unknown destination leaves: the neighbor's route, which nobody uses. -/
structure Retained (nbr : Nbr) (tlv : Tlv) (pd : PrefixDescriptor) (route : RouteDescriptor) : Prop where
  id : pd.id = 0
  destination : pd.destination = tlv.dest
  state : pd.state = .passive
  fdistance : pd.fdistance = max_distance
  routes : pd.routes = [route]
  adv_router : route.adv_router = some nbr
  ei : route.ei = nbr.ei
  reported_metric : route.reported_metric = tlv.metric

theorem query_prefix_create_retained (env : Env) {nbr : Nbr} (peer : nbr ≠ .self) (received : Received) :
    ∃ pd route, query_prefix_create env 0 nbr received = some (pd, []) ∧ Retained nbr received.tlv pd route := by
  let fresh : PrefixDescriptor :=
    { id := 0, destination := received.tlv.dest, nt := if received.tlv.external then .remote_external else .remote
      reported_metric := { delay := max_metric } }
  obtain ⟨route,learned,adv_router,ei,reported⟩ : ∃ route, recorded_route env fresh nbr received.tlv = some route ∧
      route.adv_router = some nbr ∧ route.ei = nbr.ei ∧ route.reported_metric = received.tlv.metric := by
    cases nbr with
    | self => exact absurd rfl peer
    | peer ei id =>
      simp only [recorded_route,route_learn,received_route,Nbr.ei,Option.map_some]
      exact ⟨_,rfl,rfl,rfl,rfl⟩
  have created : query_prefix_create env 0 nbr received = some (route_insert { fresh with next_route := 1 } route, []) := by
    simp only [query_prefix_create]
    rw [show recorded_route env _ nbr received.tlv = some route from learned]
    rfl
  have rerouted := route_insert_rerouted { fresh with next_route := 1 } route
  refine ⟨_,route,created,rerouted.id,rerouted.destination,rerouted.state,rerouted.fdistance,?_,adv_router,ei,reported⟩
  unfold route_insert
  split <;> rfl

/-- A QUERY for an unknown destination is answered and remembered. -/
theorem query_receive_unknown {machine : Machine} {nbr : Nbr} {received : Received} (sound : machine.state.fault = none)
    (unknown : machine.state.topology_table_lookup received.tlv.dest = none) (specific : received.summary = none)
    (recordable : query_recordable machine.state.env received) : ∃ eigrp : Instance,
      (query_receive_route nbr received machine).state = eigrp.create (.query nbr received) ∧
        ∃ packetizer, eigrp = { machine.state with packetizer } := by
  refine ⟨machine.state.effect { id := 0, destination := received.tlv.dest } (query_unknown_reply_send nbr received.tlv),?_,_,rfl⟩
  have kept : query_recordable (machine.state.effect { id := 0, destination := received.tlv.dest }
      (query_unknown_reply_send nbr received.tlv)).env received := recordable
  unfold query_receive_route
  rw [unknown,specific]
  dsimp only
  rw [Machine.other_state sound,if_pos kept,Machine.act_state (by rw [Machine.other_state sound]; exact sound),
    Machine.other_state sound]
  rfl

/-- The QUERY of a neighbor leaves a destination that holds its route alone, and is not elected. -/
theorem queried_state (ei id : Nat) (dest : Prefix) {delay : UInt64} (classic : delay ≠ max_metric) (wide : delay ≠ metric_max) :
    ∃ events pd route, let eigrp := (run unweighted events).state
      eigrp.fault = none ∧ (eigrp.neighbor (.peer ei id)).any (·.state = .up) ∧ eigrp.prefixes = [pd] ∧
      eigrp.topology_table = [0] ∧ eigrp.links = (fun _ _ _ => true) ∧ Retained (.peer ei id) (queried dest delay).tlv pd route := by
  let packet : Packet := { opcode := .query, routes := [queried dest delay] }
  have state := lone_neighbor_state unweighted ei id
  generalize run : run unweighted (lone_neighbor ei id) = machine at state
  refine ⟨lone_neighbor ei id ++ [.packet_receive (.peer ei id) packet],?_⟩
  have known : machine.state.neighbor (.peer ei id) = some { id, state := .up } := by simp [state,Instance.neighbor,Instance.intf]
  have handled : handle machine (.packet_receive (.peer ei id) packet) =
      send_all (some ei) (query_receive_route (.peer ei id) (queried dest delay) (recv_sequence_update (.peer ei id) packet machine)) := by
    simp [packet,handle,packet_receive,known,walk,limit_mark,queried,Nbr.ei]
  have reached : (recv_sequence_update (.peer ei id) packet machine).state =
      { metric := unweighted, next_nbr := id + 1
        eiflist := [{ id := ei, nbrs := [{ id, state := .up, recv_sequence_number := 1 }] }] } := by
    simp [packet,recv_sequence_update,Machine.other,Recorded.record,state,Instance.neighbor_write,Nbr.ei]
  rw [run_snoc,run,handled]
  generalize recv_sequence_update (.peer ei id) packet machine = machine at reached
  have recordable : query_recordable machine.state.env (queried dest delay) := by
    simp [query_recordable,queried,nbr_route_admitted,Instance.env,reached,metric_calculate,metric_composite,metric_sum,unweighted,classic,wide]
    decide
  obtain ⟨eigrp,created,packetizer,same⟩ := @query_receive_unknown machine (.peer ei id) (queried dest delay)
    (by rw [reached]) (by rw [reached]; rfl) rfl recordable
  obtain ⟨pd,route,built,retained⟩ := query_prefix_create_retained eigrp.env (by simp : Nbr.peer ei id ≠ .self) (queried dest delay)
  have stored : (query_receive_route (.peer ei id) (queried dest delay) machine).state =
      { eigrp with prefixes := [pd], topology_table := [0], next_id := 1 } := by
    rw [created,same,reached] at *
    simp only [Instance.create,Creation.build,built]
    rfl
  generalize query_receive_route (.peer ei id) (queried dest delay) machine = machine at stored
  refine ⟨pd,route,?_⟩
  subst same
  simp [send_all,query_send_all,update_send_all_enqueue,Machine.other,Recorded.record,stored,reached,Instance.packetizer_enqueue,
    Instance.neighbor,Instance.intf,retained]

/-! ## One policy -/

/-- In some run the vector is stored for the neighbor, which is UP, when the TLV arrives in a packet of this type. -/
def Brings (nbr : Nbr) (tlv : Tlv) (filtered : Bool) (offsets : OffsetPolicy) (opcode : Opcode) (metric : Metrics) : Prop :=
  ∃ config events received, received.tlv = tlv ∧ received.filtered = filtered ∧ received.offsets = offsets ∧
    ((run config events).state.neighbor nbr).any (·.state = .up) ∧ Stores opcode nbr received (run config events) metric

/-- Under no weights is the vector's distance finite. -/
def Unreachable (metric : Metrics) : Prop := ∀ config, store (metric_calculate config metric) = max_distance

/-- One vector is stored, whatever packet brings the TLV, and an unreachable one if the inbound filter denies it. -/
def OnePolicy (nbr : Nbr) (tlv : Tlv) (filtered : Bool) (offsets : OffsetPolicy) : Prop :=
  (∀ opcode opcode' metric metric', Brings nbr tlv filtered offsets opcode metric →
    Brings nbr tlv filtered offsets opcode' metric' → metric = metric') ∧
  (filtered → ∀ opcode metric, Brings nbr tlv filtered offsets opcode metric → Unreachable metric)

/-- Filter and offset list leave the vector as it was sent. -/
def IngressNeutral (tlv : Tlv) (filtered : Bool) (offsets : OffsetPolicy) : Prop :=
  tlv.metric.delay = max_metric ∨
    (¬ filtered ∧ (offsets.offset .inbound = none ∨ (offsets.offset .inbound = some 0 ∧ tlv.metric.delay < max_metric)))

theorem poisoned_unreachable {metric : Metrics} (poisoned : metric.delay = max_metric) : Unreachable metric := by
  intro config
  have wide : metric.delay ≠ metric_max := by rw [poisoned]; decide
  rw [metric_calculate,if_neg wide,if_pos poisoned]
  rfl

theorem poisoned_self {metric : Metrics} (unreachable : metric.delay = max_metric) : poisoned metric = metric := by
  rw [poisoned,← unreachable]

/-- An offset leaves a reachable vector alone if it is zero and the vector is a classic one. -/
theorem offset_delay_iff {policy : OffsetPolicy} {metric : Metrics} (reachable : metric.delay ≠ max_metric) :
    (offset_metric_update policy .inbound metric).delay = metric.delay ↔
      policy.offset .inbound = none ∨ (policy.offset .inbound = some 0 ∧ metric.delay < max_metric) := by
  rw [offset_metric_update,if_neg reachable]
  cases policy.offset .inbound with
  | none => simp
  | some offset =>
    simp only [reduceCtorEq,false_or,Option.some.injEq]
    constructor
    · intro same
      split at same
      · exact absurd same.symm reachable
      · rename_i small
        have none : offset.toUInt64 = 0 := by simpa using same
        rw [none] at small
        refine ⟨UInt32.toUInt64_inj.1 none,?_⟩
        simpa using small
    · rintro ⟨rfl,small⟩
      have below : ¬ metric.delay + (0 : UInt32).toUInt64 ≥ max_metric := by simpa using small
      rw [if_neg below]
      simp

/-- Filter and offset list change nothing but the delay. -/
theorem ingress_metric_parts (received : Received) :
    { ingress_metric received with delay := received.tlv.metric.delay } = received.tlv.metric := by
  unfold ingress_metric offset_metric_update
  split
  · rfl
  · split
    · rfl
    · split <;> rfl

/-- The vector of an UPDATE is changed exactly where filter or offset list change its delay. -/
theorem ingress_neutral_iff (received : Received) : IngressNeutral received.tlv received.filtered received.offsets ↔
    (ingress_metric received).delay = received.tlv.metric.delay := by
  unfold IngressNeutral ingress_metric
  by_cases unreachable : received.tlv.metric.delay = max_metric
  · simp only [unreachable,true_or,true_iff]
    split
    · rfl
    · rw [offset_metric_update,if_pos unreachable,unreachable]
  · by_cases denied : received.filtered = true
    · rw [if_pos denied]
      simp only [unreachable,denied,not_true,false_and,or_false,false_iff]
      exact fun same => unreachable same.symm
    · rw [if_neg denied,offset_delay_iff unreachable]
      simp [unreachable,denied]

theorem ingress_neutral_metric {received : Received} (neutral : IngressNeutral received.tlv received.filtered received.offsets) :
    ingress_metric received = received.tlv.metric := by
  have delay := (ingress_neutral_iff received).1 neutral
  have parts := ingress_metric_parts received
  rw [← delay] at parts
  exact parts

theorem filtered_neutral_metric {received : Received} (neutral : IngressNeutral received.tlv received.filtered received.offsets) :
    filtered_metric received = received.tlv.metric := by
  unfold filtered_metric
  split
  · rename_i denied
    exact poisoned_self (neutral.resolve_right fun permitted => permitted.1 denied)
  · rfl

theorem handed_neutral {received : Received} (neutral : IngressNeutral received.tlv received.filtered received.offsets)
    (opcode : Opcode) : handed_metric opcode received = received.tlv.metric := by
  cases opcode with
  | update => exact ingress_neutral_metric neutral
  | query => exact filtered_neutral_metric neutral
  | reply => exact filtered_neutral_metric neutral
  | siaquery => rfl
  | siareply => rfl

section Stored
variable {env : Env} {msg : Msg} {pd next : PrefixDescriptor} {route : RouteDescriptor} {nbr : Nbr} {tlv : Tlv} {out : List Effect}

/-- The message's vector is that of a stored route of its neighbor. -/
def Taught (msg : Msg) (route : RouteDescriptor) (nbr : Nbr) (next : PrefixDescriptor) : Prop :=
  ∃ stored ∈ next.routes, stored.id = route.id ∧ stored.adv_router = some nbr ∧ stored.reported_metric = msg.metrics

theorem Taught.same (taught : Taught msg route nbr pd) (same : SameRoutes pd next) : Taught msg route nbr next := by
  obtain ⟨stored,member,number,owner,reported⟩ := taught
  have back : SameRoutes next pd := ⟨same.routes.symm,same.next_route.symm⟩
  obtain ⟨kept,present,data⟩ := back.inherits stored member
  exact ⟨kept,present,data.id.symm.trans number,data.adv_router.symm.trans owner,data.reported_metric.symm.trans reported⟩

/-- A route that is linked again with a learned vector carries it. -/
theorem relink_taught {after : RouteDescriptor} (peer : nbr ≠ .self) (kind : msg.data_type ≠ .connected)
    (number : after.id = route.id) (owner : after.adv_router = some nbr) (taken : Taken env msg route after) :
    Taught msg route nbr (route_relink pd after) := by
  refine ⟨after,mem_routes_relink.2 (.inl rfl),number,owner,?_⟩
  cases taken with
  | connected connected => exact absurd connected kind
  | learned _ _ _ reported => exact reported
  | seeded _ own =>
    rw [owner] at own
    cases own
    exact absurd rfl peer

/-- A new vector for a neighbor's route is stored in every event, whatever DUAL decides, if the host grants the item. -/
theorem fsm_event_taught (peer : nbr ≠ .self) (kind : msg.data_type ≠ .connected) (owner : route.adv_router = some nbr)
    (fixed : ¬ msg.transient_route) (new : ¬ metrics_match msg.metrics route.reported_metric)
    (granted : link_refused env pd msg route = false) (done : fsm_event env pd msg route = some (next, out)) :
    Taught msg route nbr next := by
  obtain ⟨current,last,after,change,measured,queues⟩ := fsm_event_linked done
  rcases update_distance_stored measured with ⟨_,skips,_⟩ | ⟨rfl,_,number,named,taken⟩ | ⟨_,refused⟩
  · rcases skips with transient | connected | unchanged
    · exact absurd transient fixed
    · exact absurd connected kind
    · exact absurd unchanged new
  · exact (relink_taught peer kind number (by simp [named,owner]) taken).same queues.routes
  · simp [granted] at refused

theorem Retained.lookup (retained : Retained nbr tlv pd route) : prefix_descriptor_lookup pd nbr = some route := by
  simp [prefix_descriptor_lookup,retained.routes,retained.adv_router]

/-- The neighbor's next vector for a destination that nobody uses is stored. -/
theorem Retained.taught (retained : Retained nbr tlv pd route) {env : Env} (links : env.links = fun _ _ _ => true)
    (peer : nbr ≠ .self) (packet_type : Opcode) (other : Tlv) {metrics : Metrics} (new : ¬ metrics_match metrics route.reported_metric) (admitted : Bool) :
    ∃ next out, receive env pd packet_type nbr other metrics admitted = some (next, out) ∧
      ∃ stored ∈ next.routes, stored.id = route.id ∧ stored.adv_router = some nbr ∧ stored.reported_metric = metrics := by
  unfold receive
  rw [retained.lookup]
  dsimp only
  generalize message : ({ packet_type, adv_router := some nbr, data_type := data_type other.external, metrics } : Msg) = msg
  have kind : msg.data_type ≠ .connected := by
    subst message
    exact data_type_learned _
  have granted : link_refused env (route_write pd route.id fun route => refreshed route other) msg (refreshed route other) = false := by
    simp [link_refused,links]
  have total : (fsm_event env (route_write pd route.id fun route => refreshed route other) msg (refreshed route other)).isSome := by
    refine Option.isSome_iff_ne_none.2 ((fsm_event_none_iff env _ (learnable_peer (by subst message; rfl) peer _)).not.2 ?_)
    have held : (route_write pd route.id fun route => refreshed route other).routes ≠ [] := by
      rw [route_write_eq_map,routes_map_routes,retained.routes]
      simp
    simp only [strands,links]
    split <;> simp [held]
  obtain ⟨⟨next,out⟩,done⟩ := Option.isSome_iff_exists.1 total
  refine ⟨next,out,done,?_⟩
  have taught := @fsm_event_taught _ _ _ _ (refreshed route other) _ _ peer kind retained.adv_router (by subst message; simp)
    (by subst message; exact new) granted done
  subst message
  exact taught

end Stored

/-- A call that stores a vector for the neighbor, on the one descriptor of an instance. -/
theorem perform_stores {machine : Machine} {nbr : Nbr} {tlv : Tlv} {received : Received} {pd next : PrefixDescriptor}
    {route : RouteDescriptor} {out : List Effect} {opcode : Opcode} {metric : Metrics} (sound : machine.state.fault = none)
    (only : machine.state.prefixes = [pd]) (table : machine.state.topology_table = [0]) (retained : Retained nbr tlv pd route)
    (same : received.tlv.dest = tlv.dest) (done : exec machine.state.env pd (receive_call opcode nbr received) = some (next, out))
    (stored : ∃ stored ∈ next.routes, stored.id = route.id ∧ stored.adv_router = some nbr ∧ stored.reported_metric = metric)
    (new : route.reported_metric ≠ metric) : Stores opcode nbr received machine metric := by
  have found : machine.state.descriptor 0 = some pd := by simp [Instance.descriptor,only,retained.id]
  have looked : machine.state.topology_table_lookup received.tlv.dest = some pd := by
    simp [Instance.topology_table_lookup,table,found,retained.destination,same]
  have performed : route_receive opcode nbr received machine = machine.perform pd.id (receive_call opcode nbr received) := by
    cases opcode <;>
      simp [route_receive,update_receive_route,query_receive_route,known_receive_route,receive_call,looked]
  have after : (machine.perform pd.id (receive_call opcode nbr received)).state.prefixes = [next] := by
    rw [Machine.perform,Machine.act_state sound,retained.id]
    simp only [Instance.act,Instance.perform,found,done,effects_prefixes,only]
    simp [retained.id]
  obtain ⟨kept,member,number,owner,reported⟩ := stored
  refine ⟨next,by rw [performed,after]; simp,kept,member,owner,reported,?_⟩
  intro before present _ old held equal
  rw [only] at present
  obtain rfl := List.mem_singleton.1 present
  rw [retained.routes] at held
  obtain rfl := List.mem_singleton.1 held
  exact new

theorem delay_apart (first second : UInt64) :
    ∃ delay : UInt64, delay ≠ first ∧ delay ≠ second ∧ delay ≠ max_metric ∧ delay ≠ metric_max := by
  by_cases one : first = 1 ∨ second = 1
  · by_cases two : first = 2 ∨ second = 2
    · exact ⟨3,by rintro rfl; simp_all,by rintro rfl; simp_all,by decide,by decide⟩
    · exact ⟨2,fun same => two (.inl same.symm),fun same => two (.inr same.symm),by decide,by decide⟩
  · exact ⟨1,fun same => one (.inl same.symm),fun same => one (.inr same.symm),by decide,by decide⟩

/-- An UPDATE and an SIA-QUERY that a neighbor sends for a destination that holds a retained route are stored, each with its
    own vector. -/
theorem update_and_siaquery_stored (ei id : Nat) (tlv : Tlv) (filtered : Bool) (offsets : OffsetPolicy) :
    Brings (.peer ei id) tlv filtered offsets .update (ingress_metric { tlv, filtered, offsets }) ∧
      Brings (.peer ei id) tlv filtered offsets .siaquery tlv.metric := by
  let received : Received := { tlv, filtered, offsets }
  obtain ⟨delay,ingress,sent,classic,wide⟩ := delay_apart (ingress_metric received).delay tlv.metric.delay
  obtain ⟨events,pd,route,sound,up,only,table,links,retained⟩ := queried_state ei id tlv.dest classic wide
  have granted : (run unweighted events).state.env.links = fun _ _ _ => true := links
  have peer : Nbr.peer ei id ≠ .self := by simp
  have changed {metric : Metrics} (other : delay ≠ metric.delay) :
      ¬ metrics_match metric route.reported_metric ∧ route.reported_metric ≠ metric := by
    rw [retained.reported_metric]
    constructor
    · simp [metrics_match,queried,other.symm]
    · rintro rfl
      exact other rfl
  constructor
  · obtain ⟨next,out,done,stored⟩ := retained.taught granted peer .update tlv (changed ingress).1 true
    have call : exec (run unweighted events).state.env pd (receive_call .update (.peer ei id) received) = some (next, out) := by
      simpa [exec,receive_call,update_receive_pd,retained.lookup,received] using done
    exact ⟨unweighted,events,received,rfl,rfl,rfl,up,perform_stores sound only table retained rfl call stored (changed ingress).2⟩
  · obtain ⟨next,out,done,stored⟩ := retained.taught granted peer .query tlv (changed sent).1
      (nbr_route_admitted (run unweighted events).state.env received tlv.metric)
    obtain ⟨out',call⟩ : ∃ out', exec (run unweighted events).state.env pd (receive_call .siaquery (.peer ei id) received) =
        some (next, out') := by
      simp only [exec,receive_call,siaquery_receive_pd,retained.state,if_true,received]
      rw [done]
      exact ⟨_,rfl⟩
    exact ⟨unweighted,events,received,rfl,rfl,rfl,up,perform_stores sound only table retained rfl call stored (changed sent).2⟩

/-- Exactly where filter and offset list leave the TLV alone do all packets store the same. -/
theorem one_policy_iff (ei id : Nat) (tlv : Tlv) (filtered : Bool) (offsets : OffsetPolicy) :
    OnePolicy (.peer ei id) tlv filtered offsets ↔ IngressNeutral tlv filtered offsets := by
  constructor
  · intro policy
    obtain ⟨update,siaquery⟩ := update_and_siaquery_stored ei id tlv filtered offsets
    have same := policy.1 _ _ _ _ update siaquery
    exact (ingress_neutral_iff { tlv, filtered, offsets }).2 (congrArg Metrics.delay same)
  · intro neutral
    have sent : ∀ opcode metric, Brings (.peer ei id) tlv filtered offsets opcode metric → metric = tlv.metric := by
      rintro opcode metric ⟨config,events,received,rfl,rfl,rfl,_,stores⟩
      exact (stores_handed (by simp) stores).trans (handed_neutral neutral opcode)
    refine ⟨fun opcode opcode' metric metric' first second => (sent _ _ first).trans (sent _ _ second).symm,?_⟩
    intro denied opcode metric brings
    rw [sent opcode metric brings]
    exact poisoned_unreachable (neutral.resolve_right fun permitted => permitted.1 denied)

/-- A denied destination that an SIA-QUERY brings is stored as reachable. -/
theorem one_policy_denied : ¬ OnePolicy (.peer 0 0) { dest := ⟨10,8⟩, metric := { delay := 100, bandwidth := 100 } } true
    ⟨[],none,fun _ => false⟩ := by
  intro policy
  have stored := policy.2 rfl _ _ (update_and_siaquery_stored 0 0 _ true _).2 {}
  revert stored
  decide

end Eigrp
