import Eigrp.Settled

/-!
# Removal of an interface

Losing a neighbor or an interface is an event of DUAL at every destination of the table: routes are
poisoned and stay stored until the neighbors have been told. `eigrp_intf_free` erases the destination
of the interface before it hands the loss to DUAL, so nothing is left there that could be told.
-/

namespace Eigrp
open Eigrp.Lib

/-! ## Calls that report a loss -/

/-- A neighbor or a local interface is lost. -/
def Call.loses : Call → Bool
  | .neighbor_down _ | .connected_interface_down _ => true
  | _ => false

/-- The effect leaves the table alone and queues no work for another destination. -/
def Effect.contained (id : Nat) : Effect → Bool
  | .detach => false
  | .enqueue work => work.pd = none ∨ work.pd = some (.shared id)
  | _ => true

/-- All effects are contained to one descriptor. -/
def Contained (id : Nat) (out : List Effect) : Prop := ∀ effect ∈ out, effect.contained id

section Calls
variable {env : Env} {msg : Msg} {pd next : PrefixDescriptor} {after : RouteDescriptor} {nbr : Nbr} {packet : Opcode}
  {sender : Option Nbr} {id : Nat} {out rest : List Effect}

theorem Contained.nil : Contained id [] := by simp [Contained]

theorem Contained.append (first : Contained id out) (second : Contained id rest) : Contained id (out ++ rest) := by
  intro effect member
  rcases List.mem_append.mp member with member | member
  · exact first effect member
  · exact second effect member

theorem Contained.cons {effect : Effect} (first : effect.contained id) (second : Contained id rest) : Contained id (effect :: rest) := by
  intro other member
  rcases List.mem_cons.mp member with rfl | member
  · exact first
  · exact second other member

theorem update_routing_table_contained (env : Env) (pd : PrefixDescriptor) : Contained id (update_routing_table env pd).2 := by
  unfold update_routing_table
  dsimp only
  split
  · split
    · exact .nil
    · exact .cons rfl .nil
  · exact .cons rfl .nil

theorem reply_send_route_contained (same : pd.id = id) (nbr : Option Nbr) (route : Option RouteDescriptor) (poison : Bool) :
    Contained id (reply_send_route pd nbr route poison) := by
  unfold reply_send_route
  split
  · exact .nil
  · refine .cons ?_ .nil
    simp [Effect.contained,same]

theorem passive_refresh_contained (env : Env) (pd : PrefixDescriptor) : Contained id (passive_refresh env pd).2 := by
  rw [passive_refresh_eq]
  refine .append (.cons rfl (update_routing_table_contained env _)) (.cons ?_ .nil)
  simp [update_send_all,Effect.contained]

theorem fsm_event_lr_contained (env : Env) (pd : PrefixDescriptor) : Contained pd.id (fsm_event_lr env pd).2 := by
  simp only [fsm_event_lr]
  refine .append ?_ (.cons rfl (passive_refresh_contained env _))
  split
  · exact reply_send_route_contained (by cases route_read pd <;> rfl) _ _ _
  · exact .nil

theorem fsm_event_lr_fcs_contained (done : fsm_event_lr_fcs env pd = some (next, out)) : Contained pd.id out := by
  obtain ⟨route,_,finished⟩ := Option.bind_eq_some_iff.mp done
  obtain ⟨rfl,rfl⟩ := exec_some finished
  refine .append (.cons rfl ?_) (passive_refresh_contained env _)
  split
  · exact reply_send_route_contained rfl _ _ _
  · exact .nil

theorem diffuse_contained (env : Env) (pd : PrefixDescriptor) : Contained pd.id (diffuse env pd).2 := by
  rcases diffuse_cases env pd with ⟨_,asked⟩ | ⟨_,ended⟩
  · rw [asked]
    exact .cons rfl .nil
  · rw [ended]
    exact fsm_event_lr_contained env _

theorem keep_passive_contained (env : Env) (used : RouteDescriptor) : Contained id (keep_passive env pd used).2 := by
  simp only [keep_passive]
  refine .append ?_ (update_routing_table_contained env _)
  split
  · exact .nil
  · exact .cons rfl .nil

theorem outcome_contained (outcome : Outcome env msg after pd next out) : Contained pd.id out := by
  cases outcome with
  | commit used =>
    refine .append (keep_passive_contained env used) ?_
    split
    · exact reply_send_route_contained (keep_passive_control env pd used).id _ _ _
    · exact .nil
  | start => exact .cons rfl (diffuse_contained env _)
  | start_query => exact .cons rfl (diffuse_contained env _)
  | wait =>
    split
    · unfold active_non_successor_reply_send
      split <;> exact reply_send_route_contained rfl _ _ _
    · exact .nil
  | origin => exact .cons rfl .nil
  | increase => exact .cons rfl .nil
  | last_reply => exact fsm_event_lr_contained env pd
  | last_reply_feasible next out even reply owed done => exact fsm_event_lr_fcs_contained done
  | last_reply_infeasible => exact .cons rfl (diffuse_contained env _)

theorem reaction_contained (reaction : Reaction env pd packet sender nbr next out) : Contained pd.id out := by
  obtain ⟨current,msg,after,rerouted,_,_,_,outcome⟩ := reaction.reacts
  have same : (discharge current msg (some nbr)).id = pd.id := by
    unfold discharge
    split <;> exact rerouted.id
  exact same ▸ outcome_contained outcome

theorem withdrawals_contained (withdrawals : Withdrawals env pd next out) : Contained pd.id out := by
  induction withdrawals with
  | nil => exact .nil
  | cons reaction _ ih =>
    rw [(reaction_identity reaction).id] at ih
    exact .append (reaction_contained reaction) ih

/-- A neighbor that owed a REPLY may end a computation, which changes flags only. -/
theorem fsm_neighbor_down_same (done : fsm_neighbor_down env pd nbr = some (next, out)) : SameRoutes pd next := by
  unfold fsm_neighbor_down at done
  dsimp only at done
  split at done
  · obtain ⟨rfl,rfl⟩ := exec_some done
    exact ⟨rfl,rfl⟩
  · split at done
    · obtain ⟨rfl,rfl⟩ := exec_some done
      exact ⟨rfl,rfl⟩
    · split at done
      · split at done
        · exact (fsm_event_lr_fcs_same done).of_eq rfl rfl
        · obtain ⟨rfl,rfl⟩ := exec_some done
          exact (diffuse_same env _).of_eq rfl rfl
      · obtain ⟨rfl,rfl⟩ := exec_some done
        exact (fsm_event_lr_same env _).of_eq rfl rfl

theorem neighbor_lost_contained (done : neighbor_lost env pd nbr = some (next, out)) : Contained pd.id out := by
  rcases neighbor_lost_cases done with ⟨_,rfl,_⟩ | ⟨_,reaction⟩ | ⟨_,reaction⟩
  · exact .nil
  · exact reaction_contained reaction
  · exact reaction_contained reaction

/-- The routes of some numbers may be gone or others; the rest differs at most by flags. -/
structure Disturbs (gone : Nat → Prop) (pd next : PrefixDescriptor) : Prop where
  kept : ∀ route ∈ pd.routes, ¬ gone route.id → ∃ kept ∈ next.routes, kept.bare = route.bare
  origin : ∀ kept ∈ next.routes, ¬ gone kept.id → ∃ route ∈ pd.routes, kept.bare = route.bare

variable {gone : Nat → Prop}

theorem Disturbs.refl (pd : PrefixDescriptor) : Disturbs gone pd pd :=
  ⟨fun route stored _ => ⟨route,stored,rfl⟩,fun route stored _ => ⟨route,stored,rfl⟩⟩

theorem Disturbs.trans {middle : PrefixDescriptor} (first : Disturbs gone pd middle) (second : Disturbs gone middle next) :
    Disturbs gone pd next where
  kept := by
    intro route stored apart
    obtain ⟨between,held,same⟩ := first.kept route stored apart
    obtain ⟨kept,member,equal⟩ := second.kept between held ((bare_number same).symm ▸ apart)
    exact ⟨kept,member,equal.trans same⟩
  origin := by
    intro kept member apart
    obtain ⟨between,held,same⟩ := second.origin kept member apart
    obtain ⟨route,stored,equal⟩ := first.origin between held ((bare_number same) ▸ apart)
    exact ⟨route,stored,same.trans equal⟩

theorem SameRoutes.disturbs (same : SameRoutes pd next) : Disturbs gone pd next := by
  constructor
  · intro route stored _
    have listed : route.bare ∈ next.routes.map (·.bare) := same.routes ▸ List.mem_map_of_mem stored
    obtain ⟨kept,held,equal⟩ := List.mem_map.mp listed
    exact ⟨kept,held,equal⟩
  · intro kept held _
    have listed : kept.bare ∈ pd.routes.map (·.bare) := same.routes ▸ List.mem_map_of_mem held
    obtain ⟨route,stored,equal⟩ := List.mem_map.mp listed
    exact ⟨route,stored,equal.symm⟩

theorem fsm_event_disturbs {route : RouteDescriptor} (about : gone route.id) (done : fsm_event env pd msg route = some (next, out)) :
    Disturbs gone pd next := by
  obtain ⟨current,last,after,change,measured,queues⟩ := fsm_event_linked done
  have linking := update_distance_linking measured
  constructor
  · intro other stored apart
    exact linking.fate queues stored fun same => apart (same ▸ about)
  · intro kept held apart
    exact linking.origin queues held fun same => apart (same ▸ about)

theorem connected_routes_down_disturbs {ids : List Nat} (about : ∀ id ∈ ids, gone id)
    (done : connected_routes_down env ids pd = some (next, out)) : Disturbs gone pd next := by
  induction ids generalizing pd next out with
  | nil =>
    cases done
    exact .refl pd
  | cons id ids ih =>
    obtain ⟨route,found,done⟩ := Option.bind_eq_some_iff.mp done
    obtain ⟨⟨middle,first⟩,event,done⟩ := Option.bind_eq_some_iff.mp done
    obtain ⟨⟨last,rest⟩,loop,finished⟩ := Option.bind_eq_some_iff.mp done
    cases finished
    have number : route.id = id := by simpa using List.find?_some found
    have here : gone route.id := number ▸ about id (by simp)
    exact (fsm_event_disturbs here event).trans (ih (fun other member => about other (by simp [member])) loop)

/-- The numbers of the routes that a reported loss is about. -/
def Call.lost (pd : PrefixDescriptor) (call : Call) (id : Nat) : Prop :=
  ∃ route ∈ pd.routes, route.id = id ∧ match call with
    | .neighbor_down nbr => route.adv_router = some nbr
    | .connected_interface_down ei => route.adv_router = some .self ∧ route.ei = some ei
    | _ => False

/-- A loss is contained to the destination, and to the routes that it is about. -/
theorem exec_loses {call : Call} (loses : call.loses) (done : exec env pd call = some (next, out)) :
    Disturbs (call.lost pd) pd next ∧ Contained pd.id out := by
  cases call with
  | neighbor_down nbr =>
    have done : neighbor_down_pd env pd nbr = some (next, out) := done
    constructor
    · unfold neighbor_down_pd neighbor_lost at done
      split at done
      · rename_i route found
        obtain ⟨stored,adv_router⟩ := lookup_stored found
        have disturbs := @fsm_event_disturbs _ _ _ _ _ ((Call.neighbor_down nbr).lost pd) route ⟨route,stored,rfl,adv_router⟩ done
        exact ⟨disturbs.kept,disturbs.origin⟩
      · have disturbs := @SameRoutes.disturbs _ _ ((Call.neighbor_down nbr).lost pd) (fsm_neighbor_down_same done)
        exact ⟨disturbs.kept,disturbs.origin⟩
    · have contained := neighbor_lost_contained done
      exact contained
  | connected_interface_down ei =>
    refine ⟨connected_routes_down_disturbs ?_ done,withdrawals_contained (connected_routes_down_withdrawals done)⟩
    intro id listed
    obtain ⟨route,member,number⟩ := List.mem_map.mp listed
    obtain ⟨stored,placed⟩ := List.mem_filter.mp member
    exact ⟨route,stored,number,by simpa using placed⟩
  | _ => simp [Call.loses] at loses

end Calls

/-! ## What losses leave alone -/

section Losses
variable {ei : Nat}

/-- The route was learned on the interface, or the interface connects it. -/
def RouteDescriptor.through (route : RouteDescriptor) (ei : Nat) : Bool :=
  match route.adv_router with
  | some (.peer learned _) => learned = ei
  | some .self => route.ei = some ei
  | none => false

/-- No route of this number is through the interface. -/
def apart (ei : Nat) (pd : PrefixDescriptor) (id : Nat) : Prop := ∀ route ∈ pd.routes, route.id = id → ¬ route.through ei

/-- Between the two instances losses on an interface were reported to the destinations of the table: nothing was sent, no
    route of another interface was deleted, and whatever the table does not find is as before. -/
structure Spares (ei : Nat) (before after : Instance) : Prop where
  topology_table : after.topology_table = before.topology_table
  sent : after.sent = before.sent
  topology_changes : ∀ id, id ∉ before.topology_table → (id ∈ after.topology_changes ↔ id ∈ before.topology_changes)
  packetizer : ∀ work id, work.pd = some (.shared id) → id ∉ before.topology_table →
    (work ∈ after.packetizer ↔ work ∈ before.packetizer)
  descriptor : ∀ id, id ∉ before.topology_table → after.descriptor id = before.descriptor id
  kept : ∀ id pd, before.descriptor id = some pd → ∃ next, after.descriptor id = some next ∧
    next.destination = pd.destination ∧ ∀ route ∈ pd.routes, apart ei pd route.id →
      apart ei next route.id ∧ ∃ kept ∈ next.routes, kept.id = route.id
  origin : ∀ id next, after.descriptor id = some next → ∃ pd, before.descriptor id = some pd

/-- Table, descriptors, changes, queue and transmissions are the same. -/
theorem Spares.same {before after : Instance} (prefixes : after.prefixes = before.prefixes)
    (topology_table : after.topology_table = before.topology_table) (sent : after.sent = before.sent)
    (topology_changes : after.topology_changes = before.topology_changes) (packetizer : after.packetizer = before.packetizer) :
    Spares ei before after where
  topology_table := topology_table
  sent := sent
  topology_changes := by
    intro id _
    rw [topology_changes]
  packetizer := by
    intro work id _ _
    rw [packetizer]
  descriptor := fun id _ => descriptor_of_prefixes prefixes id
  kept := by
    intro id pd found
    rw [← descriptor_of_prefixes prefixes] at found
    exact ⟨pd,found,rfl,fun route member apart => ⟨apart,route,member,rfl⟩⟩
  origin := by
    intro id next found
    rw [descriptor_of_prefixes prefixes] at found
    exact ⟨next,found⟩

theorem Spares.refl (eigrp : Instance) : Spares ei eigrp eigrp := .same rfl rfl rfl rfl rfl

theorem Spares.trans {before middle after : Instance} (first : Spares ei before middle) (second : Spares ei middle after) :
    Spares ei before after where
  topology_table := second.topology_table.trans first.topology_table
  sent := second.sent.trans first.sent
  topology_changes := by
    intro id missing
    exact (second.topology_changes id (first.topology_table ▸ missing)).trans (first.topology_changes id missing)
  packetizer := by
    intro work id names missing
    exact (second.packetizer work id names (first.topology_table ▸ missing)).trans (first.packetizer work id names missing)
  descriptor := by
    intro id missing
    exact (second.descriptor id (first.topology_table ▸ missing)).trans (first.descriptor id missing)
  kept := by
    intro id pd found
    obtain ⟨middle,between,same,stored⟩ := first.kept id pd found
    obtain ⟨last,present,equal,remains⟩ := second.kept id middle between
    refine ⟨last,present,equal.trans same,fun route member apart => ?_⟩
    obtain ⟨still,kept,there,number⟩ := stored route member apart
    obtain ⟨again,final,here,last⟩ := remains kept there (number.symm ▸ still)
    exact ⟨number ▸ again,final,here,last.trans number⟩
  origin := by
    intro id next found
    obtain ⟨pd,between⟩ := second.origin id next found
    exact first.origin id pd between

section Machines
variable {machine : Machine}

theorem Machine.other_spares {update : Instance → Instance} (spares : Spares ei machine.state (update machine.state)) :
    Spares ei machine.state (machine.other update).state := by
  unfold Machine.other
  split
  · exact .refl _
  · exact spares

theorem enqueue_spares {work : Work} (list : work.pd = none) (eigrp : Instance) : Spares ei eigrp (eigrp.packetizer_enqueue work) := by
  refine { Spares.refl eigrp with packetizer := fun other _ names _ => ?_ }
  have different : other ≠ work := by
    rintro rfl
    simp [list] at names
  simp [Instance.packetizer_enqueue,different]

theorem send_all_spares (exception : Option Nat) (machine : Machine) : Spares ei machine.state (send_all exception machine).state := by
  have queries : Spares ei machine.state (query_send_all machine).state := by
    unfold query_send_all
    split
    · exact Machine.other_spares (enqueue_spares rfl _)
    · exact .refl _
  exact queries.trans (Machine.other_spares (enqueue_spares rfl _))

theorem neighbor_write_spares (eigrp : Instance) (nbr : Nbr) (update : Neighbor → Neighbor) :
    Spares ei eigrp (eigrp.neighbor_write nbr update) := .same rfl rfl rfl rfl rfl

theorem nbr_down_deferred_spares (nbr : Nbr) (machine : Machine) : Spares ei machine.state (nbr_down_deferred nbr machine).state := by
  refine Machine.other_spares ?_
  split
  · exact .refl _
  · split
    · exact .same rfl rfl rfl rfl rfl
    · exact neighbor_write_spares _ _ _

end Machines

/-! ## The destination of the interface -/

/-- The TLV reaches the neighbor and is about the destination. -/
def Transmission.reaches (transmission : Transmission) (nbr : Nbr) (destination : Prefix) : Bool :=
  transmission.tlv.dest = destination ∧ nbr.ei = some transmission.ei ∧ (transmission.nbr = none ∨ transmission.nbr = some nbr)

/-- An UPDATE that poisons the destination for the neighbor, or a QUERY for it. -/
def Transmission.withdraws (transmission : Transmission) (nbr : Nbr) (destination : Prefix) : Bool :=
  transmission.reaches nbr destination ∧
    (transmission.opcode = .query ∨ (transmission.opcode = .update ∧ transmission.tlv.metric.delay = max_metric))

/-- A QUERY for the descriptor, or an UPDATE that poisons it, is queued: an item names it, or it is on the list of changes
    with such an action. -/
def WithdrawalQueued (eigrp : Instance) (id : Nat) (pd : PrefixDescriptor) : Prop :=
  (∃ work ∈ eigrp.packetizer, work.pd = some (.shared id) ∧ work.nbr = none ∧ work.defer_free = false ∧
      (work.opcode = .query ∨
        (work.opcode = .update ∧ (packetizer_route_select pd work.route .update).metric.delay = max_metric))) ∨
    (id ∈ eigrp.topology_changes ∧
      (pd.need_query ∨ (pd.need_update ∧ (packetizer_route_select pd none .update).metric.delay = max_metric)))

/-- The destination has been erased. -/
structure Erased (destination : Prefix) (before after : Instance) : Prop where
  topology_table : ∀ id, id ∈ after.topology_table ↔
    id ∈ before.topology_table ∧ ∀ pd, before.descriptor id = some pd → pd.destination ≠ destination
  sent : after.sent = before.sent
  packetizer : after.packetizer = before.packetizer
  topology_changes : ∀ id, id ∉ before.topology_table → (id ∈ after.topology_changes ↔ id ∈ before.topology_changes)
  descriptor : ∀ id, id ∈ after.topology_table ∨ id ∉ before.topology_table → after.descriptor id = before.descriptor id
  gone : ∀ id ∈ before.topology_table, ∀ pd, before.descriptor id = some pd → pd.destination = destination →
    after.descriptor id = none

theorem Erased.queued {destination : Prefix} {before middle after : Instance} (erased : Erased destination before middle)
    (spares : Spares ei middle after) {id : Nat} (pd : PrefixDescriptor) (missing : id ∉ before.topology_table) :
    WithdrawalQueued after id pd ↔ WithdrawalQueued before id pd := by
  have outside : id ∉ middle.topology_table := fun still => missing ((erased.topology_table id).mp still).1
  have listed := (spares.topology_changes id outside).trans (erased.topology_changes id missing)
  have named (work : Work) (names : work.pd = some (.shared id)) : work ∈ after.packetizer ↔ work ∈ before.packetizer := by
    rw [spares.packetizer work id names outside,erased.packetizer]
  unfold WithdrawalQueued
  rw [listed]
  refine or_congr ⟨?_,?_⟩ .rfl
  · rintro ⟨work,member,names,rest⟩
    exact ⟨work,(named work names).mp member,names,rest⟩
  · rintro ⟨work,member,names,rest⟩
    exact ⟨work,(named work names).mpr member,names,rest⟩

end Losses

end Eigrp
