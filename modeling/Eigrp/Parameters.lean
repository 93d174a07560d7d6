import Eigrp.Allocation

/-!
# What changes the parameters of metrics

Distances are computed from the weights, the version and the maximum number of hops, and from the delay, the
bandwidth and the rest of an interface. Configuration and interfaces that come and go change them; no
other event does.
-/

namespace Eigrp
open Eigrp.Lib

/-- The parameters that distances are computed from. -/
structure SameParameters (before after : Instance) : Prop where
  metric : after.metric = before.metric
  params : after.env.params = before.env.params

section Changes
variable {before after : Instance}

theorem SameParameters.refl (eigrp : Instance) : SameParameters eigrp eigrp := ⟨rfl,rfl⟩

theorem SameParameters.trans {middle : Instance} (first : SameParameters before middle) (second : SameParameters middle after) :
    SameParameters before after := ⟨second.metric.trans first.metric,second.params.trans first.params⟩

theorem SameParameters.of_env (same : after.env = before.env) : SameParameters before after :=
  ⟨(congrArg Env.metric same : after.env.metric = before.env.metric),congrArg Env.params same⟩

theorem SameParameters.of_eiflist (metric : after.metric = before.metric) (eiflist : after.eiflist = before.eiflist) :
    SameParameters before after := by
  refine ⟨metric,?_⟩
  simp only [Instance.env,Instance.intf,eiflist]

/-- Neighbors may come, change and go. -/
theorem SameParameters.neighbors (eigrp : Instance) {update : Intf → Intf} (number : ∀ intf, (update intf).id = intf.id)
    (params : ∀ intf, (update intf).params = intf.params) :
    SameParameters eigrp { eigrp with eiflist := eigrp.eiflist.map update } := by
  refine ⟨rfl,?_⟩
  funext ei
  have found : (eigrp.eiflist.map update).find? (fun intf => intf.id = ei) = (eigrp.eiflist.find? fun intf => intf.id = ei).map update := by
    rw [List.find?_map]
    simp only [Function.comp_def,number]
  simp only [Instance.env,Instance.intf,found,Option.map_map]
  congr 2
  funext intf
  exact params intf

theorem SameParameters.neighbor_write (eigrp : Instance) (nbr : Nbr) (update : Neighbor → Neighbor) :
    SameParameters eigrp (eigrp.neighbor_write nbr update) := by
  refine .neighbors eigrp (fun intf => ?_) fun intf => ?_ <;> split <;> rfl

end Changes

/-! ## Steps -/

/-- The seed of a redistributed path is not the zero vector that a new route holds. -/
def Seeded (metric : Metrics) : Prop := metrics_match metric {} = false

/-- A call that redistributes brings such a seed. -/
def Call.Seeds (call : Call) : Prop := ∀ source metric, call = .redistributed_update source metric → Seeded metric

/-- A step that leaves the parameters alone; one that redistributes has a seed. -/
structure Undisturbed (step : Step Instance Label) : Prop where
  parameters : SameParameters step.before step.after
  seeds : ∀ id call, step.label = .perform id call → call.Seeds

/-- The second machine continues the first by such steps. -/
abbrev Machine.Proceeds (machine next : Machine) : Prop := Recorded.Extends Undisturbed machine next

theorem act_env (eigrp : Instance) (label : Label) : (eigrp.act label).env = eigrp.env := by
  have detached (pd : PrefixDescriptor) : (eigrp.prefix_detach pd).env = eigrp.env := by
    unfold Instance.prefix_detach
    split <;> rfl
  cases label with
  | perform id call =>
    simp only [Instance.act,Instance.perform]
    split
    · rfl
    · split
      · rfl
      · rw [effects_env]
        rfl
  | create creation =>
    simp only [Instance.act,Instance.create]
    split
    · rfl
    · rw [effects_env]
      rfl
  | detach id =>
    simp only [Instance.act]
    split
    · rfl
    · exact detached _
  | delete id =>
    simp only [Instance.act,Instance.delete]
    split
    · rfl
    · split <;> rfl
  | free id => rfl
  | other => rfl

theorem Machine.Proceeds.refl (machine : Machine) : machine.Proceeds machine := Recorded.Extends.refl machine

theorem Machine.Proceeds.parameters {machine next : Machine} (proceeds : machine.Proceeds next) :
    SameParameters machine.state next.state := by
  refine Recorded.Extends.invariant proceeds (fun step _ calm same => ?_) (.refl machine.state)
  exact same.trans calm.parameters

theorem Machine.act_proceeds (label : Label) (machine : Machine) (seeds : ∀ id call, label = .perform id call → call.Seeds) :
    machine.Proceeds (machine.act label) := by
  unfold Machine.act
  split
  · exact .refl machine
  · exact Recorded.Extends.record _ _ machine ⟨.of_env (act_env machine.state label),seeds⟩

theorem Machine.perform_proceeds (id : Nat) {call : Call} (machine : Machine) (seeds : call.Seeds) :
    machine.Proceeds (machine.perform id call) := by
  refine machine.act_proceeds _ ?_
  intro _ _ same
  cases same
  exact seeds

theorem Machine.other_proceeds (update : Instance → Instance) (machine : Machine)
    (same : SameParameters machine.state (update machine.state)) : machine.Proceeds (machine.other update) := by
  unfold Machine.other
  split
  · exact .refl machine
  · exact Recorded.Extends.record _ _ machine ⟨same,by simp⟩

theorem neighbor_write_proceeds (nbr : Nbr) (update : Neighbor → Neighbor) (machine : Machine) :
    machine.Proceeds (machine.other fun eigrp => eigrp.neighbor_write nbr update) :=
  Machine.other_proceeds _ machine (.neighbor_write _ nbr update)

theorem fail_proceeds (machine : Machine) : machine.Proceeds (machine.other fun eigrp => eigrp.fail .dangling) :=
  Machine.other_proceeds _ machine ⟨rfl,rfl⟩

theorem optional_proceeds {machine next : Machine} (condition : Prop) [Decidable condition] (proceeds : machine.Proceeds next) :
    machine.Proceeds (if condition then next else machine) := by
  split
  · exact proceeds
  · exact .refl machine

theorem perform_loop_proceeds {call : Call} (seeds : call.Seeds) (ids : List Nat) (machine : Machine) :
    machine.Proceeds (ids.foldl (fun machine id => machine.perform id call) machine) :=
  Recorded.Extends.foldl _ (fun machine id => Machine.perform_proceeds id machine seeds) ids machine

/-! ## Neighbors -/

theorem send_all_proceeds (exception : Option Nat) (machine : Machine) : machine.Proceeds (send_all exception machine) := by
  have queried : machine.Proceeds (query_send_all machine) := by
    unfold query_send_all
    split
    · exact Machine.other_proceeds _ machine ⟨rfl,rfl⟩
    · exact .refl machine
  exact queried.trans (Machine.other_proceeds _ _ ⟨rfl,rfl⟩)

theorem topology_changes_send_proceeds (destination : Prefix) (machine : Machine) :
    machine.Proceeds (topology_changes_send destination machine) := by
  unfold topology_changes_send
  split
  · exact .refl machine
  · rename_i pd _
    have queried : machine.Proceeds (if pd.need_query then query_send_all machine else machine) := by
      unfold query_send_all
      split
      · split
        · exact Machine.other_proceeds _ machine ⟨rfl,rfl⟩
        · exact .refl machine
      · exact .refl machine
    dsimp only
    split
    · exact queried.trans (Machine.other_proceeds _ _ ⟨rfl,rfl⟩)
    · exact queried

theorem topology_neighbor_down_proceeds (nbr : Nbr) (machine : Machine) : machine.Proceeds (topology_neighbor_down nbr machine) :=
  (perform_loop_proceeds (by simp [Call.Seeds]) _ machine).trans (send_all_proceeds _ _)

theorem nbr_down_deferred_proceeds (nbr : Nbr) (machine : Machine) : machine.Proceeds (nbr_down_deferred nbr machine) := by
  refine Machine.other_proceeds _ machine ?_
  split
  · exact .refl _
  · split
    · exact ⟨rfl,rfl⟩
    · exact .neighbor_write _ nbr _

theorem nbr_down_proceeds (nbr : Nbr) (machine : Machine) : machine.Proceeds (nbr_down nbr machine) :=
  (nbr_down_deferred_proceeds nbr machine).trans (topology_neighbor_down_proceeds nbr _)

theorem nbr_delete_proceeds (nbr : Nbr) (machine : Machine) : machine.Proceeds (nbr_delete nbr machine) := by
  unfold nbr_delete
  split
  · exact .refl machine
  · refine .trans ?_ (topology_neighbor_down_proceeds nbr _)
    refine (nbr_down_deferred_proceeds nbr machine).trans (Machine.other_proceeds _ _ ?_)
    exact .neighbors _ (fun _ => rfl) fun _ => rfl

theorem suspended_neighbors_down_proceeds (peers : List Nbr) (machine : Machine) :
    machine.Proceeds (topology_suspended_neighbors_down peers machine) := by
  refine .trans (Recorded.Extends.foldl _ ?_ _ machine) (send_all_proceeds none _)
  intro machine id
  have cleared := @Machine.perform_proceeds id (.suspended_origin_clear peers) machine (by simp [Call.Seeds])
  dsimp only
  split
  · exact cleared
  · exact cleared.trans (Recorded.Extends.foldl _ (fun machine nbr => Machine.perform_proceeds id machine (by simp [Call.Seeds])) _ _)

/-! ## Packets -/

theorem walk_proceeds (nbr : Nbr) (stops : Bool) {body : Received → Machine → Machine}
    (proceeds : ∀ received (machine : Machine), machine.Proceeds (body received machine)) (routes : List Received)
    (machine : Machine) : machine.Proceeds (walk nbr stops body routes machine) := by
  induction routes generalizing machine with
  | nil => exact .refl machine
  | cons received routes ih =>
    have marked : machine.Proceeds (limit_mark nbr received machine) := by
      unfold limit_mark
      split
      · exact neighbor_write_proceeds nbr _ machine
      · exact .refl machine
    have handled := marked.trans (proceeds received _)
    unfold walk
    dsimp only
    split
    · exact handled
    · exact handled.trans (ih _)

theorem update_receive_route_proceeds (nbr : Nbr) (received : Received) (machine : Machine) :
    machine.Proceeds (update_receive_route nbr received machine) := by
  unfold update_receive_route
  split
  · exact Machine.perform_proceeds _ machine (by simp [Call.Seeds])
  · split
    · exact .refl machine
    · exact Machine.act_proceeds _ machine (by simp)

theorem peer_restart_proceeds (nbr : Nbr) (packet : Packet) (machine : Machine) :
    machine.Proceeds (peer_restart nbr packet machine) := by
  refine .trans ?_ (neighbor_write_proceeds nbr _ _)
  exact (neighbor_write_proceeds nbr _ machine).trans (topology_neighbor_down_proceeds nbr _)

theorem receive_gr_ask_proceeds (nbr : Nbr) (ids : List Nat) (machine : Machine) :
    machine.Proceeds (receive_gr_ask nbr ids machine) := perform_loop_proceeds (by simp [Call.Seeds]) ids machine

theorem update_receive_proceeds (nbr : Nbr) (packet : Packet) (machine : Machine) :
    machine.Proceeds (update_receive nbr packet machine) := by
  unfold update_receive
  split
  · exact .refl machine
  · split
    · refine Machine.other_proceeds _ machine ?_
      split
      · exact .neighbor_write _ nbr _
      · exact .refl _
    · refine .trans ?_ (optional_proceeds _ (fail_proceeds _))
      refine .trans ?_ (send_all_proceeds nbr.ei _)
      refine .trans ?_ (neighbor_write_proceeds nbr _ _)
      refine .trans ?_ (optional_proceeds _ (receive_gr_ask_proceeds nbr _ _))
      refine .trans ?_ (optional_proceeds _ (receive_gr_ask_proceeds nbr _ _))
      refine .trans ?_ (walk_proceeds nbr true (update_receive_route_proceeds nbr) packet.routes _)
      refine .trans ?_ (optional_proceeds _ (peer_restart_proceeds nbr packet _))
      exact neighbor_write_proceeds nbr _ machine

theorem query_receive_route_proceeds (nbr : Nbr) (received : Received) (machine : Machine) :
    machine.Proceeds (query_receive_route nbr received machine) := by
  unfold query_receive_route
  split
  · exact Machine.perform_proceeds _ machine (by simp [Call.Seeds])
  · exact Machine.other_proceeds _ machine ⟨rfl,rfl⟩
  · have answered := Machine.other_proceeds
      (fun eigrp => eigrp.effect { id := 0, destination := received.tlv.dest } (query_unknown_reply_send nbr received.tlv)) machine ⟨rfl,rfl⟩
    dsimp only
    split
    · exact answered.trans (Machine.act_proceeds _ _ (by simp))
    · exact answered

theorem known_receive_route_proceeds {call : Received → Call} (seeds : ∀ received, (call received).Seeds) (received : Received)
    (machine : Machine) : machine.Proceeds (known_receive_route call received machine) := by
  unfold known_receive_route
  split
  · exact .refl machine
  · exact Machine.perform_proceeds _ machine (seeds received)

theorem packet_dispatch_proceeds (nbr : Nbr) (packet : Packet) (machine : Machine) :
    machine.Proceeds (packet_dispatch nbr packet machine) := by
  have numbered : machine.Proceeds (recv_sequence_update nbr packet machine) := neighbor_write_proceeds nbr _ machine
  unfold packet_dispatch
  split
  · exact update_receive_proceeds nbr packet machine
  · exact (numbered.trans (walk_proceeds nbr true (query_receive_route_proceeds nbr) _ _)).trans (send_all_proceeds nbr.ei _)
  · refine .trans ?_ (send_all_proceeds nbr.ei _)
    exact numbered.trans (walk_proceeds nbr false (known_receive_route_proceeds (by simp [Call.Seeds])) _ _)
  · exact numbered.trans (walk_proceeds nbr false (known_receive_route_proceeds (by simp [Call.Seeds])) _ _)
  · exact numbered.trans (walk_proceeds nbr false (known_receive_route_proceeds (by simp [Call.Seeds])) _ _)

theorem packet_receive_proceeds (nbr : Nbr) (packet : Packet) (machine : Machine) :
    machine.Proceeds (packet_receive nbr packet machine) := by
  rcases packet_receive_cases nbr packet machine with same | ⟨_,_,_,handled⟩
  · rw [same]
    exact .refl machine
  · rw [handled]
    have dispatched := packet_dispatch_proceeds nbr packet machine
    split
    · exact dispatched.trans (nbr_down_proceeds nbr _)
    · exact dispatched

/-! ## Graceful restarts -/

theorem gr_part_send_proceeds (restart : Restart) (nbr : Nbr) (intf : Intf) (pd : PrefixDescriptor) (route : RouteDescriptor)
    (machine : Machine) : machine.Proceeds (gr_part_send restart nbr intf pd route machine) := by
  have asked (machine : Machine) : machine.Proceeds (machine.perform pd.id (.gr_ask nbr)) :=
    Machine.perform_proceeds _ machine (by simp [Call.Seeds])
  unfold gr_part_send
  refine .trans ?_ (optional_proceeds _ (asked _))
  exact optional_proceeds _ (Machine.other_proceeds _ machine ⟨rfl,rfl⟩)

theorem gr_part_walk_proceeds (restart : Restart) (nbr : Nbr) (intf : Intf) (ids : List Nat) (route_count : Nat) (machine : Machine) :
    machine.Proceeds (gr_part_walk restart nbr intf ids route_count machine).1 := by
  induction ids generalizing route_count machine with
  | nil => exact .refl machine
  | cons id ids ih =>
    unfold gr_part_walk
    split
    · exact fail_proceeds machine
    · split
      · exact ih _ machine
      · split
        · exact ih _ machine
        · split
          · exact (gr_part_send_proceeds restart nbr intf _ _ machine).trans (ih _ _)
          · split
            · exact .refl machine
            · exact ih _ machine

theorem update_send_GR_part_proceeds (nbr : Nbr) (restart : Restart) (machine : Machine) :
    machine.Proceeds (update_send_GR_part nbr restart machine) := by
  unfold update_send_GR_part
  split
  · exact (gr_part_walk_proceeds restart nbr _ _ 0 machine).trans (neighbor_write_proceeds nbr _ _)
  · exact .refl machine

/-! ## Interfaces, redistribution, operator -/

theorem intf_up_proceeds (ei : Nat) (machine : Machine) : machine.Proceeds (intf_up ei machine) := by
  unfold intf_up
  split
  · exact .refl machine
  · refine .trans ?_ (Machine.other_proceeds _ _ ⟨rfl,rfl⟩)
    split
    · exact Machine.perform_proceeds _ machine (by simp [Call.Seeds])
    · exact Machine.act_proceeds _ machine (by simp)

theorem intf_down_proceeds (ei : Nat) (machine : Machine) : machine.Proceeds (intf_down ei machine) := by
  unfold intf_down
  split
  · exact .refl machine
  · refine .trans ?_ (send_all_proceeds _ _)
    refine .trans ?_ (perform_loop_proceeds (by simp [Call.Seeds]) _ _)
    exact Recorded.Extends.foldl _ (fun machine _ => nbr_delete_proceeds _ machine) _ machine

/-- What `eigrp_intf_free` does before it takes the interface off the list. -/
def intf_released (ei : Nat) (machine : Machine) : Machine :=
  intf_down ei (match (machine.state.intf ei).bind fun intf => intf.destination.bind machine.state.topology_table_lookup with
    | some pd => machine.act (.delete pd.id)
    | none => machine)

theorem intf_free_released (ei : Nat) (machine : Machine) : intf_free ei machine =
    if (machine.state.intf ei).isSome then
      (intf_released ei machine).other fun eigrp => { eigrp with eiflist := eigrp.eiflist.filter fun intf => intf.id ≠ ei }
    else machine := by
  unfold intf_free intf_released
  cases found : machine.state.intf ei <;> rfl

theorem intf_released_proceeds (ei : Nat) (machine : Machine) : machine.Proceeds (intf_released ei machine) := by
  unfold intf_released
  refine .trans ?_ (intf_down_proceeds ei _)
  split
  · exact Machine.act_proceeds _ machine (by simp)
  · exact .refl machine

theorem redistributed_route_update_proceeds (destination : Prefix) (source : Source) {metric : Metrics} (seeded : Seeded metric)
    (machine : Machine) : machine.Proceeds (redistributed_route_update destination source metric machine) := by
  refine .trans ?_ (topology_changes_send_proceeds destination _)
  split
  · refine Machine.perform_proceeds _ machine ?_
    intro _ _ same
    cases same
    exact seeded
  · exact Machine.act_proceeds _ machine (by simp)

theorem redistributed_route_remove_proceeds (destination : Prefix) (source : Source) (machine : Machine) :
    machine.Proceeds (redistributed_route_remove destination source machine) := by
  unfold redistributed_route_remove
  split
  · exact .refl machine
  · split
    · exact .refl machine
    · exact (Machine.perform_proceeds _ machine (by simp [Call.Seeds])).trans (topology_changes_send_proceeds destination _)

theorem topology_clear_proceeds (destination : Prefix) (machine : Machine) : machine.Proceeds (topology_clear destination machine) := by
  unfold topology_clear
  split
  · exact .refl machine
  · rename_i pd _
    have detached := machine.act_proceeds (.detach pd.id) (by simp)
    unfold topology_clear_prefix
    dsimp only
    split
    · split
      · exact detached.trans (Machine.act_proceeds _ _ (by simp))
      · exact detached
    · split
      · exact detached
      · exact detached.trans (Machine.act_proceeds _ _ (by simp))

theorem active_timer_expired_proceeds (id : Nat) (machine : Machine) : machine.Proceeds (active_timer_expired id machine) := by
  unfold active_timer_expired
  split
  · exact .refl machine
  · split
    · exact .refl machine
    · have expired := @Machine.perform_proceeds id .active_timer_expired machine (by simp [Call.Seeds])
      dsimp only
      split
      · split
        · exact expired.trans (nbr_delete_proceeds _ _)
        · exact expired.trans (fail_proceeds _)
      · exact expired

/-! ## The packetizer -/

theorem builder_route_add_proceeds (egress : Egress) (ei : Nat) (nbr : Option Nbr) (opcode : Opcode) (dest : Prefix)
    (route : RouteDescriptor) (machine : Machine) : machine.Proceeds (builder_route_add egress ei nbr opcode dest route machine) := by
  unfold builder_route_add
  split
  · exact Machine.other_proceeds _ machine ⟨rfl,rfl⟩
  · exact .refl machine

theorem intf_route_send_proceeds (egress : Egress) (intf : Intf) (opcode : Opcode) (pd : PrefixDescriptor) (route : RouteDescriptor)
    (summary : Option (Prefix × RouteDescriptor)) (emit : Bool) (machine : Machine) :
    machine.Proceeds (intf_route_send egress intf opcode pd route summary emit machine) := by
  have advertise (dest : Prefix) (route : RouteDescriptor) (machine : Machine) :
      machine.Proceeds (if egress.filtered intf.id dest then machine
        else builder_route_add egress intf.id none opcode dest (packetizer_poison_reverse intf opcode route) machine) := by
    split
    · exact .refl machine
    · exact builder_route_add_proceeds ..
  cases summary with
  | none =>
    simp only [intf_route_send]
    split
    · exact (advertise _ _ machine).trans (Machine.perform_proceeds _ _ (by simp [Call.Seeds]))
    · exact advertise _ _ machine
  | some summary =>
    simp only [intf_route_send]
    have first : machine.Proceeds (if emit then (if egress.filtered intf.id summary.1 then machine
        else builder_route_add egress intf.id none opcode summary.1
          (packetizer_poison_reverse intf opcode summary.2) machine) else machine) := by
      split
      · exact advertise _ _ machine
      · exact .refl machine
    split
    · exact first.trans (advertise _ _ _)
    · exact first

theorem dereference_proceeds {id : Nat} {body : PrefixDescriptor → Machine → Machine} {machine : Machine}
    (proceeds : ∀ pd, machine.Proceeds (body pd machine)) : machine.Proceeds (machine.dereference id body) := by
  unfold Machine.dereference
  split
  · exact proceeds _
  · exact fail_proceeds machine

theorem packetizer_intf_prefix_send_proceeds (egress : Egress) (work : Work) (id : Nat) (machine : Machine) (intf : Intf) :
    machine.Proceeds (packetizer_intf_prefix_send egress work id machine intf) := by
  unfold packetizer_intf_prefix_send
  split
  · exact .refl machine
  · apply dereference_proceeds
    intro pd
    split
    · exact .refl machine
    · exact intf_route_send_proceeds ..

theorem packetizer_neighbor_route_send_proceeds (egress : Egress) (work : Work) (nbr : Nbr) (machine : Machine) :
    machine.Proceeds (packetizer_neighbor_route_send egress work nbr machine) := by
  unfold packetizer_neighbor_route_send
  dsimp only
  split
  · split
    · exact .refl machine
    · split
      · exact .refl machine
      · exact builder_route_add_proceeds ..
      · exact dereference_proceeds fun pd => builder_route_add_proceeds ..
  · exact fail_proceeds machine

theorem change_send_proceeds (egress : Egress) (action : Action) (intf : Intf) (turn : Machine × List Prefix) (id : Nat) :
    turn.1.Proceeds (change_send egress action intf turn id).1 := by
  obtain ⟨machine,summary_seen⟩ := turn
  unfold change_send
  dsimp only
  split
  · exact fail_proceeds machine
  · split
    · exact .refl machine
    · split
      · exact .refl machine
      · exact intf_route_send_proceeds ..

theorem intf_changes_send_proceeds (egress : Egress) (action : Action) (exception : Option Nat) (machine : Machine) (intf : Intf) :
    machine.Proceeds (intf_changes_send egress action exception machine intf) := by
  have loop (ids : List Nat) (turn : Machine × List Prefix) : turn.1.Proceeds (ids.foldl (change_send egress action intf) turn).1 := by
    induction ids generalizing turn with
    | nil => exact .refl turn.1
    | cons id ids ih => exact (change_send_proceeds egress action intf turn id).trans (ih _)
  unfold intf_changes_send
  split
  · exact .refl machine
  · exact loop _ (machine, [])

theorem change_drain_proceeds (action : Action) (drain : Drain) (id : Nat) :
    drain.machine.Proceeds (change_drain action drain id).machine := by
  have cleared : drain.machine.Proceeds
      ((if action = .need_query then drain.machine.perform id .query_sent else drain.machine).perform id (.action_clear action)) := by
    refine .trans ?_ (Machine.perform_proceeds _ _ (by simp [Call.Seeds]))
    split
    · exact Machine.perform_proceeds _ _ (by simp [Call.Seeds])
    · exact .refl _
  unfold change_drain
  split
  · exact fail_proceeds _
  · split
    · split <;> exact .refl _
    · dsimp only
      split
      · exact cleared
      · split
        · exact cleared
        · split <;> exact cleared

theorem packetizer_changes_send_proceeds (egress : Egress) (action : Action) (exception : Option Nat) (machine : Machine) :
    machine.Proceeds (packetizer_changes_send egress action exception machine) := by
  have drained (ids : List Nat) (drain : Drain) : drain.machine.Proceeds (ids.foldl (change_drain action) drain).machine := by
    induction ids generalizing drain with
    | nil => exact .refl drain.machine
    | cons id ids ih => exact (change_drain_proceeds action drain id).trans (ih _)
  unfold packetizer_changes_send
  dsimp only
  refine .trans ?_ (perform_loop_proceeds (by simp [Call.Seeds]) _ _)
  refine .trans ?_ (Machine.other_proceeds _ _ ⟨rfl,rfl⟩)
  refine .trans ?_ (drained _ _)
  refine .trans ?_ (Machine.other_proceeds _ _ ⟨rfl,rfl⟩)
  exact Recorded.Extends.foldl _ (intf_changes_send_proceeds egress action exception) _ machine

theorem packetizer_query_send_proceeds (egress : Egress) (work : Work) (action : Action) (machine : Machine) :
    machine.Proceeds (packetizer_query_send egress work action machine) := by
  unfold packetizer_query_send
  split
  · exact packetizer_changes_send_proceeds ..
  · exact .refl machine
  · rename_i id _
    have sent := Recorded.Extends.foldl _ (packetizer_intf_prefix_send_proceeds egress work id) machine.state.eiflist machine
    dsimp only
    split
    · exact sent.trans (Machine.perform_proceeds _ _ (by simp [Call.Seeds]))
    · exact sent

theorem packetizer_turn_proceeds (egress : Egress) (machine : Machine) : machine.Proceeds (packetizer_turn egress machine) := by
  have processed (work : Work) (machine : Machine) : machine.Proceeds (packetizer_work_process egress work machine) := by
    unfold packetizer_work_process
    split
    · exact .refl machine
    · split
      · exact packetizer_neighbor_route_send_proceeds ..
      · exact packetizer_query_send_proceeds ..
      · exact packetizer_query_send_proceeds ..
      all_goals exact .refl machine
  unfold packetizer_turn
  split
  · exact .refl machine
  · rename_i work packetizer _
    have taken : machine.Proceeds (machine.other fun eigrp => { eigrp with packetizer }) := Machine.other_proceeds _ machine ⟨rfl,rfl⟩
    have turned := taken.trans (processed work _)
    dsimp only
    split
    · exact turned.trans (Machine.act_proceeds _ _ (by simp))
    · exact turned

/-! ## Events -/

/-- The events that may change the parameters. -/
def Event.retunes : Event → Bool
  | .metric_weights _ | .settings _ | .intf_create _ | .intf_params _ _ _ _ | .intf_free _ => true
  | _ => false

/-- An event that redistributes brings a seed. -/
def Event.Seeds (event : Event) : Prop := ∀ destination source metric, event = .redistributed_update destination source metric → Seeded metric

/-- Every other event leaves the parameters alone, step by step. -/
theorem handle_proceeds (machine : Machine) {event : Event} (fixed : event.retunes = false) (seeds : event.Seeds) :
    machine.Proceeds (handle machine event) := by
  cases event with
  | metric_weights metric => cases fixed
  | settings settings => cases fixed
  | intf_create intf => cases fixed
  | intf_params ei params split_horizon next_hop_self => cases fixed
  | intf_free ei => cases fixed
  | packet_receive nbr packet => exact packet_receive_proceeds nbr packet machine
  | nbr_create ei =>
    refine Machine.other_proceeds _ machine ?_
    let numbered : Instance := { machine.state with next_nbr := machine.state.next_nbr + 1 }
    have same : SameParameters machine.state numbered := ⟨rfl,rfl⟩
    refine same.trans (.neighbors numbered ?_ ?_) <;> intro intf <;> split <;> rfl
  | nbr_pending nbr => exact neighbor_write_proceeds nbr _ machine
  | nbr_up nbr => exact neighbor_write_proceeds nbr _ machine
  | nbr_k_mismatch nbr => exact neighbor_write_proceeds nbr _ machine
  | nbr_delete nbr => exact nbr_delete_proceeds nbr machine
  | nbr_limit nbr =>
    simp only [handle]
    split
    · exact nbr_down_proceeds nbr machine
    · exact .refl machine
  | af_suspend peers =>
    exact (Recorded.Extends.foldl _ (fun machine nbr => nbr_down_deferred_proceeds nbr machine) _ machine).trans
      (suspended_neighbors_down_proceeds _ _)
  | intf_up ei => exact intf_up_proceeds ei machine
  | intf_down ei => exact intf_down_proceeds ei machine
  | redistributed_update destination source metric =>
    exact redistributed_route_update_proceeds destination source (seeds destination source metric rfl) machine
  | redistributed_remove destination source => exact redistributed_route_remove_proceeds destination source machine
  | redistributed_source_remove source =>
    exact Recorded.Extends.foldl _ (fun machine pd => redistributed_route_remove_proceeds _ source machine) _ machine
  | multipath variance max_paths =>
    simp only [handle]
    split
    · exact (Machine.other_proceeds _ machine ⟨rfl,rfl⟩).trans (perform_loop_proceeds (by simp [Call.Seeds]) _ _)
    · exact .refl machine
  | traffic_share balanced =>
    exact (Machine.other_proceeds _ machine ⟨rfl,rfl⟩).trans (perform_loop_proceeds (by simp [Call.Seeds]) _ _)
  | distance internal_distance external_distance =>
    simp only [handle]
    split
    · exact .refl machine
    · exact (Machine.other_proceeds _ machine ⟨rfl,rfl⟩).trans (perform_loop_proceeds (by simp [Call.Seeds]) _ _)
  | routes_replay => exact perform_loop_proceeds (by simp [Call.Seeds]) _ machine
  | gr_send nbr => exact neighbor_write_proceeds nbr _ machine
  | gr_part nbr restart => exact update_send_GR_part_proceeds nbr restart machine
  | clear destination => exact topology_clear_proceeds destination machine
  | clear_all => exact Recorded.Extends.foldl _ (fun machine pd => topology_clear_proceeds _ machine) _ machine
  | active_timer id => exact active_timer_expired_proceeds id machine
  | packetizer egress => exact packetizer_turn_proceeds egress machine

end Eigrp
