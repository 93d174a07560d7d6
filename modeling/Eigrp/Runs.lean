import Eigrp.System
import Eigrp.Steps

/-!
# Runs as chains of recorded steps

Every event extends the record by steps that are all `Allowed`: operations on descriptors as
`Instance.act` computes them, and changes of the rest. Invariants and monitors of a run therefore
follow from what one operation does.
-/

namespace Eigrp
open Eigrp.Lib

/-- The second machine continues the first by allowed steps. -/
abbrev Machine.Continues (machine next : Machine) : Prop := Recorded.Extends Allowed machine next

/-! ## Changes of the rest -/

theorem Frame.refl (eigrp : Instance) : Frame eigrp eigrp := ⟨rfl,rfl,rfl,rfl,.inl rfl⟩

theorem Frame.dangling (eigrp : Instance) : Frame eigrp (eigrp.fail .dangling) := ⟨rfl,rfl,rfl,rfl,.inr rfl⟩

theorem Frame.neighbor_write (eigrp : Instance) (nbr : Nbr) (update : Neighbor → Neighbor) :
    Frame eigrp (eigrp.neighbor_write nbr update) := ⟨rfl,rfl,rfl,rfl,.inl rfl⟩

theorem Frame.packetizer_enqueue (eigrp : Instance) (work : Work) : Frame eigrp (eigrp.packetizer_enqueue work) :=
  ⟨rfl,rfl,rfl,rfl,.inl rfl⟩

theorem Machine.Continues.refl (machine : Machine) : machine.Continues machine := Recorded.Extends.refl machine

/-- A change whose result is framed whatever the instance. -/
theorem other_continues (update : Instance → Instance) (frame : ∀ eigrp, Frame eigrp (update eigrp)) (machine : Machine) :
    machine.Continues (machine.other update) := Machine.other_extends update machine (frame _)

theorem lookup_of_frame {eigrp other : Instance} (frame : Frame eigrp other) (destination : Prefix) :
    other.topology_table_lookup destination = eigrp.topology_table_lookup destination := by
  have same : other.descriptor = eigrp.descriptor := funext fun id => descriptor_of_prefixes frame.prefixes id
  simp only [Instance.topology_table_lookup,frame.topology_table,same]

theorem other_lookup {machine : Machine} {update : Instance → Instance} (frame : Frame machine.state (update machine.state))
    (destination : Prefix) :
    (machine.other update).state.topology_table_lookup destination = machine.state.topology_table_lookup destination := by
  unfold Machine.other
  split
  · rfl
  · exact lookup_of_frame frame destination

theorem fail_continues (machine : Machine) : machine.Continues (machine.other fun eigrp => eigrp.fail .dangling) :=
  other_continues _ Frame.dangling machine

theorem neighbor_peer {eigrp : Instance} {nbr : Nbr} (known : (eigrp.neighbor nbr).isSome) : nbr ≠ .self := by
  rintro rfl
  simp [Instance.neighbor] at known

/-- The item neither names a descriptor of the topology nor frees one. -/
def Work.unshared (work : Work) : Prop := work.defer_free = false ∧ ∀ id, work.pd ≠ some (.shared id)

/-- A change of the rest that takes no work away, adds only work that names no descriptor, and leaves the configuration of
    metrics and paths and the host alone. -/
structure Additive (before after : Instance) : Prop where
  frame : Frame before after
  topology_changes : after.topology_changes = before.topology_changes
  packetizer : before.packetizer ⊆ after.packetizer
  queued : ∀ work ∈ after.packetizer, work ∈ before.packetizer ∨ work.unshared
  metric : after.metric = before.metric
  max_paths : after.max_paths = before.max_paths
  rib_accepts : after.rib_accepts = before.rib_accepts

theorem Additive.still {before after : Instance} (frame : Frame before after)
    (topology_changes : after.topology_changes = before.topology_changes) (packetizer : after.packetizer = before.packetizer)
    (config : after.metric = before.metric ∧ after.max_paths = before.max_paths ∧ after.rib_accepts = before.rib_accepts) :
    Additive before after where
  frame := frame
  topology_changes := topology_changes
  packetizer := by rw [packetizer]; exact List.Subset.refl _
  queued := by
    intro work member
    exact .inl (packetizer ▸ member)
  metric := config.1
  max_paths := config.2.1
  rib_accepts := config.2.2

theorem Additive.refl (eigrp : Instance) : Additive eigrp eigrp := .still (.refl eigrp) rfl rfl ⟨rfl,rfl,rfl⟩

theorem Additive.dangling (eigrp : Instance) : Additive eigrp (eigrp.fail .dangling) :=
  .still (.dangling eigrp) rfl rfl ⟨rfl,rfl,rfl⟩

theorem Additive.neighbor_write (eigrp : Instance) (nbr : Nbr) (update : Neighbor → Neighbor) :
    Additive eigrp (eigrp.neighbor_write nbr update) := .still (.neighbor_write eigrp nbr update) rfl rfl ⟨rfl,rfl,rfl⟩

theorem Additive.packetizer_enqueue (eigrp : Instance) {work : Work} (unshared : work.unshared) :
    Additive eigrp (eigrp.packetizer_enqueue work) := by
  refine ⟨.packetizer_enqueue eigrp work,rfl,List.subset_append_left _ _,fun other member => ?_,rfl,rfl,rfl⟩
  rcases List.mem_append.mp member with member | member
  · exact .inl member
  · rw [List.mem_singleton.mp member]
    exact .inr unshared

/-! ## The packetizer -/

/-- The steps of sending: TLVs are handed on, and the neighbors that a QUERY is addressed to are recorded for a
    destination that is meant. -/
structure Addressed (meant : Instance → Nat → Prop) (step : Step Instance Label) : Prop where
  allowed : Allowed step
  kind : (step.label = .other ∧ Additive step.before step.after) ∨
    ∃ id nbrs, step.label = .perform id (.query_rij_add nbrs) ∧ meant step.before id

/-- The second machine continues the first by steps of sending. -/
abbrev Machine.Addresses (meant : Instance → Nat → Prop) (machine next : Machine) : Prop :=
  Recorded.Extends (Addressed meant) machine next

section Sending
variable {meant : Instance → Nat → Prop}

theorem Machine.Addresses.refl (machine : Machine) : machine.Addresses meant machine := Recorded.Extends.refl machine

theorem Machine.Addresses.continues {machine next : Machine} (addresses : machine.Addresses meant next) : machine.Continues next :=
  Recorded.Extends.mono (fun _ addressed => addressed.allowed) addresses

theorem other_addresses (update : Instance → Instance) (additive : ∀ eigrp, Additive eigrp (update eigrp)) (machine : Machine) :
    machine.Addresses meant (machine.other update) := by
  unfold Machine.other
  split
  · exact .refl machine
  · exact Recorded.Extends.record _ _ machine ⟨.other (additive _).frame,.inl ⟨rfl,additive _⟩⟩

theorem query_rij_add_addresses {id : Nat} (nbrs : List Nbr) {machine : Machine} (hit : meant machine.state id) :
    machine.Addresses meant (machine.perform id (.query_rij_add nbrs)) := by
  unfold Machine.perform Machine.act
  split
  · exact .refl machine
  · rename_i sound
    refine Recorded.Extends.record _ _ machine ⟨.act (.perform ?_) (by simpa using sound),.inr ⟨id,nbrs,rfl,hit⟩⟩
    simp [Call.Plain,Call.nbr]

theorem builder_route_add_addresses (egress : Egress) (ei : Nat) (nbr : Option Nbr) (opcode : Opcode) (dest : Prefix)
    (route : RouteDescriptor) (machine : Machine) :
    machine.Addresses meant (builder_route_add egress ei nbr opcode dest route machine) := by
  unfold builder_route_add
  split
  · apply other_addresses
    exact fun eigrp => (.still ⟨rfl,rfl,rfl,rfl,.inl rfl⟩ rfl rfl ⟨rfl,rfl,rfl⟩)
  · exact .refl machine

theorem dereference_addresses {id : Nat} {body : PrefixDescriptor → Machine → Machine} {machine : Machine}
    (addresses : ∀ pd, machine.state.descriptor id = some pd → machine.Addresses meant (body pd machine)) :
    machine.Addresses meant (machine.dereference id body) := by
  unfold Machine.dereference
  split
  · rename_i pd found
    exact addresses pd found
  · exact other_addresses _ Additive.dangling machine

theorem builder_route_add_prefixes (egress : Egress) (ei : Nat) (nbr : Option Nbr) (opcode : Opcode) (dest : Prefix)
    (route : RouteDescriptor) (machine : Machine) :
    (builder_route_add egress ei nbr opcode dest route machine).state.prefixes = machine.state.prefixes := by
  unfold builder_route_add Machine.other
  split
  · split <;> rfl
  · rfl

theorem intf_route_send_addresses (egress : Egress) (intf : Intf) {opcode : Opcode} {pd : PrefixDescriptor}
    (route : RouteDescriptor) (summary : Option (Prefix × RouteDescriptor)) (emit : Bool) {machine : Machine}
    (hit : opcode = .query → ∀ eigrp : Instance, eigrp.prefixes = machine.state.prefixes → meant eigrp pd.id) :
    machine.Addresses meant (intf_route_send egress intf opcode pd route summary emit machine) := by
  have advertise (dest : Prefix) (route : RouteDescriptor) (machine : Machine) :
      machine.Addresses meant (if egress.filtered intf.id dest then machine
        else builder_route_add egress intf.id none opcode dest (packetizer_poison_reverse intf opcode route) machine) := by
    split
    · exact .refl machine
    · exact builder_route_add_addresses ..
  cases summary with
  | none =>
    simp only [intf_route_send]
    split
    · rename_i queried
      refine (advertise _ _ machine).trans (query_rij_add_addresses _ (hit queried.1 _ ?_))
      split
      · rfl
      · exact builder_route_add_prefixes ..
    · exact advertise _ _ machine
  | some summary =>
    simp only [intf_route_send]
    have first : machine.Addresses meant (if emit then (if egress.filtered intf.id summary.1 then machine
        else builder_route_add egress intf.id none opcode summary.1
          (packetizer_poison_reverse intf opcode summary.2) machine) else machine) := by
      split
      · exact advertise _ _ machine
      · exact .refl machine
    split
    · exact first.trans (advertise _ _ _)
    · exact first

theorem packetizer_intf_prefix_send_addresses (egress : Egress) (work : Work) (id : Nat) (machine : Machine) (intf : Intf) :
    machine.Addresses (fun _ other => work.opcode = .query ∧ other = id) (packetizer_intf_prefix_send egress work id machine intf) := by
  unfold packetizer_intf_prefix_send
  split
  · exact .refl machine
  · apply dereference_addresses
    intro pd found
    split
    · exact .refl machine
    · exact intf_route_send_addresses egress intf _ _ _ fun query _ _ => ⟨query,(descriptor_mem found).2⟩

theorem packetizer_neighbor_route_send_addresses (egress : Egress) (work : Work) (nbr : Nbr) (machine : Machine) :
    machine.Addresses meant (packetizer_neighbor_route_send egress work nbr machine) := by
  unfold packetizer_neighbor_route_send
  split
  · split
    · exact .refl machine
    · split
      · exact .refl machine
      · exact builder_route_add_addresses ..
      · exact dereference_addresses fun _ _ => builder_route_add_addresses ..
  · exact other_addresses _ Additive.dangling machine

end Sending

/-- QUERYs are sent, and the destination needs one. -/
def Querying (action : Action) (eigrp : Instance) (id : Nat) : Prop :=
  action = .need_query ∧ ∃ pd, eigrp.descriptor id = some pd ∧ pd.need_query

theorem change_send_addresses (egress : Egress) (action : Action) (intf : Intf) (turn : Machine × List Prefix) (id : Nat) :
    turn.1.Addresses (Querying action) (change_send egress action intf turn id).1 := by
  obtain ⟨machine,seen⟩ := turn
  unfold change_send
  dsimp only
  split
  · exact other_addresses _ Additive.dangling machine
  · rename_i pd found
    split
    · exact .refl machine
    · rename_i needed
      split
      · exact .refl machine
      · refine intf_route_send_addresses egress intf _ _ _ fun query eigrp same => ?_
        cases action with
        | need_update => cases query
        | need_query =>
          have needed : pd.needs .need_query := by simpa using needed
          refine ⟨rfl,pd,?_,needed⟩
          rw [descriptor_of_prefixes same,(descriptor_mem found).2]
          exact found

theorem changes_loop_addresses (egress : Egress) (action : Action) (intf : Intf) (ids : List Nat)
    (turn : Machine × List Prefix) :
    turn.1.Addresses (Querying action) (ids.foldl (change_send egress action intf) turn).1 := by
  induction ids generalizing turn with
  | nil => exact .refl turn.1
  | cons id ids ih => exact (change_send_addresses egress action intf turn id).trans (ih _)

theorem intf_changes_send_addresses (egress : Egress) (action : Action) (exception : Option Nat) (machine : Machine)
    (intf : Intf) : machine.Addresses (Querying action) (intf_changes_send egress action exception machine intf) := by
  unfold intf_changes_send
  split
  · exact .refl machine
  · exact changes_loop_addresses egress action intf _ (machine, [])

theorem intfs_changes_send_addresses (egress : Egress) (action : Action) (exception : Option Nat) (machine : Machine) :
    machine.Addresses (Querying action) (machine.state.eiflist.foldl (intf_changes_send egress action exception) machine) :=
  Recorded.Extends.foldl _ (intf_changes_send_addresses egress action exception) _ machine

theorem intfs_prefix_send_addresses (egress : Egress) (work : Work) (id : Nat) (machine : Machine) :
    machine.Addresses (fun _ other => work.opcode = .query ∧ other = id)
      (machine.state.eiflist.foldl (packetizer_intf_prefix_send egress work id) machine) :=
  Recorded.Extends.foldl _ (packetizer_intf_prefix_send_addresses egress work id) _ machine

theorem change_drain_continues (action : Action) (drain : Drain) (id : Nat) :
    drain.machine.Continues (change_drain action drain id).machine := by
  unfold change_drain
  split
  · exact fail_continues _
  · split
    · split <;> exact .refl _
    · have asked : drain.machine.Continues
          ((if action = .need_query then drain.machine.perform id .query_sent else drain.machine).perform id
            (.action_clear action)) := by
        split
        · refine .trans (Machine.perform_extends _ _ _ (by simp [Call.Plain,Call.nbr])) (Machine.perform_extends _ _ _ ?_)
          simp [Call.Plain,Call.nbr]
        · exact Machine.perform_extends _ _ _ (by simp [Call.Plain,Call.nbr])
      dsimp only
      split
      · exact asked
      · split
        · exact asked
        · split <;> exact asked

theorem drain_loop_continues (action : Action) (ids : List Nat) (drain : Drain) :
    drain.machine.Continues (ids.foldl (change_drain action) drain).machine := by
  induction ids generalizing drain with
  | nil => exact .refl _
  | cons id ids ih => exact (change_drain_continues action drain id).trans (ih _)

/-- The destinations are PASSIVE. -/
def Resting (machine : Machine) (ids : List Nat) : Prop :=
  machine.state.fault = none → ∀ id ∈ ids, ∀ pd, machine.state.descriptor id = some pd → pd.state = .passive

theorem Resting.perform {machine : Machine} {ids : List Nat} (resting : Resting machine ids) (id : Nat) {call : Call}
    (kept : ∀ env pd next out, exec env pd call = some (next, out) → next.state = pd.state) :
    Resting (machine.perform id call) ids := by
  unfold Machine.perform Machine.act
  split
  · exact resting
  · rename_i before
    intro sound other member next found
    obtain ⟨pd,result,out,stored,done,after⟩ := perform_step machine.state id call sound
    have resting := resting (by simpa using before) other member
    have results := (after other).symm.trans found
    split at results
    · rename_i same
      subst same
      obtain rfl := Option.some.inj results
      exact (kept _ _ _ _ done).trans (resting pd stored)
    · exact resting next results

theorem Resting.other {machine : Machine} {ids : List Nat} (resting : Resting machine ids) {update : Instance → Instance}
    (prefixes : (update machine.state).prefixes = machine.state.prefixes) : Resting (machine.other update) ids := by
  unfold Machine.other
  split
  · exact resting
  · rename_i before
    intro _ id member pd found
    refine resting (by simpa using before) id member pd ?_
    rw [← descriptor_of_prefixes prefixes]
    exact found

theorem exec_action_clear_state {action : Action} (env : Env) (pd next : PrefixDescriptor) (out : List Effect)
    (done : exec env pd (.action_clear action) = some (next, out)) : next.state = pd.state := by
  obtain ⟨rfl,rfl⟩ := exec_some done
  exact (action_clear_control pd action).state

theorem exec_retire_state (env : Env) (pd next : PrefixDescriptor) (out : List Effect)
    (done : exec env pd .retire = some (next, out)) : next.state = pd.state := by
  obtain ⟨rfl,rfl⟩ := exec_some done
  exact (retire_rerouted pd).state

/-- Only an UPDATE retires destinations, and draining for one changes no state. -/
theorem change_drain_resting {action : Action} {drain : Drain} (id : Nat)
    (resting : (action = .need_query → drain.retire = []) ∧ Resting drain.machine drain.retire) :
    (action = .need_query → (change_drain action drain id).retire = []) ∧
      Resting (change_drain action drain id).machine (change_drain action drain id).retire := by
  obtain ⟨none,resting⟩ := resting
  cases action with
  | need_query =>
    have empty : (change_drain .need_query drain id).retire = [] := by
      unfold change_drain
      simp only [none rfl,reduceCtorEq,false_and,if_false]
      repeat' split
      all_goals first | rfl | exact none rfl
    exact ⟨fun _ => empty,by simp [empty,Resting]⟩
  | need_update =>
    refine ⟨by simp,?_⟩
    have cleared := resting.perform id (@exec_action_clear_state .need_update)
    unfold change_drain
    split
    · exact resting.other rfl
    · split
      · split <;> exact resting
      · simp only [reduceCtorEq,if_false]
        split
        · exact cleared
        · rename_i pd found
          split
          · exact cleared
          · split
            · rename_i passive
              intro sound other member next stored
              rcases List.mem_append.mp member with member | member
              · exact cleared sound other member next stored
              · obtain rfl := List.mem_singleton.mp member
                rw [found] at stored
                obtain rfl := Option.some.inj stored
                exact passive.2.1
            · exact cleared

theorem drain_loop_resting {action : Action} (ids : List Nat) {drain : Drain}
    (resting : (action = .need_query → drain.retire = []) ∧ Resting drain.machine drain.retire) :
    Resting (ids.foldl (change_drain action) drain).machine (ids.foldl (change_drain action) drain).retire := by
  induction ids generalizing drain with
  | nil => exact resting.2
  | cons id ids ih => exact ih (change_drain_resting id resting)

theorem retire_loop_continues {ids : List Nat} {machine : Machine} (resting : Resting machine ids) :
    machine.Continues (ids.foldl (fun machine id => machine.perform id .retire) machine) := by
  induction ids generalizing machine with
  | nil => exact .refl machine
  | cons id ids ih =>
    have first : machine.Continues (machine.perform id .retire) := by
      refine Machine.act_extends _ machine fun sound => ⟨by simp,by simp [Label.nbr,Call.nbr],by simp [Label.old],by simp,?_⟩
      intro target same pd found
      cases same
      exact resting sound id (by simp) pd found
    have rest : Resting (machine.perform id .retire) ids :=
      Resting.perform (fun sound other member => resting sound other (by simp [member])) id exec_retire_state
    exact first.trans (ih rest)

theorem packetizer_changes_send_continues (egress : Egress) (action : Action) (exception : Option Nat) (machine : Machine) :
    machine.Continues (packetizer_changes_send egress action exception machine) := by
  unfold packetizer_changes_send
  dsimp only
  -- from the last loop back to the first
  refine .trans ?_ (retire_loop_continues ((drain_loop_resting _ ⟨fun _ => rfl,by simp [Resting]⟩).other rfl))
  refine .trans ?_ (Machine.other_extends _ _ ⟨rfl,rfl,rfl,rfl,.inl rfl⟩)
  refine .trans ?_ (drain_loop_continues action _ _)
  refine .trans ?_ (Machine.other_extends _ _ ⟨rfl,rfl,rfl,rfl,.inl rfl⟩)
  exact (intfs_changes_send_addresses egress action exception machine).continues

theorem packetizer_query_send_continues (egress : Egress) (work : Work) (action : Action) (machine : Machine) :
    machine.Continues (packetizer_query_send egress work action machine) := by
  unfold packetizer_query_send
  split
  · exact packetizer_changes_send_continues ..
  · exact .refl machine
  · rename_i id _
    have sent := (intfs_prefix_send_addresses egress work id machine).continues
    dsimp only
    split
    · exact sent.trans (Machine.perform_extends _ _ _ (by simp [Call.Plain,Call.nbr]))
    · exact sent

theorem packetizer_work_process_continues (egress : Egress) (work : Work) (machine : Machine) :
    machine.Continues (packetizer_work_process egress work machine) := by
  unfold packetizer_work_process
  split
  · exact .refl machine
  · split
    · exact (@packetizer_neighbor_route_send_addresses (fun _ _ => False) egress work _ machine).continues
    · exact packetizer_query_send_continues ..
    · exact packetizer_query_send_continues ..
    all_goals exact .refl machine

theorem packetizer_turn_continues (egress : Egress) (machine : Machine) :
    machine.Continues (packetizer_turn egress machine) := by
  unfold packetizer_turn
  split
  · exact .refl machine
  · rename_i work packetizer _
    have processed : machine.Continues
        (packetizer_work_process egress work (machine.other fun eigrp => { eigrp with packetizer })) := by
      refine .trans (Machine.other_extends _ _ ?_) (packetizer_work_process_continues ..)
      exact ⟨rfl,rfl,rfl,rfl,.inl rfl⟩
    dsimp only
    split
    · exact processed.trans (Machine.act_extends _ _ fun _ => .remove (.inr (.inr ⟨_,rfl⟩)))
    · exact processed

/-! ## Steps outside the packetizer -/

/-- A call that a handler makes in answer to an event. -/
def Call.Outer (call : Call) : Prop := call.nbr ≠ some .self ∧ ¬ call.scheduled

theorem Call.Outer.heard {call : Call} {nbr : Nbr} (peer : nbr ≠ .self) (about : call.nbr = some nbr)
    (unscheduled : call.scheduled = false) : call.Outer := ⟨by simp [about,peer],by simp [unscheduled]⟩

theorem Call.Outer.own {call : Call} (about : call.nbr = none) (unscheduled : call.scheduled = false) : call.Outer :=
  ⟨by simp [about],by simp [unscheduled]⟩

theorem Call.Outer.plain {call : Call} (outer : call.Outer) : call.Plain := by
  refine ⟨outer.1,?_⟩
  rintro rfl
  exact outer.2 rfl

/-- The steps of the handlers: none of the packetizer's calls, and work is only added. -/
structure Handled (step : Step Instance Label) : Prop where
  allowed : Allowed step
  call : ∀ id call, step.label = .perform id call → ¬ call.scheduled
  stored : ∀ id, step.label ≠ .free id
  additive : step.label = .other → Additive step.before step.after

/-- The second machine continues the first by steps of handlers. -/
abbrev Machine.Responds (machine next : Machine) : Prop := Recorded.Extends Handled machine next

theorem Machine.Responds.refl (machine : Machine) : machine.Responds machine := Recorded.Extends.refl machine

theorem responds_optional {machine next : Machine} (condition : Prop) [Decidable condition] (responds : machine.Responds next) :
    machine.Responds (if condition then next else machine) := by
  split
  · exact responds
  · exact .refl machine

theorem Machine.Responds.continues {machine next : Machine} (responds : machine.Responds next) : machine.Continues next :=
  Recorded.Extends.mono (fun _ handled => handled.allowed) responds

theorem Machine.act_responds (label : Label) (machine : Machine)
    (call : ∀ id call, label = .perform id call → ¬ call.scheduled) (stored : ∀ id, label ≠ .free id)
    (permitted : machine.state.fault = none → Permitted machine.state label) :
    machine.Responds (Machine.act label machine) := by
  unfold Machine.act
  split
  · exact .refl machine
  · rename_i sound
    have sound : machine.state.fault = none := by simpa using sound
    have permitted := permitted sound
    exact Recorded.Extends.record _ _ machine
      ⟨.act permitted sound,call,stored,fun other => absurd other permitted.named⟩

theorem Machine.perform_responds (id : Nat) (call : Call) (machine : Machine) (outer : call.Outer) :
    machine.Responds (Machine.perform id call machine) := by
  refine Machine.act_responds _ machine ?_ (by simp) fun _ => .perform outer.plain
  intro _ _ same
  cases same
  exact outer.2

theorem Machine.create_responds (creation : Creation) (machine : Machine)
    (permitted : machine.state.fault = none → Permitted machine.state (.create creation)) :
    machine.Responds (Machine.act (.create creation) machine) := Machine.act_responds _ machine (by simp) (by simp) permitted

theorem Machine.other_responds (update : Instance → Instance) (machine : Machine)
    (additive : Additive machine.state (update machine.state)) : machine.Responds (machine.other update) := by
  unfold Machine.other
  split
  · exact .refl machine
  · exact Recorded.Extends.record _ _ machine ⟨.other additive.frame,by simp,by simp,fun _ => additive⟩

/-- A change whose result is framed whatever the instance. -/
theorem other_responds (update : Instance → Instance) (additive : ∀ eigrp, Additive eigrp (update eigrp)) (machine : Machine) :
    machine.Responds (machine.other update) := Machine.other_responds update machine (additive _)

theorem fail_responds (machine : Machine) : machine.Responds (machine.other fun eigrp => eigrp.fail .dangling) :=
  other_responds _ Additive.dangling machine

theorem neighbor_write_responds (nbr : Nbr) (update : Neighbor → Neighbor) (machine : Machine) :
    machine.Responds (machine.other fun eigrp => eigrp.neighbor_write nbr update) :=
  other_responds _ (fun eigrp => .neighbor_write eigrp nbr update) machine

theorem perform_loop_responds (call : Call) (outer : call.Outer) (ids : List Nat) (machine : Machine) :
    machine.Responds (ids.foldl (fun machine id => machine.perform id call) machine) :=
  Recorded.Extends.foldl _ (fun machine id => Machine.perform_responds id call machine outer) ids machine

/-! ## Events -/

theorem query_send_all_responds (machine : Machine) : machine.Responds (query_send_all machine) := by
  unfold query_send_all
  split
  · exact other_responds _ (fun eigrp => .packetizer_enqueue eigrp (by simp [Work.unshared])) machine
  · exact .refl machine

theorem update_send_all_responds (exception : Option Nat) (machine : Machine) :
    machine.Responds (update_send_all_enqueue exception machine) :=
  other_responds _ (fun eigrp => .packetizer_enqueue eigrp (by simp [Work.unshared])) machine

theorem send_all_responds (exception : Option Nat) (machine : Machine) : machine.Responds (send_all exception machine) :=
  (query_send_all_responds machine).trans (update_send_all_responds exception _)

/-- How most handlers end: nothing is handed to DUAL, or work is queued for the whole list of changes behind it. -/
inductive Machine.Concludes (machine : Machine) : Machine → Prop
  | same : Concludes machine machine
  | other (update : Instance → Instance) : (∀ eigrp, Additive eigrp (update eigrp)) → Concludes machine (machine.other update)
  | send_all {walked : Machine} (exception : Option Nat) : machine.Responds walked → Concludes machine (send_all exception walked)
  | fail {walked : Machine} : machine.Responds walked → Concludes machine (walked.other fun eigrp => eigrp.fail .dangling)

theorem Machine.Concludes.responds {machine next : Machine} (concludes : machine.Concludes next) : machine.Responds next := by
  cases concludes with
  | same => exact .refl machine
  | other update additive => exact Machine.other_responds update machine (additive _)
  | send_all exception responds => exact responds.trans (send_all_responds exception _)
  | fail responds => exact responds.trans (fail_responds _)

theorem topology_changes_send_responds (destination : Prefix) (machine : Machine) :
    machine.Responds (topology_changes_send destination machine) := by
  unfold topology_changes_send
  split
  · exact .refl machine
  · rename_i pd _
    have queried : machine.Responds (if pd.need_query then query_send_all machine else machine) := by
      split
      · exact query_send_all_responds machine
      · exact .refl machine
    dsimp only
    split
    · exact queried.trans (update_send_all_responds none _)
    · exact queried

theorem perform_all_responds (call : Call) (outer : call.Outer) (machine : Machine) :
    machine.Responds (perform_all call machine) := perform_loop_responds call outer _ machine

theorem topology_neighbor_down_concludes {nbr : Nbr} (peer : nbr ≠ .self) (machine : Machine) :
    machine.Concludes (topology_neighbor_down nbr machine) :=
  .send_all nbr.ei (perform_all_responds _ (.heard peer rfl rfl) machine)

theorem nbr_down_deferred_responds (nbr : Nbr) (machine : Machine) : machine.Responds (nbr_down_deferred nbr machine) := by
  apply other_responds
  intro eigrp
  split
  · exact .refl eigrp
  · split
    · exact .dangling eigrp
    · exact .neighbor_write eigrp nbr _

theorem nbr_down_concludes {nbr : Nbr} (peer : nbr ≠ .self) (machine : Machine) : machine.Concludes (nbr_down nbr machine) := by
  apply Machine.Concludes.send_all
  refine (nbr_down_deferred_responds nbr machine).trans (perform_all_responds _ (.heard peer rfl rfl) _)

theorem nbr_delete_concludes (nbr : Nbr) (machine : Machine) : machine.Concludes (nbr_delete nbr machine) := by
  unfold nbr_delete
  split
  · exact .same
  · rename_i known
    have peer : nbr ≠ .self := by
      rintro rfl
      exact known rfl
    apply Machine.Concludes.send_all
    refine .trans ?_ (perform_all_responds _ (.heard peer rfl rfl) _)
    refine .trans (nbr_down_deferred_responds nbr machine) (Machine.other_responds _ _ ?_)
    exact (.still ⟨rfl,rfl,rfl,rfl,.inl rfl⟩ rfl rfl ⟨rfl,rfl,rfl⟩)

theorem topology_suspended_neighbors_down_concludes {peers : List Nbr} (known : ∀ nbr ∈ peers, nbr ≠ .self) {machine middle : Machine}
    (responds : machine.Responds middle) : machine.Concludes (topology_suspended_neighbors_down peers middle) := by
  apply Machine.Concludes.send_all
  refine responds.trans (Recorded.Extends.foldl _ ?_ _ middle)
  intro machine id
  refine .trans (Machine.perform_responds id (.suspended_origin_clear peers) machine (.own rfl rfl)) ?_
  dsimp only
  split
  · exact .refl _
  · refine Recorded.Extends.foldl_mem _ _ ?_ _
    intro nbr member machine
    have suspended : nbr ∈ peers := by
      simp only [suspended_peers,List.mem_reverse,List.mem_dedup,List.mem_filter,decide_eq_true_eq] at member
      exact member.2
    exact Machine.perform_responds id (.neighbor_down nbr) machine (.heard (known nbr suspended) rfl rfl)

theorem af_suspend_concludes (peers : List Nbr) (machine : Machine) : machine.Concludes (handle machine (.af_suspend peers)) := by
  refine topology_suspended_neighbors_down_concludes ?_ ?_
  · intro nbr member
    exact neighbor_peer (by simpa using (List.mem_filter.mp member).2)
  · exact Recorded.Extends.foldl _ (fun machine nbr => nbr_down_deferred_responds nbr machine) _ machine

/-! ### Packets -/

theorem limit_mark_responds (nbr : Nbr) (received : Received) (machine : Machine) : machine.Responds (limit_mark nbr received machine) := by
  unfold limit_mark
  split
  · exact neighbor_write_responds nbr _ machine
  · exact .refl machine

theorem walk_responds (nbr : Nbr) (stops : Bool) (body : Received → Machine → Machine)
    (responds : ∀ received (machine : Machine), machine.Responds (body received machine)) (routes : List Received)
    (machine : Machine) : machine.Responds (walk nbr stops body routes machine) := by
  induction routes generalizing machine with
  | nil => exact .refl machine
  | cons received routes ih =>
    have handled := (limit_mark_responds nbr received machine).trans (responds received _)
    unfold walk
    dsimp only
    split
    · exact handled
    · exact handled.trans (ih _)

theorem update_receive_route_responds {nbr : Nbr} (peer : nbr ≠ .self) (received : Received) (machine : Machine) :
    machine.Responds (update_receive_route nbr received machine) := by
  unfold update_receive_route
  split
  · exact Machine.perform_responds _ _ _ (.heard peer rfl rfl)
  · rename_i missing
    split
    · exact .refl machine
    · exact Machine.create_responds _ _ fun _ => .create (by simp [Label.nbr,peer]) (by simp [Label.old]) missing

theorem peer_restart_responds {nbr : Nbr} (peer : nbr ≠ .self) (packet : Packet) (machine : Machine) :
    machine.Responds (peer_restart nbr packet machine) := by
  refine .trans ?_ (neighbor_write_responds nbr _ _)
  exact (neighbor_write_responds nbr _ machine).trans (topology_neighbor_down_concludes peer _).responds

theorem receive_gr_ask_responds {nbr : Nbr} (peer : nbr ≠ .self) (ids : List Nat) (machine : Machine) :
    machine.Responds (receive_gr_ask nbr ids machine) := perform_loop_responds _ (.heard peer rfl rfl) ids machine

/-- An UPDATE is passed over, or only remembered, or its routes are handed to DUAL; at last the saved list of a graceful
    restart may turn out to be freed. -/
theorem update_receive_concludes (nbr : Nbr) (packet : Packet) (machine : Machine) :
    machine.Concludes (update_receive nbr packet machine) := by
  have ends {walked : Machine} (condition : Prop) [Decidable condition] (responds : machine.Responds walked) :
      machine.Concludes (if condition then (send_all nbr.ei walked).other fun eigrp => eigrp.fail .dangling
        else send_all nbr.ei walked) := by
    split
    · exact .fail (responds.trans (send_all_responds nbr.ei walked))
    · exact .send_all nbr.ei responds
  unfold update_receive
  split
  · exact .same
  · rename_i found
    have peer : nbr ≠ .self := neighbor_peer (by rw [found]; rfl)
    split
    · refine .other _ fun eigrp => ?_
      split
      · exact .neighbor_write eigrp nbr _
      · exact .refl eigrp
    · refine ends _ ?_
      refine .trans ?_ (neighbor_write_responds nbr _ _)
      refine .trans ?_ (responds_optional _ (receive_gr_ask_responds peer _ _))
      refine .trans ?_ (responds_optional _ (receive_gr_ask_responds peer _ _))
      refine .trans ?_ (walk_responds nbr true _ (update_receive_route_responds peer) packet.routes _)
      refine .trans ?_ (responds_optional _ (peer_restart_responds peer packet _))
      exact neighbor_write_responds nbr _ machine

theorem query_receive_route_responds {nbr : Nbr} (peer : nbr ≠ .self) (received : Received) (machine : Machine) :
    machine.Responds (query_receive_route nbr received machine) := by
  unfold query_receive_route
  split
  · exact Machine.perform_responds _ _ _ (.heard peer rfl rfl)
  · exact other_responds _ (fun eigrp => .packetizer_enqueue eigrp (by simp [Work.unshared])) machine
  · rename_i missing _
    have answered := other_responds
      (fun eigrp => eigrp.effect { id := 0, destination := received.tlv.dest } (query_unknown_reply_send nbr received.tlv))
      (fun eigrp => .packetizer_enqueue eigrp (by simp [Work.unshared])) machine
    dsimp only
    split
    · refine answered.trans (Machine.create_responds _ _ fun _ => .create (by simp [Label.nbr,peer]) (by simp [Label.old]) ?_)
      exact (other_lookup (.packetizer_enqueue _ _) _).trans missing
    · exact answered

theorem known_receive_route_responds {call : Received → Call} (outer : ∀ received, (call received).Outer)
    (received : Received) (machine : Machine) : machine.Responds (known_receive_route call received machine) := by
  unfold known_receive_route
  split
  · exact .refl machine
  · exact Machine.perform_responds _ _ _ (outer received)

/-- The handler of each kind of packet. -/
def packet_dispatch (nbr : Nbr) (packet : Packet) (machine : Machine) : Machine :=
  match packet.opcode with
  | .update => update_receive nbr packet machine
  | .query => send_all nbr.ei (walk nbr true (query_receive_route nbr) packet.routes (recv_sequence_update nbr packet machine))
  | .reply =>
    send_all nbr.ei (walk nbr false (known_receive_route (.reply_receive nbr)) packet.routes (recv_sequence_update nbr packet machine))
  | .siaquery =>
    walk nbr false (known_receive_route (.siaquery_receive nbr)) packet.routes (recv_sequence_update nbr packet machine)
  | .siareply =>
    walk nbr false (known_receive_route (.siareply_receive nbr)) packet.routes (recv_sequence_update nbr packet machine)

/-- A packet is dropped, or handled with the teardown of a neighbor that admission marked DOWN behind it. -/
theorem packet_receive_cases (nbr : Nbr) (packet : Packet) (machine : Machine) :
    packet_receive nbr packet machine = machine ∨
      ∃ neighbor, machine.state.neighbor nbr = some neighbor ∧ nbr ≠ .self ∧ packet_receive nbr packet machine =
        if packet.routes.any (·.limit_mark_down) then nbr_down nbr (packet_dispatch nbr packet machine)
        else packet_dispatch nbr packet machine := by
  cases found : machine.state.neighbor nbr with
  | none => exact .inl (by simp only [packet_receive,found])
  | some neighbor =>
    have peer : nbr ≠ .self := neighbor_peer (by rw [found]; rfl)
    by_cases refused : packet.opcode ≠ .update ∧ neighbor.state ≠ .up
    · exact .inl (by simp only [packet_receive,found,if_pos refused])
    · refine .inr ⟨neighbor,rfl,peer,?_⟩
      simp only [packet_receive,found,if_neg refused]
      rfl

theorem packet_dispatch_responds {nbr : Nbr} (peer : nbr ≠ .self) (packet : Packet) (machine : Machine) :
    machine.Responds (packet_dispatch nbr packet machine) := by
  have numbered : machine.Responds (recv_sequence_update nbr packet machine) := neighbor_write_responds nbr _ machine
  have known (call : Received → Call) (outer : ∀ received, (call received).Outer) := @known_receive_route_responds call outer
  unfold packet_dispatch
  split
  · exact (update_receive_concludes nbr packet machine).responds
  · refine .trans ?_ (send_all_responds nbr.ei _)
    exact numbered.trans (walk_responds nbr true _ (query_receive_route_responds peer) _ _)
  · refine .trans ?_ (send_all_responds nbr.ei _)
    exact numbered.trans (walk_responds nbr false _ (known _ fun _ => .heard peer rfl rfl) _ _)
  · exact numbered.trans (walk_responds nbr false _ (known _ fun _ => .heard peer rfl rfl) _ _)
  · exact numbered.trans (walk_responds nbr false _ (known _ fun _ => .heard peer rfl rfl) _ _)

theorem packet_receive_responds (nbr : Nbr) (packet : Packet) (machine : Machine) :
    machine.Responds (packet_receive nbr packet machine) := by
  rcases packet_receive_cases nbr packet machine with same | ⟨_,_,peer,handled⟩
  · rw [same]
    exact .refl machine
  · rw [handled]
    have dispatched := packet_dispatch_responds peer packet machine
    split
    · exact dispatched.trans (nbr_down_concludes peer _).responds
    · exact dispatched

/-! ### Graceful restarts -/

theorem gr_part_send_responds {nbr : Nbr} (peer : nbr ≠ .self) (restart : Restart) (intf : Intf) (pd : PrefixDescriptor)
    (route : RouteDescriptor) (machine : Machine) : machine.Responds (gr_part_send restart nbr intf pd route machine) := by
  refine .trans (responds_optional _ ?_) (responds_optional _ ?_)
  · exact Machine.other_responds _ _ (.still ⟨rfl,rfl,rfl,rfl,.inl rfl⟩ rfl rfl ⟨rfl,rfl,rfl⟩)
  · exact Machine.perform_responds _ _ _ (.heard peer rfl rfl)

theorem gr_part_walk_responds {nbr : Nbr} (peer : nbr ≠ .self) (restart : Restart) (intf : Intf) (ids : List Nat) (route_count : Nat)
    (machine : Machine) : machine.Responds (gr_part_walk restart nbr intf ids route_count machine).1 := by
  induction ids generalizing route_count machine with
  | nil => exact .refl machine
  | cons id ids ih =>
    unfold gr_part_walk
    split
    · exact fail_responds machine
    · split
      · exact ih _ machine
      · split
        · exact ih _ machine
        · split
          · exact (gr_part_send_responds peer restart intf _ _ machine).trans (ih _ _)
          · split
            · exact .refl machine
            · exact ih _ machine

theorem update_send_GR_part_responds (nbr : Nbr) (restart : Restart) (machine : Machine) :
    machine.Responds (update_send_GR_part nbr restart machine) := by
  unfold update_send_GR_part
  split
  · rename_i prefixes intf pending _
    obtain ⟨neighbor,known,_⟩ := Option.bind_eq_some_iff.mp pending
    have peer : nbr ≠ .self := neighbor_peer (by rw [known]; rfl)
    exact (gr_part_walk_responds peer restart intf prefixes 0 machine).trans (neighbor_write_responds nbr _ _)
  · exact .refl machine

/-! ### Interfaces, redistribution, operator -/

theorem intf_up_responds (ei : Nat) (machine : Machine) : machine.Responds (intf_up ei machine) := by
  unfold intf_up
  split
  · exact .refl machine
  · refine .trans ?_ (update_send_all_responds none _)
    split
    · exact Machine.perform_responds _ _ _ (.own rfl rfl)
    · rename_i missing
      exact Machine.create_responds _ _ fun _ => .create (by simp [Label.nbr]) (by simp [Label.old]) missing

theorem intf_down_concludes (ei : Nat) (machine : Machine) : machine.Concludes (intf_down ei machine) := by
  unfold intf_down
  split
  · exact .same
  · apply Machine.Concludes.send_all
    refine .trans ?_ (perform_all_responds _ (.own rfl rfl) _)
    exact Recorded.Extends.foldl _ (fun machine _ => (nbr_delete_concludes _ machine).responds) _ machine

theorem intf_free_responds (ei : Nat) (machine : Machine) : machine.Responds (intf_free ei machine) := by
  unfold intf_free
  split
  · exact .refl machine
  · refine .trans ?_ (Machine.other_responds _ _ (.still ⟨rfl,rfl,rfl,rfl,.inl rfl⟩ rfl rfl ⟨rfl,rfl,rfl⟩))
    refine .trans ?_ (intf_down_concludes ei _).responds
    split
    · exact Machine.act_responds _ _ (by simp) (by simp) fun _ => .remove (.inr (.inl ⟨_,rfl⟩))
    · exact .refl machine

theorem redistributed_route_update_responds (destination : Prefix) (source : Source) (metric : Metrics) (machine : Machine) :
    machine.Responds (redistributed_route_update destination source metric machine) := by
  refine .trans ?_ (topology_changes_send_responds destination _)
  split
  · exact Machine.perform_responds _ _ _ (.own rfl rfl)
  · rename_i missing
    exact Machine.create_responds _ _ fun _ => .create (by simp [Label.nbr]) (by simp [Label.old]) missing

theorem redistributed_route_remove_responds (destination : Prefix) (source : Source) (machine : Machine) :
    machine.Responds (redistributed_route_remove destination source machine) := by
  unfold redistributed_route_remove
  split
  · exact .refl machine
  · split
    · exact .refl machine
    · exact (Machine.perform_responds _ _ _ (.own rfl rfl)).trans (topology_changes_send_responds destination _)

theorem topology_table_lookup_mem {eigrp : Instance} {destination : Prefix} {pd : PrefixDescriptor}
    (found : eigrp.topology_table_lookup destination = some pd) : pd ∈ eigrp.prefixes := by
  obtain ⟨id,_,stored⟩ := List.mem_filterMap.mp (List.mem_of_find?_eq_some found)
  exact List.mem_of_find?_eq_some stored

/-- Behind a detachment the table has no node for the destination. -/
theorem detach_vacant {machine : Machine} {destination : Prefix} {pd : PrefixDescriptor}
    (found : machine.state.topology_table_lookup destination = some pd)
    (sound : (Machine.act (.detach pd.id) machine).state.fault = none) :
    (Machine.act (.detach pd.id) machine).state.topology_table_lookup pd.destination = none := by
  obtain ⟨id,linked,stored⟩ := List.mem_filterMap.mp (List.mem_of_find?_eq_some found)
  obtain rfl := (descriptor_mem stored).2
  unfold Machine.act at sound ⊢
  by_cases faulty : machine.state.fault.isSome
  · simp only [faulty,if_true] at sound
    simp [sound] at faulty
  · simp only [faulty,Bool.false_eq_true,if_false,Recorded.record,Instance.act,stored,Instance.prefix_detach,linked,if_true]
    rw [Instance.topology_table_lookup,List.find?_eq_none]
    intro other member
    obtain ⟨id,kept,same⟩ := List.mem_filterMap.mp member
    have same : machine.state.descriptor id = some other := same
    have different := (List.mem_filter.mp kept).2
    simpa [same] using different

theorem detach_prefixes (id : Nat) (machine : Machine) :
    (Machine.act (.detach id) machine).state.prefixes = machine.state.prefixes := by
  unfold Machine.act
  split
  · rfl
  · simp only [Recorded.record,Instance.act]
    split
    · rfl
    · unfold Instance.prefix_detach
      split <;> rfl

theorem topology_clear_responds (destination : Prefix) (machine : Machine) :
    machine.Responds (topology_clear destination machine) := by
  unfold topology_clear
  split
  · exact .refl machine
  · rename_i pd found
    have detached := Machine.act_responds (.detach pd.id) machine (by simp) (by simp) fun _ => .remove (.inl ⟨_,rfl⟩)
    have stored : pd ∈ (Machine.act (.detach pd.id) machine).state.prefixes := by
      rw [detach_prefixes]
      exact topology_table_lookup_mem found
    have created (creation : Creation) (peer : (Label.create creation).nbr ≠ some .self)
        (old : (Label.create creation).old = some pd) (same : creation.destination = pd.destination) :=
      detached.trans (Machine.create_responds creation _ fun sound =>
        .create peer (by simp [old,stored]) (same ▸ detach_vacant found sound))
    unfold topology_clear_prefix
    dsimp only
    split
    · split
      · exact created _ (by simp [Label.nbr]) rfl rfl
      · exact detached
    · split
      · exact detached
      · exact created _ (by simp [Label.nbr]) rfl rfl

theorem active_timer_expired_continues (id : Nat) (machine : Machine) :
    machine.Continues (active_timer_expired id machine) := by
  unfold active_timer_expired
  split
  · exact .refl machine
  · split
    · exact .refl machine
    · have expired := Machine.perform_extends id .active_timer_expired machine (by simp [Call.Plain,Call.nbr])
      dsimp only
      split
      · split
        · exact expired.trans (nbr_delete_concludes _ _).responds.continues
        · exact expired.trans (fail_continues _)
      · exact expired

/-- An event that neither hands out queued work, nor comes from the active timer, nor changes the configuration of
    metrics and paths. -/
def Event.ordinary : Event → Bool
  | .packetizer _ | .active_timer _ | .metric_weights _ | .multipath _ _ | .settings _ => false
  | _ => true

theorem handle_responds (machine : Machine) {event : Event} (ordinary : event.ordinary) :
    machine.Responds (handle machine event) := by
  cases event with
  | packetizer egress => cases ordinary
  | active_timer id => cases ordinary
  | metric_weights metric => cases ordinary
  | multipath variance max_paths => cases ordinary
  | settings settings => cases ordinary
  | packet_receive nbr packet => exact packet_receive_responds nbr packet machine
  | nbr_create ei => exact Machine.other_responds _ _ (.still ⟨rfl,rfl,rfl,rfl,.inl rfl⟩ rfl rfl ⟨rfl,rfl,rfl⟩)
  | nbr_pending nbr => exact neighbor_write_responds nbr _ machine
  | nbr_up nbr => exact neighbor_write_responds nbr _ machine
  | nbr_k_mismatch nbr => exact neighbor_write_responds nbr _ machine
  | nbr_delete nbr => exact (nbr_delete_concludes nbr machine).responds
  | nbr_limit nbr =>
    simp only [handle]
    split
    · rename_i known
      exact (nbr_down_concludes (neighbor_peer known) machine).responds
    · exact .refl machine
  | af_suspend peers =>
    exact (af_suspend_concludes peers machine).responds
  | intf_create intf =>
    apply other_responds
    intro eigrp
    split
    · exact .refl eigrp
    · exact (.still ⟨rfl,rfl,rfl,rfl,.inl rfl⟩ rfl rfl ⟨rfl,rfl,rfl⟩)
  | intf_params ei params split_horizon next_hop_self =>
    exact Machine.other_responds _ _ (.still ⟨rfl,rfl,rfl,rfl,.inl rfl⟩ rfl rfl ⟨rfl,rfl,rfl⟩)
  | intf_up ei => exact intf_up_responds ei machine
  | intf_down ei => exact (intf_down_concludes ei machine).responds
  | intf_free ei => exact intf_free_responds ei machine
  | redistributed_update destination source metric =>
    exact redistributed_route_update_responds destination source metric machine
  | redistributed_remove destination source => exact redistributed_route_remove_responds destination source machine
  | redistributed_source_remove source =>
    exact Recorded.Extends.foldl _ (fun machine pd => redistributed_route_remove_responds _ source machine) _ machine
  | traffic_share balanced =>
    refine .trans ?_ (perform_all_responds _ (.own rfl rfl) _)
    exact Machine.other_responds _ _ (.still ⟨rfl,rfl,rfl,rfl,.inl rfl⟩ rfl rfl ⟨rfl,rfl,rfl⟩)
  | distance internal_distance external_distance =>
    simp only [handle]
    split
    · exact .refl machine
    · refine .trans ?_ (perform_all_responds _ (.own rfl rfl) _)
      exact Machine.other_responds _ _ (.still ⟨rfl,rfl,rfl,rfl,.inl rfl⟩ rfl rfl ⟨rfl,rfl,rfl⟩)
  | routes_replay => exact perform_all_responds _ (.own rfl rfl) machine
  | gr_send nbr => exact other_responds _ (fun eigrp => .neighbor_write eigrp nbr _) machine
  | gr_part nbr restart => exact update_send_GR_part_responds nbr restart machine
  | clear destination => exact topology_clear_responds destination machine
  | clear_all => exact Recorded.Extends.foldl _ (fun machine pd => topology_clear_responds _ machine) _ machine

theorem metric_weights_responds (machine : Machine) :
    machine.Responds (update_send_all_enqueue none (perform_all .metric_update machine)) :=
  (perform_all_responds _ (.own rfl rfl) machine).trans (update_send_all_responds none _)

theorem multipath_responds (machine : Machine) : machine.Responds (perform_all .multipath_update machine) :=
  perform_all_responds _ (.own rfl rfl) machine

theorem handle_continues (machine : Machine) (event : Event) : machine.Continues (handle machine event) := by
  by_cases ordinary : event.ordinary
  · exact (handle_responds machine ordinary).continues
  · cases event with
    | packetizer egress => exact packetizer_turn_continues egress machine
    | active_timer id => exact active_timer_expired_continues id machine
    | metric_weights metric =>
      refine .trans ?_ (metric_weights_responds _).continues
      exact Machine.other_extends _ _ ⟨rfl,rfl,rfl,rfl,.inl rfl⟩
    | multipath variance max_paths =>
      simp only [handle]
      split
      · refine .trans ?_ (multipath_responds _).continues
        exact Machine.other_extends _ _ ⟨rfl,rfl,rfl,rfl,.inl rfl⟩
      · exact .refl machine
    | settings settings => exact Machine.other_extends _ _ ⟨rfl,rfl,rfl,rfl,.inl rfl⟩
    | _ => exact absurd rfl ordinary

/-! ## Rules -/

/-- The steps of a run lead from the new instance to its last state, and are all allowed. -/
theorem run_linked (metric : MetricConfig) (events : List Event) :
    Linked ({ metric } : Instance) (run metric events).trace (run metric events).state ∧
      ∀ step ∈ (run metric events).trace, Allowed step := by
  obtain ⟨steps,trace,linked,allowed⟩ := Recorded.Extends.foldl handle handle_continues events (Instance.start metric)
  have same : (run metric events).trace = steps := by simpa [run,Instance.start] using trace
  rw [same]
  exact ⟨linked,allowed⟩

/-- A state that the run passes through. -/
def Reached (metric : MetricConfig) (events : List Event) (eigrp : Instance) : Prop :=
  eigrp = (run metric events).state ∨ ∃ step ∈ (run metric events).trace, eigrp = step.before ∨ eigrp = step.after

/-- What holds of every new descriptor, and is kept by every call that the run makes, holds of every descriptor in
    every state that the run passes through. -/
theorem run_descriptors {P : PrefixDescriptor → Prop} {metric : MetricConfig} {events : List Event}
    (created : ∀ step ∈ (run metric events).trace, ∀ creation pd out, step.label = .create creation →
      creation.build step.before.env step.before.next_id = some (pd, out) →
        (∀ old, (Label.create creation).old = some old → P old) → P pd)
    (kept : ∀ step ∈ (run metric events).trace, ∀ call pd next out, Finds step call pd →
      exec step.before.env pd call = some (next, out) → P pd → P next)
    {eigrp : Instance} (reached : Reached metric events eigrp) : ∀ pd ∈ eigrp.prefixes, P pd := by
  obtain ⟨linked,allowed⟩ := run_linked metric events
  have invariant := @Linked.invariant _ _ _ _ _ (fun eigrp => ∀ pd ∈ eigrp.prefixes, P pd) linked (by simp) (by
    intro step member holds next present
    rcases (allowed step member).origin present with old | ⟨call,pd,out,finds,done⟩ | ⟨creation,out,label,built⟩
    · exact holds next old
    · obtain ⟨id,_,found⟩ := id finds
      exact kept step member call pd next out finds done (holds pd (descriptor_mem found).1)
    · refine created step member creation next out label built (fun old found => holds old ?_)
      exact ((allowed step member).permitted (by simp [label])).old old (label ▸ found))
  rcases reached with rfl | ⟨step,member,rfl | rfl⟩
  · exact invariant.1
  · exact (invariant.2 step member).1
  · exact (invariant.2 step member).2

/-! ## The history of one descriptor -/

/-- Every call of the run meets a condition on the descriptor that it finds. -/
def Machine.calls_all (check : Instance → Call → PrefixDescriptor → Bool) (machine : Machine) : Bool :=
  machine.trace.all fun step =>
    match step.label with
    | .perform id call => (step.before.descriptor id).all (check step.before call)
    | _ => true

theorem Machine.calls_all_finds {check : Instance → Call → PrefixDescriptor → Bool} {machine : Machine} (all : machine.calls_all check)
    {step : Step Instance Label} (member : step ∈ machine.trace) {call : Call} {pd : PrefixDescriptor}
    (finds : Finds step call pd) : check step.before call pd := by
  obtain ⟨id,label,found⟩ := finds
  have checked := List.all_eq_true.mp all step member
  simpa [label,found] using checked

theorem Machine.Continues.calls_all {check : Instance → Call → PrefixDescriptor → Bool} {machine next : Machine}
    (continues : machine.Continues next) (all : next.calls_all check) : machine.calls_all check := by
  obtain ⟨steps,trace,_⟩ := continues
  rw [Machine.calls_all,trace,List.all_append,Bool.and_eq_true] at all
  exact all.1

/-- The condition holds of a call that is made last. -/
theorem perform_checked {check : Instance → Call → PrefixDescriptor → Bool} {machine : Machine} {id : Nat} {call : Call}
    (all : (machine.perform id call).calls_all check) (sound : machine.state.fault = none) {pd : PrefixDescriptor}
    (found : machine.state.descriptor id = some pd) : check machine.state call pd := by
  have record : (machine.perform id call).trace = machine.trace ++
      [⟨.perform id call,machine.state,machine.state.act (.perform id call)⟩] := by
    simp [Machine.perform,Machine.act,sound,Recorded.record]
  rw [Machine.calls_all,record,List.all_append,Bool.and_eq_true] at all
  simpa [found] using all.2

/-- The machine with the record of what it has done since another one. -/
def Machine.since (machine start : Machine) : Machine := ⟨machine.state,machine.trace.drop start.trace.length⟩

theorem Machine.Continues.since {start machine next : Machine} (begun : start.Continues machine) (continues : machine.Continues next) :
    ∃ steps, (next.since start).trace = (machine.since start).trace ++ steps := by
  obtain ⟨before,early,_⟩ := begun
  obtain ⟨steps,late,_⟩ := continues
  have short : start.trace.length ≤ machine.trace.length := by
    rw [early,List.length_append]
    exact Nat.le_add_right _ _
  exact ⟨steps,by rw [Machine.since,Machine.since,late,List.drop_append_of_le_length short]⟩

theorem Machine.Continues.calls_all_iff {check : Instance → Call → PrefixDescriptor → Bool} {machine next : Machine}
    (continues : machine.Continues next) : next.calls_all check ↔ machine.calls_all check ∧ (next.since machine).calls_all check := by
  obtain ⟨steps,trace,_⟩ := continues
  simp only [Machine.calls_all,Machine.since,trace,List.drop_left,List.all_append,Bool.and_eq_true]

/-! ## Invariants between events -/

theorem Machine.other_state {machine : Machine} (sound : machine.state.fault = none) (update : Instance → Instance) :
    (machine.other update).state = update machine.state := by
  simp [Machine.other,sound,Recorded.record]

theorem Machine.act_state {machine : Machine} (sound : machine.state.fault = none) (label : Label) :
    (Machine.act label machine).state = machine.state.act label := by
  simp [Machine.act,sound,Recorded.record]

theorem Machine.Continues.sound {machine next : Machine} (continues : machine.Continues next) (sound : next.state.fault = none) :
    machine.state.fault = none := by
  by_contra faulty
  refine @Recorded.Extends.invariant _ _ _ _ _ (fun eigrp => eigrp.fault ≠ none) continues ?_ faulty sound
  intro step _ allowed before after
  exact before (allowed.before_sound after)

theorem run_snoc (metric : MetricConfig) (events : List Event) (event : Event) :
    run metric (events ++ [event]) = handle (run metric events) event := by
  simp [run,List.foldl_append]

theorem Machine.trace_split (machine : Machine) (n : Fin machine.trace.length) :
    machine.trace = machine.trace.take n ++ machine.trace.get n :: machine.trace.drop (n + 1) := by
  rw [List.get_eq_getElem,← List.drop_eq_getElem_cons,List.take_append_drop]

theorem Machine.trace_stretch (machine : Machine) (n : Fin machine.trace.length) (k : Nat) :
    machine.trace = machine.trace.take n ++ (machine.trace.get n :: (machine.trace.drop (n + 1)).take k) ++
      (machine.trace.drop (n + 1)).drop k := by
  rw [List.append_assoc,List.cons_append,List.take_append_drop]
  exact machine.trace_split n

/-- The call behind a change of a descriptor in a given step. -/
theorem run_performs {metric : MetricConfig} {events : List Event} (n : Fin (run metric events).trace.length) (id : Nat)
    (before : (((run metric events).trace.get n).before.descriptor id).isSome)
    (after : (((run metric events).trace.get n).after.descriptor id).isSome) (changed : Option.get _ after ≠ Option.get _ before) :
    ∃ call out, Performs ((run metric events).trace.get n) id call (Option.get _ before) (Option.get _ after) out := by
  have allowed := (run_linked metric events).2 _ (List.get_mem (run metric events).trace n)
  exact (allowed.performs (Option.some_get before).symm (Option.some_get after).symm changed).2

/-- The events of an adjacency that comes up; neighbors are numbered in the order of their creation. -/
def adjacency (ei id : Nat) : List Event := [.nbr_create ei, .nbr_pending (.peer ei id), .nbr_up (.peer ei id)]

/-- A packet with one route TLV. -/
def route_packet (opcode : Opcode) (delay : UInt64) : Packet :=
  { opcode, routes := [{ tlv := { dest := ⟨10,8⟩, metric := { delay, bandwidth := 100 } } }] }

/-- Two interfaces with one neighbor each. -/
def two_neighbors : List Event :=
  [.intf_create { id := 0 }, .intf_create { id := 1 }] ++ adjacency 0 0 ++ adjacency 1 1

/-- The successor's distance rises, both neighbors are asked, and both answer. -/
def computation : List Event :=
  two_neighbors ++
    [.packet_receive (.peer 0 0) (route_packet .update 100), .packetizer {},
      .packet_receive (.peer 0 0) (route_packet .update 90000), .packetizer {}, .packetizer {},
      .packet_receive (.peer 0 0) (route_packet .reply 90000), .packet_receive (.peer 1 1) (route_packet .reply 50000)]

/-- An interface with two neighbors goes down: the loss of the first starts a computation, the loss of the second ends
    it before the QUERY is packetized. -/
def interface_loss : List Event :=
  [.intf_create { id := 0 }, .intf_create { id := 1 }] ++ adjacency 0 0 ++ adjacency 0 1 ++ adjacency 1 2 ++
    [.packet_receive (.peer 0 0) (route_packet .update 100), .packet_receive (.peer 0 1) (route_packet .update 90000),
      .packetizer {}, .packetizer {}, .intf_down 0, .packetizer {}]

end Eigrp
