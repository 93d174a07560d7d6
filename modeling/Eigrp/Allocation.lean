import Eigrp.Turns
import Eigrp.Removal

/-!
# Nodes of the table and freed descriptors

A descriptor is freed by an item of the packetizer, behind its removal from the table. Every node of
the table therefore finds its descriptor, whatever is still queued.
-/

namespace Eigrp
open Eigrp.Lib

/-! ## What DUAL queues -/

/-- The effect queues the free of a descriptor. -/
def Effect.defers : Effect → Bool
  | .enqueue work => work.defer_free
  | _ => false

/-- Nothing is freed. -/
def Lasting (out : List Effect) : Prop := ∀ effect ∈ out, effect.defers = false

section Calls
variable {env : Env} {msg : Msg} {pd next : PrefixDescriptor} {after : RouteDescriptor} {nbr : Nbr} {packet : Opcode}
  {sender : Option Nbr} {out rest : List Effect}

theorem Lasting.nil : Lasting [] := by simp [Lasting]

theorem Lasting.append (first : Lasting out) (second : Lasting rest) : Lasting (out ++ rest) := by
  intro effect member
  rcases List.mem_append.mp member with member | member
  · exact first effect member
  · exact second effect member

theorem Lasting.cons {effect : Effect} (first : effect.defers = false) (second : Lasting rest) : Lasting (effect :: rest) := by
  intro other member
  rcases List.mem_cons.mp member with rfl | member
  · exact first
  · exact second other member

theorem update_routing_table_lasting (env : Env) (pd : PrefixDescriptor) : Lasting (update_routing_table env pd).2 := by
  unfold update_routing_table
  dsimp only
  split
  · split
    · exact .nil
    · exact .cons rfl .nil
  · exact .cons rfl .nil

theorem reply_send_route_lasting (pd : PrefixDescriptor) (nbr : Option Nbr) (route : Option RouteDescriptor) (poison : Bool) :
    Lasting (reply_send_route pd nbr route poison) := by
  unfold reply_send_route
  split
  · exact .nil
  · exact .cons rfl .nil

theorem passive_refresh_lasting (env : Env) (pd : PrefixDescriptor) : Lasting (passive_refresh env pd).2 := by
  rw [passive_refresh_eq]
  exact .append (.cons rfl (update_routing_table_lasting env _)) (.cons rfl .nil)

theorem fsm_event_lr_lasting (env : Env) (pd : PrefixDescriptor) : Lasting (fsm_event_lr env pd).2 := by
  simp only [fsm_event_lr]
  refine .append ?_ (.cons rfl (passive_refresh_lasting env _))
  split
  · exact reply_send_route_lasting _ _ _ _
  · exact .nil

theorem fsm_event_lr_fcs_lasting (done : fsm_event_lr_fcs env pd = some (next, out)) : Lasting out := by
  obtain ⟨route,_,finished⟩ := Option.bind_eq_some_iff.mp done
  obtain ⟨rfl,rfl⟩ := exec_some finished
  refine .append (.cons rfl ?_) (passive_refresh_lasting env _)
  split
  · exact reply_send_route_lasting _ _ _ _
  · exact .nil

theorem diffuse_lasting (env : Env) (pd : PrefixDescriptor) : Lasting (diffuse env pd).2 := by
  rcases diffuse_cases env pd with ⟨_,asked⟩ | ⟨_,ended⟩
  · rw [asked]
    exact .cons rfl .nil
  · rw [ended]
    exact fsm_event_lr_lasting env _

theorem keep_passive_lasting (env : Env) (used : RouteDescriptor) : Lasting (keep_passive env pd used).2 := by
  simp only [keep_passive]
  refine .append ?_ (update_routing_table_lasting env _)
  split
  · exact .nil
  · exact .cons rfl .nil

theorem outcome_lasting (outcome : Outcome env msg after pd next out) : Lasting out := by
  cases outcome with
  | commit used =>
    refine .append (keep_passive_lasting env used) ?_
    split
    · exact reply_send_route_lasting _ _ _ _
    · exact .nil
  | start => exact .cons rfl (diffuse_lasting env _)
  | start_query => exact .cons rfl (diffuse_lasting env _)
  | wait =>
    split
    · unfold active_non_successor_reply_send
      split <;> exact reply_send_route_lasting _ _ _ _
    · exact .nil
  | origin => exact .cons rfl .nil
  | increase => exact .cons rfl .nil
  | last_reply => exact fsm_event_lr_lasting env pd
  | last_reply_feasible next out even reply owed done => exact fsm_event_lr_fcs_lasting done
  | last_reply_infeasible => exact .cons rfl (diffuse_lasting env _)

theorem reaction_lasting (reaction : Reaction env pd packet sender nbr next out) : Lasting out := by
  obtain ⟨_,_,_,_,_,_,_,outcome⟩ := reaction.reacts
  exact outcome_lasting outcome

theorem withdrawals_lasting (withdrawals : Withdrawals env pd next out) : Lasting out := by
  induction withdrawals with
  | nil => exact .nil
  | cons reaction _ ih => exact .append (reaction_lasting reaction) ih

theorem route_descriptor_add_lasting (env : Env) (pd : PrefixDescriptor) (route : RouteDescriptor) :
    Lasting (route_descriptor_add env pd route).2 := by
  unfold route_descriptor_add
  dsimp only
  split
  · exact .cons rfl .nil
  · exact .nil

theorem route_descriptor_delete_lasting (pd : PrefixDescriptor) (route : RouteDescriptor) :
    Lasting (route_descriptor_delete pd route).2 := by
  unfold route_descriptor_delete
  dsimp only
  split
  · exact .cons rfl .nil
  · exact .nil

theorem routes_add_lasting (env : Env) (routes : List RouteDescriptor) (pd : PrefixDescriptor) : Lasting (routes_add env routes pd).2 := by
  induction routes generalizing pd with
  | nil => exact .nil
  | cons route routes ih => exact .append (route_descriptor_add_lasting env pd route) (ih _)

theorem delete_unreachable_lasting (routes : List RouteDescriptor) (pd : PrefixDescriptor) : Lasting (delete_unreachable routes pd).2 := by
  induction routes generalizing pd with
  | nil => exact .nil
  | cons route routes ih =>
    unfold delete_unreachable
    split
    · exact .append (route_descriptor_delete_lasting pd route) (ih _)
    · exact ih pd

theorem redistributed_update_mark_lasting (pd : PrefixDescriptor) : Lasting (redistributed_update_mark pd).2 := by
  unfold redistributed_update_mark
  split
  · exact .cons rfl .nil
  · exact .nil

theorem intf_up_added_lasting (env : Env) (pd : PrefixDescriptor) (ei : Nat) : Lasting (intf_up_added env pd ei).2 := by
  refine .append ?_ (route_descriptor_add_lasting env _ _)
  unfold intf_up_deleted
  split
  · split
    · exact route_descriptor_delete_lasting pd _
    · exact .nil
  · exact .nil

theorem metric_update_lasting (env : Env) (pd : PrefixDescriptor) : Lasting (metric_update_pd env pd).2 := by
  rcases metric_update_cases env pd with ⟨_,same⟩ | ⟨_,refreshed⟩ | ⟨_,committed⟩
  · rw [same]
    exact .nil
  · rw [refreshed]
    exact .nil
  · rw [committed]
    exact .append (update_routing_table_lasting env _) (.cons rfl .nil)

theorem update_topology_table_prefix_lasting (pd : PrefixDescriptor) : Lasting (pd |> update_topology_table_prefix).2 := by
  unfold update_topology_table_prefix
  split
  · exact .nil
  · dsimp only
    split
    · exact .append (delete_unreachable_lasting _ pd) (.cons rfl .nil)
    · exact delete_unreachable_lasting _ pd

theorem fsm_active_timer_expired_lasting (env : Env) (pd : PrefixDescriptor) : Lasting (fsm_active_timer_expired env pd).2 := by
  unfold fsm_active_timer_expired
  dsimp only
  split
  · exact .nil
  · split
    · exact .cons rfl .nil
    · intro effect member
      obtain ⟨status,_,rfl⟩ := List.mem_map.mp member
      rfl

/-- No call queues a free of its own. -/
theorem exec_lasting {call : Call} (done : exec env pd call = some (next, out)) : Lasting out := by
  cases call with
  | update_receive nbr received =>
    rcases update_receive_cases done with ⟨_,rfl⟩ | reaction
    · exact .nil
    · exact reaction_lasting reaction
  | query_receive nbr received =>
    rcases query_receive_cases done with ⟨_,_,rfl⟩ | ⟨_,_,rfl,_⟩ | reaction
    · exact .cons rfl .nil
    · exact .cons rfl .nil
    · exact reaction_lasting reaction
  | reply_receive nbr received =>
    rcases reply_receive_cases done with ⟨_,_,rfl⟩ | ⟨_,reaction⟩
    · exact .nil
    · exact reaction_lasting reaction
  | siaquery_receive nbr received =>
    obtain ⟨more,reaction,rfl⟩ := siaquery_receive_cases done
    refine .append (reaction_lasting reaction) ?_
    split
    · exact .cons rfl .nil
    · exact .nil
  | siareply_receive nbr received =>
    rcases siareply_receive_cases done with ⟨_,rfl,_⟩ | ⟨_,_,_,rfl⟩ | ⟨_,_,_,reaction⟩
    · exact .nil
    · exact .nil
    · exact reaction_lasting reaction
  | gr_ask nbr => exact reaction_lasting (gr_ask_reaction done)
  | neighbor_down nbr =>
    rcases neighbor_lost_cases done with ⟨_,rfl,_⟩ | ⟨_,reaction⟩ | ⟨_,reaction⟩
    · exact .nil
    · exact reaction_lasting reaction
    · exact reaction_lasting reaction
  | suspended_origin_clear nbrs =>
    cases done
    exact .nil
  | connected_interface_down ei => exact withdrawals_lasting (connected_routes_down_withdrawals done)
  | intf_up ei =>
    obtain ⟨more,reaction,rfl⟩ := intf_up_cases done
    exact .append (intf_up_added_lasting env pd ei) (reaction_lasting reaction)
  | redistributed_update source metric =>
    obtain ⟨middle,more,reaction,⟨_,rfl⟩ | ⟨_,rfl⟩⟩ := redistributed_update_cases done
    · exact reaction_lasting reaction
    · exact .append (reaction_lasting reaction) (redistributed_update_mark_lasting middle)
  | redistributed_remove source =>
    rcases redistributed_remove_cases done with ⟨_,rfl⟩ | reaction
    · exact .nil
    · exact reaction_lasting reaction
  | metric_update =>
    obtain ⟨rfl,rfl⟩ := exec_some done
    exact metric_update_lasting env pd
  | multipath_update =>
    obtain ⟨rfl,rfl⟩ := exec_some done
    unfold multipath_update_pd
    split
    · exact .nil
    · exact update_routing_table_lasting env _
  | traffic_share_update =>
    obtain ⟨rfl,rfl⟩ := exec_some done
    unfold traffic_share_update_pd
    split
    · exact .nil
    · exact update_routing_table_lasting env _
  | routes_replay =>
    obtain ⟨rfl,rfl⟩ := exec_some done
    unfold routes_replay_pd
    split
    · exact update_routing_table_lasting env _
    · exact .nil
  | query_rij_add nbrs =>
    obtain ⟨rfl,rfl⟩ := exec_some done
    exact .nil
  | query_sent =>
    obtain ⟨rfl,rfl⟩ := exec_some done
    rcases fsm_query_sent_cases env pd with ⟨_,same⟩ | ⟨_,_,_,armed⟩ | ⟨_,_,ended⟩
    · rw [same]
      exact .nil
    · rw [armed]
      exact .nil
    · rw [ended]
      exact fsm_event_lr_lasting env pd
  | action_clear cleared =>
    obtain ⟨rfl,rfl⟩ := exec_some done
    exact .nil
  | retire =>
    obtain ⟨rfl,rfl⟩ := exec_some done
    exact update_topology_table_prefix_lasting pd
  | active_timer_expired =>
    obtain ⟨rfl,rfl⟩ := exec_some done
    exact fsm_active_timer_expired_lasting env pd

theorem creation_lasting {id : Nat} {creation : Creation} (built : creation.build env id = some (pd, out)) : Lasting out := by
  cases creation with
  | update nbr received =>
    obtain ⟨learned,_,finished⟩ := Option.bind_eq_some_iff.mp built
    obtain ⟨rfl,rfl⟩ := exec_some finished
    exact .append (route_descriptor_add_lasting env _ _) (.cons rfl .nil)
  | query nbr received =>
    obtain ⟨route,_,finished⟩ := Option.bind_eq_some_iff.mp built
    obtain ⟨rfl,rfl⟩ := exec_some finished
    exact .nil
  | connected destination ei =>
    obtain ⟨rfl,rfl⟩ := exec_some built
    exact .cons rfl (route_descriptor_add_lasting env _ _)
  | redistributed destination source metric =>
    obtain ⟨rfl,rfl⟩ := exec_some built
    exact .append (route_descriptor_add_lasting env _ _) (redistributed_update_mark_lasting _)
  | connected_recreate old =>
    obtain ⟨rfl,rfl⟩ := exec_some built
    exact routes_add_lasting env _ _
  | remote_requery old =>
    obtain ⟨rfl,rfl⟩ := exec_some built
    exact .cons rfl .nil

end Calls

/-! ## The invariant -/

/-- Numbers are not used again, every node of the table finds its descriptor, and no queued free is about one of them. -/
structure Allocated (eigrp : Instance) : Prop where
  fresh : ∀ id, eigrp.next_id ≤ id → eigrp.descriptor id = none
  table : ∀ id ∈ eigrp.topology_table, eigrp.descriptor id ≠ none
  freed : ∀ work ∈ eigrp.packetizer, work.defer_free = true → ∀ id, work.pd = some (.shared id) →
    id ∉ eigrp.topology_table ∧ id < eigrp.next_id

section States
variable {before after eigrp : Instance} {pd : PrefixDescriptor} {out : List Effect}

/-- Nodes may leave the table, and items that free nothing may be queued. -/
theorem Allocated.shrinks (allocated : Allocated before) (prefixes : after.prefixes = before.prefixes) (next_id : after.next_id = before.next_id)
    (table : ∀ id ∈ after.topology_table, id ∈ before.topology_table)
    (queued : ∀ work ∈ after.packetizer, work.defer_free = true → work ∈ before.packetizer) : Allocated after where
  fresh := by
    intro id early
    rw [descriptor_of_prefixes prefixes]
    exact allocated.fresh id (next_id ▸ early)
  table := by
    intro id linked
    rw [descriptor_of_prefixes prefixes]
    exact allocated.table id (table id linked)
  freed := by
    intro work member deferred id names
    obtain ⟨outside,early⟩ := allocated.freed work (queued work member deferred) deferred id names
    exact ⟨fun linked => outside (table id linked),next_id ▸ early⟩

theorem Allocated.framed (allocated : Allocated before) (frame : Frame before after)
    (queued : ∀ work ∈ after.packetizer, work ∈ before.packetizer ∨ work.unshared) : Allocated after := by
  refine allocated.shrinks frame.prefixes frame.next_id (fun id linked => frame.topology_table ▸ linked) fun work member deferred => ?_
  rcases queued work member with old | unshared
  · exact old
  · rw [unshared.1] at deferred
    cases deferred

theorem Allocated.additive (allocated : Allocated before) (additive : Additive before after) : Allocated after :=
  allocated.framed additive.frame additive.queued

/-- The node that is detached is queued behind its removal. -/
theorem Allocated.detach (allocated : Allocated eigrp) {other : PrefixDescriptor} (stored : eigrp.descriptor pd.id = some other)
    (same : other.destination = pd.destination) : Allocated (eigrp.prefix_detach pd) := by
  unfold Instance.prefix_detach
  split
  · constructor
    · exact allocated.fresh
    · exact fun id linked => allocated.table id (mem_table_without linked)
    · intro work member deferred id names
      rcases List.mem_append.mp member with old | new
      · obtain ⟨outside,early⟩ := allocated.freed work old deferred id names
        exact ⟨fun linked => outside (mem_table_without linked),early⟩
      · rw [List.mem_singleton.mp new] at names
        cases names
        refine ⟨fun linked => ?_,?_⟩
        · simpa [stored,same] using (List.mem_filter.mp linked).2
        · by_contra late
          rw [allocated.fresh _ (not_lt.mp late)] at stored
          cases stored
  · exact allocated

theorem Allocated.effects (allocated : Allocated eigrp) {other : PrefixDescriptor} (stored : eigrp.descriptor pd.id = some other)
    (same : other.destination = pd.destination) (lasting : Lasting out) : Allocated (eigrp.effects pd out) := by
  unfold Instance.effects
  induction out generalizing eigrp with
  | nil => exact allocated
  | cons effect out ih =>
    refine ih ?_ ((effect_descriptor pd eigrp effect pd.id).trans stored) fun effect member => lasting effect (List.mem_cons_of_mem _ member)
    have kept (after : Instance) (prefixes : after.prefixes = eigrp.prefixes) (next_id : after.next_id = eigrp.next_id)
        (table : after.topology_table = eigrp.topology_table) (packetizer : after.packetizer = eigrp.packetizer) : Allocated after :=
      allocated.shrinks prefixes next_id (fun id linked => table ▸ linked) (fun work member _ => packetizer ▸ member)
    cases effect with
    | topology_change => exact kept _ rfl rfl rfl rfl
    | topology_change_once =>
      simp only [Instance.effect]
      split
      · exact allocated
      · exact kept _ rfl rfl rfl rfl
    | enqueue work =>
      refine allocated.shrinks rfl rfl (fun id linked => linked) fun work member deferred => ?_
      rcases List.mem_append.mp member with old | new
      · exact old
      · have permanent := lasting _ List.mem_cons_self
        rw [List.mem_singleton.mp new] at deferred
        rw [Effect.defers,deferred] at permanent
        cases permanent
    | rib_route_add route =>
      simp only [Instance.effect]
      split
      · exact kept _ rfl rfl rfl rfl
      · exact allocated
    | rib_route_del => exact kept _ rfl rfl rfl rfl
    | detach => exact allocated.detach stored same
    | dual_state_change old new event => exact allocated
    | stuck nbr => exact allocated

theorem Allocated.perform (allocated : Allocated eigrp) (id : Nat) (call : Call) : Allocated (eigrp.perform id call) := by
  have failed (fault : Fault) : Allocated (eigrp.fail fault) :=
    allocated.shrinks rfl rfl (fun _ linked => linked) (fun _ member _ => member)
  unfold Instance.perform
  split
  · exact failed _
  · rename_i pd found
    split
    · exact failed _
    · rename_i next out done
      have number : next.id = id := (exec_identity done).id.trans (descriptor_mem found).2
      let written : Instance :=
        { eigrp with prefixes := eigrp.prefixes.map fun pd : PrefixDescriptor => if pd.id = id then next else pd }
      have stored (other : Nat) : written.descriptor other = if other = id then some next else eigrp.descriptor other :=
        descriptor_write found (exec_identity done).id other
      have kept : Allocated written := by
        refine ⟨fun other early => ?_,fun other linked => ?_,allocated.freed⟩
        · have missing := allocated.fresh other early
          rw [stored,if_neg ?_]
          · exact missing
          · rintro rfl
            rw [found] at missing
            cases missing
        · rw [stored]
          split
          · simp
          · exact allocated.table other linked
      have current : written.descriptor next.id = some next := by rw [stored,if_pos number]
      exact kept.effects current rfl (exec_lasting done)

theorem Allocated.create (allocated : Allocated eigrp) (creation : Creation) : Allocated (eigrp.create creation) := by
  unfold Instance.create
  dsimp only
  split
  · exact allocated.shrinks rfl rfl (fun _ linked => linked) (fun _ member _ => member)
  · rename_i pd out built
    have number : pd.id = eigrp.next_id := (creation_fresh built).id
    have missing := allocated.fresh eigrp.next_id le_rfl
    let added : Instance :=
      { eigrp with prefixes := eigrp.prefixes ++ [pd], topology_table := eigrp.topology_table ++ [eigrp.next_id]
                   next_id := eigrp.next_id + 1 }
    have stored (other : Nat) : added.descriptor other = (eigrp.descriptor other).or (if pd.id = other then some pd else none) := by
      unfold Instance.descriptor
      rw [List.find?_append]
      by_cases here : pd.id = other <;> simp [here]
    have current : added.descriptor pd.id = some pd := by
      rw [stored,number,missing]
      simp
    have kept : Allocated added := by
      refine ⟨fun other early => ?_,fun other linked => ?_,fun work member deferred id names => ?_⟩
      · have early : eigrp.next_id + 1 ≤ other := early
        rw [stored,allocated.fresh other (by omega),if_neg (by omega)]
        rfl
      · rcases List.mem_append.mp linked with linked | new
        · obtain ⟨old,found⟩ := Option.ne_none_iff_exists'.mp (allocated.table other linked)
          rw [stored,found]
          simp
        · rw [List.mem_singleton.mp new,← number,current]
          simp
      · obtain ⟨outside,early⟩ := allocated.freed work member deferred id names
        refine ⟨fun linked => ?_,Nat.lt_succ_of_lt early⟩
        rcases List.mem_append.mp linked with linked | new
        · exact outside linked
        · rw [List.mem_singleton.mp new] at early
          omega
    exact kept.effects current rfl (creation_lasting built)

theorem Allocated.free (allocated : Allocated eigrp) {id : Nat} (outside : id ∉ eigrp.topology_table) :
    Allocated { eigrp with prefixes := eigrp.prefixes.filter fun pd => pd.id ≠ id } := by
  have stored (other : Nat) : ({ eigrp with prefixes := eigrp.prefixes.filter fun pd => pd.id ≠ id } : Instance).descriptor other =
      if other = id then none else eigrp.descriptor other := descriptor_filter eigrp id other
  refine ⟨fun other early => ?_,fun other linked => ?_,allocated.freed⟩
  · rw [stored,allocated.fresh other early]
    split <;> rfl
  · rw [stored,if_neg ?_]
    · exact allocated.table other linked
    · rintro rfl
      exact outside linked

theorem Allocated.delete (allocated : Allocated eigrp) (id : Nat) : Allocated (eigrp.delete id) := by
  unfold Instance.delete
  split
  · exact allocated.shrinks rfl rfl (fun _ linked => linked) (fun _ member _ => member)
  · rename_i pd found
    split
    · have unlinked : Allocated { eigrp with topology_table := eigrp.table_without pd.destination } :=
        allocated.shrinks rfl rfl (fun _ linked => mem_table_without linked) (fun _ member _ => member)
      have outside : id ∉ eigrp.table_without pd.destination := by
        have same := (descriptor_mem found).2
        subst same
        exact table_without_self found
      exact (unlinked.free outside).shrinks rfl rfl (fun _ linked => linked) (fun _ member _ => member)
    · exact allocated

/-- Every operation but a free keeps the invariant. -/
theorem Allocated.act (allocated : Allocated eigrp) {label : Label} (stored : ∀ id, label ≠ .free id) : Allocated (eigrp.act label) := by
  cases label with
  | perform id call => exact allocated.perform id call
  | create creation => exact allocated.create creation
  | detach id =>
    simp only [Instance.act]
    split
    · exact allocated.shrinks rfl rfl (fun _ linked => linked) (fun _ member _ => member)
    · rename_i pd found
      have same := (descriptor_mem found).2
      exact allocated.detach (same ▸ found) rfl
  | delete id => exact allocated.delete id
  | free id => exact absurd rfl (stored id)
  | other => exact allocated

end States

/-! ## Turns of the packetizer -/

section Turns
variable {machine next : Machine} {action : Action}

theorem Machine.act_allocated (allocated : Allocated machine.state) {label : Label} (stored : ∀ id, label ≠ .free id) :
    Allocated (Machine.act label machine).state := by
  unfold Machine.act
  split
  · exact allocated
  · exact allocated.act stored

theorem Machine.perform_allocated (allocated : Allocated machine.state) (id : Nat) (call : Call) :
    Allocated (machine.perform id call).state := Machine.act_allocated allocated (by simp)

theorem Machine.other_allocated (allocated : Allocated machine.state) {update : Instance → Instance}
    (frame : Frame machine.state (update machine.state))
    (queued : ∀ work ∈ (update machine.state).packetizer, work ∈ machine.state.packetizer ∨ work.unshared) :
    Allocated (machine.other update).state := by
  unfold Machine.other
  split
  · exact allocated
  · exact allocated.framed frame queued

theorem Machine.Responds.allocated (responds : machine.Responds next) (allocated : Allocated machine.state) : Allocated next.state := by
  refine @Recorded.Extends.invariant _ _ _ _ _ Allocated responds (fun step _ handled before => ?_) allocated
  have stored := handled.stored
  have additive := handled.additive
  cases handled.allowed with
  | act permitted sound => exact before.act stored
  | other frame => exact before.additive (additive rfl)

theorem Machine.Addresses.allocated {meant : Instance → Nat → Prop} (addresses : machine.Addresses meant next)
    (allocated : Allocated machine.state) : Allocated next.state := by
  refine @Recorded.Extends.invariant _ _ _ _ _ Allocated addresses (fun step _ addressed before => ?_) allocated
  obtain ⟨allowed,⟨_,additive⟩ | ⟨id,nbrs,label,_⟩⟩ := addressed
  · exact before.additive additive
  · cases allowed with
    | @act named _ permitted sound =>
      have stored (other : Nat) : named ≠ .free other := by
        rintro rfl
        cases label
      exact before.act stored
    | other frame => cases label

theorem change_drain_allocated {drain : Drain} (id : Nat) (allocated : Allocated drain.machine.state) :
    Allocated (change_drain action drain id).machine.state := by
  rcases change_drain_machine action drain id with ⟨_,failed⟩ | ⟨pd,_,turned⟩
  · rw [failed]
    exact Machine.other_allocated allocated (.dangling _) (fun _ member => .inl member)
  · rw [turned]
    split
    · unfold entry_drained
      split
      · exact Machine.perform_allocated (Machine.perform_allocated allocated id _) id _
      · exact Machine.perform_allocated allocated id _
    · exact allocated

theorem drain_loop_allocated (ids : List Nat) {drain : Drain} (allocated : Allocated drain.machine.state) :
    Allocated (ids.foldl (change_drain action) drain).machine.state := by
  induction ids generalizing drain with
  | nil => exact allocated
  | cons id ids ih => exact ih (change_drain_allocated id allocated)

theorem perform_loop_allocated (call : Call) (ids : List Nat) (allocated : Allocated machine.state) :
    Allocated (ids.foldl (fun machine id => machine.perform id call) machine).state := by
  induction ids generalizing machine with
  | nil => exact allocated
  | cons id ids ih => exact ih (Machine.perform_allocated allocated id call)

theorem packetizer_changes_send_allocated (egress : Egress) (exception : Option Nat) (allocated : Allocated machine.state) :
    Allocated (packetizer_changes_send egress action exception machine).state := by
  have sent := (intfs_changes_send_addresses egress action exception machine).allocated allocated
  unfold packetizer_changes_send
  dsimp only
  apply perform_loop_allocated
  refine Machine.other_allocated (drain_loop_allocated _ ?_) ⟨rfl,rfl,rfl,rfl,.inl rfl⟩ (fun _ member => .inl member)
  exact Machine.other_allocated sent ⟨rfl,rfl,rfl,rfl,.inl rfl⟩ (fun _ member => .inl member)

theorem packetizer_query_send_allocated (egress : Egress) (work : Work) (allocated : Allocated machine.state) :
    Allocated (packetizer_query_send egress work action machine).state := by
  unfold packetizer_query_send
  split
  · exact packetizer_changes_send_allocated egress _ allocated
  · exact allocated
  · rename_i id _
    have sent := (intfs_prefix_send_addresses egress work id machine).allocated allocated
    dsimp only
    split
    · exact Machine.perform_allocated sent id _
    · exact sent

theorem packetizer_work_process_allocated (egress : Egress) (work : Work) (allocated : Allocated machine.state) :
    Allocated (packetizer_work_process egress work machine).state := by
  unfold packetizer_work_process
  split
  · exact allocated
  · split
    · exact (@packetizer_neighbor_route_send_addresses (fun _ _ => False) egress work _ machine).allocated allocated
    · exact packetizer_query_send_allocated egress work allocated
    · exact packetizer_query_send_allocated egress work allocated
    all_goals exact allocated

theorem packetizer_turn_allocated (egress : Egress) (allocated : Allocated machine.state) :
    Allocated (packetizer_turn egress machine).state := by
  unfold packetizer_turn
  split
  · exact allocated
  · rename_i work packetizer queue
    have taken : Allocated (machine.other fun eigrp => { eigrp with packetizer }).state :=
      Machine.other_allocated allocated ⟨rfl,rfl,rfl,rfl,.inl rfl⟩ (fun item member => .inl (queue ▸ List.mem_cons_of_mem work member))
    dsimp only
    split
    · rename_i id deferred names
      -- an item that frees is not processed otherwise
      have idle : packetizer_work_process egress work (machine.other fun eigrp => { eigrp with packetizer }) =
          machine.other fun eigrp => { eigrp with packetizer } := by
        simp only [packetizer_work_process,deferred,if_true]
      rw [idle]
      unfold Machine.act
      split
      · exact taken
      · refine taken.free ?_
        have outside := (allocated.freed work (queue ▸ List.mem_cons_self) deferred id names).1
        unfold Machine.other
        split <;> exact outside
    · exact packetizer_work_process_allocated egress work taken

end Turns

/-! ## Runs -/

theorem active_timer_expired_allocated (id : Nat) {machine : Machine} (allocated : Allocated machine.state) :
    Allocated (active_timer_expired id machine).state := by
  have expired := Machine.perform_allocated allocated id .active_timer_expired
  unfold active_timer_expired
  split
  · exact allocated
  · split
    · exact allocated
    · dsimp only
      split
      · split
        · exact (nbr_delete_concludes _ _).responds.allocated expired
        · exact (fail_responds _).allocated expired
      · exact expired

theorem handle_allocated (event : Event) {machine : Machine} (allocated : Allocated machine.state) : Allocated (handle machine event).state := by
  by_cases ordinary : event.ordinary
  · exact (handle_responds machine ordinary).allocated allocated
  · cases event with
    | packetizer egress => exact packetizer_turn_allocated egress allocated
    | active_timer id => exact active_timer_expired_allocated id allocated
    | metric_weights metric =>
      refine (metric_weights_responds _).allocated ?_
      exact Machine.other_allocated allocated ⟨rfl,rfl,rfl,rfl,.inl rfl⟩ (fun _ member => .inl member)
    | multipath variance max_paths =>
      simp only [handle]
      split
      · refine (multipath_responds _).allocated ?_
        exact Machine.other_allocated allocated ⟨rfl,rfl,rfl,rfl,.inl rfl⟩ (fun _ member => .inl member)
      · exact allocated
    | settings settings => exact Machine.other_allocated allocated ⟨rfl,rfl,rfl,rfl,.inl rfl⟩ (fun _ member => .inl member)
    | _ => exact absurd rfl ordinary

/-- In every run every node of the table finds its descriptor. -/
theorem run_allocated (metric : MetricConfig) (events : List Event) : Allocated (run metric events).state := by
  have handled (events : List Event) {machine : Machine} (allocated : Allocated machine.state) :
      Allocated (events.foldl handle machine).state := by
    induction events generalizing machine with
    | nil => exact allocated
    | cons event events ih => exact ih (handle_allocated event allocated)
  refine handled events ⟨?_,?_,?_⟩ <;> simp [Instance.start,Instance.descriptor]

end Eigrp
