import Eigrp.Changes
import Eigrp.Total

/-!
# No work is left behind

Between two events every destination that DUAL has flagged is on the list of changes, and the
packetizer's queue holds an item that will look at it. Most handlers end by queuing work for the
whole list; the others are looked at call by call, and the packetizer's own turns restore what
they take away.
-/

namespace Eigrp
open Eigrp.Lib

/-- No flagged destination of the table is forgotten. -/
structure Settled (eigrp : Instance) : Prop where
  listed : Listed eigrp
  served : ∀ action, Served action eigrp

/-! ## What DUAL decides -/

section Decisions
variable {env : Env} {msg last : Msg} {pd current next : PrefixDescriptor} {route after : RouteDescriptor} {event : FsmEvent}
  {out : List Effect}

end Decisions

/-! ## Calls whose handler queues nothing -/

/-- The handler of an interface that comes up queues an UPDATE whatever DUAL decides. -/
def Call.announces : Call → Bool
  | .intf_up _ => true
  | _ => false

section Covered
variable {eigrp : Instance} {call : Call} {pd next : PrefixDescriptor} {out : List Effect} {action : Action} {handed : Handed}

end Covered

/-! ## Handlers -/

/-- A step about one destination leaves the descriptors of the others as they were. -/
theorem Allowed.elsewhere {step : Step Instance Label} (allowed : Allowed step) (indexed : Indexed step.before) {destination : Prefix}
    (about : ∀ id call pd, step.label = .perform id call → step.before.descriptor id = some pd → pd.destination = destination)
    (creates : ∀ creation, step.label = .create creation → creation.destination = destination) {id : Nat} {pd : PrefixDescriptor}
    (linked : id ∈ step.after.topology_table) (found : step.after.descriptor id = some pd) (elsewhere : pd.destination ≠ destination) :
    id ∈ step.before.topology_table ∧ step.before.descriptor id = some pd := by
  have stored : step.before.descriptor id = some pd := by
    by_cases sound : step.after.fault = none
    · rcases allowed.descriptor id sound with ⟨same,_⟩ | ⟨call,old,next,out,performs⟩ |
        ⟨creation,new,out,label,number,built,_,after⟩ | ⟨gone,_⟩
      · exact same ▸ found
      · rw [performs.after] at found
        obtain rfl := Option.some.inj found
        have same := (exec_identity performs.done).destination.trans (about id call old performs.label performs.before)
        exact absurd same elsewhere
      · rw [after,indexed.fresh id number.le,Option.none_or] at found
        obtain rfl := Option.some.inj found
        exact absurd ((creation_fresh built).destination.trans (creates creation label)) elsewhere
      · rw [gone] at found
        cases found
    · rwa [descriptor_of_prefixes (allowed.failed sound)] at found
  refine ⟨?_,stored⟩
  rcases allowed.table linked with before | ⟨_,rfl⟩
  · exact before
  · rw [indexed.fresh _ le_rfl] at stored
    cases stored

section Handlers
variable {machine next : Machine}

theorem Machine.Continues.indexed (continues : machine.Continues next) (indexed : Indexed machine.state) : Indexed next.state :=
  continues.invariant (fun _ _ allowed => allowed.indexed) indexed

theorem Machine.Responds.listed (responds : machine.Responds next) (indexed : Indexed machine.state)
    (listed : Listed machine.state) : Listed next.state := by
  have kept := @Recorded.Extends.invariant _ _ _ _ _ (fun eigrp => Indexed eigrp ∧ Listed eigrp) responds ?_ ⟨indexed,listed⟩
  · exact kept.2
  · rintro step _ handled ⟨indexed,listed⟩
    exact ⟨handled.allowed.indexed indexed,
      handled.allowed.listed indexed (fun other => (handled.additive other).topology_changes) listed⟩

theorem served_mono {before after : Instance} {action : Action} (served : Served action before)
    (table : after.topology_table ⊆ before.topology_table)
    (stored : ∀ id pd, after.descriptor id = some pd → before.descriptor id = some pd)
    (queue : before.packetizer ⊆ after.packetizer) : Served action after :=
  fun id linked pd found needed => queued_of_subset queue (served id (table linked) pd (stored id pd found) needed)

/-- What is listed is a matter of the table, the descriptors and the list. -/
theorem listed_of_frame {before after : Instance} (frame : Frame before after)
    (changes : after.topology_changes = before.topology_changes) (listed : Listed before) : Listed after := by
  intro id linked pd found
  rw [frame.topology_table] at linked
  rw [descriptor_of_prefixes frame.prefixes] at found
  rw [changes]
  exact listed id linked pd found

/-- What is served is a matter of the table, the descriptors and the queue. -/
theorem served_of_frame {before after : Instance} {action : Action} (frame : Frame before after)
    (queue : before.packetizer ⊆ after.packetizer) (served : Served action before) : Served action after := by
  refine served_mono served (fun id linked => frame.topology_table ▸ linked) ?_ queue
  intro id pd found
  rwa [descriptor_of_prefixes frame.prefixes] at found

theorem settled_of_frame {before after : Instance} (frame : Frame before after)
    (changes : after.topology_changes = before.topology_changes) (queue : before.packetizer ⊆ after.packetizer)
    (settled : Settled before) : Settled after where
  listed := listed_of_frame frame changes settled.listed
  served := fun action => served_of_frame frame queue (settled.served action)

theorem framed_settled (settled : Settled machine.state) {update : Instance → Instance}
    (frame : Frame machine.state (update machine.state))
    (changes : (update machine.state).topology_changes = machine.state.topology_changes)
    (queue : machine.state.packetizer ⊆ (update machine.state).packetizer) : Settled (machine.other update).state := by
  unfold Machine.other
  split
  · exact settled
  · exact settled_of_frame frame changes queue settled

theorem other_settled (settled : Settled machine.state) {update : Instance → Instance}
    (additive : Additive machine.state (update machine.state)) : Settled (machine.other update).state :=
  framed_settled settled additive.frame additive.topology_changes additive.packetizer

theorem Machine.perform_served {action : Action} {id : Nat} {call : Call} (served : Served action machine.state)
    (posted : machine.state.fault = none → ∀ pd next out, machine.state.descriptor id = some pd →
      exec machine.state.env pd call = some (next, out) → machine.state.queued action ∨ Noted (Effect.posts action) action pd next out) :
    Served action (machine.perform id call).state := by
  unfold Machine.perform Machine.act
  split
  · exact served
  · rename_i sound
    exact Eigrp.perform_served served (posted (by simpa using sound))

theorem Machine.perform_listed {id : Nat} {call : Call} (listed : Listed machine.state) :
    Listed (machine.perform id call).state := by
  unfold Machine.perform Machine.act
  split
  · exact listed
  · exact Eigrp.perform_listed listed id call

/-- A QUERY is queued when a destination on the list needs one. -/
theorem query_send_all_served (listed : Listed machine.state) (sound : machine.state.fault = none) :
    Served .need_query (query_send_all machine).state := by
  unfold query_send_all
  split
  · rw [Machine.other_state sound]
    exact fun _ _ _ _ _ => enqueue_queued rfl
  · rename_i missing
    intro id linked pd found needed
    refine absurd (List.any_eq_true.mpr ⟨id,listed id linked pd found .need_query needed,?_⟩) missing
    have needed : pd.need_query := needed
    simpa [found] using needed

theorem update_send_all_served (exception : Option Nat) (sound : machine.state.fault = none) :
    Served .need_update (update_send_all_enqueue exception machine).state := by
  unfold update_send_all_enqueue
  rw [Machine.other_state sound]
  exact fun _ _ _ _ _ => enqueue_queued rfl

/-- Queuing work takes none away. -/
theorem enqueue_keeps {action : Action} (work : Work) (served : Served action machine.state) :
    Served action (machine.other fun eigrp => eigrp.packetizer_enqueue work).state := by
  unfold Machine.other
  split
  · exact served
  · intro id linked pd found needed
    exact queued_of_subset (List.subset_append_left _ _) (served id linked pd found needed)

/-- Behind work for the whole list every destination on it is served. -/
theorem send_all_settled (exception : Option Nat) (indexed : Indexed machine.state) (listed : Listed machine.state)
    (sound : (send_all exception machine).state.fault = none) : Settled (send_all exception machine).state := by
  have queried : (query_send_all machine).state.fault = none := (update_send_all_responds exception _).continues.sound sound
  have before := (query_send_all_responds machine).continues.sound queried
  refine ⟨(send_all_responds exception machine).listed indexed listed,fun action => ?_⟩
  cases action with
  | need_update => exact update_send_all_served exception queried
  | need_query => exact enqueue_keeps _ (query_send_all_served listed before)

/-- A handler that ends by queuing work for the whole list leaves nothing behind. -/
theorem responds_send_all {exception : Option Nat} (responds : machine.Responds next) (indexed : Indexed machine.state)
    (settled : Settled machine.state) (sound : (send_all exception next).state.fault = none) :
    Settled (send_all exception next).state :=
  send_all_settled exception (responds.continues.indexed indexed) (responds.listed indexed settled.listed) sound

theorem Machine.Concludes.settled (concludes : machine.Concludes next) (indexed : Indexed machine.state)
    (settled : Settled machine.state) (sound : next.state.fault = none) : Settled next.state := by
  cases concludes with
  | same => exact settled
  | other update additive => exact other_settled settled (additive _)
  | send_all exception responds => exact responds_send_all responds indexed settled sound
  | fail responds =>
    have before := (fail_responds _).continues.sound sound
    rw [Machine.other_state before] at sound
    cases sound

theorem lookup_stored_destination {eigrp : Instance} {destination : Prefix} {pd : PrefixDescriptor}
    (found : eigrp.topology_table_lookup destination = some pd) :
    pd.id ∈ eigrp.topology_table ∧ eigrp.descriptor pd.id = some pd ∧ pd.destination = destination := by
  obtain ⟨id,linked,stored⟩ := List.mem_filterMap.mp (List.mem_of_find?_eq_some found)
  obtain rfl := (descriptor_mem stored).2
  exact ⟨linked,stored,by simpa using List.find?_some found⟩

end Handlers

end Eigrp
