import Eigrp.Settled

/-!
# Turns of the packetizer

A turn takes the oldest item off the queue. An item for the whole list of changes first addresses
every destination that needs its action, and then clears the action from all of them; what DUAL
flags on the way is queued by DUAL itself.
-/

namespace Eigrp
open Eigrp.Lib

section Turns
variable {machine next : Machine} {action : Action} {held : List Nat}

/-! ## Sending -/

theorem Machine.perform_accounted {id : Nat} {call : Call} (accounted : Accounted held machine.state) :
    Accounted held (machine.perform id call).state := by
  unfold Machine.perform Machine.act
  split
  · exact accounted
  · exact Eigrp.perform_accounted accounted id call

/-- The calls that drain one entry. -/
def entry_drained (action : Action) (id : Nat) (machine : Machine) : Machine :=
  (if action = .need_query then machine.perform id .query_sent else machine).perform id (.action_clear action)

/-- An entry that needs the action is drained, and then stays on the list, is retired or is dropped. -/
theorem change_drain_needs {drain : Drain} {id : Nat} {pd : PrefixDescriptor} (found : drain.machine.state.descriptor id = some pd)
    (needed : pd.needs action) : change_drain action drain id =
      match (entry_drained action id drain.machine).state.descriptor id with
      | none => { drain with machine := entry_drained action id drain.machine }
      | some pd =>
        if pd.need_update ∨ pd.need_query then
          { drain with machine := entry_drained action id drain.machine, kept := drain.kept ++ [id] }
        else if action = .need_update ∧ pd.state = .passive ∧ id ∉ drain.retire then
          { drain with machine := entry_drained action id drain.machine, retire := drain.retire ++ [id] }
        else { drain with machine := entry_drained action id drain.machine } := by
  simp only [change_drain,found,needed,not_true_eq_false,if_false]
  rfl

/-- What a turn of the loop does to the instance. -/
theorem change_drain_machine (action : Action) (drain : Drain) (id : Nat) :
    (drain.machine.state.descriptor id = none ∧
      (change_drain action drain id).machine = drain.machine.other fun eigrp => eigrp.fail .dangling) ∨
    ∃ pd, drain.machine.state.descriptor id = some pd ∧ (change_drain action drain id).machine =
      if pd.needs action then entry_drained action id drain.machine else drain.machine := by
  cases found : drain.machine.state.descriptor id with
  | none => exact .inl ⟨rfl,by simp only [change_drain,found]⟩
  | some pd =>
    refine .inr ⟨pd,rfl,?_⟩
    by_cases needed : pd.needs action
    · rw [change_drain_needs found needed,if_pos needed]
      split
      · rfl
      · split
        · rfl
        · split <;> rfl
    · simp only [change_drain,found,needed,Bool.false_eq_true,not_false_eq_true,if_true,if_false]
      split <;> rfl

theorem Addressed.settled {meant : Instance → Nat → Prop} {step : Step Instance Label} (addressed : Addressed meant step) :
    (Listed step.before → Listed step.after) ∧ ∀ action, Served action step.before → Served action step.after := by
  obtain ⟨allowed,⟨label,additive⟩ | ⟨id,nbrs,label,_⟩⟩ := addressed
  · exact ⟨listed_of_frame additive.frame additive.topology_changes,
      fun action => served_of_frame additive.frame additive.packetizer⟩
  · cases allowed with
    | other frame => cases label
    | @act named before permitted sound =>
      cases label
      refine ⟨fun listed => perform_listed listed id _,fun action served => perform_served served ?_⟩
      intro pd next out _ done
      obtain ⟨rfl,rfl⟩ := exec_some done
      exact .inr (.of_needs (query_rij_add_needs nbrs pd action))

theorem Machine.Addresses.settled {meant : Instance → Nat → Prop} (addresses : machine.Addresses meant next) :
    (Listed machine.state → Listed next.state) ∧ ∀ action, Served action machine.state → Served action next.state :=
  ⟨addresses.invariant fun _ _ addressed => addressed.settled.1,
    fun action => addresses.invariant fun _ _ addressed => addressed.settled.2 action⟩

end Turns

end Eigrp
