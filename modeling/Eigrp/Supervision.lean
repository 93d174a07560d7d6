import Eigrp.Turns

/-!
# Supervision of ACTIVE destinations

As long as neighbors owe a REPLY for a destination its active timer runs, so that each of them is
declared stuck at last. The packetizer starts the timer when the QUERY is on its way, and the expiry
that only asks the neighbors again starts it anew; the expiry that tears down a stuck neighbor does
not, whoever else is outstanding.
-/

namespace Eigrp
open Eigrp.Lib

/-- The neighbors that owe a REPLY are subject to the active timer. -/
def Supervised (pd : PrefixDescriptor) : Prop := pd.state ≠ .passive → pd.rij ≠ [] → pd.t_active

section Calls
variable {env : Env} {msg : Msg} {pd next : PrefixDescriptor} {after : RouteDescriptor} {nbr : Nbr} {packet : Opcode}
  {sender : Option Nbr} {out : List Effect}

theorem SameControl.supervised (same : SameControl pd next) (supervised : Supervised pd) : Supervised next := by
  intro active owed
  rw [same.t_active]
  exact supervised (same.state ▸ active) (same.rij ▸ owed)

theorem Finished.supervised (finished : Finished pd next) : Supervised next :=
  fun active => absurd finished.state active

theorem diffuse_supervised (env : Env) (pd : PrefixDescriptor) : Supervised (diffuse env pd).1 := by
  rcases diffuse_cases env pd with ⟨_,asked⟩ | ⟨_,ended⟩
  · rw [asked]
    exact fun _ owed => absurd rfl owed
  · rw [ended]
    exact (fsm_event_lr_finished env _).supervised

theorem outcome_supervised (supervised : Supervised pd) (outcome : Outcome env msg after pd next out) : Supervised next := by
  cases outcome with
  | commit used passive found => exact (keep_passive_control env pd used).supervised supervised
  | start passive other => exact diffuse_supervised env _
  | start_query passive query => exact diffuse_supervised env _
  | wait active owed other => exact supervised
  | origin active query successor => exact fun _ => supervised active
  | increase state states update =>
    refine fun _ => supervised ?_
    rcases states with ⟨before,_⟩ | ⟨before,_⟩ <;> simp [before]
  | last_reply odd reply owed => exact (fsm_event_lr_finished env pd).supervised
  | last_reply_feasible next out even reply owed done => exact (fsm_event_lr_fcs_finished done).supervised
  | last_reply_infeasible even reply owed => exact diffuse_supervised env _

theorem reaction_supervised (supervised : Supervised pd ∨ (packet = .reply ∧ ∀ status ∈ pd.rij, status.neighbor = nbr))
    (reaction : Reaction env pd packet sender nbr next out) : Supervised next := by
  obtain ⟨current,msg,after,rerouted,_,rfl,_,outcome⟩ := reaction.reacts
  refine outcome_supervised ?_ outcome
  unfold discharge
  split
  · intro active owed
    rcases supervised with supervised | ⟨_,sole⟩
    · refine rerouted.control.supervised supervised active fun none => owed ?_
      simp [reply_status_remove,none]
    · refine absurd ?_ owed
      simp only [reply_status_remove,List.filter_eq_nil_iff]
      intro status member
      simp [sole status (rerouted.control.rij ▸ member)]
  · rename_i idle
    rcases supervised with supervised | ⟨reply,_⟩
    · exact rerouted.control.supervised supervised
    · exact fun active => absurd ⟨active,reply⟩ idle

theorem exec_supervised {call : Call} (unscheduled : ¬ call.scheduled) (supervised : Supervised pd)
    (done : exec env pd call = some (next, out)) : Supervised next := by
  refine exec_kept ?_ ?_ ?_ ?_ unscheduled done supervised
  · exact fun _ _ same supervised => same.supervised supervised
  · exact fun _ _ _ supervised => supervised
  · intro pd nbr active supervised _ owed
    refine supervised active fun none => owed ?_
    simp [sia_reply_received,none]
  · exact fun _ _ _ _ _ _ reaction supervised => reaction_supervised (.inl supervised) reaction

end Calls

section Handlers
variable {machine next : Machine} {P : PrefixDescriptor → Prop}

theorem Machine.Responds.supervised (responds : machine.Responds next) (indexed : Indexed machine.state)
    (supervised : Everywhere Supervised machine.state) : Everywhere Supervised next.state := by
  have kept := @Recorded.Extends.invariant _ _ _ _ _ (fun eigrp => Indexed eigrp ∧ Everywhere Supervised eigrp) responds ?_
    ⟨indexed,supervised⟩
  · exact kept.2
  · rintro step _ handled ⟨indexed,supervised⟩
    refine ⟨handled.allowed.indexed indexed,handled.allowed.everywhere indexed ?_ ?_ supervised⟩
    · intro creation pd out _ built _ owed
      exact absurd (creation_fresh built).rij owed
    · intro id call pd next out performs supervised
      exact exec_supervised (handled.call id call performs.label) supervised performs.done

end Handlers

/-! ## The packetizer -/

section Packetizer
variable {machine next : Machine} {action : Action} {P : PrefixDescriptor → Prop}

/-- Sending changes what neighbors owe at the destinations that are meant. -/
theorem Machine.Addresses.everywhere {meant : Instance → Nat → Prop} (addresses : machine.Addresses meant next)
    (indexed : Indexed machine.state)
    (added : ∀ (eigrp : Instance) id pd (nbrs : List Nbr), meant eigrp id → eigrp.descriptor id = some pd → P pd → P (nbrs.foldl reply_status_add pd))
    (holds : Everywhere P machine.state) : Everywhere P next.state := by
  have kept := @Recorded.Extends.invariant _ _ _ _ _ (fun eigrp => Indexed eigrp ∧ Everywhere P eigrp) addresses ?_ ⟨indexed,holds⟩
  · exact kept.2
  · rintro step _ ⟨allowed,kind⟩ ⟨indexed,holds⟩
    refine ⟨allowed.indexed indexed,allowed.everywhere indexed ?_ ?_ holds⟩
    · intro creation pd out label
      rcases kind with ⟨other,_⟩ | ⟨_,_,performs,_⟩
      · simp [label] at other
      · simp [label] at performs
    · intro id call pd next out performs held
      rcases kind with ⟨other,_⟩ | ⟨target,nbrs,label,hit⟩
      · simp [performs.label] at other
      · have same := performs.label.symm.trans label
        cases same
        obtain ⟨rfl,rfl⟩ := exec_some performs.done
        exact added _ id pd nbrs hit performs.before held

/-- Between sending the QUERYs and draining the list: who is not supervised still needs a QUERY. -/
def Asked (action : Action) (pd : PrefixDescriptor) : Prop := Supervised pd ∨ (action = .need_query ∧ pd.need_query)

end Packetizer

/-! ## Runs -/

/-- The successor's distance rises and both neighbors are asked. -/
def outstanding : List Event :=
  two_neighbors ++
    [.packet_receive (.peer 0 0) (route_packet .update 100), .packetizer {},
      .packet_receive (.peer 0 0) (route_packet .update 90000), .packetizer {}, .packetizer {}]

end Eigrp
