import Eigrp.Calls
import Eigrp.Runs

/-!
# PASSIVE destinations are at rest

Outside a diffusing computation no neighbor owes a REPLY, the active timer is off and nobody waits
for an answer. A single operation breaks this: the packetizer records the neighbors of a QUERY
without looking at the state of the destination, and a QUERY may outlive its computation.
-/

namespace Eigrp

/-! ## The invariant -/

/-- A PASSIVE destination keeps nothing of a computation, and a QUERY origin is kept only in the states that answer it. -/
structure Quiet (pd : PrefixDescriptor) : Prop where
  passive : pd.state = .passive → pd.rij = [] ∧ pd.t_active = false ∧ pd.query_origin = none
  origin : pd.query_origin ≠ none → pd.state = .active_2 ∨ pd.state = .active_3

theorem SameControl.quiet {pd next : PrefixDescriptor} (same : SameControl pd next) (quiet : Quiet pd) : Quiet next where
  passive := by
    rw [same.state,same.rij,same.t_active,same.query_origin]
    exact quiet.passive
  origin := by
    rw [same.state,same.query_origin]
    exact quiet.origin

theorem Finished.quiet {pd next : PrefixDescriptor} (finished : Finished pd next) : Quiet next where
  passive := fun _ => ⟨finished.rij,finished.t_active,finished.query_origin⟩
  origin := fun waiting => absurd finished.query_origin waiting

theorem Quiet.of_active {pd : PrefixDescriptor} (active : pd.state ≠ .passive)
    (origin : pd.query_origin ≠ none → pd.state = .active_2 ∨ pd.state = .active_3) : Quiet pd :=
  ⟨fun passive => absurd passive active,origin⟩

/-! ## Outcomes -/

section Outcomes
variable {env : Env} {msg : Msg} {pd next : PrefixDescriptor} {after : RouteDescriptor} {nbr : Nbr} {packet : Opcode}
  {sender : Option Nbr} {out : List Effect}

theorem diffuse_quiet (active : pd.state ≠ .passive)
    (origin : pd.query_origin ≠ none → pd.state = .active_2 ∨ pd.state = .active_3) : Quiet (diffuse env pd).1 := by
  rcases diffuse_cases env pd with ⟨_,asked⟩ | ⟨_,ended⟩
  · rw [asked]
    exact .of_active active origin
  · rw [ended]
    exact (fsm_event_lr_finished env _).quiet

theorem outcome_quiet (quiet : Quiet pd) (outcome : Outcome env msg after pd next out) : Quiet next := by
  cases outcome with
  | commit used passive found => exact (keep_passive_control env pd used).quiet quiet
  | start passive other =>
    apply diffuse_quiet
    · simp
    · simp [(quiet.passive passive).2.2]
  | start_query passive query =>
    apply diffuse_quiet
    · simp
    · simp
  | wait active owed other => exact quiet
  | origin active query successor =>
    apply Quiet.of_active
    · simp [fsm_event_qact]
    · simp [fsm_event_qact]
  | increase state states update =>
    apply Quiet.of_active
    · rcases states with ⟨_,rfl⟩ | ⟨_,rfl⟩ <;> simp
    · intro waiting
      have kept := quiet.origin waiting
      rcases states with ⟨before,rfl⟩ | ⟨before,rfl⟩
      · simp [before] at kept
      · simp
  | last_reply odd reply owed => exact (fsm_event_lr_finished env pd).quiet
  | last_reply_feasible next out even reply owed done => exact (fsm_event_lr_fcs_finished done).quiet
  | last_reply_infeasible even reply owed =>
    apply diffuse_quiet
    · dsimp only
      split <;> simp
    · intro waiting
      rcases quiet.origin waiting with state | state <;> simp [state]

theorem discharge_quiet (quiet : Quiet pd) (nbr : Option Nbr) : Quiet (discharge pd msg nbr) := by
  unfold discharge
  split
  · rename_i active
    exact .of_active active.1 quiet.origin
  · exact quiet

theorem reaction_quiet (quiet : Quiet pd) (reaction : Reaction env pd packet sender nbr next out) : Quiet next := by
  obtain ⟨current,msg,after,rerouted,_,_,_,outcome⟩ := reaction.reacts
  exact outcome_quiet (discharge_quiet (rerouted.control.quiet quiet) _) outcome

end Outcomes

/-! ## Calls -/

/-- The packetizer addresses a QUERY to neighbors only while its destination is ACTIVE. -/
def queries_active (_ : Instance) : Call → PrefixDescriptor → Bool
  | .query_rij_add _, pd => pd.state != .passive
  | _, _ => true

section Calls
variable {env : Env} {pd next : PrefixDescriptor} {out : List Effect}

theorem Quiet.forget (quiet : Quiet pd) {query_origin : Option Nbr} (kept : query_origin ≠ none → pd.query_origin ≠ none) :
    Quiet { pd with query_origin } where
  passive := by
    intro passive
    obtain ⟨rij,t_active,origin⟩ := quiet.passive passive
    exact ⟨rij,t_active,by_contra fun waiting => kept waiting origin⟩
  origin := fun waiting => quiet.origin (kept waiting)

theorem query_sent_quiet (quiet : Quiet pd) : Quiet (fsm_query_sent env pd).1 := by
  rcases fsm_query_sent_cases env pd with ⟨_,same⟩ | ⟨active,_,_,armed⟩ | ⟨_,_,ended⟩
  · rwa [same]
  · rw [armed]
    exact .of_active active quiet.origin
  · rw [ended]
    exact (fsm_event_lr_finished env pd).quiet

theorem active_timer_expired_quiet (quiet : Quiet pd) : Quiet (fsm_active_timer_expired env pd).1 := by
  obtain ⟨rij,t_active,same,neighbors,stopped⟩ := fsm_active_timer_expired_cases env pd
  rw [same]
  refine ⟨fun passive => ?_,quiet.origin⟩
  obtain ⟨empty,_,origin⟩ := quiet.passive passive
  rw [empty] at neighbors
  exact ⟨by simpa using neighbors,stopped passive,origin⟩

theorem exec_quiet {eigrp : Instance} {call : Call} (calm : queries_active eigrp call pd) (quiet : Quiet pd)
    (done : exec env pd call = some (next, out)) : Quiet next := by
  by_cases scheduled : call.scheduled
  · cases call with
    | query_rij_add nbrs =>
      obtain ⟨rfl,rfl⟩ := exec_some done
      obtain ⟨rij,same,_⟩ := reply_status_add_foldl nbrs pd
      rw [same]
      exact .of_active (by simpa [queries_active] using calm) quiet.origin
    | query_sent =>
      obtain ⟨rfl,rfl⟩ := exec_some done
      exact query_sent_quiet quiet
    | action_clear action =>
      obtain ⟨rfl,rfl⟩ := exec_some done
      exact (action_clear_control pd action).quiet quiet
    | retire =>
      obtain ⟨rfl,rfl⟩ := exec_some done
      exact (retire_rerouted pd).control.quiet quiet
    | active_timer_expired =>
      obtain ⟨rfl,rfl⟩ := exec_some done
      exact active_timer_expired_quiet quiet
    | _ => cases scheduled
  · refine exec_kept ?_ ?_ ?_ ?_ scheduled done quiet
    · exact fun _ _ same quiet => same.quiet quiet
    · intro pd query_origin kept quiet
      refine quiet.forget fun waiting => ?_
      obtain ⟨nbr,known⟩ := Option.ne_none_iff_exists'.mp waiting
      simp [kept nbr known]
    · exact fun pd nbr active quiet => .of_active active quiet.origin
    · exact fun _ _ _ _ _ _ reaction quiet => reaction_quiet quiet reaction

end Calls

/-! ## Runs -/

theorem creation_quiet {env : Env} {id : Nat} {creation : Creation} {pd : PrefixDescriptor} {out : List Effect}
    (built : creation.build env id = some (pd, out)) : Quiet pd := by
  have fresh := creation_fresh built
  exact ⟨fun _ => ⟨fresh.rij,fresh.t_active,fresh.query_origin⟩,fun waiting => absurd fresh.query_origin waiting⟩

/-- In a run that addresses QUERYs only for ACTIVE destinations every destination is at rest while it is PASSIVE. -/
theorem run_quiet (metric : MetricConfig) (events : List Event) (calm : (run metric events).calls_all queries_active)
    (eigrp : Instance) (reached : Reached metric events eigrp) : ∀ pd ∈ eigrp.prefixes, Quiet pd := by
  refine run_descriptors ?_ ?_ reached
  · intro step member creation pd out label built _
    exact creation_quiet built
  · intro step member call pd next out finds done quiet
    exact exec_quiet (Machine.calls_all_finds calm member finds) quiet done

theorem run_quiet_computation : (run {} computation).calls_all queries_active ∧
    ∀ pd ∈ (run {} computation).state.prefixes, Quiet pd :=
  ⟨by decide +kernel,run_quiet {} computation (by decide +kernel) _ (.inl rfl)⟩

theorem interface_loss_not_quiet : ¬ ∀ eigrp, Reached {} interface_loss eigrp → ∀ pd ∈ eigrp.prefixes, Quiet pd := by
  intro quiet
  have owing : ∃ pd ∈ (run {} interface_loss).state.prefixes, pd.state = .passive ∧ pd.rij ≠ [] := by decide +kernel
  obtain ⟨pd,member,passive,owed⟩ := owing
  exact owed ((quiet _ (.inl rfl) pd member).passive passive).1

end Eigrp
