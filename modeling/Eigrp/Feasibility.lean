import Eigrp.Runs

/-!
# The feasible distance

A neighbor's path counts as loop-free while its reported distance is below the feasible distance,
so the feasible distance may grow only when a diffusing computation has ended. The metric refresh
after a change of K-values or metric version is the one other place that lets it grow.
-/

namespace Eigrp
open Eigrp.Lib

/-- The effects show the last-reply transition out of an ACTIVE state. -/
def took_lr (out : List Effect) : Bool :=
  out.any fun effect =>
    match effect with
    | .dual_state_change old .passive .lr => old != .passive
    | _ => false

/-- The feasible distance has not grown, unless a last reply was taken. -/
def Disciplined (pd next : PrefixDescriptor) (out : List Effect) : Prop := took_lr out ∨ next.fdistance ≤ pd.fdistance

theorem took_lr_append_left {out : List Effect} (took : took_lr out) (more : List Effect) : took_lr (more ++ out) := by
  unfold took_lr at took ⊢
  rw [List.any_append,took,Bool.or_true]

theorem took_lr_append_right {out : List Effect} (took : took_lr out) (more : List Effect) : took_lr (out ++ more) := by
  unfold took_lr at took ⊢
  rw [List.any_append,took,Bool.true_or]

/-! ## Outcomes -/

section Outcomes
variable {env : Env} {msg : Msg} {pd next : PrefixDescriptor} {after : RouteDescriptor} {nbr : Nbr} {packet : Opcode}
  {sender : Option Nbr} {out : List Effect}

theorem Rerouted.disciplined (rerouted : Rerouted pd next) : Disciplined pd next out :=
  .inr (rerouted.fdistance ▸ UInt32.le_refl _)

theorem fsm_event_lr_took (env : Env) (active : pd.state ≠ .passive) : took_lr (fsm_event_lr env pd).2 := by
  simp [took_lr,fsm_event_lr,active]

theorem keep_passive_fdistance (env : Env) (pd : PrefixDescriptor) (used : RouteDescriptor) :
    (keep_passive env pd used).1.fdistance ≤ pd.fdistance := by
  simp only [keep_passive]
  split
  · rw [(refreshed_table_rerouted env pd).fdistance]
    exact UInt32.le_refl _
  · rw [(refreshed_table_rerouted env _).fdistance]
    dsimp only
    split
    · rename_i nearer
      exact UInt32.le_of_lt nearer
    · exact UInt32.le_refl _

theorem fsm_event_lr_fcs_fdistance (done : fsm_event_lr_fcs env pd = some (next, out)) : next.fdistance ≤ pd.fdistance := by
  obtain ⟨route,_,finished⟩ := Option.bind_eq_some_iff.mp done
  simp only [passive_refresh_eq] at finished
  cases finished
  rw [(refreshed_table_rerouted env _).fdistance]
  dsimp only
  split
  · rename_i nearer
    exact UInt32.le_of_lt nearer
  · exact UInt32.le_refl _

theorem diffuse_disciplined (active : pd.state ≠ .passive) : Disciplined pd (diffuse env pd).1 (diffuse env pd).2 := by
  rcases diffuse_cases env pd with ⟨_,asked⟩ | ⟨_,ended⟩
  · rw [asked]
    exact .inr (UInt32.le_refl _)
  · rw [ended]
    exact .inl (fsm_event_lr_took env active)

/-- The handlers that begin a computation announce it before anything else. -/
theorem Disciplined.announced {effect : Effect} (disciplined : Disciplined pd next out) : Disciplined pd next (effect :: out) := by
  rcases disciplined with took | kept
  · exact .inl (took_lr_append_left took [effect])
  · exact .inr kept

theorem Disciplined.of_eq {start : PrefixDescriptor} (disciplined : Disciplined start next out)
    (same : start.fdistance = pd.fdistance) : Disciplined pd next out := by
  rcases disciplined with took | kept
  · exact .inl took
  · exact .inr (same ▸ kept)

theorem outcome_disciplined (outcome : Outcome env msg after pd next out) : Disciplined pd next out := by
  cases outcome with
  | commit used passive found => exact .inr (keep_passive_fdistance env pd used)
  | start passive other =>
    have begun : Disciplined pd _ _ := @diffuse_disciplined env { pd with state := .active_1 } (by simp)
    exact begun.announced
  | start_query passive query =>
    have begun : Disciplined pd _ _ :=
      @diffuse_disciplined env { pd with state := .active_3, query_origin := msg.adv_router } (by simp)
    exact begun.announced
  | wait active owed other => exact .inr (UInt32.le_refl _)
  | origin active query successor => exact .inr (UInt32.le_refl _)
  | increase state states update => exact .inr (UInt32.le_refl _)
  | last_reply odd reply owed =>
    exact .inl (fsm_event_lr_took env (by rcases odd with odd | odd <;> simp [odd]))
  | last_reply_feasible next out even reply owed done => exact .inr (fsm_event_lr_fcs_fdistance done)
  | last_reply_infeasible even reply owed =>
    have begun : Disciplined pd _ _ :=
      @diffuse_disciplined env { pd with state := if pd.state = .active_0 then .active_1 else .active_3 }
        (by dsimp only; split <;> simp)
    exact begun.announced

theorem reaction_disciplined (reaction : Reaction env pd packet sender nbr next out) : Disciplined pd next out := by
  obtain ⟨current,msg,after,rerouted,_,_,_,outcome⟩ := reaction.reacts
  refine (outcome_disciplined outcome).of_eq ?_
  rw [← rerouted.fdistance]
  unfold discharge
  split <;> rfl

theorem withdrawals_disciplined (withdrawals : Withdrawals env pd next out) : Disciplined pd next out := by
  induction withdrawals with
  | nil => exact .inr (UInt32.le_refl _)
  | cons reaction _ ih =>
    rcases reaction_disciplined reaction with took | first
    · exact .inl (took_lr_append_right took _)
    · rcases ih with took | rest
      · exact .inl (took_lr_append_left took _)
      · exact .inr (UInt32.le_trans rest first)

end Outcomes

/-! ## Calls -/

section Calls
variable {env : Env} {pd next : PrefixDescriptor} {out : List Effect}

theorem query_sent_disciplined : Disciplined pd (fsm_query_sent env pd).1 (fsm_query_sent env pd).2 := by
  rcases fsm_query_sent_cases env pd with ⟨_,same⟩ | ⟨_,_,_,armed⟩ | ⟨active,_,ended⟩
  · rw [same]
    exact .inr (UInt32.le_refl _)
  · rw [armed]
    exact .inr (UInt32.le_refl _)
  · rw [ended]
    exact .inl (fsm_event_lr_took env active)

theorem exec_disciplined {call : Call} (done : exec env pd call = some (next, out)) :
    Disciplined pd next out ∨ call = .metric_update ∧ pd.state = .passive := by
  cases call with
  | update_receive nbr received =>
    rcases update_receive_cases done with ⟨rfl,_⟩ | reaction
    · exact .inl (Rerouted.refl _).disciplined
    · exact .inl (reaction_disciplined reaction)
  | query_receive nbr received =>
    rcases query_receive_cases done with ⟨_,rfl,_⟩ | ⟨_,rerouted,_⟩ | reaction
    · exact .inl (Rerouted.refl _).disciplined
    · exact .inl rerouted.disciplined
    · exact .inl (reaction_disciplined reaction)
  | reply_receive nbr received =>
    rcases reply_receive_cases done with ⟨_,rfl,_⟩ | ⟨_,reaction⟩
    · exact .inl (Rerouted.refl _).disciplined
    · exact .inl (reaction_disciplined reaction)
  | siaquery_receive nbr received =>
    obtain ⟨_,reaction,rfl⟩ := siaquery_receive_cases done
    rcases reaction_disciplined reaction with took | kept
    · exact .inl (.inl (took_lr_append_right took _))
    · exact .inl (.inr kept)
  | siareply_receive nbr received =>
    rcases siareply_receive_cases done with ⟨rfl,_⟩ | ⟨_,_,rfl,_⟩ | ⟨_,_,_,reaction⟩
    · exact .inl (Rerouted.refl _).disciplined
    · exact .inl (.inr (UInt32.le_refl _))
    · exact .inl (reaction_disciplined reaction)
  | gr_ask nbr => exact .inl (reaction_disciplined (gr_ask_reaction done))
  | neighbor_down nbr =>
    rcases neighbor_lost_cases done with ⟨rfl,_⟩ | ⟨_,reaction⟩ | ⟨_,reaction⟩
    · exact .inl (.inr (UInt32.le_refl _))
    · exact .inl ((reaction_disciplined reaction).of_eq rfl)
    · exact .inl ((reaction_disciplined reaction).of_eq rfl)
  | suspended_origin_clear nbrs =>
    obtain ⟨rfl,rfl⟩ := exec_some done
    exact .inl (.inr (UInt32.le_refl _))
  | connected_interface_down ei => exact .inl (withdrawals_disciplined (connected_routes_down_withdrawals done))
  | intf_up ei =>
    obtain ⟨_,reaction,rfl⟩ := intf_up_cases done
    rcases (reaction_disciplined reaction).of_eq (intf_up_added_rerouted ei).fdistance with took | kept
    · exact .inl (.inl (took_lr_append_left took _))
    · exact .inl (.inr kept)
  | redistributed_update source metric =>
    obtain ⟨middle,_,reaction,fate⟩ := redistributed_update_cases done
    rcases fate with ⟨rfl,rfl⟩ | ⟨rfl,rfl⟩
    · exact .inl (reaction_disciplined reaction)
    · have same : (redistributed_update_mark middle).1.fdistance = middle.fdistance := by
        unfold redistributed_update_mark
        split <;> rfl
      rcases reaction_disciplined reaction with took | kept
      · exact .inl (.inl (took_lr_append_right took _))
      · exact .inl (.inr (same ▸ kept))
  | redistributed_remove source =>
    rcases redistributed_remove_cases done with ⟨rfl,_⟩ | reaction
    · exact .inl (Rerouted.refl _).disciplined
    · exact .inl (reaction_disciplined reaction)
  | metric_update =>
    obtain ⟨rfl,rfl⟩ := exec_some done
    by_cases passive : pd.state = .passive
    · exact .inr ⟨rfl,passive⟩
    · simp only [metric_update_pd,passive,ne_eq,not_false_eq_true,if_true]
      exact .inl (Rerouted.refl _).disciplined
  | multipath_update =>
    obtain ⟨rfl,rfl⟩ := exec_some done
    exact .inl multipath_update_rerouted.disciplined
  | traffic_share_update =>
    obtain ⟨rfl,rfl⟩ := exec_some done
    exact .inl traffic_share_update_rerouted.disciplined
  | routes_replay =>
    obtain ⟨rfl,rfl⟩ := exec_some done
    exact .inl routes_replay_rerouted.disciplined
  | query_rij_add nbrs =>
    obtain ⟨rfl,rfl⟩ := exec_some done
    obtain ⟨_,same,_⟩ := reply_status_add_foldl nbrs pd
    rw [same]
    exact .inl (.inr (UInt32.le_refl _))
  | query_sent =>
    obtain ⟨rfl,rfl⟩ := exec_some done
    exact .inl query_sent_disciplined
  | action_clear action =>
    obtain ⟨rfl,rfl⟩ := exec_some done
    cases action <;> exact .inl (.inr (UInt32.le_refl _))
  | retire =>
    obtain ⟨rfl,rfl⟩ := exec_some done
    exact .inl (retire_rerouted pd).disciplined
  | active_timer_expired =>
    obtain ⟨rfl,rfl⟩ := exec_some done
    obtain ⟨_,_,same,_⟩ := fsm_active_timer_expired_cases env pd
    rw [same]
    exact .inl (.inr (UInt32.le_refl _))

end Calls

/-! ## Runs -/

/-- In every run the feasible distance of a destination grows only by a last reply, or by the metric refresh of a
    PASSIVE destination. -/
theorem run_disciplined (metric : MetricConfig) (events : List Event) (step : Step Instance Label)
    (member : step ∈ (run metric events).trace) (id : Nat) (pd next : PrefixDescriptor)
    (before : step.before.descriptor id = some pd) (after : step.after.descriptor id = some next)
    (grows : pd.fdistance < next.fdistance) :
    ∃ call out, Performs step id call pd next out ∧ (took_lr out ∨ call = .metric_update ∧ pd.state = .passive) := by
  have changed : next ≠ pd := by
    rintro rfl
    exact absurd grows (UInt32.lt_irrefl _)
  obtain ⟨_,call,out,performs⟩ := ((run_linked metric events).2 step member).performs before after changed
  refine ⟨call,out,performs,?_⟩
  rcases exec_disciplined performs.done with (took | kept) | refresh
  · exact .inl took
  · exact absurd grows (UInt32.not_lt.mpr kept)
  · exact .inr refresh

theorem computation_long : 40 < (run {} computation).trace.length := by decide +kernel

theorem run_disciplined_computation : ∃ pd next call out,
    Performs ((run {} computation).trace.get ⟨40,computation_long⟩) 0 call pd next out ∧
      (took_lr out ∨ call = .metric_update ∧ pd.state = .passive) :=
  ⟨_,_,run_disciplined {} computation _ (List.get_mem _ _) 0 _ _ (Option.some_get (by decide +kernel)).symm
    (Option.some_get (by decide +kernel)).symm (by decide +kernel)⟩

/-- An operator raises the weight of the delay. -/
def weight_change : List Event :=
  two_neighbors ++ [.packet_receive (.peer 0 0) (route_packet .update 100), .packetizer {}, .metric_weights { k3 := 2 }]

theorem weight_change_not_last_reply : ¬ ∀ step ∈ (run {} weight_change).trace, ∀ id pd next,
    step.before.descriptor id = some pd → step.after.descriptor id = some next → pd.fdistance < next.fdistance →
      ∃ call out, Performs step id call pd next out ∧ took_lr out := by
  intro holds
  obtain ⟨call,out,performs,took⟩ := holds ((run {} weight_change).trace.get ⟨20,by decide +kernel⟩) (List.get_mem _ _) 0 _ _
    (Option.some_get (by decide +kernel)).symm (Option.some_get (by decide +kernel)).symm (by decide +kernel)
  have plain : (step_effects ((run {} weight_change).trace.get ⟨20,by decide +kernel⟩)).map took_lr = some false := by
    decide +kernel
  rw [performs.effects,Option.map_some,took] at plain
  cases plain

end Eigrp
