import Eigrp.Table

/-!
# Pending work of the destinations

DUAL flags a destination that has to be announced or asked about, and puts it on the list of
changes; that a work item for the packetizer follows is left to the function that handed the event
to DUAL. Every handler but three remembers it: the receivers of SIA packets queue nothing, and an
interface that comes up never queues a QUERY.
-/

namespace Eigrp
open Eigrp.Lib

/-! ## What a call flags -/

/-- The item stands for all destinations on the list of changes that need the action. -/
def Work.carries (work : Work) (action : Action) : Bool :=
  work.opcode = action.opcode ∧ work.pd = none ∧ work.nbr = none ∧ ¬ work.defer_free

/-- The effect puts the destination on the list of changes. -/
def Effect.lists : Effect → Bool
  | .topology_change | .topology_change_once => true
  | _ => false

/-- The effect queues work for the action. -/
def Effect.posts (action : Action) : Effect → Bool
  | .enqueue work => work.carries action
  | _ => false

/-- Where the action is newly flagged, one of the effects says so. -/
def Noted (note : Effect → Bool) (action : Action) (pd next : PrefixDescriptor) (out : List Effect) : Prop :=
  next.needs action → pd.needs action ∨ out.any note

section Noted
variable {note : Effect → Bool} {action : Action} {pd middle next : PrefixDescriptor} {out more : List Effect}

theorem Noted.of_needs (same : next.needs action = pd.needs action) : Noted note action pd next out := by
  intro needed
  exact .inl (same ▸ needed)

theorem Noted.trans (first : Noted note action pd middle out) (second : Noted note action middle next more) :
    Noted note action pd next (out ++ more) := by
  intro needed
  rw [List.any_append,Bool.or_eq_true]
  rcases second needed with earlier | noted
  · exact (first earlier).imp_right .inl
  · exact .inr (.inr noted)

theorem Noted.right (noted : Noted note action pd next out) (more : List Effect) : Noted note action pd next (out ++ more) :=
  noted.trans (.of_needs rfl)

theorem Noted.left (noted : Noted note action pd next out) (more : List Effect) : Noted note action pd next (more ++ out) :=
  Noted.trans (.of_needs rfl) noted

theorem Noted.cons (noted : Noted note action pd next out) (effect : Effect) : Noted note action pd next (effect :: out) :=
  noted.left [effect]

theorem Noted.of_eq {start : PrefixDescriptor} (noted : Noted note action start next out)
    (same : start.needs action = pd.needs action) : Noted note action pd next out := by
  intro needed
  rw [← same]
  exact noted needed

theorem Rerouted.needs (rerouted : Rerouted pd next) (action : Action) : next.needs action = pd.needs action := by
  cases action with
  | need_update => exact rerouted.need_update
  | need_query => exact rerouted.need_query

theorem Rerouted.noted (rerouted : Rerouted pd next) : Noted note action pd next out := .of_needs (rerouted.needs action)

end Noted

section Outcomes
variable {env : Env} {msg : Msg} {pd next : PrefixDescriptor} {after : RouteDescriptor} {nbr : Nbr} {packet : Opcode}
  {sender : Option Nbr} {out : List Effect} {action : Action}

theorem passive_refresh_noted (env : Env) (pd : PrefixDescriptor) (note : Effect → Bool)
    (listed : action = .need_update → note .topology_change ∨ note (update_send_all none)) :
    Noted note action pd (passive_refresh env pd).1 (passive_refresh env pd).2 := by
  rw [passive_refresh_eq]
  cases action with
  | need_update =>
    intro _
    right
    rcases listed rfl with listed | listed <;> simp [listed]
  | need_query =>
    apply Noted.of_needs
    exact (refreshed_table_rerouted env _).need_query

theorem fsm_event_lr_noted (env : Env) (pd : PrefixDescriptor) {note : Effect → Bool}
    (listed : action = .need_update → note .topology_change ∨ note (update_send_all none)) :
    Noted note action pd (fsm_event_lr env pd).1 (fsm_event_lr env pd).2 := by
  simp only [fsm_event_lr]
  apply Noted.left
  apply Noted.cons
  refine (passive_refresh_noted env _ note listed).of_eq ?_
  cases action <;> (dsimp only [PrefixDescriptor.needs]; split <;> rfl)

theorem fsm_event_lr_fcs_noted {note : Effect → Bool}
    (listed : action = .need_update → note .topology_change ∨ note (update_send_all none))
    (done : fsm_event_lr_fcs env pd = some (next, out)) : Noted note action pd next out := by
  obtain ⟨route,_,finished⟩ := Option.bind_eq_some_iff.mp done
  obtain ⟨rfl,rfl⟩ := exec_some finished
  apply Noted.left
  refine (passive_refresh_noted env _ note listed).of_eq ?_
  cases action <;> rfl

theorem diffuse_listed (env : Env) (pd : PrefixDescriptor) :
    Noted Effect.lists action pd (diffuse env pd).1 (diffuse env pd).2 := by
  rcases diffuse_cases env pd with ⟨_,asked⟩ | ⟨_,ended⟩
  · rw [asked]
    exact fun _ => .inr rfl
  · rw [ended]
    refine (fsm_event_lr_noted env _ fun _ => .inl rfl).of_eq ?_
    cases action <;> rfl

theorem keep_passive_listed (env : Env) (pd : PrefixDescriptor) (used : RouteDescriptor) :
    Noted Effect.lists action pd (keep_passive env pd used).1 (keep_passive env pd used).2 := by
  simp only [keep_passive]
  split
  · exact (refreshed_table_rerouted env pd).noted
  · exact fun _ => .inr rfl

theorem outcome_listed (outcome : Outcome env msg after pd next out) : Noted Effect.lists action pd next out := by
  cases outcome with
  | commit used passive found => exact (keep_passive_listed env pd used).right _
  | start passive other =>
    refine Noted.cons ((diffuse_listed env _).of_eq ?_) _
    cases action <;> rfl
  | start_query passive query =>
    refine Noted.cons ((diffuse_listed env _).of_eq ?_) _
    cases action <;> rfl
  | wait active owed other => exact .of_needs rfl
  | origin active query successor =>
    apply Noted.of_needs
    cases action <;> rfl
  | increase state states update =>
    apply Noted.of_needs
    cases action <;> rfl
  | last_reply odd reply owed => exact fsm_event_lr_noted env pd fun _ => .inl rfl
  | last_reply_feasible next out even reply owed done => exact fsm_event_lr_fcs_noted (fun _ => .inl rfl) done
  | last_reply_infeasible even reply owed =>
    refine Noted.cons ((diffuse_listed env _).of_eq ?_) _
    cases action <;> rfl

theorem discharge_needs (pd : PrefixDescriptor) (msg : Msg) (nbr : Option Nbr) (action : Action) :
    (discharge pd msg nbr).needs action = pd.needs action := by
  unfold discharge
  split <;> cases action <;> rfl

theorem reaction_listed (reaction : Reaction env pd packet sender nbr next out) : Noted Effect.lists action pd next out := by
  obtain ⟨current,msg,after,rerouted,_,_,_,outcome⟩ := reaction.reacts
  refine (outcome_listed outcome).of_eq ?_
  rw [discharge_needs,rerouted.needs]

theorem withdrawals_listed (withdrawals : Withdrawals env pd next out) : Noted Effect.lists action pd next out := by
  induction withdrawals with
  | nil => exact .of_needs rfl
  | cons reaction _ ih => exact (reaction_listed reaction).trans ih

theorem redistributed_update_mark_listed (pd : PrefixDescriptor) :
    Noted Effect.lists action pd (redistributed_update_mark pd).1 (redistributed_update_mark pd).2 := by
  unfold redistributed_update_mark
  split
  · exact fun _ => .inr rfl
  · exact .of_needs rfl

theorem metric_update_listed (env : Env) (pd : PrefixDescriptor) :
    Noted Effect.lists action pd (metric_update_pd env pd).1 (metric_update_pd env pd).2 := by
  rcases metric_update_cases env pd with ⟨_,same⟩ | ⟨_,refreshed⟩ | ⟨_,committed⟩
  · rw [same]
    exact .of_needs rfl
  · rw [refreshed]
    apply Noted.of_needs
    cases action <;> rfl
  · rw [committed]
    exact fun _ => .inr (by simp [Effect.lists])

theorem query_sent_noted (env : Env) (pd : PrefixDescriptor) {note : Effect → Bool}
    (listed : action = .need_update → note .topology_change ∨ note (update_send_all none)) :
    Noted note action pd (fsm_query_sent env pd).1 (fsm_query_sent env pd).2 := by
  rcases fsm_query_sent_cases env pd with ⟨_,same⟩ | ⟨_,_,t_active,armed⟩ | ⟨_,_,ended⟩
  · rw [same]
    exact .of_needs rfl
  · rw [armed]
    apply Noted.of_needs
    cases action <;> rfl
  · rw [ended]
    exact fsm_event_lr_noted env pd listed

theorem action_clear_needs (pd : PrefixDescriptor) (cleared : Action) (needed : (action_clear pd cleared).needs action) :
    pd.needs action := by
  cases action <;> cases cleared <;> simp_all [action_clear,PrefixDescriptor.needs]

theorem active_timer_expired_needs (env : Env) (pd : PrefixDescriptor) (action : Action) :
    (fsm_active_timer_expired env pd).1.needs action = pd.needs action := by
  obtain ⟨rij,t_active,same,_⟩ := fsm_active_timer_expired_cases env pd
  rw [same]
  cases action <;> rfl

theorem query_rij_add_needs (nbrs : List Nbr) (pd : PrefixDescriptor) (action : Action) :
    (nbrs.foldl reply_status_add pd).needs action = pd.needs action := by
  obtain ⟨rij,same,_⟩ := reply_status_add_foldl nbrs pd
  rw [same]
  cases action <;> rfl

/-- Whatever flags a destination puts it on the list of changes. -/
theorem exec_listed {call : Call} (done : exec env pd call = some (next, out)) : Noted Effect.lists action pd next out := by
  cases call with
  | update_receive nbr received =>
    rcases update_receive_cases done with ⟨rfl,_⟩ | reaction
    · exact .of_needs rfl
    · exact reaction_listed reaction
  | query_receive nbr received =>
    rcases query_receive_cases done with ⟨_,rfl,_⟩ | ⟨_,rerouted,_⟩ | reaction
    · exact .of_needs rfl
    · exact rerouted.noted
    · exact reaction_listed reaction
  | reply_receive nbr received =>
    rcases reply_receive_cases done with ⟨_,rfl,_⟩ | ⟨_,reaction⟩
    · exact .of_needs rfl
    · exact reaction_listed reaction
  | siaquery_receive nbr received =>
    obtain ⟨more,reaction,rfl⟩ := siaquery_receive_cases done
    exact (reaction_listed reaction).right _
  | siareply_receive nbr received =>
    rcases siareply_receive_cases done with ⟨rfl,_⟩ | ⟨_,_,rfl,_⟩ | ⟨_,_,_,reaction⟩
    · exact .of_needs rfl
    · apply Noted.of_needs
      cases action <;> rfl
    · exact reaction_listed reaction
  | gr_ask nbr => exact reaction_listed (gr_ask_reaction done)
  | neighbor_down nbr =>
    have start : ({ pd with query_origin := if pd.query_origin = some nbr then none else pd.query_origin } :
        PrefixDescriptor).needs action = pd.needs action := by
      cases action <;> rfl
    rcases neighbor_lost_cases done with ⟨rfl,_⟩ | ⟨_,reaction⟩ | ⟨_,reaction⟩
    · exact .of_needs start
    · exact (reaction_listed reaction).of_eq start
    · exact (reaction_listed reaction).of_eq start
  | suspended_origin_clear nbrs =>
    cases done
    apply Noted.of_needs
    cases action <;> rfl
  | connected_interface_down ei => exact withdrawals_listed (connected_routes_down_withdrawals done)
  | intf_up ei =>
    obtain ⟨more,reaction,rfl⟩ := intf_up_cases done
    exact Noted.left ((reaction_listed reaction).of_eq ((intf_up_added_rerouted ei).needs action)) _
  | redistributed_update source metric =>
    obtain ⟨middle,more,reaction,fate⟩ := redistributed_update_cases done
    rcases fate with ⟨rfl,rfl⟩ | ⟨rfl,rfl⟩
    · exact reaction_listed reaction
    · exact (reaction_listed reaction).trans (redistributed_update_mark_listed middle)
  | redistributed_remove source =>
    rcases redistributed_remove_cases done with ⟨rfl,_⟩ | reaction
    · exact .of_needs rfl
    · exact reaction_listed reaction
  | metric_update =>
    obtain ⟨rfl,rfl⟩ := exec_some done
    exact metric_update_listed env pd
  | multipath_update =>
    obtain ⟨rfl,rfl⟩ := exec_some done
    exact multipath_update_rerouted.noted
  | traffic_share_update =>
    obtain ⟨rfl,rfl⟩ := exec_some done
    exact traffic_share_update_rerouted.noted
  | routes_replay =>
    obtain ⟨rfl,rfl⟩ := exec_some done
    exact routes_replay_rerouted.noted
  | query_rij_add nbrs =>
    obtain ⟨rfl,rfl⟩ := exec_some done
    exact .of_needs (query_rij_add_needs nbrs pd action)
  | query_sent =>
    obtain ⟨rfl,rfl⟩ := exec_some done
    exact query_sent_noted env pd fun _ => .inl rfl
  | action_clear cleared =>
    obtain ⟨rfl,rfl⟩ := exec_some done
    exact fun needed => .inl (action_clear_needs pd cleared needed)
  | retire =>
    obtain ⟨rfl,rfl⟩ := exec_some done
    exact (retire_rerouted pd).noted
  | active_timer_expired =>
    obtain ⟨rfl,rfl⟩ := exec_some done
    exact .of_needs (active_timer_expired_needs env pd action)

end Outcomes

/-- A new destination is flagged only when it is put on the list. -/
theorem creation_listed {env : Env} {id : Nat} {creation : Creation} {pd : PrefixDescriptor} {out : List Effect}
    (built : creation.build env id = some (pd, out)) {action : Action} (needed : pd.needs action) : out.any Effect.lists := by
  cases creation with
  | update nbr received =>
    obtain ⟨learned,_,finished⟩ := Option.bind_eq_some_iff.mp built
    obtain ⟨rfl,rfl⟩ := exec_some finished
    simp [Effect.lists]
  | query nbr received =>
    obtain ⟨route,_,finished⟩ := Option.bind_eq_some_iff.mp built
    obtain ⟨rfl,rfl⟩ := exec_some finished
    rw [(route_insert_rerouted _ route).needs action] at needed
    cases action <;> cases needed
  | connected destination ei =>
    obtain ⟨rfl,rfl⟩ := exec_some built
    simp [connected_prefix_create,Effect.lists]
  | redistributed destination source metric =>
    obtain ⟨rfl,rfl⟩ := exec_some built
    simp only [redistributed_prefix_create,List.any_append,Bool.or_eq_true]
    right
    simp only [redistributed_update_mark,(route_descriptor_add_rerouted env _ _).state,if_true]
    rfl
  | connected_recreate old =>
    obtain ⟨rfl,rfl⟩ := exec_some built
    rw [connected_recreate,(routes_add_rerouted env _ _).needs action] at needed
    cases action <;> cases needed
  | remote_requery old =>
    obtain ⟨rfl,rfl⟩ := exec_some built
    cases action <;> cases needed

/-! ## The list of changes -/

/-- Every destination of the table that is flagged is on the list of changes. -/
def Listed (eigrp : Instance) : Prop :=
  ∀ id ∈ eigrp.topology_table, ∀ pd, eigrp.descriptor id = some pd → ∀ action, pd.needs action → id ∈ eigrp.topology_changes

/-- The same while some of the entries are held elsewhere. -/
def Accounted (held : List Nat) (eigrp : Instance) : Prop :=
  ∀ id ∈ eigrp.topology_table, ∀ pd, eigrp.descriptor id = some pd → ∀ action, pd.needs action →
    id ∈ held ∨ id ∈ eigrp.topology_changes

theorem accounted_nil {eigrp : Instance} : Accounted [] eigrp ↔ Listed eigrp := by simp [Accounted,Listed]

section Effects
variable {pd : PrefixDescriptor} {eigrp : Instance}

theorem table_without_self (stored : eigrp.descriptor pd.id = some pd) : pd.id ∉ eigrp.table_without pd.destination := by
  intro linked
  simpa [stored] using (List.mem_filter.mp linked).2

/-- A destination leaves the list only together with the table. -/
theorem effect_changes (stored : eigrp.descriptor pd.id = some pd) (effect : Effect) {id : Nat}
    (listed : id ∈ eigrp.topology_changes ∨ id ∉ eigrp.topology_table) :
    id ∈ (eigrp.effect pd effect).topology_changes ∨ id ∉ (eigrp.effect pd effect).topology_table := by
  cases effect with
  | topology_change => exact listed.imp_left (List.mem_append_left _)
  | topology_change_once =>
    simp only [Instance.effect]
    split
    · exact listed
    · exact listed.imp_left (List.mem_append_left _)
  | rib_route_add route =>
    simp only [Instance.effect]
    split <;> exact listed
  | detach =>
    simp only [Instance.effect,Instance.prefix_detach]
    split
    · by_cases here : id = pd.id
      · subst here
        exact .inr (table_without_self stored)
      · refine listed.imp (fun member => List.mem_filter.mpr ⟨member,by simpa using here⟩) fun missing => ?_
        exact fun linked => missing (mem_table_without linked)
    · exact listed
  | _ => exact listed

theorem effect_lists {effect : Effect} (lists : effect.lists) : pd.id ∈ (eigrp.effect pd effect).topology_changes := by
  cases effect with
  | topology_change => exact List.mem_append_right _ (List.mem_singleton.mpr rfl)
  | topology_change_once =>
    simp only [Instance.effect]
    split
    · assumption
    · exact List.mem_append_right _ (List.mem_singleton.mpr rfl)
  | _ => cases lists

theorem effect_descriptor (pd : PrefixDescriptor) (eigrp : Instance) (effect : Effect) (id : Nat) :
    (eigrp.effect pd effect).descriptor id = eigrp.descriptor id := descriptor_of_prefixes (effect_prefixes pd eigrp effect) id

theorem effects_changes (stored : eigrp.descriptor pd.id = some pd) (out : List Effect) {id : Nat}
    (listed : id ∈ eigrp.topology_changes ∨ id ∉ eigrp.topology_table) :
    id ∈ (eigrp.effects pd out).topology_changes ∨ id ∉ (eigrp.effects pd out).topology_table := by
  unfold Instance.effects
  induction out generalizing eigrp with
  | nil => exact listed
  | cons effect out ih => exact ih ((effect_descriptor pd eigrp effect pd.id).trans stored) (effect_changes stored effect listed)

theorem effects_lists (stored : eigrp.descriptor pd.id = some pd) {out : List Effect} (lists : out.any Effect.lists) :
    pd.id ∈ (eigrp.effects pd out).topology_changes ∨ pd.id ∉ (eigrp.effects pd out).topology_table := by
  unfold Instance.effects
  induction out generalizing eigrp with
  | nil => cases lists
  | cons effect out ih =>
    have kept := (effect_descriptor pd eigrp effect pd.id).trans stored
    rw [List.any_cons,Bool.or_eq_true] at lists
    rcases lists with here | later
    · exact effects_changes kept out (.inl (effect_lists here))
    · exact ih kept later

end Effects

section Steps
variable {eigrp : Instance} {step : Step Instance Label}

theorem perform_accounted {held : List Nat} (accounted : Accounted held eigrp) (id : Nat) (call : Call) :
    Accounted held (eigrp.perform id call) := by
  unfold Instance.perform
  split
  · exact accounted
  · rename_i pd found
    split
    · exact accounted
    · rename_i next out done
      have same := exec_identity done
      have number : next.id = id := same.id.trans (descriptor_mem found).2
      let written : Instance :=
        { eigrp with prefixes := eigrp.prefixes.map fun pd : PrefixDescriptor => if pd.id = id then next else pd }
      have stored (other : Nat) : written.descriptor other = if other = id then some next else eigrp.descriptor other :=
        descriptor_write found same.id other
      have kept : written.descriptor next.id = some next := (stored next.id).trans (if_pos number)
      intro other linked result present action needed
      have before : other ∈ eigrp.topology_table := effects_table next out written linked
      rw [descriptor_of_prefixes (effects_prefixes next out _)] at present
      have present := (stored other).symm.trans present
      have stays (entry : other ∈ held ∨ other ∈ eigrp.topology_changes) :
          other ∈ held ∨ other ∈ (written.effects next out).topology_changes :=
        entry.imp_right fun entry => (effects_changes kept out (.inl entry)).resolve_right (not_not_intro linked)
      by_cases here : other = id
      · subst here
        rw [if_pos rfl] at present
        obtain rfl := Option.some.inj present
        rcases exec_listed done needed with earlier | lists
        · exact stays (accounted other before pd found action earlier)
        · have entered := effects_lists kept lists
          rw [number] at entered
          exact .inr (entered.resolve_right (not_not_intro linked))
      · rw [if_neg here] at present
        exact stays (accounted other before result present action needed)

theorem perform_listed (listed : Listed eigrp) (id : Nat) (call : Call) : Listed (eigrp.perform id call) :=
  accounted_nil.mp (perform_accounted (accounted_nil.mpr listed) id call)

theorem create_listed (indexed : Indexed eigrp) (listed : Listed eigrp) (creation : Creation) :
    Listed (eigrp.create creation) := by
  unfold Instance.create
  dsimp only
  split
  · exact listed
  · rename_i pd out built
    have number : pd.id = eigrp.next_id := (creation_fresh built).id
    let added : Instance :=
      { eigrp with prefixes := eigrp.prefixes ++ [pd], topology_table := eigrp.topology_table ++ [eigrp.next_id]
                   next_id := eigrp.next_id + 1 }
    have stored (other : Nat) : added.descriptor other = (eigrp.descriptor other).or (if pd.id = other then some pd else none) := by
      unfold Instance.descriptor
      rw [List.find?_append]
      by_cases here : pd.id = other <;> simp [here]
    have kept : added.descriptor pd.id = some pd := by
      rw [stored,number,indexed.fresh _ le_rfl]
      simp
    intro other linked result present action needed
    have before : other ∈ eigrp.topology_table ++ [eigrp.next_id] := effects_table pd out added linked
    rw [descriptor_of_prefixes (effects_prefixes pd out _)] at present
    have present := (stored other).symm.trans present
    cases earlier : eigrp.descriptor other with
    | some old =>
      rw [earlier] at present
      obtain rfl := Option.some.inj present
      rcases List.mem_append.mp before with before | new
      · exact (effects_changes kept out (.inl (listed other before old earlier action needed))).resolve_right
          (not_not_intro linked)
      · rw [List.mem_singleton.mp new,indexed.fresh _ le_rfl] at earlier
        cases earlier
    | none =>
      rw [earlier,Option.none_or] at present
      split at present
      · rename_i here
        obtain rfl := Option.some.inj present
        have entered := effects_lists kept (creation_listed built needed)
        rw [here] at entered
        exact entered.resolve_right (not_not_intro linked)
      · cases present

/-- Outside the packetizer a flagged destination stays on the list. -/
theorem Allowed.listed (allowed : Allowed step) (indexed : Indexed step.before)
    (kept : step.label = .other → step.after.topology_changes = step.before.topology_changes) (listed : Listed step.before) :
    Listed step.after := by
  cases allowed with
  | other frame =>
    intro id linked pd found action needed
    rw [kept rfl]
    rw [frame.topology_table] at linked
    rw [descriptor_of_prefixes frame.prefixes] at found
    exact listed id linked pd found action needed
  | @act label before permitted _ =>
    cases label with
    | other => exact absurd rfl permitted.named
    | perform id call => exact perform_listed listed id call
    | create creation => exact create_listed indexed listed creation
    | detach id =>
      simp only [Instance.act]
      split
      · exact listed
      · rename_i pd found
        have stored : before.descriptor pd.id = some pd := (descriptor_mem found).2 ▸ found
        intro other linked result present action needed
        have present : (before.effect pd .detach).descriptor other = some result := present
        rw [effect_descriptor] at present
        have linkedBefore := effect_table pd before .detach linked
        exact (effect_changes stored .detach (.inl (listed other linkedBefore result present action needed))).resolve_right
          (not_not_intro linked)
    | delete id =>
      simp only [Instance.act,Instance.delete]
      split
      · exact listed
      · rename_i pd found
        split
        · intro other linked result present action needed
          have present := (descriptor_filter before id other).symm.trans present
          split at present
          · cases present
          · rename_i different
            have entry := listed other (mem_table_without linked) result present action needed
            exact (List.mem_erase_of_ne different).mpr entry
        · exact listed
    | free id =>
      intro other linked result present action needed
      have present := (descriptor_filter before id other).symm.trans present
      split at present
      · cases present
      · exact listed other linked result present action needed

end Steps

/-! ## Queued work -/

/-- Work for the action is queued. -/
def Instance.queued (eigrp : Instance) (action : Action) : Bool := eigrp.packetizer.any fun work => work.carries action

/-- Every destination of the table that needs the action is served by a queued item. -/
def Served (action : Action) (eigrp : Instance) : Prop :=
  ∀ id ∈ eigrp.topology_table, ∀ pd, eigrp.descriptor id = some pd → pd.needs action → eigrp.queued action

section Queue
variable {pd : PrefixDescriptor} {eigrp : Instance} {action : Action} {step : Step Instance Label}

theorem queued_of_subset {first second : Instance} (more : first.packetizer ⊆ second.packetizer) (queued : first.queued action) :
    second.queued action := by
  obtain ⟨work,member,carries⟩ := List.any_eq_true.mp queued
  exact List.any_eq_true.mpr ⟨work,more member,carries⟩

theorem enqueue_queued {work : Work} (carries : work.carries action) : (eigrp.packetizer_enqueue work).queued action :=
  List.any_eq_true.mpr ⟨work,List.mem_append_right _ (List.mem_singleton.mpr rfl),carries⟩

theorem effect_packetizer (pd : PrefixDescriptor) (eigrp : Instance) (effect : Effect) :
    eigrp.packetizer ⊆ (eigrp.effect pd effect).packetizer := by
  cases effect with
  | topology_change_once =>
    simp only [Instance.effect]
    split <;> exact List.Subset.refl _
  | rib_route_add route =>
    simp only [Instance.effect]
    split <;> exact List.Subset.refl _
  | enqueue work => exact List.subset_append_left _ _
  | detach =>
    simp only [Instance.effect,Instance.prefix_detach]
    split
    · exact List.subset_append_left _ _
    · exact List.Subset.refl _
  | _ => exact List.Subset.refl _

theorem effects_packetizer (pd : PrefixDescriptor) (out : List Effect) (eigrp : Instance) :
    eigrp.packetizer ⊆ (eigrp.effects pd out).packetizer := by
  unfold Instance.effects
  induction out generalizing eigrp with
  | nil => exact List.Subset.refl _
  | cons effect out ih => exact List.Subset.trans (effect_packetizer pd eigrp effect) (ih _)

theorem effects_queued {out : List Effect} (posts : out.any (Effect.posts action)) : (eigrp.effects pd out).queued action := by
  unfold Instance.effects
  induction out generalizing eigrp with
  | nil => cases posts
  | cons effect out ih =>
    rw [List.any_cons,Bool.or_eq_true] at posts
    rcases posts with here | later
    · have queued : (eigrp.effect pd effect).queued action := by
        cases effect with
        | enqueue work => exact enqueue_queued here
        | _ => cases here
      exact queued_of_subset (effects_packetizer pd out _) queued
    · exact ih later

theorem perform_packetizer (eigrp : Instance) (id : Nat) (call : Call) :
    eigrp.packetizer ⊆ (eigrp.perform id call).packetizer := by
  unfold Instance.perform
  split
  · exact List.Subset.refl _
  · split
    · exact List.Subset.refl _
    · refine fun work member => effects_packetizer _ _ _ ?_
      exact member

/-- A destination of the table behind a call is as it was before, or the one that the call changed. -/
theorem perform_linked {id other : Nat} {call : Call} {result : PrefixDescriptor}
    (linked : other ∈ (eigrp.perform id call).topology_table) (present : (eigrp.perform id call).descriptor other = some result) :
    other ∈ eigrp.topology_table ∧ (eigrp.descriptor other = some result ∨
      (other = id ∧ ∃ pd out, eigrp.descriptor id = some pd ∧ exec eigrp.env pd call = some (result, out) ∧
        (out.any (Effect.posts action) → (eigrp.perform id call).queued action))) := by
  unfold Instance.perform at linked present ⊢
  split at linked
  · rename_i missing
    simp only [missing] at present
    exact ⟨linked,.inl present⟩
  · rename_i pd found
    simp only [found] at present ⊢
    split at linked
    · rename_i failed
      simp only [failed] at present
      exact ⟨linked,.inl present⟩
    · rename_i next out done
      simp only [done] at present ⊢
      have before := effects_table next out _ linked
      refine ⟨before,?_⟩
      rw [descriptor_of_prefixes (effects_prefixes next out _)] at present
      have present := (descriptor_write found (exec_identity done).id other).symm.trans present
      split at present
      · rename_i here
        obtain rfl := Option.some.inj present
        exact .inr ⟨here,pd,out,rfl,done,effects_queued⟩
      · exact .inl present

/-- A call whose new flags are covered by queued work leaves every destination served. -/
theorem perform_served (served : Served action eigrp) {id : Nat} {call : Call}
    (posted : ∀ pd next out, eigrp.descriptor id = some pd → exec eigrp.env pd call = some (next, out) →
      eigrp.queued action ∨ Noted (Effect.posts action) action pd next out) : Served action (eigrp.perform id call) := by
  intro other linked result present needed
  have more := @queued_of_subset action _ _ (perform_packetizer eigrp id call)
  obtain ⟨before,stored | ⟨rfl,pd,out,found,done,queues⟩⟩ := perform_linked linked present
  · exact more (served other before result stored needed)
  · rcases posted pd result out found done with queued | noted
    · exact more queued
    · rcases noted needed with earlier | posts
      · exact more (served other before pd found earlier)
      · exact queues posts

end Queue

end Eigrp
