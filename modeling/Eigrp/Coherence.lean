import Eigrp.Refresh

/-!
# Distances over whole runs

Every route of every destination carries the distances of the present parameters, as long as no change of
parameters touches a route that it does not refresh. The bandwidth and the delay of an interface
change with a reset of the interface behind the change.
-/

namespace Eigrp
open Eigrp.Lib

/-! ## Operations -/

/-- An event, or a change of the bandwidth or the delay of an interface. -/
inductive Operation where
  | event (event : Event)
  | intf_metric (ei : Nat) (params : IntfParams)

/-- The parameters of an interface are written. -/
def intf_metric_write (ei : Nat) (params : IntfParams) (intf : Intf) (machine : Machine) : Machine :=
  handle machine (.intf_params ei params intf.split_horizon intf.next_hop_self)

/-- `eigrp_intf_bandwidth_update` and `eigrp_intf_delay_update`. -/
def intf_metric_update (ei : Nat) (params : IntfParams) (machine : Machine) : Machine :=
  match machine.state.intf ei with
  | none => machine
  | some intf => intf_up ei (intf_down ei (intf_metric_write ei params intf machine))

def operate (machine : Machine) : Operation → Machine
  | .event event => handle machine event
  | .intf_metric ei params => intf_metric_update ei params machine

/-! ## Unaffected routes -/

/-- The distances of the routes are the same under both environments. -/
def Unaffected (before after : Env) (pd : PrefixDescriptor) : Prop := ∀ route ∈ pd.routes,
  recomputed_reported_distance after route = recomputed_reported_distance before route ∧
    recomputed_distance after route = recomputed_distance before route

instance (before after : Env) (pd : PrefixDescriptor) : Decidable (Unaffected before after pd) :=
  inferInstanceAs (Decidable (∀ route ∈ pd.routes, _ ∧ _))

/-- No route is behind. -/
def Lag.none : Lag := ⟨fun _ => False,fun _ stale => stale⟩

/-- A route of the interface may be as it was measured before. -/
def Lag.link (before : Env) (ei : Nat) : Lag where
  stale route := route.ei = some ei ∧ Coherent before route
  same := fun same stale => ⟨same.ei.trans stale.1,stale.2.same same⟩

section Routes
variable {lag : Lag} {before after : Env} {route : RouteDescriptor} {pd : PrefixDescriptor}

theorem recomputed_same (metric : after.metric = before.metric) (params : ∀ ei, route.ei = some ei → after.params ei = before.params ei) :
    recomputed_reported_distance after route = recomputed_reported_distance before route ∧
      recomputed_distance after route = recomputed_distance before route := by
  constructor
  · simp only [recomputed_reported_distance,metric]
  · cases known : route.ei with
    | none => simp only [recomputed_distance,known,metric]
    | some ei => simp only [recomputed_distance,known,metric,params ei known]

theorem Coherent.moved (coherent : Coherent before route)
    (same : recomputed_reported_distance after route = recomputed_reported_distance before route ∧
      recomputed_distance after route = recomputed_distance before route) : Coherent after route := by
  constructor
  · rw [same.1]
    exact coherent.reported_distance
  · rw [same.2]
    exact coherent.distance

theorem Current.parameters (current : Current lag before pd) (metric : after.metric = before.metric)
    (params : after.params = before.params) : Current lag after pd := by
  intro route member
  obtain ⟨coherent,attributed⟩ := current route member
  refine ⟨coherent.imp_left fun coherent => coherent.moved (recomputed_same metric fun ei _ => ?_),attributed⟩
  rw [params]

theorem Current.unaffected (current : Current .none before pd) (unaffected : Unaffected before after pd) : Current .none after pd := by
  intro route member
  obtain ⟨coherent,attributed⟩ := current route member
  exact ⟨.inl ((coherent.resolve_right id).moved (unaffected route member)),attributed⟩

end Routes

/-! ## Steps -/

/-- Every allocated destination has numbered routes that are up to date. -/
def UpToDate (lag : Lag) (eigrp : Instance) : Prop := ∀ pd ∈ eigrp.prefixes, Tidy pd ∧ Current lag eigrp.env pd

section Steps
variable {lag : Lag} {machine next : Machine} {before after : Instance}

theorem step_up_to_date {step : Step Instance Label} (allowed : Allowed step) (undisturbed : Undisturbed step)
    (holds : UpToDate lag step.before) : UpToDate lag step.after := by
  intro next present
  have measured : Tidy next ∧ Current lag step.before.env next := by
    rcases allowed.origin present with old | ⟨call,pd,out,finds,done⟩ | ⟨creation,out,label,built⟩
    · exact holds next old
    · obtain ⟨id,label,found⟩ := id finds
      obtain ⟨tidy,current⟩ := holds pd (descriptor_mem found).1
      exact ⟨exec_tidy tidy done,exec_current tidy (finds.peer allowed) (undisturbed.seeds id call label) done current⟩
    · have permitted := allowed.permitted (by simp [label])
      have old (cleared : PrefixDescriptor) (named : (Label.create creation).old = some cleared) := holds cleared
        (permitted.old cleared (label ▸ named))
      refine ⟨creation_tidy built fun cleared named => (old cleared named).1,creation_current ?_ (fun cleared named => (old cleared named).2) built⟩
      exact label ▸ permitted.peer
  exact ⟨measured.1,measured.2.parameters undisturbed.parameters.metric undisturbed.parameters.params⟩

theorem proceeds_up_to_date (continues : machine.Continues next) (proceeds : machine.Proceeds next) (holds : UpToDate lag machine.state) :
    UpToDate lag next.state :=
  Recorded.Extends.invariant (Recorded.Extends.both continues proceeds)
    (fun _ _ steps before => step_up_to_date steps.1 steps.2 before) holds

/-- A change of parameters that affects no route. -/
theorem UpToDate.retuned (holds : UpToDate .none before) (prefixes : after.prefixes = before.prefixes)
    (unaffected : ∀ pd ∈ before.prefixes, Unaffected before.env after.env pd) : UpToDate .none after := by
  intro pd member
  rw [prefixes] at member
  exact ⟨(holds pd member).1,(holds pd member).2.unaffected (unaffected pd member)⟩

end Steps

/-! ## The refresh of the table -/

/-- The destinations in the list are still to be refreshed, the others are up to date. -/
structure Refreshing (before after : Env) (ids : List Nat) (eigrp : Instance) : Prop where
  sound : eigrp.fault = none
  env : eigrp.env = after
  found : ∀ id ∈ ids, eigrp.descriptor id ≠ none
  routes : ∀ pd ∈ eigrp.prefixes, Tidy pd ∧
    (Current .none after pd ∨ (Current .none before pd ∧ pd.state = .passive ∧ pd.id ∈ ids))

theorem perform_refreshing {before after : Env} {id : Nat} {ids : List Nat} {eigrp : Instance}
    (refreshing : Refreshing before after (id :: ids) eigrp) : Refreshing before after ids (eigrp.perform id .metric_update) := by
  obtain ⟨pd,found⟩ := Option.ne_none_iff_exists'.mp (refreshing.found id List.mem_cons_self)
  obtain ⟨stored,number⟩ := descriptor_mem found
  obtain ⟨next,out,updated⟩ : ∃ next out, metric_update_pd eigrp.env pd = (next, out) := ⟨_,_,rfl⟩
  have done : exec eigrp.env pd .metric_update = some (next, out) := congrArg some updated
  have performed : eigrp.perform id .metric_update = Instance.effects
      { eigrp with prefixes := eigrp.prefixes.map fun pd : PrefixDescriptor => if pd.id = id then next else pd } next out := by
    simp only [Instance.perform,found,done]
  have env : (eigrp.perform id .metric_update).env = eigrp.env := by
    rw [performed,effects_env]
    rfl
  have prefixes : (eigrp.perform id .metric_update).prefixes =
      eigrp.prefixes.map fun pd : PrefixDescriptor => if pd.id = id then next else pd := by
    rw [performed,effects_prefixes]
  have current : Current .none after next := by
    have same : next = (metric_update_pd eigrp.env pd).1 := by rw [updated]
    rw [same,refreshing.env]
    rcases (refreshing.routes pd stored).2 with current | ⟨old,passive,_⟩
    · exact metric_update_keeps_current current
    · exact metric_update_current old passive
  have sound : (eigrp.perform id .metric_update).fault = none := by
    rw [performed,(effects_next_id next out _).2]
    exact refreshing.sound
  refine ⟨sound,env.trans refreshing.env,fun other member => ?_,fun other member => ?_⟩
  · obtain ⟨_,_,_,_,_,lookup⟩ := perform_step eigrp id .metric_update sound
    rw [lookup other]
    split
    · simp
    · exact refreshing.found other (List.mem_cons_of_mem id member)
  · rw [prefixes] at member
    obtain ⟨old,present,rfl⟩ := List.mem_map.mp member
    split
    · exact ⟨exec_tidy (refreshing.routes pd stored).1 done,.inl current⟩
    · rename_i different
      obtain ⟨tidy,kept⟩ := refreshing.routes old present
      refine ⟨tidy,kept.imp_right fun waiting => ⟨waiting.1,waiting.2.1,?_⟩⟩
      exact (List.mem_cons.mp waiting.2.2).resolve_left different

theorem perform_all_refreshes {before after : Env} {ids : List Nat} {machine : Machine}
    (refreshing : Refreshing before after ids machine.state) :
    Refreshing before after [] (ids.foldl (fun machine id => machine.perform id .metric_update) machine).state := by
  induction ids generalizing machine with
  | nil => exact refreshing
  | cons id ids ih =>
    refine ih ?_
    have performed : (machine.perform id .metric_update).state = machine.state.perform id .metric_update :=
      Machine.act_state refreshing.sound _
    rw [performed]
    exact perform_refreshing refreshing

/-- Nothing happens behind a fault. -/
theorem perform_loop_failed {call : Call} (ids : List Nat) {machine : Machine} (failed : machine.state.fault.isSome) :
    ids.foldl (fun machine id => machine.perform id call) machine = machine := by
  induction ids with
  | nil => rfl
  | cons id ids ih =>
    have same : machine.perform id call = machine := by simp only [Machine.perform,Machine.act,failed,if_true]
    rw [List.foldl_cons,same,ih]

theorem metric_weights_failed {metric : MetricConfig} {machine : Machine} (failed : machine.state.fault.isSome) :
    handle machine (.metric_weights metric) = machine := by
  simp only [handle,Machine.other,failed,if_true,perform_all,perform_loop_failed,update_send_all_enqueue]

/-- The environment under new weights or another version. -/
def reweighted (eigrp : Instance) (metric : MetricConfig) : Env :=
  { eigrp.env with metric := { metric with max_hops := eigrp.metric.max_hops } }

/-- The weights change for all destinations, PASSIVE ones of the table are refreshed. -/
theorem metric_weights_up_to_date {metric : MetricConfig} {machine : Machine} (allocated : Allocated machine.state)
    (holds : UpToDate .none machine.state)
    (harmless : ∀ pd ∈ machine.state.prefixes, (pd.state = .passive ∧ pd.id ∈ machine.state.topology_table) ∨
      Unaffected machine.state.env (reweighted machine.state metric) pd) :
    UpToDate .none (handle machine (.metric_weights metric)).state := by
  by_cases failed : machine.state.fault.isSome
  · rw [metric_weights_failed failed]
    exact holds
  · have sound : machine.state.fault = none := by simpa using failed
    let changed : Machine := machine.other fun eigrp => { eigrp with metric := { metric with max_hops := eigrp.metric.max_hops } }
    have state : changed.state = { machine.state with metric := { metric with max_hops := machine.state.metric.max_hops } } :=
      Machine.other_state sound _
    have starts : Refreshing machine.state.env (reweighted machine.state metric) changed.state.topology_table changed.state := by
      rw [state]
      refine ⟨sound,rfl,fun id member => allocated.table id member,fun pd member => ?_⟩
      obtain ⟨tidy,current⟩ := holds pd member
      refine ⟨tidy,(harmless pd member).symm.imp (fun unaffected => current.unaffected unaffected) fun waiting => ?_⟩
      exact ⟨current,waiting⟩
    have refreshed := perform_all_refreshes starts
    have walked : UpToDate .none (perform_all .metric_update changed).state := by
      intro pd member
      obtain ⟨tidy,current⟩ := refreshed.routes pd member
      refine ⟨tidy,refreshed.env.symm ▸ current.resolve_right ?_⟩
      rintro ⟨_,_,waiting⟩
      cases waiting
    have finishes (machine : Machine) : (update_send_all_enqueue none machine).state.prefixes = machine.state.prefixes ∧
        (update_send_all_enqueue none machine).state.env = machine.state.env := by
      unfold update_send_all_enqueue Machine.other
      split <;> exact ⟨rfl,rfl⟩
    obtain ⟨prefixes,env⟩ := finishes (perform_all .metric_update changed)
    change UpToDate .none (update_send_all_enqueue none (perform_all .metric_update changed)).state
    intro pd member
    rw [prefixes] at member
    rw [env]
    exact walked pd member

/-! ## Operations that are harmless -/

/-- Changes of the parameters leave alone the distances of every route that they do not refresh. New weights refresh the PASSIVE
    destinations of the table; a reset of an interface tears down the routes through it; nothing else refreshes. -/
def Harmless (machine : Machine) : Operation → Prop
  | .event (.metric_weights metric) => ∀ pd ∈ machine.state.prefixes,
    (pd.state = .passive ∧ pd.id ∈ machine.state.topology_table) ∨
      Unaffected machine.state.env (reweighted machine.state metric) pd
  | .event (.settings settings) => ∀ pd ∈ machine.state.prefixes,
    Unaffected machine.state.env (handle machine (.settings settings)).state.env pd
  | .event (.intf_params ei params split_horizon next_hop_self) => ∀ pd ∈ machine.state.prefixes,
    Unaffected machine.state.env (handle machine (.intf_params ei params split_horizon next_hop_self)).state.env pd
  | .event (.intf_create intf) => ∀ pd ∈ machine.state.prefixes,
    Unaffected machine.state.env (handle machine (.intf_create intf)).state.env pd
  | .event (.intf_free ei) => ∀ pd ∈ (intf_released ei machine).state.prefixes,
    Unaffected machine.state.env (handle machine (.intf_free ei)).state.env pd
  | .intf_metric ei params => ∀ intf ∈ machine.state.intf ei,
    ∀ pd ∈ (intf_down ei (intf_metric_write ei params intf machine)).state.prefixes,
      Unaffected machine.state.env (intf_metric_write ei params intf machine).state.env pd
  | .event (.redistributed_update _ _ metric) => Seeded metric
  | .event _ => True

theorem intf_released_continues (ei : Nat) (machine : Machine) : machine.Continues (intf_released ei machine) := by
  unfold intf_released
  refine .trans ?_ (intf_down_concludes ei _).responds.continues
  split
  · exact Machine.act_extends _ machine fun _ => .remove (.inr (.inl ⟨_,rfl⟩))
  · exact .refl machine

theorem intf_free_up_to_date {ei : Nat} {machine : Machine} (holds : UpToDate .none machine.state)
    (harmless : ∀ pd ∈ (intf_released ei machine).state.prefixes,
      Unaffected machine.state.env (intf_free ei machine).state.env pd) : UpToDate .none (intf_free ei machine).state := by
  have proceeds := intf_released_proceeds ei machine
  have released := proceeds_up_to_date (intf_released_continues ei machine) proceeds holds
  rw [intf_free_released] at harmless ⊢
  split
  · rename_i present
    rw [if_pos present] at harmless
    let freed : Machine := (intf_released ei machine).other fun eigrp => { eigrp with eiflist := eigrp.eiflist.filter fun intf => intf.id ≠ ei }
    have prefixes : freed.state.prefixes = (intf_released ei machine).state.prefixes := other_prefixes _ rfl
    intro pd member
    have stored : pd ∈ (intf_released ei machine).state.prefixes := prefixes ▸ member
    obtain ⟨tidy,current⟩ := released pd stored
    have same := proceeds.parameters
    have before : Current .none machine.state.env pd := current.parameters same.metric.symm same.params.symm
    exact ⟨tidy,before.unaffected (harmless pd stored)⟩
  · exact holds

/-- Writing the parameters of an interface leaves behind at most the routes through it. -/
theorem intf_metric_write_lags {ei : Nat} {params : IntfParams} {intf : Intf} {machine : Machine} (holds : UpToDate .none machine.state) :
    UpToDate (.link machine.state.env ei) (intf_metric_write ei params intf machine).state := by
  have prefixes : (intf_metric_write ei params intf machine).state.prefixes = machine.state.prefixes := other_prefixes _ rfl
  have metric : (intf_metric_write ei params intf machine).state.env.metric = machine.state.env.metric := by
    simp only [intf_metric_write,handle,Machine.other]
    split <;> rfl
  have elsewhere (other : Nat) (different : other ≠ ei) :
      (intf_metric_write ei params intf machine).state.env.params other = machine.state.env.params other := by
    simp only [intf_metric_write,handle,Machine.other]
    split
    · rfl
    · simp only [Recorded.record,Instance.env,Instance.intf,List.find?_map,Option.map_map]
      have keys : ((fun stored : Intf => decide (stored.id = other)) ∘ fun stored : Intf => if stored.id = ei then
          { stored with params := params, split_horizon := intf.split_horizon, next_hop_self := intf.next_hop_self } else stored) =
          fun stored => decide (stored.id = other) := by
        funext stored
        simp only [Function.comp_apply]
        split <;> rfl
      rw [keys]
      cases found : machine.state.eiflist.find? fun stored => decide (stored.id = other) with
      | none => rfl
      | some stored =>
        have number : stored.id = other := by simpa using List.find?_some found
        simp [number,different]
  intro pd member
  rw [prefixes] at member
  obtain ⟨tidy,current⟩ := holds pd member
  refine ⟨tidy,fun route stored => ?_⟩
  obtain ⟨coherent,attributed⟩ := current route stored
  have coherent := coherent.resolve_right id
  refine ⟨?_,attributed⟩
  by_cases link : route.ei = some ei
  · exact .inr ⟨link,coherent⟩
  · refine .inl (coherent.moved (recomputed_same metric fun other known => elsewhere other ?_))
    rintro rfl
    exact link known

theorem intf_metric_up_to_date {ei : Nat} {params : IntfParams} {machine : Machine} (holds : UpToDate .none machine.state)
    (harmless : Harmless machine (.intf_metric ei params)) : UpToDate .none (intf_metric_update ei params machine).state := by
  unfold intf_metric_update
  split
  · exact holds
  · rename_i intf found
    let written := intf_metric_write ei params intf machine
    have down := intf_down_proceeds ei written
    have torn := proceeds_up_to_date (intf_down_concludes ei written).responds.continues down (intf_metric_write_lags holds)
    have unaffected := harmless intf found
    have same := down.parameters
    have measured : UpToDate .none (intf_down ei written).state := by
      intro pd member
      obtain ⟨tidy,current⟩ := torn pd member
      refine ⟨tidy,fun route stored => ?_⟩
      obtain ⟨coherent,attributed⟩ := current route stored
      refine ⟨.inl (coherent.elim id fun stale => ?_),attributed⟩
      have moved := stale.2.moved (unaffected pd member route stored)
      exact moved.moved (recomputed_same same.metric fun _ _ => by rw [same.params])
    exact proceeds_up_to_date (intf_up_responds ei _).continues (intf_up_proceeds ei _) measured

/-- A harmless operation leaves every route up to date. -/
theorem operate_up_to_date {machine : Machine} {operation : Operation} (allocated : Allocated machine.state)
    (holds : UpToDate .none machine.state) (harmless : Harmless machine operation) : UpToDate .none (operate machine operation).state := by
  cases operation with
  | intf_metric ei params => exact intf_metric_up_to_date holds harmless
  | event event =>
    have ordinary (fixed : event.retunes = false) (seeds : event.Seeds) : UpToDate .none (handle machine event).state :=
      proceeds_up_to_date (handle_continues machine event) (handle_proceeds machine fixed seeds) holds
    cases event with
    | metric_weights metric => exact metric_weights_up_to_date allocated holds harmless
    | settings settings => exact holds.retuned (other_prefixes _ rfl) harmless
    | intf_params ei params split_horizon next_hop_self => exact holds.retuned (other_prefixes _ rfl) harmless
    | intf_create intf =>
      refine holds.retuned (other_prefixes _ ?_) harmless
      split <;> rfl
    | intf_free ei => exact intf_free_up_to_date holds harmless
    | redistributed_update destination source metric =>
      refine ordinary rfl ?_
      intro _ _ _ same
      cases same
      exact harmless
    | _ =>
      refine ordinary rfl ?_
      intro _ _ _ same
      cases same

theorem operate_allocated {machine : Machine} (operation : Operation) (allocated : Allocated machine.state) :
    Allocated (operate machine operation).state := by
  cases operation with
  | event event => exact handle_allocated event allocated
  | intf_metric ei params =>
    simp only [operate,intf_metric_update]
    split
    · exact allocated
    · exact handle_allocated (.intf_up ei) (handle_allocated (.intf_down ei) (handle_allocated _ allocated))

/-! ## Runs -/

/-- Every operation of the run is harmless in the state in which it comes. -/
def HarmlessRun : Machine → List Operation → Prop
  | _, [] => True
  | machine, operation :: operations => Harmless machine operation ∧ HarmlessRun (operate machine operation) operations

/-- The state behind a list of operations. -/
def operated (metric : MetricConfig) (operations : List Operation) : Machine := operations.foldl operate (Instance.start metric)

/-- In a run of harmless operations the stored distances of every route are those that would be computed now. -/
theorem distances_coherent (metric : MetricConfig) (operations : List Operation) (harmless : HarmlessRun (Instance.start metric) operations) :
    ∀ pd ∈ (operated metric operations).state.prefixes, ∀ route ∈ pd.routes, Coherent (operated metric operations).state.env route := by
  have runs (operations : List Operation) {machine : Machine} (allocated : Allocated machine.state) (holds : UpToDate .none machine.state)
      (harmless : HarmlessRun machine operations) : UpToDate .none (operations.foldl operate machine).state := by
    induction operations generalizing machine with
    | nil => exact holds
    | cons operation operations ih =>
      exact ih (operate_allocated operation allocated) (operate_up_to_date allocated holds harmless.1) harmless.2
  have start : UpToDate .none (Instance.start metric).state := by
    intro pd member
    cases member
  intro pd member route stored
  obtain ⟨coherent,_⟩ := (runs operations (run_allocated metric []) start harmless pd member).2 route stored
  exact coherent.resolve_right id

/-- A connected destination, new weights, and another delay. -/
def connected_retuned : List Operation :=
  [.event (.intf_create { id := 0, destination := some ⟨10,8⟩ }), .event (.intf_up 0), .event (.metric_weights { k3 := 2 }),
    .intf_metric 0 { delay := 50 }]

theorem connected_retuned_coherent : (operated {} connected_retuned).state.prefixes ≠ [] ∧
    ∀ pd ∈ (operated {} connected_retuned).state.prefixes, ∀ route ∈ pd.routes, Coherent (operated {} connected_retuned).state.env route := by
  refine ⟨by decide +kernel,distances_coherent {} connected_retuned ⟨?_,trivial,?_,?_,trivial⟩⟩
  · intro pd member
    cases member
  · change ∀ pd ∈ (run {} [.intf_create { id := 0, destination := some ⟨10,8⟩ }, .intf_up 0]).state.prefixes, _ ∨ _
    decide +kernel
  · change ∀ intf ∈ (run {} [.intf_create { id := 0, destination := some ⟨10,8⟩ }, .intf_up 0, .metric_weights { k3 := 2 }]).state.intf 0, _
    decide +kernel

/-- The weights change while both neighbors are asked, and both answer with the vectors they had sent before. -/
def retuned_while_active : List Event :=
  two_neighbors ++
    [.packet_receive (.peer 0 0) (route_packet .update 100), .packetizer {}, .packet_receive (.peer 1 1) (route_packet .update 50000),
      .packetizer {}, .packet_receive (.peer 0 0) (route_packet .update 90000), .packetizer {}, .packetizer {},
      .metric_weights { k3 := 2 }, .packet_receive (.peer 0 0) (route_packet .reply 90000),
      .packet_receive (.peer 1 1) (route_packet .reply 50000)]

/-- The destination is PASSIVE again with the distances of the old weights. -/
theorem retuned_while_active_stale : ¬ ∀ metric operations, ∀ pd ∈ (operated metric operations).state.prefixes, pd.state = .passive →
    ∀ route ∈ pd.routes, Coherent (operated metric operations).state.env route := by
  intro coherent
  let operations := retuned_while_active.map Operation.event
  have stale : (operated {} operations).state.prefixes.any fun pd => pd.state = .passive ∧ pd.routes.any fun route =>
      route.distance ≠ recomputed_distance (operated {} operations).state.env route := by decide +kernel
  obtain ⟨pd,stored,found⟩ := List.any_eq_true.mp stale
  obtain ⟨passive,routes⟩ := of_decide_eq_true found
  obtain ⟨route,member,different⟩ := List.any_eq_true.mp routes
  exact of_decide_eq_true different (coherent {} operations pd stored passive route member).distance

end Eigrp
