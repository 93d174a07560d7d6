import Eigrp.Lib.Keyed
import Eigrp.Networks
import Eigrp.PrefixCodec
import Eigrp.Sync

/-!
# Summaries

`eigrp_summary.c`: the commands that configure the aggregates of an interface and their metrics, and the REPLY to a QUERY
that ends at an aggregate. What is advertised and answered rests on what was configured last for each aggregate alone.
-/

namespace Eigrp
open Eigrp.Lib

/-! ## Answers at an aggregate -/

/-- The destinations that the walk of `eigrp_summary_query_route_build` stops at. -/
def SummaryConfig.query_component (config : SummaryConfig) (destination : Prefix) (component : PrefixDescriptor) : Bool :=
  ¬ ((component.distance = max_distance ∧ component.nt ≠ .connected)
    ∨ component.destination.prefix_length ≤ destination.prefix_length
    ∨ ¬ config.afi.prefix_address_match destination component.destination.address)

/-- The answer that nothing is reachable at a destination. -/
def summary_unreachable (destination : Prefix) : Prefix × RouteDescriptor :=
  (destination, { id := 0, adv_router := some .self, metric := { delay := max_metric }, reported_metric := { delay := max_metric }
                  total_metric := { delay := max_metric }, reported_distance := 0, distance := max_distance })

/-- `eigrp_summary_query_route_build`: without an answer the QUERY goes on to the topology. -/
def SummaryConfig.summary_query_route_build (config : SummaryConfig) (ei : Nat) (eigrp : Instance) (destination : Prefix) :
    Option (Prefix × RouteDescriptor) :=
  if config.summaries.any fun configured => configured.1 = destination then
    some (((eigrp.topology_table.filterMap eigrp.descriptor).findSome? fun component =>
      if config.query_component destination component ∧ (route_read component).isSome then
        config.summary_route_build ei eigrp component
      else none).getD (summary_unreachable destination))
  else if (config.summary_destination destination).isNone ∨ config.summary_specific_leak destination then none
  else some (summary_unreachable destination)

namespace Summaries
open Networks (Result Context)

/-! ## The commands -/

/-- `struct eigrp_summary_config`. -/
structure Summary where
  network : Portable.Prefix
  administrative_distance : UInt8 := 0
  leak_map : Option String := none
deriving DecidableEq

/-- `eigrp_summary_options_t`. -/
structure Options where
  administrative_distance : UInt8 := 0
  leak_map : Option String := none

/-- `eigrp_summary_metric_config_t`. -/
structure SummaryMetricConfig where
  metric_configured : Bool := false
  metric : MetricValues := ⟨0,0,0,0,0⟩
  distance_configured : Bool := false
  distance : UInt8 := 0
deriving DecidableEq

/-- `struct eigrp_summary_metric_entry`. -/
structure MetricEntry where
  network : Portable.Prefix
  config : SummaryMetricConfig
deriving DecidableEq

/-- `struct eigrp_summary_state`. -/
structure SummaryState where
  auto_summary : Bool := false
  metrics : List MetricEntry := []

/-- The aggregates of an interface, the summary state of its address family, and the instance that runs. -/
structure Policy where
  afi : Afi := .ipv4
  summaries : List Summary := []
  summary_state : Option SummaryState := none
  eigrp : Instance := {}

/-- The memory of the host: for the name of a leak map, for an entry, for the state, for what is sent to withdraw. -/
structure Memory where
  leak_map : Bool := true
  entry : Bool := true
  state : Bool := true
  withdrawal : Bool := true

/-- `eigrp_operation_t`. -/
inductive Operation where
  | set
  | reset
deriving DecidableEq

/-- `eigrp_summary_prefix_valid`. -/
def summary_prefix_valid (network : Portable.Prefix) : Bool := network.valid

/-- `eigrp_summary_prefix_normalize`. -/
def summary_prefix_normalize (network : Portable.Prefix) : Portable.Prefix := network.normalize

/-- A destination is announced again if it is PASSIVE. The list of changes has room for it. -/
def update_mark (eigrp : Instance) (id : Nat) : Instance :=
  match eigrp.descriptor id with
  | none => eigrp
  | some pd =>
    if pd.state ≠ .passive then eigrp
    else { eigrp with
      prefixes := eigrp.prefixes.map fun pd => if pd.id = id ∧ pd.state = .passive then { pd with need_update := true } else pd
      topology_changes := if id ∈ eigrp.topology_changes then eigrp.topology_changes else eigrp.topology_changes ++ [id] }

/-- `eigrp_summary_runtime_update`. -/
def summary_runtime_update (eigrp : Instance) : Instance :=
  (eigrp.topology_table.foldl update_mark eigrp).packetizer_enqueue { opcode := .update }

/-- `eigrp_summary_withdraw`: the item owns an unreachable destination. -/
def summary_withdraw (memory : Memory) (network : Portable.Prefix) (eigrp : Instance) : Instance :=
  if memory.withdrawal then
    eigrp.packetizer_enqueue
      { opcode := .update
        pd := some (.owned { id := 0, destination := network.destination, reported_metric := { delay := max_metric } })
        route := some { id := 0, metric := { delay := max_metric }, reported_metric := { delay := max_metric } } }
  else eigrp

namespace Policy

/-- The instance announces again what it has, when the caller is handed the running one. -/
def refresh (context : Context) (policy : Policy) : Policy :=
  if context.runtime then { policy with eigrp := summary_runtime_update policy.eigrp } else policy

/-- `eigrp_summary_create`. -/
def summary_create (memory : Memory) (context : Context) (network : Portable.Prefix) (options : Option Options) (policy : Policy) :
    Result × Policy :=
  let leak_map := options.bind (·.leak_map)
  if ¬ context.config ∧ ¬ context.runtime then (.not_found, policy)
  else if ¬ summary_prefix_valid network then (.invalid_argument, policy)
  else if leak_map = some "" then (.invalid_argument, policy)
  else if ¬ context.config then (.not_found, policy)
  else if leak_map.isSome ∧ ¬ memory.leak_map then (.internal_failure, policy)
  else
    let summary : Summary := { network := summary_prefix_normalize network, leak_map
                               administrative_distance := (options.map (·.administrative_distance)).getD 0 }
    if (Keyed.lookup Summary.network summary.network policy.summaries).isNone ∧ ¬ memory.entry then (.internal_failure, policy)
    else (.success, { policy with summaries := Keyed.put Summary.network summary policy.summaries }.refresh context)

/-- `eigrp_summary_delete`. -/
def summary_delete (memory : Memory) (context : Context) (network : Portable.Prefix) (policy : Policy) : Result × Policy :=
  if ¬ summary_prefix_valid network then (.invalid_argument, policy)
  else if ¬ context.config then (.not_found, policy)
  else match Keyed.lookup Summary.network (summary_prefix_normalize network) policy.summaries with
    | none => (.not_found, policy)
    | some summary =>
      let left := Keyed.remove Summary.network summary.network policy.summaries
      let eigrp := if context.runtime then summary_withdraw memory summary.network policy.eigrp else policy.eigrp
      (.success, { policy with summaries := left, eigrp }.refresh context)

/-- `eigrp_summary_state_create`. -/
def summary_state_create (memory : Memory) (policy : Policy) : Option SummaryState :=
  match policy.summary_state with
  | some state => some state
  | none => if memory.state then some {} else none

/-- `eigrp_summary_auto_update`. -/
def summary_auto_update (memory : Memory) (operation : Operation) (context : Context) (policy : Policy) : Result × Policy :=
  if ¬ context.config ∧ ¬ context.runtime then (.not_found, policy)
  else if policy.afi ≠ .ipv4 then (.unsupported, policy)
  else if context.config then match policy.summary_state_create memory with
    | none => (.internal_failure, policy)
    | some state =>
      (.success, { policy with summary_state := some { state with auto_summary := operation == Operation.set } }.refresh context)
  else (.success, policy.refresh context)

/-- `eigrp_summary_metric_update` that sets a metric. -/
def summary_metric_set (memory : Memory) (context : Context) (network : Portable.Prefix) (config : SummaryMetricConfig) (policy : Policy) :
    Result × Policy :=
  if ¬ summary_prefix_valid network ∨ (¬ config.metric_configured ∧ ¬ config.distance_configured) then (.invalid_argument, policy)
  else if config.metric_configured ∧ (config.metric.bandwidth = 0 ∨ config.metric.load = 0 ∨ config.metric.mtu = 0) then
    (.invalid_argument, policy)
  else if config.distance_configured ∧ config.distance = 0 then (.invalid_argument, policy)
  else if ¬ context.config ∧ ¬ context.runtime then (.not_found, policy)
  else if context.config ∧ network.address.afi ≠ some policy.afi then (.invalid_argument, policy)
  else if context.config then match policy.summary_state_create memory with
    | none => (.internal_failure, policy)
    | some state =>
      let entry : MetricEntry := { network := summary_prefix_normalize network, config }
      if (Keyed.lookup MetricEntry.network entry.network state.metrics).isNone ∧ ¬ memory.entry then
        (.internal_failure, { policy with summary_state := some state })
      else
        let metrics := Keyed.put MetricEntry.network entry state.metrics
        (.success, { policy with summary_state := some { state with metrics } }.refresh context)
  else (.success, policy.refresh context)

/-- `eigrp_summary_metric_update` that takes a metric back. -/
def summary_metric_reset (context : Context) (network : Portable.Prefix) (policy : Policy) : Result × Policy :=
  if ¬ summary_prefix_valid network then (.invalid_argument, policy)
  else if ¬ context.config ∧ ¬ context.runtime then (.not_found, policy)
  else if context.config ∧ network.address.afi ≠ some policy.afi then (.invalid_argument, policy)
  else match policy.summary_state.filter fun _ => context.config with
    | none => (.not_found, policy)
    | some state =>
      let normalized := summary_prefix_normalize network
      if (Keyed.lookup MetricEntry.network normalized state.metrics).isNone then (.not_found, policy)
      else
        let metrics := Keyed.remove MetricEntry.network normalized state.metrics
        (.success, { policy with summary_state := some { state with metrics } }.refresh context)

end Policy

/-- A command of the operator with the memory and the context it finds. -/
inductive Command where
  | create (memory : Memory) (context : Context) (network : Portable.Prefix) (options : Option Options)
  | delete (memory : Memory) (context : Context) (network : Portable.Prefix)
  | auto (memory : Memory) (operation : Operation) (context : Context)
  | metric_set (memory : Memory) (context : Context) (network : Portable.Prefix) (config : SummaryMetricConfig)
  | metric_reset (context : Context) (network : Portable.Prefix)

def Policy.step (policy : Policy) : Command → Result × Policy
  | .create memory context network options => policy.summary_create memory context network options
  | .delete memory context network => policy.summary_delete memory context network
  | .auto memory operation context => policy.summary_auto_update memory operation context
  | .metric_set memory context network config => policy.summary_metric_set memory context network config
  | .metric_reset context network => policy.summary_metric_reset context network

def Policy.run (policy : Policy) (commands : List Command) : Policy :=
  commands.foldl (fun policy command => (policy.step command).2) policy

/-! ## What is configured -/

/-- An aggregate as the advertisers of a family read it; they pass over the ones of the other family. -/
def Summary.entry (afi : Afi) (summary : Summary) : Option (Prefix × Option String) :=
  if summary.network.address.afi = some afi then some (summary.network.destination, summary.leak_map) else none

/-- A metric as the advertisers read it; a distance alone changes no vector. -/
def MetricEntry.entry (afi : Afi) (entry : MetricEntry) : Option (Prefix × Option MetricValues) :=
  if entry.network.address.afi = some afi then
    some (entry.network.destination, if entry.config.metric_configured then some entry.config.metric else none)
  else none

def Policy.metrics (policy : Policy) : List MetricEntry := (policy.summary_state.map (·.metrics)).getD []

/-- The configuration in the form the advertisers read it, on an interface with an address and with the leak maps of the host. -/
def Policy.config (address : Prefix) (leak_map_permits : String → Prefix → Bool) (policy : Policy) : SummaryConfig where
  afi := policy.afi
  summaries := policy.summaries.filterMap (Summary.entry policy.afi)
  auto_summary := policy.summary_state.any (·.auto_summary)
  address := address
  metrics := policy.metrics.filterMap (MetricEntry.entry policy.afi)
  leak_map_permits := leak_map_permits

/-! ## One command -/

section Commands
variable {policy next : Policy} {result : Result} {memory : Memory} {context : Context} {network : Portable.Prefix}

/-- The entry that a command creates. -/
def created (network : Portable.Prefix) (options : Option Options) : Summary where
  network := summary_prefix_normalize network
  administrative_distance := (options.map (·.administrative_distance)).getD 0
  leak_map := options.bind (·.leak_map)

/-- A metric that is complete. -/
def SummaryMetricConfig.Checked (config : SummaryMetricConfig) : Prop :=
  (config.metric_configured ∨ config.distance_configured) ∧
    (config.metric_configured → config.metric.bandwidth ≠ 0 ∧ config.metric.load ≠ 0 ∧ config.metric.mtu ≠ 0) ∧
    (config.distance_configured → config.distance ≠ 0)

theorem summary_create_cases {options : Option Options} (done : policy.summary_create memory context network options = (result, next)) :
    (result ≠ .success ∧ next = policy) ∨
    (result = .success ∧ network.valid = true ∧ (created network options).leak_map ≠ some "" ∧
      next = { policy with summaries := Keyed.put Summary.network (created network options) policy.summaries }.refresh context) := by
  unfold Policy.summary_create at done
  dsimp only at done
  split_ifs at done with absent invalid empty unconfigured names full
  all_goals obtain ⟨rfl,rfl⟩ := Prod.mk.inj done
  any_goals exact .inl ⟨by simp,rfl⟩
  exact .inr ⟨rfl,invalid,empty,rfl⟩

theorem summary_delete_cases (done : policy.summary_delete memory context network = (result, next)) :
    (result ≠ .success ∧ next = policy) ∨
    (result = .success ∧ ∃ eigrp, (eigrp = policy.eigrp ∨ eigrp = summary_withdraw memory network.normalize policy.eigrp) ∧
      next = { policy with summaries := Keyed.remove Summary.network network.normalize policy.summaries
                           eigrp := eigrp }.refresh context) := by
  unfold Policy.summary_delete at done
  cases found : Keyed.lookup Summary.network (summary_prefix_normalize network) policy.summaries with
  | none =>
    simp only [found] at done
    split_ifs at done
    all_goals obtain ⟨rfl,rfl⟩ := Prod.mk.inj done
    all_goals exact .inl ⟨by simp,rfl⟩
  | some summary =>
    simp only [found,Keyed.lookup_key found] at done
    split_ifs at done
    all_goals obtain ⟨rfl,rfl⟩ := Prod.mk.inj done
    any_goals exact .inl ⟨by simp,rfl⟩
    · exact .inr ⟨rfl,_,.inr rfl,rfl⟩
    · exact .inr ⟨rfl,_,.inl rfl,rfl⟩

/-- The state that a command finds is the one of before, or an empty one. -/
theorem summary_state_create_some {state : SummaryState} (found : policy.summary_state_create memory = some state) :
    state.metrics = policy.metrics ∧ state.auto_summary = policy.summary_state.any (·.auto_summary) := by
  unfold Policy.summary_state_create at found
  unfold Policy.metrics
  cases before : policy.summary_state with
  | some old =>
    rw [before] at found
    cases found
    exact ⟨rfl,rfl⟩
  | none =>
    rw [before] at found
    dsimp only at found
    split_ifs at found
    cases found
    exact ⟨rfl,rfl⟩

theorem summary_auto_update_cases {operation : Operation} (done : policy.summary_auto_update memory operation context = (result, next)) :
    (result ≠ .success ∧ next = policy) ∨
    (result = .success ∧ context.config = false ∧ next = policy.refresh context) ∨
    (result = .success ∧ context.config = true ∧ ∃ state : SummaryState, state.metrics = policy.metrics ∧
      next = { policy with summary_state := some { state with auto_summary := operation == Operation.set } }.refresh context) := by
  unfold Policy.summary_auto_update at done
  cases found : policy.summary_state_create memory with
  | none =>
    simp only [found] at done
    split_ifs at done with absent family configured
    all_goals obtain ⟨rfl,rfl⟩ := Prod.mk.inj done
    any_goals exact .inl ⟨by simp,rfl⟩
    exact .inr (.inl ⟨rfl,by simpa using configured,rfl⟩)
  | some state =>
    simp only [found] at done
    split_ifs at done with absent family configured
    all_goals obtain ⟨rfl,rfl⟩ := Prod.mk.inj done
    any_goals exact .inl ⟨by simp,rfl⟩
    · exact .inr (.inr ⟨rfl,configured,state,(summary_state_create_some found).1,rfl⟩)
    · exact .inr (.inl ⟨rfl,by simpa using configured,rfl⟩)

theorem summary_metric_set_cases {config : SummaryMetricConfig}
    (done : policy.summary_metric_set memory context network config = (result, next)) :
    (result ≠ .success ∧ (next = policy ∨ ∃ state : SummaryState, state.metrics = policy.metrics ∧
      state.auto_summary = policy.summary_state.any (·.auto_summary) ∧ next = { policy with summary_state := some state })) ∨
    (result = .success ∧ context.config = false ∧ next = policy.refresh context) ∨
    (result = .success ∧ context.config = true ∧ network.valid = true ∧ network.address.afi = some policy.afi ∧ config.Checked ∧
      ∃ state : SummaryState, state.auto_summary = policy.summary_state.any (·.auto_summary) ∧
        state.metrics = Keyed.put MetricEntry.network { network := network.normalize, config } policy.metrics ∧
        next = { policy with summary_state := some state }.refresh context) := by
  unfold Policy.summary_metric_set at done
  cases found : policy.summary_state_create memory with
  | none =>
    simp only [found] at done
    split_ifs at done with unspecified incomplete zero absent family configured
    all_goals obtain ⟨rfl,rfl⟩ := Prod.mk.inj done
    any_goals exact .inl ⟨by simp,.inl rfl⟩
    exact .inr (.inl ⟨rfl,by simpa using configured,rfl⟩)
  | some state =>
    obtain ⟨metrics,auto⟩ := summary_state_create_some found
    simp only [found] at done
    split_ifs at done with unspecified incomplete zero absent family configured full
    all_goals obtain ⟨rfl,rfl⟩ := Prod.mk.inj done
    any_goals exact .inl ⟨by simp,.inl rfl⟩
    · exact .inl ⟨by simp,.inr ⟨state,metrics,auto,rfl⟩⟩
    · obtain ⟨valid,specified⟩ := not_or.mp unspecified
      have checked : config.Checked := by
        refine ⟨by simpa [or_iff_not_imp_left] using specified,fun given => ?_,fun given => ?_⟩
        · simpa [given] using incomplete
        · simpa [given] using zero
      let written := Keyed.put MetricEntry.network { network := network.normalize, config } state.metrics
      exact .inr (.inr ⟨rfl,configured,by simpa [summary_prefix_valid] using valid,by simpa [configured] using family,checked,
        { state with metrics := written },auto,by rw [← metrics],rfl⟩)
    · exact .inr (.inl ⟨rfl,by simpa using configured,rfl⟩)

theorem summary_metric_reset_cases (done : policy.summary_metric_reset context network = (result, next)) :
    (result ≠ .success ∧ next = policy) ∨
    (result = .success ∧ ∃ state : SummaryState, state.auto_summary = policy.summary_state.any (·.auto_summary) ∧
      state.metrics = Keyed.remove MetricEntry.network network.normalize policy.metrics ∧
      next = { policy with summary_state := some state }.refresh context) := by
  unfold Policy.summary_metric_reset at done
  cases found : policy.summary_state.filter fun _ => context.config with
  | none =>
    simp only [found] at done
    split_ifs at done
    all_goals obtain ⟨rfl,rfl⟩ := Prod.mk.inj done
    all_goals exact .inl ⟨by simp,rfl⟩
  | some state =>
    have before := (Option.filter_eq_some_iff.mp found).1
    simp only [found] at done
    split_ifs at done
    all_goals obtain ⟨rfl,rfl⟩ := Prod.mk.inj done
    any_goals exact .inl ⟨by simp,rfl⟩
    refine .inr ⟨rfl,_,?_,?_,rfl⟩
    · rw [before]
      rfl
    · unfold Policy.metrics
      rw [before]
      rfl

end Commands

/-! ## What was commanded last -/

/-- For each aggregate what the last successful command said of it. -/
structure Told where
  summary : Portable.Prefix → Option Summary := fun _ => none
  metric : Portable.Prefix → Option MetricEntry := fun _ => none
  auto_summary : Bool := false

def Told.record (told : Told) : Command → Told
  | .create _ _ network options =>
    { told with summary := Function.update told.summary network.normalize (some (created network options)) }
  | .delete _ _ network => { told with summary := Function.update told.summary network.normalize none }
  | .auto _ operation context => if context.config then { told with auto_summary := operation == Operation.set } else told
  | .metric_set _ context network config =>
    if context.config then
      { told with metric := Function.update told.metric network.normalize (some { network := network.normalize, config }) }
    else told
  | .metric_reset _ network => { told with metric := Function.update told.metric network.normalize none }

/-- One command of a run beside what was told so far; only success counts. -/
def Told.hear (heard : Policy × Told) (command : Command) : Policy × Told :=
  let (result, next) := heard.1.step command
  (next, if result = .success then heard.2.record command else heard.2)

/-- What a list of commands leaves told, when it starts on a policy. -/
def Policy.told (policy : Policy) (commands : List Command) (told : Told) : Told := (commands.foldl Told.hear (policy, told)).2

/-- Every aggregate is listed once and in normal form, every metric too, for the family and complete. -/
structure Aggregated (policy : Policy) : Prop where
  distinct : Keyed.Distinct Summary.network policy.summaries
  normal : ∀ summary ∈ policy.summaries,
    summary.network.valid = true ∧ summary.network.normalize = summary.network ∧ summary.leak_map ≠ some ""
  metrics_distinct : Keyed.Distinct MetricEntry.network policy.metrics
  metrics_normal : ∀ entry ∈ policy.metrics, entry.network.valid = true ∧ entry.network.normalize = entry.network ∧
    entry.network.address.afi = some policy.afi ∧ entry.config.Checked

/-- The lists hold what was told. -/
structure Mirrors (policy : Policy) (told : Told) : Prop where
  summary : ∀ network, Keyed.lookup Summary.network network policy.summaries = told.summary network
  metric : ∀ network, Keyed.lookup MetricEntry.network network policy.metrics = told.metric network
  auto_summary : policy.summary_state.any (·.auto_summary) = told.auto_summary

section Runs
variable {policy next : Policy} {told : Told} {result : Result} {context : Context} {command : Command}

theorem refresh_eq (context : Context) (policy : Policy) :
    policy.refresh context = { policy with eigrp := (policy.refresh context).eigrp } := by
  unfold Policy.refresh
  split <;> rfl

@[simp] theorem refresh_afi : (policy.refresh context).afi = policy.afi := by rw [refresh_eq]
@[simp] theorem refresh_summaries : (policy.refresh context).summaries = policy.summaries := by rw [refresh_eq]
@[simp] theorem refresh_state : (policy.refresh context).summary_state = policy.summary_state := by rw [refresh_eq]
@[simp] theorem refresh_metrics : (policy.refresh context).metrics = policy.metrics := by rw [Policy.metrics,refresh_state,Policy.metrics]
@[simp] theorem metrics_some {afi : Afi} {summaries : List Summary} {state : SummaryState} {eigrp : Instance} :
    Policy.metrics ⟨afi,summaries,some state,eigrp⟩ = state.metrics := rfl

/-- Policies that hold the same aggregates and metrics. -/
structure SameConfig (before after : Policy) : Prop where
  afi : after.afi = before.afi
  summaries : after.summaries = before.summaries
  metrics : after.metrics = before.metrics
  auto_summary : after.summary_state.any (·.auto_summary) = before.summary_state.any (·.auto_summary)

theorem SameConfig.refl : SameConfig policy policy := ⟨rfl,rfl,rfl,rfl⟩

theorem SameConfig.refresh : SameConfig policy (policy.refresh context) := ⟨by simp,by simp,by simp,by simp⟩

theorem SameConfig.aggregated (same : SameConfig policy next) (aggregated : Aggregated policy) : Aggregated next := by
  constructor
  · rw [same.summaries]
    exact aggregated.distinct
  · rw [same.summaries]
    exact aggregated.normal
  · rw [same.metrics]
    exact aggregated.metrics_distinct
  · rw [same.metrics,same.afi]
    exact aggregated.metrics_normal

theorem SameConfig.mirrors (same : SameConfig policy next) (mirrors : Mirrors policy told) : Mirrors next told := by
  constructor
  · rw [same.summaries]
    exact mirrors.summary
  · rw [same.metrics]
    exact mirrors.metric
  · rw [same.auto_summary]
    exact mirrors.auto_summary

/-- What a command that succeeds writes into the lists. -/
inductive Configures (policy next : Policy) : Command → Prop
  | create {memory context network options} (valid : network.valid = true) (named : (created network options).leak_map ≠ some "")
    (written : next.summaries = Keyed.put Summary.network (created network options) policy.summaries)
    (metrics : next.metrics = policy.metrics)
    (auto_summary : next.summary_state.any (·.auto_summary) = policy.summary_state.any (·.auto_summary)) :
    Configures policy next (.create memory context network options)
  | delete {memory context network}
    (written : next.summaries = Keyed.remove Summary.network network.normalize policy.summaries)
    (metrics : next.metrics = policy.metrics)
    (auto_summary : next.summary_state.any (·.auto_summary) = policy.summary_state.any (·.auto_summary)) :
    Configures policy next (.delete memory context network)
  | auto {memory operation context} (configured : context.config = true) (summaries : next.summaries = policy.summaries)
    (metrics : next.metrics = policy.metrics)
    (written : next.summary_state.any (·.auto_summary) = (operation == Operation.set)) :
    Configures policy next (.auto memory operation context)
  | metric_set {memory context network config} (configured : context.config = true) (valid : network.valid = true)
    (family : network.address.afi = some policy.afi) (checked : config.Checked) (summaries : next.summaries = policy.summaries)
    (written : next.metrics = Keyed.put MetricEntry.network { network := network.normalize, config } policy.metrics)
    (auto_summary : next.summary_state.any (·.auto_summary) = policy.summary_state.any (·.auto_summary)) :
    Configures policy next (.metric_set memory context network config)
  | metric_reset {context network} (summaries : next.summaries = policy.summaries)
    (written : next.metrics = Keyed.remove MetricEntry.network network.normalize policy.metrics)
    (auto_summary : next.summary_state.any (·.auto_summary) = policy.summary_state.any (·.auto_summary)) :
    Configures policy next (.metric_reset context network)

theorem step_config (done : policy.step command = (result, next)) :
    (SameConfig policy next ∧ (result ≠ .success ∨ ∀ told : Told, told.record command = told)) ∨
    (result = .success ∧ next.afi = policy.afi ∧ Configures policy next command) := by
  cases command with
  | create memory context network options =>
    rcases summary_create_cases done with ⟨failed,rfl⟩ | ⟨rfl,valid,named,rfl⟩
    · exact .inl ⟨.refl,.inl failed⟩
    · exact .inr ⟨rfl,by simp,.create valid named (by simp) refresh_metrics (by simp)⟩
  | delete memory context network =>
    rcases summary_delete_cases done with ⟨failed,rfl⟩ | ⟨rfl,eigrp,_,rfl⟩
    · exact .inl ⟨.refl,.inl failed⟩
    · exact .inr ⟨rfl,by simp,.delete (by simp) refresh_metrics (by simp)⟩
  | auto memory operation context =>
    rcases summary_auto_update_cases done with ⟨failed,rfl⟩ | ⟨rfl,unconfigured,rfl⟩ | ⟨rfl,configured,state,metrics,rfl⟩
    · exact .inl ⟨.refl,.inl failed⟩
    · exact .inl ⟨.refresh,.inr fun told => by simp [Told.record,unconfigured]⟩
    · exact .inr ⟨rfl,by simp,.auto configured (by simp) (by simpa using metrics) (by simp)⟩
  | metric_set memory context network config =>
    rcases summary_metric_set_cases done with ⟨failed,rfl | ⟨state,metrics,auto,rfl⟩⟩ | ⟨rfl,unconfigured,rfl⟩ |
      ⟨rfl,configured,valid,family,checked,state,auto,metrics,rfl⟩
    · exact .inl ⟨.refl,.inl failed⟩
    · exact .inl ⟨⟨rfl,rfl,metrics,auto⟩,.inl failed⟩
    · exact .inl ⟨.refresh,.inr fun told => by simp [Told.record,unconfigured]⟩
    · exact .inr ⟨rfl,by simp,.metric_set configured valid family checked (by simp) (by simpa using metrics) (by simpa using auto)⟩
  | metric_reset context network =>
    rcases summary_metric_reset_cases done with ⟨failed,rfl⟩ | ⟨rfl,state,auto,metrics,rfl⟩
    · exact .inl ⟨.refl,.inl failed⟩
    · exact .inr ⟨rfl,by simp,.metric_reset (by simp) (by simpa using metrics) (by simpa using auto)⟩

theorem created_network {network : Portable.Prefix} {options : Option Options} : (created network options).network = network.normalize := rfl

theorem Configures.aggregated (configures : Configures policy next command) (family : next.afi = policy.afi)
    (aggregated : Aggregated policy) : Aggregated next := by
  obtain ⟨distinct,normal,metrics_distinct,metrics_normal⟩ := aggregated
  cases configures with
  | create valid named written metrics _ =>
    constructor
    · rw [written]
      exact distinct.put
    · intro summary member
      rw [written] at member
      rcases Keyed.mem_put member with rfl | before
      · exact ⟨by rw [created_network,Portable.Prefix.normalize_valid,valid],by rw [created_network,Portable.Prefix.normalize_normalize],named⟩
      · exact normal summary before
    · rw [metrics]
      exact metrics_distinct
    · rw [metrics,family]
      exact metrics_normal
  | delete written metrics _ =>
    constructor
    · rw [written]
      exact distinct.remove
    · intro summary member
      rw [written] at member
      exact normal summary (List.mem_of_mem_eraseP member)
    · rw [metrics]
      exact metrics_distinct
    · rw [metrics,family]
      exact metrics_normal
  | auto _ summaries metrics _ =>
    constructor
    · rw [summaries]
      exact distinct
    · rw [summaries]
      exact normal
    · rw [metrics]
      exact metrics_distinct
    · rw [metrics,family]
      exact metrics_normal
  | metric_set _ valid of_family checked summaries written _ =>
    constructor
    · rw [summaries]
      exact distinct
    · rw [summaries]
      exact normal
    · rw [written]
      exact metrics_distinct.put
    · intro entry member
      rw [written] at member
      rw [family]
      rcases Keyed.mem_put member with rfl | before
      · exact ⟨by rw [Portable.Prefix.normalize_valid,valid],by rw [Portable.Prefix.normalize_normalize],
          by rw [Portable.Prefix.normalize_afi,of_family],checked⟩
      · exact metrics_normal entry before
  | metric_reset summaries written _ =>
    constructor
    · rw [summaries]
      exact distinct
    · rw [summaries]
      exact normal
    · rw [written]
      exact metrics_distinct.remove
    · intro entry member
      rw [written] at member
      rw [family]
      exact metrics_normal entry (List.mem_of_mem_eraseP member)

theorem Configures.mirrors (configures : Configures policy next command) (aggregated : Aggregated policy) (mirrors : Mirrors policy told) :
    Mirrors next (told.record command) := by
  obtain ⟨same,same_metric,same_auto⟩ := mirrors
  cases configures with
  | create valid named written metrics auto_summary =>
    constructor
    · intro network
      rw [written,Keyed.lookup_put,same,created_network]
      simp only [Told.record,Function.update_apply]
    · rw [metrics]
      exact same_metric
    · rw [auto_summary]
      exact same_auto
  | delete written metrics auto_summary =>
    constructor
    · intro network
      rw [written,Keyed.lookup_remove aggregated.distinct,same]
      simp only [Told.record,Function.update_apply]
    · rw [metrics]
      exact same_metric
    · rw [auto_summary]
      exact same_auto
  | auto configured summaries metrics written =>
    rw [Told.record,if_pos configured]
    exact ⟨by rw [summaries]; exact same,by rw [metrics]; exact same_metric,written⟩
  | metric_set configured valid of_family checked summaries written auto_summary =>
    rw [Told.record,if_pos configured]
    constructor
    · rw [summaries]
      exact same
    · intro network
      rw [written,Keyed.lookup_put,same_metric]
      simp only [Function.update_apply]
    · rw [auto_summary]
      exact same_auto
  | metric_reset summaries written auto_summary =>
    constructor
    · rw [summaries]
      exact same
    · intro network
      rw [written,Keyed.lookup_remove aggregated.metrics_distinct,same_metric]
      simp only [Told.record,Function.update_apply]
    · rw [auto_summary]
      exact same_auto

/-- One command keeps the lists in order and the mirror true. -/
theorem step_keeps (aggregated : Aggregated policy) (mirrors : Mirrors policy told) (command : Command) :
    Aggregated (policy.step command).2 ∧ Mirrors (Told.hear (policy, told) command).1 (Told.hear (policy, told) command).2 := by
  cases done : policy.step command with
  | mk result next =>
    simp only [Told.hear,done]
    rcases step_config done with ⟨same,failed | silent⟩ | ⟨success,family,configures⟩
    · rw [if_neg failed]
      exact ⟨same.aggregated aggregated,same.mirrors mirrors⟩
    · rw [silent,ite_self]
      exact ⟨same.aggregated aggregated,same.mirrors mirrors⟩
    · rw [if_pos success]
      exact ⟨configures.aggregated family aggregated,configures.mirrors aggregated mirrors⟩

theorem last_command_holds (aggregated : Aggregated policy) (mirrors : Mirrors policy told) (commands : List Command) :
    Aggregated (policy.run commands) ∧ Mirrors (policy.run commands) (policy.told commands told) := by
  induction commands generalizing policy told with
  | nil => exact ⟨aggregated,mirrors⟩
  | cons command commands ih =>
    obtain ⟨kept,mirrored⟩ := step_keeps aggregated mirrors command
    exact ih kept mirrored

end Runs

/-! ## Aggregates as numbers -/

section Numbers
variable {afi : Afi} {network other : Portable.Prefix}

/-- A prefix in normal form spells a number without host bits. -/
theorem destination_address (valid : network.valid = true) (normal : network.normalize = network)
    (family : network.address.afi = some afi) :
    let host := 2 ^ (afi.max_bitlen - network.prefix_length.toNat)
    network.destination.address.toNat = network.destination.address.toNat / host * host := by
  intro host
  have within := (Portable.Prefix.valid_iff family).1 valid
  have spelled := Portable.destination_normalize family within
  rw [normal] at spelled
  have small := number_lt (network.address.bytes.toList.take afi.packet_address_bytes)
  have bytes := Portable.Prefix.packet_address_bytes_le afi
  generalize number (network.address.bytes.toList.take afi.packet_address_bytes) = spelling at spelled small
  have length : (network.address.bytes.toList.take afi.packet_address_bytes).length = afi.packet_address_bytes := by simp [bytes]
  have fits : spelling < 2 ^ 128 := by
    rw [length] at small
    calc spelling < 256 ^ afi.packet_address_bytes := small
      _ ≤ 256 ^ 16 := Nat.pow_le_pow_right (by omega) bytes
      _ = 2 ^ 128 := by norm_num
  have whole : spelling / host * host < 2 ^ 128 := lt_of_le_of_lt (Nat.div_mul_le_self _ _) fits
  have address : network.destination.address.toNat = spelling / host * host := by
    rw [spelled,Afi.prefix_normalize,BitVec.toNat_ofNat]
    exact Nat.mod_eq_of_lt whole
  have positive : 0 < host := Nat.two_pow_pos _
  rw [address,Nat.mul_div_cancel _ positive]

/-- The number and the length tell prefixes of a family apart when both are in normal form. -/
theorem destination_injective (valid : network.valid = true) (normal : network.normalize = network)
    (family : network.address.afi = some afi) (other_valid : other.valid = true) (other_normal : other.normalize = other)
    (other_family : other.address.afi = some afi) (same : network.destination = other.destination) : network = other := by
  have length : network.prefix_length = other.prefix_length := congrArg Prefix.prefix_length same
  have within := (Portable.Prefix.valid_iff family).1 valid
  rw [Portable.Prefix.max_bitlen_eq] at within
  have bytes := Portable.Prefix.packet_address_bytes_le afi
  have fits (key : Portable.Prefix) : number (key.address.bytes.toList.take afi.packet_address_bytes) < 2 ^ 128 := by
    have small := number_lt (key.address.bytes.toList.take afi.packet_address_bytes)
    rw [show (key.address.bytes.toList.take afi.packet_address_bytes).length = afi.packet_address_bytes by simp [bytes]] at small
    calc _ < 256 ^ afi.packet_address_bytes := small
      _ ≤ 256 ^ 16 := Nat.pow_le_pow_right (by omega) bytes
      _ = 2 ^ 128 := by norm_num
  have spelling := congrArg (fun destination => destination.address.toNat) same
  simp only [Portable.Prefix.destination,family,other_family,Portable.prefix_address_bytes,BitVec.toNat_ofNat,
    Nat.mod_eq_of_lt (fits _)] at spelling
  rw [← normal,← other_normal,Portable.Prefix.normalize_eq_iff valid other_valid]
  refine ⟨by rw [family,other_family],length,fun place before => ?_⟩
  have here := @number_bit _ network.address.bytes _ _ bytes (show 8 * afi.packet_address_bytes - 1 - place < 8 * afi.packet_address_bytes by omega)
  have there := @number_bit _ other.address.bytes _ _ bytes (show 8 * afi.packet_address_bytes - 1 - place < 8 * afi.packet_address_bytes by omega)
  rw [show 8 * afi.packet_address_bytes - 1 - (8 * afi.packet_address_bytes - 1 - place) = place by omega] at here there
  rw [← here,← there,spelling]

end Numbers

/-! ## The longest match -/

/-- An aggregate that a destination falls under. -/
def Covers (config : SummaryConfig) (destination : Prefix) (summary : Prefix × Option String) : Prop :=
  summary.1.prefix_length < destination.prefix_length ∧ config.afi.prefix_address_match summary.1 destination.address = true

/-- No two aggregates of one length have an address in common. -/
def Apart (config : SummaryConfig) : Prop :=
  ∀ one ∈ config.summaries, ∀ other ∈ config.summaries, ∀ destination, Covers config destination one → Covers config destination other →
    one.1.prefix_length = other.1.prefix_length → one = other

section Matches
variable {config other : SummaryConfig} {destination : Prefix} {summary : Prefix × Option String}

instance : Decidable (Covers config destination summary) := inferInstanceAs (Decidable (_ ∧ _))

theorem summary_match_eq : config.summary_match destination =
    (config.summaries.filter fun summary => Covers config destination summary).argmax fun summary => summary.1.prefix_length.toNat := by
  unfold SummaryConfig.summary_match
  induction config.summaries using List.reverseRecOn with
  | nil => rfl
  | append_singleton seen summary ih =>
    rw [List.foldl_append,List.foldl_cons,List.foldl_nil,ih]
    by_cases covers : Covers config destination summary
    · rw [List.filter_append,List.filter_cons_of_pos (by simpa using covers),List.filter_nil,List.argmax_concat]
      obtain ⟨shorter,inside⟩ := covers
      cases List.argmax (fun summary : Prefix × Option String => summary.1.prefix_length.toNat) _ with
      | none => simp [shorter,inside]
      | some best => simp [shorter,inside,UInt8.lt_iff_toNat_lt]
    · rw [List.filter_append,List.filter_cons_of_neg (by simpa using covers),List.filter_nil,List.append_nil]
      exact if_neg fun chosen => covers ⟨chosen.1,chosen.2.1⟩

/-- The walk over the aggregates ends at one that covers the destination and is not shorter than any that does. -/
theorem summary_match_longest (found : config.summary_match destination = some summary) :
    summary ∈ config.summaries ∧ Covers config destination summary ∧
      ∀ other ∈ config.summaries, Covers config destination other → other.1.prefix_length ≤ summary.1.prefix_length := by
  rw [summary_match_eq] at found
  obtain ⟨member,covers⟩ := List.mem_filter.mp (List.argmax_mem found)
  refine ⟨member,by simpa using covers,fun other other_member other_covers => ?_⟩
  have among : other ∈ config.summaries.filter fun summary => Covers config destination summary :=
    List.mem_filter.mpr ⟨other_member,by simpa using other_covers⟩
  have longest := List.le_of_mem_argmax among found
  exact UInt8.le_iff_toNat_le.mpr longest

theorem summary_match_none (missed : config.summary_match destination = none) :
    ∀ summary ∈ config.summaries, ¬ Covers config destination summary := by
  rw [summary_match_eq,List.argmax_eq_none,List.filter_eq_nil_iff] at missed
  simpa using missed

/-- Of aggregates that lie apart the longest one that covers the destination is found, wherever it is listed. -/
theorem summary_match_iff (apart : Apart config) :
    config.summary_match destination = some summary ↔ summary ∈ config.summaries ∧ Covers config destination summary ∧
      ∀ other ∈ config.summaries, Covers config destination other → other.1.prefix_length ≤ summary.1.prefix_length := by
  constructor
  · exact summary_match_longest
  · rintro ⟨member,covers,most⟩
    cases found : config.summary_match destination with
    | none => exact absurd covers (summary_match_none found summary member)
    | some other =>
      obtain ⟨other_member,other_covers,other_most⟩ := summary_match_longest found
      have lengths := UInt8.le_antisymm (most other other_member other_covers) (other_most summary member covers)
      rw [apart other other_member summary member destination other_covers covers lengths]

/-- The order in which aggregates are listed does not matter. -/
theorem summary_match_congr (apart : Apart config) (same : ∀ summary, summary ∈ config.summaries ↔ summary ∈ other.summaries)
    (family : config.afi = other.afi) : config.summary_match destination = other.summary_match destination := by
  have covers (summary : Prefix × Option String) : Covers config destination summary ↔ Covers other destination summary := by
    unfold Covers
    rw [family]
  have other_apart : Apart other := by
    intro one one_member two two_member destination one_covers two_covers
    refine apart one ((same one).mpr one_member) two ((same two).mpr two_member) destination ?_ ?_
    · exact ⟨one_covers.1,by rw [family]; exact one_covers.2⟩
    · exact ⟨two_covers.1,by rw [family]; exact two_covers.2⟩
  refine Option.ext fun summary => ?_
  rw [summary_match_iff apart,summary_match_iff other_apart,same,covers]
  simp only [same,covers]

end Matches

/-! ## The order of the commands -/

section Orders
variable {policy other : Policy} {told : Told} {address : Prefix} {permits : String → Prefix → Bool}

theorem mem_summaries {entry : Prefix × Option String} : entry ∈ (policy.config address permits).summaries ↔
    ∃ summary ∈ policy.summaries, summary.network.address.afi = some policy.afi ∧ entry = (summary.network.destination, summary.leak_map) := by
  simp only [Policy.config,List.mem_filterMap]
  refine exists_congr fun summary => and_congr_right fun _ => ?_
  unfold Summary.entry
  by_cases family : summary.network.address.afi = some policy.afi
  · rw [if_pos family,Option.some_inj,eq_comm]
    exact (and_iff_right family).symm
  · rw [if_neg family]
    simp [family]

theorem mem_metrics {entry : Prefix × Option MetricValues} : entry ∈ (policy.config address permits).metrics ↔
    ∃ metric ∈ policy.metrics, metric.network.address.afi = some policy.afi ∧
      entry = (metric.network.destination, if metric.config.metric_configured then some metric.config.metric else none) := by
  simp only [Policy.config,List.mem_filterMap]
  refine exists_congr fun metric => and_congr_right fun _ => ?_
  unfold MetricEntry.entry
  by_cases family : metric.network.address.afi = some policy.afi
  · rw [if_pos family,Option.some_inj,eq_comm]
    exact (and_iff_right family).symm
  · rw [if_neg family]
    simp [family]

/-- What is listed once and in normal form lies apart as soon as the lengths are the same. -/
theorem Aggregated.apart (aggregated : Aggregated policy) : Apart (policy.config address permits) := by
  intro one one_member two two_member destination one_covers two_covers lengths
  obtain ⟨first,first_member,first_family,rfl⟩ := mem_summaries.mp one_member
  obtain ⟨second,second_member,second_family,rfl⟩ := mem_summaries.mp two_member
  obtain ⟨first_valid,first_normal,_⟩ := aggregated.normal first first_member
  obtain ⟨second_valid,second_normal,_⟩ := aggregated.normal second second_member
  have first_address := destination_address first_valid first_normal first_family
  have second_address := destination_address second_valid second_normal second_family
  have length : first.network.prefix_length = second.network.prefix_length := lengths
  have inside := one_covers.2
  have other_inside := two_covers.2
  simp only [Policy.config,Afi.prefix_address_match,Bool.and_eq_true,beq_iff_eq] at inside other_inside
  have hosts : 2 ^ (policy.afi.max_bitlen - first.network.prefix_length.toNat) =
      2 ^ (policy.afi.max_bitlen - second.network.prefix_length.toNat) := by rw [length]
  have spelled : first.network.destination.address = second.network.destination.address := by
    refine BitVec.eq_of_toNat_eq ?_
    rw [first_address,second_address,← hosts]
    congr 1
    refine inside.2.trans (Eq.trans ?_ (hosts ▸ other_inside.2.symm))
    rfl
  have same : first.network.destination = second.network.destination := by
    rw [show first.network.destination = ⟨first.network.destination.address,first.network.prefix_length⟩ from rfl,spelled,length]
    rfl
  have networks := destination_injective first_valid first_normal first_family second_valid second_normal second_family same
  have one_entry := (Keyed.mem_iff aggregated.distinct).mp first_member
  have two_entry := (Keyed.mem_iff aggregated.distinct).mp second_member
  rw [networks,two_entry] at one_entry
  cases one_entry
  rfl

/-- A destination has one metric. -/
theorem Aggregated.metric_single (aggregated : Aggregated policy) : ∀ one ∈ (policy.config address permits).metrics,
    ∀ other ∈ (policy.config address permits).metrics, one.1 = other.1 → one = other := by
  intro one one_member two two_member same
  obtain ⟨first,first_member,first_family,rfl⟩ := mem_metrics.mp one_member
  obtain ⟨second,second_member,second_family,rfl⟩ := mem_metrics.mp two_member
  obtain ⟨first_valid,first_normal,_⟩ := aggregated.metrics_normal first first_member
  obtain ⟨second_valid,second_normal,_⟩ := aggregated.metrics_normal second second_member
  have networks := destination_injective first_valid first_normal first_family second_valid second_normal second_family same
  have one_entry := (Keyed.mem_iff aggregated.metrics_distinct).mp first_member
  have two_entry := (Keyed.mem_iff aggregated.metrics_distinct).mp second_member
  rw [networks,two_entry] at one_entry
  cases one_entry
  rfl

/-- Two configurations that read alike: the same aggregates, metrics and automatic summary in whatever order. -/
structure Alike (one other : SummaryConfig) : Prop where
  afi : one.afi = other.afi
  auto_summary : one.auto_summary = other.auto_summary
  address : one.address = other.address
  leak_map_permits : one.leak_map_permits = other.leak_map_permits
  apart : Apart one
  summaries : ∀ summary, summary ∈ one.summaries ↔ summary ∈ other.summaries
  metrics : ∀ destination, one.metrics.find? (fun entry => entry.1 = destination) = other.metrics.find? fun entry => entry.1 = destination

/-- Mirrors of one account read alike. -/
theorem Mirrors.alike (family : policy.afi = other.afi) (aggregated : Aggregated policy) (other_aggregated : Aggregated other)
    (mirrors : Mirrors policy told) (other_mirrors : Mirrors other told) :
    Alike (policy.config address permits) (other.config address permits) := by
  have summaries (summary : Summary) : summary ∈ policy.summaries ↔ summary ∈ other.summaries :=
    Keyed.mem_congr aggregated.distinct other_aggregated.distinct fun network => by rw [mirrors.summary,other_mirrors.summary]
  have metrics (entry : MetricEntry) : entry ∈ policy.metrics ↔ entry ∈ other.metrics :=
    Keyed.mem_congr aggregated.metrics_distinct other_aggregated.metrics_distinct fun network => by rw [mirrors.metric,other_mirrors.metric]
  refine ⟨family,mirrors.auto_summary.trans other_mirrors.auto_summary.symm,rfl,rfl,aggregated.apart,fun summary => ?_,fun destination => ?_⟩
  · rw [mem_summaries,mem_summaries,family]
    simp only [summaries]
  · refine Keyed.lookup_congr aggregated.metric_single fun entry => ?_
    rw [mem_metrics,mem_metrics,family]
    simp only [metrics]

namespace Alike
variable {one two : SummaryConfig} (alike : Alike one two)
include alike

theorem summary_match (destination : Prefix) : one.summary_match destination = two.summary_match destination :=
  summary_match_congr alike.apart alike.summaries alike.afi

theorem summary_destination (destination : Prefix) : one.summary_destination destination = two.summary_destination destination := by
  unfold SummaryConfig.summary_destination SummaryConfig.summary_auto_match
  rw [alike.summary_match,alike.auto_summary,alike.afi,alike.address]

theorem summary_specific_leak (destination : Prefix) : one.summary_specific_leak destination = two.summary_specific_leak destination := by
  unfold SummaryConfig.summary_specific_leak
  rw [alike.summary_match,alike.leak_map_permits]

theorem summary_route_build (ei : Nat) (eigrp : Instance) (pd : PrefixDescriptor) :
    one.summary_route_build ei eigrp pd = two.summary_route_build ei eigrp pd := by
  unfold SummaryConfig.summary_route_build SummaryConfig.summary_best SummaryConfig.summary_component
  simp only [alike.summary_destination,alike.afi,alike.metrics]

theorem summary_query_route_build (ei : Nat) (eigrp : Instance) (destination : Prefix) :
    one.summary_query_route_build ei eigrp destination = two.summary_query_route_build ei eigrp destination := by
  have configured : (one.summaries.any fun configured => configured.1 = destination) =
      two.summaries.any fun configured => configured.1 = destination := by
    rw [Bool.eq_iff_iff,List.any_eq_true,List.any_eq_true]
    simp only [alike.summaries]
  unfold SummaryConfig.summary_query_route_build SummaryConfig.query_component
  simp only [configured,alike.summary_route_build,alike.summary_destination,alike.summary_specific_leak,alike.afi]

end Alike

theorem run_afi (commands : List Command) : (policy.run commands).afi = policy.afi := by
  induction commands generalizing policy with
  | nil => rfl
  | cons command commands ih =>
    rw [Policy.run,List.foldl_cons]
    refine ih.trans ?_
    cases done : policy.step command with
    | mk result next =>
      rcases step_config done with ⟨same,_⟩ | ⟨_,family,_⟩
      · exact same.afi
      · exact family

/-- An address family without aggregates. -/
def unconfigured (afi : Afi) (eigrp : Instance) : Policy := { afi, eigrp }

theorem unconfigured_mirrors (afi : Afi) (eigrp : Instance) :
    Aggregated (unconfigured afi eigrp) ∧ Mirrors (unconfigured afi eigrp) {} :=
  ⟨⟨List.nodup_nil,by simp [unconfigured],List.nodup_nil,by simp [unconfigured,Policy.metrics]⟩,⟨fun _ => rfl,fun _ => rfl,rfl⟩⟩

/-- The aggregate 10.0.0.0/8, and 10.1.0.0/16 under it. -/
def major : Portable.Prefix := Networks.ten

def region : Portable.Prefix := ⟨⟨some .ipv4,#v[10,1,0,0,0,0,0,0,0,0,0,0,0,0,0,0]⟩,16⟩

def aggregate (network : Portable.Prefix) : Command := .create {} {} network none

/-- After any commands on an address family each aggregate and each metric that is in force is listed once and in normal form, with what
    the last successful command said of it, and nothing else is listed. -/
theorem commands_mirrored (afi : Afi) (eigrp : Instance) (commands : List Command) :
    Aggregated ((unconfigured afi eigrp).run commands) ∧
      Mirrors ((unconfigured afi eigrp).run commands) ((unconfigured afi eigrp).told commands {}) := by
  obtain ⟨empty,nothing_told⟩ := unconfigured_mirrors afi eigrp
  exact last_command_holds empty nothing_told commands

/-- Whatever commands succeed or fail in whatever order: what is advertised and answered rests on the last successful one for each
    aggregate and each metric. -/
theorem aggregates_order_free (afi : Afi) (eigrp : Instance) (commands others : List Command)
    (agree : (unconfigured afi eigrp).told commands {} = (unconfigured afi eigrp).told others {}) :
    let one := ((unconfigured afi eigrp).run commands).config address permits
    let two := ((unconfigured afi eigrp).run others).config address permits
    (∀ destination, one.summary_destination destination = two.summary_destination destination ∧
      one.summary_specific_leak destination = two.summary_specific_leak destination) ∧
    (∀ ei topology pd, one.summary_route_build ei topology pd = two.summary_route_build ei topology pd) ∧
    ∀ ei topology destination,
      one.summary_query_route_build ei topology destination = two.summary_query_route_build ei topology destination := by
  intro one two
  obtain ⟨empty,nothing_told⟩ := unconfigured_mirrors afi eigrp
  obtain ⟨aggregated,mirrors⟩ := last_command_holds empty nothing_told commands
  obtain ⟨other_aggregated,other_mirrors⟩ := last_command_holds empty nothing_told others
  rw [← agree] at other_mirrors
  have alike : Alike one two := mirrors.alike (by rw [run_afi,run_afi]) aggregated other_aggregated other_mirrors
  exact ⟨fun destination => ⟨alike.summary_destination destination,alike.summary_specific_leak destination⟩,
    alike.summary_route_build,alike.summary_query_route_build⟩

/-- Two aggregates in either order. -/
theorem told_nested : (unconfigured .ipv4 {}).told [aggregate major, aggregate region] {} =
    (unconfigured .ipv4 {}).told [aggregate region, aggregate major] {} := by
  have both (first second : Portable.Prefix) (success : ((unconfigured .ipv4 {}).step (aggregate first)).1 = .success)
      (again : (((unconfigured .ipv4 {}).step (aggregate first)).2.step (aggregate second)).1 = .success) :
      (unconfigured .ipv4 {}).told [aggregate first, aggregate second] {} = (Told.record {} (aggregate first)).record (aggregate second) := by
    simp only [Policy.told,List.foldl_cons,List.foldl_nil,Told.hear,success,again,if_true]
  rw [both major region (by decide +kernel) (by decide +kernel),both region major (by decide +kernel) (by decide +kernel)]
  simp only [Told.record,aggregate]
  rw [Function.update_comm (by decide +kernel)]

theorem aggregates_order_free_nested :
    let one := ((unconfigured .ipv4 {}).run [aggregate major, aggregate region]).config ⟨0,0⟩ fun _ _ => false
    let two := ((unconfigured .ipv4 {}).run [aggregate region, aggregate major]).config ⟨0,0⟩ fun _ _ => false
    (∀ destination, one.summary_destination destination = two.summary_destination destination ∧
      one.summary_specific_leak destination = two.summary_specific_leak destination) ∧
    (∀ ei topology pd, one.summary_route_build ei topology pd = two.summary_route_build ei topology pd) ∧
    ∀ ei topology destination,
      one.summary_query_route_build ei topology destination = two.summary_query_route_build ei topology destination :=
  aggregates_order_free .ipv4 {} _ _ told_nested

end Orders

/-! ## The answer at an aggregate -/

/-- The destinations of the table, in its order. -/
def tabled (eigrp : Instance) : List PrefixDescriptor := eigrp.topology_table.filterMap eigrp.descriptor

/-- A route that an aggregate may stand on: reachable, of a more specific destination, and not learned on the interface on
    which the aggregate is told. -/
structure Supports (config : SummaryConfig) (ei : Nat) (summary : Prefix) (pd : PrefixDescriptor) (route : RouteDescriptor) : Prop where
  longer : summary.prefix_length < pd.destination.prefix_length
  inside : config.afi.prefix_address_match summary pd.destination.address = true
  read : route_read pd = some route
  reachable : route.distance ≠ max_distance
  elected : pd.distance ≠ max_distance ∨
    pd.nt = .connected ∧ pd.state = .passive ∧ pd.fdistance ≠ max_distance ∧ route.adv_router = some .self
  metric : route.metric.delay ≠ max_metric
  total_metric : route.total_metric.delay ≠ max_metric
  horizon : route.ei = some ei → route.adv_router = some .self

/-- The vector that is told for an aggregate: the one configured, or the one of the nearest support, or none. -/
def Honest (config : SummaryConfig) (ei : Nat) (eigrp : Instance) (summary : Prefix) (route : RouteDescriptor) : Prop :=
  (∃ pd ∈ tabled eigrp, ∃ support, Supports config ei summary pd support ∧
    (∀ other ∈ tabled eigrp, ∀ further, Supports config ei summary other further → support.distance ≤ further.distance) ∧
    route.metric = ((config.metrics.find? fun entry => entry.1 = summary).bind (·.2)).elim support.total_metric metric_values_convert) ∨
  (∀ pd ∈ tabled eigrp, ∀ support, ¬ Supports config ei summary pd support) ∧ route.metric.delay = max_metric

section Answers
variable {config : SummaryConfig} {ei : Nat} {eigrp : Instance} {summary destination : Prefix} {pd : PrefixDescriptor}
  {route : RouteDescriptor}

theorem summary_component_iff : config.summary_component ei summary pd = some route ↔ Supports config ei summary pd route := by
  unfold SummaryConfig.summary_component
  constructor
  · intro found
    split_ifs at found with passed
    simp only [not_or,not_and,not_not] at passed
    obtain ⟨near,longer,inside⟩ := passed
    obtain ⟨read,usable⟩ := Option.filter_eq_some_iff.mp found
    simp only [decide_eq_true_eq,not_or,not_and,not_not] at usable
    obtain ⟨reachable,local_only,metric,total_metric,horizon⟩ := usable
    refine ⟨UInt8.not_le.mp longer,inside,read,reachable,?_,metric,total_metric,horizon⟩
    by_cases far : pd.distance = max_distance
    · exact .inr ⟨near far,local_only far⟩
    · exact .inl far
  · rintro ⟨longer,inside,read,reachable,elected,metric,total_metric,horizon⟩
    rw [if_neg]
    · refine Option.filter_eq_some_iff.mpr ⟨read,?_⟩
      rw [decide_eq_true_eq]
      simp only [not_or,not_and,not_not]
      refine ⟨reachable,fun far => ?_,metric,total_metric,horizon⟩
      rcases elected with near | ⟨_,passive,feasible,own⟩
      · exact absurd far near
      · exact ⟨passive,feasible,own⟩
    · simp only [not_or,not_and,not_not]
      refine ⟨fun far => ?_,UInt8.not_le.mpr longer,inside⟩
      rcases elected with near | ⟨connected,_⟩
      · exact absurd far near
      · exact connected

theorem summary_best_eq : config.summary_best ei summary eigrp =
    ((tabled eigrp).filterMap (config.summary_component ei summary)).argmin fun route => route.distance.toNat := by
  unfold SummaryConfig.summary_best tabled
  induction List.filterMap (config.summary_component ei summary) _ using List.reverseRecOn with
  | nil => rfl
  | append_singleton seen route ih =>
    rw [List.foldl_append,List.foldl_cons,List.foldl_nil,ih,List.argmin_concat]
    cases List.argmin (fun route : RouteDescriptor => route.distance.toNat) seen with
    | none => rfl
    | some best => simp [UInt32.lt_iff_toNat_lt]

theorem summary_best_none : config.summary_best ei summary eigrp = none ↔
    ∀ pd ∈ tabled eigrp, ∀ support, ¬ Supports config ei summary pd support := by
  rw [summary_best_eq,List.argmin_eq_none,List.filterMap_eq_nil_iff]
  refine forall₂_congr fun pd _ => ?_
  rw [Option.eq_none_iff_forall_not_mem]
  exact forall_congr' fun support => not_congr summary_component_iff

/-- The support that is taken is as near as any. -/
theorem summary_best_nearest (found : config.summary_best ei summary eigrp = some route) :
    ∃ pd ∈ tabled eigrp, Supports config ei summary pd route ∧
      ∀ other ∈ tabled eigrp, ∀ further, Supports config ei summary other further → route.distance ≤ further.distance := by
  rw [summary_best_eq] at found
  obtain ⟨pd,member,supports⟩ := List.mem_filterMap.mp (List.argmin_mem found)
  refine ⟨pd,member,summary_component_iff.mp supports,fun other other_member further further_supports => ?_⟩
  have among := List.mem_filterMap.mpr ⟨other,other_member,summary_component_iff.mpr further_supports⟩
  have nearest := List.le_of_mem_argmin among found
  exact UInt32.le_iff_toNat_le.mpr nearest

/-- What is built for a destination under an aggregate is told of the aggregate, and honestly. -/
theorem summary_route_build_honest {dest : Prefix} (built : config.summary_route_build ei eigrp pd = some (dest, route)) :
    config.summary_destination pd.destination = some dest ∧ route.adv_router = some .self ∧ Honest config ei eigrp dest route := by
  obtain ⟨summary,found,same⟩ := Option.map_eq_some_iff.mp built
  obtain ⟨rfl,rfl⟩ := Prod.mk.inj same
  refine ⟨found,rfl,?_⟩
  cases best : config.summary_best ei summary eigrp with
  | none => exact .inr ⟨summary_best_none.mp best,rfl⟩
  | some support =>
    obtain ⟨pd,member,supports,nearest⟩ := summary_best_nearest best
    refine .inl ⟨pd,member,support,supports,nearest,?_⟩
    dsimp only
    cases (config.metrics.find? fun entry => entry.1 = summary).bind (·.2) <;> rfl

/-- A prefix that contains an address contains the longer ones that do. -/
theorem match_shorter {afi : Afi} {outer inner : Prefix} {address : BitVec 128} (longer : outer.prefix_length ≤ inner.prefix_length)
    (inside : afi.prefix_address_match inner address = true) (outside : afi.prefix_address_match outer address = true) :
    afi.prefix_address_match outer inner.address = true := by
  simp only [Afi.prefix_address_match,Bool.and_eq_true,decide_eq_true_eq,beq_iff_eq] at inside outside ⊢
  obtain ⟨within,same⟩ := inside
  obtain ⟨outer_within,outer_same⟩ := outside
  have lengths := UInt8.le_iff_toNat_le.mp longer
  refine ⟨outer_within,?_⟩
  have hosts : 2 ^ (afi.max_bitlen - outer.prefix_length.toNat) =
      2 ^ (afi.max_bitlen - inner.prefix_length.toNat) * 2 ^ (inner.prefix_length.toNat - outer.prefix_length.toNat) := by
    rw [← pow_add]
    congr 1
    omega
  rw [outer_same,hosts,← Nat.div_div_eq_div_mul,← Nat.div_div_eq_div_mul,same]

/-- The destination of the table at which the walk of a QUERY for an aggregate stops. -/
def asked (config : SummaryConfig) (eigrp : Instance) (destination : Prefix) : Option PrefixDescriptor :=
  (tabled eigrp).find? fun pd => config.query_component destination pd ∧ (route_read pd).isSome

theorem query_component_iff : config.query_component destination pd = true ↔
    (pd.distance = max_distance → pd.nt = .connected) ∧ destination.prefix_length < pd.destination.prefix_length ∧
      config.afi.prefix_address_match destination pd.destination.address = true := by
  simp only [SummaryConfig.query_component,decide_eq_true_eq,not_or,not_and,not_not,UInt8.not_le]

theorem Supports.stops (supports : Supports config ei destination pd route) :
    config.query_component destination pd = true ∧ (route_read pd).isSome = true := by
  refine ⟨query_component_iff.mpr ⟨fun far => ?_,supports.longer,supports.inside⟩,by rw [supports.read]; rfl⟩
  rcases supports.elected with near | ⟨connected,_⟩
  · exact absurd far near
  · exact connected

theorem findSome_eq {α β : Type} {items : List α} {test : α → Bool} {build : α → Option β}
    (builds : ∀ item ∈ items, test item → (build item).isSome) :
    (items.findSome? fun item => if test item then build item else none) = (items.find? test).bind build := by
  induction items with
  | nil => rfl
  | cons first rest ih =>
    have behind := ih fun item member => builds item (List.mem_cons_of_mem _ member)
    by_cases here : test first = true
    · obtain ⟨built,found⟩ := Option.isSome_iff_exists.mp (builds first List.mem_cons_self here)
      simp [here,found]
    · simp [here,behind]

/-- A QUERY for an aggregate is always answered and never passed on. The answer is of the longest aggregate around the first destination
    that the walk stops at: of the one that was asked exactly when no longer one is configured there. -/
theorem aggregate_answered (apart : Apart config) {leak : Option String} (configured : (destination, leak) ∈ config.summaries) :
    ∃ answered route, config.summary_query_route_build ei eigrp destination = some (answered, route) ∧
      route.adv_router = some .self ∧ Honest config ei eigrp answered route ∧
      (answered = destination ∨ (∃ leak, (answered, leak) ∈ config.summaries) ∧ destination.prefix_length < answered.prefix_length ∧
        config.afi.prefix_address_match destination answered.address = true) ∧
      (answered = destination ↔ ∀ first ∈ asked config eigrp destination, ∀ nested ∈ config.summaries,
        Covers config first.destination nested → nested.1.prefix_length ≤ destination.prefix_length) := by
  have listed : (config.summaries.any fun configured => configured.1 = destination) = true :=
    List.any_eq_true.mpr ⟨_,configured,by simp⟩
  have longest {component : PrefixDescriptor} (stops : config.query_component destination component = true) :
      ∃ summary, config.summary_match component.destination = some summary := by
    obtain ⟨_,longer,inside⟩ := query_component_iff.mp stops
    cases found : config.summary_match component.destination with
    | some summary => exact ⟨summary,rfl⟩
    | none => exact absurd ⟨longer,inside⟩ (summary_match_none found _ configured)
  have walk : ((tabled eigrp).findSome? fun component =>
      if config.query_component destination component ∧ (route_read component).isSome then config.summary_route_build ei eigrp component
      else none) = (asked config eigrp destination).bind (config.summary_route_build ei eigrp) := by
    have found := @findSome_eq _ _ (tabled eigrp) (fun pd => config.query_component destination pd ∧ (route_read pd).isSome)
      (config.summary_route_build ei eigrp) fun component _ stops => by
        obtain ⟨summary,matched⟩ := longest (of_decide_eq_true stops).1
        simp [SummaryConfig.summary_route_build,SummaryConfig.summary_destination,matched]
    simpa [asked] using found
  unfold SummaryConfig.summary_query_route_build
  rw [if_pos listed,show eigrp.topology_table.filterMap eigrp.descriptor = tabled eigrp from rfl,walk]
  cases first : asked config eigrp destination with
  | none =>
    refine ⟨destination,_,rfl,rfl,.inr ⟨fun pd member support supports => ?_,rfl⟩,.inl rfl,by simp⟩
    have stops := List.find?_eq_none.mp first pd member
    exact stops (by simpa using supports.stops)
  | some component =>
    have stops : config.query_component destination component = true ∧ (route_read component).isSome = true := by
      simpa using List.find?_some first
    obtain ⟨_,longer,inside⟩ := query_component_iff.mp stops.1
    obtain ⟨summary,matched⟩ := longest stops.1
    obtain ⟨member,covers,most⟩ := summary_match_longest matched
    have found : config.summary_destination component.destination = some summary.1 := by
      rw [SummaryConfig.summary_destination,matched]
    obtain ⟨⟨dest,route⟩,built⟩ : ∃ built, config.summary_route_build ei eigrp component = some built :=
      ⟨_,by rw [SummaryConfig.summary_route_build,found]; rfl⟩
    obtain ⟨told,own,honest⟩ := summary_route_build_honest built
    obtain rfl : summary.1 = dest := Option.some_inj.mp (found.symm.trans told)
    have at_least := most _ configured ⟨longer,inside⟩
    have same_or_longer : summary.1 = destination ∨ destination.prefix_length < summary.1.prefix_length := by
      by_cases equal : destination.prefix_length = summary.1.prefix_length
      · exact .inl (congrArg Prod.fst (apart _ member _ configured component.destination covers ⟨longer,inside⟩ equal.symm))
      · exact .inr (UInt8.lt_of_le_of_ne at_least equal)
    refine ⟨summary.1,route,by simp [built],own,honest,?_,?_⟩
    · refine same_or_longer.imp_right fun nested => ⟨⟨summary.2,member⟩,nested,?_⟩
      exact match_shorter (UInt8.le_of_lt nested) covers.2 inside
    · constructor
      · rintro same _ ⟨⟩ nested nested_member nested_covers
        rw [← same]
        exact most nested nested_member nested_covers
      · intro flat
        refine same_or_longer.resolve_right fun nested => ?_
        exact UInt8.not_lt.mpr (flat component rfl summary member covers) nested

/-- 10.0.0.0/8 and 10.1.0.0/16 on one interface. -/
def nested : SummaryConfig := ((unconfigured .ipv4 {}).run [aggregate major, aggregate region]).config ⟨0,0⟩ fun _ _ => false

/-- A table with the connected 10.1.1.0/24 alone: a QUERY for 10.0.0.0/8 is answered of 10.1.0.0/16. -/
def inner_table : Instance where
  prefixes := [{ id := 0, destination := ⟨0x0a010100#128,24⟩, fdistance := 100, distance := 100
                 internal_routes := [{ id := 0, adv_router := some .self, distance := 100, ei := some 1 }] }]
  topology_table := [0]

theorem aggregate_answered_nested :
    ∃ answered route, nested.summary_query_route_build 0 inner_table major.destination = some (answered, route) ∧
      route.adv_router = some .self ∧ Honest nested 0 inner_table answered route ∧
      (answered = major.destination ∨ (∃ leak, (answered, leak) ∈ nested.summaries) ∧
        major.destination.prefix_length < answered.prefix_length ∧
        nested.afi.prefix_address_match major.destination answered.address = true) ∧
      (answered = major.destination ↔ ∀ first ∈ asked nested inner_table major.destination, ∀ inner ∈ nested.summaries,
        Covers nested first.destination inner → inner.1.prefix_length ≤ major.destination.prefix_length) :=
  have kept := (last_command_holds (unconfigured_mirrors .ipv4 {}).1 (unconfigured_mirrors .ipv4 {}).2
    [aggregate major, aggregate region]).1
  aggregate_answered kept.apart (show (major.destination, none) ∈ nested.summaries by decide +kernel)

example : (nested.summary_query_route_build 0 inner_table major.destination).map (·.1) = some region.destination := by decide +kernel

end Answers

/-! ## What the commands do to the instance -/

/-- A descriptor as it was, or marked while PASSIVE. -/
def Refreshed (before after : PrefixDescriptor) : Prop :=
  after = before ∨ before.state = .passive ∧ after = { before with need_update := true }

/-- An instance that only has more to announce. -/
structure Announces (before after : Instance) : Prop where
  rest : after = { before with prefixes := after.prefixes, topology_changes := after.topology_changes, packetizer := after.packetizer }
  prefixes : List.Forall₂ Refreshed before.prefixes after.prefixes
  changes : before.topology_changes <+: after.topology_changes
  packetizer : before.packetizer <+: after.packetizer

/-- A destination is marked, and the packetizer will come to it. -/
def Marked (eigrp : Instance) (id : Nat) : Prop :=
  id ∈ eigrp.topology_changes ∧ ∃ pd, eigrp.descriptor id = some pd ∧ pd.need_update = true

section Instances
variable {before after eigrp : Instance} {id : Nat}

theorem Refreshed.same {before after : PrefixDescriptor} (refreshed : Refreshed before after) :
    after.id = before.id ∧ after.state = before.state ∧ (before.need_update = true → after.need_update = true) := by
  rcases refreshed with rfl | ⟨_,rfl⟩
  · exact ⟨rfl,rfl,fun needs => needs⟩
  · exact ⟨rfl,rfl,fun _ => rfl⟩

theorem Announces.refl (eigrp : Instance) : Announces eigrp eigrp :=
  ⟨rfl,List.forall₂_same.mpr fun _ _ => .inl rfl,List.prefix_rfl,List.prefix_rfl⟩

theorem Announces.trans {next : Instance} (first : Announces before after) (second : Announces after next) : Announces before next := by
  refine ⟨?_,?_,first.changes.trans second.changes,first.packetizer.trans second.packetizer⟩
  · rw [second.rest,first.rest]
  · have through {one two three : List PrefixDescriptor} (here : List.Forall₂ Refreshed one two) (there : List.Forall₂ Refreshed two three) :
        List.Forall₂ Refreshed one three := by
      induction here generalizing three with
      | nil =>
        cases there
        exact .nil
      | cons refreshed _ ih =>
        cases there with
        | cons again behind =>
          refine .cons ?_ (ih behind)
          rcases again with rfl | ⟨passive,rfl⟩
          · exact refreshed
          · rcases refreshed with rfl | ⟨was_passive,rfl⟩
            · exact .inr ⟨passive,rfl⟩
            · exact .inr ⟨was_passive,rfl⟩
    exact through first.prefixes second.prefixes

theorem Announces.descriptor (announces : Announces before after) {pd : PrefixDescriptor} (found : before.descriptor id = some pd) :
    ∃ next, after.descriptor id = some next ∧ Refreshed pd next := by
  have prefixes := announces.prefixes
  unfold Instance.descriptor at found ⊢
  generalize before.prefixes = olds at prefixes found
  generalize after.prefixes = news at prefixes
  induction prefixes with
  | nil => cases found
  | cons refreshed _ ih =>
    rename_i first next _ _ _
    by_cases here : first.id = id
    · rw [List.find?_cons_of_pos (by simpa using here)] at found
      cases found
      exact ⟨next,List.find?_cons_of_pos (by simpa [refreshed.same.1] using here),refreshed⟩
    · rw [List.find?_cons_of_neg (by simpa using here)] at found
      rw [List.find?_cons_of_neg (by simpa [refreshed.same.1] using here)]
      exact ih found

theorem Announces.marked (announces : Announces before after) (marked : Marked before id) : Marked after id := by
  obtain ⟨listed,pd,found,needs⟩ := marked
  obtain ⟨next,next_found,refreshed⟩ := announces.descriptor found
  exact ⟨announces.changes.subset listed,next,next_found,refreshed.same.2.2 needs⟩

def Command.context : Command → Context
  | .create _ context _ _ | .delete _ context _ | .auto _ _ context | .metric_set _ context _ _ | .metric_reset context _ => context

end Instances

end Summaries
end Eigrp
