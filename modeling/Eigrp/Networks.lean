import Mathlib.Data.List.MinMax
import Eigrp.Portable

/-!
# Networks

`eigrp_network.c` with the choice of the router id and the interfaces that are started and stopped: a network statement
puts EIGRP on the interfaces of the host whose address it covers, and the host tells of its interfaces one event at a time.
-/

namespace Eigrp
namespace Networks

/-! ## The address family -/

inductive Result where
  | success
  | invalid_argument
  | not_found
  | unsupported
  | internal_failure
deriving DecidableEq

/-- `eigrp_intf_runtime_state_t`: what the host tells of an interface and one of its addresses. -/
structure RuntimeState where
  interface_name : String
  ifindex : UInt32
  address : Portable.Prefix
  type : UInt8 := 2
  operative : Bool := true
  secondary : Bool := false
  bandwidth : UInt32 := 0
  mtu : UInt32 := 1500

/-- `eigrp_intf_t`; `t_hello` says whether the hello timer is armed, that is whether the interface runs. -/
structure Intf where
  id : Nat
  name : String
  ifindex : UInt32
  address : Portable.Prefix
  type : UInt8
  params_type : UInt8
  operative : Bool
  curr_bandwidth : UInt32
  curr_mtu : UInt32
  t_hello : Bool := false

/-- `eigrp_intf_config_t`. -/
structure IntfConfig where
  interface_name : String
  shutdown_configured : Bool := false
  shutdown : Bool := false
  passive_configured : Bool := false
  passive : Bool := false
deriving DecidableEq

/-- `eigrp_af_config_t` and its runtime `eigrp_instance_t`; `parent_shutdown` is the one of `eigrp_named_config_t`. -/
structure AddressFamily where
  afi : Afi := .ipv4
  configured : List Portable.Prefix := []
  interfaces : List IntfConfig := []
  shutdown : Bool := false
  parent_shutdown : Bool := false
  networks : List Portable.Prefix := []
  router_id_static : UInt32 := 0
  router_id : UInt32 := 0
  eiflist : List Intf := []
  next_id : Nat := 0

/-- The memory of the host: for a configured network, for one in force, for the name of an interface, for its place in the list,
    for a timer. -/
structure Memory where
  configured : Bool := true
  networks : Bool := true
  name : String → Bool := fun _ => true
  place : String → Bool := fun _ => true
  timer : Nat → Bool := fun _ => true

/-- What a call finds: the memory, and the interfaces that `eigrp_sys_interface_walk` visits, if it can. -/
structure Host where
  memory : Memory := {}
  walk : Option (List RuntimeState) := some []

/-- `eigrp_instance_context_t`: which of the two views a call is handed. -/
structure Context where
  config : Bool := true
  runtime : Bool := true

def iftype_loopback : UInt8 := 5

namespace AddressFamily

/-- `eigrp_intf_lookup_by_ifindex`. -/
def lookup_by_ifindex (af : AddressFamily) (ifindex : UInt32) : Option Intf :=
  if ifindex = 0 then none else af.eiflist.find? fun ei => ei.ifindex = ifindex

/-- `eigrp_intf_lookup_by_name`. -/
def lookup_by_name (af : AddressFamily) (name : String) : Option Intf := af.eiflist.find? fun ei => ei.name = name

/-- `eigrp_intf_config_read`. -/
def config_read (af : AddressFamily) (name : String) : Option IntfConfig :=
  if name = "" then none else af.interfaces.find? fun config => config.interface_name = name

/-- `eigrp_intf_config_shutdown_effective`. -/
def config_shutdown_effective (af : AddressFamily) (specific : Option IntfConfig) : Bool :=
  match specific.filter (·.shutdown_configured) with
  | some config => config.shutdown
  | none => (af.config_read "default").any fun defaults => defaults.shutdown_configured && defaults.shutdown

/-- `eigrp_intf_shutdown_effective`. -/
def shutdown_effective (af : AddressFamily) (name : String) : Bool := af.config_shutdown_effective (af.config_read name)

/-- Writes to an interface. -/
def write (af : AddressFamily) (id : Nat) (change : Intf → Intf) : AddressFamily :=
  { af with eiflist := af.eiflist.map fun ei => if ei.id = id then change ei else ei }

end AddressFamily

/-! ## Which interfaces are enabled -/

/-- `IN6_IS_ADDR_LINKLOCAL`. -/
def linklocal (bytes : Vector UInt8 16) : Bool := bytes[0] == 0xfe && bytes[1] &&& 0xc0 == 0x80

/-- `IN6_IS_ADDR_LINKLOCAL`, `IN6_IS_ADDR_MULTICAST`, `IN6_IS_ADDR_UNSPECIFIED`, `IN6_IS_ADDR_LOOPBACK`. -/
def special (bytes : Vector UInt8 16) : Bool :=
  linklocal bytes || bytes[0] == 0xff || bytes.toList.take 15 == List.replicate 15 0 && (bytes[15] == 0 || bytes[15] == 1)

/-- `eigrp_network_runtime_matches`. -/
def network_runtime_matches (af : AddressFamily) (connected : Portable.Prefix) : Bool :=
  connected.valid && connected.address.afi == some af.afi &&
    match af.afi with
    | .ipv6 => linklocal connected.address.bytes
    | .ipv4 => af.networks.any fun network => network.address_match connected.address

/-- `eigrp_network_ipv6_passive_connected`. -/
def network_ipv6_passive_connected (af : AddressFamily) (state : RuntimeState) : Bool :=
  af.afi == .ipv6 && state.address.address.afi == some .ipv6 && !special state.address.address.bytes &&
    (af.config_read state.interface_name).any fun config => config.passive_configured && config.passive

/-- `eigrp_network_interface_enabled`. -/
def network_interface_enabled (af : AddressFamily) (state : RuntimeState) : Bool :=
  network_runtime_matches af state.address || network_ipv6_passive_connected af state

/-! ## An interface -/

section Interfaces
variable (memory : Memory) (af : AddressFamily) (ei : Intf) (state : RuntimeState)

/-- `eigrp_intf_runtime_state_update`: the name stays when there is no memory for the new one. -/
def intf_runtime_state_update : Intf :=
  { ei with
    name := if ei.name ≠ state.interface_name ∧ memory.name state.interface_name then state.interface_name else ei.name
    ifindex := state.ifindex
    address := if state.address.valid then state.address else ei.address
    type := state.type
    operative := state.operative
    curr_bandwidth := state.bandwidth
    curr_mtu := state.mtu }

/-- `eigrp_intf_runtime_state_update_values`. -/
def intf_runtime_state_update_values : Intf := { intf_runtime_state_update memory ei state with params_type := state.type }

/-- `eigrp_intf_up`, as far as the interface runs. -/
def intf_up : Intf := { ei with t_hello := memory.timer ei.id }

/-- `eigrp_intf_down`. -/
def intf_down : Intf := { ei with t_hello := false }

/-- The interface that `eigrp_intf_runtime_create` publishes. -/
def intf_created : Intf :=
  { id := af.next_id, name := state.interface_name, ifindex := state.ifindex, address := state.address, type := state.type
    params_type := state.type, operative := state.operative, curr_bandwidth := state.bandwidth, curr_mtu := state.mtu }

/-- `eigrp_intf_runtime_create`. An interface that gets no place in the list goes on for its caller, but nothing finds it again; it is
    not followed here. -/
def intf_runtime_create : Option (Nat × AddressFamily) :=
  if state.interface_name = "" ∨ ¬ state.address.valid then none
  else
    match (af.lookup_by_ifindex state.ifindex).or (af.lookup_by_name state.interface_name) with
    | some ei => some (ei.id,af.write ei.id fun ei => intf_runtime_state_update memory ei state)
    | none =>
      if memory.name state.interface_name then
        let listed := if memory.place state.interface_name then [intf_created af state] else []
        some (af.next_id,{ af with eiflist := af.eiflist ++ listed, next_id := af.next_id + 1 })
      else none

/-- The update of the state in `eigrp_intf_runtime_update`: of the interface with the index, or of the created one. -/
def intf_runtime_present : Option (Nat × AddressFamily) :=
  match af.lookup_by_ifindex state.ifindex with
  | some ei => some (ei.id,af.write ei.id fun ei => intf_runtime_state_update_values memory ei state)
  | none => intf_runtime_create memory af state

/-- `eigrp_intf_runtime_update` with `EIGRP_SET`. Whether the interface runs is asked of the index only. -/
def intf_runtime_update : Result × AddressFamily :=
  if state.interface_name = "" ∨ ¬ state.address.valid then (.invalid_argument,af)
  else
    let known := af.lookup_by_ifindex state.ifindex
    let was_running := known.any (·.t_hello)
    let old_mtu := known.elim state.mtu (·.curr_mtu)
    match intf_runtime_present memory af state with
    | none => (.internal_failure,af)
    | some (id,af) =>
      let config := (af.config_read state.interface_name).or (af.config_read "default")
      if af.shutdown ∨ af.config_shutdown_effective config ∨ ¬ state.operative then
        (.success,if was_running then af.write id intf_down else af)
      else if was_running ∧ old_mtu ≠ state.mtu then (.success,af.write id fun ei => intf_up memory (intf_down ei))
      else if was_running then (.success,af)
      else (.success,af.write id (intf_up memory))

/-- `eigrp_network_intf_walk_update`. -/
def network_intf_walk_update : AddressFamily :=
  if state.secondary ∨ af.router_id = 0 ∨ ¬ network_interface_enabled af state then af else (intf_runtime_update memory af state).2

end Interfaces

/-! ## The router id -/

section Host
variable (host : Host) (af : AddressFamily)

/-- `eigrp_network_intfs_update`. -/
def network_intfs_update : AddressFamily :=
  if af.router_id = 0 then af else (host.walk.getD []).foldl (network_intf_walk_update host.memory) af

/-- `struct eigrp_router_id_select`. -/
structure RouterIdSelect where
  loopback_ifindex : UInt32 := 0
  physical_ifindex : UInt32 := 0
  loopback : UInt32 := 0
  physical : UInt32 := 0
deriving DecidableEq

/-- `ntohl` of the first octets of an address. -/
def host_address (bytes : Vector UInt8 16) : UInt32 :=
  bytes[0].toUInt32 <<< 24 ||| bytes[1].toUInt32 <<< 16 ||| bytes[2].toUInt32 <<< 8 ||| bytes[3].toUInt32

/-- What `eigrp_router_id_ipv4_candidate_read` asks before it compares. -/
def router_id_eligible (state : RuntimeState) : Bool :=
  state.address.address.afi == some .ipv4 && !state.secondary && state.operative &&
    host_address state.address.address.bytes != 0 && host_address state.address.address.bytes != 0xffffffff

/-- `eigrp_router_id_ipv4_candidate_read`. -/
def router_id_ipv4_candidate_read (selection : RouterIdSelect) (state : RuntimeState) : RouterIdSelect :=
  if router_id_eligible state then
    if state.type = iftype_loopback then
      if selection.loopback_ifindex = 0 ∨ state.ifindex < selection.loopback_ifindex then
        { selection with loopback_ifindex := state.ifindex, loopback := host_address state.address.address.bytes }
      else selection
    else if selection.physical_ifindex = 0 ∨ state.ifindex < selection.physical_ifindex then
      { selection with physical_ifindex := state.ifindex, physical := host_address state.address.address.bytes }
    else selection
  else selection

/-- `eigrp_router_id_auto_select`. -/
def router_id_auto_select : Option UInt32 :=
  host.walk.bind fun states =>
    let selection := states.foldl router_id_ipv4_candidate_read {}
    let router_id := if selection.loopback ≠ 0 then selection.loopback else selection.physical
    if router_id = 0 then none else some router_id

/-- `eigrp_router_id_update`. -/
def router_id_update : AddressFamily :=
  let router_id :=
    if af.router_id_static ≠ 0 then af.router_id_static
    else if af.router_id ≠ 0 then af.router_id
    else (router_id_auto_select host).getD 0
  let updated := { af with router_id }
  if af.router_id ≠ router_id then network_intfs_update host updated else updated

/-- `eigrp_network_intf_update`. -/
def network_intf_update (state : RuntimeState) : AddressFamily :=
  if state.secondary ∨ ¬ state.address.valid then af
  else
    let af := if af.router_id = 0 then router_id_update host af else af
    if af.router_id = 0 ∨ ¬ network_interface_enabled af state then af else (intf_runtime_update host.memory af state).2

/-! ## Network statements -/

/-- `eigrp_network_config_create`, with whether the configuration has changed. -/
def network_config_create (network : Portable.Prefix) : Result × Bool × AddressFamily :=
  if network ∈ af.configured then (.success,false,af)
  else if host.memory.configured then (.success,true,{ af with configured := network :: af.configured })
  else (.internal_failure,false,af)

/-- `eigrp_network_config_delete`. -/
def network_config_delete (network : Portable.Prefix) : Result × AddressFamily :=
  if network ∈ af.configured then (.success,{ af with configured := af.configured.erase network }) else (.not_found,af)

/-- `eigrp_network_runtime_create`. -/
def network_runtime_create (network : Portable.Prefix) : Result × AddressFamily :=
  if network ∈ af.networks then (.success,af)
  else if host.memory.networks then
    let af := { af with networks := network :: af.networks }
    (.success,if af.router_id = 0 then router_id_update host af else network_intfs_update host af)
  else (.internal_failure,af)

/-- `eigrp_network_runtime_delete`: every interface whose address no network covers any longer is freed. -/
def network_runtime_delete (network : Portable.Prefix) : Result × AddressFamily :=
  if network ∈ af.networks then
    let af := { af with networks := af.networks.erase network }
    (.success,{ af with eiflist := af.eiflist.filter fun ei => network_runtime_matches af ei.address })
  else (.not_found,af)

/-- `eigrp_network_validate`. -/
def network_validate (context : Context) (network : Portable.Prefix) : Result :=
  if !context.config && !context.runtime then .not_found
  else if network.address.afi ≠ some af.afi ∨ ¬ network.valid then .invalid_argument
  else if af.afi ≠ .ipv4 then .unsupported
  else .success

/-- `eigrp_network_create`. -/
def network_create (context : Context) (network : Portable.Prefix) : Result × AddressFamily :=
  match network_validate af context network with
  | .success =>
    let (configured,config_changed,af) := if context.config then network_config_create host af network else (.success,false,af)
    if configured ≠ .success then (configured,af)
    else if context.runtime then
      let (result,af) := network_runtime_create host af network
      if result ≠ .success ∧ config_changed then (result,(network_config_delete af network).2) else (result,af)
    else (.success,af)
  | failure => (failure,af)

/-- `eigrp_network_delete`. -/
def network_delete (context : Context) (network : Portable.Prefix) : Result × AddressFamily :=
  match network_validate af context network with
  | .success =>
    let (config_result,af) := if context.config then network_config_delete af network else (.not_found,af)
    let (runtime_result,af) := if context.runtime then network_runtime_delete af network else (.not_found,af)
    (if config_result = .not_found ∧ runtime_result = .not_found then .not_found else .success,af)
  | failure => (failure,af)

/-! ## Starting and stopping -/

/-- `eigrp_instance_stop`. -/
def instance_stop : AddressFamily := { af with eiflist := af.eiflist.map fun ei => if ei.t_hello then intf_down ei else ei }

/-- `eigrp_instance_start`. -/
def instance_start : AddressFamily :=
  let af := if af.router_id = 0 then router_id_update host af else af
  if af.router_id = 0 then af
  else
    let af := network_intfs_update host af
    { af with eiflist := af.eiflist.map fun ei =>
        if af.shutdown_effective ei.name ∨ ¬ ei.operative ∨ ei.t_hello then ei else intf_up host.memory ei }

/-- `eigrp_af_config_shutdown_update`. -/
def af_config_shutdown_update (shutdown : Bool) : AddressFamily :=
  if af.shutdown = shutdown then af
  else
    let af := { af with shutdown }
    if shutdown then instance_stop af else instance_start host af

/-- `eigrp_named_config_shutdown_update` for one of the address families. -/
def named_config_shutdown_update (shutdown : Bool) : AddressFamily :=
  if af.parent_shutdown = shutdown then af
  else
    let af := { af with parent_shutdown := shutdown }
    if !shutdown && af.shutdown then af else if shutdown then instance_stop af else instance_start host af

/-- `eigrp_intf_config_create`, when there is memory for it. -/
def intf_config_create (name : String) : AddressFamily :=
  if name = "" ∨ (af.config_read name).isSome then af
  else { af with interfaces := { interface_name := name } :: af.interfaces }

/-- `eigrp_intf_config_delete`, as far as the interfaces run. -/
def intf_config_delete (name : String) : AddressFamily :=
  if name = "" then af else { af with interfaces := af.interfaces.eraseP fun config => config.interface_name = name }

/-- The first part of `eigrp_intf_shutdown_update`: the interface of the configuration. -/
def intf_shutdown_runtime (name : String) (shutdown : Bool) : AddressFamily :=
  match if name = "default" then none else af.lookup_by_name name with
  | some ei =>
    if shutdown ∧ ei.t_hello then af.write ei.id intf_down
    else if ¬ shutdown ∧ ei.operative ∧ ¬ ei.t_hello then instance_start host af
    else af
  | none => af

/-- The last part of `eigrp_intf_shutdown_update`: the interfaces that go by the defaults. -/
def intf_shutdown_defaults (name : String) (shutdown : Bool) : AddressFamily :=
  if name = "default" then
    { af with eiflist := af.eiflist.map fun ei =>
        if (af.config_read ei.name).any (·.shutdown_configured) then ei
        else if shutdown ∧ ei.t_hello then intf_down ei
        else if ¬ shutdown ∧ ei.operative ∧ ¬ ei.t_hello then intf_up host.memory ei
        else ei }
  else af

/-- What `eigrp_intf_shutdown_update` writes to the configuration. -/
def intf_shutdown_config (name : String) (shutdown : Bool) : AddressFamily :=
  { af with interfaces := af.interfaces.map fun config =>
      if config.interface_name = name then { config with shutdown, shutdown_configured := true } else config }

/-- `eigrp_intf_shutdown_update` on the configuration of a name, with the interface of that name. -/
def intf_shutdown_update (name : String) (shutdown : Bool) : AddressFamily :=
  if (af.config_read name).isSome then
    intf_shutdown_defaults host (intf_shutdown_runtime host (intf_shutdown_config af name shutdown) name shutdown) name shutdown
  else af

/-- `eigrp_intf_bandwidth_update` and `eigrp_intf_delay_update` for the interface of a name: `eigrp_intf_runtime_update` with
    `EIGRP_RESET` starts it again, whether it ran or not. -/
def intf_metric_update (name : String) : AddressFamily :=
  (af.lookup_by_name name).elim af fun ei => af.write ei.id fun ei => intf_up host.memory (intf_down ei)

/-- `eigrp_intf_passive_update` on the configuration of a name, as far as it is asked which interfaces are enabled. -/
def intf_passive_update (name : String) (passive : Bool) : AddressFamily :=
  { af with interfaces := af.interfaces.map fun config =>
      if config.interface_name = name then { config with passive, passive_configured := true } else config }

/-! ## Events -/

/-- What the host tells an address family: `eigrp_af_event_t`. -/
inductive Event where
  | routerid_update
  | intf_update (state : RuntimeState)
  | intf_down (ifindex : UInt32) (type : UInt8) (bandwidth mtu : UInt32)
  | intf_remove (ifindex : UInt32)
  | intf_addr_update (ifindex : UInt32) (address : Portable.Prefix)

/-- `eigrp_intf_runtime_delete`. -/
def intf_runtime_delete (id : Nat) : AddressFamily := { af with eiflist := af.eiflist.filter fun ei => ei.id ≠ id }

/-- `eigrp_instance_event_process`. -/
def instance_event_process : Event → AddressFamily
  | .routerid_update => router_id_update host af
  | .intf_update state => network_intf_update host af state
  | .intf_down ifindex type bandwidth mtu =>
    match af.lookup_by_ifindex ifindex with
    | some ei => af.write ei.id fun ei => Networks.intf_down (intf_runtime_state_update_values host.memory ei
        { interface_name := ei.name, ifindex, address := ei.address, type, operative := false, bandwidth, mtu })
    | none => af
  | .intf_remove ifindex => (af.lookup_by_ifindex ifindex).elim af fun ei => intf_runtime_delete af ei.id
  | .intf_addr_update ifindex address =>
    match af.lookup_by_ifindex ifindex with
    | some ei => if ei.address = address then intf_runtime_delete af ei.id else af
    | none => af

end Host

/-- What happens to an address family: the operator configures, the host tells, a hello timer runs out. -/
inductive Operation where
  | network_create (context : Context) (network : Portable.Prefix)
  | network_delete (context : Context) (network : Portable.Prefix)
  | router_id_update (router_id : Option UInt32)
  | af_config_shutdown_update (shutdown : Bool)
  | named_config_shutdown_update (shutdown : Bool)
  | intf_config_create (name : String)
  | intf_config_delete (name : String)
  | intf_shutdown_update (name : String) (shutdown : Bool)
  | intf_metric_update (name : String)
  | intf_passive_update (name : String) (passive : Bool)
  | event (told : Event)
  | hello_timer (id : Nat)

/-- `eigrp_instance_router_id_update` on both views; zero and the broadcast address are refused. -/
def instance_router_id_update (host : Host) (af : AddressFamily) : Option UInt32 → AddressFamily
  | none => router_id_update host { af with router_id_static := 0 }
  | some router_id =>
    if router_id = 0 ∨ router_id = 0xffffffff then af else router_id_update host { af with router_id_static := router_id }

/-- One thing that happens. -/
def AddressFamily.step (host : Host) (af : AddressFamily) : Operation → AddressFamily
  | .network_create context network => (Networks.network_create host af context network).2
  | .network_delete context network => (Networks.network_delete af context network).2
  | .router_id_update router_id => instance_router_id_update host af router_id
  | .af_config_shutdown_update shutdown => Networks.af_config_shutdown_update host af shutdown
  | .named_config_shutdown_update shutdown => Networks.named_config_shutdown_update host af shutdown
  | .intf_config_create name => Networks.intf_config_create af name
  | .intf_config_delete name => Networks.intf_config_delete af name
  | .intf_shutdown_update name shutdown => Networks.intf_shutdown_update host af name shutdown
  | .intf_metric_update name => Networks.intf_metric_update host af name
  | .intf_passive_update name passive => Networks.intf_passive_update af name passive
  | .event told => instance_event_process host af told
  | .hello_timer id => af.write id fun ei => if ei.t_hello then intf_up host.memory ei else ei

/-! ## The choice of the router id -/

section RouterId
variable {states others : List RuntimeState} {host : Host}

/-- The candidates of a kind: the loopbacks, or the others. -/
def candidates (loopback : Bool) (states : List RuntimeState) : List RuntimeState :=
  states.filter fun state => router_id_eligible state && (decide (state.type = iftype_loopback) == loopback)

/-- The candidate of a kind with the lowest index. -/
def candidate (loopback : Bool) (states : List RuntimeState) : Option RuntimeState :=
  (candidates loopback states).argmin fun state => state.ifindex.toNat

theorem candidate_snoc {loopback : Bool} {state : RuntimeState} : candidate loopback (states ++ [state]) =
    if router_id_eligible state ∧ (decide (state.type = iftype_loopback) = loopback) then
      (candidate loopback states).elim (some state) fun kept => if state.ifindex.toNat < kept.ifindex.toNat then some state else some kept
    else candidate loopback states := by
  unfold candidate candidates
  by_cases chosen : router_id_eligible state = true ∧ decide (state.type = iftype_loopback) = loopback
  · rw [if_pos chosen,List.filter_append,List.filter_cons_of_pos (by simpa using chosen),List.filter_nil,List.argmin_concat]
    cases List.argmin (fun state : RuntimeState => state.ifindex.toNat) _ <;> rfl
  · rw [if_neg chosen,List.filter_append,List.filter_cons_of_neg (by simpa using chosen),List.filter_nil,List.append_nil]

theorem candidate_eligible {loopback : Bool} {state : RuntimeState} (found : candidate loopback states = some state) :
    router_id_eligible state = true := by
  have member := (List.mem_filter.mp (List.argmin_mem found)).2
  exact (Bool.and_eq_true _ _ ▸ member).1

/-- The walk keeps of either kind the candidate with the lowest index. -/
theorem selection_eq (indexed : ∀ state ∈ states, router_id_eligible state = true → state.ifindex ≠ 0) :
    states.foldl router_id_ipv4_candidate_read {} =
    { loopback_ifindex := (candidate true states).elim 0 fun state => state.ifindex
      physical_ifindex := (candidate false states).elim 0 fun state => state.ifindex
      loopback := (candidate true states).elim 0 fun state => host_address state.address.address.bytes
      physical := (candidate false states).elim 0 fun state => host_address state.address.address.bytes } := by
  induction states using List.reverseRecOn with
  | nil => rfl
  | append_singleton states state ih =>
    have known (loopback : Bool) : ∀ kept, candidate loopback states = some kept → kept.ifindex ≠ 0 := fun kept found =>
      indexed kept (List.mem_append_left _ (List.mem_filter.mp (List.argmin_mem found)).1) (candidate_eligible found)
    rw [List.foldl_append,List.foldl_cons,List.foldl_nil,ih fun state member => indexed state (List.mem_append_left _ member),
      candidate_snoc,candidate_snoc]
    unfold router_id_ipv4_candidate_read
    cases eligible : router_id_eligible state with
    | false => simp
    | true =>
      by_cases loopback : state.type = iftype_loopback
      · cases found : candidate true states with
        | none => simp [loopback]
        | some kept =>
          have old := known true kept found
          by_cases lower : state.ifindex.toNat < kept.ifindex.toNat
          · simp [loopback,old,UInt32.lt_iff_toNat_lt,lower]
          · simp [loopback,old,UInt32.lt_iff_toNat_lt,lower]
      · cases found : candidate false states with
        | none => simp [loopback]
        | some kept =>
          have old := known false kept found
          by_cases lower : state.ifindex.toNat < kept.ifindex.toNat
          · simp [loopback,old,UInt32.lt_iff_toNat_lt,lower]
          · simp [loopback,old,UInt32.lt_iff_toNat_lt,lower]

/-- The router id is the address of the loopback with the lowest index, and where there is none of the interface with the lowest. -/
theorem router_id_auto_select_eq (walk : host.walk = some states)
    (indexed : ∀ state ∈ states, router_id_eligible state = true → state.ifindex ≠ 0) :
    router_id_auto_select host =
      ((candidate true states).or (candidate false states)).map fun state => host_address state.address.address.bytes := by
  have nonzero {loopback : Bool} {state : RuntimeState} (found : candidate loopback states = some state) :
      host_address state.address.address.bytes ≠ 0 := by
    have eligible := candidate_eligible found
    simp only [router_id_eligible,Bool.and_eq_true,bne_iff_ne] at eligible
    exact eligible.1.2
  unfold router_id_auto_select
  rw [walk,Option.bind_some,selection_eq indexed]
  cases loopback : candidate true states with
  | some state => simp [nonzero loopback]
  | none =>
    cases physical : candidate false states with
    | some state => simp [nonzero physical]
    | none => simp

theorem candidate_perm {loopback : Bool} (same : states.Perm others)
    (distinct : ∀ state ∈ states, ∀ other ∈ states, router_id_eligible state = true → router_id_eligible other = true →
      state.ifindex = other.ifindex → state = other) : candidate loopback states = candidate loopback others := by
  have listed (state : RuntimeState) : state ∈ candidates loopback states ↔ state ∈ candidates loopback others :=
    (same.filter _).mem_iff
  cases found : candidate loopback states with
  | none =>
    have empty : candidates loopback states = [] := List.argmin_eq_none.mp found
    have other_empty : candidates loopback others = [] := by
      rw [List.eq_nil_iff_forall_not_mem] at empty ⊢
      exact fun state member => empty state ((listed state).mpr member)
    exact (List.argmin_eq_none.mpr other_empty).symm
  | some state =>
    cases found' : candidate loopback others with
    | none =>
      have empty : candidates loopback others = [] := List.argmin_eq_none.mp found'
      exact absurd ((listed state).mp (List.argmin_mem found)) (by simp [empty])
    | some other =>
      have first := List.argmin_mem found
      have later := (listed other).mpr (List.argmin_mem found')
      have low := List.le_of_mem_argmin later found
      have high := List.le_of_mem_argmin ((listed state).mp first) found'
      have index : state.ifindex = other.ifindex := UInt32.toNat_inj.mp (by omega)
      rw [distinct state (List.mem_filter.mp first).1 other (List.mem_filter.mp later).1 (candidate_eligible found)
        (candidate_eligible found') index]

/-- A candidate is found of every kind that has one. -/
theorem candidate_none {loopback : Bool} (missing : candidate loopback states = none) : ∀ state ∈ states, router_id_eligible state = true →
    decide (state.type = iftype_loopback) ≠ loopback := by
  intro state member eligible kind
  have empty : candidates loopback states = [] := List.argmin_eq_none.mp missing
  have listed : state ∈ candidates loopback states := List.mem_filter.mpr ⟨member,by simp [eligible,kind]⟩
  rw [empty] at listed
  cases listed

/-- The choice does not depend on the order in which the host lists its interfaces, as long as the eligible ones have indices and no two
    share one. There is one if an interface is eligible, and it is the address of an eligible interface: of a loopback if one is eligible,
    with no eligible interface of the kind below it. -/
theorem router_id_independent {memory : Memory} (same : states.Perm others)
    (indexed : ∀ state ∈ states, router_id_eligible state = true → state.ifindex ≠ 0)
    (distinct : ∀ state ∈ states, ∀ other ∈ states, router_id_eligible state = true → router_id_eligible other = true →
      state.ifindex = other.ifindex → state = other) :
    router_id_auto_select { memory, walk := some states } = router_id_auto_select { memory, walk := some others } ∧
      ((router_id_auto_select { memory, walk := some states }).isSome = true ↔ ∃ state ∈ states, router_id_eligible state = true) ∧
      ∀ address, router_id_auto_select { memory, walk := some states } = some address →
        ∃ state ∈ states, router_id_eligible state = true ∧ host_address state.address.address.bytes = address ∧
          ∀ other ∈ states, router_id_eligible other = true →
            (other.type = iftype_loopback → state.type = iftype_loopback) ∧
            ((other.type = iftype_loopback ↔ state.type = iftype_loopback) → state.ifindex.toNat ≤ other.ifindex.toNat) := by
  have chosen := @router_id_auto_select_eq states { memory, walk := some states } rfl indexed
  refine ⟨?_,?_,?_⟩
  · rw [chosen,@router_id_auto_select_eq others { memory, walk := some others } rfl fun state member => indexed state (same.mem_iff.mpr member),
      candidate_perm same distinct,candidate_perm same distinct]
  · rw [chosen,Option.isSome_map]
    constructor
    · intro found
      obtain ⟨state,picked⟩ := Option.isSome_iff_exists.mp found
      rcases Option.or_eq_some_iff.mp picked with loopback | ⟨_,physical⟩
      · exact ⟨state,(List.mem_filter.mp (List.argmin_mem loopback)).1,candidate_eligible loopback⟩
      · exact ⟨state,(List.mem_filter.mp (List.argmin_mem physical)).1,candidate_eligible physical⟩
    · rintro ⟨state,member,eligible⟩
      cases loopback : candidate true states with
      | some kept => rfl
      | none =>
        cases physical : candidate false states with
        | some kept => rfl
        | none =>
          have first := candidate_none loopback state member eligible
          have second := candidate_none physical state member eligible
          cases kind : decide (state.type = iftype_loopback) with
          | true => exact absurd kind first
          | false => exact absurd kind second
  · intro address selected
    rw [chosen] at selected
    obtain ⟨state,picked,rfl⟩ := Option.map_eq_some_iff.mp selected
    have least {loopback : Bool} (found : candidate loopback states = some state) :
        state ∈ states ∧ decide (state.type = iftype_loopback) = loopback ∧ ∀ other ∈ states, router_id_eligible other = true →
          decide (other.type = iftype_loopback) = loopback → state.ifindex.toNat ≤ other.ifindex.toNat := by
      obtain ⟨member,kind⟩ := List.mem_filter.mp (List.argmin_mem found)
      refine ⟨member,eq_of_beq (Bool.and_eq_true _ _ ▸ kind).2,fun other present good same => ?_⟩
      have listed : other ∈ candidates loopback states := List.mem_filter.mpr ⟨present,by simp [good,same]⟩
      exact List.le_of_mem_argmin (f := fun state : RuntimeState => state.ifindex.toNat) listed found
    cases loopback : candidate true states with
    | some kept =>
      rw [loopback,Option.some_or] at picked
      cases picked
      obtain ⟨member,kind,lowest⟩ := least loopback
      refine ⟨state,member,candidate_eligible loopback,rfl,fun other present good => ⟨fun _ => by simpa using kind,fun same => ?_⟩⟩
      exact lowest other present good ((decide_eq_decide.mpr same).trans kind)
    | none =>
      rw [loopback,Option.none_or] at picked
      obtain ⟨member,kind,lowest⟩ := least picked
      refine ⟨state,member,candidate_eligible picked,rfl,fun other present good => ⟨fun looped => ?_,fun same => ?_⟩⟩
      · exact absurd (decide_eq_true looped) (candidate_none loopback other present good)
      · exact lowest other present good ((decide_eq_decide.mpr same).trans kind)

/-- An interface of the host, and a loopback of it. -/
def eth0 : RuntimeState :=
  { interface_name := "eth0", ifindex := 2, address := ⟨⟨some .ipv4,#v[10,0,0,1,0,0,0,0,0,0,0,0,0,0,0,0]⟩,24⟩ }

def lo : RuntimeState :=
  { interface_name := "lo", ifindex := 1, type := iftype_loopback, address := ⟨⟨some .ipv4,#v[1,1,1,1,0,0,0,0,0,0,0,0,0,0,0,0]⟩,32⟩ }

/-- The network of the interface. -/
def ten : Portable.Prefix := ⟨⟨some .ipv4,#v[10,0,0,0,0,0,0,0,0,0,0,0,0,0,0,0]⟩,8⟩

/-- The loopback is taken, in either order. -/
theorem router_id_independent_loopback :
    router_id_auto_select { walk := some [eth0,lo] } = some 0x01010101 ∧
      router_id_auto_select { walk := some [eth0,lo] } = router_id_auto_select { walk := some [lo,eth0] } := by
  refine ⟨by decide +kernel,(router_id_independent (List.Perm.swap lo eth0 []) ?_ ?_).1⟩
  · decide +kernel
  · intro state member other present _ _ same
    simp only [List.mem_cons,List.not_mem_nil,or_false] at member present
    rcases member with rfl | rfl
    · rcases present with rfl | rfl
      · rfl
      · exact absurd same (by decide +kernel)
    · rcases present with rfl | rfl
      · exact absurd same (by decide +kernel)
      · rfl

end RouterId

end Networks
end Eigrp
