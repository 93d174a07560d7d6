import Eigrp.Interfaces

/-!
# Interfaces that run

An interface that sends hellos is operative, and nothing above it is shut down: the walks and the events ask for it, but not
always for all of it. What a run must avoid is said by `Operation.Careful`.
-/

namespace Eigrp
namespace Networks

/-! ## What runs -/

/-- An interface that runs is operative, and neither it nor the address family nor the instance above is shut down; and names tell the
    interfaces apart. -/
structure Running (af : AddressFamily) : Prop where
  named : ∀ ei ∈ af.eiflist, ∀ other ∈ af.eiflist, ei.name = other.name → ei.id = other.id
  sound : ∀ ei ∈ af.eiflist, ei.t_hello = true →
    ei.operative = true ∧ af.shutdown = false ∧ af.parent_shutdown = false ∧ af.shutdown_effective ei.name = false

/-- The names of the host agree with the list of interfaces: where a state has the name of an interface, it has its index. -/
structure Surveyed (memory : Memory) (states : List RuntimeState) (af : AddressFamily) : Prop where
  agrees : ∀ state ∈ states, ∀ ei ∈ af.eiflist, ei.name = state.interface_name → ei.ifindex = state.ifindex
  consistent : ∀ state ∈ states, ∀ other ∈ states, state.interface_name = other.interface_name → state.ifindex = other.ifindex
  indexed : ∀ state ∈ states, state.ifindex ≠ 0
  granted : ∀ state ∈ states, memory.name state.interface_name = true

/-- An operation that starts no interface behind a shutdown: while the instance above is shut down nothing is added and nothing is told,
    while the address family is shut down no interface is taken out of shutdown, a configuration is deleted only when what runs may run
    without it, the metric of an interface is changed only when it may run, no interface goes by the name of the defaults when these are
    shut down, and the host keeps to the names it has used. -/
def Operation.Careful (host : Host) (af : AddressFamily) : Operation → Prop
  | .network_create _ _ | .router_id_update _ | .event .routerid_update =>
    af.parent_shutdown = false ∧ Surveyed host.memory (host.walk.getD []) af
  | .event (.intf_update state) => af.parent_shutdown = false ∧ Surveyed host.memory (state :: host.walk.getD []) af
  | .af_config_shutdown_update shutdown => shutdown = false → af.parent_shutdown = false ∧ Surveyed host.memory (host.walk.getD []) af
  | .named_config_shutdown_update shutdown => shutdown = false → Surveyed host.memory (host.walk.getD []) af
  | .intf_config_delete name => ∀ ei ∈ af.eiflist, ei.t_hello = true → (Networks.intf_config_delete af name).shutdown_effective ei.name = false
  | .intf_shutdown_update name shutdown =>
    if shutdown then name = "default" → ∀ ei ∈ af.eiflist, ei.name ≠ "default"
    else af.shutdown = false ∧ af.parent_shutdown = false ∧ Surveyed host.memory (host.walk.getD []) af
  | .intf_metric_update name => ∀ ei, af.lookup_by_name name = some ei →
    ei.operative = true ∧ af.shutdown = false ∧ af.parent_shutdown = false ∧ af.shutdown_effective ei.name = false
  | _ => True

section Running
variable {afi : Afi} {host : Host} {memory : Memory} {states : List RuntimeState} {af next : AddressFamily} {state : RuntimeState}

theorem Surveyed.of_eiflist (surveyed : Surveyed memory states af) (same : next.eiflist = af.eiflist) : Surveyed memory states next :=
  ⟨fun state given ei member => surveyed.agrees state given ei (same ▸ member),surveyed.consistent,surveyed.indexed,surveyed.granted⟩

/-- What runs in the next list ran before, or may run. -/
theorem Running.follow (running : Running af) (listed : ∀ ei ∈ next.eiflist, ∃ old ∈ af.eiflist, ei.id = old.id ∧ ei.name = old.name)
    (sound : ∀ ei ∈ next.eiflist, ei.t_hello = true →
      ei.operative = true ∧ next.shutdown = false ∧ next.parent_shutdown = false ∧ next.shutdown_effective ei.name = false) :
    Running next := by
  refine ⟨?_,sound⟩
  intro ei member other present same
  obtain ⟨old,stored,number,name⟩ := listed ei member
  obtain ⟨former,kept,numbered,named⟩ := listed other present
  rw [number,numbered]
  exact running.named old stored former kept (by rw [← name,← named,same])

/-- What holds while a call walks over the interfaces of the host. -/
structure Steady (afi : Afi) (memory : Memory) (states : List RuntimeState) (af : AddressFamily) : Prop where
  kept : Kept afi af
  running : Running af
  surveyed : Surveyed memory states af
  parent : af.parent_shutdown = false

theorem Steady.update (steady : Steady afi memory states af) (given : state ∈ states) (enabled : network_interface_enabled af state = true) :
    Steady afi memory states (intf_runtime_update memory af state).2 := by
  have kept : Kept afi (intf_runtime_update memory af state).2 := steady.kept.update enabled
  rcases @runtime_update_cases afi memory af state steady.kept with ⟨_,le,same,_⟩ | ⟨id,_,placed,origin,runs⟩
  · rw [same]
    exact ⟨steady.kept.counted le,⟨steady.running.named,steady.running.sound⟩,steady.surveyed.of_eiflist rfl,steady.parent⟩
  · have granted := steady.surveyed.granted state given
    have indexed := steady.surveyed.indexed state given
    -- The interface is known by its index, or it is new: no other has the name.
    have foreign : ∀ ei ∈ af.eiflist, ei.id ≠ id → ei.name ≠ state.interface_name := by
      intro ei member apart same
      exact steady.kept.unindexed origin apart member (by rw [steady.surveyed.agrees state given ei member same]; exact indexed)
        (steady.surveyed.agrees state given ei member same)
    have unknown (missing : af.lookup_by_ifindex state.ifindex = none) : ∀ old ∈ af.eiflist, old.id ≠ id := by
      intro old stored same
      generalize id = target at origin same
      cases origin with
      | index member index _ => exact lookup_by_ifindex_none missing indexed _ member index
      | name _ member name => exact lookup_by_ifindex_none missing indexed _ member (steady.surveyed.agrees state given _ member name)
      | new _ _ => exact absurd same (Nat.ne_of_lt (steady.kept.below old stored))
    refine ⟨kept,⟨?_,?_⟩,⟨?_,steady.surveyed.consistent,steady.surveyed.indexed,steady.surveyed.granted⟩,
      placed.alike.parent_shutdown.trans steady.parent⟩
    · intro ei member other present same
      by_cases own : ei.id = id
      · by_cases mine : other.id = id
        · exact own.trans mine.symm
        · have name := (placed.own ei member own).2.2.2 granted
          exact absurd (same.symm.trans name) (foreign other ((placed.others other mine).mp present) mine)
      · have stored := (placed.others ei own).mp member
        by_cases mine : other.id = id
        · have name := (placed.own other present mine).2.2.2 granted
          exact absurd (same.trans name) (foreign ei stored own)
        · exact steady.running.named ei stored other ((placed.others other mine).mp present) same
    · intro ei member up
      rw [placed.alike.shutdown,placed.alike.parent_shutdown,placed.alike.effective]
      by_cases own : ei.id = id
      · obtain ⟨_,_,operative,name⟩ := placed.own ei member own
        by_cases allowed : Allowed af state
        · rw [operative,name granted]
          exact ⟨allowed.2.2,allowed.1,steady.parent,allowed.2.1⟩
        · obtain ⟨missing,old,stored,same,_⟩ := (runs ei member own).2 allowed up
          exact absurd same (unknown missing old stored)
      · exact steady.running.sound ei ((placed.others ei own).mp member) up
    · intro other present ei member same
      by_cases own : ei.id = id
      · obtain ⟨index,_,_,name⟩ := placed.own ei member own
        rw [index]
        exact steady.surveyed.consistent state given other present (by rw [← name granted,same])
      · exact steady.surveyed.agrees other present ei ((placed.others ei own).mp member) same

theorem Steady.routed (steady : Steady afi memory states af) (router_id : UInt32) : Steady afi memory states { af with router_id } :=
  ⟨steady.kept.routed router_id,⟨steady.running.named,steady.running.sound⟩,steady.surveyed.of_eiflist rfl,steady.parent⟩

theorem Steady.start (steady : Steady afi memory states af) (up : af.shutdown = false) : Steady afi memory states (started memory af) := by
  have listed : ∀ ei ∈ (started memory af).eiflist, ∃ old ∈ af.eiflist, (ei.id = old.id ∧ ei.name = old.name) ∧
      ei.ifindex = old.ifindex ∧ ei.operative = old.operative ∧
      (ei.t_hello = true → old.t_hello = true ∨ af.shutdown_effective old.name = false ∧ old.operative = true) := by
    intro ei member
    obtain ⟨old,stored,rfl⟩ := List.mem_map.mp member
    refine ⟨old,stored,?_⟩
    split
    · exact ⟨⟨rfl,rfl⟩,rfl,rfl,.inl⟩
    · rename_i idle
      simp only [not_or,Bool.not_eq_true,Bool.not_eq_false] at idle
      exact ⟨⟨rfl,rfl⟩,rfl,rfl,fun _ => .inr ⟨idle.1,idle.2.1⟩⟩
  refine ⟨steady.kept.start,steady.running.follow (fun ei member => ?_) (fun ei member timer => ?_),
    ⟨fun state given ei member => ?_,steady.surveyed.consistent,steady.surveyed.indexed,steady.surveyed.granted⟩,steady.parent⟩
  · obtain ⟨old,stored,same,_⟩ := listed ei member
    exact ⟨old,stored,same⟩
  · obtain ⟨old,stored,⟨_,name⟩,_,operative,ran⟩ := listed ei member
    rw [name,operative]
    rcases ran timer with before | ⟨free,good⟩
    · exact steady.running.sound old stored before
    · exact ⟨good,up,steady.parent,free⟩
  · obtain ⟨old,stored,⟨_,name⟩,index,_⟩ := listed ei member
    rw [name,index]
    exact steady.surveyed.agrees state given old stored

theorem Steady.walk (steady : Steady afi host.memory (host.walk.getD []) af) :
    Steady afi host.memory (host.walk.getD []) (network_intfs_update host af) :=
  intfs_update_keeps (fun _ steady _ given enabled => steady.update given enabled) steady

theorem Steady.router_id_update (steady : Steady afi host.memory (host.walk.getD []) af) :
    Steady afi host.memory (host.walk.getD []) (router_id_update host af) :=
  router_id_update_keeps (fun _ steady _ given enabled => steady.update given enabled) (fun _ router_id steady => steady.routed router_id)
    steady

theorem Steady.instance_start (steady : Steady afi host.memory (host.walk.getD []) af) (up : af.shutdown = false) :
    Steady afi host.memory (host.walk.getD []) (instance_start host af) := by
  refine (@instance_start_keeps host af (fun next => Steady afi host.memory (host.walk.getD []) next ∧ next.shutdown = false)
    ?_ ?_ ?_ ⟨steady,up⟩).1
  · rintro next ⟨steady,up⟩ state given enabled
    refine ⟨steady.update given enabled,?_⟩
    rcases @runtime_update_cases afi host.memory next state steady.kept with ⟨_,_,same,_⟩ | ⟨_,_,placed,_⟩
    · rw [same]
      exact up
    · exact placed.alike.shutdown.trans up
  · rintro next router_id ⟨steady,up⟩
    exact ⟨steady.routed router_id,up⟩
  · rintro next ⟨steady,up⟩
    exact ⟨steady.start up,up⟩

/-- Nothing runs, so everything that runs may. -/
theorem Running.idle (running : Running af) (listed : ∀ ei ∈ next.eiflist, ∃ old ∈ af.eiflist, ei.id = old.id ∧ ei.name = old.name)
    (idle : ∀ ei ∈ next.eiflist, ei.t_hello = false) : Running next :=
  running.follow listed fun ei member up => absurd up (by simp [idle ei member])

theorem Running.stopped (running : Running af) (same : next.eiflist = af.eiflist) : Running (instance_stop next) := by
  have listed : ∀ ei ∈ (instance_stop next).eiflist, ∃ old ∈ af.eiflist, (ei.id = old.id ∧ ei.name = old.name) ∧ ei.t_hello = false := by
    intro ei member
    obtain ⟨old,stored,rfl⟩ := List.mem_map.mp member
    refine ⟨old,same ▸ stored,?_⟩
    split
    · exact ⟨⟨rfl,rfl⟩,rfl⟩
    · rename_i idle
      exact ⟨⟨rfl,rfl⟩,by simpa using idle⟩
  refine running.idle (fun ei member => ?_) (fun ei member => ?_)
  · obtain ⟨old,stored,same,_⟩ := listed ei member
    exact ⟨old,stored,same⟩
  · exact (listed ei member).choose_spec.2.2

/-- A write that starts nothing. -/
theorem Running.write (running : Running af) {id : Nat} {change : Intf → Intf}
    (named : ∀ ei, (change ei).id = ei.id ∧ (change ei).name = ei.name)
    (less : ∀ ei, (change ei).t_hello = true → ei.t_hello = true ∧ (change ei).operative = ei.operative) :
    Running (af.write id change) := by
  have listed : ∀ ei ∈ (af.write id change).eiflist, ∃ old ∈ af.eiflist, (ei.id = old.id ∧ ei.name = old.name) ∧
      (ei.t_hello = true → old.t_hello = true ∧ ei.operative = old.operative) := by
    intro ei member
    obtain ⟨old,stored,rfl⟩ := mem_write.mp member
    refine ⟨old,stored,?_⟩
    split
    · exact ⟨named old,less old⟩
    · exact ⟨⟨rfl,rfl⟩,fun up => ⟨up,rfl⟩⟩
  refine running.follow (fun ei member => ?_) (fun ei member up => ?_)
  · obtain ⟨old,stored,same,_⟩ := listed ei member
    exact ⟨old,stored,same⟩
  · obtain ⟨old,stored,⟨_,name⟩,ran⟩ := listed ei member
    obtain ⟨before,operative⟩ := ran up
    rw [name,operative]
    exact running.sound old stored before

theorem runtime_create_running (steady : Steady afi host.memory (host.walk.getD []) af) (network : Portable.Prefix) :
    Running (network_runtime_create host af network).2 := by
  unfold network_runtime_create
  split
  · exact steady.running
  · rename_i new
    split
    · have kept := steady.kept
      have added : Steady afi host.memory (host.walk.getD []) { af with networks := network :: af.networks } :=
        ⟨⟨kept.numbers,kept.below,kept.indices,List.nodup_cons.mpr ⟨new,kept.networks⟩,
          fun family ei member => matches_added (kept.covered family ei member),kept.family⟩,
          ⟨steady.running.named,steady.running.sound⟩,steady.surveyed.of_eiflist rfl,steady.parent⟩
      dsimp only
      split
      · exact added.router_id_update.running
      · exact added.walk.running
    · exact steady.running

theorem network_create_running (steady : Steady afi host.memory (host.walk.getD []) af) (context : Context) (network : Portable.Prefix) :
    Running (network_create host af context network).2 := by
  have configured (configured : List Portable.Prefix) : Steady afi host.memory (host.walk.getD []) { af with configured } :=
    ⟨steady.kept.configured configured _ _ _ _,⟨steady.running.named,steady.running.sound⟩,steady.surveyed.of_eiflist rfl,steady.parent⟩
  have first : Steady afi host.memory (host.walk.getD [])
      (if context.config then network_config_create host af network else (.success,false,af)).2.2 := by
    split
    · obtain ⟨networks,same⟩ := @config_create_same host af network
      rw [same]
      exact configured networks
    · exact steady
  unfold network_create
  split
  · generalize (if context.config then network_config_create host af network else (.success,false,af)) = created at first ⊢
    obtain ⟨result,config_changed,af⟩ := created
    dsimp only at first ⊢
    split
    · exact first.running
    · split
      · have ran := runtime_create_running first network
        split
        · obtain ⟨networks,same⟩ := @config_delete_same (network_runtime_create host af network).2 network
          rw [same]
          exact ⟨ran.named,ran.sound⟩
        · exact ran
      · exact first.running
  · exact steady.running

theorem network_delete_running (running : Running af) (context : Context) (network : Portable.Prefix) :
    Running (network_delete af context network).2 := by
  have config {af : AddressFamily} (running : Running af) : Running (network_config_delete af network).2 := by
    obtain ⟨networks,same⟩ := @config_delete_same af network
    rw [same]
    exact ⟨running.named,running.sound⟩
  have runtime {af : AddressFamily} (running : Running af) : Running (network_runtime_delete af network).2 := by
    unfold network_runtime_delete
    split
    · refine ⟨?_,?_⟩
      · intro ei member other present
        exact running.named ei (List.mem_filter.mp member).1 other (List.mem_filter.mp present).1
      · intro ei member
        exact running.sound ei (List.mem_filter.mp member).1
    · exact running
  unfold network_delete
  split
  · have first : Running (if context.config then network_config_delete af network else (.not_found,af)).2 := by
      split
      · exact config running
      · exact running
    dsimp only
    split
    · exact runtime first
    · exact first
  · exact running

/-! ## Shutting down an interface -/

theorem config_create_effective (name other : String) : (intf_config_create af name).shutdown_effective other = af.shutdown_effective other := by
  unfold intf_config_create
  split
  · rfl
  · rename_i new
    obtain ⟨named,new⟩ := not_or.mp new
    have missing : af.config_read name = none := by simpa using new
    have reads (sought : String) : AddressFamily.config_read { af with interfaces := { interface_name := name } :: af.interfaces } sought =
        if sought = name then some { interface_name := name } else af.config_read sought := by
      unfold AddressFamily.config_read
      by_cases same : sought = name
      · simp [same,named]
      · simp [same,Ne.symm same]
    unfold AddressFamily.shutdown_effective AddressFamily.config_shutdown_effective
    rw [reads,reads]
    by_cases same : other = name
    · by_cases default : "default" = name
      · simp [same,missing,default,Option.filter]
      · simp [same,missing,default,Option.filter]
    · by_cases default : "default" = name
      · simp [same,missing,default,Option.filter]
      · simp [same,default]

/-- A write to the configuration of a name. -/
theorem config_write_reads {name : String} {change : IntfConfig → IntfConfig}
    (named : ∀ config, (change config).interface_name = config.interface_name) (sought : String) :
    AddressFamily.config_read
        { af with interfaces := af.interfaces.map fun config => if config.interface_name = name then change config else config } sought =
      if sought = name then (af.config_read sought).map change else af.config_read sought := by
  have found (configs : List IntfConfig) : (configs.map fun config : IntfConfig =>
      if config.interface_name = name then change config else config).find? (fun config => config.interface_name = sought) =
        if sought = name then (configs.find? fun config => config.interface_name = sought).map change
        else configs.find? fun config => config.interface_name = sought := by
    induction configs with
    | nil => simp
    | cons config configs ih =>
      by_cases own : config.interface_name = name
      · by_cases same : sought = name
        · simp [own,same,named]
        · simpa [own,same,Ne.symm same,named] using ih
      · by_cases same : config.interface_name = sought
        · have other : sought ≠ name := fun equal => own (same.trans equal)
          simp [same,other]
        · simpa [own,same] using ih
  unfold AddressFamily.config_read
  by_cases empty : sought = ""
  · simp [empty]
  · simp only [if_neg empty]
    exact found af.interfaces

theorem shutdown_config_reads {name : String} (shutdown : Bool) (sought : String) :
    (intf_shutdown_config af name shutdown).config_read sought =
      if sought = name then (af.config_read sought).map fun config => { config with shutdown, shutdown_configured := true }
      else af.config_read sought :=
  @config_write_reads af name (fun config => { config with shutdown, shutdown_configured := true }) (fun _ => rfl) sought

theorem passive_effective (name sought : String) (passive : Bool) :
    (intf_passive_update af name passive).shutdown_effective sought = af.shutdown_effective sought := by
  have reads (sought : String) : (intf_passive_update af name passive).config_read sought =
      if sought = name then (af.config_read sought).map fun config => { config with passive, passive_configured := true }
      else af.config_read sought :=
    @config_write_reads af name (fun config => { config with passive, passive_configured := true }) (fun _ => rfl) sought
  unfold AddressFamily.shutdown_effective AddressFamily.config_shutdown_effective
  rw [reads,reads]
  have defaults : (if "default" = name then (af.config_read "default").map fun config => { config with passive, passive_configured := true }
      else af.config_read "default").any (fun defaults => defaults.shutdown_configured && defaults.shutdown) =
      (af.config_read "default").any fun defaults => defaults.shutdown_configured && defaults.shutdown := by
    split
    · cases af.config_read "default" <;> rfl
    · rfl
  rw [defaults]
  by_cases own : sought = name
  · rw [if_pos own]
    cases af.config_read sought with
    | none => rfl
    | some config => cases set : config.shutdown_configured <;> simp [Option.filter,set]
  · rw [if_neg own]

/-- After the configuration of a name is written, the name goes by it, and with the defaults what has no configuration of its own. -/
theorem shutdown_config_effective {name : String} (configured : (af.config_read name).isSome = true) (shutdown : Bool) (sought : String) :
    (intf_shutdown_config af name shutdown).shutdown_effective sought =
      if sought = name ∨ name = "default" ∧ (af.config_read sought).any (·.shutdown_configured) = false then shutdown
      else af.shutdown_effective sought := by
  obtain ⟨config,read⟩ := Option.isSome_iff_exists.mp configured
  unfold AddressFamily.shutdown_effective AddressFamily.config_shutdown_effective
  rw [shutdown_config_reads,shutdown_config_reads]
  by_cases own : sought = name
  · simp [own,read,Option.filter]
  · rw [if_neg own]
    cases specific : af.config_read sought with
    | none =>
      by_cases default : name = "default"
      · subst default
        simp [own,read]
      · simp [own,default,Ne.symm default]
    | some found =>
      cases set : found.shutdown_configured with
      | true => simp [own,set,Option.filter]
      | false =>
        by_cases default : name = "default"
        · subst default
          simp [own,read,set,Option.filter]
        · simp [own,default,Ne.symm default,set,Option.filter]

/-- What runs after the defaults were written ran before and has a configuration of its own, or is started by the defaults. -/
theorem intf_shutdown_defaults_cases (shutdown : Bool) : ∀ ei ∈ (intf_shutdown_defaults host af "default" shutdown).eiflist,
    ∃ old ∈ af.eiflist, ei.id = old.id ∧ ei.name = old.name ∧ ei.operative = old.operative ∧ (ei.t_hello = true →
      old.t_hello = true ∧ (shutdown = true → (af.config_read old.name).any (·.shutdown_configured) = true) ∨
      shutdown = false ∧ old.operative = true ∧ (af.config_read old.name).any (·.shutdown_configured) = false) := by
  intro ei member
  obtain ⟨old,stored,rfl⟩ := List.mem_map.mp member
  refine ⟨old,stored,?_⟩
  split
  · rename_i specific
    exact ⟨rfl,rfl,rfl,fun up => .inl ⟨up,fun _ => specific⟩⟩
  · rename_i bare
    have bare : (af.config_read old.name).any (·.shutdown_configured) = false := by simpa using bare
    split
    · exact ⟨rfl,rfl,rfl,fun up => by cases up⟩
    · rename_i running
      split
      · rename_i idle
        exact ⟨rfl,rfl,rfl,fun _ => .inr ⟨by simpa using idle.1,idle.2.1,bare⟩⟩
      · exact ⟨rfl,rfl,rfl,fun up => .inl ⟨up,fun down => absurd ⟨down,up⟩ running⟩⟩

/-- The runtime part of a shutdown stops the interface that has the name, the only one that has it. -/
theorem intf_shutdown_runtime_stops (kept : Kept afi af) (running : Running af) (name : String) :
    ∀ ei ∈ (intf_shutdown_runtime host (intf_shutdown_config af name true) name true).eiflist,
      ∃ old ∈ af.eiflist, ei.id = old.id ∧ ei.name = old.name ∧ ei.operative = old.operative ∧
        (ei.t_hello = true → old.t_hello = true ∧ (name ≠ "default" → old.name ≠ name)) := by
  have plain : ∀ ei ∈ af.eiflist, (name ≠ "default" → ei.t_hello = true → ei.name ≠ name) →
      ∃ old ∈ af.eiflist, ei.id = old.id ∧ ei.name = old.name ∧ ei.operative = old.operative ∧
        (ei.t_hello = true → old.t_hello = true ∧ (name ≠ "default" → old.name ≠ name)) :=
    fun ei member other => ⟨ei,member,rfl,rfl,rfl,fun up => ⟨up,fun named => other named up⟩⟩
  unfold intf_shutdown_runtime
  split
  · rename_i ei found
    have found : ei ∈ af.eiflist ∧ ei.name = name := by
      split at found
      · cases found
      · exact @lookup_by_name_some af ei name found
    have only : ∀ old ∈ af.eiflist, old.name = name → old = ei := fun old stored same =>
      kept.unique stored found.1 (running.named old stored ei found.1 (same.trans found.2.symm))
    split
    · intro other member
      obtain ⟨old,stored,same⟩ := mem_write.mp member
      by_cases own : old.id = ei.id
      · rw [if_pos own] at same
        refine ⟨old,stored,?_⟩
        rw [← same]
        exact ⟨rfl,rfl,rfl,fun up => by cases up⟩
      · rw [if_neg own] at same
        subst same
        refine plain old stored fun _ _ same => own ?_
        rw [only old stored same]
    · rename_i idle
      rw [if_neg (by simp)]
      refine fun other member => plain other member fun _ up same => idle ⟨rfl,?_⟩
      rw [← only other member same]
      exact up
  · rename_i missing
    refine fun ei member => plain ei member fun named _ => ?_
    rw [if_neg named] at missing
    exact @lookup_by_name_none af name missing ei member

/-- Shutting down: what runs afterwards ran before and does not go by the configuration that was written. -/
theorem intf_shutdown_running (kept : Kept afi af) (running : Running af) {name : String}
    (apart : name = "default" → ∀ ei ∈ af.eiflist, ei.name ≠ "default") : Running (intf_shutdown_update host af name true) := by
  unfold intf_shutdown_update
  split
  · rename_i configured
    have effective := @shutdown_config_effective af name configured true
    have down := @intf_shutdown_runtime_stops afi host af kept running name
    have alike := (@intf_shutdown_runtime_follows afi host (intf_shutdown_config af name true)
      (kept.configured _ _ _ _ _) name true).2
    generalize intf_shutdown_runtime host (intf_shutdown_config af name true) name true = next at down alike ⊢
    have may {ei old : Intf} (member : old ∈ next.eiflist) (ran : old.t_hello = true) (same : ei.name = old.name ∧ ei.operative = old.operative)
        (specific : name = "default" → (next.config_read old.name).any (·.shutdown_configured) = true) :
        ei.operative = true ∧ next.shutdown = false ∧ next.parent_shutdown = false ∧ next.shutdown_effective ei.name = false := by
      obtain ⟨before,stored,_,former,operative,timer⟩ := down old member
      obtain ⟨up,foreign⟩ := timer ran
      obtain ⟨good,unlocked,above,free⟩ := running.sound before stored up
      have other : before.name ≠ name := by
        by_cases default : name = "default"
        · exact default ▸ apart default before stored
        · exact foreign default
      refine ⟨same.2.trans (operative.trans good),alike.shutdown.trans unlocked,alike.parent_shutdown.trans above,?_⟩
      rw [alike.effective,same.1,former,effective,if_neg ?_]
      · exact free
      · rintro (equal | ⟨default,bare⟩)
        · exact other equal
        · have set := specific default
          rw [alike.config_read,former,shutdown_config_reads,if_neg other,bare] at set
          cases set
    have listed : ∀ ei ∈ next.eiflist, ∃ old ∈ af.eiflist, ei.id = old.id ∧ ei.name = old.name := by
      intro ei member
      obtain ⟨old,stored,number,same,_⟩ := down ei member
      exact ⟨old,stored,number,same⟩
    by_cases default : name = "default"
    · subst default
      have cases := @intf_shutdown_defaults_cases host next true
      have written := @intf_shutdown_defaults_alike host next "default" true
      refine running.follow (fun ei member => ?_) (fun ei member up => ?_)
      · obtain ⟨old,stored,number,same,_⟩ := cases ei member
        obtain ⟨before,present,former⟩ := listed old stored
        exact ⟨before,present,number.trans former.1,same.trans former.2⟩
      · obtain ⟨old,stored,_,same,operative,timer⟩ := cases ei member
        rcases timer up with ⟨ran,specific⟩ | ⟨never,_⟩
        · rw [written.shutdown,written.parent_shutdown,written.effective]
          exact may stored ran ⟨same,operative⟩ fun _ => specific rfl
        · cases never
    · have unchanged : intf_shutdown_defaults host next name true = next := if_neg default
      rw [unchanged]
      exact running.follow listed fun ei member up => may member up ⟨rfl,rfl⟩ fun same => absurd same default
  · exact running

/-- Taking out of shutdown, while neither the address family nor the instance above is shut down. -/
theorem intf_start_running (steady : Steady afi host.memory (host.walk.getD []) af) (up : af.shutdown = false) (name : String) :
    Running (intf_shutdown_update host af name false) := by
  unfold intf_shutdown_update
  split
  · rename_i configured
    have effective := @shutdown_config_effective af name configured false
    have written : Steady afi host.memory (host.walk.getD []) (intf_shutdown_config af name false) := by
      refine ⟨steady.kept.configured _ _ _ _ _,⟨steady.running.named,fun ei member timer => ?_⟩,steady.surveyed.of_eiflist rfl,steady.parent⟩
      obtain ⟨operative,_,_,free⟩ := steady.running.sound ei member timer
      refine ⟨operative,up,steady.parent,?_⟩
      rw [effective]
      split
      · rfl
      · exact free
    have ran : Running (intf_shutdown_runtime host (intf_shutdown_config af name false) name false) := by
      unfold intf_shutdown_runtime
      split
      · rw [if_neg (by simp)]
        split
        · exact (written.instance_start up).running
        · exact written.running
      · exact written.running
    by_cases default : name = "default"
    · subst default
      have same : intf_shutdown_runtime host (intf_shutdown_config af "default" false) "default" false =
          intf_shutdown_config af "default" false := by simp [intf_shutdown_runtime]
      rw [same]
      have changed := @intf_shutdown_defaults_cases host (intf_shutdown_config af "default" false) false
      have alike := @intf_shutdown_defaults_alike host (intf_shutdown_config af "default" false) "default" false
      refine written.running.follow (fun ei member => ?_) (fun ei member timer => ?_)
      · obtain ⟨old,stored,number,name,_⟩ := changed ei member
        exact ⟨old,stored,number,name⟩
      · obtain ⟨old,stored,_,name,operative,timers⟩ := changed ei member
        rw [alike.shutdown,alike.parent_shutdown,alike.effective,name,operative]
        rcases timers timer with ⟨before,_⟩ | ⟨_,good,bare⟩
        · exact written.running.sound old stored before
        · refine ⟨good,up,steady.parent,?_⟩
          rw [effective]
          by_cases own : old.name = "default"
          · rw [if_pos (.inl own)]
          · rw [shutdown_config_reads,if_neg own] at bare
            rw [if_pos (.inr ⟨rfl,bare⟩)]
    · have unchanged (next : AddressFamily) : intf_shutdown_defaults host next name false = next := if_neg default
      rw [unchanged]
      exact ran
  · exact steady.running

/-- The command that changes the metric of an interface starts it, which may run. -/
theorem intf_metric_running (kept : Kept afi af) (running : Running af) {name : String}
    (careful : (Operation.intf_metric_update name).Careful host af) : Running (intf_metric_update host af name) := by
  unfold intf_metric_update
  cases found : af.lookup_by_name name with
  | none => exact running
  | some ei =>
    obtain ⟨stored,_⟩ := lookup_by_name_some found
    have listed : ∀ other ∈ (af.write ei.id fun ei => intf_up host.memory (intf_down ei)).eiflist, ∃ old ∈ af.eiflist,
        (other.id = old.id ∧ other.name = old.name) ∧ other.operative = old.operative ∧ (old = ei ∨ other = old) := by
      intro other member
      obtain ⟨old,present,rfl⟩ := mem_write.mp member
      refine ⟨old,present,?_⟩
      split
      · rename_i own
        exact ⟨⟨rfl,rfl⟩,rfl,.inl (kept.unique present stored own)⟩
      · exact ⟨⟨rfl,rfl⟩,rfl,.inr rfl⟩
    refine running.follow (fun other member => ?_) (fun other member up => ?_)
    · obtain ⟨old,present,same,_⟩ := listed other member
      exact ⟨old,present,same⟩
    · obtain ⟨old,present,⟨_,same⟩,operative,rfl | rfl⟩ := listed other member
      · rw [operative,same]
        exact careful _ found
      · exact running.sound _ present up

/-! ## Runs of careful operations -/

theorem event_running (kept : Kept afi af) (running : Running af) {told : Event} (careful : (Operation.event told).Careful host af) :
    Running (instance_event_process host af told) := by
  have filtered {left : Intf → Bool} : Running { af with eiflist := af.eiflist.filter left } := by
    refine ⟨?_,?_⟩
    · intro ei member other present
      exact running.named ei (List.mem_filter.mp member).1 other (List.mem_filter.mp present).1
    · intro ei member
      exact running.sound ei (List.mem_filter.mp member).1
  cases told with
  | routerid_update =>
    obtain ⟨parent,surveyed⟩ := careful
    exact (Steady.router_id_update ⟨kept,running,surveyed,parent⟩).running
  | intf_update state =>
    obtain ⟨parent,surveyed⟩ := careful
    have given : state ∈ state :: host.walk.getD [] := List.mem_cons_self
    have steady : Steady afi host.memory (state :: host.walk.getD []) (network_intf_update host af state) :=
      intf_update_keeps (fun _ steady _ told enabled => steady.update (List.mem_cons_of_mem _ told) enabled)
        (fun _ router_id steady => steady.routed router_id) (fun _ steady enabled => steady.update given enabled)
        ⟨kept,running,surveyed,parent⟩
    exact steady.running
  | intf_down ifindex type bandwidth mtu =>
    simp only [instance_event_process]
    split
    · refine running.write (fun ei => ⟨rfl,?_⟩) (fun ei up => by cases up)
      simp [intf_down,intf_runtime_state_update_values,intf_runtime_state_update]
    · exact running
  | intf_remove ifindex =>
    simp only [instance_event_process]
    cases af.lookup_by_ifindex ifindex with
    | none => exact running
    | some ei => exact filtered
  | intf_addr_update ifindex address =>
    simp only [instance_event_process]
    split
    · split
      · exact filtered
      · exact running
    · exact running

theorem step_running (kept : Kept afi af) (running : Running af) {operation : Operation} (careful : operation.Careful host af) :
    Running (af.step host operation) := by
  cases operation with
  | network_create context network =>
    obtain ⟨parent,surveyed⟩ := careful
    exact network_create_running ⟨kept,running,surveyed,parent⟩ context network
  | network_delete context network => exact network_delete_running running context network
  | router_id_update router_id =>
    obtain ⟨parent,surveyed⟩ := careful
    have chosen (router_id_static : UInt32) : Running (router_id_update host { af with router_id_static }) :=
      (Steady.router_id_update ⟨kept.configured _ _ _ _ router_id_static,⟨running.named,running.sound⟩,surveyed.of_eiflist rfl,parent⟩).running
    cases router_id with
    | none => exact chosen 0
    | some router_id =>
      simp only [AddressFamily.step,instance_router_id_update]
      split
      · exact running
      · exact chosen router_id
  | af_config_shutdown_update shutdown =>
    simp only [AddressFamily.step,af_config_shutdown_update]
    split
    · exact running
    · rename_i changed
      cases shutdown with
      | true => exact running.stopped rfl
      | false =>
        have down : af.shutdown = true := by simpa using changed
        obtain ⟨parent,surveyed⟩ := careful rfl
        have steady : Steady afi host.memory (host.walk.getD []) { af with shutdown := false } := by
          refine ⟨kept.configured _ _ false _ _,⟨running.named,fun ei member up => ?_⟩,surveyed.of_eiflist rfl,parent⟩
          obtain ⟨_,free,_⟩ := running.sound ei member up
          rw [down] at free
          cases free
        exact (steady.instance_start rfl).running
  | named_config_shutdown_update shutdown =>
    simp only [AddressFamily.step,named_config_shutdown_update]
    split
    · exact running
    · rename_i changed
      cases shutdown with
      | true => exact running.stopped rfl
      | false =>
        have down : af.parent_shutdown = true := by simpa using changed
        have idle : Running { af with parent_shutdown := false } := by
          refine ⟨running.named,fun ei member up => ?_⟩
          obtain ⟨_,_,free,_⟩ := running.sound ei member up
          rw [down] at free
          cases free
        split
        · exact idle
        · rename_i going
          have steady : Steady afi host.memory (host.walk.getD []) { af with parent_shutdown := false } :=
            ⟨kept.configured _ _ _ false _,idle,(careful rfl).of_eiflist rfl,rfl⟩
          exact (steady.instance_start (by simpa using going)).running
  | intf_config_create name =>
    have same : (intf_config_create af name).eiflist = af.eiflist ∧ (intf_config_create af name).shutdown = af.shutdown ∧
        (intf_config_create af name).parent_shutdown = af.parent_shutdown := by
      unfold intf_config_create
      split <;> exact ⟨rfl,rfl,rfl⟩
    refine running.follow (fun ei member => ⟨ei,same.1 ▸ member,rfl,rfl⟩) (fun ei member up => ?_)
    show _ ∧ (intf_config_create af name).shutdown = false ∧ (intf_config_create af name).parent_shutdown = false ∧
      (intf_config_create af name).shutdown_effective ei.name = false
    rw [same.2.1,same.2.2,config_create_effective]
    exact running.sound ei (same.1 ▸ member) up
  | intf_config_delete name =>
    have same : (intf_config_delete af name).eiflist = af.eiflist ∧ (intf_config_delete af name).shutdown = af.shutdown ∧
        (intf_config_delete af name).parent_shutdown = af.parent_shutdown := by
      unfold intf_config_delete
      split <;> exact ⟨rfl,rfl,rfl⟩
    refine running.follow (fun ei member => ⟨ei,same.1 ▸ member,rfl,rfl⟩) (fun ei member up => ?_)
    have stored : ei ∈ af.eiflist := same.1 ▸ member
    obtain ⟨operative,free,above,_⟩ := running.sound ei stored up
    exact ⟨operative,same.2.1.trans free,same.2.2.trans above,careful ei stored up⟩
  | intf_shutdown_update name shutdown =>
    cases shutdown with
    | true => exact intf_shutdown_running kept running (by simpa [Operation.Careful] using careful)
    | false =>
      obtain ⟨up,parent,surveyed⟩ : af.shutdown = false ∧ af.parent_shutdown = false ∧ Surveyed host.memory (host.walk.getD []) af := by
        simpa [Operation.Careful] using careful
      exact intf_start_running ⟨kept,running,surveyed,parent⟩ up name
  | intf_metric_update name => exact intf_metric_running kept running careful
  | intf_passive_update name passive =>
    refine running.follow (fun ei member => ⟨ei,member,rfl,rfl⟩) (fun ei member up => ?_)
    show _ ∧ _ ∧ _ ∧ (intf_passive_update af name passive).shutdown_effective ei.name = false
    rw [passive_effective]
    exact running.sound ei member up
  | event told => exact event_running kept running careful
  | hello_timer id =>
    refine running.write (fun ei => ?_) (fun ei up => ?_)
    · split <;> exact ⟨rfl,rfl⟩
    · revert up
      split
      · rename_i ran
        exact fun _ => ⟨ran,rfl⟩
      · exact fun up => ⟨up,rfl⟩

/-- In every run of careful operations an interface that sends hellos is operative, and neither it nor the address family nor the
    instance above is shut down. -/
theorem running_allowed (reached : Reached (fun host af operation => operation.Careful host af) afi af) :
    ∀ ei ∈ af.eiflist, ei.t_hello = true →
      ei.operative = true ∧ af.shutdown = false ∧ af.parent_shutdown = false ∧ af.shutdown_effective ei.name = false := by
  have running : Running af := by
    induction reached with
    | start => exact ⟨by simp,by simp⟩
    | step earlier careful ih => exact step_running (reached_kept earlier) ih careful
  exact running.sound

/-- The interface runs. -/
theorem running_allowed_eth0 : covering.eiflist.any (fun ei => ei.t_hello && ei.name == "eth0") = true ∧
    ∀ ei ∈ covering.eiflist, ei.t_hello = true → ei.operative = true ∧ covering.shutdown = false ∧ covering.parent_shutdown = false ∧
      covering.shutdown_effective ei.name = false := by
  have surveyed : Surveyed {} [lo,eth0] { afi := .ipv4 } := by
    refine ⟨fun _ _ ei member => (by cases member),?_,?_,fun _ _ => rfl⟩
    · decide +kernel
    · decide +kernel
  exact ⟨by decide +kernel,running_allowed
    (covering_reached (show Operation.Careful { walk := some [lo,eth0] } { afi := .ipv4 } (.network_create {} ten) from ⟨rfl,surveyed⟩))⟩

/-- While the address family is shut down, taking an interface out of shutdown starts it. -/
example : (((covering.step {} (.af_config_shutdown_update true)).step {} (.intf_config_create "eth0")).step {}
    (.intf_shutdown_update "eth0" false)).eiflist.any (·.t_hello) = true := by decide +kernel

end Running

end Networks
end Eigrp
