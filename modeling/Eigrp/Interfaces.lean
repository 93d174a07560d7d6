import Eigrp.Networks

/-!
# The interfaces of an address family

Which interfaces EIGRP is on: every one has an address that a network in force covers, and a walk over the interfaces of the
host serves every one that is enabled. The networks in force are those that are configured.
-/

namespace Eigrp
namespace Networks

/-! ## Lists of interfaces -/

section Lists
variable {afi : Afi} {memory : Memory} {af next last : AddressFamily} {ei old : Intf} {state : RuntimeState} {id : Nat} {change : Intf → Intf}

theorem mem_write : ei ∈ (af.write id change).eiflist ↔ ∃ old ∈ af.eiflist, (if old.id = id then change old else old) = ei := by
  simp [AddressFamily.write]

theorem write_numbers (change : Intf → Intf) (named : ∀ ei, (change ei).id = ei.id) :
    (af.write id change).eiflist.map (·.id) = af.eiflist.map (·.id) := by
  simp only [AddressFamily.write,List.map_map]
  refine List.map_congr_left fun ei _ => ?_
  by_cases own : ei.id = id
  · simp [own,named ei]
  · simp [own]

theorem mem_write_own (member : ei ∈ (af.write id change).eiflist) (own : ei.id = id) :
    ∃ old ∈ af.eiflist, old.id = id ∧ ei = change old := by
  obtain ⟨old,stored,same⟩ := mem_write.mp member
  by_cases former : old.id = id
  · rw [if_pos former] at same
    exact ⟨old,stored,former,same.symm⟩
  · rw [if_neg former] at same
    exact absurd (same ▸ own) former

theorem mem_write_other (named : ∀ ei, (change ei).id = ei.id) (other : ei.id ≠ id) :
    ei ∈ (af.write id change).eiflist ↔ ei ∈ af.eiflist := by
  rw [mem_write]
  constructor
  · rintro ⟨old,stored,same⟩
    by_cases own : old.id = id
    · rw [if_pos own] at same
      exact absurd (same ▸ (named old).trans own) other
    · rw [if_neg own] at same
      exact same ▸ stored
  · intro stored
    exact ⟨ei,stored,if_neg other⟩

theorem write_below {bound : Nat} (named : ∀ ei, (change ei).id = ei.id) (below : ∀ ei ∈ af.eiflist, ei.id < bound) :
    ∀ ei ∈ (af.write id change).eiflist, ei.id < bound := by
  intro ei member
  obtain ⟨old,stored,rfl⟩ := mem_write.mp member
  split
  · rw [named old]
    exact below old stored
  · exact below old stored

theorem lookup_by_ifindex_some {ifindex : UInt32} (found : af.lookup_by_ifindex ifindex = some ei) :
    ei ∈ af.eiflist ∧ ei.ifindex = ifindex ∧ ifindex ≠ 0 := by
  unfold AddressFamily.lookup_by_ifindex at found
  split at found
  · cases found
  · rename_i indexed
    exact ⟨List.mem_of_find?_eq_some found,by simpa using List.find?_some found,indexed⟩

theorem lookup_by_ifindex_none {ifindex : UInt32} (missing : af.lookup_by_ifindex ifindex = none) (indexed : ifindex ≠ 0) :
    ∀ ei ∈ af.eiflist, ei.ifindex ≠ ifindex := by
  unfold AddressFamily.lookup_by_ifindex at missing
  rw [if_neg indexed] at missing
  simpa using missing

theorem lookup_by_name_some {name : String} (found : af.lookup_by_name name = some ei) : ei ∈ af.eiflist ∧ ei.name = name :=
  ⟨List.mem_of_find?_eq_some found,by simpa using List.find?_some found⟩

theorem lookup_by_name_none {name : String} (missing : af.lookup_by_name name = none) : ∀ ei ∈ af.eiflist, ei.name ≠ name := by
  simpa [AddressFamily.lookup_by_name] using missing

/-- Two address families with one configuration and the same networks in force. -/
structure Alike (af next : AddressFamily) : Prop where
  afi : next.afi = af.afi
  configured : next.configured = af.configured
  interfaces : next.interfaces = af.interfaces
  shutdown : next.shutdown = af.shutdown
  parent_shutdown : next.parent_shutdown = af.parent_shutdown
  networks : next.networks = af.networks

theorem Alike.refl (af : AddressFamily) : Alike af af := ⟨rfl,rfl,rfl,rfl,rfl,rfl⟩

theorem Alike.trans (first : Alike af next) (later : Alike next last) : Alike af last where
  afi := later.afi.trans first.afi
  configured := later.configured.trans first.configured
  interfaces := later.interfaces.trans first.interfaces
  shutdown := later.shutdown.trans first.shutdown
  parent_shutdown := later.parent_shutdown.trans first.parent_shutdown
  networks := later.networks.trans first.networks

theorem Alike.config_read (alike : Alike af next) (name : String) : next.config_read name = af.config_read name := by
  unfold AddressFamily.config_read
  rw [alike.interfaces]

theorem Alike.effective (alike : Alike af next) (name : String) : next.shutdown_effective name = af.shutdown_effective name := by
  unfold AddressFamily.shutdown_effective AddressFamily.config_shutdown_effective
  rw [alike.config_read name,alike.config_read "default"]

/-- A name without a configuration of its own is judged by the defaults in either case. -/
theorem shutdown_default (af : AddressFamily) (name : String) :
    af.config_shutdown_effective ((af.config_read name).or (af.config_read "default")) = af.shutdown_effective name := by
  unfold AddressFamily.shutdown_effective AddressFamily.config_shutdown_effective
  cases af.config_read name with
  | some config => rfl
  | none =>
    cases af.config_read "default" with
    | none => rfl
    | some config => cases configured : config.shutdown_configured <;> simp [Option.filter,configured]

theorem Alike.matches (alike : Alike af next) (connected : Portable.Prefix) :
    network_runtime_matches next connected = network_runtime_matches af connected := by
  unfold network_runtime_matches
  rw [alike.afi,alike.networks]

theorem Alike.enabled (alike : Alike af next) (state : RuntimeState) :
    network_interface_enabled next state = network_interface_enabled af state := by
  unfold network_interface_enabled network_ipv6_passive_connected
  rw [alike.matches,alike.afi,alike.config_read]

/-- The list of interfaces is in order: the descriptors are told apart, no two interfaces share an index of the host, and the
    networks are listed once. -/
structure Kept (afi : Afi) (af : AddressFamily) : Prop where
  numbers : (af.eiflist.map (·.id)).Nodup
  below : ∀ ei ∈ af.eiflist, ei.id < af.next_id
  indices : ∀ ei ∈ af.eiflist, ∀ other ∈ af.eiflist, ei.ifindex = other.ifindex → ei.ifindex ≠ 0 → ei.id = other.id
  networks : af.networks.Nodup
  covered : afi = .ipv4 → ∀ ei ∈ af.eiflist, network_runtime_matches af ei.address = true
  family : af.afi = afi

theorem Kept.unique (kept : Kept afi af) (member : ei ∈ af.eiflist) (other : old ∈ af.eiflist) (same : ei.id = old.id) : ei = old :=
  List.inj_on_of_nodup_map kept.numbers member other same

/-- The interfaces of a list, thinned out or with other timers. -/
theorem Kept.timed (kept : Kept afi af) (alike : Alike af next) (following : next.next_id = af.next_id)
    (numbers : (next.eiflist.map (·.id)).Nodup)
    (listed : ∀ ei ∈ next.eiflist, ∃ old ∈ af.eiflist, ei.id = old.id ∧ ei.ifindex = old.ifindex ∧ ei.address = old.address) :
    Kept afi next := by
  refine ⟨numbers,?_,?_,alike.networks ▸ kept.networks,?_,alike.afi.trans kept.family⟩
  · intro ei member
    obtain ⟨old,stored,same,_⟩ := listed ei member
    rw [same,following]
    exact kept.below old stored
  · intro ei member other present same indexed
    obtain ⟨old,stored,number,index,_⟩ := listed ei member
    obtain ⟨former,kept_too,numbered,indices,_⟩ := listed other present
    rw [number,numbered]
    exact kept.indices old stored former kept_too (by rw [← index,← indices,same]) (index ▸ indexed)
  · intro family ei member
    obtain ⟨old,stored,_,_,address⟩ := listed ei member
    rw [alike.matches,address]
    exact kept.covered family old stored

/-- A number that is used up. -/
theorem Kept.counted (kept : Kept afi af) {next_id : Nat} (le : af.next_id ≤ next_id) : Kept afi { af with next_id } :=
  ⟨kept.numbers,fun ei member => (kept.below ei member).trans_le le,kept.indices,kept.networks,kept.covered,kept.family⟩

theorem write_absent (absent : ∀ ei ∈ af.eiflist, ei.id ≠ id) : af.write id change = af := by
  have same : (af.eiflist.map fun ei => if ei.id = id then change ei else ei) = af.eiflist :=
    (List.map_congr_left fun ei member => if_neg (absent ei member)).trans (List.map_id _)
  unfold AddressFamily.write
  rw [same]

end Lists

/-! ## The update of an interface -/

section Updates
variable {afi : Afi} {memory : Memory} {af next : AddressFamily} {ei : Intf} {state : RuntimeState} {id : Nat}

/-- The interface that a state of the host is taken for: the one with the index, else the one with the name, else a new one. -/
inductive Origin (af : AddressFamily) (state : RuntimeState) : Nat → Prop
  | index {ei : Intf} : ei ∈ af.eiflist → ei.ifindex = state.ifindex → state.ifindex ≠ 0 → Origin af state ei.id
  | name {ei : Intf} : af.lookup_by_ifindex state.ifindex = none → ei ∈ af.eiflist → ei.name = state.interface_name →
      Origin af state ei.id
  | new : af.lookup_by_ifindex state.ifindex = none → (∀ ei ∈ af.eiflist, ei.name ≠ state.interface_name) →
      Origin af state af.next_id

/-- One interface is of the state now, the others are as they were. -/
structure Placed (memory : Memory) (af : AddressFamily) (state : RuntimeState) (id : Nat) (next : AddressFamily) : Prop where
  alike : Alike af next
  router_id : next.router_id = af.router_id
  others : ∀ ei, ei.id ≠ id → (ei ∈ next.eiflist ↔ ei ∈ af.eiflist)
  own : ∀ ei ∈ next.eiflist, ei.id = id → ei.ifindex = state.ifindex ∧ ei.address = state.address ∧ ei.operative = state.operative ∧
    (memory.name state.interface_name = true → ei.name = state.interface_name)
  present : ∃ ei ∈ next.eiflist, ei.id = id
  numbers : (next.eiflist.map (·.id)).Nodup
  below : ∀ ei ∈ next.eiflist, ei.id < next.next_id

theorem Placed.rerun (placed : Placed memory af state id next) (run : Intf → Bool) :
    Placed memory af state id (next.write id fun ei => { ei with t_hello := run ei }) := by
  refine ⟨placed.alike.trans ⟨rfl,rfl,rfl,rfl,rfl,rfl⟩,placed.router_id,?_,?_,?_,?_,write_below (fun _ => rfl) placed.below⟩
  · intro ei other
    rw [← placed.others ei other]
    exact mem_write_other (fun _ => rfl) other
  · intro ei member own
    obtain ⟨old,stored,former,rfl⟩ := mem_write_own member own
    exact placed.own old stored former
  · obtain ⟨ei,member,own⟩ := placed.present
    exact ⟨_,mem_write.mpr ⟨ei,member,rfl⟩,by simp [own]⟩
  · rw [write_numbers (fun ei => { ei with t_hello := run ei }) fun _ => rfl]
    exact placed.numbers

/-- The write of a state to an interface that is listed. -/
theorem written_placed (kept : Kept afi af) (valid : state.address.valid = true) (listed : ei ∈ af.eiflist) {change : Intf → Intf}
    (states : ∀ ei, change ei = { intf_runtime_state_update memory ei state with params_type := (change ei).params_type }) :
    Placed memory af state ei.id (af.write ei.id change) := by
  have number (ei : Intf) : (change ei).id = ei.id := by rw [states ei]; rfl
  have own (old : Intf) : (change old).ifindex = state.ifindex ∧ (change old).address = state.address ∧
      (change old).operative = state.operative ∧
      (memory.name state.interface_name = true → (change old).name = state.interface_name) := by
    rw [states old]
    refine ⟨rfl,if_pos valid,rfl,fun granted => ?_⟩
    show (if _ ∧ _ then _ else _) = _
    by_cases same : old.name = state.interface_name
    · simp [same]
    · simp [same,granted]
  refine ⟨⟨rfl,rfl,rfl,rfl,rfl,rfl⟩,rfl,fun other apart => mem_write_other number apart,?_,?_,?_,write_below number kept.below⟩
  · intro other member target
    obtain ⟨old,_,_,rfl⟩ := mem_write_own member target
    exact own old
  · exact ⟨_,mem_write.mpr ⟨ei,listed,if_pos rfl⟩,number ei⟩
  · rw [write_numbers change number]
    exact kept.numbers

/-- The creation of an interface. -/
theorem created_placed (kept : Kept afi af) :
    Placed memory af state af.next_id { af with eiflist := af.eiflist ++ [intf_created af state], next_id := af.next_id + 1 } := by
  have listed (ei : Intf) : ei ∈ af.eiflist ++ [intf_created af state] ↔ ei ∈ af.eiflist ∨ ei = intf_created af state := by simp
  refine ⟨⟨rfl,rfl,rfl,rfl,rfl,rfl⟩,rfl,?_,?_,?_,?_,?_⟩
  · intro ei other
    rw [listed]
    refine or_iff_left fun same => other ?_
    rw [same]
    rfl
  · intro ei member own
    rcases (listed ei).mp member with stored | rfl
    · exact absurd own (Nat.ne_of_lt (kept.below ei stored))
    · exact ⟨rfl,rfl,rfl,fun _ => rfl⟩
  · exact ⟨intf_created af state,(listed _).mpr (.inr rfl),rfl⟩
  · rw [List.map_append,List.nodup_append]
    refine ⟨kept.numbers,by simp,?_⟩
    intro number stored other last
    obtain ⟨ei,member,rfl⟩ := List.mem_map.mp stored
    rw [List.map_singleton,List.mem_singleton] at last
    rw [last]
    exact Nat.ne_of_lt (kept.below ei member)
  · intro ei member
    rcases (listed ei).mp member with stored | rfl
    · exact Nat.lt_succ_of_lt (kept.below ei stored)
    · exact Nat.lt_succ_self _

/-- Whether a state of the host may run. -/
def Allowed (af : AddressFamily) (state : RuntimeState) : Prop :=
  af.shutdown = false ∧ af.shutdown_effective state.interface_name = false ∧ state.operative = true

/-- The state is written to the list, before anything is started or stopped, unless a new interface is refused its place there. -/
theorem present_placed (kept : Kept afi af) (valid : state.address.valid = true)
    (done : intf_runtime_present memory af state = some (id,next)) :
    (memory.place state.interface_name = false ∧ id = af.next_id ∧ next = { af with next_id := af.next_id + 1 } ∧
      af.lookup_by_ifindex state.ifindex = none) ∨
    Placed memory af state id next ∧ Origin af state id ∧
      (∀ ei ∈ next.eiflist, ei.id = id → ei.t_hello = true → ∃ old ∈ af.eiflist, old.id = id ∧ old.t_hello = true) ∧
      ∀ old, af.lookup_by_ifindex state.ifindex = some old → id = old.id ∧ ∀ ei ∈ next.eiflist, ei.id = id → ei.t_hello = old.t_hello := by
  have running {ei other : Intf} {change : Intf → Intf} (member : other ∈ (af.write ei.id change).eiflist) (own : other.id = ei.id)
      (timer : ∀ ei, (change ei).t_hello = ei.t_hello) : ∃ old ∈ af.eiflist, old.id = ei.id ∧ old.t_hello = other.t_hello := by
    obtain ⟨old,stored,former,rfl⟩ := mem_write_own member own
    exact ⟨old,stored,former,(timer old).symm⟩
  unfold intf_runtime_present at done
  cases found : af.lookup_by_ifindex state.ifindex with
  | some ei =>
    rw [found] at done
    cases done
    obtain ⟨stored,index,indexed⟩ := lookup_by_ifindex_some found
    refine .inr ⟨written_placed kept valid stored fun _ => rfl,.index stored index indexed,?_,?_⟩
    · intro other member own up
      obtain ⟨old,listed,same,timer⟩ := running member own fun _ => rfl
      exact ⟨old,listed,same,timer.trans up⟩
    · rintro old ⟨⟩
      refine ⟨rfl,fun other member own => ?_⟩
      obtain ⟨former,listed,same,timer⟩ := running member own fun _ => rfl
      rw [← timer,kept.unique listed stored same]
  | none =>
    rw [found] at done
    dsimp only at done
    unfold intf_runtime_create at done
    rw [found,Option.none_or] at done
    split at done
    · cases done
    · cases named : af.lookup_by_name state.interface_name with
      | some ei =>
        rw [named] at done
        dsimp only at done
        cases done
        obtain ⟨stored,same⟩ := lookup_by_name_some named
        refine .inr ⟨written_placed kept valid stored fun _ => rfl,.name found stored same,?_,fun _ listed => by cases listed⟩
        intro other member own up
        obtain ⟨old,listed,former,timer⟩ := running member own fun _ => rfl
        exact ⟨old,listed,former,timer.trans up⟩
      | none =>
        rw [named] at done
        dsimp only at done
        split at done
        · cases place : memory.place state.interface_name with
          | false =>
            simp only [place,Bool.false_eq_true,if_false,List.append_nil] at done
            cases done
            exact .inl ⟨rfl,rfl,rfl,rfl⟩
          | true =>
            simp only [place,if_true] at done
            cases done
            refine .inr ⟨created_placed kept,.new found (lookup_by_name_none named),?_,fun _ listed => by cases listed⟩
            intro ei member own up
            rcases List.mem_append.mp member with stored | last
            · exact ⟨ei,stored,own,up⟩
            · rw [List.mem_singleton.mp last] at up
              cases up
        · cases done

/-- An accepted state is written unless there is no memory for its name. -/
theorem present_refused (accepted : ¬ (state.interface_name = "" ∨ ¬ state.address.valid)) (done : intf_runtime_present memory af state = none) :
    memory.name state.interface_name = false := by
  unfold intf_runtime_present at done
  split at done
  · cases done
  · unfold intf_runtime_create at done
    rw [if_neg accepted] at done
    split at done
    · cases done
    · split at done
      · cases done
      · rename_i refused
        simpa using refused

/-- What an update does. It does nothing for want of a name, an address or memory, but for using up a number. Else the interface of the
    state runs if it may, and it may run without being allowed to only when it was known by its name alone and ran before. -/
theorem runtime_update_cases (kept : Kept afi af) :
    (∃ next_id, af.next_id ≤ next_id ∧ (intf_runtime_update memory af state).2 = { af with next_id } ∧
      (state.interface_name = "" ∨ state.address.valid = false ∨ memory.name state.interface_name = false ∨
        memory.place state.interface_name = false)) ∨
    ∃ id, state.address.valid = true ∧ Placed memory af state id (intf_runtime_update memory af state).2 ∧ Origin af state id ∧
      ∀ ei ∈ (intf_runtime_update memory af state).2.eiflist, ei.id = id →
        (Allowed af state → (memory.timer id = true → ei.t_hello = true)) ∧
        (¬ Allowed af state → ei.t_hello = true → af.lookup_by_ifindex state.ifindex = none ∧
          ∃ old ∈ af.eiflist, old.id = id ∧ old.t_hello = true) := by
  unfold intf_runtime_update
  split
  · rename_i refused
    refine .inl ⟨af.next_id,le_rfl,rfl,?_⟩
    rcases refused with unnamed | invalid
    · exact .inl unnamed
    · exact .inr (.inl (by simpa using invalid))
  · rename_i accepted
    obtain ⟨named,valid⟩ := not_or.mp accepted
    have valid : state.address.valid = true := by simpa using valid
    dsimp only
    cases done : intf_runtime_present memory af state with
    | none =>
      exact .inl ⟨af.next_id,le_rfl,rfl,.inr (.inr (.inl (present_refused accepted done)))⟩
    | some result =>
      obtain ⟨id,next⟩ := result
      rcases present_placed kept valid done with ⟨place,rfl,rfl,missing⟩ | ⟨placed,origin,before,known⟩
      · refine .inl ⟨af.next_id + 1,Nat.le_succ _,?_,.inr (.inr (.inr place))⟩
        have lost (change : Intf → Intf) : AddressFamily.write { af with next_id := af.next_id + 1 } af.next_id change =
            { af with next_id := af.next_id + 1 } := write_absent fun ei member => Nat.ne_of_lt (kept.below ei member)
        simp only [missing,Option.any_none,Bool.false_eq_true,false_and,if_false,lost]
        split <;> rfl
      refine .inr ⟨id,valid,?_⟩
      dsimp only
      rw [shutdown_default,placed.alike.effective,placed.alike.shutdown]
      split
      · rename_i stopped
        have refused : ¬ Allowed af state := by
          rintro ⟨up,free,operative⟩
          rw [up,free,operative] at stopped
          simp at stopped
        split
        · refine ⟨placed.rerun fun _ => false,origin,?_⟩
          intro ei member own
          obtain ⟨_,_,_,rfl⟩ := mem_write_own member own
          exact ⟨fun allowed => absurd allowed refused,fun _ up => by cases up⟩
        · rename_i idle
          refine ⟨placed,origin,?_⟩
          intro ei member own
          refine ⟨fun allowed => absurd allowed refused,fun _ up => ?_⟩
          cases found : af.lookup_by_ifindex state.ifindex with
          | none => exact ⟨rfl,before ei member own up⟩
          | some old =>
            rw [found] at idle
            exact absurd (((known old found).2 ei member own).symm.trans up) (by simpa using idle)
      · rename_i going
        have allowed : Allowed af state := by
          simp only [not_or,Bool.not_eq_true,Bool.not_eq_false] at going
          exact ⟨going.1,going.2.1,going.2.2⟩
        have started (run : Intf → Bool) (timer : ∀ ei ∈ next.eiflist, ei.id = id → run ei = memory.timer id) :
            ∀ ei ∈ (next.write id fun ei => { ei with t_hello := run ei }).eiflist, ei.id = id →
              (Allowed af state → (memory.timer id = true → ei.t_hello = true)) ∧
              (¬ Allowed af state → ei.t_hello = true → af.lookup_by_ifindex state.ifindex = none ∧
                ∃ old ∈ af.eiflist, old.id = id ∧ old.t_hello = true) := by
          intro ei member own
          obtain ⟨old,stored,former,rfl⟩ := mem_write_own member own
          exact ⟨fun _ granted => (timer old stored former).trans granted,fun refused => absurd allowed refused⟩
        split
        · exact ⟨placed.rerun fun ei => memory.timer ei.id,origin,started (fun ei => memory.timer ei.id) fun ei _ own => by rw [own]⟩
        · split
          · rename_i running
            refine ⟨placed,origin,fun ei member own => ⟨fun _ _ => ?_,fun refused => absurd allowed refused⟩⟩
            cases found : af.lookup_by_ifindex state.ifindex with
            | none =>
              rw [found] at running
              cases running
            | some old =>
              rw [found] at running
              rw [(known old found).2 ei member own]
              simpa using running
          · exact ⟨placed.rerun fun ei => memory.timer ei.id,origin,started (fun ei => memory.timer ei.id) fun ei _ own => by rw [own]⟩

end Updates

/-! ## What every operation keeps -/

section Keeping
variable {host : Host} {af next : AddressFamily} {state : RuntimeState} {Holds : AddressFamily → Prop}

/-- What every update of an enabled interface keeps is kept by the walk over the interfaces of the host. -/
theorem intfs_update_keeps (update : ∀ af, Holds af → ∀ state ∈ host.walk.getD [], network_interface_enabled af state = true →
    Holds (intf_runtime_update host.memory af state).2) (holds : Holds af) : Holds (network_intfs_update host af) := by
  unfold network_intfs_update
  split
  · exact holds
  · have walked (states : List RuntimeState) (given : ∀ state ∈ states, state ∈ host.walk.getD []) (af : AddressFamily)
        (holds : Holds af) : Holds (states.foldl (network_intf_walk_update host.memory) af) := by
      induction states generalizing af with
      | nil => exact holds
      | cons state states ih =>
        refine ih (fun state member => given state (List.mem_cons_of_mem _ member)) _ ?_
        unfold network_intf_walk_update
        split
        · exact holds
        · rename_i visited
          simp only [not_or,not_not] at visited
          exact update af holds state (given state List.mem_cons_self) visited.2.2
    exact walked _ (fun _ member => member) af holds

theorem router_id_update_keeps (update : ∀ af, Holds af → ∀ state ∈ host.walk.getD [], network_interface_enabled af state = true →
    Holds (intf_runtime_update host.memory af state).2) (routed : ∀ af router_id, Holds af → Holds { af with router_id })
    (holds : Holds af) : Holds (router_id_update host af) := by
  unfold router_id_update
  generalize (if af.router_id_static ≠ 0 then af.router_id_static else if af.router_id ≠ 0 then af.router_id
    else (router_id_auto_select host).getD 0) = router_id
  dsimp only
  split
  · exact intfs_update_keeps update (routed af router_id holds)
  · exact routed af router_id holds

/-- The interfaces that `eigrp_instance_start` starts. -/
def started (memory : Memory) (af : AddressFamily) : AddressFamily :=
  { af with eiflist := af.eiflist.map fun ei =>
      if af.shutdown_effective ei.name ∨ ¬ ei.operative ∨ ei.t_hello then ei else intf_up memory ei }

theorem instance_start_keeps (update : ∀ af, Holds af → ∀ state ∈ host.walk.getD [], network_interface_enabled af state = true →
    Holds (intf_runtime_update host.memory af state).2) (routed : ∀ af router_id, Holds af → Holds { af with router_id })
    (start : ∀ af, Holds af → Holds (started host.memory af)) (holds : Holds af) : Holds (instance_start host af) := by
  have identified : Holds (if af.router_id = 0 then router_id_update host af else af) := by
    split
    · exact router_id_update_keeps update routed holds
    · exact holds
  unfold instance_start
  generalize (if af.router_id = 0 then router_id_update host af else af) = following at identified ⊢
  dsimp only
  split
  · exact identified
  · exact start _ (intfs_update_keeps update identified)

theorem intf_update_keeps (update : ∀ af, Holds af → ∀ state ∈ host.walk.getD [], network_interface_enabled af state = true →
    Holds (intf_runtime_update host.memory af state).2) (routed : ∀ af router_id, Holds af → Holds { af with router_id })
    (own : ∀ af, Holds af → network_interface_enabled af state = true → Holds (intf_runtime_update host.memory af state).2)
    (holds : Holds af) : Holds (network_intf_update host af state) := by
  have identified : Holds (if af.router_id = 0 then router_id_update host af else af) := by
    split
    · exact router_id_update_keeps update routed holds
    · exact holds
  unfold network_intf_update
  split
  · exact holds
  · generalize (if af.router_id = 0 then router_id_update host af else af) = following at identified ⊢
    dsimp only
    split
    · exact identified
    · rename_i enabled
      simp only [not_or,not_not] at enabled
      exact own _ identified enabled.2

end Keeping

/-! ## The list of interfaces over a run -/

section Runs
variable {afi : Afi} {host : Host} {memory : Memory} {af next : AddressFamily} {ei old : Intf} {state : RuntimeState} {id : Nat}

theorem Kept.unindexed (kept : Kept afi af) (origin : Origin af state id) (apart : ei.id ≠ id) (member : ei ∈ af.eiflist)
    (indexed : ei.ifindex ≠ 0) : ei.ifindex ≠ state.ifindex := by
  intro same
  cases origin with
  | index stored index _ => exact apart (kept.indices ei member _ stored (same.trans index.symm) indexed)
  | name missing _ _ => exact lookup_by_ifindex_none missing (same ▸ indexed) ei member same
  | new missing _ => exact lookup_by_ifindex_none missing (same ▸ indexed) ei member same

theorem Kept.placed (kept : Kept afi af) (origin : Origin af state id) (placed : Placed memory af state id next)
    (enabled : afi = .ipv4 → network_runtime_matches af state.address = true) : Kept afi next := by
  refine ⟨placed.numbers,placed.below,?_,placed.alike.networks ▸ kept.networks,?_,placed.alike.afi.trans kept.family⟩
  · intro ei member other present same indexed
    by_cases own : ei.id = id
    · by_cases mine : other.id = id
      · exact own.trans mine.symm
      · have stored := (placed.others other mine).mp present
        have index := (placed.own ei member own).1
        exact absurd (same.symm.trans index) (kept.unindexed origin mine stored (same ▸ indexed))
    · have listed := (placed.others ei own).mp member
      by_cases mine : other.id = id
      · exact absurd (same.trans (placed.own other present mine).1) (kept.unindexed origin own listed indexed)
      · exact kept.indices ei listed other ((placed.others other mine).mp present) same indexed
  · intro family ei member
    rw [placed.alike.matches]
    by_cases own : ei.id = id
    · rw [(placed.own ei member own).2.1]
      exact enabled family
    · exact kept.covered family ei ((placed.others ei own).mp member)

theorem enabled_matches (family : af.afi = .ipv4) (enabled : network_interface_enabled af state = true) :
    network_runtime_matches af state.address = true := by
  unfold network_interface_enabled at enabled
  rcases Bool.or_eq_true _ _ ▸ enabled with matched | passive
  · exact matched
  · simp [network_ipv6_passive_connected,family] at passive

theorem Kept.update (kept : Kept afi af) (enabled : network_interface_enabled af state = true) :
    Kept afi (intf_runtime_update memory af state).2 := by
  rcases @runtime_update_cases afi memory af state kept with ⟨_,le,same,_⟩ | ⟨id,_,placed,origin,_⟩
  · rw [same]
    exact kept.counted le
  · exact kept.placed origin placed fun family => enabled_matches (kept.family.trans family) enabled

theorem Kept.routed (kept : Kept afi af) (router_id : UInt32) : Kept afi { af with router_id } :=
  ⟨kept.numbers,kept.below,kept.indices,kept.networks,kept.covered,kept.family⟩

/-- The timers of the interfaces are other ones. -/
theorem Kept.mapped (kept : Kept afi af) {change : Intf → Intf}
    (timer : ∀ ei ∈ af.eiflist, (change ei).id = ei.id ∧ (change ei).ifindex = ei.ifindex ∧ (change ei).address = ei.address)
    (alike : Alike af next) (following : next.next_id = af.next_id) (listed : next.eiflist = af.eiflist.map change) : Kept afi next := by
  refine kept.timed alike following ?_ ?_
  · have same : (next.eiflist.map fun ei => ei.id) = af.eiflist.map fun ei => ei.id := by
      rw [listed,List.map_map]
      exact List.map_congr_left fun ei member => (timer ei member).1
    exact same ▸ kept.numbers
  · intro ei member
    obtain ⟨old,stored,rfl⟩ := List.mem_map.mp (listed ▸ member)
    exact ⟨old,stored,timer old stored⟩

theorem Kept.filtered (kept : Kept afi af) {left : Intf → Bool} (alike : Alike af next) (following : next.next_id = af.next_id)
    (listed : next.eiflist = af.eiflist.filter left) : Kept afi next := by
  refine kept.timed alike following ?_ fun ei member => ⟨ei,(List.mem_filter.mp (listed ▸ member)).1,rfl,rfl,rfl⟩
  rw [listed]
  exact kept.numbers.sublist (List.filter_sublist.map _)

theorem Kept.stopped (kept : Kept afi af) : Kept afi (instance_stop af) :=
  kept.mapped (fun ei _ => by split <;> exact ⟨rfl,rfl,rfl⟩) ⟨rfl,rfl,rfl,rfl,rfl,rfl⟩ rfl rfl

theorem Kept.start (kept : Kept afi af) : Kept afi (started memory af) :=
  kept.mapped (fun ei _ => by split <;> exact ⟨rfl,rfl,rfl⟩) ⟨rfl,rfl,rfl,rfl,rfl,rfl⟩ rfl rfl

theorem Kept.instance_start (kept : Kept afi af) : Kept afi (instance_start host af) :=
  instance_start_keeps (fun _ kept _ _ enabled => kept.update enabled) (fun _ router_id kept => kept.routed router_id)
    (fun _ kept => kept.start) kept

theorem Kept.router_id_update (kept : Kept afi af) : Kept afi (router_id_update host af) :=
  router_id_update_keeps (fun _ kept _ _ enabled => kept.update enabled) (fun _ router_id kept => kept.routed router_id) kept

theorem Kept.write (kept : Kept afi af) {change : Intf → Intf}
    (timer : ∀ ei ∈ af.eiflist, ei.id = id →
      (change ei).id = ei.id ∧ (change ei).ifindex = ei.ifindex ∧ (change ei).address = ei.address) : Kept afi (af.write id change) := by
  refine kept.mapped (fun ei member => ?_) ⟨rfl,rfl,rfl,rfl,rfl,rfl⟩ rfl rfl
  split
  · rename_i own
    exact timer ei member own
  · exact ⟨rfl,rfl,rfl⟩

/-- A configuration that the list of interfaces does not depend on. -/
theorem Kept.configured (kept : Kept afi af) (configured : List Portable.Prefix) (interfaces : List IntfConfig)
    (shutdown parent_shutdown : Bool) (router_id_static : UInt32) :
    Kept afi { af with configured, interfaces, shutdown, parent_shutdown, router_id_static } :=
  ⟨kept.numbers,kept.below,kept.indices,kept.networks,kept.covered,kept.family⟩

theorem matches_added {network connected : Portable.Prefix} (matched : network_runtime_matches af connected = true) :
    network_runtime_matches { af with networks := network :: af.networks } connected = true := by
  unfold network_runtime_matches at matched ⊢
  cases family : af.afi with
  | ipv6 => simpa [family] using matched
  | ipv4 =>
    simp only [family,Bool.and_eq_true,List.any_cons,Bool.or_eq_true] at matched ⊢
    exact ⟨matched.1,.inr matched.2⟩

theorem runtime_create_kept (kept : Kept afi af) (network : Portable.Prefix) : Kept afi (network_runtime_create host af network).2 := by
  unfold network_runtime_create
  split
  · exact kept
  · rename_i new
    split
    · have added : Kept afi { af with networks := network :: af.networks } :=
        ⟨kept.numbers,kept.below,kept.indices,List.nodup_cons.mpr ⟨new,kept.networks⟩,
          fun family ei member => matches_added (kept.covered family ei member),kept.family⟩
      dsimp only
      split
      · exact added.router_id_update
      · exact intfs_update_keeps (fun _ kept _ _ enabled => kept.update enabled) added
    · exact kept

theorem config_create_same (network : Portable.Prefix) : ∃ configured,
    (network_config_create host af network).2.2 = { af with configured } := by
  unfold network_config_create
  split
  · exact ⟨af.configured,rfl⟩
  · split
    · exact ⟨_,rfl⟩
    · exact ⟨af.configured,rfl⟩

theorem config_delete_same (network : Portable.Prefix) : ∃ configured, (network_config_delete af network).2 = { af with configured } := by
  unfold network_config_delete
  split
  · exact ⟨_,rfl⟩
  · exact ⟨af.configured,rfl⟩

theorem Kept.config_deleted (kept : Kept afi af) (network : Portable.Prefix) : Kept afi (network_config_delete af network).2 := by
  obtain ⟨configured,same⟩ := @config_delete_same af network
  rw [same]
  exact kept.configured configured _ _ _ _

theorem network_create_kept (kept : Kept afi af) (context : Context) (network : Portable.Prefix) :
    Kept afi (network_create host af context network).2 := by
  unfold network_create
  split
  · have first : Kept afi (if context.config then network_config_create host af network else (.success,false,af)).2.2 := by
      split
      · obtain ⟨configured,same⟩ := @config_create_same host af network
        rw [same]
        exact kept.configured configured _ _ _ _
      · exact kept
    generalize (if context.config then network_config_create host af network else (.success,false,af)) = created at first ⊢
    obtain ⟨configured,config_changed,af⟩ := created
    dsimp only at first ⊢
    split
    · exact first
    · split
      · split
        · exact (runtime_create_kept first network).config_deleted network
        · exact runtime_create_kept first network
      · exact first
  · exact kept

theorem runtime_delete_kept (kept : Kept afi af) (network : Portable.Prefix) : Kept afi (network_runtime_delete af network).2 := by
  unfold network_runtime_delete
  split
  · refine ⟨?_,?_,?_,kept.networks.erase network,?_,kept.family⟩
    · exact kept.numbers.sublist (List.filter_sublist.map _)
    · intro ei member
      exact kept.below ei (List.mem_filter.mp member).1
    · intro ei member other present
      exact kept.indices ei (List.mem_filter.mp member).1 other (List.mem_filter.mp present).1
    · intro _ ei member
      exact (List.mem_filter.mp member).2
  · exact kept

theorem network_delete_kept (kept : Kept afi af) (context : Context) (network : Portable.Prefix) :
    Kept afi (network_delete af context network).2 := by
  unfold network_delete
  split
  · have first : Kept afi (if context.config then network_config_delete af network else (.not_found,af)).2 := by
      split
      · exact kept.config_deleted network
      · exact kept
    dsimp only
    split
    · exact runtime_delete_kept first network
    · exact first
  · exact kept

theorem instance_event_kept (kept : Kept afi af) (told : Event) : Kept afi (instance_event_process host af told) := by
  cases told with
  | routerid_update => exact kept.router_id_update
  | intf_update state =>
    exact intf_update_keeps (fun _ kept _ _ enabled => kept.update enabled) (fun _ router_id kept => kept.routed router_id)
      (fun _ kept enabled => kept.update enabled) kept
  | intf_down ifindex type bandwidth mtu =>
    simp only [instance_event_process]
    split
    · rename_i ei found
      obtain ⟨stored,index,_⟩ := lookup_by_ifindex_some found
      refine kept.write fun old listed same => ?_
      obtain rfl := kept.unique listed stored same
      exact ⟨rfl,index.symm,by simp [intf_down,intf_runtime_state_update_values,intf_runtime_state_update]⟩
    · exact kept
  | intf_remove ifindex =>
    simp only [instance_event_process]
    cases af.lookup_by_ifindex ifindex with
    | none => exact kept
    | some ei => exact kept.filtered ⟨rfl,rfl,rfl,rfl,rfl,rfl⟩ rfl rfl
  | intf_addr_update ifindex address =>
    simp only [instance_event_process]
    split
    · split
      · exact kept.filtered ⟨rfl,rfl,rfl,rfl,rfl,rfl⟩ rfl rfl
      · exact kept
    · exact kept

theorem intf_shutdown_kept (kept : Kept afi af) (name : String) (shutdown : Bool) : Kept afi (intf_shutdown_update host af name shutdown) := by
  have runtime {af : AddressFamily} (kept : Kept afi af) : Kept afi (intf_shutdown_runtime host af name shutdown) := by
    unfold intf_shutdown_runtime
    split
    · split
      · exact kept.write fun _ _ _ => ⟨rfl,rfl,rfl⟩
      · split
        · exact kept.instance_start
        · exact kept
    · exact kept
  have defaults {af : AddressFamily} (kept : Kept afi af) : Kept afi (intf_shutdown_defaults host af name shutdown) := by
    unfold intf_shutdown_defaults
    split
    · refine kept.mapped (fun ei _ => ?_) ⟨rfl,rfl,rfl,rfl,rfl,rfl⟩ rfl rfl
      split
      · exact ⟨rfl,rfl,rfl⟩
      · split
        · exact ⟨rfl,rfl,rfl⟩
        · split <;> exact ⟨rfl,rfl,rfl⟩
    · exact kept
  unfold intf_shutdown_update
  split
  · exact defaults (runtime (kept.configured _ _ _ _ _))
  · exact kept

theorem step_kept (kept : Kept afi af) (operation : Operation) : Kept afi (af.step host operation) := by
  cases operation with
  | network_create context network => exact network_create_kept kept context network
  | network_delete context network => exact network_delete_kept kept context network
  | router_id_update router_id =>
    have chosen (router_id_static : UInt32) : Kept afi (router_id_update host { af with router_id_static }) :=
      (kept.configured _ _ _ _ router_id_static).router_id_update
    cases router_id with
    | none => exact chosen 0
    | some router_id =>
      simp only [AddressFamily.step,instance_router_id_update]
      split
      · exact kept
      · exact chosen router_id
  | af_config_shutdown_update shutdown =>
    have next : Kept afi { af with shutdown } := kept.configured _ _ shutdown _ _
    simp only [AddressFamily.step,af_config_shutdown_update]
    split
    · exact kept
    · split
      · exact next.stopped
      · exact next.instance_start
  | named_config_shutdown_update shutdown =>
    have next : Kept afi { af with parent_shutdown := shutdown } := kept.configured _ _ _ shutdown _
    simp only [AddressFamily.step,named_config_shutdown_update]
    split
    · exact kept
    · split
      · exact next
      · split
        · exact next.stopped
        · exact next.instance_start
  | intf_config_create name =>
    simp only [AddressFamily.step,intf_config_create]
    split
    · exact kept
    · exact kept.configured _ _ _ _ _
  | intf_config_delete name =>
    simp only [AddressFamily.step,intf_config_delete]
    split
    · exact kept
    · exact kept.configured _ _ _ _ _
  | intf_shutdown_update name shutdown => exact intf_shutdown_kept kept name shutdown
  | intf_metric_update name =>
    simp only [AddressFamily.step,intf_metric_update]
    cases af.lookup_by_name name with
    | none => exact kept
    | some ei => exact kept.write fun _ _ _ => ⟨rfl,rfl,rfl⟩
  | intf_passive_update name passive => exact kept.configured _ _ _ _ _
  | event told => exact instance_event_kept kept told
  | hello_timer id =>
    refine kept.write fun ei _ _ => ?_
    split <;> exact ⟨rfl,rfl,rfl⟩

/-- The runs of an address family. -/
inductive Reached (Meets : Host → AddressFamily → Operation → Prop) (afi : Afi) : AddressFamily → Prop
  | start : Reached Meets afi { afi }
  | step {host : Host} {af : AddressFamily} {operation : Operation} : Reached Meets afi af → Meets host af operation →
      Reached Meets afi (af.step host operation)

variable {Meets : Host → AddressFamily → Operation → Prop}

theorem reached_kept (reached : Reached Meets afi af) : Kept afi af := by
  induction reached with
  | start => exact ⟨List.nodup_nil,by simp,by simp,List.nodup_nil,by simp,rfl⟩
  | step _ _ ih => exact step_kept ih _

/-- In every run of an IPv4 address family every interface that EIGRP is on has an address that a network statement in force
    covers, no two interfaces share an index of the host, and no network is in force twice. -/
theorem interfaces_covered (reached : Reached Meets .ipv4 af) :
    (∀ ei ∈ af.eiflist, ei.address.valid = true ∧ ∃ network ∈ af.networks, network.address_match ei.address.address = true) ∧
      (∀ ei ∈ af.eiflist, ∀ other ∈ af.eiflist, ei.ifindex = other.ifindex → ei.ifindex ≠ 0 → ei = other) ∧ af.networks.Nodup := by
  have kept := reached_kept reached
  refine ⟨?_,?_,kept.networks⟩
  · intro ei member
    have matched := kept.covered rfl ei member
    unfold network_runtime_matches at matched
    rw [kept.family] at matched
    simp only [Bool.and_eq_true,List.any_eq_true] at matched
    exact ⟨matched.1.1,matched.2⟩
  · intro ei member other present same indexed
    exact kept.unique member present (kept.indices ei member other present same indexed)

/-- The operator configures the network of one interface of the host. -/
def covering : AddressFamily := ({ afi := .ipv4 } : AddressFamily).step { walk := some [lo,eth0] } (.network_create {} ten)

theorem covering_reached {Meets : Host → AddressFamily → Operation → Prop}
    (meets : Meets { walk := some [lo,eth0] } { afi := .ipv4 } (.network_create {} ten)) : Reached Meets .ipv4 covering :=
  .step .start meets

/-- EIGRP is on the interface and not on the loopback. -/
theorem interfaces_covered_ten : covering.eiflist.map (·.name) = ["eth0"] ∧
    ∀ ei ∈ covering.eiflist, ei.address.valid = true ∧ ∃ network ∈ covering.networks, network.address_match ei.address.address = true :=
  ⟨by decide +kernel,(interfaces_covered (@covering_reached (fun _ _ _ => True) trivial)).1⟩

end Runs

/-! ## Both views -/

section Views
variable {afi : Afi} {host : Host} {af next : AddressFamily} {network : Portable.Prefix}

/-- A call that fails leaves the address family as it was: the network that was configured for it is taken back. -/
theorem network_create_failed {context : Context} (failed : (network_create host af context network).1 ≠ .success) :
    (network_create host af context network).2 = af := by
  have rolled {networks : AddressFamily} (result : (network_runtime_create host networks network).1 ≠ .success) :
      (network_runtime_create host networks network).2 = networks := by
    unfold network_runtime_create at result ⊢
    split
    · rfl
    · rename_i new
      split
      · rename_i granted
        rw [if_neg new,if_pos granted] at result
        exact absurd rfl result
      · rfl
  obtain ⟨config,runtime⟩ := context
  unfold network_create at failed ⊢
  split
  · rename_i validated
    rw [validated] at failed
    cases config with
    | false =>
      cases runtime with
      | false => rfl
      | true =>
        have refused : (network_runtime_create host af network).1 ≠ .success := by simpa using failed
        simpa using rolled refused
    | true =>
      simp only [if_true] at failed ⊢
      unfold network_config_create at failed ⊢
      by_cases configured : network ∈ af.configured
      · rw [if_pos configured] at failed ⊢
        cases runtime with
        | false => rfl
        | true =>
          have refused : (network_runtime_create host af network).1 ≠ .success := by simpa using failed
          simpa using rolled refused
      · by_cases granted : host.memory.configured = true
        · rw [if_neg configured,if_pos granted] at failed ⊢
          cases runtime with
          | false => exact absurd rfl failed
          | true =>
            by_cases made : (network_runtime_create host { af with configured := network :: af.configured } network).1 = .success
            · simp [made] at failed
            · simp [made,rolled made,network_config_delete]
        · simp [if_neg configured,if_neg granted]
  · rfl

/-- What follows an address family in one call: in order again, and with the configuration and the networks it had. -/
def Follows (afi : Afi) (af next : AddressFamily) : Prop := Kept afi next ∧ Alike af next

theorem update_follows {state : RuntimeState} {memory : Memory} (follows : Follows afi af next)
    (enabled : network_interface_enabled next state = true) : Follows afi af (intf_runtime_update memory next state).2 := by
  refine ⟨follows.1.update enabled,?_⟩
  rcases @runtime_update_cases afi memory next state follows.1 with ⟨_,_,same,_⟩ | ⟨_,_,placed,_⟩
  · rw [same]
    exact follows.2.trans ⟨rfl,rfl,rfl,rfl,rfl,rfl⟩
  · exact follows.2.trans placed.alike

theorem intfs_update_follows (follows : Follows afi af next) : Follows afi af (network_intfs_update host next) :=
  intfs_update_keeps (fun _ follows _ _ enabled => update_follows follows enabled) follows

theorem router_id_update_follows (follows : Follows afi af next) : Follows afi af (router_id_update host next) :=
  router_id_update_keeps (fun _ follows _ _ enabled => update_follows follows enabled)
    (fun _ router_id follows => ⟨follows.1.routed router_id,follows.2.trans ⟨rfl,rfl,rfl,rfl,rfl,rfl⟩⟩) follows

theorem instance_start_follows (follows : Follows afi af next) : Follows afi af (instance_start host next) :=
  instance_start_keeps (fun _ follows _ _ enabled => update_follows follows enabled)
    (fun _ router_id follows => ⟨follows.1.routed router_id,follows.2.trans ⟨rfl,rfl,rfl,rfl,rfl,rfl⟩⟩)
    (fun _ follows => ⟨follows.1.start,follows.2.trans ⟨rfl,rfl,rfl,rfl,rfl,rfl⟩⟩) follows

theorem runtime_create_networks (kept : Kept afi af) (network : Portable.Prefix) :
    (network_runtime_create host af network).2.configured = af.configured ∧
      (network_runtime_create host af network).2.networks =
        if network ∈ af.networks ∨ host.memory.networks = false then af.networks else network :: af.networks := by
  unfold network_runtime_create
  by_cases present : network ∈ af.networks
  · simp [present]
  · cases granted : host.memory.networks with
    | false => simp [present]
    | true =>
      have added : Follows afi { af with networks := network :: af.networks } { af with networks := network :: af.networks } :=
        ⟨⟨kept.numbers,kept.below,kept.indices,List.nodup_cons.mpr ⟨present,kept.networks⟩,
          fun family ei member => matches_added (kept.covered family ei member),kept.family⟩,.refl _⟩
      rw [if_neg present,if_pos rfl]
      simp only [present,Bool.true_eq_false,or_self,if_false]
      split
      · exact ⟨(router_id_update_follows added).2.configured,(router_id_update_follows added).2.networks⟩
      · exact ⟨(intfs_update_follows added).2.configured,(intfs_update_follows added).2.networks⟩

/-- A call that succeeds has configured the network, unless it was, and has put it in force. -/
theorem network_create_succeeded (made : (network_create host af {} network).1 = .success) : ∃ configured,
    configured = (if network ∈ af.configured then af.configured else network :: af.configured) ∧
      (network_runtime_create host { af with configured } network).1 = .success ∧
      (network_create host af {} network).2 = (network_runtime_create host { af with configured } network).2 := by
  refine ⟨_,rfl,?_⟩
  cases validated : network_validate af {} network with
  | success =>
    unfold network_create network_config_create at made ⊢
    rw [validated] at made ⊢
    by_cases configured : network ∈ af.configured
    · simp only [if_true,if_pos configured] at made ⊢
      simpa using made
    · by_cases granted : host.memory.configured = true
      · simp only [if_true,if_neg configured,if_pos granted] at made ⊢
        by_cases started : (network_runtime_create host { af with configured := network :: af.configured } network).1 = .success
        · simp [started]
        · simp [started] at made
      · simp [configured,granted] at made
  | invalid_argument | not_found | unsupported | internal_failure => simp [network_create,validated] at made

/-- The networks that are configured are the ones in force, and a call that succeeds has put its own among them. -/
theorem network_create_mirrored (kept : Kept afi af) (mirrored : af.configured = af.networks) (network : Portable.Prefix) :
    (network_create host af {} network).2.configured = (network_create host af {} network).2.networks ∧
      ((network_create host af {} network).1 = .success → network ∈ (network_create host af {} network).2.networks) := by
  by_cases made : (network_create host af {} network).1 = .success
  · obtain ⟨configured,listed,started,same⟩ := network_create_succeeded made
    obtain ⟨views,networks⟩ := @runtime_create_networks afi host { af with configured } (kept.configured configured _ _ _ _) network
    rw [same,views,networks,listed,mirrored]
    by_cases present : network ∈ af.networks
    · simp [present]
    · cases granted : host.memory.networks with
      | false => simp [network_runtime_create,present,granted] at started
      | true => simp [present]
  · rw [network_create_failed made]
    exact ⟨mirrored,fun succeeded => absurd succeeded made⟩

theorem network_delete_mirrored (mirrored : af.configured = af.networks) (network : Portable.Prefix) :
    (network_delete af {} network).2.configured = (network_delete af {} network).2.networks := by
  unfold network_delete network_config_delete network_runtime_delete
  split
  · by_cases present : network ∈ af.networks
    · simp [mirrored,present]
    · simp [mirrored,present]
  · exact mirrored

/-- A call on a network is handed both views. -/
def Operation.Both : Operation → Prop
  | .network_create context _ | .network_delete context _ => context.config = true ∧ context.runtime = true
  | _ => True

theorem Follows.mirrored (follows : Follows afi af next) (mirrored : af.configured = af.networks) : next.configured = next.networks := by
  rw [follows.2.configured,follows.2.networks,mirrored]

theorem intf_shutdown_runtime_follows (kept : Kept afi af) (name : String) (shutdown : Bool) :
    Follows afi af (intf_shutdown_runtime host af name shutdown) := by
  unfold intf_shutdown_runtime
  split
  · split
    · exact ⟨kept.write fun _ _ _ => ⟨rfl,rfl,rfl⟩,⟨rfl,rfl,rfl,rfl,rfl,rfl⟩⟩
    · split
      · exact instance_start_follows ⟨kept,.refl af⟩
      · exact ⟨kept,.refl af⟩
  · exact ⟨kept,.refl af⟩

theorem intf_shutdown_defaults_alike (name : String) (shutdown : Bool) : Alike af (intf_shutdown_defaults host af name shutdown) := by
  unfold intf_shutdown_defaults
  split
  · exact ⟨rfl,rfl,rfl,rfl,rfl,rfl⟩
  · exact .refl af

theorem event_mirrored (kept : Kept afi af) (mirrored : af.configured = af.networks) (told : Event) :
    (instance_event_process host af told).configured = (instance_event_process host af told).networks := by
  cases told with
  | routerid_update => exact (router_id_update_follows ⟨kept,.refl af⟩).mirrored mirrored
  | intf_update state =>
    have follows : Follows afi af (network_intf_update host af state) :=
      intf_update_keeps (fun _ follows _ _ enabled => update_follows follows enabled)
        (fun _ router_id follows => ⟨follows.1.routed router_id,follows.2.trans ⟨rfl,rfl,rfl,rfl,rfl,rfl⟩⟩)
        (fun _ follows enabled => update_follows follows enabled) ⟨kept,.refl af⟩
    exact follows.mirrored mirrored
  | intf_down ifindex type bandwidth mtu =>
    simp only [instance_event_process]
    split <;> exact mirrored
  | intf_remove ifindex =>
    simp only [instance_event_process]
    cases af.lookup_by_ifindex ifindex <;> exact mirrored
  | intf_addr_update ifindex address =>
    simp only [instance_event_process]
    split
    · split <;> exact mirrored
    · exact mirrored

theorem step_mirrored (kept : Kept afi af) (mirrored : af.configured = af.networks) {operation : Operation} (both : operation.Both) :
    (af.step host operation).configured = (af.step host operation).networks := by
  cases operation with
  | network_create context network =>
    obtain ⟨config,runtime⟩ := context
    obtain ⟨rfl,rfl⟩ := both
    exact (network_create_mirrored kept mirrored network).1
  | network_delete context network =>
    obtain ⟨config,runtime⟩ := context
    obtain ⟨rfl,rfl⟩ := both
    exact network_delete_mirrored mirrored network
  | router_id_update router_id =>
    have chosen (router_id_static : UInt32) : (router_id_update host { af with router_id_static }).configured =
        (router_id_update host { af with router_id_static }).networks :=
      (router_id_update_follows ⟨kept.configured _ _ _ _ router_id_static,.refl _⟩).mirrored mirrored
    cases router_id with
    | none => exact chosen 0
    | some router_id =>
      simp only [AddressFamily.step,instance_router_id_update]
      split
      · exact mirrored
      · exact chosen router_id
  | af_config_shutdown_update shutdown =>
    simp only [AddressFamily.step,af_config_shutdown_update]
    split
    · exact mirrored
    · split
      · exact mirrored
      · exact (instance_start_follows ⟨kept.configured _ _ shutdown _ _,.refl _⟩).mirrored mirrored
  | named_config_shutdown_update shutdown =>
    simp only [AddressFamily.step,named_config_shutdown_update]
    split
    · exact mirrored
    · split
      · exact mirrored
      · split
        · exact mirrored
        · exact (instance_start_follows ⟨kept.configured _ _ _ shutdown _,.refl _⟩).mirrored mirrored
  | intf_config_create name =>
    simp only [AddressFamily.step,intf_config_create]
    split <;> exact mirrored
  | intf_config_delete name =>
    simp only [AddressFamily.step,intf_config_delete]
    split <;> exact mirrored
  | intf_shutdown_update name shutdown =>
    simp only [AddressFamily.step,intf_shutdown_update]
    split
    · rw [(intf_shutdown_defaults_alike name shutdown).configured,(intf_shutdown_defaults_alike name shutdown).networks]
      exact (intf_shutdown_runtime_follows (kept.configured _ _ _ _ _) name shutdown).mirrored mirrored
    · exact mirrored
  | intf_metric_update name =>
    simp only [AddressFamily.step,intf_metric_update]
    cases af.lookup_by_name name <;> exact mirrored
  | intf_passive_update name passive => exact mirrored
  | event told => exact event_mirrored kept mirrored told
  | hello_timer id => exact mirrored

/-- In every run whose calls are handed both views the networks that are configured are the ones in force, whatever the host has no
    memory for; and a call that succeeds has put its network among them, and one that fails leaves everything as it was. -/
theorem networks_mirrored (reached : Reached (fun _ _ operation => operation.Both) afi af) :
    af.configured = af.networks ∧ ∀ host network,
      ((network_create host af {} network).1 = .success → network ∈ (network_create host af {} network).2.networks) ∧
      ((network_create host af {} network).1 ≠ .success → (network_create host af {} network).2 = af) := by
  have mirrored : af.configured = af.networks := by
    induction reached with
    | start => rfl
    | step earlier both ih => exact step_mirrored (reached_kept earlier) ih both
  refine ⟨mirrored,fun host network => ⟨?_,network_create_failed⟩⟩
  exact (network_create_mirrored (reached_kept reached) mirrored network).2

/-- The host has no memory for another network. -/
theorem networks_mirrored_ten : covering.configured = [ten] ∧ covering.networks = covering.configured ∧
    (network_create { memory := { networks := false } } covering {} lo.address).1 = .internal_failure ∧
    (network_create { memory := { networks := false } } covering {} lo.address).2.configured = covering.configured := by
  have failed : (network_create { memory := { networks := false } } covering {} lo.address).1 = .internal_failure := by decide +kernel
  obtain ⟨mirrored,calls⟩ := networks_mirrored
    (covering_reached (show Operation.Both (.network_create {} ten) from ⟨rfl,rfl⟩))
  refine ⟨by decide +kernel,mirrored.symm,failed,?_⟩
  rw [(calls _ _).2 (by rw [failed]; decide)]

end Views

/-! ## Interfaces of the host that are served -/

section Serving
variable {afi : Afi} {host : Host} {memory : Memory} {af next : AddressFamily} {ei : Intf} {state later : RuntimeState}

theorem update_serves (kept : Kept afi af) (named : state.interface_name ≠ "") (valid : state.address.valid = true)
    (granted : memory.name state.interface_name = true) (place : memory.place state.interface_name = true) :
    ∃ ei ∈ (intf_runtime_update memory af state).2.eiflist,
      (ei.name = state.interface_name ∧ ei.ifindex = state.ifindex ∧ ei.address = state.address ∧ ei.operative = state.operative) ∧
      (Allowed af state → memory.timer ei.id = true → ei.t_hello = true) := by
  rcases @runtime_update_cases afi memory af state kept with ⟨_,_,_,refused⟩ | ⟨id,_,placed,_,runs⟩
  · simp [named,valid,granted,place] at refused
  · obtain ⟨ei,member,own⟩ := placed.present
    obtain ⟨index,address,operative,name⟩ := placed.own ei member own
    exact ⟨ei,member,⟨name granted,index,address,operative⟩,fun allowed timer => (runs ei member own).1 allowed (own ▸ timer)⟩

/-- An interface with another name and another index is left as it is. -/
theorem update_leaves (kept : Kept afi af) (member : ei ∈ af.eiflist) (named : ei.name ≠ later.interface_name)
    (indexed : ei.ifindex ≠ later.ifindex) : ei ∈ (intf_runtime_update memory af later).2.eiflist := by
  rcases @runtime_update_cases afi memory af later kept with ⟨_,_,same,_⟩ | ⟨id,_,placed,origin,_⟩
  · rw [same]
    exact member
  · refine (placed.others ei ?_).mpr member
    rintro rfl
    generalize own : ei.id = id at origin
    cases origin with
    | index stored index _ =>
      rw [kept.unique member stored own] at indexed
      exact indexed index
    | name _ stored name =>
      rw [kept.unique member stored own] at named
      exact named name
    | new _ _ => exact absurd own (Nat.ne_of_lt (kept.below ei member))

theorem walk_update_follows (follows : Follows afi af next) (routed : next.router_id = af.router_id) :
    Follows afi af (network_intf_walk_update memory next state) ∧ (network_intf_walk_update memory next state).router_id = af.router_id := by
  unfold network_intf_walk_update
  split
  · exact ⟨follows,routed⟩
  · rename_i visited
    simp only [not_or,not_not] at visited
    refine ⟨update_follows follows visited.2.2,?_⟩
    rcases @runtime_update_cases afi memory next state follows.1 with ⟨_,_,same,_⟩ | ⟨_,_,placed,_⟩
    · rw [same]
      exact routed
    · exact placed.router_id.trans routed

theorem walk_follows {states : List RuntimeState} (follows : Follows afi af next) (routed : next.router_id = af.router_id) :
    Follows afi af (states.foldl (network_intf_walk_update memory) next) ∧
      (states.foldl (network_intf_walk_update memory) next).router_id = af.router_id := by
  induction states generalizing next with
  | nil => exact ⟨follows,routed⟩
  | cons state states ih =>
    obtain ⟨following,same⟩ := @walk_update_follows afi memory af next state follows routed
    exact ih following same

/-- An interface that no later state of the walk is about stays. -/
theorem walk_leaves {states : List RuntimeState} (follows : Follows afi af next) (routed : next.router_id = af.router_id)
    (member : ei ∈ next.eiflist) (apart : ∀ later ∈ states, later.secondary = false → network_interface_enabled af later = true →
      ei.name ≠ later.interface_name ∧ ei.ifindex ≠ later.ifindex) :
    ei ∈ (states.foldl (network_intf_walk_update memory) next).eiflist := by
  induction states generalizing next with
  | nil => exact member
  | cons later states ih =>
    obtain ⟨following,same⟩ := @walk_update_follows afi memory af next later follows routed
    refine ih following same ?_ fun other present => apart other (List.mem_cons_of_mem _ present)
    unfold network_intf_walk_update
    split
    · exact member
    · rename_i visited
      simp only [not_or,Bool.not_eq_true,Bool.not_eq_false] at visited
      obtain ⟨named,indexed⟩ := apart later List.mem_cons_self visited.1 ((follows.2.enabled later).symm.trans visited.2.2)
      exact update_leaves follows.1 member named indexed

/-- After a walk with a router id, in every run, every primary state of the host that is enabled, has a name and a valid address, is
    given memory for the name and a place in the list, and that no later one of its name or its index replaces, has an interface of its
    name, index and address, which runs when it may and its timer can be armed. -/
theorem interfaces_served {Meets : Host → AddressFamily → Operation → Prop} (reached : Reached Meets afi af) (routed : af.router_id ≠ 0)
    {earlier rest : List RuntimeState} (walk : host.walk = some (earlier ++ state :: rest)) (named : state.interface_name ≠ "")
    (valid : state.address.valid = true) (granted : host.memory.name state.interface_name = true)
    (place : host.memory.place state.interface_name = true) (primary : state.secondary = false)
    (enabled : network_interface_enabled af state = true)
    (last : ∀ later ∈ rest, later.secondary = false → network_interface_enabled af later = true →
      state.interface_name ≠ later.interface_name ∧ state.ifindex ≠ later.ifindex) :
    ∃ ei ∈ (network_intfs_update host af).eiflist,
      (ei.name = state.interface_name ∧ ei.ifindex = state.ifindex ∧ ei.address = state.address ∧ ei.operative = state.operative) ∧
      (Allowed af state → host.memory.timer ei.id = true → ei.t_hello = true) := by
  unfold network_intfs_update
  rw [if_neg routed,walk,Option.getD_some,List.foldl_append,List.foldl_cons]
  obtain ⟨follows,same⟩ := @walk_follows afi host.memory af af earlier ⟨reached_kept reached,.refl af⟩ rfl
  generalize earlier.foldl (network_intf_walk_update host.memory) af = before at follows same ⊢
  have visited : network_intf_walk_update host.memory before state = (intf_runtime_update host.memory before state).2 :=
    if_neg (by simp [primary,same,routed,follows.2.enabled,enabled])
  obtain ⟨ei,member,served,runs⟩ := @update_serves afi host.memory before state follows.1 named valid granted place
  obtain ⟨following,kept⟩ := @walk_update_follows afi host.memory af before state follows same
  rw [visited] at following kept ⊢
  refine ⟨ei,walk_leaves following kept member fun later present primary enabled => ?_,served,fun allowed => runs ?_⟩
  · rw [served.1,served.2.1]
    exact last later present primary enabled
  · exact ⟨follows.2.shutdown.trans allowed.1,(follows.2.effective _).trans allowed.2.1,allowed.2.2⟩

/-- The interface of the network, once more. -/
theorem interfaces_served_eth0 : ∃ ei ∈ (network_intfs_update { walk := some [lo,eth0] } covering).eiflist,
    (ei.name = "eth0" ∧ ei.ifindex = 2 ∧ ei.address = eth0.address ∧ ei.operative = true) ∧ ei.t_hello = true := by
  obtain ⟨ei,member,served,runs⟩ := interfaces_served (@covering_reached (fun _ _ _ => True) trivial)
    (show covering.router_id ≠ 0 by decide +kernel) (show Host.walk { walk := some [lo,eth0] } = some ([lo] ++ eth0 :: []) from rfl)
    (by decide +kernel) (by decide +kernel) rfl rfl rfl (by decide +kernel) (by simp)
  exact ⟨ei,member,served,runs ⟨by decide +kernel,by decide +kernel,rfl⟩ rfl⟩

end Serving

end Networks
end Eigrp
