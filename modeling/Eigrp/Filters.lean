import Eigrp.Lib.Keyed
import Eigrp.Summaries
import Eigrp.Wire

/-!
# Filters

`eigrp_filter.c`: the distribute lists and offset lists of an address family, the references to lists of the host that the
process and its interfaces filter with, and the verdict on a route. Configuration and what is in force are two records. The soft
clears and graceful restarts towards the neighbors that a change brings about are not part of either.
-/

namespace Eigrp.Filters
open Eigrp.Lib
open Networks (Result Context)
open Summaries (Operation)

/-! ## The records -/

/-- `eigrp_distribute_list_type_t`. -/
inductive ListType where
  | access_list
  | prefix_list
deriving DecidableEq

/-- `eigrp_filter_runtime_state_t`: for either direction the names of an access list and of a prefix list. -/
structure RuntimeState where
  access_in : Option String := none
  access_out : Option String := none
  prefix_in : Option String := none
  prefix_out : Option String := none
deriving DecidableEq

/-- `eigrp_intf_t`; `t_distribute` says whether its timer is armed. -/
structure Intf where
  name : String
  filter : RuntimeState := {}
  t_distribute : Bool := false

/-- `struct eigrp_distribute_list_config`. -/
structure ListConfig where
  type : ListType
  direction : FilterDirection
  name : String
  interface_name : Option String
deriving DecidableEq

/-- `default_information_enabled` with `default_information_access_list`, of one direction. -/
structure DefaultInformation where
  enabled : Bool := false
  access_list : Option String := none

/-- `eigrp_af_config_t` and its runtime `eigrp_instance_t`. -/
structure AddressFamily where
  distribute_lists : List ListConfig := []
  offsets : List OffsetConfig := []
  default_in : DefaultInformation := {}
  default_out : DefaultInformation := {}
  filter : RuntimeState := {}
  eiflist : List Intf := []
  t_distribute : Bool := false

/-- The memory of the host: for a name, for an entry, for the name of an interface, for the names in force, for a timer. -/
structure Memory where
  name : Bool := true
  entry : Bool := true
  interface_name : Bool := true
  state : Bool := true
  timer : Bool := true

inductive Decision where
  | permit
  | deny
deriving DecidableEq

namespace RuntimeState

def slot (state : RuntimeState) : ListType → FilterDirection → Option String
  | .access_list, .inbound => state.access_in
  | .access_list, .outbound => state.access_out
  | .prefix_list, .inbound => state.prefix_in
  | .prefix_list, .outbound => state.prefix_out

def write (state : RuntimeState) (type : ListType) (direction : FilterDirection) (name : Option String) : RuntimeState :=
  match type, direction with
  | .access_list, .inbound => { state with access_in := name }
  | .access_list, .outbound => { state with access_out := name }
  | .prefix_list, .inbound => { state with prefix_in := name }
  | .prefix_list, .outbound => { state with prefix_out := name }

/-- `eigrp_filter_runtime_state_active`. -/
def active (state : RuntimeState) : Bool :=
  state.access_in.isSome || state.prefix_in.isSome || state.access_out.isSome || state.prefix_out.isSome

/-- `eigrp_filter_runtime_state_copy`: a copy without a name needs no memory. -/
def copy (memory : Memory) (snapshot : RuntimeState) : Option RuntimeState :=
  if snapshot.active ∧ ¬ memory.state then none else some snapshot

end RuntimeState

namespace ListConfig

/-- What tells the entries apart. -/
def key (config : ListConfig) : ListType × FilterDirection × Option String := (config.type, config.direction, config.interface_name)

end ListConfig

/-- What tells offsets apart. -/
def offset_key (config : OffsetConfig) : FilterDirection × String × Option String :=
  (config.direction, config.access_list, config.interface_name)

namespace AddressFamily

/-- `eigrp_intf_lookup_by_name`. -/
def lookup_by_name (af : AddressFamily) (name : String) : Option Intf := af.eiflist.find? fun ei => ei.name = name

/-- The interface that a name finds is written. -/
def intf_write (af : AddressFamily) (name : String) (update : Intf → Intf) : AddressFamily :=
  { af with eiflist := (Keyed.replace Intf.name (((af.lookup_by_name name).map update).getD { name }) af.eiflist).getD af.eiflist }

/-- `eigrp_filter_schedule_process`. -/
def schedule_process (memory : Memory) (af : AddressFamily) : AddressFamily := { af with t_distribute := memory.timer }

/-- `eigrp_sys_filter_runtime_replace`. -/
def filter_runtime_replace (memory : Memory) (interface_name : Option String) (snapshot : RuntimeState) (af : AddressFamily) :
    Result × AddressFamily :=
  match interface_name with
  | none =>
    if af.filter = snapshot then (.success, af)
    else match snapshot.copy memory with
      | none => (.internal_failure, af)
      | some replacement => (.success, { af with filter := replacement }.schedule_process memory)
  | some name =>
    if name = "" then (.invalid_argument, af)
    else match af.lookup_by_name name with
      | none => (.not_found, af)
      | some ei =>
        if ei.filter = snapshot then (.success, af)
        else match snapshot.copy memory with
          | none => (.internal_failure, af)
          | some replacement =>
            (.success, af.intf_write name fun ei => { ei with filter := replacement, t_distribute := memory.timer })

/-- `eigrp_filter_runtime_reference_update`: a reference on an interface that is missing counts as set, not as removed. -/
def filter_runtime_reference_update (memory : Memory) (type : ListType) (name : Option String) (direction : FilterDirection)
    (interface_name : Option String) (af : AddressFamily) : Result × AddressFamily :=
  match interface_name with
  | none => af.filter_runtime_replace memory none (af.filter.write type direction name)
  | some ifname => match af.lookup_by_name ifname with
    | none => (if name.isNone then .not_found else .success, af)
    | some ei => af.filter_runtime_replace memory (some ifname) (ei.filter.write type direction name)

/-- `eigrp_distribute_list_validate`. -/
def distribute_list_validate (context : Context) (name : String) (interface_name : Option String) : Result :=
  if name = "" then .invalid_argument
  else if interface_name = some "" then .invalid_argument
  else if ¬ context.config ∧ ¬ context.runtime then .not_found
  else .success

/-- `eigrp_distribute_add`. -/
def distribute_add (memory : Memory) (context : Context) (type : ListType) (name : String) (direction : FilterDirection)
    (interface_name : Option String) (af : AddressFamily) : Result × AddressFamily :=
  let valid := distribute_list_validate context name interface_name
  let config : ListConfig := { type, direction, name, interface_name }
  let fresh := (Keyed.lookup ListConfig.key config.key af.distribute_lists).isNone
  if valid ≠ .success then (valid, af)
  else if ¬ memory.name then (.internal_failure, af)
  else if context.config ∧ fresh ∧ (¬ memory.entry ∨ (interface_name.isSome ∧ ¬ memory.interface_name)) then (.internal_failure, af)
  else
    let (result, next) :=
      if context.runtime then af.filter_runtime_reference_update memory type (some name) direction interface_name else (.success, af)
    if result ≠ .success then (result, next)
    else if context.config then (.success, { next with distribute_lists := Keyed.put ListConfig.key config next.distribute_lists })
    else (.success, next)

/-- `eigrp_distribute_remove`: the entry must name the list that is to be removed. -/
def distribute_remove (memory : Memory) (context : Context) (type : ListType) (name : String) (direction : FilterDirection)
    (interface_name : Option String) (af : AddressFamily) : Result × AddressFamily :=
  let valid := distribute_list_validate context name interface_name
  let named (config : ListConfig) : Bool :=
    config.type = type ∧ config.direction = direction ∧ config.name = name ∧ config.interface_name = interface_name
  if valid ≠ .success then (valid, af)
  else if context.config ∧ (af.distribute_lists.find? named).isNone then (.not_found, af)
  else
    let (result, next) :=
      if context.runtime then af.filter_runtime_reference_update memory type none direction interface_name else (.not_found, af)
    if result ≠ .success ∧ result ≠ .not_found then (result, next)
    else if context.config then (.success, { next with distribute_lists := next.distribute_lists.eraseP named })
    else (result, next)

/-- `eigrp_offset_add`. -/
def offset_add (memory : Memory) (context : Context) (access_list : String) (direction : FilterDirection) (offset : UInt32)
    (interface_name : Option String) (af : AddressFamily) : Result × AddressFamily :=
  let config : OffsetConfig := { direction, interface_name, access_list, offset }
  let fresh := (Keyed.lookup offset_key (offset_key config) af.offsets).isNone
  if access_list = "" then (.invalid_argument, af)
  else if interface_name = some "" then (.invalid_argument, af)
  else if ¬ context.config ∧ ¬ context.runtime then (.not_found, af)
  else if context.config ∧ fresh ∧ (¬ memory.name ∨ (interface_name.isSome ∧ ¬ memory.interface_name) ∨ ¬ memory.entry) then
    (.internal_failure, af)
  else
    let af := if context.config then { af with offsets := Keyed.put offset_key config af.offsets } else af
    (.success, if context.runtime then af.schedule_process memory else af)

/-- `eigrp_offset_remove`; the offset itself is not compared. -/
def offset_remove (memory : Memory) (context : Context) (access_list : String) (direction : FilterDirection)
    (interface_name : Option String) (af : AddressFamily) : Result × AddressFamily :=
  let wanted := (direction, access_list, interface_name)
  if access_list = "" then (.invalid_argument, af)
  else if interface_name = some "" then (.invalid_argument, af)
  else if ¬ context.config then (.not_found, af)
  else if (Keyed.lookup offset_key wanted af.offsets).isNone then (.not_found, af)
  else
    let af := { af with offsets := Keyed.remove offset_key wanted af.offsets }
    (.success, if context.runtime then af.schedule_process memory else af)

/-- The default information of a direction. -/
def default_information (af : AddressFamily) : FilterDirection → DefaultInformation
  | .inbound => af.default_in
  | .outbound => af.default_out

/-- `eigrp_topology_default_information_update`. -/
def default_information_update (memory : Memory) (operation : Operation) (context : Context) (direction : FilterDirection)
    (access_list : Option String) (af : AddressFamily) : Result × AddressFamily :=
  if access_list = some "" then (.invalid_argument, af)
  else if ¬ context.config ∧ ¬ context.runtime then (.not_found, af)
  else if operation = .set ∧ access_list.isSome ∧ ¬ memory.name then (.internal_failure, af)
  else
    let information : DefaultInformation :=
      { enabled := operation == Operation.set, access_list := if operation = .set then access_list else none }
    match direction with
    | .inbound => (.success, { af with default_in := information })
    | .outbound => (.success, { af with default_out := information })

/-- One interface in `eigrp_sys_policy_runtime_update`. -/
def intf_policy_update (memory : Memory) (af : AddressFamily) (ei : Intf) : AddressFamily :=
  if ei.filter.active then af.intf_write ei.name fun ei => { ei with t_distribute := memory.timer } else af

/-- `eigrp_sys_policy_runtime_update` for an instance: a list of the host has changed. -/
def policy_runtime_update (memory : Memory) (af : AddressFamily) : AddressFamily :=
  let af := if af.filter.active ∨ af.offsets ≠ [] then af.schedule_process memory else af
  af.eiflist.foldl (intf_policy_update memory) af

/-- `eigrp_distribute_timer_process`. -/
def distribute_timer_process (af : AddressFamily) : AddressFamily := { af with t_distribute := false }

/-- `eigrp_distribute_intf_timer`. -/
def distribute_intf_timer (name : String) (af : AddressFamily) : AddressFamily :=
  af.intf_write name fun ei => { ei with t_distribute := false }

/-- An interface of the host is taken, unless its name is known. -/
def intf_create (name : String) (af : AddressFamily) : AddressFamily :=
  if (af.lookup_by_name name).isSome then af else { af with eiflist := af.eiflist ++ [{ name }] }

/-- `eigrp_intf_free`: the filter goes with the interface, its configuration stays. -/
def intf_free (name : String) (af : AddressFamily) : AddressFamily := { af with eiflist := Keyed.remove Intf.name name af.eiflist }

end AddressFamily

/-! ## The verdict -/

section Verdict
variable (evaluate : ListType → String → Prefix → Option Decision)

/-- `eigrp_filter_reference_denies`: what cannot be evaluated does not deny. -/
def filter_reference_denies (type : ListType) (name : Option String) (dest : Prefix) : Bool :=
  name.any fun name => evaluate type name dest = some .deny

/-- `eigrp_filter_runtime_state_denies`. -/
def filter_runtime_state_denies (state : RuntimeState) (direction : FilterDirection) (dest : Prefix) : Bool :=
  filter_reference_denies evaluate .access_list (state.slot .access_list direction) dest ||
    filter_reference_denies evaluate .prefix_list (state.slot .prefix_list direction) dest

/-- `eigrp_topology_default_information_denies`: a default route that cannot be evaluated is denied. -/
def default_information_denies (af : AddressFamily) (direction : FilterDirection) (dest : Prefix) : Bool :=
  if dest.prefix_length ≠ 0 then false
  else if ¬ (af.default_information direction).enabled then true
  else match (af.default_information direction).access_list with
    | none => false
    | some access_list => evaluate .access_list access_list dest ≠ some .permit

/-- `eigrp_filter_prefix_update`. -/
def filter_prefix_update (af : AddressFamily) (ei : Intf) (direction : FilterDirection) (dest : Prefix) : Bool :=
  default_information_denies evaluate af direction dest || filter_runtime_state_denies evaluate af.filter direction dest ||
    filter_runtime_state_denies evaluate ei.filter direction dest

end Verdict

/-! ## Runs -/

/-- A command of the operator, an event of the host or a timer. -/
inductive Event where
  | distribute_add (memory : Memory) (context : Context) (type : ListType) (name : String) (direction : FilterDirection)
    (interface_name : Option String)
  | distribute_remove (memory : Memory) (context : Context) (type : ListType) (name : String) (direction : FilterDirection)
    (interface_name : Option String)
  | offset_add (memory : Memory) (context : Context) (access_list : String) (direction : FilterDirection) (offset : UInt32)
    (interface_name : Option String)
  | offset_remove (memory : Memory) (context : Context) (access_list : String) (direction : FilterDirection)
    (interface_name : Option String)
  | default_information (memory : Memory) (operation : Operation) (context : Context) (direction : FilterDirection)
    (access_list : Option String)
  | policy (memory : Memory)
  | distribute_timer
  | distribute_intf_timer (name : String)
  | intf_create (name : String)
  | intf_free (name : String)

def AddressFamily.step (af : AddressFamily) : Event → AddressFamily
  | .distribute_add memory context type name direction interface_name =>
    (af.distribute_add memory context type name direction interface_name).2
  | .distribute_remove memory context type name direction interface_name =>
    (af.distribute_remove memory context type name direction interface_name).2
  | .offset_add memory context access_list direction offset interface_name =>
    (af.offset_add memory context access_list direction offset interface_name).2
  | .offset_remove memory context access_list direction interface_name =>
    (af.offset_remove memory context access_list direction interface_name).2
  | .default_information memory operation context direction access_list =>
    (af.default_information_update memory operation context direction access_list).2
  | .policy memory => af.policy_runtime_update memory
  | .distribute_timer => af.distribute_timer_process
  | .distribute_intf_timer name => af.distribute_intf_timer name
  | .intf_create name => af.intf_create name
  | .intf_free name => af.intf_free name

def AddressFamily.run (af : AddressFamily) (events : List Event) : AddressFamily := events.foldl AddressFamily.step af

/-! ## One reference -/

/-- The list that is configured for a type, a direction and an interface or none. -/
def AddressFamily.listed (af : AddressFamily) (type : ListType) (direction : FilterDirection) (interface_name : Option String) :
    Option String :=
  (Keyed.lookup ListConfig.key (type, direction, interface_name) af.distribute_lists).map (·.name)

/-- A reference is in force where the call names it, and what is configured is untouched. -/
structure Written (before after : AddressFamily) (type : ListType) (name : Option String) (direction : FilterDirection)
    (interface_name : Option String) : Prop where
  distribute_lists : after.distribute_lists = before.distribute_lists
  offsets : after.offsets = before.offsets
  names : after.eiflist.map Intf.name = before.eiflist.map Intf.name
  filter : after.filter = if interface_name = none then before.filter.write type direction name else before.filter
  interfaces : ∀ ei ∈ after.eiflist, ∃ old ∈ before.eiflist, ei.name = old.name ∧
    ei.filter = if interface_name = some old.name then old.filter.write type direction name else old.filter

section References
variable {af next : AddressFamily} {memory : Memory} {type : ListType} {name interface_name : Option String} {direction : FilterDirection}
  {result : Result}

theorem slot_write (state : RuntimeState) (other : ListType) (towards : FilterDirection) : (state.write type direction name).slot other towards =
    if other = type ∧ towards = direction then name else state.slot other towards := by
  cases type <;> cases direction <;> cases other <;> cases towards <;> rfl

theorem lookup_by_name_mem {ifname : String} {ei : Intf} (found : af.lookup_by_name ifname = some ei) : ei ∈ af.eiflist ∧ ei.name = ifname :=
  ⟨List.mem_of_find?_eq_some found,by simpa using List.find?_some found⟩

theorem intf_write_eiflist (names : Keyed.Distinct Intf.name af.eiflist) (ifname : String) {update : Intf → Intf}
    (keeps : ∀ ei, (update ei).name = ei.name) :
    (af.intf_write ifname update).eiflist = af.eiflist.map fun ei => if ei.name = ifname then update ei else ei := by
  unfold AddressFamily.intf_write
  cases found : af.lookup_by_name ifname with
  | none =>
    have missing : ∀ ei ∈ af.eiflist, ¬ ei.name = ifname := by simpa [AddressFamily.lookup_by_name] using found
    have absent : Keyed.replace Intf.name { name := ifname } af.eiflist = none :=
      Keyed.replace_none.mpr (by simpa using missing)
    have same : af.eiflist.map (fun ei => if ei.name = ifname then update ei else ei) = af.eiflist := by
      refine (List.map_congr_left fun ei member => ?_).trans (List.map_id _)
      exact if_neg (missing ei member)
    simp [absent,same]
  | some old =>
    obtain ⟨member,rfl⟩ := lookup_by_name_mem found
    have listed : (update old).name ∈ af.eiflist.map Intf.name := by
      rw [keeps]
      exact List.mem_map_of_mem member
    simp only [Option.map_some,Option.getD_some,Keyed.replace_map names listed,keeps]
    refine List.map_congr_left fun ei ei_member => ?_
    by_cases here : ei.name = old.name
    · have same := (Keyed.mem_iff names).mp ei_member
      rw [here,(Keyed.mem_iff names).mp member] at same
      cases same
      rfl
    · rw [if_neg here,if_neg here]

theorem reference_update_written (names : Keyed.Distinct Intf.name af.eiflist) (named : interface_name ≠ some "")
    (done : af.filter_runtime_reference_update memory type name direction interface_name = (result, next)) :
    (result = .internal_failure ∧ next = af) ∨
    ((result = .success ∨ result = .not_found ∧ name = none) ∧ Written af next type name direction interface_name) := by
  have untouched (same : interface_name = none → af.filter = af.filter.write type direction name)
      (others : ∀ ei ∈ af.eiflist, interface_name = some ei.name → ei.filter = ei.filter.write type direction name) :
      Written af af type name direction interface_name := by
    refine ⟨rfl,rfl,rfl,?_,fun ei member => ⟨ei,member,rfl,?_⟩⟩
    · split
      · exact same ‹_›
      · rfl
    · split
      · exact others ei member ‹_›
      · rfl
  unfold AddressFamily.filter_runtime_reference_update at done
  cases interface_name with
  | none =>
    simp only [AddressFamily.filter_runtime_replace] at done
    split_ifs at done with same
    · obtain ⟨rfl,rfl⟩ := Prod.mk.inj done
      exact .inr ⟨.inl rfl,untouched (fun _ => same) (by simp)⟩
    · split at done
      · obtain ⟨rfl,rfl⟩ := Prod.mk.inj done
        exact .inl ⟨rfl,rfl⟩
      · rename_i replacement copied
        obtain ⟨rfl,rfl⟩ := Prod.mk.inj done
        have whole : af.filter.write type direction name = replacement := by
          unfold RuntimeState.copy at copied
          split_ifs at copied
          exact Option.some_inj.mp copied
        exact .inr ⟨.inl rfl,rfl,rfl,rfl,by simpa [AddressFamily.schedule_process] using whole.symm,
          fun ei member => ⟨ei,member,rfl,by simp⟩⟩
  | some ifname =>
    dsimp only at done
    cases found : af.lookup_by_name ifname with
    | none =>
      simp only [found] at done
      obtain ⟨rfl,rfl⟩ := Prod.mk.inj done
      have missing : ∀ ei ∈ af.eiflist, ¬ ei.name = ifname := by simpa [AddressFamily.lookup_by_name] using found
      refine .inr ⟨?_,untouched (by simp) fun ei member here => absurd (Option.some_inj.mp here).symm (missing ei member)⟩
      cases name with
      | none => exact .inr ⟨rfl,rfl⟩
      | some _ => exact .inl rfl
    | some old =>
      obtain ⟨member,rfl⟩ := lookup_by_name_mem found
      have unnamed : ¬ old.name = "" := fun empty => named (congrArg some empty)
      have only {ei : Intf} (ei_member : ei ∈ af.eiflist) (here : ei.name = old.name) : ei = old := by
        have same := (Keyed.mem_iff names).mp ei_member
        rw [here,(Keyed.mem_iff names).mp member] at same
        exact (Option.some_inj.mp same).symm
      simp only [found,AddressFamily.filter_runtime_replace,if_neg unnamed] at done
      split_ifs at done with same
      · obtain ⟨rfl,rfl⟩ := Prod.mk.inj done
        refine .inr ⟨.inl rfl,untouched (by simp) fun ei ei_member here => ?_⟩
        rw [only ei_member (Option.some_inj.mp here).symm]
        exact same
      · split at done
        · obtain ⟨rfl,rfl⟩ := Prod.mk.inj done
          exact .inl ⟨rfl,rfl⟩
        · rename_i replacement copied
          obtain ⟨rfl,rfl⟩ := Prod.mk.inj done
          have whole : old.filter.write type direction name = replacement := by
            unfold RuntimeState.copy at copied
            split_ifs at copied
            exact Option.some_inj.mp copied
          have interfaces := @intf_write_eiflist af names old.name
            (fun ei => { ei with filter := replacement, t_distribute := memory.timer }) fun _ => rfl
          refine .inr ⟨.inl rfl,rfl,rfl,?_,by simp [AddressFamily.intf_write],fun ei ei_member => ?_⟩
          · simp only [interfaces,List.map_map]
            refine List.map_congr_left fun ei _ => ?_
            simp only [Function.comp_apply]
            split <;> rfl
          · simp only [interfaces] at ei_member
            obtain ⟨before,before_member,rfl⟩ := List.mem_map.mp ei_member
            refine ⟨before,before_member,?_⟩
            by_cases here : before.name = old.name
            · rw [if_pos here,if_pos (by rw [here]),only before_member here]
              exact ⟨rfl,whole.symm⟩
            · have other : ¬ some old.name = some before.name := fun same => here (Option.some_inj.mp same).symm
              rw [if_neg here,if_neg other]
              exact ⟨rfl,rfl⟩

end References

/-! ## What is in force is what is configured -/

/-- Every list is configured once, and what is in force comes from the configuration: on an interface all of it if `all`, and
    otherwise it may be missing there. -/
structure Mirrored (all : Prop) (af : AddressFamily) : Prop where
  distinct : Keyed.Distinct ListConfig.key af.distribute_lists
  offsets : Keyed.Distinct offset_key af.offsets
  names : Keyed.Distinct Intf.name af.eiflist
  process : ∀ type direction, af.filter.slot type direction = af.listed type direction none
  interfaces : ∀ ei ∈ af.eiflist, ∀ type direction, ei.filter.slot type direction = af.listed type direction (some ei.name) ∨
    ¬ all ∧ ei.filter.slot type direction = none

/-- A named configuration of a running instance: a command is handed both views. -/
def Event.Careful : Event → Prop
  | .distribute_add _ context _ _ _ _ | .distribute_remove _ context _ _ _ _ => context.config = true ∧ context.runtime = true
  | _ => True

/-- An interface is taken while no list is configured for its name. -/
def Fresh (af : AddressFamily) : Event → Prop
  | .intf_create name => ∀ type direction, af.listed type direction (some name) = none
  | _ => True

section Mirrors
variable {all : Prop} {af next : AddressFamily} {memory : Memory} {context : Context} {type : ListType} {direction : FilterDirection}
  {interface_name : Option String} {result : Result}

/-- Nothing that filters is touched. -/
structure SameFilters (before after : AddressFamily) : Prop where
  distribute_lists : after.distribute_lists = before.distribute_lists
  filter : after.filter = before.filter
  names : after.eiflist.map Intf.name = before.eiflist.map Intf.name
  interfaces : ∀ ei ∈ after.eiflist, ∃ old ∈ before.eiflist, ei.name = old.name ∧ ei.filter = old.filter

theorem SameFilters.of_eiflist (distribute_lists : next.distribute_lists = af.distribute_lists) (filter : next.filter = af.filter)
    (eiflist : next.eiflist = af.eiflist) : SameFilters af next :=
  ⟨distribute_lists,filter,by rw [eiflist],by rw [eiflist]; exact fun ei member => ⟨ei,member,rfl,rfl⟩⟩

theorem SameFilters.trans {last : AddressFamily} (first : SameFilters af next) (second : SameFilters next last) : SameFilters af last := by
  refine ⟨second.distribute_lists.trans first.distribute_lists,second.filter.trans first.filter,second.names.trans first.names,?_⟩
  intro ei member
  obtain ⟨middle,middle_member,name,filter⟩ := second.interfaces ei member
  obtain ⟨old,old_member,old_name,old_filter⟩ := first.interfaces middle middle_member
  exact ⟨old,old_member,name.trans old_name,filter.trans old_filter⟩

theorem SameFilters.mirrored (same : SameFilters af next) (offsets : Keyed.Distinct offset_key next.offsets) (mirrored : Mirrored all af) :
    Mirrored all next := by
  have listed (type : ListType) (direction : FilterDirection) (interface_name : Option String) :
      next.listed type direction interface_name = af.listed type direction interface_name := by
    rw [AddressFamily.listed,same.distribute_lists,AddressFamily.listed]
  constructor
  · rw [same.distribute_lists]
    exact mirrored.distinct
  · exact offsets
  · rw [Keyed.Distinct,same.names]
    exact mirrored.names
  · intro type direction
    rw [same.filter,listed]
    exact mirrored.process type direction
  · intro ei member type direction
    obtain ⟨old,old_member,name,filter⟩ := same.interfaces ei member
    rw [filter,name,listed]
    exact mirrored.interfaces old old_member type direction

/-- A reference and its entry are written together. -/
theorem Written.mirrored {name : Option String} (written : Written af next type name direction interface_name) (mirrored : Mirrored all af)
    {lists : List ListConfig} (distinct : Keyed.Distinct ListConfig.key lists)
    (entry : ∀ key, (Keyed.lookup ListConfig.key key lists).map (·.name) =
      if key = (type, direction, interface_name) then name else (Keyed.lookup ListConfig.key key af.distribute_lists).map (·.name)) :
    Mirrored all { next with distribute_lists := lists } := by
  have listed (other : ListType) (towards : FilterDirection) (ifname : Option String) :
      AddressFamily.listed { next with distribute_lists := lists } other towards ifname =
        if other = type ∧ towards = direction ∧ ifname = interface_name then name else af.listed other towards ifname := by
    simp only [AddressFamily.listed,entry,Prod.mk.injEq]
  constructor
  · exact distinct
  · rw [written.offsets]
    exact mirrored.offsets
  · rw [Keyed.Distinct,written.names]
    exact mirrored.names
  · intro other towards
    rw [listed]
    simp only [written.filter]
    have before := mirrored.process other towards
    by_cases process : interface_name = none
    · rw [if_pos process,slot_write]
      by_cases here : other = type ∧ towards = direction
      · rw [if_pos here,if_pos ⟨here.1,here.2,process.symm⟩]
      · rw [if_neg here,if_neg fun same => here ⟨same.1,same.2.1⟩]
        exact before
    · rw [if_neg process,if_neg fun same => process same.2.2.symm]
      exact before
  · intro ei member other towards
    obtain ⟨old,old_member,same_name,filter⟩ := written.interfaces ei member
    rw [listed,same_name,filter]
    have before := mirrored.interfaces old old_member other towards
    by_cases here : interface_name = some old.name
    · rw [if_pos here,slot_write]
      by_cases slot : other = type ∧ towards = direction
      · rw [if_pos slot,if_pos ⟨slot.1,slot.2,here.symm⟩]
        exact .inl rfl
      · rw [if_neg slot,if_neg fun same => slot ⟨same.1,same.2.1⟩]
        exact before
    · rw [if_neg here,if_neg fun same => here same.2.2.symm]
      exact before

theorem validate_success {name : String} (valid : AddressFamily.distribute_list_validate context name interface_name = .success) :
    interface_name ≠ some "" := by
  unfold AddressFamily.distribute_list_validate at valid
  split_ifs at valid with _ unnamed
  exact unnamed

theorem distribute_add_mirrored {name : String} (both : context.config = true ∧ context.runtime = true) (mirrored : Mirrored all af) :
    Mirrored all (af.distribute_add memory context type name direction interface_name).2 := by
  unfold AddressFamily.distribute_add
  cases done : af.filter_runtime_reference_update memory type (some name) direction interface_name with
  | mk result next =>
    simp only [both.1,both.2,if_true,true_and]
    by_cases valid : AddressFamily.distribute_list_validate context name interface_name = .success
    · rw [if_neg (not_not_intro valid)]
      rcases reference_update_written mirrored.names (validate_success valid) done with ⟨rfl,rfl⟩ | ⟨rfl | ⟨_,missing⟩,written⟩
      · simp only [ne_eq,reduceCtorEq,not_false_eq_true,if_true]
        split_ifs
        all_goals exact mirrored
      · simp only [ne_eq,not_true_eq_false,if_false]
        split_ifs
        any_goals exact mirrored
        rw [written.distribute_lists]
        refine written.mirrored mirrored mirrored.distinct.put fun key => ?_
        rw [Keyed.lookup_put,apply_ite (Option.map _)]
        rfl
      · cases missing
    · rw [if_pos valid]
      exact mirrored

theorem distribute_remove_mirrored {name : String} (both : context.config = true ∧ context.runtime = true) (mirrored : Mirrored all af) :
    Mirrored all (af.distribute_remove memory context type name direction interface_name).2 := by
  unfold AddressFamily.distribute_remove
  cases done : af.filter_runtime_reference_update memory type none direction interface_name with
  | mk result next =>
    simp only [both.1,both.2,if_true,true_and]
    by_cases valid : AddressFamily.distribute_list_validate context name interface_name = .success
    · rw [if_neg (not_not_intro valid)]
      split_ifs with absent failed
      · exact mirrored
      · rcases reference_update_written mirrored.names (validate_success valid) done with ⟨rfl,rfl⟩ | ⟨success | missing,_⟩
        · exact mirrored
        · exact absurd success failed.1
        · exact absurd missing.1 failed.2
      · rcases reference_update_written mirrored.names (validate_success valid) done with ⟨rfl,_⟩ | ⟨_,written⟩
        · exact absurd ⟨by decide,by decide⟩ failed
        · have tests (config : ListConfig) (named : decide (config.type = type ∧ config.direction = direction ∧ config.name = name ∧
              config.interface_name = interface_name) = true) : config.key = (type, direction, interface_name) := by
            obtain ⟨type,direction,_,interface_name⟩ := of_decide_eq_true named
            rw [ListConfig.key,type,direction,interface_name]
          rw [written.distribute_lists,Keyed.eraseP_eq_remove mirrored.distinct tests (by simpa using absent)]
          refine written.mirrored mirrored mirrored.distinct.remove fun key => ?_
          rw [Keyed.lookup_remove mirrored.distinct,apply_ite (Option.map _)]
          rfl
    · rw [if_pos valid]
      exact mirrored

/-- Only the timer of an interface is written. -/
theorem intf_write_same (names : Keyed.Distinct Intf.name af.eiflist) (ifname : String) (update : Intf → Intf)
    (keeps : ∀ ei, (update ei).name = ei.name ∧ (update ei).filter = ei.filter) : SameFilters af (af.intf_write ifname update) := by
  have eiflist := intf_write_eiflist names ifname fun ei => (keeps ei).1
  refine ⟨rfl,rfl,?_,fun ei member => ?_⟩
  · rw [eiflist,List.map_map]
    refine List.map_congr_left fun ei _ => ?_
    simp only [Function.comp_apply]
    split
    · exact (keeps ei).1
    · rfl
  · rw [eiflist] at member
    obtain ⟨old,old_member,rfl⟩ := List.mem_map.mp member
    refine ⟨old,old_member,?_⟩
    split
    · exact keeps old
    · exact ⟨rfl,rfl⟩

theorem SameFilters.refl (af : AddressFamily) : SameFilters af af := .of_eiflist rfl rfl rfl

/-- The walk over the interfaces arms timers. -/
theorem policy_walk_same (visited : List Intf) (names : Keyed.Distinct Intf.name af.eiflist) :
    SameFilters af (visited.foldl (AddressFamily.intf_policy_update memory) af) ∧
      (visited.foldl (AddressFamily.intf_policy_update memory) af).offsets = af.offsets := by
  induction visited generalizing af with
  | nil => exact ⟨.refl af,rfl⟩
  | cons ei visited ih =>
    rw [List.foldl_cons]
    have one : SameFilters af (af.intf_policy_update memory ei) ∧ (af.intf_policy_update memory ei).offsets = af.offsets := by
      unfold AddressFamily.intf_policy_update
      split
      · have written := intf_write_same names ei.name (fun ei => { ei with t_distribute := memory.timer })
          fun _ => ⟨rfl,rfl⟩
        exact ⟨written.trans (.of_eiflist rfl rfl rfl),rfl⟩
      · exact ⟨.refl af,rfl⟩
    obtain ⟨rest,offsets⟩ := @ih (af.intf_policy_update memory ei) (by rw [Keyed.Distinct,one.1.names]; exact names)
    exact ⟨one.1.trans rest,offsets.trans one.2⟩

theorem policy_runtime_update_same (names : Keyed.Distinct Intf.name af.eiflist) :
    SameFilters af (af.policy_runtime_update memory) ∧ (af.policy_runtime_update memory).offsets = af.offsets := by
  unfold AddressFamily.policy_runtime_update
  dsimp only
  split_ifs
  · obtain ⟨same,offsets⟩ := @policy_walk_same (af.schedule_process memory) memory af.eiflist names
    have asked : SameFilters af (af.schedule_process memory) := .of_eiflist rfl rfl rfl
    exact ⟨asked.trans same,offsets⟩
  · exact policy_walk_same af.eiflist names

theorem offset_add_same {access_list : String} {offset : UInt32} (distinct : Keyed.Distinct offset_key af.offsets) :
    SameFilters af (af.offset_add memory context access_list direction offset interface_name).2 ∧
      Keyed.Distinct offset_key (af.offset_add memory context access_list direction offset interface_name).2.offsets := by
  unfold AddressFamily.offset_add
  dsimp only
  split_ifs
  all_goals first
    | exact ⟨.refl af,distinct⟩
    | exact ⟨.of_eiflist rfl rfl rfl,distinct⟩
    | exact ⟨.of_eiflist rfl rfl rfl,distinct.put⟩

theorem offset_remove_same {access_list : String} (distinct : Keyed.Distinct offset_key af.offsets) :
    SameFilters af (af.offset_remove memory context access_list direction interface_name).2 ∧
      Keyed.Distinct offset_key (af.offset_remove memory context access_list direction interface_name).2.offsets := by
  unfold AddressFamily.offset_remove
  dsimp only
  split_ifs
  all_goals first
    | exact ⟨.refl af,distinct⟩
    | exact ⟨.of_eiflist rfl rfl rfl,distinct.remove⟩

theorem default_information_update_same {operation : Operation} {access_list : Option String} :
    SameFilters af (af.default_information_update memory operation context direction access_list).2 ∧
      (af.default_information_update memory operation context direction access_list).2.offsets = af.offsets := by
  unfold AddressFamily.default_information_update
  cases direction <;> dsimp only <;> split_ifs <;> exact ⟨.of_eiflist rfl rfl rfl,rfl⟩

theorem intf_create_names (ifname : String) (names : Keyed.Distinct Intf.name af.eiflist) :
    Keyed.Distinct Intf.name (af.intf_create ifname).eiflist := by
  unfold AddressFamily.intf_create
  split_ifs with known
  · exact names
  · have missing : ∀ ei ∈ af.eiflist, ¬ ei.name = ifname := by simpa [AddressFamily.lookup_by_name] using known
    rw [Keyed.Distinct,List.map_append,List.nodup_append]
    refine ⟨names,List.nodup_singleton _,fun name listed other here => ?_⟩
    obtain ⟨ei,member,rfl⟩ := List.mem_map.mp listed
    rw [show other = ifname by simpa using here]
    exact missing ei member

theorem intf_create_mirrored {ifname : String} (mirrored : Mirrored all af)
    (fresh : all → ∀ type direction, af.listed type direction (some ifname) = none) : Mirrored all (af.intf_create ifname) := by
  unfold AddressFamily.intf_create
  split_ifs with known
  · exact mirrored
  · have names := intf_create_names ifname mirrored.names
    rw [AddressFamily.intf_create,if_neg known] at names
    refine ⟨mirrored.distinct,mirrored.offsets,names,mirrored.process,fun ei member type direction => ?_⟩
    rcases List.mem_append.mp member with before | here
    · exact mirrored.interfaces ei before type direction
    · rw [List.mem_singleton.mp here]
      have empty : ({ name := ifname } : Intf).filter.slot type direction = none := by cases type <;> cases direction <;> rfl
      by_cases given : all
      · exact .inl (empty.trans (fresh given type direction).symm)
      · exact .inr ⟨given,empty⟩

theorem intf_free_mirrored {ifname : String} (mirrored : Mirrored all af) : Mirrored all (af.intf_free ifname) :=
  ⟨mirrored.distinct,mirrored.offsets,mirrored.names.remove,mirrored.process,fun ei member =>
    mirrored.interfaces ei (List.mem_of_mem_eraseP member)⟩

/-- One event keeps the mirror. -/
theorem step_mirrored (mirrored : Mirrored all af) {event : Event} (careful : event.Careful) (fresh : all → Fresh af event) :
    Mirrored all (af.step event) := by
  cases event with
  | distribute_add memory context type name direction interface_name => exact distribute_add_mirrored careful mirrored
  | distribute_remove memory context type name direction interface_name => exact distribute_remove_mirrored careful mirrored
  | offset_add memory context access_list direction offset interface_name =>
    obtain ⟨same,distinct⟩ := @offset_add_same af memory context direction interface_name access_list offset mirrored.offsets
    exact same.mirrored distinct mirrored
  | offset_remove memory context access_list direction interface_name =>
    obtain ⟨same,distinct⟩ := @offset_remove_same af memory context direction interface_name access_list mirrored.offsets
    exact same.mirrored distinct mirrored
  | default_information memory operation context direction access_list =>
    obtain ⟨same,offsets⟩ := @default_information_update_same af memory context direction operation access_list
    exact same.mirrored (offsets ▸ mirrored.offsets) mirrored
  | policy memory =>
    obtain ⟨same,offsets⟩ := @policy_runtime_update_same af memory mirrored.names
    exact same.mirrored (offsets ▸ mirrored.offsets) mirrored
  | distribute_timer =>
    have same : SameFilters af af.distribute_timer_process := .of_eiflist rfl rfl rfl
    exact same.mirrored mirrored.offsets mirrored
  | distribute_intf_timer name =>
    have written := intf_write_same mirrored.names name (fun ei => { ei with t_distribute := false })
      fun _ => ⟨rfl,rfl⟩
    have same : SameFilters af (af.distribute_intf_timer name) := written.trans (.of_eiflist rfl rfl rfl)
    exact same.mirrored mirrored.offsets mirrored
  | intf_create name => exact intf_create_mirrored mirrored fresh
  | intf_free name => exact intf_free_mirrored mirrored

/-- In every run each event meets its condition where it comes. -/
theorem run_mirrored (mirrored : Mirrored all af) (events : List Event) (careful : ∀ event ∈ events, event.Careful)
    (fresh : all → ∀ earlier event later, events = earlier ++ event :: later → Fresh (af.run earlier) event) : Mirrored all (af.run events) := by
  induction events generalizing af with
  | nil => exact mirrored
  | cons event events ih =>
    have first := step_mirrored mirrored (careful event List.mem_cons_self) fun given => fresh given [] event events rfl
    refine ih first (fun event member => careful event (List.mem_cons_of_mem _ member)) fun given earlier next later split => ?_
    exact fresh given (event :: earlier) next later (by rw [split]; rfl)

end Mirrors

/-! ## The verdict of the configuration -/

section Verdicts
variable {evaluate : ListType → String → Prefix → Option Decision} {af : AddressFamily} {ei : Intf} {direction : FilterDirection} {dest : Prefix}

theorem state_denies_iff {state : RuntimeState} : filter_runtime_state_denies evaluate state direction dest = true ↔
    ∃ type name, state.slot type direction = some name ∧ evaluate type name dest = some .deny := by
  simp only [filter_runtime_state_denies,filter_reference_denies,Bool.or_eq_true,Option.any_eq_true,decide_eq_true_eq]
  constructor
  · rintro (⟨name,listed,denied⟩ | ⟨name,listed,denied⟩)
    · exact ⟨.access_list,name,listed,denied⟩
    · exact ⟨.prefix_list,name,listed,denied⟩
  · rintro ⟨type,name,listed,denied⟩
    cases type with
    | access_list => exact .inl ⟨name,listed,denied⟩
    | prefix_list => exact .inr ⟨name,listed,denied⟩

theorem listed_iff {type : ListType} {interface_name : Option String} {name : String} (distinct : Keyed.Distinct ListConfig.key af.distribute_lists) :
    af.listed type direction interface_name = some name ↔
      ({ type, direction, name, interface_name } : ListConfig) ∈ af.distribute_lists := by
  rw [AddressFamily.listed,Option.map_eq_some_iff,Keyed.mem_iff distinct]
  constructor
  · rintro ⟨⟨_,_,_,_⟩,found,rfl⟩
    have key := Keyed.lookup_key found
    simp only [ListConfig.key,Prod.mk.injEq] at key
    obtain ⟨rfl,rfl,rfl⟩ := key
    exact found
  · intro found
    exact ⟨_,found,rfl⟩

/-- A list that stands in the configuration for a direction and for the interface or for all of them denies the destination. -/
def Denied (evaluate : ListType → String → Prefix → Option Decision) (af : AddressFamily) (ei : Intf) (direction : FilterDirection)
    (dest : Prefix) : Prop :=
  ∃ config ∈ af.distribute_lists, config.direction = direction ∧ (config.interface_name = none ∨ config.interface_name = some ei.name) ∧
    evaluate config.type config.name dest = some .deny

theorem Mirrored.verdict {all : Prop} (mirrored : Mirrored all af) (member : ei ∈ af.eiflist) :
    (filter_prefix_update evaluate af ei direction dest = true →
      default_information_denies evaluate af direction dest = true ∨ Denied evaluate af ei direction dest) ∧
    (all → default_information_denies evaluate af direction dest = true ∨ Denied evaluate af ei direction dest →
      filter_prefix_update evaluate af ei direction dest = true) := by
  simp only [filter_prefix_update,Bool.or_eq_true,state_denies_iff]
  constructor
  · rintro ((defaults | ⟨type,name,slot,denied⟩) | ⟨type,name,slot,denied⟩)
    · exact .inl defaults
    · rw [mirrored.process,listed_iff mirrored.distinct] at slot
      exact .inr ⟨_,slot,rfl,.inl rfl,denied⟩
    · rcases mirrored.interfaces ei member type direction with same | ⟨_,empty⟩
      · rw [same,listed_iff mirrored.distinct] at slot
        exact .inr ⟨_,slot,rfl,.inr rfl,denied⟩
      · rw [empty] at slot
        cases slot
  · rintro given (defaults | ⟨⟨type,_,name,_⟩,listed,rfl,rfl | rfl,denied⟩)
    · exact .inl (.inl defaults)
    · rw [← listed_iff mirrored.distinct,← mirrored.process] at listed
      exact .inl (.inr ⟨type,name,listed,denied⟩)
    · rcases mirrored.interfaces ei member type _ with same | ⟨missing,_⟩
      · rw [← listed_iff mirrored.distinct,← same] at listed
        exact .inr ⟨type,name,listed,denied⟩
      · exact absurd given missing

theorem empty_mirrored (all : Prop) : Mirrored all {} :=
  ⟨List.nodup_nil,List.nodup_nil,List.nodup_nil,fun type direction => by cases type <;> cases direction <;> rfl,by simp⟩

/-- In every run of commands, timers and interfaces that come and go a route is filtered only by the default information or by a list that
    stands in the configuration for that interface or for all; and it is filtered by each of them, if no interface came when a list
    already stood there for its name. -/
theorem filters_configured (events : List Event) (careful : ∀ event ∈ events, event.Careful) :
    let af := AddressFamily.run {} events
    ∀ ei ∈ af.eiflist, ∀ evaluate direction dest,
      (filter_prefix_update evaluate af ei direction dest = true →
        default_information_denies evaluate af direction dest = true ∨ Denied evaluate af ei direction dest) ∧
      ((∀ earlier event later, events = earlier ++ event :: later → Fresh (AddressFamily.run {} earlier) event) →
        default_information_denies evaluate af direction dest = true ∨ Denied evaluate af ei direction dest →
          filter_prefix_update evaluate af ei direction dest = true) := by
  intro af ei member evaluate direction dest
  constructor
  · have mirrored : Mirrored False af := run_mirrored (empty_mirrored _) events careful fun never => never.elim
    exact (mirrored.verdict member).1
  · intro fresh
    have mirrored : Mirrored True af := run_mirrored (empty_mirrored _) events careful fun _ => fresh
    exact (mirrored.verdict member).2 trivial

/-- A list for an interface that is there. -/
def guarded : List Event := [.intf_create "eth0",.distribute_add {} {} .access_list "inside" .inbound (some "eth0")]

theorem guarded_careful : ∀ event ∈ guarded, event.Careful := by
  intro event member
  simp only [guarded,List.mem_cons,List.not_mem_nil,or_false] at member
  rcases member with rfl | rfl
  · trivial
  · exact ⟨rfl,rfl⟩

theorem filters_configured_guarded : ∃ ei ∈ (AddressFamily.run {} guarded).eiflist,
    filter_prefix_update (fun _ _ _ => some .deny) (AddressFamily.run {} guarded) ei .inbound ⟨10#128,24⟩ = true ∧
    (default_information_denies (fun _ _ _ => some .deny) (AddressFamily.run {} guarded) .inbound ⟨10#128,24⟩ = true ∨
      Denied (fun _ _ _ => some .deny) (AddressFamily.run {} guarded) ei .inbound ⟨10#128,24⟩) := by
  obtain ⟨ei,member,filtered⟩ : ∃ ei ∈ (AddressFamily.run {} guarded).eiflist,
      filter_prefix_update (fun _ _ _ => some .deny) (AddressFamily.run {} guarded) ei .inbound ⟨10#128,24⟩ = true := by decide
  exact ⟨ei,member,filtered,(filters_configured guarded guarded_careful ei member _ _ _).1 filtered⟩

/-- An interface that comes after its list is not filtered by it. -/
example :
    let af := AddressFamily.run {} guarded.reverse
    af.distribute_lists.length = 1 ∧ af.eiflist.all fun ei =>
      !filter_prefix_update (fun _ _ _ => some .deny) af ei .inbound ⟨10#128,24⟩ := by decide

end Verdicts

end Eigrp.Filters
