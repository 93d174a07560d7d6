import Eigrp.Destination
import Eigrp.Lib.Trace

/-!
# The instance

The state that all destinations share: configuration, interfaces and neighbors, the topology table
with its descriptors, the list of changes, the packetizer's queue and what the host's routing table
holds. A descriptor is touched only by the operations of `Label`; each is recorded as a step.
-/

namespace Eigrp
open Eigrp.Lib

/-! ## State -/

inductive NbrState where
  | down
  | pending
  | up
deriving DecidableEq, Repr

/-- `eigrp_nbr_t` of one interface. `peer_init_resync_prefixes` is set while a resynchronisation is pending,
    `nbr_gr_prefixes_send` while a graceful restart is; `nbr_gr_prefixes` says that the saved list is set, which by then has
    been freed. -/
structure Neighbor where
  id : Nat
  state : NbrState := .down
  recv_sequence_number : UInt32 := 0
  peer_init_sequence_number : UInt32 := 0
  peer_init_retransmit_eligible : Bool := false
  peer_init_resync_prefixes : Option (List Nat) := none
  nbr_gr_prefixes : Bool := false
  nbr_gr_prefixes_send : Option (List Nat) := none
deriving DecidableEq, Repr

structure Intf where
  id : Nat
  params : IntfParams := {}
  split_horizon : Bool := true
  next_hop_self : Bool := true
  destination : Option Prefix := none
  nbrs : List Neighbor := []
deriving DecidableEq, Repr

/-- A route TLV handed to the reliable transport, for all neighbors of the interface or for one. -/
structure Transmission where
  ei : Nat
  nbr : Option Nbr
  opcode : Opcode
  tlv : Tlv
deriving DecidableEq, Repr

/-- Undefined behaviour of the C program. -/
inductive Fault where
  | null
  | dangling
deriving DecidableEq, Repr

/-- `eigrp_instance_t`. `prefixes` are the descriptors that are allocated, `topology_table` names those that the
    table finds, and `fault` is set once and for all. -/
structure Instance where
  metric : MetricConfig := {}
  variance : UInt8 := 1
  max_paths : UInt8 := 4
  traffic_share_balanced : Bool := true
  distance_internal : UInt8 := 90
  distance_external : UInt8 := 170
  active_time : UInt16 := 180
  rib_accepts : RibRoute → Bool := fun _ => true
  links : Nat → Nat → Metrics → Bool := fun _ _ _ => true
  eiflist : List Intf := []
  prefixes : List PrefixDescriptor := []
  topology_table : List Nat := []
  topology_changes : List Nat := []
  packetizer : List Work := []
  rib : Prefix → Option RibRoute := fun _ => none
  sent : List Transmission := []
  next_id : Nat := 0
  next_nbr : Nat := 0
  fault : Option Fault := none

def Instance.intf (eigrp : Instance) (ei : Nat) : Option Intf := eigrp.eiflist.find? fun intf => intf.id = ei

def Instance.neighbor (eigrp : Instance) (nbr : Nbr) : Option Neighbor :=
  match nbr with
  | .self => none
  | .peer ei id => (eigrp.intf ei).bind fun intf => intf.nbrs.find? fun neighbor => neighbor.id = id

/-- The neighbors of an interface that are UP. -/
def Intf.up_neighbors (intf : Intf) : List Nbr :=
  (intf.nbrs.filter fun neighbor => neighbor.state = .up).map fun neighbor => .peer intf.id neighbor.id

/-- `eigrp_nbr_count`. -/
def Instance.nbr_count (eigrp : Instance) : Nat := (eigrp.eiflist.flatMap Intf.up_neighbors).length

def Instance.env (eigrp : Instance) : Env where
  metric := eigrp.metric
  variance := eigrp.variance
  max_paths := eigrp.max_paths
  traffic_share_balanced := eigrp.traffic_share_balanced
  distance_internal := eigrp.distance_internal
  distance_external := eigrp.distance_external
  active_time := eigrp.active_time
  params := fun ei => ((eigrp.intf ei).map (·.params)).getD {}
  nbr_count := eigrp.nbr_count
  rib_accepts := eigrp.rib_accepts
  links := eigrp.links

def Instance.descriptor (eigrp : Instance) (id : Nat) : Option PrefixDescriptor :=
  eigrp.prefixes.find? fun pd => pd.id = id

/-- `eigrp_topology_table_lookup`. -/
def Instance.topology_table_lookup (eigrp : Instance) (destination : Prefix) : Option PrefixDescriptor :=
  (eigrp.topology_table.filterMap eigrp.descriptor).find? fun pd => pd.destination = destination

/-! ## Effects -/

def Instance.packetizer_enqueue (eigrp : Instance) (work : Work) : Instance :=
  { eigrp with packetizer := eigrp.packetizer ++ [work] }

def Instance.rib_write (eigrp : Instance) (destination : Prefix) (route : Option RibRoute) : Instance :=
  { eigrp with rib := Function.update eigrp.rib destination route }

/-- The table without its node for a destination. -/
def Instance.table_without (eigrp : Instance) (destination : Prefix) : List Nat :=
  eigrp.topology_table.filter fun id => (eigrp.descriptor id).all fun pd => pd.destination ≠ destination

/-- `eigrp_topology_prefix_detach` with the deferred free behind it; without effect on a descriptor that the table
    does not find. -/
def Instance.prefix_detach (eigrp : Instance) (pd : PrefixDescriptor) : Instance :=
  if pd.id ∈ eigrp.topology_table then
    let eigrp := { eigrp with topology_changes := eigrp.topology_changes.filter fun id => id ≠ pd.id
                              topology_table := eigrp.table_without pd.destination }
    (eigrp.rib_write pd.destination none).packetizer_enqueue
      { opcode := .update, pd := some (.shared pd.id), defer_free := true }
  else eigrp

/-- One effect of a call on a descriptor. The host keeps the old route if it refuses the new one. A stuck neighbor
    is taken down by the caller. -/
def Instance.effect (pd : PrefixDescriptor) (eigrp : Instance) : Effect → Instance
  | .topology_change => { eigrp with topology_changes := eigrp.topology_changes ++ [pd.id] }
  | .topology_change_once =>
    if pd.id ∈ eigrp.topology_changes then eigrp
    else { eigrp with topology_changes := eigrp.topology_changes ++ [pd.id] }
  | .enqueue work => eigrp.packetizer_enqueue work
  | .rib_route_add route => if eigrp.rib_accepts route then eigrp.rib_write pd.destination (some route) else eigrp
  | .rib_route_del => eigrp.rib_write pd.destination none
  | .detach => eigrp.prefix_detach pd
  | .dual_state_change _ _ _ | .stuck _ => eigrp

def Instance.effects (eigrp : Instance) (pd : PrefixDescriptor) (out : List Effect) : Instance :=
  out.foldl (Instance.effect pd) eigrp

/-! ## Operations on descriptors -/

/-- The six places that create a descriptor and put it into the table. -/
inductive Creation where
  | update (nbr : Nbr) (received : Received)
  | query (nbr : Nbr) (received : Received)
  | connected (destination : Prefix) (ei : Nat)
  | redistributed (destination : Prefix) (source : Source) (metric : Metrics)
  | connected_recreate (old : PrefixDescriptor)
  | remote_requery (old : PrefixDescriptor)

def Creation.build (env : Env) (id : Nat) : Creation → Option (PrefixDescriptor × List Effect)
  | .update nbr received => update_prefix_create env id nbr received
  | .query nbr received => query_prefix_create env id nbr received
  | .connected destination ei => some (connected_prefix_create env id destination ei)
  | .redistributed destination source metric => some (redistributed_prefix_create env id destination source metric)
  | .connected_recreate old => some (Eigrp.connected_recreate env id old)
  | .remote_requery old => some (Eigrp.remote_requery id old)

def Creation.destination : Creation → Prefix
  | .update _ received => received.tlv.dest
  | .query _ received => received.tlv.dest
  | .connected destination _ => destination
  | .redistributed destination _ _ => destination
  | .connected_recreate old => old.destination
  | .remote_requery old => old.destination

/-- What is done to descriptors; `other` stands for every change that leaves them, the table and the host's routes
    alone. -/
inductive Label where
  | perform (id : Nat) (call : Call)
  | create (creation : Creation)
  | detach (id : Nat)
  | delete (id : Nat)
  | free (id : Nat)
  | other

/-- The neighbor that an operation is about. -/
def Label.nbr : Label → Option Nbr
  | .perform _ call => call.nbr
  | .create (.update nbr _) => some nbr
  | .create (.query nbr _) => some nbr
  | _ => none

/-- The descriptor that an operation starts from. -/
def Label.old : Label → Option PrefixDescriptor
  | .create (.connected_recreate old) => some old
  | .create (.remote_requery old) => some old
  | _ => none

def Instance.fail (eigrp : Instance) (fault : Fault) : Instance := { eigrp with fault := some fault }

def Instance.perform (eigrp : Instance) (id : Nat) (call : Call) : Instance :=
  match eigrp.descriptor id with
  | none => eigrp.fail .dangling
  | some pd => match exec eigrp.env pd call with
    | none => eigrp.fail .null
    | some (next, out) =>
      { eigrp with prefixes := eigrp.prefixes.map fun pd : PrefixDescriptor => if pd.id = id then next else pd }.effects next out

def Instance.create (eigrp : Instance) (creation : Creation) : Instance :=
  let id := eigrp.next_id
  match creation.build eigrp.env id with
  | none => eigrp.fail .null
  | some (pd, out) =>
    { eigrp with prefixes := eigrp.prefixes ++ [pd], topology_table := eigrp.topology_table ++ [id]
                 next_id := id + 1 }.effects pd out

/-- `eigrp_prefix_descriptor_delete`: it takes one entry out of the list of changes and frees the descriptor. -/
def Instance.delete (eigrp : Instance) (id : Nat) : Instance :=
  match eigrp.descriptor id with
  | none => eigrp.fail .dangling
  | some pd =>
    if id ∈ eigrp.topology_table then
      { eigrp with topology_changes := eigrp.topology_changes.erase id
                   topology_table := eigrp.table_without pd.destination
                   prefixes := eigrp.prefixes.filter fun pd : PrefixDescriptor => pd.id ≠ id }.rib_write pd.destination none
    else eigrp

def Instance.act (eigrp : Instance) : Label → Instance
  | .perform id call => eigrp.perform id call
  | .create creation => eigrp.create creation
  | .detach id => match eigrp.descriptor id with
    | none => eigrp.fail .dangling
    | some pd => eigrp.prefix_detach pd
  | .delete id => eigrp.delete id
  | .free id => { eigrp with prefixes := eigrp.prefixes.filter fun pd => pd.id ≠ id }
  | .other => eigrp

/-! ## Recorded steps -/

/-- An instance with the steps that led to it. -/
abbrev Machine := Recorded Instance Label

/-- What an `other` step may change. -/
structure Frame (before after : Instance) : Prop where
  prefixes : after.prefixes = before.prefixes
  topology_table : after.topology_table = before.topology_table
  rib : after.rib = before.rib
  next_id : after.next_id = before.next_id
  fault : after.fault = before.fault ∨ after.fault = some .dangling

/-- The operations that an instance carries out: a neighbor is always a learned one, never the router itself, a
    descriptor that is cleared is still allocated, a destination is created only when the table does not have it, and
    only PASSIVE destinations are retired. -/
structure Permitted (before : Instance) (label : Label) : Prop where
  named : label ≠ .other
  peer : label.nbr ≠ some .self
  old : ∀ old, label.old = some old → old ∈ before.prefixes
  vacant : ∀ creation, label = .create creation → before.topology_table_lookup creation.destination = none
  resting : ∀ id, label = .perform id .retire → ∀ pd, before.descriptor id = some pd → pd.state = .passive

/-- A call that an instance makes on a descriptor in any state. -/
def Call.Plain (call : Call) : Prop := call.nbr ≠ some .self ∧ call ≠ .retire

theorem Permitted.perform {before : Instance} {id : Nat} {call : Call} (plain : call.Plain) :
    Permitted before (.perform id call) where
  named := by simp
  peer := plain.1
  old := by simp [Label.old]
  vacant := by simp
  resting := by
    intro _ retire
    cases retire
    exact absurd rfl plain.2

/-- Taking a descriptor out of the table or freeing it. -/
theorem Permitted.remove {before : Instance} {label : Label}
    (removes : (∃ id, label = .detach id) ∨ (∃ id, label = .delete id) ∨ ∃ id, label = .free id) : Permitted before label := by
  rcases removes with ⟨id,rfl⟩ | ⟨id,rfl⟩ | ⟨id,rfl⟩ <;>
    exact ⟨by simp,by simp [Label.nbr],by simp [Label.old],by simp,by simp⟩

theorem Permitted.create {before : Instance} {creation : Creation} (peer : (Label.create creation).nbr ≠ some .self)
    (old : ∀ old, (Label.create creation).old = some old → old ∈ before.prefixes)
    (vacant : before.topology_table_lookup creation.destination = none) : Permitted before (.create creation) where
  named := by simp
  peer := peer
  old := old
  vacant := by
    intro _ same
    cases same
    exact vacant
  resting := by simp

/-- The steps of an instance. -/
inductive Allowed : Step Instance Label → Prop
  | act {label : Label} {before : Instance} : Permitted before label → before.fault = none →
      Allowed ⟨label, before, before.act label⟩
  | other {before after : Instance} : Frame before after → Allowed ⟨.other, before, after⟩

/-- An operation on a descriptor; nothing happens behind a fault. -/
def Machine.act (label : Label) (machine : Machine) : Machine :=
  if machine.state.fault.isSome then machine else Recorded.record label (fun eigrp => eigrp.act label) machine

def Machine.perform (id : Nat) (call : Call) (machine : Machine) : Machine := Machine.act (.perform id call) machine

/-- A change of everything else. -/
def Machine.other (update : Instance → Instance) (machine : Machine) : Machine :=
  if machine.state.fault.isSome then machine else Recorded.record .other update machine

theorem Machine.act_extends (label : Label) (machine : Machine)
    (permitted : machine.state.fault = none → Permitted machine.state label) :
    Recorded.Extends Allowed machine (Machine.act label machine) := by
  unfold Machine.act
  split
  · exact .refl machine
  · rename_i sound
    have sound : machine.state.fault = none := by simpa using sound
    exact Recorded.Extends.record _ _ machine (.act (permitted sound) sound)

theorem Machine.perform_extends (id : Nat) (call : Call) (machine : Machine) (plain : call.Plain) :
    Recorded.Extends Allowed machine (Machine.perform id call machine) :=
  Machine.act_extends _ machine fun _ => .perform plain

theorem Machine.other_extends (update : Instance → Instance) (machine : Machine)
    (frame : Frame machine.state (update machine.state)) :
    Recorded.Extends Allowed machine (Machine.other update machine) := by
  unfold Machine.other
  split
  · exact .refl machine
  · exact Recorded.Extends.record _ _ machine (.other frame)

end Eigrp
