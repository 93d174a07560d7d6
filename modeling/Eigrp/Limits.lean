import Eigrp.Accounts

/-!
# Prefix limits

A destination takes a slot of the neighbor it is learned from, and one of the table when it is new. What is admitted
is decided on the table and the count of the neighbor as they are when a TLV is received. The end of a graceful
restart is not asked: it gives the neighbor a route to every destination that its inbound filter denies.
-/

namespace Eigrp
namespace Storage

/-! ## The threshold -/

/-- `eigrp_prefix_limit_t`, as far as admission reads it. -/
structure PrefixLimit where
  maximum : UInt32
  threshold : UInt8 := 0
  warning_only : Bool := false
deriving DecidableEq, Repr

/-- What is configured: a maximum, and a threshold in percent. -/
structure PrefixLimit.Configured (limit : PrefixLimit) : Prop where
  maximum : limit.maximum ≠ 0
  threshold : limit.threshold ≤ 100

def prefix_limit_threshold_default : UInt8 := 75

/-- `eigrp_prefix_limit_threshold_crossed`. -/
def prefix_limit_threshold_crossed (limit : PrefixLimit) (current : UInt32) : Bool :=
  if current ≥ limit.maximum then false
  else
    let threshold := if limit.threshold ≠ 0 then limit.threshold else prefix_limit_threshold_default
    let before := current.toUInt64 * 100
    let after := (current + 1).toUInt64 * 100
    let boundary := limit.maximum.toUInt64 * threshold.toUInt64
    before < boundary && after ≥ boundary

/-- The share of the maximum that the threshold stands for, in hundredths. -/
def PrefixLimit.boundary (limit : PrefixLimit) : Nat :=
  limit.maximum.toNat * (if limit.threshold ≠ 0 then limit.threshold else prefix_limit_threshold_default).toNat

theorem boundary_bounds {limit : PrefixLimit} (configured : limit.Configured) :
    0 < limit.boundary ∧ limit.boundary ≤ limit.maximum.toNat * 100 := by
  have maximum : 0 < limit.maximum.toNat := by
    have positive := configured.maximum
    rw [ne_eq,← UInt32.toNat_inj] at positive
    exact Nat.pos_of_ne_zero positive
  have threshold := UInt8.le_iff_toNat_le.mp configured.threshold
  unfold PrefixLimit.boundary
  split
  · rename_i given
    rw [ne_eq,← UInt8.toNat_inj] at given
    exact ⟨Nat.mul_pos maximum (Nat.pos_of_ne_zero given),Nat.mul_le_mul_left _ threshold⟩
  · exact ⟨Nat.mul_pos maximum (by decide),Nat.mul_le_mul_left _ (by decide)⟩

theorem threshold_crossed_nat (limit : PrefixLimit) (current : UInt32) : prefix_limit_threshold_crossed limit current = true ↔
    current.toNat < limit.maximum.toNat ∧ current.toNat * 100 < limit.boundary ∧ limit.boundary ≤ (current.toNat + 1) * 100 := by
  unfold prefix_limit_threshold_crossed PrefixLimit.boundary
  generalize (if limit.threshold ≠ 0 then limit.threshold else prefix_limit_threshold_default) = threshold
  have wide := limit.maximum.toNat_lt
  have percent := threshold.toNat_lt
  have product : limit.maximum.toNat * threshold.toNat < 2 ^ 32 * 2 ^ 8 := by
    refine Nat.mul_lt_mul_of_lt_of_le wide percent.le (by decide)
  by_cases reached : current ≥ limit.maximum
  · rw [if_pos reached]
    have below := UInt32.le_iff_toNat_le.mp reached
    simp only [Bool.false_eq_true,false_iff,not_and]
    omega
  · have below : current.toNat < limit.maximum.toNat := by
      rw [ge_iff_le,UInt32.le_iff_toNat_le] at reached
      omega
    have next : (current + 1).toNat = current.toNat + 1 := by
      rw [UInt32.toNat_add]
      exact Nat.mod_eq_of_lt (by
        change current.toNat + 1 < 2 ^ 32
        omega)
    rw [if_neg reached]
    simp only [Bool.and_eq_true,decide_eq_true_eq,ge_iff_le,UInt64.lt_iff_toNat_lt,UInt64.le_iff_toNat_le,UInt64.toNat_mul,
      UInt32.toNat_toUInt64,UInt8.toNat_toUInt64,next]
    have hundred : (100 : UInt64).toNat = 100 := rfl
    rw [hundred,Nat.mod_eq_of_lt (by omega),Nat.mod_eq_of_lt (by omega),Nat.mod_eq_of_lt (by omega)]
    exact ⟨fun crossed => ⟨below,crossed⟩,And.right⟩

/-- As a count rises to the maximum the threshold is crossed at one count, the last below the percentage. -/
theorem threshold_crossed_once {limit : PrefixLimit} (configured : limit.Configured) :
    ∃! current : UInt32, prefix_limit_threshold_crossed limit current = true := by
  obtain ⟨positive,bounded⟩ := boundary_bounds configured
  have wide := limit.maximum.toNat_lt
  have crossed (current : UInt32) : prefix_limit_threshold_crossed limit current = true ↔ current.toNat = (limit.boundary - 1) / 100 := by
    rw [threshold_crossed_nat]
    omega
  refine ⟨UInt32.ofNat ((limit.boundary - 1) / 100),?_,fun current same => ?_⟩
  · refine (crossed _).mpr (UInt32.toNat_ofNat_of_lt' ?_)
    change (limit.boundary - 1) / 100 < 2 ^ 32
    omega
  · rw [← (crossed current).mp same,UInt32.ofNat_toNat]

/-- Half of three. -/
theorem threshold_crossed_once_half : ∃! current : UInt32, prefix_limit_threshold_crossed { maximum := 3, threshold := 50 } current = true :=
  threshold_crossed_once ⟨by decide,by decide⟩

/-! ## Admission -/

/-- The limits of a run. -/
structure Limits where
  nbr_limit_lookup : Nbr → Option PrefixLimit := fun _ => none
  topology_maximum_prefix : Option PrefixLimit := none

/-- What the limits that were exceeded before have suspended: neighbors, or the address family. -/
structure Standing where
  nbr_is_eligible : Nbr → Bool := fun _ => true
  pfxlimits_af_state : Bool := false

def Table.lookup (table : Table) (destination : Prefix) : Option PrefixDescriptor :=
  table.prefixes.find? fun pd => pd.destination = destination

/-- Whether a hard limit refuses one more. -/
def PrefixLimit.refuses (limit : PrefixLimit) (count : Nat) : Bool := !limit.warning_only && decide (count ≥ limit.maximum.toNat)

/-- `eigrp_topology_prefix_count`. -/
def topology_prefix_count (table : Table) : Nat := if table.prefixes.length > 0xffffffff then 0xffffffff else table.prefixes.length

/-- `eigrp_topology_prefix_admit`. -/
def topology_prefix_admitted (limits : Limits) (standing : Standing) (table : Table) (destination : Prefix) : Bool :=
  if standing.pfxlimits_af_state then false
  else if (table.lookup destination).isSome then true
  else limits.topology_maximum_prefix.all fun limit => !limit.refuses (topology_prefix_count table)

/-- `eigrp_nbr_prefix_admit` with a count. -/
def nbr_prefix_admitted (limits : Limits) (standing : Standing) (count : Nat) (table : Table) (nbr : Nbr) (destination : Prefix) : Bool :=
  if !standing.nbr_is_eligible nbr then false
  else if (table.lookup destination).any fun existing => nbr_prefix_present existing nbr then true
  else (limits.nbr_limit_lookup nbr).all fun limit => !limit.refuses count

/-- The same of the table itself. -/
def TopologyVerdict (limits : Limits) (standing : Standing) (table : Table) (received : Received) : Prop :=
  received.topology_prefix_admitted = topology_prefix_admitted limits standing table received.tlv.dest

def Call.received : Call → Option (Nbr × Received)
  | .update_receive nbr received => some (nbr, received)
  | .query_receive nbr received => some (nbr, received)
  | .reply_receive nbr received => some (nbr, received)
  | .siaquery_receive nbr received => some (nbr, received)
  | .siareply_receive nbr received => some (nbr, received)
  | _ => none

/-- Who creates a destination keeps to the limit of the table, but for the connected ones, which are not asked about. -/
def Operation.Admitted (limits : Limits) (standing : Standing) (env : Env) (table : Table) : Operation → Prop
  | .create _ (.update _ received) => nbr_route_admitted env received (ingress_metric received) = true ∧
      TopologyVerdict limits standing table received
  | .create _ (.query _ received) => query_recordable env received = true ∧ TopologyVerdict limits standing table received
  | .create _ (.redistributed destination _ _) => topology_prefix_admitted limits standing table destination = true
  | _ => True

def Operation.connects : Operation → Bool
  | .create _ (.connected _ _) => true
  | _ => false

/-- The end of a graceful restart asks about a destination that the neighbor has no route to. -/
def Operation.asks (table : Table) (nbr : Nbr) : Operation → Bool
  | .turn id (.call (.gr_ask asked)) => decide (asked = nbr) && (table.find id).any fun pd => !nbr_prefix_present pd nbr
  | _ => false

/-- The runs whose operations all meet a condition, with the number of connected destinations that came up and of what each
    neighbor was asked about. -/
inductive Limited (Meets : Standing → Env → Table → Operation → Prop) : Table → Nat → (Nbr → Nat) → Prop
  | start : Limited Meets {} 0 fun _ => 0
  | step {standing : Standing} {memory : Memory} {env : Env} {table next : Table} {operation : Operation} {connected : Nat}
      {asked : Nbr → Nat} : Limited Meets table connected asked → operation.Permitted → Meets standing env table operation →
      table.step memory env operation = some next →
      Limited Meets next (connected + operation.connects.toNat) fun nbr => asked nbr + (operation.asks table nbr).toNat

section Limited
variable {limits : Limits} {standing : Standing} {memory : Memory} {env : Env} {table next : Table} {operation : Operation}
  {connected id : Nat} {pd left : PrefixDescriptor} {nbr : Nbr} {counts last : Counts} {limit : PrefixLimit} {turn : Turn}
  {stranded asked : Nbr → Nat} {destination : Prefix} {received : Received} {Meets : Standing → Env → Table → Operation → Prop}

theorem Limited.run (run : Limited Meets table connected asked) : ∃ stranded, Run table stranded := by
  induction run with
  | start => exact ⟨_,.start⟩
  | step _ permitted _ done ih =>
    obtain ⟨stranded,run⟩ := ih
    exact ⟨_,.step run permitted done⟩

theorem lookup_vacant (vacant : table.vacant id destination = true) : table.lookup destination = none :=
  List.find?_eq_none.mpr fun other member same => (vacant_free vacant).2 other member (by simpa using same)

theorem query_recordable_admitted (recordable : query_recordable env received = true) :
    nbr_route_admitted env received received.tlv.metric = true := by
  unfold query_recordable at recordable
  simp only [Bool.and_eq_true] at recordable
  exact recordable.2

/-- A neighbor advertises a destination. -/
theorem learned_limited (meets : Meets {} ({} : Instance).env {} (.create 0 (.update (.peer 0 0) (advertised 10)))) :
    ∃ table asked, Limited Meets table 0 asked ∧ asked (.peer 0 0) = 0 ∧ nbr_prefix_walk (.peer 0 0) table.prefixes = 1 ∧
      table.prefixes.length = 1 := by
  have learned := (Option.some_get (show (({} : Table).step {} ({} : Instance).env
    (.create 0 (.update (.peer 0 0) (advertised 10)))).isSome by decide +kernel)).symm
  have first := Limited.step .start (by simp [Operation.Permitted,Label.nbr,Label.old]) meets learned
  exact ⟨_,_,first,rfl,by decide +kernel,by decide +kernel⟩

theorem topology_admitted_room (hard : limits.topology_maximum_prefix = some limit) (strict : limit.warning_only = false)
    (new : table.lookup destination = none) (admitted : topology_prefix_admitted limits standing table destination = true) :
    table.prefixes.length < limit.maximum.toNat := by
  unfold topology_prefix_admitted at admitted
  split at admitted
  · cases admitted
  · have wide := limit.maximum.toNat_lt
    rw [new,Option.isSome_none,if_neg Bool.false_ne_true,hard] at admitted
    have below : topology_prefix_count table < limit.maximum.toNat := by simpa [PrefixLimit.refuses,strict] using admitted
    unfold topology_prefix_count at below
    split at below <;> omega

theorem admitted_topology {metric : Metrics} (admitted : nbr_route_admitted env received metric = true) :
    received.topology_prefix_admitted = true := by
  unfold nbr_route_admitted at admitted
  simp only [Bool.and_eq_true] at admitted
  exact admitted.2

theorem without_length (accounted : Accounted table stranded) (found : table.find id = some pd) :
    (without id table.prefixes).length + 1 = table.prefixes.length := by
  obtain ⟨front,back,listed,number,apart⟩ := find_split accounted.live found
  rw [listed,without_split number apart]
  simp only [List.length_append,List.length_cons]
  omega

theorem created_length (created : Option PrefixDescriptor) : created.toList.length ≤ 1 := by
  cases created <;> simp

/-- No step but that of a connected destination takes the table past the limit. -/
theorem step_length (accounted : Accounted table stranded) (permitted : operation.Permitted)
    (admitted : operation.Admitted limits standing env table) (hard : limits.topology_maximum_prefix = some limit)
    (strict : limit.warning_only = false) (kept : table.prefixes.length ≤ limit.maximum.toNat + connected)
    (done : table.step memory env operation = some next) :
    next.prefixes.length ≤ limit.maximum.toNat + (connected + operation.connects.toNat) := by
  cases operation with
  | turn id turn =>
    obtain ⟨_,_,_,_,⟨_,_,prefixes,_⟩ | ⟨prefixes,_⟩⟩ := turn_step done
    · have fewer : (without id table.prefixes).length ≤ table.prefixes.length := List.length_filter_le _ _
      rw [prefixes]
      omega
    · rw [prefixes,List.length_map]
      omega
  | create id creation =>
    obtain ⟨created,vacant,made,prefixes,_⟩ := create_step done
    have once := created_length created
    have new := lookup_vacant vacant
    rw [prefixes,List.length_append]
    cases creation with
    | update heard received =>
      obtain ⟨accepted,verdict⟩ := admitted
      have below := topology_admitted_room hard strict new (verdict.symm.trans (admitted_topology accepted))
      omega
    | query heard received =>
      obtain ⟨recordable,verdict⟩ := admitted
      have accepted := admitted_topology (query_recordable_admitted recordable)
      have below := topology_admitted_room hard strict new (verdict.symm.trans accepted)
      omega
    | connected destination ei =>
      simp only [Operation.connects,Bool.toNat_true]
      omega
    | redistributed destination source metric =>
      have below := topology_admitted_room hard strict new admitted
      omega
    | connected_recreate cleared => cases permitted.2
    | remote_requery cleared => cases permitted.2
  | clear id fresh =>
    obtain ⟨old,created,found,prefixes,_,_⟩ := clear_step done
    have fewer := without_length accounted found
    have once := created_length created
    rw [prefixes,List.length_append]
    omega
  | free id =>
    cases done
    dsimp only
    omega
  | delete id =>
    obtain ⟨old,found,prefixes,_,_⟩ := delete_step done
    have fewer := without_length accounted found
    rw [prefixes]
    omega

/-- A hard limit of the table holds in every run, but for the connected destinations, which are not asked about. -/
theorem topology_limit_kept (run : Limited (Operation.Admitted limits) table connected asked)
    (hard : limits.topology_maximum_prefix = some limit) (strict : limit.warning_only = false) :
    table.prefixes.length ≤ limit.maximum.toNat + connected := by
  induction run with
  | start => exact Nat.zero_le _
  | step earlier permitted admitted done ih =>
    obtain ⟨stranded,run⟩ := earlier.run
    exact step_length (run_accounted run) permitted admitted hard strict ih done

theorem topology_limit_kept_learned : ∃ table asked,
    Limited (Operation.Admitted { topology_maximum_prefix := some { maximum := 1 } }) table 0 asked ∧
    table.prefixes.length = 1 ∧ table.prefixes.length ≤ 1 + 0 := by
  obtain ⟨table,asked,run,_,_,size⟩ :=
    @learned_limited (Operation.Admitted { topology_maximum_prefix := some { maximum := 1 } }) ⟨by decide +kernel,rfl⟩
  exact ⟨table,asked,run,size,topology_limit_kept run rfl rfl⟩

end Limited
end Storage
end Eigrp
