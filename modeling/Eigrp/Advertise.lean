import Eigrp.Runs
import Eigrp.Tlv

/-!
# The three advertisers

A selected route reaches the wire on three ways: in the change set of the packetizer, in the walk that
synchronises a new neighbor, and in the walk of a graceful restart. Each has its own copy of the policy.
-/

namespace Eigrp
open Eigrp.Lib

/-! ## Summaries -/

/-- The summaries of `eigrp_summary.c` for one interface: those configured with their leak maps, the automatic one, and the
    metrics configured for them. -/
structure SummaryConfig where
  afi : Afi := .ipv4
  summaries : List (Prefix × Option String) := []
  auto_summary : Bool := false
  address : Prefix := ⟨0,0⟩
  metrics : List (Prefix × Option MetricValues) := []
  leak_map_permits : String → Prefix → Bool := fun _ _ => false

/-- `eigrp_prefix_address_match`. -/
def Afi.prefix_address_match (afi : Afi) (outer : Prefix) (address : BitVec 128) : Bool :=
  let host := 2 ^ (afi.max_bitlen - outer.prefix_length.toNat)
  outer.prefix_length.toNat ≤ afi.max_bitlen && outer.address.toNat / host == address.toNat / host

/-- `eigrp_summary_match`: the longest summary that is shorter than the destination. -/
def SummaryConfig.summary_match (config : SummaryConfig) (destination : Prefix) : Option (Prefix × Option String) :=
  config.summaries.foldl (fun best summary =>
    if summary.1.prefix_length < destination.prefix_length ∧ config.afi.prefix_address_match summary.1 destination.address
        ∧ best.all (fun best => best.1.prefix_length < summary.1.prefix_length) then some summary
    else best) none

/-- The `summary_auto_prefix` of the family: the classful network of an IPv4 destination. -/
def Afi.summary_auto_prefix : Afi → Prefix → Option Prefix
  | .ipv6, _ => none
  | .ipv4, component =>
    let first_octet := component.address.toNat / 2 ^ 24 % 256
    let classful_length : Option UInt8 :=
      if first_octet < 128 then some 8 else if first_octet < 192 then some 16 else if first_octet < 224 then some 24 else none
    classful_length.bind fun length =>
      if component.prefix_length < length ∨ 32 < component.prefix_length then none
      else some (Afi.ipv4.prefix_normalize component.address.toNat length)

/-- `eigrp_summary_auto_match`. -/
def SummaryConfig.summary_auto_match (config : SummaryConfig) (component : Prefix) : Option Prefix :=
  if ¬ config.auto_summary then none
  else match config.afi.summary_auto_prefix component, config.afi.summary_auto_prefix config.address with
    | some summary, some interface_major => if summary = interface_major then none else some summary
    | _, _ => none

/-- The prefix of the summary that stands for a destination. -/
def SummaryConfig.summary_destination (config : SummaryConfig) (destination : Prefix) : Option Prefix :=
  match config.summary_match destination with
  | some summary => some summary.1
  | none => config.summary_auto_match destination

/-- `eigrp_summary_specific_leak`. -/
def SummaryConfig.summary_specific_leak (config : SummaryConfig) (destination : Prefix) : Bool :=
  ((config.summary_match destination).bind (·.2)).any fun leak_map => config.leak_map_permits leak_map destination

/-- The route of a covered destination that may support a summary on an interface. -/
def SummaryConfig.summary_component (config : SummaryConfig) (ei : Nat) (summary : Prefix) (candidate : PrefixDescriptor) :
    Option RouteDescriptor :=
  if (candidate.distance = max_distance ∧ candidate.nt ≠ .connected)
      ∨ candidate.destination.prefix_length ≤ summary.prefix_length
      ∨ ¬ config.afi.prefix_address_match summary candidate.destination.address then none
  else (route_read candidate).filter fun route =>
    ¬ (route.distance = max_distance
      ∨ (candidate.distance = max_distance
        ∧ (candidate.state ≠ .passive ∨ candidate.fdistance = max_distance ∨ route.adv_router ≠ some .self))
      ∨ route.metric.delay = max_metric ∨ route.total_metric.delay = max_metric
      ∨ (route.ei = some ei ∧ route.adv_router ≠ some .self))

/-- The nearest of them, the first in the table among equals. -/
def SummaryConfig.summary_best (config : SummaryConfig) (ei : Nat) (summary : Prefix) (eigrp : Instance) : Option RouteDescriptor :=
  ((eigrp.topology_table.filterMap eigrp.descriptor).filterMap (config.summary_component ei summary)).foldl (fun best route =>
    if best.all (fun best => route.distance < best.distance) then some route else best) none

/-- `eigrp_summary_route_build`: a local internal route with the vector of the nearest component, or with the one configured. -/
def SummaryConfig.summary_route_build (config : SummaryConfig) (ei : Nat) (eigrp : Instance) (pd : PrefixDescriptor) :
    Option (Prefix × RouteDescriptor) :=
  (config.summary_destination pd.destination).map fun summary =>
    let metric := match config.summary_best ei summary eigrp with
      | none => { delay := max_metric }
      | some best => match (config.metrics.find? fun entry => entry.1 = summary).bind (·.2) with
        | some values => metric_values_convert values
        | none => best.total_metric
    (summary, { id := 0, adv_router := some .self, metric, reported_metric := metric, total_metric := metric
                reported_distance := 0, distance := store (metric_calculate eigrp.metric metric) })

/-- The answers of a turn with the summaries of the interfaces. -/
def Egress.summarized (egress : Egress) (config : Nat → SummaryConfig) (eigrp : Instance) : Egress :=
  { egress with
    summary_covers := fun ei destination => ((config ei).summary_destination destination).isSome
    summary_route_build := fun ei pd _ => (config ei).summary_route_build ei eigrp pd
    summary_specific_leak := fun ei destination => (config ei).summary_specific_leak destination }

/-! ## The TLVs of one destination -/

section Advertisers
variable (egress : Egress) (intf : Intf)

/-- What the change set of the packetizer emits for a destination, behind the summaries that it has emitted on the
    interface. A TLV that does not fit the packet at hand is built again for the next one, and then keeps its next hop. -/
def packetizer_tlvs (splits : Prefix → Bool) (summary_seen : List Prefix) (pd : PrefixDescriptor) : List Tlv :=
  let emit (dest : Prefix) (route : RouteDescriptor) : List Tlv :=
    if egress.filtered intf.id dest then []
    else [builder_route_tlv egress intf.id (intf.next_hop_self && !splits dest) dest (packetizer_poison_reverse intf .update route)]
  let route := packetizer_route_select pd none .update
  match egress.summary_route_build intf.id pd route with
  | none => emit pd.destination route
  | some (dest, summary_route) =>
    (if dest ∈ summary_seen then [] else emit dest summary_route) ++
      if egress.summary_specific_leak intf.id pd.destination then emit pd.destination route else []

/-- What `eigrp_update_sync_continue` emits for a destination, behind the summaries that it has come by. A summary that is
    filtered takes the component that it is built for along. -/
def sync_tlvs (summary_seen : List Prefix) (pd : PrefixDescriptor) : List Tlv :=
  match route_read pd with
  | none => []
  | some route =>
    let specific := if egress.filtered intf.id pd.destination then [] else
      [walk_route_tlv egress intf pd.destination route route.total_metric]
    match egress.summary_route_build intf.id pd route with
    | none => specific
    | some (dest, summary_route) =>
      let leaked := if egress.summary_specific_leak intf.id pd.destination then specific else []
      if dest ∈ summary_seen then leaked
      else if egress.filtered intf.id dest then []
      else walk_route_tlv egress intf dest summary_route summary_route.metric :: leaked

/-- What `eigrp_update_send_GR_part` emits for a destination: the vector of the predecessor, never a summary. -/
def gr_tlvs (pd : PrefixDescriptor) : List Tlv :=
  if egress.filtered intf.id pd.destination then []
  else match pd.routes.find? (·.successor) with
    | none => []
    | some route => [walk_route_tlv egress intf pd.destination route route.metric]

end Advertisers

/-! ## The change set -/

section ChangeSet
variable {machine : Machine} {egress : Egress} {intf : Intf}

/-- A transmission of the change set to all neighbors of the interface. -/
def Intf.multicast (intf : Intf) (tlv : Tlv) : Transmission := { ei := intf.id, nbr := none, opcode := .update, tlv }

theorem builder_route_add_sent (sound : machine.state.fault = none) (known : machine.state.intf intf.id = some intf)
    (encodes : ∀ ei nbr dest route, egress.encodes ei nbr dest route) (dest : Prefix) (route : RouteDescriptor) :
    (builder_route_add egress intf.id none .update dest route machine).state =
      { machine.state with sent := machine.state.sent ++
          [intf.multicast (builder_route_tlv egress intf.id intf.next_hop_self dest route)] } := by
  simp [builder_route_add,encodes,Machine.other_state sound,known,Intf.multicast]

/-- The packetizer sends what it emits for a destination, as long as its packet has room. -/
theorem change_send_tlvs {id : Nat} {pd : PrefixDescriptor} (sound : machine.state.fault = none)
    (known : machine.state.intf intf.id = some intf) (found : machine.state.descriptor id = some pd) (marked : pd.need_update)
    (encodes : ∀ ei nbr dest route, egress.encodes ei nbr dest route) (summary_seen : List Prefix) :
    (change_send egress .need_update intf (machine, summary_seen) id).1.state.sent =
      machine.state.sent ++ (packetizer_tlvs egress intf (fun _ => false) summary_seen pd).map intf.multicast := by
  have sent {machine : Machine} (sound : machine.state.fault = none) (known : machine.state.intf intf.id = some intf) (dest : Prefix)
      (route : RouteDescriptor) := builder_route_add_sent sound known encodes dest (packetizer_poison_reverse intf .update route)
  have needs : pd.needs .need_update := marked
  simp only [change_send,found,needs,packetizer_tlvs,intf_route_send,Action.opcode]
  cases built : egress.summary_route_build intf.id pd (packetizer_route_select pd none .update) with
  | none =>
    by_cases filtered : egress.filtered intf.id pd.destination
    · simp [filtered]
    · simp [filtered,sent sound known]
  | some summary =>
    obtain ⟨dest,summary_route⟩ := summary
    -- a summary that was sent before, and one that is filtered, leave the packet as it is
    by_cases silent : dest ∈ summary_seen ∨ egress.filtered intf.id dest
    · by_cases leak : egress.summary_specific_leak intf.id pd.destination
      · by_cases hidden : egress.filtered intf.id pd.destination
        · rcases silent with seen | filtered <;> simp_all
        · rcases silent with seen | filtered <;> simp [*,sent sound known]
      · rcases silent with seen | filtered <;> simp_all
    · obtain ⟨unseen,permitted⟩ := not_or.mp silent
      have first := sent sound known dest summary_route
      by_cases leak : egress.summary_specific_leak intf.id pd.destination
      · by_cases hidden : egress.filtered intf.id pd.destination
        · simp [unseen,permitted,leak,hidden,first]
        · have second := @sent (builder_route_add egress intf.id none .update dest (packetizer_poison_reverse intf .update summary_route)
            machine) (by rw [first]; exact sound) (by rw [first]; exact known) pd.destination (packetizer_route_select pd none .update)
          simp [unseen,permitted,leak,hidden,first,second]
      · simp [unseen,permitted,leak,first]

end ChangeSet

/-! ## Agreement -/

section Agreement
variable {egress : Egress} {intf : Intf} {pd : PrefixDescriptor} {route : RouteDescriptor}

/-- The position of a destination in a change set and in a synchronisation: the TLVs that do not fit the packet at hand,
    and the summaries that either has come by. -/
structure Position where
  splits : Prefix → Bool := fun _ => false
  changes_seen : List Prefix := []
  sync_seen : List Prefix := []

/-- Change set, synchronisation and graceful restart emit the same TLVs for the destination. -/
def Agree (egress : Egress) (intf : Intf) (position : Position) (pd : PrefixDescriptor) : Prop :=
  packetizer_tlvs egress intf position.splits position.changes_seen pd = sync_tlvs egress intf position.sync_seen pd ∧
    sync_tlvs egress intf position.sync_seen pd = gr_tlvs egress intf pd

/-- Two routes that differ in nothing a TLV carries, the vector taken behind split horizon and offset list. -/
structure Alike (egress : Egress) (intf : Intf) (dest : Prefix) (first : RouteDescriptor) (metric : Metrics) (second : RouteDescriptor)
    (vector : Metrics) : Prop where
  external : first.external = second.external
  nexthop : first.nexthop = second.nexthop
  extdata : first.extdata = second.extdata
  metric : (walk_route_tlv egress intf dest first metric).metric = (walk_route_tlv egress intf dest second vector).metric

theorem walk_route_tlv_iff {dest : Prefix} {first second : RouteDescriptor} {metric vector : Metrics} :
    walk_route_tlv egress intf dest first metric = walk_route_tlv egress intf dest second vector ↔
      Alike egress intf dest first metric second vector := by
  constructor
  · intro same
    exact ⟨congrArg Tlv.external same,congrArg Tlv.nexthop same,congrArg Tlv.extdata same,congrArg Tlv.metric same⟩
  · rintro ⟨external,nexthop,extdata,metric⟩
    simp only [walk_route_tlv] at metric ⊢
    rw [external,nexthop,extdata,metric]

/-- A TLV that names the advertising router as its next hop. -/
def Tlv.hop_self (own : Bool) (tlv : Tlv) : Tlv := if own then { tlv with nexthop := 0 } else tlv

theorem Tlv.hop_self_eq_iff (tlv : Tlv) (own : Bool) : tlv.hop_self own = tlv ↔ (own → tlv.nexthop = 0) := by
  cases own with
  | true =>
    constructor
    · intro same _
      exact (congrArg Tlv.nexthop same).symm
    · intro zero
      rw [Tlv.hop_self,if_pos rfl,← zero rfl]
  | false => simp [Tlv.hop_self]

/-- The packetizer's TLV of a stored route is that of the walks, but for the next hop. -/
theorem builder_route_tlv_walk (dest : Prefix) (own : Bool) :
    builder_route_tlv egress intf.id own dest (packetizer_poison_reverse intf .update { route with metric := route.total_metric }) =
      (walk_route_tlv egress intf dest route route.total_metric).hop_self own := by
  have horizon : nbr_split_horizon { route with metric := route.total_metric } intf = nbr_split_horizon route intf := rfl
  cases own <;> by_cases split : nbr_split_horizon route intf <;>
    simp [builder_route_tlv,walk_route_tlv,packetizer_poison_reverse,horizon,split,Tlv.hop_self]

/-- When no summary stands for the destination: the outbound filter denies it, or its next hop survives next-hop-self and the
    first SUCCESSOR looks like the selected route. -/
def UniformSpecific (egress : Egress) (intf : Intf) (splits : Prefix → Bool) (pd : PrefixDescriptor) (route : RouteDescriptor) : Prop :=
  egress.filtered intf.id pd.destination ∨
    (intf.next_hop_self ∧ ¬ splits pd.destination → route.nexthop = 0) ∧
      ∃ successor, pd.routes.find? (·.successor) = some successor ∧
        Alike egress intf pd.destination route route.total_metric successor successor.metric

/-- When nothing is sent for the destination: the outbound filter denies it, or there is no SUCCESSOR. -/
def UniformSilence (egress : Egress) (intf : Intf) (pd : PrefixDescriptor) : Prop :=
  egress.filtered intf.id pd.destination ∨ pd.routes.find? (·.successor) = none

/-- When a summary does. One that the synchronisation has come by is not sent by the change set either, and the destination
    is leaked and looks the same, or nothing is left to send. One that is filtered leaves nothing to send. Any other is new
    to the change set too, is the destination itself, not leaked, and the first SUCCESSOR looks like it. -/
def UniformSummary (egress : Egress) (intf : Intf) (position : Position) (pd : PrefixDescriptor) (route : RouteDescriptor)
    (dest : Prefix) (summary_route : RouteDescriptor) : Prop :=
  if dest ∈ position.sync_seen then
    (dest ∈ position.changes_seen ∨ egress.filtered intf.id dest) ∧
      if egress.summary_specific_leak intf.id pd.destination then UniformSpecific egress intf position.splits pd route
      else UniformSilence egress intf pd
  else if egress.filtered intf.id dest then
    egress.filtered intf.id pd.destination ∨
      egress.summary_specific_leak intf.id pd.destination = false ∧ pd.routes.find? (·.successor) = none
  else
    dest ∉ position.changes_seen ∧ dest = pd.destination ∧ egress.summary_specific_leak intf.id pd.destination = false ∧
      ∃ successor, pd.routes.find? (·.successor) = some successor ∧
        Alike egress intf pd.destination summary_route summary_route.metric successor successor.metric

/-- What a graceful restart emits for a destination that is not filtered. -/
theorem gr_tlvs_iff (tlv : Tlv) (permitted : egress.filtered intf.id pd.destination = false) :
    [tlv] = gr_tlvs egress intf pd ↔ ∃ successor, pd.routes.find? (·.successor) = some successor ∧
      tlv = walk_route_tlv egress intf pd.destination successor successor.metric := by
  unfold gr_tlvs
  rw [if_neg (by simp [permitted])]
  cases found : pd.routes.find? (·.successor) with
  | none => simp
  | some successor => simp

theorem gr_tlvs_nil_iff : [] = gr_tlvs egress intf pd ↔ UniformSilence egress intf pd := by
  unfold gr_tlvs UniformSilence
  split
  · simp [*]
  · cases pd.routes.find? (·.successor) <;> simp [*]

/-- What the packetizer makes of the selected route agrees with what the walks make of it. -/
theorem specific_agree_iff {splits : Prefix → Bool} (permitted : egress.filtered intf.id pd.destination = false) :
    [builder_route_tlv egress intf.id (intf.next_hop_self && !splits pd.destination) pd.destination
        (packetizer_poison_reverse intf .update { route with metric := route.total_metric })] =
        [walk_route_tlv egress intf pd.destination route route.total_metric] ∧
      [walk_route_tlv egress intf pd.destination route route.total_metric] = gr_tlvs egress intf pd ↔
    UniformSpecific egress intf splits pd route := by
  rw [builder_route_tlv_walk,gr_tlvs_iff _ permitted,List.singleton_inj,Tlv.hop_self_eq_iff]
  simp only [UniformSpecific,permitted,Bool.false_eq_true,false_or,walk_route_tlv_iff,Bool.and_eq_true,Bool.not_eq_true',
    Bool.not_eq_true]
  rfl

theorem packetizer_route_selected (selected : route_read pd = some route) :
    packetizer_route_select pd none .update = { route with metric := route.total_metric } := by
  simp [packetizer_route_select,selected]

theorem agree_specific_iff {position : Position} (selected : route_read pd = some route)
    (alone : ∀ route, egress.summary_route_build intf.id pd route = none) :
    Agree egress intf position pd ↔ UniformSpecific egress intf position.splits pd route := by
  by_cases filtered : egress.filtered intf.id pd.destination
  · simp [Agree,packetizer_tlvs,sync_tlvs,gr_tlvs,UniformSpecific,selected,alone,filtered]
  · have permitted : egress.filtered intf.id pd.destination = false := by simpa using filtered
    rw [← specific_agree_iff permitted]
    simp only [Agree,packetizer_tlvs,sync_tlvs,alone,permitted,selected,packetizer_route_selected selected,Bool.false_eq_true,if_false]

/-- Behind the summary only the destination itself is left to send. -/
theorem agree_seen_iff {position : Position} {dest : Prefix} {summary_route : RouteDescriptor} (selected : route_read pd = some route)
    (built : ∀ route, egress.summary_route_build intf.id pd route = some (dest, summary_route)) (seen : dest ∈ position.sync_seen)
    (silent : dest ∈ position.changes_seen ∨ egress.filtered intf.id dest) :
    Agree egress intf position pd ↔ if egress.summary_specific_leak intf.id pd.destination then
      UniformSpecific egress intf position.splits pd route else UniformSilence egress intf pd := by
  have summary : (if dest ∈ position.changes_seen then [] else if egress.filtered intf.id dest then [] else
      [builder_route_tlv egress intf.id (intf.next_hop_self && !position.splits dest) dest
        (packetizer_poison_reverse intf .update summary_route)]) = [] := by
    rcases silent with sent | filtered <;> simp [*]
  unfold Agree packetizer_tlvs sync_tlvs
  simp only [built,selected,packetizer_route_selected selected,summary,seen,if_true,List.nil_append]
  by_cases leak : egress.summary_specific_leak intf.id pd.destination
  · simp only [leak,if_true]
    by_cases filtered : egress.filtered intf.id pd.destination
    · simp [filtered,UniformSpecific,gr_tlvs]
    · have permitted : egress.filtered intf.id pd.destination = false := by simpa using filtered
      rw [← specific_agree_iff permitted]
      simp only [permitted,Bool.false_eq_true,if_false]
  · simp only [leak,Bool.false_eq_true,if_false,true_and]
    exact gr_tlvs_nil_iff

theorem agree_summary_iff {position : Position} {dest : Prefix} {summary_route : RouteDescriptor} (selected : route_read pd = some route)
    (built : ∀ route, egress.summary_route_build intf.id pd route = some (dest, summary_route)) (hidden : summary_route.ei = none)
    (own : summary_route.nexthop = 0) :
    Agree egress intf position pd ↔ UniformSummary egress intf position pd route dest summary_route := by
  have horizon : nbr_split_horizon summary_route intf = false := by simp [nbr_split_horizon,hidden]
  have summary (own_hop : Bool) : builder_route_tlv egress intf.id own_hop dest (packetizer_poison_reverse intf .update summary_route) =
      walk_route_tlv egress intf dest summary_route summary_route.metric := by
    simp [builder_route_tlv,walk_route_tlv,packetizer_poison_reverse,horizon,own]
  unfold UniformSummary
  by_cases seen : dest ∈ position.sync_seen
  · rw [if_pos seen]
    by_cases silent : dest ∈ position.changes_seen ∨ egress.filtered intf.id dest
    · rw [agree_seen_iff selected built seen silent]
      exact (and_iff_right silent).symm
    · refine iff_of_false (fun agree => ?_) (fun uniform => silent uniform.1)
      -- the change set has one TLV more than the synchronisation
      have counted := congrArg List.length agree.1
      obtain ⟨unseen,permitted⟩ := not_or.mp silent
      simp only [packetizer_tlvs,sync_tlvs,built,selected,seen,unseen,permitted,if_true,if_false,List.length_append] at counted
      by_cases leak : egress.summary_specific_leak intf.id pd.destination <;>
        by_cases filtered : egress.filtered intf.id pd.destination <;> simp [leak,filtered] at counted
  · rw [if_neg seen]
    by_cases filtered : egress.filtered intf.id dest
    · rw [if_pos filtered]
      have sync : sync_tlvs egress intf position.sync_seen pd = [] := by simp [sync_tlvs,selected,built,filtered,seen]
      by_cases denied : egress.filtered intf.id pd.destination
      · simp [Agree,packetizer_tlvs,sync,gr_tlvs,built,filtered,denied]
      · have changes : packetizer_tlvs egress intf position.splits position.changes_seen pd = [] ↔
            egress.summary_specific_leak intf.id pd.destination = false := by
          simp [packetizer_tlvs,built,filtered,denied]
        rw [Agree,sync,changes,gr_tlvs_nil_iff]
        simp [UniformSilence,denied]
    · rw [if_neg filtered]
      by_cases denied : egress.filtered intf.id pd.destination
      · have sent : sync_tlvs egress intf position.sync_seen pd ≠ [] := by simp [sync_tlvs,selected,built,filtered,seen]
        have kept : gr_tlvs egress intf pd = [] := by simp [gr_tlvs,denied]
        refine ⟨fun agree => absurd (agree.2.trans kept) sent,fun uniform => absurd ?_ filtered⟩
        rw [uniform.2.1]
        exact denied
      · have permitted : egress.filtered intf.id pd.destination = false := by simpa using denied
        by_cases leak : egress.summary_specific_leak intf.id pd.destination
        · have sync : (sync_tlvs egress intf position.sync_seen pd).length = 2 := by
            simp [sync_tlvs,selected,built,filtered,leak,permitted,seen]
          have restart : (gr_tlvs egress intf pd).length ≤ 1 := by
            unfold gr_tlvs
            rw [if_neg denied]
            cases pd.routes.find? (·.successor) <;> simp
          refine ⟨fun agree => ?_,fun uniform => ?_⟩
          · rw [agree.2] at sync
            omega
          · rw [leak] at uniform
            cases uniform.2.2.1
        · have sync : sync_tlvs egress intf position.sync_seen pd = [walk_route_tlv egress intf dest summary_route summary_route.metric] := by
            simp [sync_tlvs,selected,built,filtered,leak,seen]
          have changes : packetizer_tlvs egress intf position.splits position.changes_seen pd =
              [walk_route_tlv egress intf dest summary_route summary_route.metric] ↔ dest ∉ position.changes_seen := by
            by_cases sent : dest ∈ position.changes_seen <;> simp [packetizer_tlvs,built,filtered,leak,summary,sent]
          rw [Agree,sync,changes,gr_tlvs_iff _ permitted]
          refine and_congr_right fun _ => ?_
          constructor
          · rintro ⟨successor,found,same⟩
            obtain rfl : dest = pd.destination := congrArg Tlv.dest same
            exact ⟨rfl,by simpa using leak,successor,found,walk_route_tlv_iff.mp same⟩
          · rintro ⟨rfl,_,successor,found,alike⟩
            exact ⟨successor,found,walk_route_tlv_iff.mpr alike⟩

/-- For every topology, interface, policy and destination with a selected route: the three advertisers agree exactly when the
    first SUCCESSOR looks like what the other two send, and neither next-hop-self nor a summary comes between them. -/
theorem advertisers_agree_iff (eigrp : Instance) (config : Nat → SummaryConfig) (policy : Egress) (intf : Intf) (position : Position)
    (pd : PrefixDescriptor) (route : RouteDescriptor) (selected : route_read pd = some route) :
    Agree (policy.summarized config eigrp) intf position pd ↔
      match (config intf.id).summary_route_build intf.id eigrp pd with
      | none => UniformSpecific (policy.summarized config eigrp) intf position.splits pd route
      | some (dest, summary_route) => UniformSummary (policy.summarized config eigrp) intf position pd route dest summary_route := by
  cases built : (config intf.id).summary_route_build intf.id eigrp pd with
  | none => exact agree_specific_iff selected fun _ => built
  | some summary =>
    obtain ⟨dest,summary_route⟩ := summary
    obtain ⟨_,_,same⟩ := Option.map_eq_some_iff.mp built
    obtain ⟨_,rfl⟩ := Prod.ext_iff.mp same
    exact agree_summary_iff selected (fun _ => built) rfl rfl

end Agreement

/-- An interface with a destination of its own next to one with a neighbor. -/
def connected_beside : List Event :=
  [.intf_create { id := 0, destination := some ⟨10,8⟩ }, .intf_create { id := 1 }] ++ adjacency 1 0 ++ [.intf_up 0]

def connected_descriptor : PrefixDescriptor := ((run {} connected_beside).state.descriptor 0).get (by decide +kernel)

/-- A connected destination is advertised alike by all three. -/
theorem advertisers_agree_connected :
    Agree (Egress.summarized {} (fun _ => {}) (run {} connected_beside).state) { id := 1 } {} connected_descriptor := by
  refine (advertisers_agree_iff (run {} connected_beside).state (fun _ => {}) {} { id := 1 } {} connected_descriptor
    ((route_read connected_descriptor).get (by decide +kernel)) (by simp)).mpr ?_
  have alone : ({} : SummaryConfig).summary_route_build 1 (run {} connected_beside).state connected_descriptor = none := rfl
  simp only [alone]
  refine .inr ⟨fun _ => by decide +kernel,(connected_descriptor.routes.find? (·.successor)).get (by decide +kernel),by simp,?_⟩
  exact ⟨by decide +kernel,by decide +kernel,by decide +kernel,by decide +kernel⟩

/-- A neighbor has announced a destination. -/
def learned_once : List Event := two_neighbors ++ [.packet_receive (.peer 0 0) (route_packet .update 100)]

def learned_descriptor : PrefixDescriptor := ((run {} learned_once).state.descriptor 0).get (by decide +kernel)

/-- A graceful restart sends the vector of the predecessor, the other two send that of the whole path. -/
theorem learned_not_agree : ¬ ∀ metric events config policy intf position id pd route,
    intf ∈ (run metric events).state.eiflist → intf.up_neighbors ≠ [] → id ∈ (run metric events).state.topology_table →
      (run metric events).state.descriptor id = some pd → route_read pd = some route →
        Agree (Egress.summarized policy config (run metric events).state) intf position pd := by
  intro agrees
  have agree := agrees {} learned_once (fun _ => {}) {} (((run {} learned_once).state.intf 1).get (by decide +kernel)) {} 0
    learned_descriptor ((route_read learned_descriptor).get (by decide +kernel))
    (List.mem_of_find?_eq_some (Option.some_get (by decide +kernel)).symm) (by decide +kernel) (by decide +kernel)
    (by simp [learned_descriptor]) (by simp)
  have different : sync_tlvs (Egress.summarized {} (fun _ => {}) (run {} learned_once).state)
      (((run {} learned_once).state.intf 1).get (by decide +kernel)) [] learned_descriptor ≠
      gr_tlvs (Egress.summarized {} (fun _ => {}) (run {} learned_once).state)
        (((run {} learned_once).state.intf 1).get (by decide +kernel)) learned_descriptor := by decide +kernel
  exact different agree.2

end Eigrp
