import Eigrp.Instance

/-!
# The encoder of an interface

An interface encodes its multicasts for the TLV versions of its UP neighbors, which it counts as adjacencies come up
and go down. A neighbor's version is bound by the software version of its Hellos and by the metric version of the
address family, and the prefix limits take neighbors down: one of them first marks the neighbor and tears it down
once the packet has been walked.
-/

namespace Eigrp.Peering

/-- The codec behind `ei->encoder`. -/
inductive Encoder where
  | safe
  | tlv1
  | tlv2
  | both
deriving DecidableEq, Repr

/-- What an interface keeps about the versions of its neighbors. -/
structure Counts where
  tlv1_peer_count : UInt16 := 0
  tlv2_peer_count : UInt16 := 0
  encoder : Encoder := .safe
deriving DecidableEq, Repr

/-- `eigrp_nbr_limit_state_t`. -/
inductive LimitState where
  | none
  | suspended
  | locked
deriving DecidableEq, Repr

/-- The fields of `eigrp_nbr_t` that decide its version, its state and its penalties. -/
structure Adjacency where
  id : Nat
  state : NbrState := .down
  tlv_version : UInt8 := 0
  tlv_rel_major : UInt8 := 0
  limit_state : LimitState := .none
  limit_cleanup_pending : Bool := false
  limit_prev_state : NbrState := .down
  af_suspended : Bool := false
deriving DecidableEq, Repr

structure Interface where
  id : Nat
  nbrs : List Adjacency := []
  counts : Counts := {}
deriving DecidableEq, Repr

/-- `af_state` stands for a nonzero `eigrp_pfxlimits_af_state`. -/
structure Family where
  metric_version : UInt8 := 2
  af_state : Bool := false
  eiflist : List Interface := []
deriving DecidableEq, Repr

/-! ## Counting -/

/-- `eigrp_intf_encoder_clear`. -/
def encoder_clear : Counts := {}

/-- `eigrp_intf_encoder_select`. -/
def Counts.encoder_select (counts : Counts) : Counts :=
  if counts.tlv1_peer_count ≠ 0 ∧ counts.tlv2_peer_count ≠ 0 then { counts with encoder := .both }
  else if counts.tlv1_peer_count ≠ 0 then { counts with encoder := .tlv1 }
  else if counts.tlv2_peer_count ≠ 0 then { counts with encoder := .tlv2 }
  else { counts with encoder := .safe }

/-- `eigrp_intf_encoder_peer_add`. -/
def Counts.peer_add (counts : Counts) (tlv_version : UInt8) : Counts :=
  if tlv_version = 1 then { counts with tlv1_peer_count := counts.tlv1_peer_count + 1 }.encoder_select
  else if tlv_version = 2 then { counts with tlv2_peer_count := counts.tlv2_peer_count + 1 }.encoder_select
  else counts

/-- `eigrp_intf_encoder_peer_remove`. -/
def Counts.peer_remove (counts : Counts) (tlv_version : UInt8) : Counts :=
  if tlv_version = 1 then
    (if counts.tlv1_peer_count ≠ 0 then { counts with tlv1_peer_count := counts.tlv1_peer_count - 1 }
      else counts).encoder_select
  else if tlv_version = 2 then
    (if counts.tlv2_peer_count ≠ 0 then { counts with tlv2_peer_count := counts.tlv2_peer_count - 1 }
      else counts).encoder_select
  else counts

/-! ## Versions -/

/-- `eigrp_metric_version_select`. -/
def metric_version_select (metric_version peer_version : UInt8) : UInt8 :=
  if metric_version ≥ 2 ∧ peer_version ≥ 2 then 2 else 1

/-- `eigrp_nbr_codec_select`. -/
def Adjacency.codec_select (nbr : Adjacency) (tlv_version : UInt8) : Adjacency :=
  if tlv_version = 1 ∨ tlv_version = 2 then { nbr with tlv_version := tlv_version } else nbr

/-- `eigrp_sw_version_decode`. -/
def Adjacency.sw_version_decode (metric_version eigrp_major : UInt8) (nbr : Adjacency) : Adjacency :=
  { nbr with tlv_rel_major := eigrp_major }.codec_select (metric_version_select metric_version eigrp_major)

/-- `eigrp_nbr_codec_update` for one neighbor. -/
def codec_update (metric_version : UInt8) (counts : Counts) (nbr : Adjacency) : Counts × Adjacency :=
  let selected := metric_version_select metric_version nbr.tlv_rel_major
  if nbr.tlv_rel_major = 0 ∨ selected = nbr.tlv_version then (counts, nbr)
  else if nbr.state = .up then
    let counts := counts.peer_remove nbr.tlv_version
    let nbr := nbr.codec_select selected
    (counts.peer_add nbr.tlv_version, nbr)
  else (counts, nbr.codec_select selected)

/-! ## States -/

/-- `eigrp_nbr_state_update_reason`. -/
def state_update (state : NbrState) (counts : Counts) (nbr : Adjacency) : Counts × Adjacency :=
  if (nbr.limit_state ≠ .none ∨ nbr.af_suspended) ∧ state ≠ .down then (counts, nbr)
  else
    let counts := if nbr.state = .up ∧ state ≠ .up then counts.peer_remove nbr.tlv_version else counts
    let counts := if state = .up ∧ nbr.state ≠ .up then counts.peer_add nbr.tlv_version else counts
    (counts, { nbr with state := state })

/-- `eigrp_nbr_down_deferred`; `eigrp_nbr_down` adds the work of the topology only. -/
def nbr_down (counts : Counts) (nbr : Adjacency) : Counts × Adjacency :=
  if nbr.limit_cleanup_pending then
    state_update .down (if nbr.limit_prev_state = .up then counts.peer_remove nbr.tlv_version else counts)
      { nbr with limit_cleanup_pending := false }
  else state_update .down counts nbr

/-- `eigrp_nbr_limit_state_update`; the Boolean says that the neighbor took the state. -/
def limit_state_update (state : LimitState) (counts : Counts) (nbr : Adjacency) : (Counts × Adjacency) × Bool :=
  if nbr.limit_state = .locked ∧ state = .suspended then ((counts, nbr), false)
  else if nbr.limit_state = .none then (nbr_down counts { nbr with limit_state := state }, true)
  else ((counts, { nbr with limit_state := state }), true)

/-- `eigrp_nbr_limit_release`. -/
def Adjacency.limit_release (nbr : Adjacency) : Adjacency :=
  if nbr.limit_state = .suspended then { nbr with limit_state := .none } else nbr

/-- `eigrp_nbr_is_eligible`. -/
def Adjacency.is_eligible (af_state : Bool) (nbr : Adjacency) : Bool :=
  nbr.limit_state == .none && !nbr.limit_cleanup_pending && !nbr.af_suspended && !af_state

/-- `eigrp_nbr_limit_mark_down`. -/
def Adjacency.limit_mark_down (af_state warning_only : Bool) (nbr : Adjacency) : Adjacency :=
  if !warning_only ∧ nbr.is_eligible af_state then
    { nbr with limit_cleanup_pending := true, limit_prev_state := nbr.state, state := .down }
  else nbr

/-- What `eigrp_nbr_limit_exceeded` decides about a neighbor without a penalty: there is no interval, the count of
    violations locks it, it is suspended, or the timers of the suspension cannot be armed. -/
inductive Penalty where
  | refused
  | locked
  | suspended
  | unarmed
deriving DecidableEq, Repr

/-- `eigrp_nbr_limit_exceeded`. -/
def limit_exceeded (penalty : Penalty) (counts : Counts) (nbr : Adjacency) : (Counts × Adjacency) × Bool :=
  if nbr.limit_state ≠ .none then ((counts, nbr), false)
  else
    match penalty with
    | .refused => ((counts, nbr), false)
    | .locked => limit_state_update .locked counts nbr
    | .suspended => limit_state_update .suspended counts nbr
    | .unarmed =>
      let suspended := limit_state_update .suspended counts nbr
      if suspended.2 then ((limit_state_update .locked suspended.1.1 suspended.1.2).1, false) else suspended

/-- `eigrp_nbr_limit_cleanup`. -/
def limit_cleanup (penalty : Penalty) (counts : Counts) (nbr : Adjacency) : Counts × Adjacency :=
  if nbr.limit_cleanup_pending then
    let exceeded := limit_exceeded penalty counts nbr
    if exceeded.2 then exceeded.1
    else
      let down :=
        if exceeded.1.2.limit_cleanup_pending then nbr_down exceeded.1.1 exceeded.1.2 else exceeded.1
      (limit_state_update .locked down.1 down.2).1
  else (counts, nbr)

/-- `eigrp_pfxlimits_nbr_update` with `release` false, for one neighbor. -/
def af_suspend (counts : Counts) (nbr : Adjacency) : Counts × Adjacency :=
  if nbr.af_suspended then (counts, nbr)
  else if nbr.limit_state = .none then nbr_down counts { nbr with af_suspended := true }
  else (counts, { nbr with af_suspended := true })

/-! ## Events -/

/-- Runs an operation on the neighbors of an interface in turn; none says that the neighbor has been freed. -/
def each (op : Counts → Adjacency → Counts × Option Adjacency) : Counts → List Adjacency → Counts × List Adjacency
  | counts, [] => (counts, [])
  | counts, nbr :: rest =>
    let updated := op counts nbr
    let others := each op updated.1 rest
    (others.1, updated.2.toList ++ others.2)

def Interface.each (op : Counts → Adjacency → Counts × Option Adjacency) (ei : Interface) : Interface :=
  let updated := Peering.each op ei.counts ei.nbrs
  { ei with counts := updated.1, nbrs := updated.2 }

/-- An operation that keeps its neighbor. -/
def keeping (op : Counts → Adjacency → Counts × Adjacency) (counts : Counts) (nbr : Adjacency) :
    Counts × Option Adjacency := ((op counts nbr).1, some (op counts nbr).2)

/-- An operation on the neighbor alone. -/
def alone (op : Adjacency → Adjacency) (counts : Counts) (nbr : Adjacency) : Counts × Option Adjacency :=
  (counts, some (op nbr))

/-- `eigrp_nbr_delete`. -/
def nbr_delete (counts : Counts) (nbr : Adjacency) : Counts × Option Adjacency := ((nbr_down counts nbr).1, none)

/-- An operation on the one neighbor of that number. -/
def only (id : Nat) (op : Counts → Adjacency → Counts × Option Adjacency) (counts : Counts) (nbr : Adjacency) :
    Counts × Option Adjacency := if nbr.id = id then op counts nbr else (counts, some nbr)

/-- `EIGRP_NEIGHBOR_MAX_PER_INTERFACE` and `EIGRP_NEIGHBOR_MAX_PER_INSTANCE`. -/
def max_per_interface : Nat := 2048
def max_per_instance : Nat := 8192

/-- `eigrp_nbr_admit_locked`, the sum over the interfaces. -/
def room : Nat → List Interface → Bool
  | _, [] => true
  | total, ei :: rest => ei.nbrs.length < max_per_instance - total && room (total + ei.nbrs.length) rest

/-- What the walk over a packet's routes runs into: the prefix limit of its neighbor or that of the address family. -/
inductive Crossing where
  | nbr (warning_only : Bool)
  | af (warning_only : Bool)
deriving DecidableEq, Repr

inductive Event where
  | intf_create (ei : Nat)
  | intf_down (ei : Nat)
  | intf_free (ei : Nat)
  | nbr_create (ei nbr : Nat)
  | nbr_delete (ei nbr : Nat)
  | sw_version (ei nbr : Nat) (eigrp_major : UInt8)
  | state_update (ei nbr : Nat) (state : NbrState)
  | metric_version (version_32bit : Bool)
  | routes (ei nbr : Nat) (crossings : List Crossing) (penalty : Penalty)
  | limit_release (ei nbr : Nat)
  | af_exceeded (warning_only : Bool)
  | af_release
deriving DecidableEq, Repr

namespace Family

def all (af : Family) (op : Interface → Interface) : Family := { af with eiflist := af.eiflist.map op }

def at_intf (af : Family) (id : Nat) (op : Interface → Interface) : Family :=
  af.all fun ei => if ei.id = id then op ei else ei

def at_nbr (af : Family) (ei nbr : Nat) (op : Counts → Adjacency → Counts × Option Adjacency) : Family :=
  af.at_intf ei (Interface.each (only nbr op))

/-- `eigrp_pfxlimits_state_cleanup`. -/
def af_cleanup (af : Family) : Family := af.all (Interface.each (keeping af_suspend))

/-- What the walk of `eigrp_update_receive` or `eigrp_query_receive` does at a crossing; the Boolean is
    `eigrp_pfxlimits_af_cleanup_pending`. -/
def cross (ei nbr : Nat) (walked : Family × Bool) : Crossing → Family × Bool
  | .nbr warning_only =>
    (walked.1.at_nbr ei nbr (alone (Adjacency.limit_mark_down walked.1.af_state warning_only)), walked.2)
  | .af warning_only =>
    if warning_only ∨ walked.1.af_state then walked else ({ walked.1 with af_state := true }, true)

/-- A packet of routes, and the end of `eigrp_packet_process` after its walk. -/
def routes (ei nbr : Nat) (crossings : List Crossing) (penalty : Penalty) (af : Family) : Family :=
  let walked := crossings.foldl (cross ei nbr) (af, false)
  let cleaned := if walked.2 then walked.1.af_cleanup else walked.1
  cleaned.at_nbr ei nbr (keeping (limit_cleanup penalty))

def step (af : Family) : Event → Family
  | .intf_create id =>
    if af.eiflist.any (·.id = id) then af else { af with eiflist := af.eiflist ++ [{ id := id }] }
  | .intf_down id =>
    af.at_intf id fun ei =>
      { (ei.each (keeping (Peering.state_update .down))).each Peering.nbr_delete with counts := encoder_clear }
  | .intf_free id => { af with eiflist := af.eiflist.filter (·.id ≠ id) }
  | .nbr_create id nbr =>
    if room 0 af.eiflist then
      af.at_intf id fun ei =>
        if ei.nbrs.length < max_per_interface ∧ ¬ ei.nbrs.any (·.id = nbr) then
          { ei with nbrs := ei.nbrs ++ [{ id := nbr }] }
        else ei
    else af
  | .nbr_delete ei nbr => af.at_nbr ei nbr Peering.nbr_delete
  | .sw_version ei nbr major => af.at_nbr ei nbr (alone (Adjacency.sw_version_decode af.metric_version major))
  | .state_update ei nbr state => af.at_nbr ei nbr (keeping (Peering.state_update state))
  | .metric_version version_32bit =>
    let version : UInt8 := if version_32bit then 1 else 2
    { af with metric_version := version }.all (Interface.each (keeping (codec_update version)))
  | .routes ei nbr crossings penalty => af.routes ei nbr crossings penalty
  | .limit_release ei nbr => af.at_nbr ei nbr (alone Adjacency.limit_release)
  | .af_exceeded warning_only =>
    if warning_only ∨ af.af_state then af else { af with af_state := true }.af_cleanup
  | .af_release =>
    if af.af_state then
      { af with af_state := false }.all (Interface.each (alone fun nbr => { nbr with af_suspended := false }))
    else af

/-- The address family after the events, from no interface on. -/
def run (events : List Event) : Family := events.foldl step {}

end Family

/-! ## What the counts stand for -/

/-- The codec that the numbers of UP neighbors imply. -/
def implied (tlv1 tlv2 : Nat) : Encoder :=
  if tlv1 ≠ 0 ∧ tlv2 ≠ 0 then .both else if tlv1 ≠ 0 then .tlv1 else if tlv2 ≠ 0 then .tlv2 else .safe

def Interface.up (ei : Interface) (tlv_version : UInt8) : Nat :=
  ei.nbrs.countP fun nbr => nbr.state = .up ∧ nbr.tlv_version = tlv_version

structure Interface.Matches (ei : Interface) : Prop where
  tlv1 : ei.counts.tlv1_peer_count.toNat = ei.up 1
  tlv2 : ei.counts.tlv2_peer_count.toNat = ei.up 2
  encoder : ei.counts.encoder = implied (ei.up 1) (ei.up 2)

def Family.Matches (af : Family) : Prop := ∀ ei ∈ af.eiflist, ei.Matches

/-- The software version leaves the TLV version of an UP neighbor. -/
def Adjacency.version_kept (metric_version eigrp_major : UInt8) (nbr : Adjacency) : Prop :=
  nbr.state = .up → nbr.tlv_version = metric_version_select metric_version eigrp_major

/-- No software version in the event changes the TLV version of an UP neighbor. -/
def Family.version_kept (af : Family) : Event → Prop
  | .sw_version id nbr major =>
    ∀ ei ∈ af.eiflist, ei.id = id → ∀ peer ∈ ei.nbrs, peer.id = nbr → peer.version_kept af.metric_version major
  | _ => True

def one (tlv_version bound : UInt8) : Nat := if bound = tlv_version then 1 else 0

/-- The counts hold a neighbor that is UP, or that was when it has been marked and its teardown is pending. -/
def held (tlv_version : UInt8) (nbr : Adjacency) : Nat :=
  if nbr.state = .up ∨ nbr.limit_cleanup_pending ∧ nbr.limit_prev_state = .up then one tlv_version nbr.tlv_version
  else 0

def total (tlv_version : UInt8) (nbrs : List Adjacency) : Nat := (nbrs.map (held tlv_version)).sum

def Tally (counts : Counts) (tlv1 tlv2 : Nat) : Prop :=
  counts.tlv1_peer_count.toNat = tlv1 ∧ counts.tlv2_peer_count.toNat = tlv2 ∧ counts.encoder = implied tlv1 tlv2

theorem encoder_select_tally (counts : Counts) :
    Tally counts.encoder_select counts.tlv1_peer_count.toNat counts.tlv2_peer_count.toNat := by
  have zero (count : UInt16) : count.toNat = 0 ↔ count = 0 := by
    rw [UInt16.ext_iff]
    rfl
  unfold Counts.encoder_select
  split
  · next both => exact ⟨rfl,rfl,by simp [implied,zero,both]⟩
  · split
    · next both first => exact ⟨rfl,rfl,by simp_all [implied]⟩
    · split
      · next both first second => exact ⟨rfl,rfl,by simp_all [implied]⟩
      · next both first second => exact ⟨rfl,rfl,by simp_all [implied]⟩

section Counting
variable {counts : Counts} {tlv1 tlv2 : Nat}

theorem peer_add_tally (tally : Tally counts tlv1 tlv2) (bound : tlv1 + tlv2 + 1 < 2 ^ 16) (tlv_version : UInt8) :
    Tally (counts.peer_add tlv_version) (tlv1 + one 1 tlv_version) (tlv2 + one 2 tlv_version) := by
  obtain ⟨first,second,encoder⟩ := tally
  unfold Counts.peer_add
  by_cases classic : tlv_version = 1
  · subst classic
    have selected := encoder_select_tally { counts with tlv1_peer_count := counts.tlv1_peer_count + 1 }
    have raised : (counts.tlv1_peer_count + 1).toNat = tlv1 + 1 := by
      rw [UInt16.toNat_add,first]
      exact Nat.mod_eq_of_lt (by simp; omega)
    simp only [raised,second] at selected
    simpa [one] using selected
  · by_cases wide : tlv_version = 2
    · subst wide
      have selected := encoder_select_tally { counts with tlv2_peer_count := counts.tlv2_peer_count + 1 }
      have raised : (counts.tlv2_peer_count + 1).toNat = tlv2 + 1 := by
        rw [UInt16.toNat_add,second]
        exact Nat.mod_eq_of_lt (by simp; omega)
      simp only [raised,first] at selected
      simpa [one] using selected
    · simp only [classic,wide,if_false,one,Nat.add_zero]
      exact ⟨first,second,encoder⟩

theorem lowered {count : UInt16} (n : Nat) (counted : count.toNat = n + 1) :
    count ≠ 0 ∧ (count - 1).toNat = n := by
  have positive : count ≠ 0 := by
    rintro rfl
    simp at counted
  refine ⟨positive,?_⟩
  have at_least : (1 : UInt16) ≤ count := by
    rw [UInt16.le_iff_toNat_le,counted]
    simp
  rw [UInt16.toNat_sub_of_le _ _ at_least,counted]
  simp

theorem peer_remove_tally {tlv_version : UInt8}
    (tally : Tally counts (tlv1 + one 1 tlv_version) (tlv2 + one 2 tlv_version)) :
    Tally (counts.peer_remove tlv_version) tlv1 tlv2 := by
  obtain ⟨first,second,encoder⟩ := tally
  unfold Counts.peer_remove
  by_cases classic : tlv_version = 1
  · subst classic
    obtain ⟨positive,less⟩ := lowered tlv1 (by simpa [one] using first)
    have selected := encoder_select_tally { counts with tlv1_peer_count := counts.tlv1_peer_count - 1 }
    simp only [less,second] at selected
    simpa [one,positive] using selected
  · by_cases wide : tlv_version = 2
    · subst wide
      obtain ⟨positive,less⟩ := lowered tlv2 (by simpa [one] using second)
      have selected := encoder_select_tally { counts with tlv2_peer_count := counts.tlv2_peer_count - 1 }
      simp only [less,first] at selected
      simpa [one,positive] using selected
    · simp only [classic,wide,if_false,one,Nat.add_zero] at first second encoder ⊢
      exact ⟨first,second,encoder⟩

end Counting

/-! ## One neighbor -/

/-- Between two events no teardown is pending. -/
def Settled (nbr : Adjacency) : Prop := nbr.limit_cleanup_pending = false

/-- A neighbor whose teardown is pending is DOWN. -/
def Torn (nbr : Adjacency) : Prop := nbr.limit_cleanup_pending = true → nbr.state = .down

section Neighbor
variable {counts : Counts} {nbr : Adjacency} {tlv1 tlv2 : Nat}

theorem held_up (tlv_version : UInt8) (up : nbr.state = .up) : held tlv_version nbr = one tlv_version nbr.tlv_version := by
  simp [held,up]

theorem held_settled (tlv_version : UInt8) (settled : Settled nbr) (other : nbr.state ≠ .up) :
    held tlv_version nbr = 0 := by
  have pending : nbr.limit_cleanup_pending = false := settled
  simp [held,other,pending]

theorem state_update_tally (state : NbrState) (settled : Settled nbr) (bound : tlv1 + tlv2 + 1 < 2 ^ 16)
    (tally : Tally counts (tlv1 + held 1 nbr) (tlv2 + held 2 nbr)) :
    Tally (state_update state counts nbr).1 (tlv1 + held 1 (state_update state counts nbr).2)
        (tlv2 + held 2 (state_update state counts nbr).2) ∧
      Settled (state_update state counts nbr).2 := by
  unfold state_update
  split
  · exact ⟨tally,settled⟩
  · have next_settled : Settled { nbr with state := state } := settled
    have next_up : ({ nbr with state := NbrState.up } : Adjacency).state = .up := rfl
    refine ⟨?_,next_settled⟩
    dsimp only
    by_cases before : nbr.state = .up
    · rw [held_up 1 before,held_up 2 before] at tally
      by_cases after : state = .up
      · subst after
        rw [held_up 1 next_up,held_up 2 next_up]
        simpa [before] using tally
      · rw [held_settled 1 next_settled after,held_settled 2 next_settled after]
        simpa [before,after] using peer_remove_tally tally
    · rw [held_settled 1 settled before,held_settled 2 settled before] at tally
      by_cases after : state = .up
      · subst after
        rw [held_up 1 next_up,held_up 2 next_up]
        simpa [before] using peer_add_tally tally bound nbr.tlv_version
      · rw [held_settled 1 next_settled after,held_settled 2 next_settled after]
        simpa [before,after] using tally

theorem state_update_down (counts : Counts) (nbr : Adjacency) : (state_update .down counts nbr).2 = { nbr with state := .down } := by
  simp [state_update]

/-- The teardown takes the neighbor out of the counts, whether it was UP until now or has been marked before. -/
theorem nbr_down_tally (torn : Torn nbr) (bound : tlv1 + tlv2 + 1 < 2 ^ 16)
    (tally : Tally counts (tlv1 + held 1 nbr) (tlv2 + held 2 nbr)) :
    Tally (nbr_down counts nbr).1 tlv1 tlv2 ∧
      (nbr_down counts nbr).2 = { nbr with limit_cleanup_pending := false, state := .down } := by
  unfold nbr_down
  split
  · next pending =>
    refine ⟨?_,state_update_down _ _⟩
    have down : nbr.state = .down := torn pending
    by_cases previous : nbr.limit_prev_state = .up
    · have both (tlv_version : UInt8) : held tlv_version nbr = one tlv_version nbr.tlv_version := by
        simp [held,pending,previous]
      rw [both,both] at tally
      simpa [state_update,down,previous] using peer_remove_tally tally
    · have neither (tlv_version : UInt8) : held tlv_version nbr = 0 := by simp [held,down,previous]
      rw [neither,neither] at tally
      simpa [state_update,down,previous] using tally
  · next pending =>
    have settled : Settled nbr := Bool.eq_false_of_not_eq_true pending
    obtain ⟨after,next_settled⟩ := state_update_tally .down settled bound tally
    rw [state_update_down] at after next_settled ⊢
    rw [held_settled 1 next_settled (by simp),held_settled 2 next_settled (by simp)] at after
    refine ⟨after,?_⟩
    rw [settled]

theorem limit_state_update_tally (state : LimitState) (torn : Torn nbr) (bound : tlv1 + tlv2 + 1 < 2 ^ 16)
    (tally : Tally counts (tlv1 + held 1 nbr) (tlv2 + held 2 nbr)) :
    Tally (limit_state_update state counts nbr).1.1 (tlv1 + held 1 (limit_state_update state counts nbr).1.2)
        (tlv2 + held 2 (limit_state_update state counts nbr).1.2) ∧
      Torn (limit_state_update state counts nbr).1.2 ∧
      (Settled nbr ∨ nbr.limit_state = .none → Settled (limit_state_update state counts nbr).1.2) := by
  unfold limit_state_update
  split
  · next locked =>
    refine ⟨tally,torn,?_⟩
    rintro (settled | free)
    · exact settled
    · simp [free] at locked
  · split
    · obtain ⟨after,down⟩ := @nbr_down_tally counts { nbr with limit_state := state } tlv1 tlv2 torn bound tally
      dsimp only
      rw [down]
      refine ⟨?_,fun _ => rfl,fun _ => rfl⟩
      rw [held_settled 1 (by rfl) (by simp),held_settled 2 (by rfl) (by simp)]
      exact after
    · next penalized =>
      refine ⟨tally,torn,?_⟩
      rintro (settled | free)
      · exact settled
      · exact absurd free penalized

theorem limit_exceeded_tally (penalty : Penalty) (torn : Torn nbr) (bound : tlv1 + tlv2 + 1 < 2 ^ 16)
    (tally : Tally counts (tlv1 + held 1 nbr) (tlv2 + held 2 nbr)) :
    Tally (limit_exceeded penalty counts nbr).1.1 (tlv1 + held 1 (limit_exceeded penalty counts nbr).1.2)
        (tlv2 + held 2 (limit_exceeded penalty counts nbr).1.2) ∧
      Torn (limit_exceeded penalty counts nbr).1.2 ∧
      ((limit_exceeded penalty counts nbr).2 = true → Settled (limit_exceeded penalty counts nbr).1.2) := by
  unfold limit_exceeded
  split
  · exact ⟨tally,torn,by simp⟩
  · next free =>
    have free : nbr.limit_state = .none := not_not.1 free
    cases penalty with
    | refused => exact ⟨tally,torn,by simp⟩
    | locked =>
      obtain ⟨after,next_torn,settled⟩ := limit_state_update_tally .locked torn bound tally
      exact ⟨after,next_torn,fun _ => settled (.inr free)⟩
    | suspended =>
      obtain ⟨after,next_torn,settled⟩ := limit_state_update_tally .suspended torn bound tally
      exact ⟨after,next_torn,fun _ => settled (.inr free)⟩
    | unarmed =>
      obtain ⟨after,next_torn,settled⟩ := limit_state_update_tally .suspended torn bound tally
      dsimp only
      split
      · obtain ⟨locked,last_torn,_⟩ := limit_state_update_tally .locked next_torn bound after
        exact ⟨locked,last_torn,by simp⟩
      · exact ⟨after,next_torn,fun _ => settled (.inr free)⟩

theorem limit_cleanup_tally (penalty : Penalty) (torn : Torn nbr) (bound : tlv1 + tlv2 + 1 < 2 ^ 16)
    (tally : Tally counts (tlv1 + held 1 nbr) (tlv2 + held 2 nbr)) :
    Tally (limit_cleanup penalty counts nbr).1 (tlv1 + held 1 (limit_cleanup penalty counts nbr).2)
        (tlv2 + held 2 (limit_cleanup penalty counts nbr).2) ∧
      Settled (limit_cleanup penalty counts nbr).2 := by
  unfold limit_cleanup
  split
  · obtain ⟨after,next_torn,settled⟩ := limit_exceeded_tally penalty torn bound tally
    generalize limit_exceeded penalty counts nbr = exceeded at after next_torn settled ⊢
    dsimp only
    split
    · next taken => exact ⟨after,settled taken⟩
    · split
      · obtain ⟨taken,down⟩ := nbr_down_tally next_torn bound after
        have last_settled : Settled (nbr_down exceeded.1.1 exceeded.1.2).2 := by rw [down]; rfl
        have last_down : (nbr_down exceeded.1.1 exceeded.1.2).2.state ≠ .up := by simp [down]
        have counted : Tally (nbr_down exceeded.1.1 exceeded.1.2).1
            (tlv1 + held 1 (nbr_down exceeded.1.1 exceeded.1.2).2)
            (tlv2 + held 2 (nbr_down exceeded.1.1 exceeded.1.2).2) := by
          rw [held_settled 1 last_settled last_down,held_settled 2 last_settled last_down]
          exact taken
        have last_torn : Torn (nbr_down exceeded.1.1 exceeded.1.2).2 := fun _ => by simp [down]
        obtain ⟨locked,_,closed⟩ := limit_state_update_tally .locked last_torn bound counted
        exact ⟨locked,closed (.inl last_settled)⟩
      · next calm =>
        obtain ⟨locked,_,closed⟩ := limit_state_update_tally .locked next_torn bound after
        exact ⟨locked,closed (.inl (Bool.eq_false_of_not_eq_true calm))⟩
  · next calm => exact ⟨tally,Bool.eq_false_of_not_eq_true calm⟩

theorem af_suspend_tally (torn : Torn nbr) (bound : tlv1 + tlv2 + 1 < 2 ^ 16)
    (tally : Tally counts (tlv1 + held 1 nbr) (tlv2 + held 2 nbr)) :
    Tally (af_suspend counts nbr).1 (tlv1 + held 1 (af_suspend counts nbr).2)
        (tlv2 + held 2 (af_suspend counts nbr).2) ∧
      Torn (af_suspend counts nbr).2 ∧ (af_suspend counts nbr).2.id = nbr.id ∧
      ((af_suspend counts nbr).2.limit_cleanup_pending = true → nbr.limit_cleanup_pending = true) := by
  unfold af_suspend
  split
  · exact ⟨tally,torn,rfl,id⟩
  · split
    · obtain ⟨after,down⟩ := @nbr_down_tally counts { nbr with af_suspended := true } tlv1 tlv2 torn bound tally
      rw [down]
      refine ⟨?_,fun _ => rfl,rfl,fun pending => by simp at pending⟩
      rw [held_settled 1 (by rfl) (by simp),held_settled 2 (by rfl) (by simp)]
      exact after
    · exact ⟨tally,torn,rfl,id⟩

theorem codec_select_held (tlv_version : UInt8) (selected : UInt8)
    (settled : Settled nbr) (kept : nbr.state = .up → nbr.tlv_version = selected) :
    held tlv_version (nbr.codec_select selected) = held tlv_version nbr := by
  have pending : nbr.limit_cleanup_pending = false := settled
  unfold Adjacency.codec_select
  split
  · by_cases up : nbr.state = .up
    · simp [held,up,kept up]
    · simp [held,up,pending]
  · rfl

theorem metric_version_select_known (metric_version peer_version : UInt8) :
    metric_version_select metric_version peer_version = 1 ∨ metric_version_select metric_version peer_version = 2 := by
  unfold metric_version_select
  split
  · exact .inr rfl
  · exact .inl rfl

theorem codec_update_tally (metric_version : UInt8) (settled : Settled nbr) (bound : tlv1 + tlv2 + 1 < 2 ^ 16)
    (tally : Tally counts (tlv1 + held 1 nbr) (tlv2 + held 2 nbr)) :
    Tally (codec_update metric_version counts nbr).1 (tlv1 + held 1 (codec_update metric_version counts nbr).2)
        (tlv2 + held 2 (codec_update metric_version counts nbr).2) ∧
      Settled (codec_update metric_version counts nbr).2 := by
  unfold codec_update
  dsimp only
  generalize chosen : metric_version_select metric_version nbr.tlv_rel_major = selected
  have known : selected = 1 ∨ selected = 2 := chosen ▸ metric_version_select_known _ _
  have select : nbr.codec_select selected = { nbr with tlv_version := selected } := by
    simp [Adjacency.codec_select,known]
  split
  · exact ⟨tally,settled⟩
  · split
    · next up =>
      have rebound_up : ({ nbr with tlv_version := selected } : Adjacency).state = .up := up
      rw [held_up 1 up,held_up 2 up] at tally
      rw [select]
      dsimp only
      rw [held_up 1 rebound_up,held_up 2 rebound_up]
      exact ⟨peer_add_tally (peer_remove_tally tally) bound selected,settled⟩
    · next other =>
      have rebound_settled : Settled { nbr with tlv_version := selected } := settled
      rw [held_settled 1 settled other,held_settled 2 settled other] at tally
      rw [select]
      dsimp only
      rw [held_settled 1 rebound_settled other,held_settled 2 rebound_settled other]
      exact ⟨tally,settled⟩

end Neighbor

/-! ## One interface -/

/-- From a count that is right before `op` on a neighbor for which `Before` holds, the count after it is right and `After`
    holds for the neighbor. -/
def Accounts (Before : Adjacency → Prop) (op : Counts → Adjacency → Counts × Option Adjacency) (After : Adjacency → Prop) :
    Prop :=
  ∀ counts nbr tlv1 tlv2, Before nbr → tlv1 + tlv2 + 1 < 2 ^ 16 → Tally counts (tlv1 + held 1 nbr) (tlv2 + held 2 nbr) →
    Tally (op counts nbr).1 (tlv1 + total 1 (op counts nbr).2.toList) (tlv2 + total 2 (op counts nbr).2.toList) ∧
      ∀ next ∈ (op counts nbr).2, After next

section Interfaces
variable {Before After : Adjacency → Prop} {op : Counts → Adjacency → Counts × Option Adjacency}

theorem keeping_accounts {op : Counts → Adjacency → Counts × Adjacency}
    (right : ∀ counts nbr tlv1 tlv2, Before nbr → tlv1 + tlv2 + 1 < 2 ^ 16 →
      Tally counts (tlv1 + held 1 nbr) (tlv2 + held 2 nbr) →
        Tally (op counts nbr).1 (tlv1 + held 1 (op counts nbr).2) (tlv2 + held 2 (op counts nbr).2) ∧
          After (op counts nbr).2) : Accounts Before (keeping op) After := by
  intro counts nbr tlv1 tlv2 before bound tally
  obtain ⟨counted,after⟩ := right counts nbr tlv1 tlv2 before bound tally
  refine ⟨by simpa [keeping,total] using counted,?_⟩
  intro next same
  cases same
  exact after

theorem alone_accounts {op : Adjacency → Adjacency}
    (right : ∀ nbr, Before nbr → (∀ tlv_version, held tlv_version (op nbr) = held tlv_version nbr) ∧ After (op nbr)) :
    Accounts Before (alone op) After := by
  intro counts nbr tlv1 tlv2 before _ tally
  obtain ⟨same,after⟩ := right nbr before
  refine ⟨by simpa [alone,total,same] using tally,?_⟩
  intro next found
  cases found
  exact after

theorem only_accounts {id : Nat} (right : Accounts (fun nbr => Before nbr ∧ nbr.id = id) op After)
    (others : ∀ nbr, Before nbr → nbr.id ≠ id → After nbr) : Accounts Before (only id op) After := by
  intro counts nbr tlv1 tlv2 before bound tally
  unfold only
  split
  · next found => exact right counts nbr tlv1 tlv2 ⟨before,found⟩ bound tally
  · next other =>
    refine ⟨by simpa [total] using tally,?_⟩
    intro next same
    cases same
    exact others nbr before other

theorem held_sum (nbr : Adjacency) : held 1 nbr + held 2 nbr ≤ 1 := by
  unfold held one
  split
  · split
    · next classic => simp [classic]
    · split <;> simp
  · simp

theorem total_cons (tlv_version : UInt8) (nbr : Adjacency) (rest : List Adjacency) :
    total tlv_version (nbr :: rest) = held tlv_version nbr + total tlv_version rest := by
  simp [total]

theorem total_append (tlv_version : UInt8) (first second : List Adjacency) :
    total tlv_version (first ++ second) = total tlv_version first + total tlv_version second := by
  simp [total]

theorem total_sum (nbrs : List Adjacency) : total 1 nbrs + total 2 nbrs ≤ nbrs.length := by
  induction nbrs with
  | nil => simp [total]
  | cons nbr rest ih =>
    have single := held_sum nbr
    rw [total_cons,total_cons,List.length_cons]
    omega

theorem each_accounts (right : Accounts Before op After) (nbrs : List Adjacency) (before : ∀ nbr ∈ nbrs, Before nbr) :
    ∀ counts tlv1 tlv2, tlv1 + tlv2 + nbrs.length < 2 ^ 16 →
      Tally counts (tlv1 + total 1 nbrs) (tlv2 + total 2 nbrs) →
        Tally (each op counts nbrs).1 (tlv1 + total 1 (each op counts nbrs).2) (tlv2 + total 2 (each op counts nbrs).2) ∧
          ∀ next ∈ (each op counts nbrs).2, After next := by
  induction nbrs with
  | nil =>
    intro counts tlv1 tlv2 _ tally
    exact ⟨tally,fun _ none => absurd none List.not_mem_nil⟩
  | cons nbr rest ih =>
    intro counts tlv1 tlv2 bound tally
    have others := total_sum rest
    rw [List.length_cons] at bound
    rw [total_cons,total_cons,Nat.add_comm (held 1 nbr),Nat.add_comm (held 2 nbr),← Nat.add_assoc,← Nat.add_assoc] at tally
    obtain ⟨counted,after⟩ := right counts nbr _ _ (before nbr List.mem_cons_self) (by omega) tally
    have single := total_sum (op counts nbr).2.toList
    have at_most : (op counts nbr).2.toList.length ≤ 1 := by
      cases (op counts nbr).2 <;> simp
    rw [Nat.add_right_comm tlv1,Nat.add_right_comm tlv2] at counted
    obtain ⟨last,rest_after⟩ :=
      ih (fun peer found => before peer (List.mem_cons_of_mem _ found)) (op counts nbr).1 _ _ (by omega) counted
    refine ⟨?_,?_⟩
    · simpa [each,total_append,Nat.add_assoc] using last
    · intro next found
      rcases List.mem_append.1 found with first | later
      · exact after next (Option.mem_toList.1 first)
      · exact rest_after next later

theorem each_length (op : Counts → Adjacency → Counts × Option Adjacency) (nbrs : List Adjacency) :
    ∀ counts, (each op counts nbrs).2.length ≤ nbrs.length := by
  induction nbrs with
  | nil => exact fun _ => le_rfl
  | cons nbr rest ih =>
    intro counts
    have single : (op counts nbr).2.toList.length ≤ 1 := by
      cases (op counts nbr).2 <;> simp
    have others := ih (op counts nbr).1
    simp only [each,List.length_append,List.length_cons]
    omega

end Interfaces

namespace Interface
variable {Before After : Adjacency → Prop} {op : Counts → Adjacency → Counts × Option Adjacency} {ei : Interface}

structure Accurate (ei : Interface) (Kept : Adjacency → Prop) : Prop where
  tally : Tally ei.counts (total 1 ei.nbrs) (total 2 ei.nbrs)
  nbrs : ∀ nbr ∈ ei.nbrs, Kept nbr
  bound : ei.nbrs.length ≤ max_per_interface

theorem Accurate.weaken (accurate : ei.Accurate Before) (weaker : ∀ nbr, Before nbr → After nbr) : ei.Accurate After :=
  ⟨accurate.tally,fun nbr found => weaker nbr (accurate.nbrs nbr found),accurate.bound⟩

theorem each_accurate (right : Accounts Before op After) (accurate : ei.Accurate Before) : (ei.each op).Accurate After := by
  have fits : 0 + 0 + ei.nbrs.length < 2 ^ 16 := by
    have bound := accurate.bound
    unfold max_per_interface at bound
    omega
  obtain ⟨tally,after⟩ := each_accounts right ei.nbrs accurate.nbrs ei.counts 0 0 fits (by simpa using accurate.tally)
  refine ⟨?_,after,(each_length op ei.nbrs ei.counts).trans accurate.bound⟩
  simpa [Interface.each] using tally

theorem empty_accurate (Kept : Adjacency → Prop) (id : Nat) : Accurate { id := id } Kept :=
  ⟨⟨rfl,rfl,rfl⟩,fun _ none => absurd none List.not_mem_nil,Nat.zero_le _⟩

theorem total_up {nbrs : List Adjacency} (settled : ∀ nbr ∈ nbrs, Settled nbr) (tlv_version : UInt8) :
    total tlv_version nbrs = nbrs.countP fun nbr => nbr.state = .up ∧ nbr.tlv_version = tlv_version := by
  induction nbrs with
  | nil => rfl
  | cons nbr rest ih =>
    have calm : nbr.limit_cleanup_pending = false := settled nbr List.mem_cons_self
    rw [total_cons,ih fun peer found => settled peer (List.mem_cons_of_mem _ found),List.countP_cons,Nat.add_comm]
    congr 1
    by_cases up : nbr.state = .up
    · simp [held,one,up]
    · simp [held,up,calm]

theorem Accurate.matches (accurate : ei.Accurate Settled) : ei.Matches := by
  obtain ⟨tlv1,tlv2,encoder⟩ := accurate.tally
  rw [total_up accurate.nbrs,total_up accurate.nbrs] at encoder
  rw [total_up accurate.nbrs] at tlv1 tlv2
  exact ⟨tlv1,tlv2,encoder⟩

end Interface

/-! ## Steps -/

section Operations
variable (id : Nat)

/-- A teardown is pending for the neighbor of that number at most. -/
def Waiting (nbr : Adjacency) : Prop := Torn nbr ∧ (nbr.limit_cleanup_pending = true → nbr.id = id)

theorem settled_waiting {nbr : Adjacency} (settled : Settled nbr) : Waiting id nbr := by
  have pending : nbr.limit_cleanup_pending = false := settled
  exact ⟨fun marked => by simp [pending] at marked,fun marked => by simp [pending] at marked⟩

theorem state_update_accounts (state : NbrState) : Accounts Settled (keeping (state_update state)) Settled :=
  keeping_accounts fun _ _ _ _ settled bound tally => state_update_tally state settled bound tally

theorem codec_update_accounts (metric_version : UInt8) : Accounts Settled (keeping (codec_update metric_version)) Settled :=
  keeping_accounts fun _ _ _ _ settled bound tally => codec_update_tally metric_version settled bound tally

theorem nbr_delete_accounts : Accounts Settled nbr_delete Settled := by
  intro counts nbr tlv1 tlv2 settled bound tally
  have torn : Torn nbr := (settled_waiting nbr.id settled).1
  exact ⟨(nbr_down_tally torn bound tally).1,fun _ none => by cases none⟩

theorem limit_release_accounts : Accounts Settled (alone Adjacency.limit_release) Settled := by
  refine alone_accounts fun nbr settled => ?_
  unfold Adjacency.limit_release
  split
  · exact ⟨fun _ => rfl,settled⟩
  · exact ⟨fun _ => rfl,settled⟩

theorem af_release_accounts : Accounts Settled (alone fun nbr => { nbr with af_suspended := false }) Settled :=
  alone_accounts fun _ settled => ⟨fun _ => rfl,settled⟩

theorem sw_version_accounts (metric_version eigrp_major : UInt8) :
    Accounts (fun nbr => (Settled nbr ∧ (nbr.id = id → nbr.version_kept metric_version eigrp_major)) ∧ nbr.id = id)
      (alone (Adjacency.sw_version_decode metric_version eigrp_major)) Settled := by
  refine alone_accounts ?_
  rintro nbr ⟨⟨settled,kept⟩,found⟩
  refine ⟨fun tlv_version => ?_,?_⟩
  · exact @codec_select_held { nbr with tlv_rel_major := eigrp_major } tlv_version _ settled (kept found)
  · unfold Adjacency.sw_version_decode Adjacency.codec_select
    split
    · exact settled
    · exact settled

theorem limit_mark_down_accounts (af_state warning_only : Bool) :
    Accounts (Waiting id) (only id (alone (Adjacency.limit_mark_down af_state warning_only))) (Waiting id) := by
  refine only_accounts (alone_accounts ?_) fun _ waiting _ => waiting
  rintro nbr ⟨waiting,found⟩
  unfold Adjacency.limit_mark_down
  split
  · next eligible =>
    have settled : nbr.limit_cleanup_pending = false := by
      have free := eligible.2
      simp [Adjacency.is_eligible] at free
      exact free.1.1.2
    exact ⟨fun tlv_version => by simp [held,settled],fun _ => rfl,fun _ => found⟩
  · exact ⟨fun _ => rfl,waiting⟩

theorem af_suspend_accounts : Accounts (Waiting id) (keeping af_suspend) (Waiting id) := by
  refine keeping_accounts fun counts nbr tlv1 tlv2 waiting bound tally => ?_
  obtain ⟨after,torn,same,pending⟩ := af_suspend_tally waiting.1 bound tally
  exact ⟨after,torn,fun marked => same.trans (waiting.2 (pending marked))⟩

theorem af_suspend_settled : Accounts Settled (keeping af_suspend) Settled := by
  refine keeping_accounts fun counts nbr tlv1 tlv2 settled bound tally => ?_
  obtain ⟨after,_,_,pending⟩ := af_suspend_tally (settled_waiting nbr.id settled).1 bound tally
  refine ⟨after,Bool.eq_false_of_not_eq_true fun marked => ?_⟩
  exact absurd (pending marked) (by rw [settled]; simp)

theorem limit_cleanup_accounts (penalty : Penalty) :
    Accounts (Waiting id) (only id (keeping (limit_cleanup penalty))) Settled := by
  refine only_accounts (keeping_accounts fun _ _ _ _ waiting bound tally => limit_cleanup_tally penalty waiting.1.1 bound tally) ?_
  intro nbr waiting other
  exact Bool.eq_false_of_not_eq_true fun marked => other (waiting.2 marked)

end Operations

namespace Family
variable {af : Family} {Before After : Nat → Adjacency → Prop}

def Accurate (af : Family) (Kept : Nat → Adjacency → Prop) : Prop := ∀ ei ∈ af.eiflist, ei.Accurate (Kept ei.id)

/-- Between two events the counts of every interface are right and no teardown is pending. -/
def Sound (af : Family) : Prop := af.Accurate fun _ => Settled

/-- While the packet of a neighbor is handled its teardown may be pending. -/
def Handling (ei nbr : Nat) (af : Family) : Prop :=
  af.Accurate fun id => if id = ei then Waiting nbr else Settled

theorem all_accurate {op : Interface → Interface} (kept : ∀ ei, (op ei).id = ei.id)
    (right : ∀ ei ∈ af.eiflist, ei.Accurate (Before ei.id) → (op ei).Accurate (After ei.id)) (accurate : af.Accurate Before) :
    (af.all op).Accurate After := by
  intro next found
  obtain ⟨ei,listed,rfl⟩ := List.mem_map.1 found
  rw [kept]
  exact right ei listed (accurate ei listed)

theorem at_intf_accurate {id : Nat} {op : Interface → Interface} (kept : ∀ ei, (op ei).id = ei.id)
    (right : ∀ ei ∈ af.eiflist, ei.id = id → ei.Accurate (Before id) → (op ei).Accurate (After id))
    (others : ∀ other nbr, other ≠ id → Before other nbr → After other nbr) (accurate : af.Accurate Before) :
    (af.at_intf id op).Accurate After := by
  refine all_accurate ?_ ?_ accurate
  · intro ei
    split
    · exact kept ei
    · rfl
  · intro ei listed before
    split
    · next found =>
      subst found
      exact right ei listed rfl before
    · next other => exact before.weaken fun nbr => others ei.id nbr other

theorem at_nbr_accurate {ei nbr : Nat} {op : Counts → Adjacency → Counts × Option Adjacency}
    (right : Accounts (Before ei) (only nbr op) (After ei))
    (others : ∀ other peer, other ≠ ei → Before other peer → After other peer) (accurate : af.Accurate Before) :
    (af.at_nbr ei nbr op).Accurate After :=
  at_intf_accurate (fun _ => rfl) (fun _ _ _ before => Interface.each_accurate right before) others accurate

theorem at_nbr_sound {ei nbr : Nat} {op : Counts → Adjacency → Counts × Option Adjacency}
    (right : Accounts Settled op Settled) (sound : af.Sound) : (af.at_nbr ei nbr op).Sound := by
  refine at_nbr_accurate ?_ (fun _ _ _ settled => settled) sound
  refine only_accounts (fun counts peer tlv1 tlv2 before => right counts peer tlv1 tlv2 before.1) fun _ settled _ => settled

theorem all_sound {op : Counts → Adjacency → Counts × Option Adjacency} (right : Accounts Settled op Settled)
    (sound : af.Sound) : (af.all (Interface.each op)).Sound :=
  all_accurate (fun _ => rfl) (fun _ _ before => Interface.each_accurate right before) sound

theorem cross_handling {ei nbr : Nat} {walked : Family × Bool} (crossing : Crossing) (handling : Handling ei nbr walked.1) :
    Handling ei nbr (cross ei nbr walked crossing).1 := by
  cases crossing with
  | nbr warning_only =>
    refine at_nbr_accurate ?_ ?_ handling
    · simpa using limit_mark_down_accounts nbr walked.1.af_state warning_only
    · intro other peer apart settled
      simpa [apart] using settled
  | af warning_only =>
    simp only [cross]
    split
    · exact handling
    · exact handling

theorem walk_handling {ei nbr : Nat} (crossings : List Crossing) :
    ∀ walked : Family × Bool, Handling ei nbr walked.1 → Handling ei nbr (crossings.foldl (cross ei nbr) walked).1 := by
  induction crossings with
  | nil => exact fun _ handling => handling
  | cons crossing rest ih => exact fun walked handling => ih _ (cross_handling crossing handling)

theorem af_cleanup_handling {ei nbr : Nat} (handling : Handling ei nbr af) : Handling ei nbr af.af_cleanup := by
  refine all_accurate (fun _ => rfl) ?_ handling
  intro intf _ before
  by_cases own : intf.id = ei
  · simp only [own,if_true] at before ⊢
    exact Interface.each_accurate (af_suspend_accounts nbr) before
  · simp only [own,if_false] at before ⊢
    exact Interface.each_accurate af_suspend_settled before

theorem routes_sound (ei nbr : Nat) (crossings : List Crossing) (penalty : Penalty) (sound : af.Sound) :
    (af.routes ei nbr crossings penalty).Sound := by
  have started : Handling ei nbr (af,false).1 := by
    intro intf listed
    refine (sound intf listed).weaken fun peer settled => ?_
    by_cases own : intf.id = ei
    · simpa [own] using settled_waiting nbr settled
    · simpa [own] using settled
  have walked := walk_handling crossings (af,false) started
  unfold routes
  generalize crossings.foldl (cross ei nbr) (af,false) = walk at walked ⊢
  have cleaned : Handling ei nbr (if walk.2 then walk.1.af_cleanup else walk.1) := by
    split
    · exact af_cleanup_handling walked
    · exact walked
  refine at_nbr_accurate ?_ ?_ cleaned
  · simpa using limit_cleanup_accounts nbr penalty
  · intro other peer apart settled
    simpa [apart] using settled

theorem step_sound (sound : af.Sound) (event : Event) (kept : af.version_kept event) : (af.step event).Sound := by
  cases event with
  | intf_create id =>
    simp only [step]
    split
    · exact sound
    · intro ei listed
      rcases List.mem_append.1 listed with old | new
      · exact sound ei old
      · rw [List.mem_singleton.1 new]
        exact Interface.empty_accurate Settled id
  | intf_down id =>
    refine at_intf_accurate (fun _ => rfl) ?_ (fun _ _ _ settled => settled) sound
    intro ei _ _ before
    have emptied (counts : Counts) (nbrs : List Adjacency) : (each Peering.nbr_delete counts nbrs).2 = [] := by
      induction nbrs generalizing counts with
      | nil => rfl
      | cons nbr rest ih => exact ih _
    refine ⟨?_,?_,?_⟩
    · simp only [Interface.each,emptied]
      exact ⟨rfl,rfl,rfl⟩
    · simp [Interface.each,emptied]
    · simp [Interface.each,emptied]
  | intf_free id => exact fun ei listed => sound ei (List.mem_filter.1 listed).1
  | nbr_create id nbr =>
    simp only [step]
    split
    · refine at_intf_accurate ?_ ?_ (fun _ _ _ settled => settled) sound
      · intro ei
        split <;> rfl
      · intro ei _ _ before
        split
        · next free =>
          refine ⟨?_,?_,?_⟩
          · simpa [total_append,total,held] using before.tally
          · intro peer found
            rcases List.mem_append.1 found with old | new
            · exact before.nbrs peer old
            · rw [List.mem_singleton.1 new]
              rfl
          · rw [List.length_append]
            exact free.1
        · exact before
    · exact sound
  | nbr_delete ei nbr => exact at_nbr_sound nbr_delete_accounts sound
  | sw_version id nbr major =>
    have listed : af.Accurate fun other peer =>
        Settled peer ∧ (other = id → peer.id = nbr → peer.version_kept af.metric_version major) := by
      intro ei found
      have before := sound ei found
      refine ⟨before.tally,fun peer there => ⟨before.nbrs peer there,?_⟩,before.bound⟩
      exact fun own same => kept ei found own peer there same
    refine at_nbr_accurate ?_ (fun _ _ _ before => before.1) listed
    refine only_accounts ?_ fun _ before _ => before.1
    intro counts peer tlv1 tlv2 before
    exact sw_version_accounts nbr af.metric_version major counts peer tlv1 tlv2 ⟨⟨before.1.1,before.1.2 rfl⟩,before.2⟩
  | state_update ei nbr state => exact at_nbr_sound (state_update_accounts state) sound
  | metric_version version_32bit =>
    have same (version : UInt8) : { af with metric_version := version }.Sound := sound
    exact all_sound (codec_update_accounts _) (same _)
  | routes ei nbr crossings penalty => exact routes_sound ei nbr crossings penalty sound
  | limit_release ei nbr => exact at_nbr_sound limit_release_accounts sound
  | af_exceeded warning_only =>
    simp only [step]
    split
    · exact sound
    · have same : { af with af_state := true }.Sound := sound
      exact all_sound af_suspend_settled same
  | af_release =>
    simp only [step]
    split
    · have same : { af with af_state := false }.Sound := sound
      exact all_sound af_release_accounts same
    · exact sound

theorem Sound.matches (sound : af.Sound) : af.Matches := fun ei listed => (sound ei listed).matches

/-! ## A software version that changes -/

theorem each_alone (id : Nat) (op : Adjacency → Adjacency) (nbrs : List Adjacency) (counts : Counts) :
    each (only id (alone op)) counts nbrs = (counts,nbrs.map fun nbr => if nbr.id = id then op nbr else nbr) := by
  induction nbrs with
  | nil => rfl
  | cons nbr rest ih =>
    by_cases own : nbr.id = id
    · simp [each,only,alone,own,ih]
    · simp [each,only,own,ih]

theorem countP_lt {α : Type} {before after : α → Bool} {list : List α} (kept : ∀ a ∈ list, before a → after a) {a : α}
    (found : a ∈ list) (gained : after a) (missing : before a = false) : list.countP before < list.countP after := by
  have same : (list.filter before).countP after = list.countP before := by
    rw [List.countP_filter]
    refine List.countP_congr fun b there => ?_
    simpa using fun holds => kept b there holds
  have others : 0 < (list.filter fun b => !before b).countP after :=
    List.countP_pos_iff.2 ⟨a,List.mem_filter.2 ⟨found,by simp [missing]⟩,gained⟩
  have split := List.countP_eq_countP_filter_add list after before
  omega

theorem sw_version_decode_select (metric_version major : UInt8) (nbr : Adjacency) :
    (nbr.sw_version_decode metric_version major).tlv_version = metric_version_select metric_version major ∧
      (nbr.sw_version_decode metric_version major).state = nbr.state := by
  unfold Adjacency.sw_version_decode Adjacency.codec_select
  rw [if_pos (metric_version_select_known metric_version major)]
  exact ⟨rfl,rfl⟩

/-- The change of an UP neighbor's version is not counted. -/
theorem version_changed (accounted : af.Matches) {event : Event} (changed : ¬ af.version_kept event) :
    ¬ (af.step event).Matches := by
  cases event with
  | sw_version id nbr major =>
    simp only [version_kept,not_forall] at changed
    obtain ⟨ei,listed,own,peer,there,same,other⟩ := changed
    simp only [Adjacency.version_kept,Classical.not_imp] at other
    obtain ⟨up,different⟩ := other
    intro after
    have next : ei.each (only nbr (alone (Adjacency.sw_version_decode af.metric_version major))) ∈
        (af.step (.sw_version id nbr major)).eiflist := List.mem_map.2 ⟨ei,listed,by simp [own]⟩
    have counted := after _ next
    generalize chosen : metric_version_select af.metric_version major = selected at different
    have more : ei.up selected <
        (ei.each (only nbr (alone (Adjacency.sw_version_decode af.metric_version major)))).up selected := by
      simp only [Interface.up,Interface.each,each_alone,List.countP_map]
      refine countP_lt ?_ there ?_ ?_
      · intro a _ holds
        obtain ⟨decoded,state⟩ := sw_version_decode_select af.metric_version major a
        simp only [decide_eq_true_eq] at holds
        by_cases target : a.id = nbr
        · simp [target,decoded,state,chosen,holds.1]
        · simp [target,holds]
      · obtain ⟨decoded,state⟩ := sw_version_decode_select af.metric_version major peer
        simp [same,decoded,state,chosen,up]
      · simp [different]
    have before := accounted ei listed
    have unchanged : (ei.each (only nbr (alone (Adjacency.sw_version_decode af.metric_version major)))).counts = ei.counts := by
      simp [Interface.each,each_alone]
    rcases chosen ▸ metric_version_select_known af.metric_version major with classic | wide
    · rw [classic,← counted.tlv1,← before.tlv1,unchanged] at more
      exact lt_irrefl _ more
    · rw [wide,← counted.tlv2,← before.tlv2,unchanged] at more
      exact lt_irrefl _ more
  | _ => exact absurd trivial changed

theorem run_take (events : List Event) (n : Nat) (more : n < events.length) :
    run (events.take (n + 1)) = (run (events.take n)).step events[n] := by
  unfold run
  rw [List.take_succ_eq_append_getElem more,List.foldl_append]
  rfl

/-- The counts and the encoder of every interface are right in every state of a run if and only if no software version of
    a Hello changes the TLV version of an UP neighbor. -/
theorem encoder_matches_iff (events : List Event) :
    (∀ n, (run (events.take n)).Matches) ↔
      ∀ n (more : n < events.length), (run (events.take n)).version_kept events[n] := by
  constructor
  · intro accounted n more
    by_contra changed
    have wrong := version_changed (accounted n) changed
    rw [← run_take events n more] at wrong
    exact wrong (accounted (n + 1))
  · intro kept n
    have sound : (run (events.take n)).Sound := by
      induction n with
      | zero => exact fun ei none => absurd none List.not_mem_nil
      | succ n ih =>
        by_cases more : n < events.length
        · rw [run_take events n more]
          exact step_sound ih _ (kept n more)
        · have all (m : Nat) (past : events.length ≤ m) : events.take m = events := List.take_of_length_le past
          rw [all (n + 1) (by omega)]
          rwa [all n (by omega)] at ih
    exact sound.matches

/-- A peer comes up as a TLV version 1 neighbor and then advertises version 2. -/
theorem upgraded_peer_uncounted :
    ¬ ∀ events : List Event, ∀ n, (run (events.take n)).Matches := by
  intro always
  have accounted := always [.intf_create 1,.nbr_create 1 7,.sw_version 1 7 1,.state_update 1 7 .pending,
    .state_update 1 7 .up,.sw_version 1 7 2] 6
  exact absurd (accounted _ List.mem_cons_self).tlv1 (by decide)

end Family
end Eigrp.Peering
