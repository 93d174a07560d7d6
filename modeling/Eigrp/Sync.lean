import Eigrp.Advertise
import Eigrp.Table
import Eigrp.Lib.Cursor

/-!
# Initial synchronisation

A new neighbor is sent the whole table by a walk that stops wherever it must: at four unacknowledged
packets, after 128 destinations, and when the host has no memory. Cursor, packet at hand and the summaries sent
so far are kept in the neighbor until the next turn. The last packet carries the EOT flag.
-/

namespace Eigrp
open Eigrp.Lib

/-! ## The walk -/

/-- A packet that the walk builds. -/
structure SyncPacket where
  flags : UInt32 := 0
  length : Nat
  tlvs : List Tlv := []
deriving DecidableEq, Repr

/-- The interface of the neighbor: what a packet has in front of its route TLVs, and how long it may become. -/
structure SyncLink where
  intf : Intf
  header : Nat
  packet_limit : Nat

/-- What policy, codec, host and transport answer in one turn; `encoded` is zero for a TLV that the encoder refuses,
    `count` is the depth of the reliable queue, and `allocates` answers one allocation after the other. -/
structure SyncTurn where
  policy : Egress := {}
  summaries : SummaryConfig := {}
  count : Nat := 0
  encoded : Tlv → Nat := fun _ => 1
  allocates : Nat → Bool := fun _ => true

def SyncTurn.egress (turn : SyncTurn) (eigrp : Instance) : Egress := turn.policy.summarized (fun _ => turn.summaries) eigrp

/-- The fields of `eigrp_nbr_t` that keep a walk, with the packets it has queued. -/
structure Sync where
  sync_active : Bool := false
  sync_cursor : Option Nat := none
  sync_packet : Option SyncPacket := none
  sync_route_count : Nat := 0
  sync_summary_seen : List Prefix := []
  sync_summary_capacity : Nat := 0
  queued : List SyncPacket := []
  fault : Bool := false

/-- The variables of a turn. -/
structure SyncWalk where
  packet : SyncPacket
  route_count : Nat
  summary_seen : List Prefix
  summary_capacity : Nat
  queued : List SyncPacket
  count : Nat
  allocated : Nat

def update_sync_reliable_max : Nat := 4
def update_sync_prefix_batch : Nat := 128

/-- `eigrp_packet_route_encode_append`. -/
def route_encode_append (encoded : Tlv → Nat) (packet_limit : Nat) (packet : SyncPacket) (tlv : Tlv) : SyncPacket × Int :=
  if packet_limit = 0 ∨ encoded tlv = 0 then (packet, 0)
  else if packet_limit < packet.length + encoded tlv then (packet, -1)
  else ({ packet with length := packet.length + encoded tlv, tlvs := packet.tlvs ++ [tlv] }, encoded tlv)

section Turns
variable (link : SyncLink) (eigrp : Instance) (turn : SyncTurn)

/-- One TLV joins the packet at hand, or the next one if it does not fit; an error is a failed allocation. -/
def sync_append (walk : SyncWalk) (tlv : Tlv) : Except SyncWalk SyncWalk :=
  let (packet, encoded) := route_encode_append turn.encoded link.packet_limit walk.packet tlv
  if encoded < 0 ∧ walk.route_count ≠ 0 then
    if turn.allocates walk.allocated then
      let (packet, encoded) := route_encode_append turn.encoded link.packet_limit { length := link.header } tlv
      .ok { walk with packet, route_count := if encoded > 0 then 1 else 0, queued := walk.queued ++ [walk.packet]
                      count := walk.count + 1, allocated := walk.allocated + 1 }
    else .error walk
  else .ok { walk with packet, route_count := if encoded > 0 then walk.route_count + 1 else walk.route_count }

/-- Room for one more summary. -/
def summary_grow (walk : SyncWalk) : Except SyncWalk SyncWalk :=
  if walk.summary_seen.length = walk.summary_capacity then
    if turn.allocates walk.allocated then
      .ok { walk with summary_capacity := if walk.summary_capacity ≠ 0 then walk.summary_capacity * 2 else 4
                      allocated := walk.allocated + 1 }
    else .error walk
  else .ok walk

/-- The selected route of a destination itself. -/
def sync_specific (pd : PrefixDescriptor) (route : RouteDescriptor) (walk : SyncWalk) : Except SyncWalk SyncWalk :=
  if (turn.egress eigrp).filtered link.intf.id pd.destination then .ok walk
  else sync_append link turn walk (walk_route_tlv (turn.egress eigrp) link.intf pd.destination route route.total_metric)

/-- One node of the table. -/
def sync_visit (walk : SyncWalk) (id : Nat) : Except SyncWalk SyncWalk :=
  match eigrp.descriptor id with
  | none => .ok walk
  | some pd => match route_read pd with
    | none => .ok walk
    | some route => match (turn.egress eigrp).summary_route_build link.intf.id pd route with
      | none => sync_specific link eigrp turn pd route walk
      | some (dest, summary_route) =>
        let leak_specific := (turn.egress eigrp).summary_specific_leak link.intf.id pd.destination
        if dest ∈ walk.summary_seen then
          if leak_specific then do
            let walk ← summary_grow turn walk
            sync_specific link eigrp turn pd route walk
          else .ok walk
        else do
          let walk ← summary_grow turn walk
          let walk := { walk with summary_seen := walk.summary_seen ++ [dest] }
          if (turn.egress eigrp).filtered link.intf.id dest then .ok walk
          else do
            let walk ← sync_append link turn walk (walk_route_tlv (turn.egress eigrp) link.intf dest summary_route summary_route.metric)
            if leak_specific then sync_specific link eigrp turn pd route walk else .ok walk

/-- Where a turn ends: at the end of the table, or at a node behind which it goes on later. -/
structure SyncPause where
  complete : Bool
  cursor : Option Nat
  walk : SyncWalk

/-- The loop of `eigrp_update_sync_continue` over the nodes ahead. A failed allocation takes the summaries of the node back,
    so that it is visited again. -/
def sync_loop : List Nat → Nat → Option Nat → SyncWalk → SyncPause
  | [], _, cursor, walk => ⟨true,cursor,walk⟩
  | id :: ids, inspected, cursor, walk =>
    match sync_visit link eigrp turn walk id with
    | .error blocked => ⟨false,cursor,{ blocked with summary_seen := walk.summary_seen }⟩
    | .ok next =>
      if update_sync_reliable_max ≤ next.count ∨ update_sync_prefix_batch ≤ inspected + 1 then ⟨false,some id,next⟩
      else sync_loop ids (inspected + 1) (some id) next

/-- The variables at the beginning of a turn. -/
def sync_walk (sync : Sync) : SyncWalk where
  packet := sync.sync_packet.getD { length := link.header }
  route_count := sync.sync_route_count
  summary_seen := sync.sync_summary_seen
  summary_capacity := sync.sync_summary_capacity
  queued := sync.queued
  count := turn.count
  allocated := if sync.sync_packet.isSome then 0 else 1

/-- `eigrp_update_sync_continue`. The node that the cursor names is read again, and may have been freed. -/
def update_sync_continue (sync : Sync) : Sync :=
  if ¬ sync.sync_active ∨ sync.fault ∨ update_sync_reliable_max ≤ turn.count then sync
  else if sync.sync_packet.isNone ∧ ¬ turn.allocates 0 then sync
  else if sync.sync_cursor.any (fun id => id ∉ eigrp.topology_table) then { sync with fault := true }
  else
    let pause := sync_loop link eigrp turn (ahead sync.sync_cursor eigrp.topology_table) 0 sync.sync_cursor (sync_walk link turn sync)
    if pause.complete then { queued := pause.walk.queued ++ [{ pause.walk.packet with flags := eot_flag }] }
    else
      { sync_active := true, sync_cursor := pause.cursor, sync_packet := some pause.walk.packet
        sync_route_count := pause.walk.route_count, sync_summary_seen := pause.walk.summary_seen
        sync_summary_capacity := pause.walk.summary_capacity, queued := pause.walk.queued }

end Turns

/-- The beginning of `eigrp_update_send_EOT`, in front of the first turn; the first packet may fail to be allocated. -/
def update_send_eot (link : SyncLink) (allocates : Bool) : Sync :=
  { sync_active := true, sync_packet := if allocates then some { length := link.header } else none }

/-- The turns of a walk, each with the instance as it finds it. -/
def sync_turns (link : SyncLink) (turns : List (Instance × SyncTurn)) (sync : Sync) : Sync :=
  turns.foldl (fun sync turn => update_sync_continue link turn.1 turn.2 sync) sync

/-- The instances that the turns find when events are handled in between. -/
def sync_schedule : Machine → List (List Event × SyncTurn) → List (Instance × SyncTurn)
  | _, [] => []
  | machine, (events, turn) :: steps =>
    let machine := events.foldl handle machine
    (machine.state, turn) :: sync_schedule machine steps

/-! ## Completeness -/

/-- Every TLV in packets. -/
def packet_tlvs (packets : List SyncPacket) : List Tlv := packets.flatMap SyncPacket.tlvs

/-- The TLV is encoded, and an empty packet has room for it. -/
def SyncTurn.fits (turn : SyncTurn) (link : SyncLink) (tlv : Tlv) : Prop :=
  0 < turn.encoded tlv ∧ link.header + turn.encoded tlv ≤ link.packet_limit

/-- The destination is in the table with a selected route, and the outbound filter permits it. -/
def SyncTurn.presents (turn : SyncTurn) (link : SyncLink) (eigrp : Instance) (id : Nat) (destination : Prefix) : Prop :=
  id ∈ eigrp.topology_table ∧ (turn.egress eigrp).filtered link.intf.id destination = false ∧
    ∃ pd, eigrp.descriptor id = some pd ∧ pd.destination = destination ∧ (route_read pd).isSome

/-- The summary passes the outbound filter, and its TLV fits. -/
def SyncTurn.carries (turn : SyncTurn) (link : SyncLink) (eigrp : Instance) (summary : Prefix) : Prop :=
  (turn.egress eigrp).filtered link.intf.id summary = false ∧ ∀ pd summary_route,
    turn.summaries.summary_route_build link.intf.id eigrp pd = some (summary, summary_route) →
      turn.fits link (walk_route_tlv (turn.egress eigrp) link.intf summary summary_route summary_route.metric)

/-- The route of a destination that no summary stands for fits. -/
def SyncTurn.encodable (turn : SyncTurn) (link : SyncLink) (eigrp : Instance) (id : Nat) : Prop :=
  ∀ pd route, eigrp.descriptor id = some pd → route_read pd = some route → turn.summaries.summary_destination pd.destination = none →
    turn.fits link (walk_route_tlv (turn.egress eigrp) link.intf pd.destination route route.total_metric)

/-- A TLV for the destination or for a summary that covers it. -/
def Serves (turns : List (Instance × SyncTurn)) (tlv : Tlv) (destination : Prefix) : Prop :=
  tlv.dest = destination ∨ ∃ turn ∈ turns,
    turn.2.summaries.afi.prefix_address_match tlv.dest destination.address ∧ tlv.dest.prefix_length ≤ destination.prefix_length

/-! ## Summaries cover -/

theorem prefix_normalize_match (afi : Afi) (address : BitVec 128) {prefix_length : UInt8} (short : prefix_length.toNat ≤ afi.max_bitlen) :
    afi.prefix_address_match (afi.prefix_normalize address.toNat prefix_length) address := by
  have size : address.toNat < 2 ^ 128 := address.isLt
  simp only [Afi.prefix_address_match,Afi.prefix_normalize,short,decide_true,Bool.true_and,BitVec.toNat_ofNat,beq_iff_eq]
  generalize 2 ^ (afi.max_bitlen - prefix_length.toNat) = host at *
  have smaller : address.toNat / host * host < 2 ^ 128 := lt_of_le_of_lt (Nat.div_mul_le_self _ _) size
  rw [Nat.mod_eq_of_lt smaller]
  rcases Nat.eq_zero_or_pos host with rfl | positive
  · simp
  · exact Nat.mul_div_cancel _ positive

theorem summary_match_covers (config : SummaryConfig) (destination : Prefix) {summary : Prefix × Option String}
    (found : config.summary_match destination = some summary) :
    config.afi.prefix_address_match summary.1 destination.address ∧ summary.1.prefix_length < destination.prefix_length := by
  have loop (summaries : List (Prefix × Option String)) (best : Option (Prefix × Option String))
      (covers : ∀ summary ∈ best, config.afi.prefix_address_match summary.1 destination.address ∧
        summary.1.prefix_length < destination.prefix_length) :
      ∀ summary ∈ summaries.foldl (fun best summary =>
        if summary.1.prefix_length < destination.prefix_length ∧ config.afi.prefix_address_match summary.1 destination.address
            ∧ best.all (fun best => best.1.prefix_length < summary.1.prefix_length) then some summary
        else best) best, config.afi.prefix_address_match summary.1 destination.address ∧
          summary.1.prefix_length < destination.prefix_length := by
    induction summaries generalizing best with
    | nil => exact covers
    | cons first summaries ih =>
      refine ih _ ?_
      intro summary member
      dsimp only at member
      split at member
      · rename_i chosen
        cases member
        exact ⟨chosen.2.1,chosen.1⟩
      · exact covers summary member
  exact loop config.summaries none (by simp) summary found

theorem summary_auto_prefix_covers (afi : Afi) {component summary : Prefix} (found : afi.summary_auto_prefix component = some summary) :
    afi.prefix_address_match summary component.address ∧ summary.prefix_length ≤ component.prefix_length := by
  cases afi with
  | ipv6 => cases found
  | ipv4 =>
    obtain ⟨length,classful,built⟩ := Option.bind_eq_some_iff.mp found
    have short : length.toNat ≤ 32 := by
      split at classful
      · cases classful
        decide
      · split at classful
        · cases classful
          decide
        · split at classful
          · cases classful
            decide
          · cases classful
    split at built
    · cases built
    · rename_i within
      cases built
      exact ⟨prefix_normalize_match .ipv4 component.address short,UInt8.not_lt.mp (not_or.mp within).1⟩

/-- A summary that stands for a destination contains it. -/
theorem summary_prefix_covers (config : SummaryConfig) {destination summary : Prefix}
    (found : config.summary_destination destination = some summary) :
    config.afi.prefix_address_match summary destination.address ∧ summary.prefix_length ≤ destination.prefix_length := by
  unfold SummaryConfig.summary_destination at found
  split at found
  · rename_i configured matched
    cases found
    obtain ⟨inside,shorter⟩ := summary_match_covers config destination matched
    exact ⟨inside,UInt8.le_of_lt shorter⟩
  · unfold SummaryConfig.summary_auto_match at found
    split at found
    · cases found
    · split at found
      · rename_i major _ automatic _
        split at found
        · cases found
        · cases found
          exact summary_auto_prefix_covers config.afi automatic
      · cases found

/-! ## One node -/

section Nodes
variable {link : SyncLink} {eigrp : Instance} {turn : SyncTurn} {walk next blocked : SyncWalk} {tlv : Tlv}

/-- What a walk has put into packets so far. -/
def SyncWalk.emitted (walk : SyncWalk) : List Tlv := packet_tlvs (walk.queued ++ [walk.packet])

/-- No packet is marked yet, and one without a route is only a header. -/
structure SyncWalk.Sound (link : SyncLink) (walk : SyncWalk) : Prop where
  flags : walk.packet.flags = 0 ∧ ∀ packet ∈ walk.queued, packet.flags = 0
  length : walk.route_count = 0 → walk.packet.length = link.header

/-- The walk goes on: packets are only added to. -/
structure SyncWalk.Onward (link : SyncLink) (walk next : SyncWalk) : Prop where
  sound : next.Sound link
  emitted : walk.emitted ⊆ next.emitted

theorem SyncWalk.Onward.refl (sound : walk.Sound link) : walk.Onward link walk := ⟨sound,List.Subset.refl _⟩

theorem SyncWalk.Onward.trans (first : walk.Onward link next) (second : next.Onward link blocked) : walk.Onward link blocked :=
  ⟨second.sound,List.Subset.trans first.emitted second.emitted⟩

/-- What becomes of a packet to which a TLV is offered. -/
structure Offered (encoded : Tlv → Nat) (packet_limit : Nat) (packet : SyncPacket) (tlv : Tlv) (result : SyncPacket × Int) : Prop where
  flags : result.1.flags = packet.flags
  tlvs : packet.tlvs ⊆ result.1.tlvs
  same : result.2 ≤ 0 → result.1 = packet
  full : result.2 < 0 → packet_limit < packet.length + encoded tlv
  refused : result.2 = 0 → packet_limit = 0 ∨ encoded tlv = 0
  taken : 0 < result.2 → tlv ∈ result.1.tlvs

theorem route_encode_append_offered (encoded : Tlv → Nat) (packet_limit : Nat) (packet : SyncPacket) (tlv : Tlv) :
    Offered encoded packet_limit packet tlv (route_encode_append encoded packet_limit packet tlv) := by
  unfold route_encode_append
  by_cases refused : packet_limit = 0 ∨ encoded tlv = 0
  · rw [if_pos refused]
    exact ⟨rfl,List.Subset.refl _,fun _ => rfl,by simp,fun _ => refused,by simp⟩
  · rw [if_neg refused]
    by_cases full : packet_limit < packet.length + encoded tlv
    · rw [if_pos full]
      exact ⟨rfl,List.Subset.refl _,fun _ => rfl,fun _ => full,by simp,by simp⟩
    · rw [if_neg full]
      refine ⟨rfl,List.subset_append_left _ _,?_,?_,?_,by simp⟩ <;> intro impossible <;> simp only at impossible <;> omega

/-- A packet that is only a header has room for a TLV that fits. -/
theorem Offered.fits {packet : SyncPacket} {result : SyncPacket × Int} (offered : Offered turn.encoded link.packet_limit packet tlv result)
    (header : result.2 < 0 → packet.length = link.header) (fits : turn.fits link tlv) : tlv ∈ result.1.tlvs := by
  obtain ⟨some_octets,room⟩ := fits
  refine offered.taken ?_
  by_contra none_taken
  rcases lt_or_eq_of_le (not_lt.mp none_taken) with negative | zero
  · have full := offered.full negative
    have length := header negative
    omega
  · have refused := offered.refused zero
    omega

theorem sync_append_error (failed : sync_append link turn walk tlv = .error blocked) : blocked = walk := by
  unfold sync_append at failed
  dsimp only at failed
  split at failed
  · split at failed
    · cases failed
    · cases failed
      rfl
  · cases failed

theorem packet_tlvs_subset {first second : List SyncPacket} {packet other : SyncPacket} (tlvs : packet.tlvs ⊆ other.tlvs)
    (more : packet_tlvs first ⊆ packet_tlvs second) : packet_tlvs (first ++ [packet]) ⊆ packet_tlvs (second ++ [other]) := by
  intro tlv member
  simp only [packet_tlvs,List.flatMap_append,List.flatMap_singleton,List.mem_append] at member ⊢
  rcases member with member | member
  · exact .inl (more member)
  · exact .inr (tlvs member)

theorem mem_packet_tlvs_last {packets : List SyncPacket} {packet : SyncPacket} (member : tlv ∈ packet.tlvs) :
    tlv ∈ packet_tlvs (packets ++ [packet]) := by
  simp [packet_tlvs,member]

/-- A TLV that fits an empty packet is in a packet behind the append. -/
theorem sync_append_ok (sound : walk.Sound link) (done : sync_append link turn walk tlv = .ok next) :
    walk.Onward link next ∧ next.summary_seen = walk.summary_seen ∧ (turn.fits link tlv → tlv ∈ next.emitted) := by
  have offered := route_encode_append_offered turn.encoded link.packet_limit walk.packet tlv
  unfold sync_append at done
  generalize route_encode_append turn.encoded link.packet_limit walk.packet tlv = result at done offered
  obtain ⟨packet,encoded⟩ := result
  dsimp only at done
  split at done
  · split at done
    · have again := route_encode_append_offered turn.encoded link.packet_limit { length := link.header } tlv
      generalize route_encode_append turn.encoded link.packet_limit { length := link.header } tlv = result at done again
      obtain ⟨packet,encoded⟩ := result
      cases done
      have flags : ∀ packet ∈ walk.queued ++ [walk.packet], packet.flags = 0 := by
        intro packet member
        rcases List.mem_append.mp member with member | member
        · exact sound.flags.2 packet member
        · rw [List.mem_singleton.mp member]
          exact sound.flags.1
      refine ⟨⟨⟨⟨again.flags,flags⟩,fun unused => ?_⟩,?_⟩,rfl,fun fits => mem_packet_tlvs_last (again.fits (fun _ => rfl) fits)⟩
      · have none_taken : encoded ≤ 0 := by
          by_contra positive
          simp only [gt_iff_lt,not_le.mp positive,if_true] at unused
          omega
        exact congrArg SyncPacket.length (again.same none_taken)
      · intro other member
        simp only [SyncWalk.emitted,packet_tlvs,List.flatMap_append] at member ⊢
        exact List.mem_append_left _ member
    · cases done
  · rename_i kept
    cases done
    have header : encoded < 0 → walk.packet.length = link.header := by
      intro negative
      exact sound.length (by_contra fun used => kept ⟨negative,used⟩)
    refine ⟨⟨⟨⟨offered.flags.trans sound.flags.1,sound.flags.2⟩,fun unused => ?_⟩,?_⟩,rfl,
      fun fits => mem_packet_tlvs_last (offered.fits header fits)⟩
    · have none_taken : encoded ≤ 0 := by
        by_contra positive
        simp only [gt_iff_lt,not_le.mp positive,if_true] at unused
        omega
      simp only [gt_iff_lt,not_lt.mpr none_taken,if_false] at unused
      exact (congrArg SyncPacket.length (offered.same none_taken)).trans (sound.length unused)
    · exact packet_tlvs_subset offered.tlvs (List.Subset.refl _)

theorem summary_grow_error (failed : summary_grow turn walk = .error blocked) : blocked = walk := by
  unfold summary_grow at failed
  split at failed
  · split at failed
    · cases failed
    · cases failed
      rfl
  · cases failed

theorem summary_grow_ok (sound : walk.Sound link) (done : summary_grow turn walk = .ok next) :
    walk.Onward link next ∧ next.summary_seen = walk.summary_seen := by
  unfold summary_grow at done
  split at done
  · split at done
    · cases done
      exact ⟨⟨⟨sound.flags,sound.length⟩,List.Subset.refl _⟩,rfl⟩
    · cases done
  · cases done
    exact ⟨.refl sound,rfl⟩

theorem sync_specific_error {pd : PrefixDescriptor} {route : RouteDescriptor}
    (failed : sync_specific link eigrp turn pd route walk = .error blocked) : blocked = walk := by
  unfold sync_specific at failed
  split at failed
  · cases failed
  · exact sync_append_error failed

theorem sync_specific_ok {pd : PrefixDescriptor} {route : RouteDescriptor} (sound : walk.Sound link)
    (done : sync_specific link eigrp turn pd route walk = .ok next) :
    walk.Onward link next ∧ next.summary_seen = walk.summary_seen ∧
      ((turn.egress eigrp).filtered link.intf.id pd.destination = false →
        turn.fits link (walk_route_tlv (turn.egress eigrp) link.intf pd.destination route route.total_metric) →
          ∃ tlv ∈ next.emitted, tlv.dest = pd.destination) := by
  unfold sync_specific at done
  split at done
  · rename_i filtered
    cases done
    exact ⟨.refl sound,rfl,fun permitted => absurd filtered (by simp [permitted])⟩
  · obtain ⟨onward,seen,taken⟩ := sync_append_ok sound done
    exact ⟨onward,seen,fun _ fits => ⟨_,taken fits,rfl⟩⟩

/-- A computation that goes on behind another one. -/
theorem except_bind {σ : Type} {first : Except σ σ} {second : σ → Except σ σ} {result : Except σ σ} (same : (first >>= second) = result) :
    (∃ failed, first = .error failed ∧ result = .error failed) ∨ ∃ middle, first = .ok middle ∧ second middle = result := by
  cases first with
  | error failed => exact .inl ⟨failed,rfl,same.symm⟩
  | ok middle => exact .inr ⟨middle,rfl,same⟩

/-- Summaries that count as sent are in a packet, as far as they can be carried. -/
def SyncWalk.Seen (good : Prefix → Prop) (walk : SyncWalk) : Prop :=
  ∀ summary ∈ walk.summary_seen, good summary → ∃ tlv ∈ walk.emitted, tlv.dest = summary

theorem SyncWalk.Seen.onward {good : Prefix → Prop} (seen : walk.Seen good) (onward : walk.Onward link next)
    (same : next.summary_seen = walk.summary_seen) : next.Seen good := by
  intro summary member carried
  rw [same] at member
  obtain ⟨tlv,emitted,dest⟩ := seen summary member carried
  exact ⟨tlv,onward.emitted emitted,dest⟩

/-- What visiting a node leaves, with the destination of the node in a packet or behind a summary in one. -/
structure Visited (link : SyncLink) (eigrp : Instance) (turn : SyncTurn) (good : Prefix → Prop) (walk next : SyncWalk) (id : Nat) : Prop where
  onward : walk.Onward link next
  seen : next.Seen good
  sent : ∀ pd, eigrp.descriptor id = some pd → (route_read pd).isSome →
    (turn.egress eigrp).filtered link.intf.id pd.destination = false → turn.encodable link eigrp id →
    (∀ summary, turn.summaries.summary_destination pd.destination = some summary → good summary) →
    ∃ tlv ∈ next.emitted, tlv.dest = pd.destination ∨ turn.summaries.summary_destination pd.destination = some tlv.dest

theorem egress_summary {pd : PrefixDescriptor} {route : RouteDescriptor} {dest : Prefix} {summary_route : RouteDescriptor}
    (built : (turn.egress eigrp).summary_route_build link.intf.id pd route = some (dest, summary_route)) :
    turn.summaries.summary_destination pd.destination = some dest ∧
      turn.summaries.summary_route_build link.intf.id eigrp pd = some (dest, summary_route) := by
  have built : turn.summaries.summary_route_build link.intf.id eigrp pd = some (dest, summary_route) := built
  obtain ⟨summary,stands,same⟩ := Option.map_eq_some_iff.mp built
  cases same
  exact ⟨stands,built⟩

theorem egress_no_summary {pd : PrefixDescriptor} {route : RouteDescriptor}
    (alone : (turn.egress eigrp).summary_route_build link.intf.id pd route = none) :
    turn.summaries.summary_destination pd.destination = none := Option.map_eq_none_iff.mp alone

section Visits
variable {good : Prefix → Prop} {id : Nat} {pd : PrefixDescriptor} {route : RouteDescriptor} {dest : Prefix}

/-- A destination behind a summary is sent with it. -/
theorem visited_summary (onward : walk.Onward link next) (seen : next.Seen good) (found : eigrp.descriptor id = some pd)
    (stands : turn.summaries.summary_destination pd.destination = some dest) (listed : dest ∈ next.summary_seen) :
    Visited link eigrp turn good walk next id := by
  refine ⟨onward,seen,?_⟩
  intro other stored _ _ _ carried
  obtain rfl : pd = other := Option.some.inj (found.symm.trans stored)
  obtain ⟨tlv,emitted,same⟩ := seen dest listed (carried dest stands)
  exact ⟨tlv,emitted,.inr (same ▸ stands)⟩

/-- The first component of a summary sends it. -/
theorem sync_summary_ok {summary_route : RouteDescriptor} (sound : walk.Sound link) (seen : walk.Seen good)
    (carried : ∀ summary, good summary → turn.carries link eigrp summary)
    (built : turn.summaries.summary_route_build link.intf.id eigrp pd = some (dest, summary_route))
    (done : sync_append link turn { walk with summary_seen := walk.summary_seen ++ [dest] }
      (walk_route_tlv (turn.egress eigrp) link.intf dest summary_route summary_route.metric) = .ok next) :
    walk.Onward link next ∧ next.Seen good ∧ dest ∈ next.summary_seen := by
  have marked : SyncWalk.Sound link { walk with summary_seen := walk.summary_seen ++ [dest] } := ⟨sound.flags,sound.length⟩
  obtain ⟨onward,same,taken⟩ := sync_append_ok marked done
  refine ⟨⟨onward.sound,onward.emitted⟩,?_,by simp [same]⟩
  intro summary member carries
  rw [same] at member
  rcases List.mem_append.mp member with member | member
  · obtain ⟨tlv,emitted,equal⟩ := seen summary member carries
    exact ⟨tlv,onward.emitted emitted,equal⟩
  · rw [List.mem_singleton.mp member] at carries ⊢
    exact ⟨_,taken ((carried dest carries).2 pd summary_route built),rfl⟩

theorem sync_visit_ok (sound : walk.Sound link) (seen : walk.Seen good)
    (carried : ∀ summary, good summary → turn.carries link eigrp summary) (done : sync_visit link eigrp turn walk id = .ok next) :
    Visited link eigrp turn good walk next id := by
  unfold sync_visit at done
  cases found : eigrp.descriptor id with
  | none =>
    simp only [found] at done
    cases done
    exact ⟨.refl sound,seen,fun pd stored => by simp [found] at stored⟩
  | some pd =>
    simp only [found] at done
    cases selected : route_read pd with
    | none =>
      simp only [selected] at done
      cases done
      refine ⟨.refl sound,seen,fun other stored present => ?_⟩
      obtain rfl : pd = other := Option.some.inj (found.symm.trans stored)
      simp [selected] at present
    | some route =>
      simp only [selected] at done
      cases built : (turn.egress eigrp).summary_route_build link.intf.id pd route with
      | none =>
        simp only [built] at done
        obtain ⟨onward,same,sent⟩ := sync_specific_ok sound done
        refine ⟨onward,seen.onward onward same,?_⟩
        intro other stored _ permitted fits _
        obtain rfl : pd = other := Option.some.inj (found.symm.trans stored)
        obtain ⟨tlv,emitted,equal⟩ := sent permitted (fits pd route found selected (egress_no_summary built))
        exact ⟨tlv,emitted,.inl equal⟩
      | some summary =>
        obtain ⟨dest,summary_route⟩ := summary
        obtain ⟨stands,computed⟩ := egress_summary built
        simp only [built] at done
        split at done
        · rename_i listed
          split at done
          · rcases except_bind done with ⟨_,_,impossible⟩ | ⟨grown,room,rest⟩
            · cases impossible
            · obtain ⟨first,kept⟩ := summary_grow_ok sound room
              obtain ⟨second,same,_⟩ := sync_specific_ok first.sound rest
              have onward := first.trans second
              exact visited_summary onward (seen.onward onward (same.trans kept)) found stands (by rw [same,kept]; exact listed)
          · cases done
            exact visited_summary (.refl sound) seen found stands listed
        · rcases except_bind done with ⟨_,_,impossible⟩ | ⟨grown,room,rest⟩
          · cases impossible
          · obtain ⟨first,kept⟩ := summary_grow_ok sound room
            have still : grown.Seen good := seen.onward first kept
            split at rest
            · rename_i filtered
              cases rest
              have bad : ¬ good dest := fun carries => absurd filtered (by simp [(carried dest carries).1])
              refine ⟨⟨⟨first.sound.flags,first.sound.length⟩,first.emitted⟩,?_,?_⟩
              · intro summary member carries
                rcases List.mem_append.mp member with member | member
                · exact still summary member carries
                · exact absurd (List.mem_singleton.mp member ▸ carries) bad
              · intro other stored _ _ _ all_carried
                obtain rfl : pd = other := Option.some.inj (found.symm.trans stored)
                exact absurd (all_carried dest stands) bad
            · rcases except_bind rest with ⟨_,_,impossible⟩ | ⟨sent,appended,last⟩
              · cases impossible
              · obtain ⟨second,sent_seen,listed⟩ := sync_summary_ok first.sound still carried computed appended
                have onward := first.trans second
                split at last
                · obtain ⟨third,same,_⟩ := sync_specific_ok second.sound last
                  exact visited_summary (onward.trans third) (sent_seen.onward third same) found stands (by rw [same]; exact listed)
                · cases last
                  exact visited_summary onward sent_seen found stands listed

/-- A failed allocation loses no packet. -/
theorem sync_visit_error (sound : walk.Sound link) (failed : sync_visit link eigrp turn walk id = .error blocked) :
    walk.Onward link blocked := by
  unfold sync_visit at failed
  split at failed
  · cases failed
  · split at failed
    · cases failed
    · split at failed
      · obtain rfl := sync_specific_error failed
        exact .refl sound
      · dsimp only at failed
        split at failed
        · split at failed
          · rcases except_bind failed with ⟨early,stopped,same⟩ | ⟨grown,room,rest⟩
            · cases same
              obtain rfl := summary_grow_error stopped
              exact .refl sound
            · exact sync_specific_error rest ▸ (summary_grow_ok sound room).1
          · cases failed
        · rcases except_bind failed with ⟨early,stopped,same⟩ | ⟨grown,room,rest⟩
          · cases same
            obtain rfl := summary_grow_error stopped
            exact .refl sound
          · obtain ⟨first,_⟩ := summary_grow_ok sound room
            have marked (dest : Prefix) : walk.Onward link { grown with summary_seen := grown.summary_seen ++ [dest] } :=
              ⟨⟨first.sound.flags,first.sound.length⟩,first.emitted⟩
            split at rest
            · cases rest
            · rcases except_bind rest with ⟨early,stopped,same⟩ | ⟨sent,appended,last⟩
              · cases same
                exact sync_append_error stopped ▸ marked _
              · have second := (sync_append_ok (marked _).sound appended).1
                split at last
                · exact sync_specific_error last ▸ (marked _).trans second
                · cases last

end Visits

end Nodes

/-! ## One turn -/

section Turn
variable {link : SyncLink} {eigrp : Instance} {turn : SyncTurn} {good : Prefix → Prop} {tracked : Nat → Prefix → Prop}

/-- The destination can be sent in this turn, by itself or behind a summary. -/
structure Sendable (link : SyncLink) (eigrp : Instance) (turn : SyncTurn) (good : Prefix → Prop) (id : Nat) (destination : Prefix) : Prop where
  presents : turn.presents link eigrp id destination
  encodable : turn.encodable link eigrp id
  carried : ∀ summary, turn.summaries.summary_destination destination = some summary → good summary

theorem Visited.serves {turns : List (Instance × SyncTurn)} {walk next : SyncWalk} {id : Nat} {destination : Prefix}
    (visited : Visited link eigrp turn good walk next id) (member : (eigrp, turn) ∈ turns)
    (sendable : Sendable link eigrp turn good id destination) : ∃ tlv ∈ next.emitted, Serves turns tlv destination := by
  obtain ⟨⟨_,permitted,pd,found,rfl,present⟩,encodable,carried⟩ := sendable
  obtain ⟨tlv,emitted,same | stands⟩ := visited.sent pd found present permitted encodable carried
  · exact ⟨tlv,emitted,.inl same⟩
  · exact ⟨tlv,emitted,.inr ⟨(eigrp, turn),member,summary_prefix_covers turn.summaries stands⟩⟩

/-- Where a turn leaves the nodes that were ahead of it. -/
structure Paused (link : SyncLink) (eigrp : Instance) (turn : SyncTurn) (turns : List (Instance × SyncTurn)) (good : Prefix → Prop) (ids : List Nat)
    (walk : SyncWalk) (pause : SyncPause) : Prop where
  onward : walk.Onward link pause.walk
  seen : pause.walk.Seen good
  cursor : pause.complete = false → ∀ id ∈ pause.cursor, id ∈ eigrp.topology_table
  served : ∀ id ∈ ids, ∀ destination, Sendable link eigrp turn good id destination →
    (∃ tlv ∈ pause.walk.emitted, Serves turns tlv destination) ∨ (pause.complete = false ∧ id ∈ ahead pause.cursor eigrp.topology_table)

theorem sync_loop_paused {turns : List (Instance × SyncTurn)} (member : (eigrp, turn) ∈ turns) (nodup : eigrp.topology_table.Nodup)
    (carried : ∀ summary, good summary → turn.carries link eigrp summary) {ids : List Nat} {inspected : Nat} {cursor : Option Nat}
    {walk : SyncWalk} (sound : walk.Sound link) (seen : walk.Seen good) (known : ∀ id ∈ cursor, id ∈ eigrp.topology_table)
    (rest : ahead cursor eigrp.topology_table = ids) :
    Paused link eigrp turn turns good ids walk (sync_loop link eigrp turn ids inspected cursor walk) := by
  induction ids generalizing inspected cursor walk with
  | nil => exact ⟨.refl sound,seen,by simp [sync_loop],by simp⟩
  | cons id ids ih =>
    unfold sync_loop
    split
    · rename_i blocked failed
      have onward := sync_visit_error sound failed
      refine ⟨⟨⟨onward.sound.flags,onward.sound.length⟩,onward.emitted⟩,?_,fun _ => known,?_⟩
      · intro summary listed carries
        obtain ⟨tlv,emitted,dest⟩ := seen summary listed carries
        exact ⟨tlv,onward.emitted emitted,dest⟩
      · intro other waits _ _
        exact .inr ⟨rfl,rest ▸ waits⟩
    · rename_i next done
      have visited := sync_visit_ok sound seen carried done
      have linked : ∀ other ∈ some id, other ∈ eigrp.topology_table := by
        rintro _ ⟨⟩
        exact ahead_subset cursor _ (by simp [rest])
      have advanced := ahead_advance nodup rest
      split
      · refine ⟨visited.onward,visited.seen,fun _ => linked,?_⟩
        intro other waits destination sendable
        rcases List.mem_cons.mp waits with rfl | waits
        · exact .inl (visited.serves member sendable)
        · exact .inr ⟨rfl,advanced ▸ waits⟩
      · have later := @ih (inspected + 1) _ _ visited.onward.sound visited.seen linked advanced
        refine ⟨visited.onward.trans later.onward,later.seen,later.cursor,?_⟩
        intro other waits destination sendable
        rcases List.mem_cons.mp waits with rfl | waits
        · obtain ⟨tlv,emitted,serves⟩ := visited.serves member sendable
          exact .inl ⟨tlv,later.onward.emitted emitted,serves⟩
        · exact later.served other waits destination sendable

/-- The packets of a walk, with the one at hand. -/
def Sync.packets (sync : Sync) : List SyncPacket := sync.queued ++ sync.sync_packet.toList

/-- A walk that has not ended: nothing is marked, and every destination is sent or ahead. -/
structure Sync.Underway (link : SyncLink) (turns : List (Instance × SyncTurn)) (good : Prefix → Prop) (tracked : Nat → Prefix → Prop)
    (table : List Nat) (sync : Sync) : Prop where
  active : sync.sync_active = true
  fault : sync.fault = false
  flags : ∀ packet ∈ sync.packets, packet.flags = 0
  length : sync.sync_route_count = 0 → ∀ packet ∈ sync.sync_packet, packet.length = link.header
  unallocated : sync.sync_packet = none → sync.sync_route_count = 0
  seen : ∀ summary ∈ sync.sync_summary_seen, good summary → ∃ tlv ∈ packet_tlvs sync.packets, tlv.dest = summary
  cursor : ∀ id ∈ sync.sync_cursor, id ∈ table
  waits : ∀ id destination, tracked id destination →
    (∃ tlv ∈ packet_tlvs sync.packets, Serves turns tlv destination) ∨ id ∈ ahead sync.sync_cursor table

/-- A walk that has ended: its last packet is marked, and every destination is sent. -/
structure Sync.Ended (turns : List (Instance × SyncTurn)) (tracked : Nat → Prefix → Prop) (sync : Sync) : Prop where
  inactive : sync.sync_active = false
  fault : sync.fault = false
  marked : ∃ earlier last, sync.queued = earlier ++ [last] ∧ last.flags = eot_flag ∧ ∀ packet ∈ earlier, packet.flags = 0
  sent : ∀ id destination, tracked id destination → ∃ tlv ∈ packet_tlvs sync.queued, Serves turns tlv destination

theorem Sync.Underway.edited {turns : List (Instance × SyncTurn)} {before after : List Nat} {sync : Sync}
    (underway : sync.Underway link turns good tracked before) (edited : Edited before after) (nodup : before.Nodup)
    (anchored : ∀ id ∈ sync.sync_cursor, id ∈ after) (present : ∀ id destination, tracked id destination → id ∈ after) :
    sync.Underway link turns good tracked after := by
  refine { underway with cursor := anchored, waits := fun id destination wanted => ?_ }
  rcases underway.waits id destination wanted with sent | waits
  · exact .inl sent
  · exact .inr (edited.ahead nodup (fun item remembered => ⟨underway.cursor item remembered,anchored item remembered⟩) waits
      (present id destination wanted))

/-- The variables of a turn hold what the neighbor keeps. -/
theorem Sync.Underway.walk {turns : List (Instance × SyncTurn)} {table : List Nat} {sync : Sync}
    (underway : sync.Underway link turns good tracked table) :
    (sync_walk link turn sync).Sound link ∧ (sync_walk link turn sync).emitted = packet_tlvs sync.packets := by
  have queued : ∀ packet ∈ sync.queued, packet.flags = 0 := by
    intro packet member
    exact underway.flags packet (List.mem_append_left _ member)
  cases held : sync.sync_packet with
  | none =>
    refine ⟨⟨⟨by simp [sync_walk,held],queued⟩,by simp [sync_walk,held]⟩,?_⟩
    simp [SyncWalk.emitted,Sync.packets,held,packet_tlvs,sync_walk]
  | some packet =>
    have same : (sync_walk link turn sync).packet = packet := by simp [sync_walk,held]
    refine ⟨⟨⟨?_,queued⟩,fun unused => ?_⟩,?_⟩
    · rw [same]
      exact underway.flags packet (by simp [Sync.packets,held])
    · rw [same]
      exact underway.length unused packet held
    · simp [SyncWalk.emitted,Sync.packets,held,sync_walk]

theorem packet_tlvs_marked (packets : List SyncPacket) (packet : SyncPacket) (flags : UInt32) :
    packet_tlvs (packets ++ [{ packet with flags }]) = packet_tlvs (packets ++ [packet]) := by simp [packet_tlvs]

/-- A turn goes on with the walk or ends it. -/
theorem Sync.Underway.continued {turns : List (Instance × SyncTurn)} {sync : Sync}
    (underway : sync.Underway link turns good tracked eigrp.topology_table) (member : (eigrp, turn) ∈ turns)
    (nodup : eigrp.topology_table.Nodup) (carried : ∀ summary, good summary → turn.carries link eigrp summary)
    (sendable : ∀ id destination, tracked id destination → Sendable link eigrp turn good id destination) :
    (update_sync_continue link eigrp turn sync).Underway link turns good tracked eigrp.topology_table ∨
      (update_sync_continue link eigrp turn sync).Ended turns tracked := by
  have anchored : ¬ sync.sync_cursor.any (fun id => id ∉ eigrp.topology_table) := by
    cases cursor : sync.sync_cursor with
    | none => simp
    | some id => simpa using underway.cursor id cursor
  obtain ⟨sound,emitted⟩ := @Sync.Underway.walk link turn good tracked turns _ sync underway
  have seen : (sync_walk link turn sync).Seen good := by
    rw [SyncWalk.Seen,emitted]
    exact underway.seen
  have paused := @sync_loop_paused _ _ _ _ turns member nodup carried _ 0 _ _ sound seen underway.cursor rfl
  unfold update_sync_continue
  by_cases stalled : ¬ sync.sync_active ∨ sync.fault ∨ update_sync_reliable_max ≤ turn.count
  · rw [if_pos stalled]
    exact .inl underway
  · rw [if_neg stalled]
    by_cases unallocated : sync.sync_packet.isNone ∧ ¬ turn.allocates 0
    · rw [if_pos unallocated]
      exact .inl underway
    · rw [if_neg unallocated,if_neg anchored]
      generalize sync_loop link eigrp turn (ahead sync.sync_cursor eigrp.topology_table) 0 sync.sync_cursor (sync_walk link turn sync) = pause at *
      obtain ⟨⟨flags,length⟩,_⟩ := paused.onward
      have served (id : Nat) (destination : Prefix) (wanted : tracked id destination) :
          (∃ tlv ∈ pause.walk.emitted, Serves turns tlv destination) ∨
            (pause.complete = false ∧ id ∈ ahead pause.cursor eigrp.topology_table) := by
        rcases underway.waits id destination wanted with ⟨tlv,sent,serves⟩ | waits
        · exact .inl ⟨tlv,paused.onward.emitted (emitted ▸ sent),serves⟩
        · exact paused.served id waits destination (sendable id destination wanted)
      dsimp only
      split
      · rename_i complete
        refine .inr ⟨rfl,rfl,⟨_,_,rfl,rfl,flags.2⟩,fun id destination wanted => ?_⟩
        rcases served id destination wanted with ⟨tlv,sent,serves⟩ | ⟨unfinished,_⟩
        · exact ⟨tlv,by rw [packet_tlvs_marked]; exact sent,serves⟩
        · simp [complete] at unfinished
      · rename_i unfinished
        refine .inl ⟨rfl,rfl,?_,?_,by simp,paused.seen,paused.cursor (by simpa using unfinished),?_⟩
        · intro packet member
          rcases List.mem_append.mp member with member | member
          · exact flags.2 packet member
          · rw [List.mem_singleton.mp member]
            exact flags.1
        · rintro unused packet ⟨⟩
          exact length unused
        · intro id destination wanted
          exact (served id destination wanted).imp_right And.right

end Turn

/-! ## The table between turns -/

/-- The table lists a node once, under a number that was handed out. -/
structure Numbered (eigrp : Instance) : Prop where
  nodup : eigrp.topology_table.Nodup
  below : ∀ id ∈ eigrp.topology_table, id < eigrp.next_id

/-- Nodes are taken out of the table or put at its end, under new numbers. -/
structure TableEdited (before after : Instance) : Prop where
  next_id : before.next_id ≤ after.next_id
  table : ∃ fresh, after.topology_table.Sublist (before.topology_table ++ fresh) ∧ fresh.Nodup ∧
    ∀ id ∈ fresh, before.next_id ≤ id ∧ id < after.next_id

theorem TableEdited.refl (eigrp : Instance) : TableEdited eigrp eigrp := ⟨le_rfl,[],by simp,by simp,by simp⟩

theorem TableEdited.trans {before middle after : Instance} (first : TableEdited before middle) (second : TableEdited middle after) :
    TableEdited before after := by
  obtain ⟨earlier,old,kept,distinct,known⟩ := first
  obtain ⟨later,new,more,different,numbered⟩ := second
  refine ⟨earlier.trans later,old ++ new,?_,?_,?_⟩
  · rw [← List.append_assoc]
    exact more.trans (kept.append (List.Sublist.refl new))
  · refine List.nodup_append.mpr ⟨distinct,different,fun id member other again same => ?_⟩
    have := known id member
    have := numbered other again
    omega
  · intro id member
    rcases List.mem_append.mp member with member | member
    · have := known id member
      omega
    · have := numbered id member
      omega

theorem TableEdited.numbered {before after : Instance} (edited : TableEdited before after) (numbered : Numbered before) : Numbered after := by
  obtain ⟨later,fresh,kept,distinct,known⟩ := edited
  constructor
  · refine kept.nodup (List.nodup_append.mpr ⟨numbered.nodup,distinct,fun id member other again same => ?_⟩)
    have := numbered.below id member
    have := known other again
    omega
  · intro id member
    rcases List.mem_append.mp (kept.subset member) with member | member
    · have := numbered.below id member
      omega
    · exact (known id member).2

theorem TableEdited.edited {before after : Instance} (edited : TableEdited before after) (numbered : Numbered before) :
    Edited before.topology_table after.topology_table := by
  obtain ⟨_,fresh,sublist,_,known⟩ := edited
  obtain ⟨kept,new,same,left,right⟩ := List.sublist_append_iff.mp sublist
  refine ⟨kept,new,same,left,fun id member old => ?_⟩
  have := numbered.below id old
  have := known id (right.subset member)
  omega

theorem effects_table_sublist (pd : PrefixDescriptor) (out : List Effect) (eigrp : Instance) :
    (eigrp.effects pd out).topology_table.Sublist eigrp.topology_table := by
  have single (effect : Effect) (eigrp : Instance) : (eigrp.effect pd effect).topology_table.Sublist eigrp.topology_table := by
    cases effect with
    | topology_change_once =>
      simp only [Instance.effect]
      split <;> exact .refl _
    | rib_route_add route =>
      simp only [Instance.effect]
      split <;> exact .refl _
    | detach =>
      simp only [Instance.effect,Instance.prefix_detach]
      split
      · exact List.filter_sublist
      · exact .refl _
    | _ => exact .refl _
  unfold Instance.effects
  induction out generalizing eigrp with
  | nil => exact .refl _
  | cons effect out ih => exact (ih _).trans (single effect eigrp)

/-- Only a creation puts a node into the table, at its end. -/
theorem Allowed.table_edited {step : Step Instance Label} (allowed : Allowed step) : TableEdited step.before step.after := by
  have shrinks {before after : Instance} (next_id : before.next_id ≤ after.next_id)
      (sublist : after.topology_table.Sublist before.topology_table) : TableEdited before after :=
    ⟨next_id,[],by simpa using sublist,by simp,by simp⟩
  have later := allowed.next_id_le
  cases allowed with
  | other frame => exact shrinks later (frame.topology_table ▸ .refl _)
  | @act label before permitted sound =>
    cases label with
    | perform id call =>
      refine shrinks later ?_
      simp only [Instance.act,Instance.perform]
      split
      · exact .refl _
      · split
        · exact .refl _
        · exact effects_table_sublist _ _ _
    | create creation =>
      simp only [Instance.act,Instance.create] at later ⊢
      cases built : creation.build before.env before.next_id with
      | none =>
        simp only [built] at later ⊢
        exact shrinks later (.refl _)
      | some created =>
        obtain ⟨pd,out⟩ := created
        simp only [built] at later ⊢
        refine ⟨later,[before.next_id],effects_table_sublist pd out _,by simp,fun id member => ?_⟩
        rw [List.mem_singleton.mp member,(effects_next_id pd out _).1]
        exact ⟨le_rfl,Nat.lt_succ_self _⟩
    | detach id =>
      refine shrinks later ?_
      simp only [Instance.act]
      split
      · exact .refl _
      · rename_i pd found
        exact effects_table_sublist pd [.detach] before
    | delete id =>
      refine shrinks later ?_
      simp only [Instance.act,Instance.delete]
      split
      · exact .refl _
      · split
        · exact List.filter_sublist
        · exact .refl _
    | free id => exact shrinks later (.refl _)
    | other => exact shrinks later (.refl _)

theorem Machine.Continues.table_edited {machine next : Machine} (continues : machine.Continues next) :
    TableEdited machine.state next.state :=
  @Recorded.Extends.invariant _ _ _ _ _ (TableEdited machine.state) continues
    (fun _ _ allowed edited => edited.trans allowed.table_edited) (.refl _)

/-! ## Whole walks -/

section Runs
variable {link : SyncLink} {turns : List (Instance × SyncTurn)}

/-- The node that the cursor names is never taken out of the table while the walk is suspended. -/
def Anchored (link : SyncLink) (turns : List (Instance × SyncTurn)) (sync : Sync) : Prop :=
  ∀ earlier turn later, turns = earlier ++ turn :: later → ∀ id ∈ (sync_turns link earlier sync).sync_cursor, id ∈ turn.1.topology_table

/-- The destination is in the table from the start of the walk on, always with a selected route that the filter permits. -/
def Throughout (link : SyncLink) (start : Instance) (turns : List (Instance × SyncTurn)) (id : Nat) (destination : Prefix) : Prop :=
  id ∈ start.topology_table ∧ ∀ turn ∈ turns, turn.2.presents link turn.1 id destination

/-- The TLV of the destination and that of a summary that stands for it fit an empty packet, and the filter permits the summary. -/
def Transmittable (link : SyncLink) (turns : List (Instance × SyncTurn)) (id : Nat) (destination : Prefix) : Prop :=
  ∀ turn ∈ turns, turn.2.encodable link turn.1 id ∧
    ∀ summary, turn.2.summaries.summary_destination destination = some summary → ∀ other ∈ turns, other.2.carries link other.1 summary

/-- The walk runs into no freed node; only the last packet of a walk that has ended carries EOT; and then every destination that
    was there throughout is in a packet, or behind a summary in one. -/
structure Synchronised (link : SyncLink) (start : Instance) (turns : List (Instance × SyncTurn)) (sync : Sync) : Prop where
  fault : sync.fault = false
  unmarked : sync.sync_active = true → ∀ packet ∈ sync.queued, packet.flags = 0
  marked : sync.sync_active = false → ∃ earlier last, sync.queued = earlier ++ [last] ∧ last.flags = eot_flag ∧
    ∀ packet ∈ earlier, packet.flags = 0
  complete : sync.sync_active = false → ∀ id destination, Throughout link start turns id destination →
    ∃ tlv ∈ packet_tlvs sync.queued, Serves turns tlv destination

theorem Sync.Ended.continued {tracked : Nat → Prefix → Prop} {sync : Sync} (ended : sync.Ended turns tracked) (eigrp : Instance) (turn : SyncTurn) :
    update_sync_continue link eigrp turn sync = sync := by
  simp [update_sync_continue,ended.inactive]

theorem Sync.Ended.stays {tracked : Nat → Prefix → Prop} {sync : Sync} (ended : sync.Ended turns tracked) (rest : List (Instance × SyncTurn)) :
    sync_turns link rest sync = sync := by
  induction rest with
  | nil => rfl
  | cons turn rest ih =>
    unfold sync_turns at ih ⊢
    rw [List.foldl_cons,ended.continued,ih]

/-- The turns of a walk, each behind changes of the table that leave the cursor's node in it. -/
theorem sync_turns_progress {good : Prefix → Prop} {tracked : Nat → Prefix → Prop} {rest : List (Instance × SyncTurn)} {before : Instance}
    {sync : Sync} (among : rest ⊆ turns) (carried : ∀ turn ∈ turns, ∀ summary, good summary → turn.2.carries link turn.1 summary)
    (sendable : ∀ turn ∈ turns, ∀ id destination, tracked id destination → Sendable link turn.1 turn.2 good id destination)
    (chain : (before :: rest.map Prod.fst).IsChain TableEdited) (numbered : Numbered before) (anchored : Anchored link rest sync)
    (underway : sync.Underway link turns good tracked before.topology_table) :
    (∃ table, (sync_turns link rest sync).Underway link turns good tracked table) ∨ (sync_turns link rest sync).Ended turns tracked := by
  induction rest generalizing before sync with
  | nil => exact .inl ⟨_,underway⟩
  | cons turn rest ih =>
    have member : turn ∈ turns := among (by simp)
    obtain ⟨edited,chain⟩ := List.isChain_cons_cons.mp chain
    have renumbered := edited.numbered numbered
    have here := underway.edited (edited.edited numbered) numbered.nodup (anchored [] turn rest rfl)
      (fun id destination wanted => (sendable turn member id destination wanted).presents.1)
    have later : Anchored link rest (update_sync_continue link turn.1 turn.2 sync) := by
      intro earlier next more split
      exact anchored (turn :: earlier) next more (by rw [split]; rfl)
    rcases here.continued member renumbered.nodup (carried turn member) (sendable turn member) with underway | ended
    · exact ih (fun other inside => among (by simp [inside])) chain renumbered later underway
    · have stays : sync_turns link (turn :: rest) sync = update_sync_continue link turn.1 turn.2 sync := ended.stays rest
      exact .inr (stays ▸ ended)

theorem sync_schedule_chain (machine : Machine) (steps : List (List Event × SyncTurn)) :
    (machine.state :: (sync_schedule machine steps).map Prod.fst).IsChain TableEdited := by
  induction steps generalizing machine with
  | nil => exact List.isChain_singleton _
  | cons step steps ih =>
    have continues : machine.Continues (step.1.foldl handle machine) :=
      Recorded.Extends.foldl _ (fun machine event => handle_continues machine event) _ _
    exact List.isChain_cons_cons.mpr ⟨continues.table_edited,ih _⟩

theorem run_numbered (metric : MetricConfig) (events : List Event) : Numbered (run metric events).state := by
  have continues : (Instance.start metric).Continues (run metric events) :=
    Recorded.Extends.foldl _ (fun machine event => handle_continues machine event) _ _
  exact continues.table_edited.numbered ⟨List.nodup_nil,by simp [Instance.start]⟩

/-- For every topology and every schedule of turns and events: the synchronisation of a neighbor is complete as long as the
    cursor's node stays in the table and everything it has to send can be sent. -/
theorem sync_complete (metric : MetricConfig) (events : List Event) (link : SyncLink) (allocates : Bool) (steps : List (List Event × SyncTurn))
    (anchored : Anchored link (sync_schedule (run metric events) steps) (update_send_eot link allocates))
    (transmittable : ∀ id destination,
      Throughout link (run metric events).state (sync_schedule (run metric events) steps) id destination →
        Transmittable link (sync_schedule (run metric events) steps) id destination) :
    Synchronised link (run metric events).state (sync_schedule (run metric events) steps)
      (sync_turns link (sync_schedule (run metric events) steps) (update_send_eot link allocates)) := by
  have chain := sync_schedule_chain (run metric events) steps
  generalize sync_schedule (run metric events) steps = turns at *
  have start : (update_send_eot link allocates).Underway link turns (fun summary => ∀ turn ∈ turns, turn.2.carries link turn.1 summary)
      (Throughout link (run metric events).state turns) (run metric events).state.topology_table := by
    refine ⟨rfl,rfl,?_,?_,fun _ => rfl,by simp [update_send_eot],by simp [update_send_eot],fun id destination wanted => .inr wanted.1⟩
    · cases allocates <;> simp [Sync.packets,update_send_eot]
    · cases allocates <;> simp [update_send_eot]
  have progress := sync_turns_progress (List.Subset.refl _) (fun turn member summary carries => carries turn member)
    (fun turn member id destination wanted => ⟨wanted.2 turn member,(transmittable id destination wanted turn member).1,
      (transmittable id destination wanted turn member).2⟩) chain (run_numbered metric events) anchored start
  rcases progress with ⟨table,underway⟩ | ended
  · refine ⟨underway.fault,fun _ packet member => underway.flags packet (List.mem_append_left _ member),?_,?_⟩ <;>
      intro inactive <;> rw [underway.active] at inactive <;> cases inactive
  · refine ⟨ended.fault,?_,fun _ => ended.marked,fun _ => ended.sent⟩
    intro active
    rw [ended.inactive] at active
    cases active

end Runs

/-- Two interfaces with connected destinations are up. -/
def connected_twice : List Event :=
  [.intf_create { id := 0, destination := some ⟨10,8⟩ }, .intf_create { id := 1 }, .intf_create { id := 2, destination := some ⟨20,8⟩ },
    .intf_up 0, .intf_up 2]

/-- A packet has room for one route. -/
def narrow_link : SyncLink := { intf := { id := 1 }, header := 20, packet_limit := 48 }

/-- The host has no second packet in the first turn, so that the walk stops between the two destinations. -/
def suspended_walk (between : List Event) : List (List Event × SyncTurn) :=
  [([],{ encoded := fun _ => 28, allocates := fun _ => false }), (between,{ encoded := fun _ => 28 })]

theorem sync_complete_twice :
    Synchronised narrow_link (run {} connected_twice).state (sync_schedule (run {} connected_twice) (suspended_walk []))
      (sync_turns narrow_link (sync_schedule (run {} connected_twice) (suspended_walk [])) (update_send_eot narrow_link true)) ∧
    (sync_turns narrow_link (sync_schedule (run {} connected_twice) (suspended_walk [])) (update_send_eot narrow_link true)).sync_active = false ∧
    ∀ id ∈ [0,1], ∃ destination, Throughout narrow_link (run {} connected_twice).state
      (sync_schedule (run {} connected_twice) (suspended_walk [])) id destination := by
  have scheduled : sync_schedule (run {} connected_twice) (suspended_walk []) =
      [((run {} connected_twice).state,{ encoded := fun _ => 28, allocates := fun _ => false }),
        ((run {} connected_twice).state,{ encoded := fun _ => 28 })] := rfl
  refine ⟨sync_complete {} connected_twice narrow_link true (suspended_walk []) ?_ ?_,by decide +kernel,?_⟩
  · intro earlier turn later split id member
    rw [scheduled] at split
    match earlier, split with
    | [], _ => cases member
    | [_], split =>
      cases split
      revert id
      decide +kernel
    | _ :: _ :: _, split => simp at split
  · intro id destination _ turn member
    rw [scheduled] at member
    have fits : ∀ tlv, turn.2.fits narrow_link tlv := by
      intro tlv
      rcases List.mem_pair.mp member with rfl | rfl <;> simp [SyncTurn.fits,narrow_link]
    refine ⟨fun pd route _ _ _ => fits _,?_⟩
    intro summary matched
    rcases List.mem_pair.mp member with rfl | rfl <;> cases matched
  · intro id member
    have present : ∀ id ∈ [0,1], id ∈ (run {} connected_twice).state.topology_table ∧
        (((run {} connected_twice).state.descriptor id).bind route_read).isSome := by decide +kernel
    obtain ⟨linked,selected⟩ := present id member
    cases found : (run {} connected_twice).state.descriptor id with
    | none => simp [found] at selected
    | some pd =>
      refine ⟨pd.destination,linked,?_⟩
      intro turn inside
      rw [scheduled] at inside
      rcases List.mem_pair.mp inside with rfl | rfl <;> exact ⟨linked,rfl,pd,found,rfl,by simpa [found] using selected⟩

/-- The node that the cursor names is freed in between. -/
theorem sync_clear_not_complete : ¬ ∀ metric events link allocates steps,
    Synchronised link (run metric events).state (sync_schedule (run metric events) steps)
      (sync_turns link (sync_schedule (run metric events) steps) (update_send_eot link allocates)) := by
  intro complete
  have sound := (complete {} connected_twice narrow_link true (suspended_walk [.clear ⟨10,8⟩])).fault
  have freed : (sync_turns narrow_link (sync_schedule (run {} connected_twice) (suspended_walk [.clear ⟨10,8⟩]))
      (update_send_eot narrow_link true)).fault = true := by decide +kernel
  rw [freed] at sound
  cases sound

end Eigrp
