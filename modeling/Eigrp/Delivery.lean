import Eigrp.Walk

/-!
# Delivery

The receive side of the reliable transport for one neighbor: the gates of `eigrp_packet_input_process` in front
of the five receive functions, the acknowledgements and the routes that reach DUAL. A session is the neighbor
with whatever state DUAL has; its log is an observation, one entry for each arriving packet.
-/

namespace Eigrp

/-- A packet with route TLVs from a known neighbor. `acks_init` is a piggybacked ACK of the INIT that is outstanding
    to it. -/
structure Arrival where
  opcode : Opcode
  flags : UInt32 := 0
  sequence : UInt32
  multicast : Bool := false
  acks_init : Bool := false
  bytes : List UInt8 := []

def Arrival.packet (arrival : Arrival) : Packet :=
  { opcode := arrival.opcode, flags := arrival.flags, sequence := arrival.sequence }

/-- What `eigrp_packet_input_process` reads of a neighbor; `eligible` is false while a prefix limit suspends it. -/
structure Receiver where
  neighbor : Neighbor
  eligible : Bool := true
  cr_mode : Bool := false
  cr_sequence : UInt32 := 0

def cr_flag : UInt32 := 2

/-- Conditional receive: a unicast copy consumes the mode, a conditional multicast needs it. -/
def Receiver.conditional (receiver : Receiver) (arrival : Arrival) : Option Receiver :=
  let consumed := { receiver with cr_mode := false, cr_sequence := 0 }
  let receiver :=
    if ¬ arrival.multicast ∧ receiver.cr_mode ∧ receiver.cr_sequence = arrival.sequence then consumed else receiver
  if arrival.multicast ∧ arrival.flags &&& cr_flag ≠ 0 then
    if ¬ receiver.cr_mode ∨ (receiver.cr_sequence ≠ 0 ∧ receiver.cr_sequence ≠ arrival.sequence) then none
    else some consumed
  else some receiver

/-- What `eigrp_packet_ack` does to the receive state when it completes the handshake. -/
def Receiver.ack_received (receiver : Receiver) (arrival : Arrival) : Receiver :=
  if arrival.acks_init ∧ receiver.neighbor.state = .pending then
    { receiver with neighbor := { receiver.neighbor with state := .up, recv_sequence_number := arrival.sequence } }
  else receiver

/-- The checks in front of the dispatch: the receiver behind them, and whether the packet is dispatched. A PENDING
    neighbor is not acknowledged anything but UPDATEs. -/
def Receiver.gate (receiver : Receiver) (limit_cleanup_pending : Bool) (arrival : Arrival) : Receiver × Bool :=
  if ¬ receiver.eligible ∨ limit_cleanup_pending then (receiver, false)
  else match receiver.conditional arrival with
    | none => (receiver, false)
    | some receiver =>
      let receiver := receiver.ack_received arrival
      (receiver, arrival.opcode = .update ∨ receiver.neighbor.state = .up)

def Receiver.reception (receiver : Receiver) (arrival : Arrival) : Reception :=
  if arrival.opcode = .update then update_reception receiver.neighbor arrival.packet else .plain

def Receiver.down (receiver : Receiver) : Receiver :=
  { receiver with neighbor := receiver.neighbor.down, cr_mode := false, cr_sequence := 0 }

/-- The receive state behind a receive function that walks the packet; a restarted peer is PENDING again. -/
def Receiver.received (receiver : Receiver) (arrival : Arrival) : Receiver :=
  if receiver.reception arrival = .restart then
    { receiver.down with neighbor :=
        { receiver.neighbor.down with
          state := .pending, peer_init_sequence_number := arrival.sequence
          peer_init_retransmit_eligible := arrival.sequence ≠ 0, recv_sequence_number := arrival.sequence } }
  else if arrival.opcode = .update then
    { receiver with neighbor := receiver.neighbor.update_received arrival.packet }
  else { receiver with neighbor := { receiver.neighbor with recv_sequence_number := arrival.sequence } }

/-- What became of one arriving packet, in the adjacency of that number. -/
structure Delivered where
  adjacency : Nat
  sequence : UInt32
  tlvs : List Tlv
  acked : Bool
deriving DecidableEq, Repr

structure Session (σ : Type) where
  receiver : Receiver
  dual : σ
  adjacency : Nat := 0
  log : List Delivered := []

inductive NbrInput (σ : Type) where
  | arrival (arrival : Arrival)
  | hello (sequence_listed : Bool) (next_multicast_sequence : UInt32)
  | pending
  | up
  | down
  | eligible (eligible : Bool)
  | dual (change : σ → σ)

section Sessions
variable {σ : Type} (decoder : Decoder) (limit_cleanup_pending : σ → Bool) (apply : Tlv → σ → σ)

def Session.down (session : Session σ) : Session σ :=
  { session with receiver := session.receiver.down, adjacency := session.adjacency + 1 }

/-- What becomes of a packet: discarded or deferred without an ACK, acknowledged only, or walked. -/
def Session.delivered (arrival : Arrival) (session : Session σ) : Delivered :=
  let gate := session.receiver.gate (limit_cleanup_pending session.dual) arrival
  if ¬ gate.2 then ⟨session.adjacency,arrival.sequence,[],false⟩
  else if gate.1.reception arrival = .replay then ⟨session.adjacency,arrival.sequence,[],true⟩
  else
    { adjacency := if gate.1.reception arrival = .restart then session.adjacency + 1 else session.adjacency
      sequence := arrival.sequence
      tlvs := tlvs_applied decoder limit_cleanup_pending apply arrival.opcode false arrival.bytes session.dual
      acked := arrival.opcode ≠ .update ∨ arrival.sequence ≠ 0 }

/-- The part of `eigrp_packet_input_process` behind the authentication. -/
def Session.arrive (arrival : Arrival) (session : Session σ) : Session σ :=
  let gate := session.receiver.gate (limit_cleanup_pending session.dual) arrival
  let delivered := session.delivered decoder limit_cleanup_pending apply arrival
  let logged := { session with receiver := gate.1, log := session.log ++ [delivered] }
  if ¬ gate.2 ∨ gate.1.reception arrival = .replay then logged
  else
    let walked :=
      { logged with
        receiver := gate.1.received arrival
        dual := receive_walk decoder limit_cleanup_pending apply arrival.opcode false arrival.bytes session.dual
        adjacency := delivered.adjacency }
    if limit_cleanup_pending walked.dual then
      { walked.down with receiver := { walked.down.receiver with eligible := false } }
    else walked

def Session.step (session : Session σ) : NbrInput σ → Session σ
  | .arrival arrival => session.arrive decoder limit_cleanup_pending apply arrival
  | .hello sequence_listed next_multicast_sequence =>
    let cr_mode := !sequence_listed && next_multicast_sequence != 0
    { session with receiver :=
        { session.receiver with cr_mode, cr_sequence := if cr_mode then next_multicast_sequence else 0 } }
  | .pending =>
    { session with receiver :=
        { session.receiver with neighbor := { session.receiver.neighbor with state := .pending } } }
  | .up =>
    { session with receiver := { session.receiver with neighbor := { session.receiver.neighbor with state := .up } } }
  | .down => session.down
  | .eligible eligible => { session with receiver := { session.receiver with eligible } }
  | .dual change => { session with dual := change session.dual }

def Session.run (session : Session σ) (inputs : List (NbrInput σ)) : Session σ :=
  inputs.foldl (Session.step decoder limit_cleanup_pending apply) session

end Sessions

/-! ## At most once -/

/-- No two packets of one adjacency with one sequence number hand routes to DUAL. -/
def AtMostOnce (log : List Delivered) : Prop :=
  log.Pairwise fun first second =>
    first.adjacency = second.adjacency → first.sequence = second.sequence → first.sequence ≠ 0 →
      first.tlvs = [] ∨ second.tlvs = []

/-- Every reliable packet is acknowledged. -/
def AllAcked (log : List Delivered) : Prop := ∀ delivered ∈ log, delivered.sequence ≠ 0 → delivered.acked

section Clean
variable {σ : Type} (decoder : Decoder) (limit_cleanup_pending : σ → Bool) (apply : Tlv → σ → σ)

/-- The walk of the opcode finds a route in the packet. -/
def Arrival.Carries (arrival : Arrival) : Prop :=
  tlvs_applied decoder (fun _ : Unit => false) (fun _ state => state) arrival.opcode false arrival.bytes () ≠ []

/-- The packet is dispatched: the neighbor is not suspended, a conditional multicast is the one it awaits, and of a
    neighbor that is not UP only an UPDATE is, or a packet that completes the handshake. -/
def Receiver.Hears (receiver : Receiver) (limit_cleanup_pending : Bool) (arrival : Arrival) : Prop :=
  (receiver.eligible ∧ ¬ limit_cleanup_pending) ∧
    (arrival.multicast ∧ arrival.flags &&& cr_flag ≠ 0 →
      receiver.cr_mode ∧ (receiver.cr_sequence = 0 ∨ receiver.cr_sequence = arrival.sequence)) ∧
    (arrival.opcode = .update ∨ receiver.neighbor.state = .up ∨
      arrival.acks_init ∧ receiver.neighbor.state = .pending)

/-- The INIT that the adjacency has accepted arrives again. -/
def Receiver.Replays (receiver : Receiver) (arrival : Arrival) : Prop :=
  arrival.opcode = .update ∧ arrival.flags = init_flag ∧ arrival.sequence ≠ 0 ∧
    receiver.neighbor.peer_init_retransmit_eligible ∧ receiver.neighbor.peer_init_sequence_number = arrival.sequence

/-- A new INIT of a peer that is UP begins another adjacency; the flags of a graceful restart do not. -/
def Receiver.Restarts (receiver : Receiver) (arrival : Arrival) : Prop :=
  arrival.opcode = .update ∧ arrival.flags &&& init_flag ≠ 0 ∧ arrival.flags ≠ init_flag + rs_flag ∧
    arrival.flags ≠ init_flag + rs_flag + eot_flag ∧ receiver.neighbor.state = .up ∧
    receiver.neighbor.peer_init_sequence_number ≠ 0 ∧ receiver.neighbor.recv_sequence_number ≠ arrival.sequence ∧
    ¬ receiver.Replays arrival

/-- A packet with routes that is no replayed INIT is heard, as one of that adjacency. -/
def Session.Takes (session : Session σ) (arrival : Arrival) (adjacency : Nat) : Prop :=
  session.receiver.Hears (limit_cleanup_pending session.dual) arrival ∧ ¬ session.receiver.Replays arrival ∧
    arrival.Carries decoder ∧
    (session.receiver.Restarts arrival ∧ adjacency = session.adjacency + 1 ∨
      ¬ session.receiver.Restarts arrival ∧ adjacency = session.adjacency)

/-- A reliable packet is heard, and one with routes that is no replayed INIT has no number that its adjacency has
    taken. -/
def Session.Clean (session : Session σ) (taken : Nat → UInt32 → Prop) (arrival : Arrival) : Prop :=
  arrival.sequence ≠ 0 →
    session.receiver.Hears (limit_cleanup_pending session.dual) arrival ∧
      ∀ adjacency, session.Takes decoder limit_cleanup_pending arrival adjacency → ¬ taken adjacency arrival.sequence

/-- Every packet of a run is clean where it arrives; its number is taken from then on. -/
def Session.CleanRun : (Nat → UInt32 → Prop) → Session σ → List (NbrInput σ) → Prop
  | _, _, [] => True
  | taken, session, input :: inputs =>
    (∀ arrival, input = .arrival arrival → session.Clean decoder limit_cleanup_pending taken arrival) ∧
      Session.CleanRun
        (fun adjacency sequence => taken adjacency sequence ∨ ∃ arrival, input = .arrival arrival ∧
          arrival.sequence = sequence ∧ session.Takes decoder limit_cleanup_pending arrival adjacency)
        (session.step decoder limit_cleanup_pending apply input) inputs

/-- A walk that starts below the limit applies something exactly when the packet carries a route. -/
theorem skipping_walk_nil_iff (pkt : List UInt8) (state : σ) (below : limit_cleanup_pending state = false) :
    (skipping_walk decoder (fun state : σ × List Tlv => limit_cleanup_pending state.1) (apply_logged apply) pkt
        (state, [])).2 = [] ↔
      (skipping_walk decoder (fun _ : Unit × List Tlv => false) (apply_logged fun _ state => state) pkt ((), [])).2 = [] := by
  fun_induction skipping_walk decoder limit_cleanup_pending apply pkt state with
  | case1 pkt state ended =>
    obtain rfl | full := ended
    · simp [skipping_walk]
    · simp [below] at full
  | case2 pkt state more rest unread stuck =>
    rw [skipping_walk, dif_neg more, skipping_walk, dif_neg (by simpa using (not_or.1 more).1)]
    simp [unread,rest,stuck]
  | case3 pkt state more rest unread moved ih =>
    rw [skipping_walk, dif_neg more, skipping_walk, dif_neg (by simpa using (not_or.1 more).1)]
    simp only [unread]
    rw [if_neg moved, if_neg moved]
    exact ih below
  | case4 pkt state more rest route read ih =>
    obtain ⟨log,same,_⟩ := skipping_walk_logged decoder limit_cleanup_pending apply rest (apply route state) [route]
    obtain ⟨other,other_same,_⟩ :=
      skipping_walk_logged decoder (fun _ : Unit => false) (fun _ state => state) rest () [route]
    rw [skipping_walk, dif_neg more, skipping_walk, dif_neg (by simpa using (not_or.1 more).1)]
    simp only [read,apply_logged,List.nil_append]
    rw [same, other_same]
    simp

theorem breaking_walk_nil_iff (pkt : List UInt8) (state : σ) :
    (breaking_walk decoder (apply_logged apply) pkt (state, [])).2 = [] ↔
      (breaking_walk decoder (apply_logged fun _ (state : Unit) => state) pkt ((), [])).2 = [] := by
  by_cases ended : pkt = []
  · rw [breaking_walk, dif_pos ended, breaking_walk, dif_pos ended]
  · rw [breaking_walk, dif_neg ended, breaking_walk, dif_neg ended]
    cases read : (decoder.decode pkt).1 with
    | none => simp
    | some route =>
      obtain ⟨log,same,_⟩ := breaking_walk_logged decoder apply (decoder.decode pkt).2 (apply route state) [route]
      obtain ⟨other,other_same,_⟩ :=
        breaking_walk_logged decoder (fun _ (state : Unit) => state) (decoder.decode pkt).2 () [route]
      simp only [apply_logged,List.nil_append]
      rw [same, other_same]
      simp

theorem tlvs_applied_ne_nil_iff (arrival : Arrival) (state : σ) (below : limit_cleanup_pending state = false) :
    tlvs_applied decoder limit_cleanup_pending apply arrival.opcode false arrival.bytes state ≠ [] ↔
      arrival.Carries decoder := by
  refine not_congr ?_
  cases opcode : arrival.opcode with
  | update => simpa [tlvs_applied,receive_walk,update_walk] using skipping_walk_nil_iff decoder limit_cleanup_pending apply _ _ below
  | query => simpa [tlvs_applied,receive_walk,query_walk] using skipping_walk_nil_iff decoder limit_cleanup_pending apply _ _ below
  | reply => simpa [tlvs_applied,receive_walk,reply_walk] using skipping_walk_nil_iff decoder (fun _ => false) apply _ state rfl
  | siaquery => simpa [tlvs_applied,receive_walk,siaquery_walk] using breaking_walk_nil_iff decoder apply arrival.bytes state
  | siareply => simpa [tlvs_applied,receive_walk,siareply_walk] using breaking_walk_nil_iff decoder apply arrival.bytes state

theorem conditional_some {receiver next : Receiver} {arrival : Arrival} (passed : receiver.conditional arrival = some next) :
    next.neighbor = receiver.neighbor := by
  unfold Receiver.conditional at passed
  dsimp only at passed
  split_ifs at passed <;> cases passed <;> rfl

theorem conditional_iff (receiver : Receiver) (arrival : Arrival) :
    (receiver.conditional arrival).isSome = true ↔
      (arrival.multicast ∧ arrival.flags &&& cr_flag ≠ 0 →
        receiver.cr_mode ∧ (receiver.cr_sequence = 0 ∨ receiver.cr_sequence = arrival.sequence)) := by
  unfold Receiver.conditional
  dsimp only
  by_cases marked : arrival.multicast = true ∧ arrival.flags &&& cr_flag ≠ 0
  · have multicast : ¬ (¬ arrival.multicast = true ∧ receiver.cr_mode = true ∧ receiver.cr_sequence = arrival.sequence) :=
      fun copy => copy.1 marked.1
    rw [if_pos marked, if_neg multicast]
    by_cases refused : ¬ receiver.cr_mode = true ∨ receiver.cr_sequence ≠ 0 ∧ receiver.cr_sequence ≠ arrival.sequence
    · rw [if_pos refused]
      simp only [Option.isSome_none,Bool.false_eq_true,false_iff]
      intro awaited
      obtain ⟨mode,number⟩ := awaited marked
      rcases refused with unset | ⟨set,differs⟩
      · exact unset mode
      · exact number.elim set differs
    · obtain ⟨mode,number⟩ := not_or.1 refused
      rw [if_neg refused]
      simp only [Option.isSome_some,true_iff]
      exact fun _ => ⟨not_not.1 mode,by tauto⟩
  · rw [if_neg marked]
    simp only [Option.isSome_some,true_iff]
    exact fun conditional => absurd conditional marked

theorem ack_received_up (receiver : Receiver) (arrival : Arrival) :
    (receiver.ack_received arrival).neighbor.state = .up ↔
      receiver.neighbor.state = .up ∨ arrival.acks_init ∧ receiver.neighbor.state = .pending := by
  unfold Receiver.ack_received
  split_ifs with completed
  · simp [completed]
  · simp [completed]

/-- A packet that is dispatched finds the neighbor as the handshake leaves it. -/
theorem gate_iff (receiver : Receiver) (full : Bool) (arrival : Arrival) :
    (receiver.gate full arrival).2 = true ↔ receiver.Hears full arrival := by
  have awaited := conditional_iff receiver arrival
  unfold Receiver.gate Receiver.Hears
  rw [← awaited]
  by_cases suspended : ¬ receiver.eligible = true ∨ full = true
  · rw [if_pos suspended]
    have ineligible : ¬ (receiver.eligible = true ∧ ¬ full = true) := by tauto
    simp only [Bool.false_eq_true,false_iff]
    exact fun heard => ineligible heard.1
  · rw [if_neg suspended]
    have eligible : receiver.eligible = true ∧ ¬ full = true := by tauto
    cases passed : receiver.conditional arrival with
    | none => simp
    | some next =>
      have same : next.neighbor = receiver.neighbor := conditional_some passed
      have up := ack_received_up next arrival
      rw [same] at up
      simp only [decide_eq_true_eq,Option.isSome_some,true_and,up]
      exact ⟨fun dispatched => ⟨eligible,dispatched⟩,fun heard => heard.2⟩

theorem gate_neighbor {receiver : Receiver} {full : Bool} {arrival : Arrival} (passed : (receiver.gate full arrival).2 = true) :
    (receiver.gate full arrival).1.neighbor = (receiver.ack_received arrival).neighbor := by
  unfold Receiver.gate at *
  split_ifs at passed ⊢ with suspended
  cases awaited : receiver.conditional arrival with
  | none => simp [awaited] at passed
  | some next =>
    have same : next.neighbor = receiver.neighbor := conditional_some awaited
    simp only [Receiver.ack_received,same]
    split_ifs <;> simp [same]

theorem update_reception_replay_iff (neighbor : Neighbor) (packet : Packet) :
    update_reception neighbor packet = .replay ↔
      packet.flags = init_flag ∧ packet.sequence ≠ 0 ∧ neighbor.peer_init_retransmit_eligible ∧
        neighbor.peer_init_sequence_number = packet.sequence := by
  unfold update_reception
  dsimp only
  by_cases replay : packet.flags = init_flag ∧ packet.sequence ≠ 0 ∧ neighbor.peer_init_retransmit_eligible = true ∧
      neighbor.peer_init_sequence_number = packet.sequence
  · rw [if_pos replay]
    exact iff_of_true rfl replay
  · rw [if_neg replay]
    refine iff_of_false ?_ replay
    split_ifs <;> simp

theorem update_reception_restart_iff (neighbor : Neighbor) (packet : Packet) :
    update_reception neighbor packet = .restart ↔
      packet.flags &&& init_flag ≠ 0 ∧ packet.flags ≠ init_flag + rs_flag ∧
        packet.flags ≠ init_flag + rs_flag + eot_flag ∧ neighbor.state = .up ∧
        neighbor.peer_init_sequence_number ≠ 0 ∧ neighbor.recv_sequence_number ≠ packet.sequence ∧
        update_reception neighbor packet ≠ .replay := by
  by_cases replay : update_reception neighbor packet = .replay
  · simp [replay]
  · have other := mt (update_reception_replay_iff neighbor packet).2 replay
    simp only [replay,ne_eq,not_false_eq_true,and_true]
    unfold update_reception
    dsimp only
    rw [if_neg other]
    have ended (ended : packet.flags = eot_flag ∨ packet.flags = 0) : packet.flags &&& init_flag = 0 := by
      rcases ended with ended | ended <;> rw [ended] <;> decide
    split_ifs <;> simp_all

theorem reception_replay_iff (receiver : Receiver) (arrival : Arrival) :
    (receiver.ack_received arrival).reception arrival = .replay ↔ receiver.Replays arrival := by
  have kept : (receiver.ack_received arrival).neighbor.peer_init_retransmit_eligible =
        receiver.neighbor.peer_init_retransmit_eligible ∧
      (receiver.ack_received arrival).neighbor.peer_init_sequence_number = receiver.neighbor.peer_init_sequence_number := by
    unfold Receiver.ack_received
    split_ifs <;> exact ⟨rfl,rfl⟩
  unfold Receiver.reception Receiver.Replays
  by_cases update : arrival.opcode = .update
  · rw [if_pos update, update_reception_replay_iff, kept.1, kept.2]
    simp [update,Arrival.packet]
  · simp [update]

/-- Where the packet completes the handshake it is the last that was heard, and no restart. -/
theorem reception_restart_iff (receiver : Receiver) (arrival : Arrival) :
    (receiver.ack_received arrival).reception arrival = .restart ↔ receiver.Restarts arrival := by
  have replay := reception_replay_iff receiver arrival
  unfold Receiver.Restarts
  by_cases update : arrival.opcode = .update
  · rw [← replay]
    unfold Receiver.reception
    rw [if_pos update, update_reception_restart_iff]
    simp only [update,true_and,Arrival.packet]
    unfold Receiver.ack_received
    split_ifs with completed
    · simp [completed.2]
    · rfl
  · simp [Receiver.reception,update]

/-- Only a neighbor below its limit passes the gates. -/
theorem gate_below {receiver : Receiver} {full : Bool} {arrival : Arrival} (passed : (receiver.gate full arrival).2) :
    full = false := by
  cases full with
  | false => rfl
  | true => simp [Receiver.gate] at passed

theorem arrive_log (session : Session σ) (arrival : Arrival) :
    (session.arrive decoder limit_cleanup_pending apply arrival).log =
      session.log ++ [session.delivered decoder limit_cleanup_pending apply arrival] := by
  unfold Session.arrive
  dsimp only
  split
  · rfl
  · split <;> rfl

/-- What becomes of a packet is read off the state in front of it. -/
theorem delivered_spec (session : Session σ) (arrival : Arrival) (adjacency : Nat) :
    let delivered := session.delivered decoder limit_cleanup_pending apply arrival
    delivered.sequence = arrival.sequence ∧
      (delivered.adjacency = adjacency ∧ delivered.tlvs ≠ [] ↔ session.Takes decoder limit_cleanup_pending arrival adjacency) ∧
      (arrival.sequence ≠ 0 →
        (delivered.acked = true ↔ session.receiver.Hears (limit_cleanup_pending session.dual) arrival)) := by
  have heard := gate_iff session.receiver (limit_cleanup_pending session.dual) arrival
  unfold Session.delivered Session.Takes
  dsimp only
  rw [← heard]
  by_cases passed : (session.receiver.gate (limit_cleanup_pending session.dual) arrival).2 = true
  · have below : limit_cleanup_pending session.dual = false := gate_below passed
    have carries := tlvs_applied_ne_nil_iff decoder limit_cleanup_pending apply arrival session.dual below
    have behind := gate_neighbor passed
    have reception : (session.receiver.gate (limit_cleanup_pending session.dual) arrival).1.reception arrival =
        (session.receiver.ack_received arrival).reception arrival := by
      simp only [Receiver.reception,behind]
    have replay := reception_replay_iff session.receiver arrival
    have restart := reception_restart_iff session.receiver arrival
    rw [← replay, ← restart, ← carries, reception, if_neg (not_not.2 passed)]
    by_cases again : (session.receiver.ack_received arrival).reception arrival = .replay
    · simp [again,passed]
    · by_cases anew : (session.receiver.ack_received arrival).reception arrival = .restart
      · simp only [anew,passed,reduceCtorEq,if_false,if_true,not_false_eq_true,true_and,not_true_eq_false,false_and,
          or_false,decide_eq_true_eq,iff_true]
        exact ⟨⟨fun given => ⟨given.2,given.1.symm⟩,fun given => ⟨given.2.symm,given.1⟩⟩,fun reliable => .inr reliable⟩
      · simp only [anew,again,passed,if_false,not_false_eq_true,true_and,false_and,false_or,decide_eq_true_eq,iff_true]
        exact ⟨⟨fun given => ⟨given.2,given.1.symm⟩,fun given => ⟨given.2.symm,given.1⟩⟩,fun reliable => .inr reliable⟩
  · simp [passed]

/-- The numbers taken are those of the packets in the log that have handed routes to DUAL. -/
def Session.Records (session : Session σ) (taken : Nat → UInt32 → Prop) : Prop :=
  ∀ adjacency sequence, sequence ≠ 0 →
    (taken adjacency sequence ↔
      ∃ delivered ∈ session.log, (delivered.adjacency = adjacency ∧ delivered.tlvs ≠ []) ∧ delivered.sequence = sequence)

/-- The entry of a packet keeps the log in order exactly when the packet is clean. -/
theorem clean_iff {session : Session σ} {taken : Nat → UInt32 → Prop} (records : session.Records taken) (arrival : Arrival) :
    session.Clean decoder limit_cleanup_pending taken arrival ↔
      (∀ earlier ∈ session.log,
        earlier.adjacency = (session.delivered decoder limit_cleanup_pending apply arrival).adjacency →
        earlier.sequence = (session.delivered decoder limit_cleanup_pending apply arrival).sequence →
        earlier.sequence ≠ 0 →
        earlier.tlvs = [] ∨ (session.delivered decoder limit_cleanup_pending apply arrival).tlvs = []) ∧
      ((session.delivered decoder limit_cleanup_pending apply arrival).sequence ≠ 0 →
        (session.delivered decoder limit_cleanup_pending apply arrival).acked) := by
  have spec := delivered_spec decoder limit_cleanup_pending apply session arrival
  generalize session.delivered decoder limit_cleanup_pending apply arrival = delivered at spec
  have sequence : delivered.sequence = arrival.sequence := (spec 0).1
  rw [sequence]
  constructor
  · intro clean
    refine ⟨fun earlier member same copy reliable => ?_,fun reliable => ?_⟩
    · by_contra both
      obtain ⟨handed,again⟩ := not_or.1 both
      have taken := (records delivered.adjacency arrival.sequence (copy ▸ reliable)).2 ⟨earlier,member,⟨same,handed⟩,copy⟩
      exact (clean (copy ▸ reliable)).2 _ ((spec _).2.1.1 ⟨rfl,again⟩) taken
    · exact ((spec 0).2.2 reliable).2 (clean reliable).1
  · rintro ⟨alone,acked⟩ reliable
    refine ⟨((spec 0).2.2 reliable).1 (acked reliable),fun adjacency takes taken => ?_⟩
    obtain ⟨earlier,member,⟨same,handed⟩,copy⟩ := (records adjacency arrival.sequence reliable).1 taken
    obtain ⟨here,again⟩ := (spec adjacency).2.1.2 takes
    rcases alone earlier member (same.trans here.symm) copy (copy ▸ reliable) with empty | none_applied
    · exact handed empty
    · exact again none_applied

theorem atMostOnce_snoc (log : List Delivered) (delivered : Delivered) :
    AtMostOnce (log ++ [delivered]) ↔ AtMostOnce log ∧
      ∀ earlier ∈ log, earlier.adjacency = delivered.adjacency → earlier.sequence = delivered.sequence →
        earlier.sequence ≠ 0 → earlier.tlvs = [] ∨ delivered.tlvs = [] := by
  simp [AtMostOnce,List.pairwise_append]

theorem allAcked_snoc (log : List Delivered) (delivered : Delivered) :
    AllAcked (log ++ [delivered]) ↔ AllAcked log ∧ (delivered.sequence ≠ 0 → delivered.acked) := by
  simp [AllAcked,or_imp,forall_and]

theorem step_other (session : Session σ) {input : NbrInput σ} (other : ∀ arrival, input ≠ .arrival arrival) :
    (session.step decoder limit_cleanup_pending apply input).log = session.log := by
  cases input with
  | arrival arrival => exact absurd rfl (other arrival)
  | _ => rfl

theorem step_records {session : Session σ} {taken : Nat → UInt32 → Prop} (records : session.Records taken)
    (input : NbrInput σ) :
    (session.step decoder limit_cleanup_pending apply input).Records fun adjacency sequence =>
      taken adjacency sequence ∨ ∃ arrival, input = .arrival arrival ∧ arrival.sequence = sequence ∧
        session.Takes decoder limit_cleanup_pending arrival adjacency := by
  intro adjacency sequence reliable
  by_cases packet : ∃ arrival, input = .arrival arrival
  · obtain ⟨arrival,rfl⟩ := packet
    obtain ⟨number,takes,_⟩ := delivered_spec decoder limit_cleanup_pending apply session arrival adjacency
    have log : (session.step decoder limit_cleanup_pending apply (.arrival arrival)).log =
        session.log ++ [session.delivered decoder limit_cleanup_pending apply arrival] := arrive_log ..
    rw [log]
    simp only [List.mem_append,List.mem_singleton,or_and_right,exists_or,exists_eq_left,NbrInput.arrival.injEq,exists_eq_left',
      records adjacency sequence reliable,takes,number]
    exact or_congr_right and_comm
  · have log := step_other decoder limit_cleanup_pending apply session (fun arrival same => packet ⟨arrival,same⟩)
    rw [log, ← records adjacency sequence reliable]
    exact or_iff_left fun ⟨arrival,same,_⟩ => packet ⟨arrival,same⟩

theorem step_delivery_iff {session : Session σ} {taken : Nat → UInt32 → Prop} (records : session.Records taken)
    (input : NbrInput σ) :
    AtMostOnce (session.step decoder limit_cleanup_pending apply input).log ∧
        AllAcked (session.step decoder limit_cleanup_pending apply input).log ↔
      (AtMostOnce session.log ∧ AllAcked session.log) ∧
        ∀ arrival, input = .arrival arrival → session.Clean decoder limit_cleanup_pending taken arrival := by
  by_cases packet : ∃ arrival, input = .arrival arrival
  · obtain ⟨arrival,rfl⟩ := packet
    have clean := clean_iff decoder limit_cleanup_pending apply records arrival
    simp only [Session.step,arrive_log,atMostOnce_snoc,allAcked_snoc,NbrInput.arrival.injEq,forall_eq',clean]
    tauto
  · have log := step_other decoder limit_cleanup_pending apply session (fun arrival same => packet ⟨arrival,same⟩)
    rw [log]
    exact ⟨fun holds => ⟨holds,fun arrival same => absurd ⟨arrival,same⟩ packet⟩,fun holds => holds.1⟩

theorem run_delivery_iff {session : Session σ} {taken : Nat → UInt32 → Prop} (records : session.Records taken)
    (inputs : List (NbrInput σ)) :
    AtMostOnce (session.run decoder limit_cleanup_pending apply inputs).log ∧
        AllAcked (session.run decoder limit_cleanup_pending apply inputs).log ↔
      (AtMostOnce session.log ∧ AllAcked session.log) ∧
        session.CleanRun decoder limit_cleanup_pending apply taken inputs := by
  induction inputs generalizing session taken with
  | nil => simp [Session.run,Session.CleanRun]
  | cons input inputs ih =>
    have next := ih (step_records decoder limit_cleanup_pending apply records input)
    rw [step_delivery_iff decoder limit_cleanup_pending apply records input, and_assoc] at next
    exact next

/-- From a new neighbor on, each sequence number reaches DUAL at most once in an adjacency and every reliable packet
    is acknowledged, exactly in the runs whose packets are all clean. -/
theorem delivered_at_most_once_iff (neighbor : Neighbor) (dual : σ) (inputs : List (NbrInput σ)) :
    AtMostOnce (Session.run decoder limit_cleanup_pending apply ⟨{ neighbor },dual,0,[]⟩ inputs).log ∧
        AllAcked (Session.run decoder limit_cleanup_pending apply ⟨{ neighbor },dual,0,[]⟩ inputs).log ↔
      Session.CleanRun decoder limit_cleanup_pending apply (fun _ _ => False) ⟨{ neighbor },dual,0,[]⟩ inputs := by
  have records : Session.Records (⟨{ neighbor },dual,0,[]⟩ : Session σ) fun _ _ => False := by
    intro adjacency sequence reliable
    simp
  rw [run_delivery_iff decoder limit_cleanup_pending apply records inputs]
  simp [AtMostOnce,AllAcked]

end Clean

theorem repeated_fits : tlv_hdr_size +
    (stream_putl 0x0a000001 ++ (tlv1_metric_encode { delay := 10, bandwidth := 256 } ++ [24,192,0,2])).length < 2 ^ 16 := by decide

/-- A REPLY with one route; its ACK is lost and it arrives again. -/
def repeated_frames : List FramedTlv :=
  [⟨0x0102,stream_putl 0x0a000001 ++ (tlv1_metric_encode { delay := 10, bandwidth := 256 } ++ [24,192,0,2]),repeated_fits⟩]

def repeated_reply : Arrival := { opcode := .reply, sequence := 5, bytes := packet_bytes repeated_frames }

theorem repeated_reply_applied :
    ¬ AtMostOnce (Session.run (Codec.tlv1.reader .ipv4 0x0a000001) (fun _ : Unit => false) (fun _ state => state)
      ⟨{ neighbor := { id := 1 } },(),0,[]⟩ [.pending,.up,.arrival repeated_reply,.arrival repeated_reply]).log := by
  have some_route : Codec.accepted .tlv1 .ipv4 0x0a000001 repeated_frames ≠ [] := by decide +kernel
  simp [Session.run,Session.step,Session.arrive,Session.delivered,Receiver.gate,Receiver.conditional,
    Receiver.ack_received,Receiver.reception,Receiver.received,repeated_reply,tlvs_applied_reply,AtMostOnce]
  exact some_route

end Eigrp
