import Eigrp.Delivery
import Eigrp.Order

/-!
# Conditional receive

A sender and the receivers of one link. The multicasts of the sender and its SEQUENCE Hellos may be lost, reordered and
repeated: what has been sent stays on the link until it is lost and may be received at any time. A receiver reads each
packet as `eigrp_packet_input_process` does. What it accepts is logged together with the SEQUENCE Hello it read last.
-/

namespace Eigrp

/-- A packet as it arrives, with the header that the transport has given it. -/
def Arrival.of (content : Arrival) (sequence : UInt32) (multicast cr : Bool) : Arrival :=
  { content with sequence, multicast, flags := (content.flags &&& ~~~ cr_flag) ||| (if cr then cr_flag else 0) }

/-- The receive state behind a packet, and whether it was accepted. -/
def Receiver.arrive (receiver : Receiver) (limit_cleanup_pending : Bool) (arrival : Arrival) : Receiver × Bool :=
  let gate := receiver.gate limit_cleanup_pending arrival
  if ¬ gate.2 ∨ gate.1.reception arrival = .replay then gate else (gate.1.received arrival, true)

end Eigrp

namespace Eigrp.Rtp

/-- A packet on the link: a Hello with SEQUENCE TLVs, a reliable packet for one neighbor or for all, or an ACK. -/
inductive Datagram where
  | hello (listed : List Nat) (sequence : Sequence)
  | packet (sequence : Sequence) (nbr : Option Nat) (cr : Bool)
  | ack (nbr : Nat) (sequence : Sequence)
deriving DecidableEq, Repr

def Datagram.sequence : Datagram → Sequence
  | .hello _ sequence => sequence
  | .packet sequence _ _ => sequence
  | .ack _ sequence => sequence

/-- A Hello without SEQUENCE TLVs changes nothing at a receiver. -/
def Output.datagram : Output → Option Datagram
  | .hello sequence_tlv => sequence_tlv.map fun tlv => .hello tlv.1 tlv.2
  | .packet sequence nbr _ cr => some (.packet sequence nbr cr)

/-- A reliable packet that a receiver has acknowledged, and the SEQUENCE Hello it had read last. -/
structure Acceptance where
  nbr : Nat
  sequence : Sequence
  multicast : Bool
  cr : Bool
  heard : Option (List Nat × Sequence)

structure Link where
  ei : Transport := {}
  receivers : Nat → Receiver := fun id => { neighbor := { id } }
  heard : Nat → Option (List Nat × Sequence) := fun _ => none
  sent : List Datagram := []
  accepted : List Acceptance := []

/-- What happens on the link. A packet arrives with whatever the sender has written into it, at a receiver that may be at its
    prefix limit; the rest of the state of a receiver changes in steps of its own. -/
inductive LinkEvent where
  | sender (outcome : Outcome) (event : Event)
  | lost (datagram : Datagram)
  | hello (id : Nat) (listed : List Nat) (sequence : Sequence)
  | receive (id : Nat) (sequence : Sequence) (nbr : Option Nat) (cr : Bool) (content : Arrival) (limit_cleanup_pending : Bool)
  | ack (outcome : Outcome) (id : Nat) (sequence : Sequence)
  | receiver (id : Nat) (neighbor : Neighbor) (eligible : Bool)
  | receiver_down (id : Nat)

/-- The packet that `eigrp_packet_write` puts on the wire. -/
def Transport.wire (outcome : Outcome) (ei : Transport) : Option Output :=
  let ei := if ei.obuf.isEmpty then (ei.admit_multicast outcome).1 else ei
  if outcome.paced ∨ ¬ outcome.sends then none else ei.obuf.head?

def Transport.emits (outcome : Outcome) (ei : Transport) : Event → List Datagram
  | .write => ((ei.wire outcome).bind Output.datagram).toList
  | _ => []

namespace Link
variable (link : Link)

def receiver_write (id : Nat) (receiver : Receiver) : Link := { link with receivers := Function.update link.receivers id receiver }

/-- The SEQUENCE part of `eigrp_hello_receive`. -/
def hello_receive (id : Nat) (listed : List Nat) (sequence : Sequence) : Link :=
  let cr_mode := id ∉ listed
  { link.receiver_write id { link.receivers id with cr_mode, cr_sequence := if cr_mode then sequence.1 else 0 } with
    heard := Function.update link.heard id (some (listed, sequence)) }

def packet_receive (id : Nat) (sequence : Sequence) (nbr : Option Nat) (cr : Bool) (content : Arrival) (limit_cleanup_pending : Bool) : Link :=
  let arrived := (link.receivers id).arrive limit_cleanup_pending (content.of sequence.1 nbr.isNone cr)
  if arrived.2 then
    { link.receiver_write id arrived.1 with
      sent := link.sent ++ [.ack id sequence]
      accepted := link.accepted ++ [{ nbr := id, sequence, multicast := nbr.isNone, cr, heard := link.heard id }] }
  else link.receiver_write id arrived.1

def step : LinkEvent → Link
  | .sender outcome event =>
    match event with
    | .ack _ _ => link
    | event => { link with ei := link.ei.step outcome event, sent := link.sent ++ link.ei.emits outcome event }
  | .lost datagram => { link with sent := link.sent.filter (· ≠ datagram) }
  | .hello id listed sequence => if .hello listed sequence ∈ link.sent then link.hello_receive id listed sequence else link
  | .receive id sequence nbr cr content limit_cleanup_pending =>
    if .packet sequence nbr cr ∈ link.sent ∧ (nbr = none ∨ nbr = some id) then
      link.packet_receive id sequence nbr cr content limit_cleanup_pending
    else link
  | .ack outcome id sequence => if .ack id sequence ∈ link.sent then { link with ei := link.ei.step outcome (.ack id sequence) } else link
  | .receiver id neighbor eligible => link.receiver_write id { link.receivers id with neighbor, eligible }
  | .receiver_down id => link.receiver_write id (link.receivers id).down

def run (events : List LinkEvent) : Link := events.foldl step link

end Link

/-! ## What is to be shown -/

/-- The number stands in no datagram and in no queue of the sender but at the front of its multicasts, and no receiver awaits it. -/
structure Link.Unused (link : Link) (sequence : Sequence) : Prop where
  sent : ∀ datagram ∈ link.sent, datagram.sequence ≠ sequence
  queued : ∀ nbr ∈ link.ei.nbrs, sequence ∉ nbr.sequences
  pending : ∀ packet ∈ link.ei.multicast_pending.tail, packet.sequence ≠ sequence
  awaited : ∀ id, (link.receivers id).cr_mode = true → (link.receivers id).cr_sequence ≠ sequence.1

/-- A receiver with an earlier packet outstanding. -/
def Peer.Behind (nbr : Peer) (packet : Multicast) : Prop :=
  nbr.eligible packet.multicast_epoch ∧ ∃ queued ∈ nbr.sequences, before queued packet.sequence

instance decidableBehind (nbr : Peer) (packet : Multicast) : Decidable (nbr.Behind packet) :=
  @instDecidableAnd _ _ inferInstance (@List.decidableBEx _ _ (fun _ => inferInstance) nbr.sequences)

/-- Where a receiver has an earlier packet outstanding, its oldest one is earlier. -/
def Transport.Fronted (ei : Transport) (packet : Multicast) : Prop :=
  ∀ nbr ∈ ei.nbrs, nbr.Behind packet → ∀ head ∈ nbr.sequences.head?, before head packet.sequence

instance decidableFronted (ei : Transport) (packet : Multicast) : Decidable (ei.Fronted packet) :=
  @List.decidableBAll _ _ (fun nbr => @instDecidableForall _ _ (decidableBehind nbr packet)
    (@Option.decidableForallMem _ _ (fun _ => inferInstance) nbr.sequences.head?)) ei.nbrs

/-- The event reserves the number for another packet. -/
def LinkEvent.reuses (sequence : Sequence) : LinkEvent → Bool
  | .sender _ (.enqueue _ other) => other == sequence
  | .sender _ (.send_init _ other) => other == sequence
  | .sender _ (.multicast other) => other == sequence
  | _ => false

/-- What the receivers make of a multicast that was admitted in `start`, behind further events: none with an earlier packet
    outstanding accepts it as a multicast; a conditional multicast is accepted only if the last SEQUENCE Hello announced it and
    did not list the receiver; a receiver that stays UP has accepted it or still has its copy in the queue, and no receiver
    rejects the unicast. -/
structure Received (start : Link) (packet : Multicast) (admitted : Link) (events : List LinkEvent) : Prop where
  in_order : ∀ nbr ∈ start.ei.nbrs, nbr.Behind packet → ∀ acceptance ∈ (admitted.run events).accepted.drop start.accepted.length,
    acceptance.nbr = nbr.id → acceptance.sequence = packet.sequence → acceptance.multicast = false
  announced : ∀ acceptance ∈ (admitted.run events).accepted, acceptance.multicast → acceptance.cr →
    ∃ listed, acceptance.heard = some (listed, acceptance.sequence) ∧ acceptance.nbr ∉ listed
  copied : ∀ nbr ∈ start.ei.nbrs, nbr.eligible packet.multicast_epoch → (∀ n, (admitted.run (events.take n)).ei.up nbr.id) →
    (∃ acceptance ∈ (admitted.run events).accepted.drop start.accepted.length, acceptance.nbr = nbr.id ∧ acceptance.sequence = packet.sequence) ∨
      ∃ peer ∈ (admitted.run events).ei.nbrs, peer.id = nbr.id ∧ packet.sequence ∈ peer.sequences
  unicast : ∀ id (content : Arrival) cr, ((admitted.run events).receivers id).conditional (content.of packet.sequence.1 false cr) ≠ none

/-! ## The receivers -/

theorem conditional_cr {receiver next : Receiver} {arrival : Arrival} (passed : receiver.conditional arrival = some next)
    (mode : next.cr_mode = true) : receiver.cr_mode = true ∧ next.cr_sequence = receiver.cr_sequence := by
  unfold Receiver.conditional at passed
  dsimp only at passed
  split_ifs at passed <;> cases passed
  all_goals
    first
      | exact ⟨mode,rfl⟩
      | cases mode

theorem gate_cr {receiver : Receiver} {full : Bool} {arrival : Arrival} (mode : (receiver.gate full arrival).1.cr_mode = true) :
    receiver.cr_mode = true ∧ (receiver.gate full arrival).1.cr_sequence = receiver.cr_sequence := by
  unfold Receiver.gate at *
  split
  · rename_i closed
    rw [if_pos closed] at mode
    exact ⟨mode,rfl⟩
  · rename_i opened
    rw [if_neg opened] at mode
    cases passed : receiver.conditional arrival with
    | none =>
      rw [passed] at mode
      exact ⟨mode,rfl⟩
    | some next =>
      rw [passed] at mode
      have kept : (next.ack_received arrival).cr_mode = next.cr_mode ∧ (next.ack_received arrival).cr_sequence = next.cr_sequence := by
        unfold Receiver.ack_received
        split <;> exact ⟨rfl,rfl⟩
      dsimp only at mode ⊢
      rw [kept.1] at mode
      rw [kept.2]
      exact conditional_cr passed mode

/-- A packet leaves the mode as it is, or clears it. -/
theorem arrive_cr {receiver : Receiver} {full : Bool} {arrival : Arrival} (mode : (receiver.arrive full arrival).1.cr_mode = true) :
    receiver.cr_mode = true ∧ (receiver.arrive full arrival).1.cr_sequence = receiver.cr_sequence := by
  unfold Receiver.arrive at *
  dsimp only at *
  split
  · rename_i stopped
    rw [if_pos stopped] at mode
    exact gate_cr mode
  · rename_i walked
    rw [if_neg walked] at mode
    have received : ((receiver.gate full arrival).1.received arrival).cr_mode = true →
        (receiver.gate full arrival).1.cr_mode = true ∧
          ((receiver.gate full arrival).1.received arrival).cr_sequence = (receiver.gate full arrival).1.cr_sequence := by
      unfold Receiver.received
      split
      · intro mode
        cases mode
      · split <;> exact fun mode => ⟨mode,rfl⟩
    obtain ⟨gated,same⟩ := received mode
    obtain ⟨mode,kept⟩ := gate_cr gated
    exact ⟨mode,same.trans kept⟩

/-- A conditional multicast is accepted in the mode only, and for the number of the mode. -/
theorem arrive_conditional {receiver : Receiver} {full : Bool} {arrival : Arrival} (accepted : (receiver.arrive full arrival).2 = true)
    (multicast : arrival.multicast = true) (cr : arrival.flags &&& cr_flag ≠ 0) :
    receiver.cr_mode = true ∧ (receiver.cr_sequence = 0 ∨ receiver.cr_sequence = arrival.sequence) := by
  have gated : (receiver.gate full arrival).2 = true := by
    unfold Receiver.arrive at accepted
    dsimp only at accepted
    split at accepted
    · exact accepted
    · rename_i walked
      simpa using (not_or.1 walked).1
  unfold Receiver.gate at gated
  split at gated
  · cases gated
  · cases passed : receiver.conditional arrival with
    | none =>
      rw [passed] at gated
      cases gated
    | some next =>
      unfold Receiver.conditional at passed
      dsimp only at passed
      have unconsumed : ¬ (¬ arrival.multicast = true ∧ receiver.cr_mode = true ∧ receiver.cr_sequence = arrival.sequence) := by
        simp [multicast]
      simp only [if_neg unconsumed,if_pos (And.intro multicast cr)] at passed
      split at passed
      · cases passed
      · rename_i awaits
        rw [not_or,not_and_or,not_not,not_not,not_not] at awaits
        exact awaits

theorem of_cr (content : Arrival) (sequence : UInt32) (multicast cr : Bool) :
    (content.of sequence multicast cr).flags &&& cr_flag ≠ 0 ↔ cr = true := by
  have cleared : (content.flags &&& ~~~ cr_flag) &&& cr_flag = 0 := by
    rw [UInt32.and_assoc]
    have nothing : ~~~ cr_flag &&& cr_flag = 0 := by decide
    rw [nothing,UInt32.and_zero]
  cases cr with
  | false => simp [Arrival.of,cleared]
  | true =>
    have set : (content.of sequence multicast true).flags &&& cr_flag = cr_flag := by
      simp only [Arrival.of,if_true]
      refine UInt32.toBitVec_inj.1 (BitVec.eq_of_getElem_eq fun index bound => ?_)
      simp
      exact fun flag => .inr flag
    simp only [set,iff_true]
    decide

/-! ## The sender -/

/-- An output that only one neighbor takes for more than a Hello. -/
def Output.Private : Output → Prop
  | .hello sequence_tlv => sequence_tlv = none
  | .packet _ nbr _ _ => nbr.isSome

/-- What the admission of a multicast hands to the output queue. -/
def Output.Announces (packet : Multicast) : Output → Prop
  | .hello sequence_tlv => ∃ listed, sequence_tlv = some (listed, packet.sequence)
  | .packet sequence _ _ _ => sequence = packet.sequence

/-- Every new output is private, or belongs to a multicast that was pending. -/
def Transport.Utters (ei next : Transport) : Prop :=
  ∀ output ∈ next.obuf, output ∈ ei.obuf ∨ output.Private ∨ ∃ packet ∈ ei.multicast_pending, output.Announces packet

theorem utters_of_subset {ei next : Transport} (fewer : next.obuf ⊆ ei.obuf) : ei.Utters next :=
  fun _ member => .inl (fewer member)

theorem utters_put {ei next : Transport} (before : ei.Utters next) (nbr : Peer) {outputs : List Output} (own : ∀ output ∈ outputs, output.Private) :
    ei.Utters (next.put nbr outputs) := by
  intro output member
  rcases List.mem_append.1 member with old | new
  · exact before output old
  · exact .inr (.inl (own output new))

theorem utters_resume {ei next : Transport} (before : ei.Utters next) : ei.Utters next.multicast_resume := by
  intro output member
  rw [multicast_resume_obuf] at member
  exact before output member

theorem send_reliably_private (outcome : Outcome) (pending : List Multicast) (nbr : Peer) :
    ∀ output ∈ (nbr.send_reliably outcome pending).2, output.Private := by
  unfold Peer.send_reliably
  split
  · simp
  · split_ifs <;> simp [Output.Private]

theorem unack_retrans_private {outcome : Outcome} {nbr next : Peer} {outputs : List Output}
    (fired : nbr.unack_retrans outcome = some (next, outputs)) : ∀ output ∈ outputs, output.Private := by
  unfold Peer.unack_retrans at fired
  split at fired
  · cases fired
    simp
  · split_ifs at fired <;> cases fired <;> simp [Output.Private]

theorem utters_enqueue (outcome : Outcome) (ei : Transport) (nbr : Peer) (sequence : Sequence) : ei.Utters (ei.enqueue outcome nbr sequence) := by
  have same : ei.Utters ei := utters_of_subset (List.Subset.refl _)
  unfold Transport.enqueue
  dsimp only
  split
  · exact utters_put same _ (send_reliably_private outcome _ _)
  · exact utters_put same _ (by simp)

theorem utters_delete (ei : Transport) (id : Nat) : ei.Utters (ei.delete id) :=
  utters_resume (utters_of_subset (List.filter_sublist.subset))

theorem utters_ack (outcome : Outcome) (ei : Transport) (nbr : Peer) (sequence : Sequence) : ei.Utters (ei.ack outcome nbr sequence) := by
  have same : ei.Utters ei := utters_of_subset (List.Subset.refl _)
  unfold Transport.ack
  split
  · exact same
  · rename_i head rest queue
    dsimp only
    split
    · exact same
    · have cancelled : ei.Utters (if head.retry_queued then ei.retry_cancel nbr.id sequence else ei) := by
        split
        · exact utters_of_subset List.filter_sublist.subset
        · exact same
      have acked := utters_resume (@utters_put ei _ cancelled { nbr with retrans_queue := rest } [] (by simp))
      split
      · intro output member
        exact acked output (by simpa [Transport.put] using member)
      · exact utters_put acked _ (send_reliably_private outcome _ _)

theorem utters_admit (outcome : Outcome) (ei : Transport) : ei.Utters (ei.admit_multicast outcome).1 := by
  have same : ei.Utters ei := utters_of_subset (List.Subset.refl _)
  unfold Transport.admit_multicast
  split
  · exact same
  · rcases queue : ei.multicast_pending with _ | ⟨packet,pending⟩
    · exact same
    · have first : packet ∈ ei.multicast_pending := by simp [queue]
      dsimp only
      split_ifs
      · exact same
      · exact utters_resume same
      · exact same
      · exact same
      · exact same
      all_goals
        intro output member
        rcases List.mem_append.1 member with front | last
        · rcases List.mem_append.1 front with old | hello
          · exact .inl old
          · first
              | exact absurd hello List.not_mem_nil
              | rw [List.mem_singleton.1 hello]
                exact .inr (.inr ⟨packet,first,_,rfl⟩)
        · rw [List.mem_singleton.1 last]
          exact .inr (.inr ⟨packet,first,rfl⟩)

theorem utters_write (outcome : Outcome) (ei : Transport) : ei.Utters (ei.write outcome) := by
  have admitted : ei.Utters (if ei.obuf.isEmpty then (ei.admit_multicast outcome).1 else ei) := by
    split
    · exact utters_admit outcome ei
    · exact utters_of_subset (List.Subset.refl _)
  unfold Transport.write
  dsimp only
  generalize (if ei.obuf.isEmpty then (ei.admit_multicast outcome).1 else ei) = ready at admitted ⊢
  split
  · exact admitted
  · rename_i packet obuf queue
    split
    · exact admitted
    · exact fun output member => admitted output (queue ▸ List.mem_cons_of_mem _ member)

theorem utters_step (outcome : Outcome) (ei : Transport) (event : Event) : ei.Utters (ei.step outcome event) := by
  have same : ei.Utters ei := utters_of_subset (List.Subset.refl _)
  cases event with
  | create id =>
    simp only [Transport.step]
    split <;> exact same
  | pending id =>
    simp only [Transport.step]
    cases found : ei.nbr id with
    | none => exact same
    | some nbr =>
      dsimp only
      split
      · exact utters_put same _ (by simp)
      · exact same
  | enqueue id sequence =>
    simp only [Transport.step]
    cases found : ei.nbr id with
    | none => exact same
    | some nbr => exact utters_enqueue outcome ei nbr sequence
  | send_init id sequence =>
    simp only [Transport.step]
    cases found : ei.nbr id with
    | none => exact same
    | some nbr => exact utters_enqueue outcome ei _ sequence
  | multicast sequence => exact utters_resume (utters_of_subset (List.Subset.refl _))
  | hello =>
    intro output member
    rcases List.mem_cons.1 member with rfl | old
    · exact .inr (.inl rfl)
    · exact .inl old
  | write => exact utters_write outcome ei
  | ack id sequence =>
    simp only [Transport.step]
    cases found : ei.nbr id with
    | none => exact same
    | some nbr => exact utters_ack outcome ei nbr sequence
  | retrans_timer id position =>
    simp only [Transport.step]
    cases found : ei.nbr id with
    | none => exact same
    | some nbr =>
      dsimp only [Option.elim]
      split
      · unfold Transport.retrans_timer
        dsimp only
        split
        · exact utters_delete ei nbr.id
        · rename_i fired
          exact utters_put same _ (unack_retrans_private fired)
      · exact same
  | multicast_retry => exact utters_resume (utters_of_subset (List.Subset.refl _))
  | reset id =>
    simp only [Transport.step]
    cases found : ei.nbr id with
    | none => exact same
    | some nbr => exact utters_resume (utters_put same _ (by simp))
  | down id =>
    simp only [Transport.step]
    cases found : ei.nbr id with
    | none => exact same
    | some nbr => exact utters_resume (utters_put (utters_of_subset List.filter_sublist.subset) _ (by simp))
  | delete id => exact utters_delete ei id
  | intf_down => exact fun output member => by simp [Transport.step] at member

/-- What a step puts on the wire. -/
theorem emits_utters {outcome : Outcome} {ei : Transport} {event : Event} {datagram : Datagram} (sent : datagram ∈ ei.emits outcome event) :
    ∃ output, output.datagram = some datagram ∧
      (output ∈ ei.obuf ∨ output.Private ∨ ∃ packet ∈ ei.multicast_pending, output.Announces packet) := by
  have admitted : ei.Utters (if ei.obuf.isEmpty then (ei.admit_multicast outcome).1 else ei) := by
    split
    · exact utters_admit outcome ei
    · exact utters_of_subset (List.Subset.refl _)
  cases event with
  | write =>
    obtain ⟨output,wire,same⟩ := Option.bind_eq_some_iff.1 (Option.mem_toList.1 sent)
    refine ⟨output,same,admitted output ?_⟩
    unfold Transport.wire at wire
    dsimp only at wire
    split at wire
    · cases wire
    · exact List.mem_of_mem_head? wire
  | _ => simp [Transport.emits] at sent

theorem step_pending {outcome : Outcome} {ei : Transport} {event : Event} {packet : Multicast}
    (member : packet ∈ (ei.step outcome event).multicast_pending) : packet ∈ ei.multicast_pending ∨ event = .multicast packet.sequence := by
  rcases step_cases outcome ei event with ⟨sequence,rfl⟩ | keeps | ⟨_,rises⟩
  · have appended : packet ∈ ei.multicast_pending ++ [Multicast.mk sequence ei.multicast_epoch false] := by
      simpa only [Transport.step,multicast_resume_pending] using member
    rcases List.mem_append.1 appended with old | new
    · exact .inl old
    · rw [List.mem_singleton.1 new]
      exact .inr rfl
  · exact .inl (keeps.pending.subset member)
  · exact .inl (rises.pending.subset member)

/-- A packet with the number is in the queue of the neighbor. -/
def Transport.Keeping (ei : Transport) (id : Nat) (sequence : Sequence) : Prop := ∃ nbr ∈ ei.nbrs, nbr.id = id ∧ sequence ∈ nbr.sequences

section Keeping
variable {ei : Transport} {id : Nat} {sequence : Sequence}

theorem keeping_resume (keeping : ei.Keeping id sequence) : ei.multicast_resume.Keeping id sequence := by
  obtain ⟨nbr,member,its⟩ := keeping
  exact ⟨nbr,(multicast_resume_nbrs ei).symm ▸ member,its⟩

theorem keeping_put (keeping : ei.Keeping id sequence) {nbr : Peer} (outputs : List Output) (own : nbr.id = id → sequence ∈ nbr.sequences) :
    (ei.put nbr outputs).Keeping id sequence := by
  obtain ⟨old,member,rfl,queued⟩ := keeping
  by_cases same : old.id = nbr.id
  · exact ⟨nbr,List.mem_map.2 ⟨old,member,if_pos same⟩,same.symm,own same.symm⟩
  · exact ⟨old,List.mem_map.2 ⟨old,member,if_neg same⟩,rfl,queued⟩

theorem keeping_map (keeping : ei.Keeping id sequence) {next : Transport} {change : Peer → Peer} (nbrs : next.nbrs = ei.nbrs.map change)
    (same : ∀ nbr, (change nbr).id = nbr.id ∧ nbr.sequences ⊆ (change nbr).sequences) : next.Keeping id sequence := by
  obtain ⟨nbr,member,its,queued⟩ := keeping
  exact ⟨change nbr,nbrs ▸ List.mem_map_of_mem member,(same nbr).1.trans its,(same nbr).2 queued⟩

/-- The queue that a lookup finds is the one. -/
theorem keeping_found (ids : (ei.nbrs.map (·.id)).Nodup) (keeping : ei.Keeping id sequence) {other : Nat} {nbr : Peer}
    (found : ei.nbr other = some nbr) (same : nbr.id = id) : sequence ∈ nbr.sequences := by
  obtain ⟨old,member,its,queued⟩ := keeping
  rw [List.inj_on_of_nodup_map ids (nbr_mem found).1 member (same.trans its.symm)]
  exact queued

theorem up_put {nbr : Peer} {outputs : List Output} (up : (ei.put nbr outputs).up nbr.id = true) : nbr.state = .up := by
  obtain ⟨other,member,its⟩ := List.any_eq_true.1 up
  simp only [Bool.and_eq_true,beq_iff_eq] at its
  rcases mem_put member with ⟨rfl,_⟩ | ⟨_,different⟩
  · exact its.2
  · exact absurd its.1 different

theorem up_resume (ei : Transport) (id : Nat) : ei.multicast_resume.up id = ei.up id := by
  rw [Transport.up,Transport.up,multicast_resume_nbrs]

theorem up_delete (ei : Transport) (id : Nat) : (ei.delete id).up id = false := by
  rw [Transport.delete,up_resume,Bool.eq_false_iff]
  intro up
  obtain ⟨nbr,member,its⟩ := List.any_eq_true.1 up
  simp only [Bool.and_eq_true,beq_iff_eq] at its
  exact absurd its.1 (by simpa using (List.mem_filter.1 member).2)

theorem keeping_delete (keeping : ei.Keeping id sequence) {other : Nat} (different : other ≠ id) : (ei.delete other).Keeping id sequence := by
  obtain ⟨nbr,member,rfl,queued⟩ := keeping
  refine keeping_resume ⟨nbr,List.mem_filter.2 ⟨member,?_⟩,rfl,queued⟩
  simpa using different.symm

theorem keeping_down (keeping : ei.Keeping id sequence) {nbr : Peer} (outputs : List Output) (up : (ei.put nbr.down outputs).up id = true) :
    (ei.put nbr.down outputs).Keeping id sequence := by
  refine keeping_put keeping outputs fun same => ?_
  have state := up_put (same.symm ▸ up : (ei.put nbr.down outputs).up nbr.down.id = true)
  cases state

theorem keeping_enqueue (ids : (ei.nbrs.map (·.id)).Nodup) (keeping : ei.Keeping id sequence) {other : Nat} {nbr next : Peer}
    (found : ei.nbr other = some nbr) (same : next.id = nbr.id) (queue : next.sequences = nbr.sequences) (outcome : Outcome) (new : Sequence) :
    (ei.enqueue outcome next new).Keeping id sequence := by
  have own : next.id = id → sequence ∈ Peer.sequences { next with retrans_queue := next.retrans_queue ++ [{ sequence := new }] } := by
    intro its
    have queued := keeping_found ids keeping found (same.symm.trans its)
    rw [← queue] at queued
    simpa [Peer.sequences] using .inl (List.mem_map.1 queued)
  unfold Transport.enqueue
  dsimp only
  split
  · have sent := send_reliably_same outcome ei.multicast_pending { next with retrans_queue := next.retrans_queue ++ [{ sequence := new }] }
    refine keeping_put keeping _ fun its => ?_
    rw [send_reliably_sequences]
    exact own (sent.1.symm.trans its)
  · exact keeping_put keeping _ own

theorem keeping_ack (ids : (ei.nbrs.map (·.id)).Nodup) (keeping : ei.Keeping id sequence) {other : Nat} {nbr : Peer}
    (found : ei.nbr other = some nbr) (outcome : Outcome) {acked : Sequence} (different : ¬ (nbr.id = id ∧ acked = sequence)) :
    (ei.ack outcome nbr acked).Keeping id sequence := by
  unfold Transport.ack
  rcases queue : nbr.retrans_queue with _ | ⟨head,rest⟩
  · exact keeping
  · dsimp only
    by_cases foreign : head.sequence ≠ acked
    · rw [if_pos foreign]
      exact keeping
    · rw [if_neg foreign]
      have own : nbr.id = id → sequence ∈ Peer.sequences { nbr with retrans_queue := rest } := by
        intro its
        have queued := keeping_found ids keeping found its
        simp only [Peer.sequences,queue,List.map_cons,List.mem_cons] at queued
        rcases queued with same | behind
        · exact absurd ⟨its,(not_not.1 foreign).symm.trans same.symm⟩ different
        · exact behind
      have cancelled : (if head.retry_queued then ei.retry_cancel nbr.id acked else ei).Keeping id sequence := by
        split <;> exact keeping
      have dequeued := keeping_resume (@keeping_put _ _ _ cancelled { nbr with retrans_queue := rest } [] own)
      split
      · obtain ⟨peer,member,its,queued⟩ := dequeued
        exact keeping_put ⟨peer,member,its,queued⟩ [] own
      · refine keeping_put dequeued _ fun its => ?_
        rw [send_reliably_sequences]
        rw [(send_reliably_same outcome _ _).1] at its
        exact own its

theorem keeping_admit (keeping : ei.Keeping id sequence) (outcome : Outcome) : (ei.admit_multicast outcome).1.Keeping id sequence := by
  rcases queue : ei.multicast_pending with _ | ⟨packet,pending⟩
  · have same : (ei.admit_multicast outcome).1 = ei := by
      unfold Transport.admit_multicast
      split
      · rfl
      · simp [queue]
    rw [same]
    exact keeping
  · rcases admit_multicast_cases outcome queue with ⟨_,_,cr,nbrs⟩ | ⟨_,nbrs,_⟩
    · refine keeping_map keeping nbrs fun nbr => ?_
      split
      · refine ⟨rfl,fun other queued => ?_⟩
        have inserted : Peer.sequences { nbr with retrans_queue := ordered_enqueue nbr.retrans_queue { sequence := packet.sequence, cr } } =
            nbr.sequences.takeWhile (before · packet.sequence) ++ packet.sequence :: nbr.sequences.dropWhile (before · packet.sequence) :=
          ordered_enqueue_sequences _ _
        rw [inserted]
        rw [← @List.takeWhile_append_dropWhile _ (before · packet.sequence) nbr.sequences] at queued
        exact List.mem_append.2 ((List.mem_append.1 queued).imp_right (List.mem_cons_of_mem _))
      · exact ⟨rfl,List.Subset.refl _⟩
    · obtain ⟨nbr,member,its⟩ := keeping
      exact ⟨nbr,nbrs ▸ member,its⟩

theorem keeping_write (keeping : ei.Keeping id sequence) (outcome : Outcome) : (ei.write outcome).Keeping id sequence := by
  have admitted : (if ei.obuf.isEmpty then (ei.admit_multicast outcome).1 else ei).Keeping id sequence := by
    split
    · exact keeping_admit keeping outcome
    · exact keeping
  unfold Transport.write
  dsimp only
  generalize (if ei.obuf.isEmpty then (ei.admit_multicast outcome).1 else ei) = ready at admitted ⊢
  split
  · exact admitted
  · split
    · exact admitted
    · refine keeping_map admitted rfl fun nbr => ⟨(wire_sent_same outcome _ nbr).1,?_⟩
      rw [wire_sent_sequences]
      exact List.Subset.refl _

theorem keeping_retrans_timer (ids : (ei.nbrs.map (·.id)).Nodup) (keeping : ei.Keeping id sequence) {other : Nat} {nbr : Peer}
    (found : ei.nbr other = some nbr) (outcome : Outcome) (position : Nat) (up : (ei.retrans_timer outcome nbr position).up id = true) :
    (ei.retrans_timer outcome nbr position).Keeping id sequence := by
  have fired : Peer.sequences { nbr with retrans_queue := nbr.retrans_queue.modify position fun packet => { packet with timer := false } } =
      nbr.sequences := timer_modify_sequences nbr.retrans_queue position
  unfold Transport.retrans_timer at *
  dsimp only at *
  generalize ready : { nbr with retrans_queue := nbr.retrans_queue.modify position fun packet => { packet with timer := false } } = next at fired up ⊢
  have same : next.id = nbr.id := by rw [← ready]
  split
  · rename_i limit
    rw [limit] at up
    refine keeping_delete keeping fun its => ?_
    subst its
    simp [up_delete] at up
  · rename_i last outputs retried
    have kept : last.id = next.id ∧ last.sequences = next.sequences := by
      unfold Peer.unack_retrans at retried
      split at retried
      · cases retried
        exact ⟨rfl,rfl⟩
      · rename_i head rest queue
        split_ifs at retried <;> cases retried <;> simp [Peer.sequences,queue,Peer.timer_start]
    refine keeping_put keeping outputs fun its => ?_
    rw [kept.2,fired]
    exact keeping_found ids keeping found (same.symm.trans (kept.1.symm.trans its))

/-- A packet stays in the queue of a neighbor that stays UP until its ACK. -/
theorem keeping_step (ids : (ei.nbrs.map (·.id)).Nodup) (keeping : ei.Keeping id sequence) (outcome : Outcome) {event : Event}
    (up : (ei.step outcome event).up id = true) : (ei.step outcome event).Keeping id sequence ∨ event = .ack id sequence := by
  cases event with
  | create other =>
    refine .inl ?_
    simp only [Transport.step]
    split
    · exact keeping
    · obtain ⟨nbr,member,its⟩ := keeping
      exact ⟨nbr,List.mem_append_left _ member,its⟩
  | pending other =>
    refine .inl ?_
    simp only [Transport.step]
    cases found : ei.nbr other with
    | none => exact keeping
    | some nbr =>
      dsimp only
      split
      · have own : nbr.id = id → sequence ∈ nbr.sequences := keeping_found ids keeping found
        exact keeping_put keeping _ own
      · exact keeping
  | enqueue other new =>
    refine .inl ?_
    simp only [Transport.step]
    cases found : ei.nbr other with
    | none => exact keeping
    | some nbr => exact keeping_enqueue ids keeping found rfl rfl outcome new
  | send_init other new =>
    refine .inl ?_
    simp only [Transport.step]
    cases found : ei.nbr other with
    | none => exact keeping
    | some nbr =>
      exact @keeping_enqueue ei id sequence ids keeping other nbr { nbr with init_sequence_number := some new } found rfl rfl outcome new
  | multicast new => exact .inl (keeping_resume keeping)
  | hello => exact .inl keeping
  | write => exact .inl (keeping_write keeping outcome)
  | ack other acked =>
    simp only [Transport.step]
    cases found : ei.nbr other with
    | none => exact .inl keeping
    | some nbr =>
      by_cases own : nbr.id = id ∧ acked = sequence
      · rw [← own.1,own.2,(nbr_mem found).2]
        exact .inr rfl
      · exact .inl (keeping_ack ids keeping found outcome own)
  | retrans_timer other position =>
    refine .inl ?_
    simp only [Transport.step] at *
    cases found : ei.nbr other with
    | none => exact keeping
    | some nbr =>
      rw [found] at up
      dsimp only [Option.elim] at *
      split
      · rename_i armed
        rw [if_pos armed] at up
        exact keeping_retrans_timer ids keeping found outcome position up
      · exact keeping
  | multicast_retry => exact .inl (keeping_resume keeping)
  | reset other =>
    refine .inl ?_
    simp only [Transport.step] at *
    cases found : ei.nbr other with
    | none => exact keeping
    | some nbr =>
      rw [found] at up
      exact keeping_resume (keeping_down keeping [] ((up_resume _ _).symm.trans up))
  | down other =>
    refine .inl ?_
    simp only [Transport.step] at *
    cases found : ei.nbr other with
    | none => exact keeping
    | some nbr =>
      rw [found] at up
      exact keeping_resume (@keeping_down (ei.output_clear other) _ _ keeping nbr [] ((up_resume _ _).symm.trans up))
  | delete other =>
    refine .inl (keeping_delete keeping fun its => ?_)
    subst its
    simp [Transport.step,up_delete] at up
  | intf_down => simp [Transport.step,Transport.up] at up

end Keeping

theorem step_ids (ei : Transport) (outcome : Outcome) (event : Event) (ids : (ei.nbrs.map (·.id)).Nodup) :
    ((ei.step outcome event).nbrs.map (·.id)).Nodup := by
  rcases step_cases outcome ei event with ⟨sequence,rfl⟩ | keeps | ⟨_,rises⟩
  · simpa only [Transport.step,multicast_resume_nbrs] using ids
  · exact keeps.ids ids
  · exact rises.ids ids

/-! ## The link -/

/-- A receiver in the mode awaits what the last SEQUENCE Hello announced, and was not listed in it. -/
structure Link.Sane (link : Link) : Prop where
  ids : (link.ei.nbrs.map (·.id)).Nodup
  awaiting : ∀ id, (link.receivers id).cr_mode = true →
    ∃ listed sequence, link.heard id = some (listed, sequence) ∧ (link.receivers id).cr_sequence = sequence.1 ∧ id ∉ listed
  announced : ∀ acceptance ∈ link.accepted, acceptance.multicast → acceptance.cr →
    ∃ listed, acceptance.heard = some (listed, acceptance.sequence) ∧ acceptance.nbr ∉ listed

/-- A receiver changes and awaits what it has awaited, or nothing. -/
theorem sane_receiver_write {link : Link} (sane : link.Sane) {id : Nat} {receiver : Receiver}
    (mode : receiver.cr_mode = true → (link.receivers id).cr_mode = true ∧ receiver.cr_sequence = (link.receivers id).cr_sequence) :
    (link.receiver_write id receiver).Sane := by
  refine ⟨sane.ids,?_,sane.announced⟩
  intro other armed
  by_cases same : other = id
  · subst same
    simp only [Link.receiver_write,Function.update_self] at armed ⊢
    obtain ⟨before_mode,unchanged⟩ := mode armed
    rw [unchanged]
    exact sane.awaiting other before_mode
  · simp only [Link.receiver_write,Function.update_of_ne same] at armed ⊢
    exact sane.awaiting other armed

/-- A conditional multicast is accepted where it was announced. -/
theorem accepts_announced {link : Link} (sane : link.Sane) {id : Nat} {sequence : Sequence} {content : Arrival} {full : Bool}
    (accepted : ((link.receivers id).arrive full (content.of sequence.1 true true)).2 = true) :
    (link.receivers id).cr_sequence = sequence.1 ∧ (link.receivers id).cr_mode = true ∧
      ∃ listed, link.heard id = some (listed, sequence) ∧ id ∉ listed := by
  obtain ⟨mode,awaited⟩ := arrive_conditional accepted rfl ((of_cr content sequence.1 true true).2 rfl)
  obtain ⟨listed,announced,heard,same,unlisted⟩ := sane.awaiting id mode
  have its : (link.receivers id).cr_sequence = sequence.1 := by
    refine awaited.resolve_left fun zero => announced.2 ?_
    rw [← same,zero]
  have number : announced = sequence := Subtype.ext (same.symm.trans its)
  exact ⟨its,mode,listed,number ▸ heard,unlisted⟩

theorem sane_step {link : Link} (sane : link.Sane) (event : LinkEvent) : (link.step event).Sane := by
  cases event with
  | sender outcome event =>
    unfold Link.step
    cases event with
    | ack id sequence => exact sane
    | _ => exact ⟨step_ids link.ei outcome _ sane.ids,sane.awaiting,sane.announced⟩
  | lost datagram => exact ⟨sane.ids,sane.awaiting,sane.announced⟩
  | hello id listed sequence =>
    simp only [Link.step]
    split
    · refine ⟨sane.ids,?_,sane.announced⟩
      intro other armed
      by_cases same : other = id
      · subst same
        simp only [Link.hello_receive,Link.receiver_write,Function.update_self,decide_eq_true_eq] at armed ⊢
        exact ⟨listed,sequence,rfl,by simp [armed],armed⟩
      · simp only [Link.hello_receive,Link.receiver_write,Function.update_of_ne same] at armed ⊢
        exact sane.awaiting other armed
    · exact sane
  | receive id sequence nbr cr content full =>
    simp only [Link.step]
    split
    · unfold Link.packet_receive
      dsimp only
      have written := @sane_receiver_write link sane id _ (@arrive_cr (link.receivers id) full (content.of sequence.1 nbr.isNone cr))
      split
      · rename_i accepted
        refine ⟨written.ids,written.awaiting,?_⟩
        intro acceptance member multicast conditional
        rcases List.mem_append.1 member with old | new
        · exact sane.announced acceptance old multicast conditional
        · rw [List.mem_singleton.1 new] at multicast conditional ⊢
          dsimp only at multicast conditional ⊢
          rw [multicast,conditional] at accepted
          obtain ⟨_,_,listed,heard,unlisted⟩ := accepts_announced sane accepted
          exact ⟨listed,heard,unlisted⟩
      · exact written
    · exact sane
  | ack outcome id sequence =>
    simp only [Link.step]
    split
    · exact ⟨step_ids link.ei outcome _ sane.ids,sane.awaiting,sane.announced⟩
    · exact sane
  | receiver id neighbor eligible => exact sane_receiver_write sane fun mode => ⟨mode,rfl⟩
  | receiver_down id => exact sane_receiver_write sane fun mode => by cases mode

theorem sane_run {link : Link} (sane : link.Sane) (events : List LinkEvent) : (link.run events).Sane := by
  induction events generalizing link with
  | nil => exact sane
  | cons event events ih => exact ih (sane_step sane event)

theorem sane_start : Link.Sane {} := ⟨List.nodup_nil,by simp,by simp⟩

/-! ## Behind the admission -/

/-- One list of neighbors goes with the number wherever it has been announced, and nobody on it awaits the number. -/
structure Link.Follows (base : Nat) (sequence : Sequence) (listed : List Nat) (link : Link) : Prop where
  hellos : ∀ other, .hello other sequence ∈ link.sent ∨ .hello (some (other, sequence)) ∈ link.ei.obuf → other = listed
  multicasts : ∀ cr, (.packet sequence none cr ∈ link.sent ∨ ∃ retransmission, .packet sequence none retransmission cr ∈ link.ei.obuf) →
    listed ≠ [] → cr = true
  pending : ∀ packet ∈ link.ei.multicast_pending, packet.sequence ≠ sequence
  awaited : ∀ id, (link.receivers id).cr_mode = true → (link.receivers id).cr_sequence = sequence.1 → id ∉ listed
  accepted : ∀ acceptance ∈ link.accepted.drop base, acceptance.sequence = sequence → acceptance.multicast → acceptance.nbr ∉ listed
  acks : ∀ id, .ack id sequence ∈ link.sent → ∃ acceptance ∈ link.accepted.drop base, acceptance.nbr = id ∧ acceptance.sequence = sequence
  base : base ≤ link.accepted.length

section Following
variable {base : Nat} {sequence : Sequence} {listed : List Nat} {link : Link}

/-- The sender takes a step; nothing new is said about the number. -/
theorem follows_sender (follows : link.Follows base sequence listed) (outcome : Outcome) {event : Event}
    (other : ∀ number, event = .multicast number → number ≠ sequence) {sent : List Datagram} (emitted : sent ⊆ link.ei.emits outcome event) :
    Link.Follows base sequence listed { link with ei := link.ei.step outcome event, sent := link.sent ++ sent } := by
  have unheard {output : Output} (uttered : output.Private ∨ ∃ packet ∈ link.ei.multicast_pending, output.Announces packet) :
      (∀ other, output ≠ .hello (some (other, sequence))) ∧ ∀ retransmission cr, output ≠ .packet sequence none retransmission cr := by
    constructor
    · rintro other rfl
      rcases uttered with own | ⟨packet,waits,said⟩
      · cases own
      · obtain ⟨_,same⟩ := said
        cases same
        exact follows.pending packet waits rfl
    · rintro retransmission cr rfl
      rcases uttered with own | ⟨packet,waits,said⟩
      · cases own
      · exact follows.pending packet waits said.symm
  have wired {datagram : Datagram} (member : datagram ∈ sent) : ∃ output, output.datagram = some datagram ∧
      (output ∈ link.ei.obuf ∨ output.Private ∨ ∃ packet ∈ link.ei.multicast_pending, output.Announces packet) :=
    emits_utters (emitted member)
  refine ⟨?_,?_,?_,follows.awaited,follows.accepted,?_,follows.base⟩
  · intro other said
    rcases said with said | said
    · rcases List.mem_append.1 said with old | new
      · exact follows.hellos other (.inl old)
      · obtain ⟨output,same,queued | uttered⟩ := wired new
        · cases output with
          | packet => cases same
          | hello sequence_tlv =>
            obtain ⟨tlv,rfl,equal⟩ := Option.map_eq_some_iff.1 same
            cases equal
            exact follows.hellos _ (.inr queued)
        · cases output with
          | packet => cases same
          | hello sequence_tlv =>
            obtain ⟨tlv,rfl,equal⟩ := Option.map_eq_some_iff.1 same
            cases equal
            exact absurd rfl ((unheard uttered).1 _)
    · rcases utters_step outcome link.ei event _ said with old | uttered
      · exact follows.hellos other (.inr old)
      · exact absurd rfl ((unheard uttered).1 other)
  · intro cr said
    rcases said with said | ⟨retransmission,said⟩
    · rcases List.mem_append.1 said with old | new
      · exact follows.multicasts cr (.inl old)
      · obtain ⟨output,same,queued | uttered⟩ := wired new
        · cases output with
          | hello sequence_tlv =>
            obtain ⟨_,_,equal⟩ := Option.map_eq_some_iff.1 same
            cases equal
          | packet =>
            cases same
            exact follows.multicasts _ (.inr ⟨_,queued⟩)
        · cases output with
          | hello sequence_tlv =>
            obtain ⟨_,_,equal⟩ := Option.map_eq_some_iff.1 same
            cases equal
          | packet =>
            cases same
            exact absurd rfl ((unheard uttered).2 _ _)
    · rcases utters_step outcome link.ei event _ said with old | uttered
      · exact follows.multicasts cr (.inr ⟨retransmission,old⟩)
      · exact absurd rfl ((unheard uttered).2 _ _)
  · intro packet member same
    rcases step_pending member with old | new
    · exact follows.pending packet old same
    · exact other packet.sequence new same
  · intro id member
    rcases List.mem_append.1 member with old | new
    · exact follows.acks id old
    · obtain ⟨output,same,_⟩ := wired new
      cases output with
      | packet => cases same
      | hello sequence_tlv =>
        obtain ⟨_,_,equal⟩ := Option.map_eq_some_iff.1 same
        cases equal

theorem follows_receiver_write (follows : link.Follows base sequence listed) {id : Nat} {receiver : Receiver}
    (mode : receiver.cr_mode = true → receiver.cr_sequence = sequence.1 → id ∉ listed) :
    (link.receiver_write id receiver).Follows base sequence listed := by
  refine ⟨follows.hellos,follows.multicasts,follows.pending,?_,follows.accepted,follows.acks,follows.base⟩
  intro other armed same
  by_cases its : other = id
  · subst its
    simp only [Link.receiver_write,Function.update_self] at armed same
    exact mode armed same
  · simp only [Link.receiver_write,Function.update_of_ne its] at armed same
    exact follows.awaited other armed same

theorem drop_snoc {α : Type} {items : List α} {base : Nat} (within : base ≤ items.length) (item : α) :
    (items ++ [item]).drop base = items.drop base ++ [item] := List.drop_append_of_le_length within

theorem follows_packet_receive (sane : link.Sane) (follows : link.Follows base sequence listed) {id : Nat} {number : Sequence} {nbr : Option Nat} {cr : Bool}
    (sent : .packet number nbr cr ∈ link.sent) (content : Arrival) (full : Bool) :
    (link.packet_receive id number nbr cr content full).Follows base sequence listed := by
  have written : (link.receiver_write id ((link.receivers id).arrive full (content.of number.1 nbr.isNone cr)).1).Follows base sequence listed := by
    refine follows_receiver_write follows fun mode same => ?_
    obtain ⟨before_mode,unchanged⟩ := arrive_cr mode
    exact follows.awaited id before_mode (unchanged ▸ same)
  unfold Link.packet_receive
  dsimp only
  split
  · rename_i accepted
    have logged := drop_snoc follows.base (Acceptance.mk id number nbr.isNone cr (link.heard id))
    refine ⟨?_,?_,written.pending,written.awaited,?_,?_,?_⟩
    · intro other said
      refine written.hellos other (said.imp_left fun member => ?_)
      rcases List.mem_append.1 member with old | new
      · exact old
      · simp at new
    · intro conditional said
      refine written.multicasts conditional (said.imp_left fun member => ?_)
      rcases List.mem_append.1 member with old | new
      · exact old
      · simp at new
    · intro acceptance member same multicast
      dsimp only at member
      rw [logged] at member
      rcases List.mem_append.1 member with old | new
      · exact follows.accepted acceptance old same multicast
      · rw [List.mem_singleton.1 new] at same multicast ⊢
        dsimp only at same multicast ⊢
        subst same
        rw [Option.isNone_iff_eq_none] at multicast
        subst multicast
        intro inside
        -- somebody is listed, so that the multicast is conditional and the receiver awaits it
        have conditional : cr = true := follows.multicasts cr (.inl sent) (List.ne_nil_of_mem inside)
        subst conditional
        obtain ⟨its,mode,_⟩ := accepts_announced sane accepted
        exact follows.awaited id mode its inside
    · intro other member
      dsimp only
      rw [logged]
      rcases List.mem_append.1 member with old | new
      · obtain ⟨acceptance,inside,its⟩ := follows.acks other old
        exact ⟨acceptance,List.mem_append_left _ inside,its⟩
      · obtain ⟨rfl,rfl⟩ : other = id ∧ sequence = number := by simpa using new
        exact ⟨_,List.mem_append_right _ (List.mem_singleton.2 rfl),rfl,rfl⟩
    · dsimp only
      rw [List.length_append]
      exact Nat.le_add_right_of_le follows.base
  · exact written

theorem follows_step (sane : link.Sane) (follows : link.Follows base sequence listed) {event : LinkEvent} (other : event.reuses sequence = false) :
    (link.step event).Follows base sequence listed := by
  cases event with
  | sender outcome event =>
    unfold Link.step
    cases event with
    | ack id number => exact follows
    | multicast number =>
      refine follows_sender follows outcome ?_ (List.Subset.refl _)
      rintro _ ⟨⟩ same
      simp [LinkEvent.reuses,same] at other
    | _ => exact follows_sender follows outcome (fun number same => by cases same) (List.Subset.refl _)
  | lost datagram =>
    refine ⟨?_,?_,follows.pending,follows.awaited,follows.accepted,?_,follows.base⟩
    · exact fun other said => follows.hellos other (said.imp_left fun member => (List.mem_filter.1 member).1)
    · exact fun cr said => follows.multicasts cr (said.imp_left fun member => (List.mem_filter.1 member).1)
    · exact fun id member => follows.acks id (List.mem_filter.1 member).1
  | hello id names number =>
    simp only [Link.step]
    split
    · rename_i sent
      have written := @follows_receiver_write base sequence listed link follows id
        { link.receivers id with cr_mode := id ∉ names, cr_sequence := if id ∉ names then number.1 else 0 } ?_
      · exact ⟨written.hellos,written.multicasts,written.pending,written.awaited,written.accepted,written.acks,written.base⟩
      · intro mode same
        dsimp only at mode same
        rw [decide_eq_true_eq] at mode
        rw [if_pos mode] at same
        have number_same : number = sequence := Subtype.ext same
        subst number_same
        rw [← follows.hellos names (.inl sent)]
        exact mode
    · exact follows
  | receive id number nbr cr content full =>
    simp only [Link.step]
    split
    · rename_i arrives
      exact follows_packet_receive sane follows arrives.1 content full
    · exact follows
  | ack outcome id number =>
    simp only [Link.step]
    split
    · have moved := @follows_sender base sequence listed link follows outcome (.ack id number) (fun _ same => by cases same) [] (by simp)
      rw [List.append_nil] at moved
      exact moved
    · exact follows
  | receiver id neighbor eligible => exact follows_receiver_write follows fun mode same => follows.awaited id mode same
  | receiver_down id => exact follows_receiver_write follows fun mode _ => by cases mode

/-- The receiver has accepted the packet since, or has its copy in the queue. -/
def Link.Holds (base : Nat) (sequence : Sequence) (id : Nat) (link : Link) : Prop :=
  (∃ acceptance ∈ link.accepted.drop base, acceptance.nbr = id ∧ acceptance.sequence = sequence) ∨ link.ei.Keeping id sequence

theorem holds_step (sane : link.Sane) (follows : link.Follows base sequence listed) {id : Nat} (holds : link.Holds base sequence id)
    {event : LinkEvent} (up : (link.step event).ei.up id = true) : (link.step event).Holds base sequence id := by
  have kept (same : (link.step event).accepted = link.accepted) (keeping : link.ei.Keeping id sequence → (link.step event).ei.Keeping id sequence) :
      (link.step event).Holds base sequence id := by
    rcases holds with ⟨acceptance,inside,its⟩ | queued
    · exact .inl ⟨acceptance,same.symm ▸ inside,its⟩
    · exact .inr (keeping queued)
  cases event with
  | sender outcome event =>
    cases event with
    | ack other number => exact holds
    | _ =>
      refine kept rfl fun keeping => ?_
      have moved := keeping_step sane.ids keeping outcome up
      exact moved.resolve_right (by simp)
  | lost datagram => exact holds
  | hello other listed number =>
    refine kept ?_ fun keeping => ?_
    · simp only [Link.step]
      split <;> rfl
    · simp only [Link.step]
      split <;> exact keeping
  | receive other number nbr cr content full =>
    simp only [Link.step]
    split
    · unfold Link.packet_receive
      dsimp only
      split
      · rcases holds with ⟨acceptance,inside,its⟩ | queued
        · refine .inl ⟨acceptance,?_,its⟩
          dsimp only
          rw [drop_snoc follows.base]
          exact List.mem_append_left _ inside
        · exact .inr queued
      · exact holds
    · exact holds
  | ack outcome other number =>
    simp only [Link.step] at up ⊢
    split
    · rename_i sent
      rw [if_pos sent] at up
      rcases holds with ⟨acceptance,inside,its⟩ | queued
      · exact .inl ⟨acceptance,inside,its⟩
      · rcases keeping_step sane.ids queued outcome up with keeping | its
        · exact .inr keeping
        · cases its
          exact .inl (follows.acks id sent)
    · exact holds
  | receiver other neighbor eligible => exact holds
  | receiver_down other => exact holds

theorem follows_run (sane : link.Sane) (follows : link.Follows base sequence listed) {events : List LinkEvent}
    (other : ∀ event ∈ events, event.reuses sequence = false) : (link.run events).Follows base sequence listed := by
  induction events generalizing link with
  | nil => exact follows
  | cons event events ih =>
    exact ih (sane_step sane event) (follows_step sane follows (other event (by simp))) (fun next member => other next (by simp [member]))

theorem holds_run (sane : link.Sane) (follows : link.Follows base sequence listed) {events : List LinkEvent}
    (other : ∀ event ∈ events, event.reuses sequence = false) {id : Nat} (holds : link.Holds base sequence id)
    (up : ∀ n, (link.run (events.take n)).ei.up id = true) : (link.run events).Holds base sequence id := by
  induction events generalizing link with
  | nil => exact holds
  | cons event events ih =>
    refine ih (sane_step sane event) (follows_step sane follows (other event (by simp))) (fun next member => other next (by simp [member])) ?_ ?_
    · exact holds_step sane follows holds (up 1)
    · exact fun n => up (n + 1)

end Following

/-! ## The admission -/

/-- The receivers that the SEQUENCE Hello of a multicast lists. -/
def Transport.listed (ei : Transport) (packet : Multicast) : List Nat :=
  ((ei.nbrs.filter (·.eligible packet.multicast_epoch)).filter (·.prior_count packet.sequence != 0)).map (·.id)

theorem behind_listed {ei : Transport} {packet : Multicast} (fronted : ei.Fronted packet) {nbr : Peer} (member : nbr ∈ ei.nbrs)
    (behind : nbr.Behind packet) : nbr.id ∈ ei.listed packet := by
  refine List.mem_map.2 ⟨nbr,List.mem_filter.2 ⟨List.mem_filter.2 ⟨member,behind.1⟩,?_⟩,rfl⟩
  have outstanding := behind
  obtain ⟨_,queued,inside,_⟩ := outstanding
  rcases queue : nbr.retrans_queue with _ | ⟨head,rest⟩
  · simp [Peer.sequences,queue] at inside
  · have earlier := fronted nbr member behind head.sequence (by simp [Peer.sequences,queue])
    simp [Peer.prior_count,queue,earlier]

theorem admitted_obuf {outcome : Outcome} {ei : Transport} {packet : Multicast} {pending : List Multicast}
    (queue : ei.multicast_pending = packet :: pending) (admitted : (ei.admit_multicast outcome).2 = true) :
    ∃ cr, (ei.listed packet ≠ [] → cr = true) ∧ (ei.admit_multicast outcome).1.obuf =
      ei.obuf ++ (if ei.listed packet = [] then [] else [.hello (some (ei.listed packet, packet.sequence))]) ++
        [.packet packet.sequence none false cr] := by
  have alone : ((ei.nbrs.filter (·.eligible packet.multicast_epoch)).filter (·.prior_count packet.sequence != 0)).isEmpty =
      decide (ei.listed packet = []) := by
    rw [Bool.eq_iff_iff,List.isEmpty_iff,decide_eq_true_eq,Transport.listed,List.map_eq_nil_iff]
  unfold Transport.admit_multicast at *
  split at admitted
  · cases admitted
  · rename_i free
    rw [queue] at admitted ⊢
    rw [if_neg free]
    simp only [alone,decide_eq_true_eq] at *
    split_ifs at admitted ⊢
    all_goals exact ⟨_,fun busy => by simp [busy],rfl⟩

theorem write_admitting {outcome : Outcome} {ei : Transport} (empty : ei.obuf = []) : ei.write outcome =
    match (ei.admit_multicast outcome).1.obuf with
    | [] => (ei.admit_multicast outcome).1
    | packet :: obuf =>
      if outcome.paced then (ei.admit_multicast outcome).1
      else { (ei.admit_multicast outcome).1 with obuf, nbrs := (ei.admit_multicast outcome).1.nbrs.map (Peer.wire_sent outcome packet) } := by
  cases obuf : (ei.admit_multicast outcome).1.obuf <;> simp [Transport.write,empty,obuf]

/-- What is in the output queue and on the wire behind the step that admits a multicast comes from the admission. -/
theorem admitting_step {outcome : Outcome} {link : Link} (empty : link.ei.obuf = []) :
    (∀ output ∈ (link.step (.sender outcome .write)).ei.obuf, output ∈ (link.ei.admit_multicast outcome).1.obuf) ∧
      ∀ datagram ∈ (link.step (.sender outcome .write)).sent, datagram ∈ link.sent ∨
        ∃ output ∈ (link.ei.admit_multicast outcome).1.obuf, output.datagram = some datagram := by
  have chosen : (if link.ei.obuf.isEmpty then (link.ei.admit_multicast outcome).1 else link.ei) = (link.ei.admit_multicast outcome).1 := by
    simp [empty]
  constructor
  · intro output member
    simp only [Link.step,Transport.step,write_admitting empty] at member
    split at member
    · exact member
    · rename_i packet obuf queue
      split at member
      · exact member
      · exact queue ▸ List.mem_cons_of_mem _ member
  · intro datagram member
    simp only [Link.step] at member
    rcases List.mem_append.1 member with old | new
    · exact .inl old
    · obtain ⟨output,wire,same⟩ := Option.bind_eq_some_iff.1 (Option.mem_toList.1 new)
      refine .inr ⟨output,?_,same⟩
      unfold Transport.wire at wire
      dsimp only at wire
      rw [chosen] at wire
      split at wire
      · cases wire
      · exact List.mem_of_mem_head? wire

theorem follows_admitted {outcome : Outcome} {link : Link} {packet : Multicast} {pending : List Multicast}
    (queue : link.ei.multicast_pending = packet :: pending) (empty : link.ei.obuf = []) (admitted : (link.ei.admit_multicast outcome).2 = true)
    (unused : link.Unused packet.sequence) :
    (link.step (.sender outcome .write)).Follows link.accepted.length packet.sequence (link.ei.listed packet) := by
  obtain ⟨cr,conditional,obuf⟩ := admitted_obuf queue admitted
  rw [empty,List.nil_append] at obuf
  obtain ⟨outputs,datagrams⟩ := @admitting_step outcome link empty
  rw [obuf] at outputs datagrams
  have said {output : Output} (member : output ∈ (if link.ei.listed packet = [] then [] else
      [.hello (some (link.ei.listed packet, packet.sequence))]) ++ [Output.packet packet.sequence none false cr]) :
      output = .hello (some (link.ei.listed packet, packet.sequence)) ∨ output = .packet packet.sequence none false cr := by
    rcases List.mem_append.1 member with hello | last
    · split at hello
      · cases hello
      · exact .inl (List.mem_singleton.1 hello)
    · exact .inr (List.mem_singleton.1 last)
  have rest : (link.step (.sender outcome .write)).ei.multicast_pending <:+ pending := by
    rcases admit_multicast_cases outcome queue with ⟨_,rest,_⟩ | ⟨failed,_⟩
    · simp only [Link.step,Transport.step,write_admitting empty]
      split
      · exact rest ▸ List.suffix_rfl
      · split <;> exact rest ▸ List.suffix_rfl
    · rw [admitted] at failed
      cases failed
  refine ⟨?_,?_,?_,?_,?_,?_,le_rfl⟩
  · intro other heard
    rcases heard with sent | queued
    · rcases datagrams _ sent with old | ⟨output,member,same⟩
      · exact absurd rfl (unused.sent _ old)
      · rcases said member with rfl | rfl <;> cases same
        rfl
    · rcases said (outputs _ queued) with same | same <;> cases same
      rfl
  · intro flag heard busy
    rcases heard with sent | ⟨_,queued⟩
    · rcases datagrams _ sent with old | ⟨output,member,same⟩
      · exact absurd rfl (unused.sent _ old)
      · rcases said member with rfl | rfl <;> cases same
        exact conditional busy
    · rcases said (outputs _ queued) with same | same <;> cases same
      exact conditional busy
  · intro other member same
    refine unused.pending other ?_ same
    rw [queue]
    exact rest.subset member
  · intro id mode same
    exact absurd same (unused.awaited id mode)
  · intro acceptance member
    simp [Link.step] at member
  · intro id sent
    rcases datagrams _ sent with old | ⟨output,member,same⟩
    · exact absurd rfl (unused.sent _ old)
    · rcases said member with rfl | rfl <;> cases same

/-- A receiver has its copy behind the admission. -/
theorem keeping_admitted {outcome : Outcome} {ei : Transport} {packet : Multicast} {pending : List Multicast}
    (queue : ei.multicast_pending = packet :: pending) (empty : ei.obuf = []) (admitted : (ei.admit_multicast outcome).2 = true) {nbr : Peer}
    (member : nbr ∈ ei.nbrs) (receiver : nbr.eligible packet.multicast_epoch) : (ei.write outcome).Keeping nbr.id packet.sequence := by
  have copied : (ei.admit_multicast outcome).1.Keeping nbr.id packet.sequence := by
    rcases admit_multicast_cases outcome queue with ⟨_,_,cr,nbrs⟩ | ⟨failed,_⟩
    · refine ⟨_,nbrs ▸ List.mem_map_of_mem member,?_⟩
      rw [if_pos receiver]
      refine ⟨rfl,?_⟩
      simp [Peer.sequences,ordered_enqueue]
    · rw [admitted] at failed
      cases failed
  rw [write_admitting empty]
  split
  · exact copied
  · split
    · exact copied
    · refine keeping_map copied rfl fun nbr => ⟨(wire_sent_same outcome _ nbr).1,?_⟩
      rw [wire_sent_sequences]
      exact List.Subset.refl _

/-- For all queues, losses and orders: a multicast is received as its admission provides for, if every receiver with an earlier packet
    outstanding has one at the head of its queue and the number is used for nothing else meanwhile. -/
theorem multicast_received {before : List LinkEvent} {outcome : Outcome} {packet : Multicast} {pending : List Multicast}
    (queue : (Link.run {} before).ei.multicast_pending = packet :: pending) (empty : (Link.run {} before).ei.obuf = [])
    (admitted : ((Link.run {} before).ei.admit_multicast outcome).2 = true) (fronted : (Link.run {} before).ei.Fronted packet)
    (unused : (Link.run {} before).Unused packet.sequence) {events : List LinkEvent}
    (other : ∀ event ∈ events, event.reuses packet.sequence = false) :
    Received (Link.run {} before) packet ((Link.run {} before).step (.sender outcome .write)) events := by
  have sane := sane_run sane_start before
  generalize Link.run {} before = start at *
  have next := sane_step sane (.sender outcome .write)
  have follows := follows_admitted queue empty admitted unused
  have followed := follows_run next follows other
  refine ⟨?_,(sane_run next events).announced,?_,?_⟩
  · intro nbr member behind acceptance logged its same
    by_contra multicast
    refine followed.accepted acceptance logged same (by simpa using multicast) ?_
    rw [its]
    exact behind_listed fronted member behind
  · intro nbr member receiver up
    have holds : (start.step (.sender outcome .write)).Holds start.accepted.length packet.sequence nbr.id :=
      .inr (keeping_admitted queue empty admitted member receiver)
    exact holds_run next follows other holds up
  · intro id content cr rejected
    unfold Receiver.conditional at rejected
    simp [Arrival.of] at rejected

/-- Two receivers are UP. -/
def receivers_up : List LinkEvent :=
  [.sender {} (.create 1),.sender {} (.create 2),.sender {} (.pending 1),.sender {} (.pending 2),
   .sender {} (.send_init 1 ⟨1,one_nonzero⟩),.sender {} (.send_init 2 ⟨2,two_nonzero⟩),.sender {} .write,.sender {} .write,
   .receive 1 ⟨1,one_nonzero⟩ (some 1) false { opcode := .update, sequence := 0 } false,
   .receive 2 ⟨2,two_nonzero⟩ (some 2) false { opcode := .update, sequence := 0 } false,
   .ack {} 1 ⟨1,one_nonzero⟩,.ack {} 2 ⟨2,two_nonzero⟩]

/-- The SEQUENCE Hello of a multicast arrives at a receiver, and then the multicast. -/
def announced_to (id : Nat) (listed : List Nat) (sequence : Sequence) : List LinkEvent :=
  [.hello id listed sequence,.receive id sequence none true { opcode := .update, sequence := 0 } false]

/-- The second receiver has an earlier packet outstanding. -/
def one_busy : List LinkEvent :=
  receivers_up ++ [.sender {} (.enqueue 2 ⟨3,three_nonzero⟩),.sender {} .write,.sender {} (.multicast ⟨4,four_nonzero⟩)]

def one_busy_after : List LinkEvent := .sender {} .write :: (announced_to 1 [2] ⟨4,four_nonzero⟩ ++ announced_to 2 [2] ⟨4,four_nonzero⟩)

theorem multicast_received_one_busy :
    ((((Link.run {} one_busy).step (.sender {} .write)).run one_busy_after).accepted.drop (Link.run {} one_busy).accepted.length).map
      (fun acceptance => (acceptance.nbr,acceptance.sequence.1)) = [(1,4)] ∧
    Received (Link.run {} one_busy) ⟨⟨4,by decide⟩,2,false⟩ ((Link.run {} one_busy).step (.sender {} .write)) one_busy_after := by
  refine ⟨by decide +kernel,@multicast_received one_busy {} ⟨⟨4,by decide⟩,2,false⟩ [] (by decide +kernel) (by decide +kernel)
    (by decide +kernel) ?_ ?_ one_busy_after (by decide +kernel)⟩
  · decide +kernel
  · refine ⟨by decide +kernel,by decide +kernel,by decide +kernel,?_⟩
    intro id mode
    obtain ⟨_,_,heard,_⟩ := (sane_run sane_start one_busy).awaiting id mode
    have silent : (Link.run {} one_busy).heard = fun _ => none := rfl
    rw [silent] at heard
    cases heard

/-- The table walk of the first receiver queues its packet behind a REPLY with a later number; the second receiver is busy. -/
def one_overtaken : List LinkEvent :=
  receivers_up ++ [.sender {} (.enqueue 2 ⟨3,three_nonzero⟩),.sender {} (.multicast ⟨5,five_nonzero⟩),.sender {} (.enqueue 1 ⟨6,six_nonzero⟩),
    .sender {} (.enqueue 1 ⟨4,four_nonzero⟩),.sender {} .write]

/-- The first receiver is not listed, and accepts the multicast in front of the packet of the table walk. -/
theorem overtaken_not_received : ¬ ∀ before outcome packet pending events,
    (Link.run {} before).ei.multicast_pending = packet :: pending → (Link.run {} before).ei.obuf = [] →
      ((Link.run {} before).ei.admit_multicast outcome).2 = true →
        Received (Link.run {} before) packet ((Link.run {} before).step (.sender outcome .write)) events := by
  intro received
  have order := (received one_overtaken {} ⟨⟨5,by decide⟩,2,false⟩ [] (.sender {} .write :: announced_to 1 [2] ⟨5,by decide⟩)
    (by decide +kernel) (by decide +kernel) (by decide +kernel)).in_order
  revert order
  decide +kernel

end Eigrp.Rtp
