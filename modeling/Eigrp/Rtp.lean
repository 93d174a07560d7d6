import Eigrp.System

/-!
# The reliable transport

The send side of `eigrp_packet.c` on one interface: the queue of unacknowledged packets of each neighbor, the
output queue of the interface, the multicasts that wait for admission, the retransmission timers and the failures
of host and allocator. A queue is a list with the oldest packet first.
-/

namespace Eigrp.Rtp

/-- What `eigrp_packet_sequence_reserve` returns: never zero. -/
abbrev Sequence := { value : UInt32 // value ≠ 0 }

theorem one_nonzero : (1 : UInt32) ≠ 0 := by decide
theorem two_nonzero : (2 : UInt32) ≠ 0 := by decide
theorem three_nonzero : (3 : UInt32) ≠ 0 := by decide
theorem four_nonzero : (4 : UInt32) ≠ 0 := by decide
theorem five_nonzero : (5 : UInt32) ≠ 0 := by decide
theorem six_nonzero : (6 : UInt32) ≠ 0 := by decide

def before (first second : Sequence) : Bool := sequence_before first.1 second.1

/-- A packet in `retrans_queue`; `cr` is the CR flag of its header, `sent` stands for a nonzero `sent_msec` and `timer` for an
    armed `t_retrans_timer`. -/
structure Reliable where
  sequence : Sequence
  cr : Bool := false
  sent : Bool := false
  retry_queued : Bool := false
  retrans_counter : Nat := 0
  timer : Bool := false
deriving DecidableEq, Repr

structure Peer where
  id : Nat
  state : NbrState := .down
  multicast_epoch : UInt64 := 0
  init_sequence_number : Option Sequence := none
  retrans_queue : List Reliable := []
deriving DecidableEq, Repr

/-- A packet in the output queue: a Hello, with the neighbors and the sequence number in its SEQUENCE TLVs, or a copy of a
    reliable packet for one neighbor or for all. -/
inductive Output where
  | hello (sequence_tlv : Option (List Nat × Sequence))
  | packet (sequence : Sequence) (nbr : Option Nat) (retransmission : Bool) (cr : Bool)
deriving DecidableEq, Repr

structure Multicast where
  sequence : Sequence
  multicast_epoch : UInt64
  cr : Bool := false
deriving DecidableEq, Repr

structure Transport where
  nbrs : List Peer := []
  obuf : List Output := []
  multicast_pending : List Multicast := []
  multicast_epoch : UInt64 := 0
  multicast_backoff : Bool := false
  multicast_waiting : Bool := false
  t_multicast_retry : Bool := false
deriving DecidableEq, Repr

/-- What the host answers in one step: whether a duplicate or a timer event for a neighbor can be allocated, whether
    the arrays for the copies of a multicast, its SEQUENCE Hello or the timer event of its retry can, whether that Hello fits,
    whether the pacing budget is spent and whether the wire send succeeds. -/
structure Outcome where
  dup : Nat → Bool := fun _ => true
  timer : Nat → Bool := fun _ => true
  copies : Bool := true
  announces : Bool := true
  retry_timer : Bool := true
  fits : Bool := true
  paced : Bool := false
  sends : Bool := true

/-! ## Queues -/

/-- `eigrp_packet_multicast_peer_eligible`. -/
def Peer.eligible (nbr : Peer) (epoch : UInt64) : Bool :=
  nbr.state == .up && nbr.multicast_epoch != 0 && nbr.multicast_epoch ≤ epoch

/-- `eigrp_packet_reliable_prior_count`. -/
def Peer.prior_count (nbr : Peer) (sequence : Sequence) : Nat :=
  (nbr.retrans_queue.takeWhile fun queued => before queued.sequence sequence).length

/-- `eigrp_packet_reliable_ordered_enqueue`. -/
def ordered_enqueue (queue : List Reliable) (packet : Reliable) : List Reliable :=
  queue.takeWhile (fun queued => before queued.sequence packet.sequence) ++
    packet :: queue.dropWhile fun queued => before queued.sequence packet.sequence

/-- `eigrp_packet_unicast_behind_multicast`. -/
def Peer.behind_multicast (nbr : Peer) (pending : List Multicast) (sequence : Sequence) : Bool :=
  (pending.takeWhile fun multicast => before multicast.sequence sequence).any fun multicast =>
    nbr.eligible multicast.multicast_epoch

/-! ## Sending -/

section Sending
variable (outcome : Outcome)

/-- `eigrp_packet_retransmit_timer_start`: the old event is cancelled before the new one is allocated. -/
def Peer.timer_start (nbr : Peer) (packet : Reliable) : Reliable := { packet with timer := outcome.timer nbr.id }

/-- `eigrp_packet_send_reliably`. -/
def Peer.send_reliably (pending : List Multicast) (nbr : Peer) : Peer × List Output :=
  match nbr.retrans_queue with
  | [] => (nbr, [])
  | head :: rest =>
    if nbr.behind_multicast pending head.sequence then (nbr, [])
    else if outcome.dup nbr.id then (nbr, [.packet head.sequence (some nbr.id) false head.cr])
    else ({ nbr with retrans_queue := nbr.timer_start outcome head :: rest }, [])

/-- `eigrp_packet_reliable_send_update` and `eigrp_packet_reliable_send_failure_update`, for one neighbor. -/
def Peer.wire_sent (packet : Output) (nbr : Peer) : Peer :=
  match packet, nbr.retrans_queue with
  | .packet sequence dst retransmission _, head :: rest =>
    if head.sequence ≠ sequence ∨ (dst ≠ some nbr.id ∧ (retransmission ∨ dst.isSome)) then nbr
    else
      let head :=
        if retransmission then
          nbr.timer_start outcome
            { head with retry_queued := false
                        retrans_counter := head.retrans_counter + (if outcome.sends then 1 else 0) }
        else if outcome.sends then if head.sent then head else nbr.timer_start outcome { head with sent := true }
        else nbr.timer_start outcome head
      { nbr with retrans_queue := head :: rest }
  | _, _ => nbr

/-- `EIGRP_TRANSPORT_RETRANS_MAX`. -/
def retrans_max : Nat := 16

/-- `eigrp_packet_unack_retrans`; none when the retry limit takes the neighbor down. -/
def Peer.unack_retrans (nbr : Peer) : Option (Peer × List Output) :=
  match nbr.retrans_queue with
  | [] => some (nbr, [])
  | head :: rest =>
    if head.retry_queued then some (nbr, [])
    else if head.retrans_counter ≥ retrans_max then none
    else if outcome.dup nbr.id then
      some ({ nbr with retrans_queue := { head with retry_queued := true } :: rest },
        [.packet head.sequence (some nbr.id) head.sent head.cr])
    else some ({ nbr with retrans_queue := nbr.timer_start outcome head :: rest }, [])

/-- What `eigrp_nbr_state_update_reason` does to the transport of a neighbor that goes DOWN. -/
def Peer.down (nbr : Peer) : Peer :=
  { nbr with state := .down, init_sequence_number := none, retrans_queue := [] }

end Sending

/-! ## Multicasts -/

/-- `eigrp_packet_multicast_resume`. -/
def Transport.multicast_resume (ei : Transport) : Transport :=
  match ei.multicast_pending with
  | [] => ei
  | packet :: _ =>
    if ei.t_multicast_retry then ei
    else
      let receivers := ei.nbrs.filter (·.eligible packet.multicast_epoch)
      let any_outstanding := receivers.any fun nbr => nbr.prior_count packet.sequence != 0
      let any_ready := receivers.any fun nbr => nbr.prior_count packet.sequence == 0
      if ei.multicast_backoff && any_outstanding then ei
      else
        let waits := ei.multicast_waiting && !receivers.isEmpty && !any_ready
        { ei with multicast_backoff := false, multicast_waiting := waits }

/-- `EIGRP_MULTICAST_RELIABLE_MAX`. -/
def multicast_reliable_max : Nat := 4

/-- `eigrp_packet_multicast_admit`. Everything is allocated before a queue changes; the CR flag is set in the packet and in
    its copies when a receiver has earlier packets outstanding. -/
def Transport.admit_multicast (outcome : Outcome) (ei : Transport) : Transport × Bool :=
  if ei.multicast_backoff || ei.multicast_waiting || ei.t_multicast_retry then (ei, false)
  else match ei.multicast_pending with
    | [] => (ei, false)
    | packet :: pending =>
      let receivers := ei.nbrs.filter (·.eligible packet.multicast_epoch)
      let busy := receivers.filter fun nbr => nbr.prior_count packet.sequence != 0
      if receivers.any fun nbr => multicast_reliable_max ≤ nbr.prior_count packet.sequence then
        ({ ei with multicast_backoff := true }, false)
      else if receivers.isEmpty then ({ ei with multicast_pending := pending }.multicast_resume, false)
      else if !receivers.any fun nbr => nbr.prior_count packet.sequence == 0 then ({ ei with multicast_waiting := true }, false)
      else if !busy.isEmpty && !outcome.fits then ({ ei with multicast_backoff := true }, false)
      else if !outcome.copies || receivers.any (fun nbr => !outcome.dup nbr.id) || !busy.isEmpty && !outcome.announces then
        ({ ei with t_multicast_retry := outcome.retry_timer }, false)
      else
        let cr := packet.cr || !busy.isEmpty
        let hello := if busy.isEmpty then [] else [Output.hello (some (busy.map (·.id), packet.sequence))]
        ({ ei with
          nbrs := ei.nbrs.map fun nbr =>
            if nbr.eligible packet.multicast_epoch then
              { nbr with retrans_queue := ordered_enqueue nbr.retrans_queue { sequence := packet.sequence, cr } }
            else nbr
          multicast_pending := pending
          obuf := ei.obuf ++ hello ++ [.packet packet.sequence none false cr] }, true)

/-! ## Steps -/

inductive Event where
  | create (id : Nat)
  | pending (id : Nat)
  | enqueue (id : Nat) (sequence : Sequence)
  | send_init (id : Nat) (sequence : Sequence)
  | multicast (sequence : Sequence)
  | hello
  | write
  | ack (id : Nat) (sequence : Sequence)
  | retrans_timer (id : Nat) (position : Nat)
  | multicast_retry
  | reset (id : Nat)
  | down (id : Nat)
  | delete (id : Nat)
  | intf_down

def Transport.nbr (ei : Transport) (id : Nat) : Option Peer := ei.nbrs.find? (·.id == id)

/-- A neighbor changes and hands packets to the output queue. -/
def Transport.put (ei : Transport) (nbr : Peer) (outputs : List Output) : Transport :=
  { ei with nbrs := ei.nbrs.map fun other => if other.id = nbr.id then nbr else other, obuf := ei.obuf ++ outputs }

/-- `eigrp_packet_neighbor_output_drop` for all packets of a neighbor. -/
def Transport.output_clear (ei : Transport) (id : Nat) : Transport :=
  { ei with obuf := ei.obuf.filter fun
      | .packet _ dst _ _ => dst ≠ some id
      | .hello _ => true }

/-- `eigrp_packet_neighbor_retry_cancel`. -/
def Transport.retry_cancel (ei : Transport) (id : Nat) (sequence : Sequence) : Transport :=
  { ei with obuf := ei.obuf.filter fun
      | .packet queued dst retransmission _ => ¬ (queued = sequence ∧ dst = some id ∧ retransmission)
      | .hello _ => true }

/-- The neighbor leaves the interface with its queue and its packets in the output queue. -/
def Transport.delete (ei : Transport) (id : Nat) : Transport :=
  { ei.output_clear id with nbrs := ei.nbrs.filter (·.id ≠ id) }.multicast_resume

/-- A packet joins the queue of a neighbor, and is sent when it is the only one. -/
def Transport.enqueue (outcome : Outcome) (ei : Transport) (nbr : Peer) (sequence : Sequence) : Transport :=
  let queued := { nbr with retrans_queue := nbr.retrans_queue ++ [{ sequence }] }
  if nbr.retrans_queue.isEmpty then
    let sent := queued.send_reliably outcome ei.multicast_pending
    ei.put sent.1 sent.2
  else ei.put queued []

/-- The epoch of the next adjacency; zero is left out. -/
def next_epoch (epoch : UInt64) : UInt64 := if epoch + 1 = 0 then 1 else epoch + 1

/-- `eigrp_packet_ack`. The table walk that follows the handshake enqueues its packets in steps of their own. -/
def Transport.ack (outcome : Outcome) (ei : Transport) (nbr : Peer) (sequence : Sequence) : Transport :=
  match nbr.retrans_queue with
  | [] => ei
  | head :: rest =>
    if head.sequence ≠ sequence then ei
    else
      let ei := if head.retry_queued then ei.retry_cancel nbr.id sequence else ei
      let acked := { nbr with retrans_queue := rest }
      let ei := (ei.put acked []).multicast_resume
      if nbr.state = .pending ∧ nbr.init_sequence_number = some sequence then
        { ei with multicast_epoch := next_epoch ei.multicast_epoch }.put
          { acked with state := .up, multicast_epoch := next_epoch ei.multicast_epoch, init_sequence_number := none } []
      else
        let sent := acked.send_reliably outcome ei.multicast_pending
        ei.put sent.1 sent.2

/-- The event of a packet fires: its slot is empty when the callback runs. -/
def Transport.retrans_timer (outcome : Outcome) (ei : Transport) (nbr : Peer) (position : Nat) : Transport :=
  let fired := { nbr with retrans_queue := nbr.retrans_queue.modify position fun packet => { packet with timer := false } }
  match fired.unack_retrans outcome with
  | none => ei.delete nbr.id
  | some (nbr, outputs) => ei.put nbr outputs

/-- `eigrp_packet_write`, for an interface that is its turn. -/
def Transport.write (outcome : Outcome) (ei : Transport) : Transport :=
  let ei := if ei.obuf.isEmpty then (ei.admit_multicast outcome).1 else ei
  match ei.obuf with
  | [] => ei
  | packet :: obuf =>
    if outcome.paced then ei else { ei with obuf, nbrs := ei.nbrs.map (Peer.wire_sent outcome packet) }

def Transport.step (outcome : Outcome) (ei : Transport) : Event → Transport
  | .create id => if (ei.nbr id).isSome then ei else { ei with nbrs := ei.nbrs ++ [{ id }] }
  | .pending id =>
    match ei.nbr id with
    | some nbr => if nbr.state = .down then ei.put { nbr with state := .pending } [] else ei
    | none => ei
  | .enqueue id sequence => (ei.nbr id).elim ei fun nbr => ei.enqueue outcome nbr sequence
  | .send_init id sequence =>
    (ei.nbr id).elim ei fun nbr => ei.enqueue outcome { nbr with init_sequence_number := some sequence } sequence
  | .multicast sequence =>
    { ei with multicast_pending := ei.multicast_pending ++ [Multicast.mk sequence ei.multicast_epoch false] }.multicast_resume
  | .hello => { ei with obuf := .hello none :: ei.obuf }
  | .write => ei.write outcome
  | .ack id sequence => (ei.nbr id).elim ei fun nbr => ei.ack outcome nbr sequence
  | .retrans_timer id position =>
    (ei.nbr id).elim ei fun nbr =>
      if nbr.retrans_queue[position]?.any (·.timer) then ei.retrans_timer outcome nbr position else ei
  | .multicast_retry => { ei with t_multicast_retry := false }.multicast_resume
  | .reset id => (ei.nbr id).elim ei fun nbr => (ei.put nbr.down []).multicast_resume
  | .down id => (ei.nbr id).elim ei fun nbr => ((ei.output_clear id).put nbr.down []).multicast_resume
  | .delete id => ei.delete id
  | .intf_down => { multicast_epoch := ei.multicast_epoch }

/-- What an interface goes through from its creation on. -/
def run (steps : List (Outcome × Event)) : Transport :=
  steps.foldl (fun ei step => ei.step step.1 step.2) {}

/-! ## Progress -/

/-- A copy of a packet of the neighbor waits in the output queue, in a unicast or in the multicast itself. -/
def Peer.Waits (nbr : Peer) (obuf : List Output) (sequence : Sequence) : Prop :=
  ∃ dst retransmission cr, .packet sequence dst retransmission cr ∈ obuf ∧ (dst = some nbr.id ∨ dst = none)

/-- The oldest packet of a neighbor has an armed timer and no queued retry, waits in the output queue, or is held behind
    a multicast that the neighbor is to receive first. -/
def Peer.Progresses (ei : Transport) (nbr : Peer) : Prop :=
  ∀ head ∈ nbr.retrans_queue.head?,
    (head.timer ∧ ¬ head.retry_queued) ∨ nbr.Waits ei.obuf head.sequence ∨
      nbr.behind_multicast ei.multicast_pending head.sequence

end Eigrp.Rtp
