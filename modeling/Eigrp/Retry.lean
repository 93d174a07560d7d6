import Eigrp.Rtp
import Eigrp.Rtt

/-!
# The reliable queue of one neighbor

The packets that one neighbor has not acknowledged, with their times and retry counters, its round-trip estimator, and the
output queue of the interface in which their copies wait. A packet keeps the number it was created with, and so does each
copy of it; the source tells them apart by their RTP sequence only. What the neighbor goes through is recorded as a trace.
-/

namespace Eigrp.Retry
open Eigrp.Rtp (Sequence before retrans_max)

/-! ## State -/

/-- A packet in `retrans_queue`; `id` stands for the pointer, `timer` for an armed `t_retrans_timer`. A retransmission is
    queued only below the limit of 16 and one at a time, so that the counter, a `uint8_t`, does not wrap. -/
structure Packet where
  id : Nat
  sequence : Sequence
  sent_msec : UInt64 := 0
  retry_queued : Bool := false
  retrans_counter : Nat := 0
  timer : Bool := false
deriving DecidableEq

/-- A packet in the output queue: a multicast with its clone in the queue of the neighbor, a copy of a packet of the
    neighbor, or one that has no part in its queue. -/
inductive Output where
  | other
  | multicast (receiver : Option Nat) (sequence : Sequence)
  | copy (id : Nat) (sequence : Sequence) (retransmission : Bool)
deriving DecidableEq

structure Link where
  retrans_queue : List Packet := []
  rtt : Rtt := Rtt.clear {}
  obuf : List Output := []
  next_id : Nat := 0
deriving DecidableEq

/-- What happens on the wire and to the packets, oldest first. -/
inductive Action where
  | wire (output : Output)
  | acknowledged (id : Nat)
  | sampled (id : Nat) (sample_msec : UInt32)
  | retry_limit (id : Nat)
  | cleared
deriving DecidableEq

/-- What the host answers in one step: the clock, whether a duplicate or a timer event can be allocated, whether the oldest
    packet is held behind a deferred multicast, whether the pacing budget is spent and whether the wire send succeeds. -/
structure Outcome where
  now_msec : UInt64 := 1
  dup : Bool := true
  timer : Bool := true
  held : Bool := false
  paced : Bool := false
  sends : Bool := true
deriving DecidableEq

/-! ## Operations -/

section Operations
variable (outcome : Outcome)

/-- `eigrp_packet_retransmit_timer_start`, also `eigrp_packet_allocation_retry`. -/
def Packet.timer_start (packet : Packet) : Packet := { packet with timer := outcome.timer }

/-- The oldest packet is replaced when it has the sequence. -/
def Link.at_head (link : Link) (sequence : Sequence) (update : Packet → Packet) : Link :=
  match link.retrans_queue with
  | [] => link
  | head :: rest => if head.sequence = sequence then { link with retrans_queue := update head :: rest } else link

/-- `eigrp_packet_send_reliably`. -/
def Link.send_reliably (link : Link) : Link :=
  match link.retrans_queue with
  | [] => link
  | head :: rest =>
    if outcome.held then link
    else if outcome.dup then { link with obuf := link.obuf ++ [.copy head.id head.sequence false] }
    else { link with retrans_queue := head.timer_start outcome :: rest }

/-- `eigrp_packet_reliable_neighbor_send_update`. -/
def Link.neighbor_send_update (link : Link) (sequence : Sequence) : Link :=
  link.at_head sequence fun queued =>
    if queued.sent_msec ≠ 0 then queued else { queued with sent_msec := outcome.now_msec }.timer_start outcome

/-- `eigrp_packet_reliable_send_update`. -/
def Link.send_update (link : Link) : Output → Link
  | .other => link
  | .multicast _ sequence => link.neighbor_send_update outcome sequence
  | .copy _ sequence retransmission =>
    if retransmission then
      link.at_head sequence fun head =>
        { head with retry_queued := false, retrans_counter := head.retrans_counter + 1 }.timer_start outcome
    else link.neighbor_send_update outcome sequence

/-- `eigrp_packet_reliable_send_failure_update`. -/
def Link.send_failure_update (link : Link) : Output → Link
  | .other => link
  | .multicast _ sequence => link.at_head sequence fun queued => queued.timer_start outcome
  | .copy _ sequence retransmission =>
    link.at_head sequence fun queued =>
      if retransmission then { queued with retry_queued := false }.timer_start outcome else queued.timer_start outcome

/-- `eigrp_packet_wire_send` of the oldest packet in the output queue, which then leaves it. -/
def Link.write (link : Link) : Link × List Action :=
  match link.obuf with
  | [] => (link, [])
  | packet :: obuf =>
    if outcome.paced then (link, [])
    else if outcome.sends then ({ link.send_update outcome packet with obuf }, [.wire packet])
    else ({ link.send_failure_update outcome packet with obuf }, [])

/-- The round-trip time that `eigrp_nbr_srtt_update` samples. -/
def Packet.rtt_sample (packet : Packet) : Option UInt32 :=
  if packet.retrans_counter ≠ 0 ∨ packet.sent_msec = 0 then none
  else if outcome.now_msec < packet.sent_msec then none
  else
    let sample_msec := outcome.now_msec - packet.sent_msec
    some (if 0xffffffff < sample_msec then 0xffffffff else sample_msec.toUInt32)

/-- `eigrp_packet_neighbor_retry_cancel`. -/
def Link.retry_cancel (link : Link) (sequence : Sequence) : Link :=
  { link with obuf := link.obuf.filter fun
      | .copy _ queued retransmission => ¬ (queued = sequence ∧ retransmission)
      | _ => true }

/-- `eigrp_packet_neighbor_output_clear`. -/
def Link.output_clear (link : Link) : Link :=
  { link with obuf := link.obuf.filter fun
      | .copy _ _ _ => false
      | _ => true }

/-- `eigrp_packet_ack`; the ACK of the INIT hands over to the initial synchronization instead of the next packet. -/
def Link.ack (link : Link) (ack : UInt32) (init : Bool) : Link × List Action :=
  match link.retrans_queue with
  | [] => (link, [])
  | packet :: rest =>
    if ack = packet.sequence.1 then
      let sample := packet.rtt_sample outcome
      let link := { link with rtt := sample.elim link.rtt link.rtt.sample }
      let link := if packet.retry_queued then link.retry_cancel packet.sequence else link
      let link := { link with retrans_queue := rest }
      (if init then link else link.send_reliably outcome,
        (sample.elim [] fun sample_msec => [.sampled packet.id sample_msec]) ++ [.acknowledged packet.id])
    else (link, [])

/-- `eigrp_nbr_state_update_reason` to the state DOWN. -/
def Link.state_down (link : Link) : Link := { link with rtt := link.rtt.clear, retrans_queue := [] }

/-- `eigrp_nbr_delete`: what follows is a new neighbor. -/
def Link.delete (link : Link) : Link := { link.output_clear with retrans_queue := [], rtt := link.rtt.clear }

/-- `eigrp_packet_unack_retrans`. -/
def Link.unack_retrans (link : Link) : Link × List Action :=
  match link.retrans_queue with
  | [] => (link, [])
  | packet :: rest =>
    if packet.retry_queued then (link, [])
    else if packet.retrans_counter ≥ retrans_max then (link.delete, [.retry_limit packet.id, .cleared])
    else if outcome.dup = false then ({ link with retrans_queue := packet.timer_start outcome :: rest }, [])
    else
      ({ link with
         rtt := if packet.sent_msec ≠ 0 then link.rtt.backoff else link.rtt
         retrans_queue := { packet with retry_queued := true } :: rest
         obuf := link.obuf ++ [.copy packet.id packet.sequence (packet.sent_msec ≠ 0)] }, [])

/-- `eigrp_packet_reliable_ordered_enqueue`. -/
def ordered_enqueue (queue : List Packet) (packet : Packet) : List Packet :=
  queue.takeWhile (fun queued => before queued.sequence packet.sequence) ++
    packet :: queue.dropWhile fun queued => before queued.sequence packet.sequence

/-- A packet joins the queue, and is sent when it is the only one. -/
def Link.enqueue (link : Link) (sequence : Sequence) : Link :=
  let queued := { link with retrans_queue := link.retrans_queue ++ [{ id := link.next_id, sequence }], next_id := link.next_id + 1 }
  if link.retrans_queue.isEmpty then queued.send_reliably outcome else queued

/-- `eigrp_packet_multicast_admit`, behind a Hello when receivers are busy; only an empty output queue asks for it. -/
def Link.multicast_admit (link : Link) (sequence : Sequence) (receiver busy : Bool) : Link :=
  if link.obuf.isEmpty then
    let link := { link with obuf := (if busy then [.other] else []) ++ [.multicast (if receiver then some link.next_id else none) sequence] }
    if receiver then
      { link with retrans_queue := ordered_enqueue link.retrans_queue { id := link.next_id, sequence }, next_id := link.next_id + 1 }
    else link
  else link

end Operations

/-! ## Runs -/

inductive Event where
  | enqueue (sequence : Sequence)
  | multicast_admit (sequence : Sequence) (receiver busy : Bool)
  | output (front : Bool)
  | write
  | ack (ack : UInt32) (init : Bool)
  | retrans_timer (position : Nat)
  | state_down
  | nbr_down
  | delete
  | intf_down

def Link.step (outcome : Outcome) (link : Link) : Event → Link × List Action
  | .enqueue sequence => (link.enqueue outcome sequence, [])
  | Event.multicast_admit sequence receiver busy => (link.multicast_admit sequence receiver busy, [])
  | .output front => ({ link with obuf := if front then .other :: link.obuf else link.obuf ++ [.other] }, [])
  | .write => link.write outcome
  | .ack ack init => link.ack outcome ack init
  | .retrans_timer position =>
    if link.retrans_queue[position]?.any (·.timer) then
      { link with retrans_queue := link.retrans_queue.modify position fun packet => { packet with timer := false } }.unack_retrans outcome
    else (link, [])
  | .state_down => (link.state_down, [.cleared])
  | .nbr_down => (link.output_clear.state_down, [.cleared])
  | .delete => (link.delete, [.cleared])
  | .intf_down => ({ link.delete with obuf := [] }, [.cleared])

/-- The state and the trace after the steps. -/
def run (steps : List (Outcome × Event)) : Link × List Action :=
  steps.foldl (fun reached step =>
    let (link, actions) := reached.1.step step.1 step.2
    (link, reached.2 ++ actions)) ({}, [])

/-- The samples since the estimator was cleared, youngest first. -/
def samples (trace : List Action) : List UInt32 :=
  trace.foldl (fun samples action =>
    match action with
    | .cleared => []
    | .sampled _ sample_msec => sample_msec :: samples
    | _ => samples) []

/-- The action puts a retransmission of the packet on the wire. -/
def Action.Retries (id : Nat) (action : Action) : Bool :=
  match action with
  | .wire (.copy sent _ retransmission) => sent == id && retransmission
  | _ => false

/-- How often the packet was put on the wire as a retransmission. -/
def retries (trace : List Action) (id : Nat) : Nat := trace.countP (Action.Retries id)

/-- The packet that a send which is not marked as a retransmission puts on the wire. -/
def Output.unmarked (packet : Output) : Option Nat :=
  match packet with
  | .multicast receiver _ => receiver
  | .copy id _ false => some id
  | _ => none

/-- The action puts the packet on the wire, in its multicast or as a copy. -/
def Action.Sends (id : Nat) (action : Action) : Bool :=
  match action with
  | .wire packet => packet.unmarked == some id || Action.Retries id (.wire packet)
  | _ => false

/-- How often the packet was put on the wire. -/
def sends (trace : List Action) (id : Nat) : Nat := trace.countP (Action.Sends id)

/-- The packet was put on the wire again, or as a retransmission. -/
def Retransmitted (trace : List Action) (id : Nat) : Prop := 2 ≤ sends trace id ∨ retries trace id ≠ 0

/-- A send that is not marked as a retransmission is the first of its packet. -/
def FirstSends (steps : List (Outcome × Event)) : Prop :=
  ∀ front outcome back, steps = front ++ (outcome,.write) :: back → outcome.paced = false → outcome.sends = true →
    ∀ packet ∈ (run front).1.obuf.head?, ∀ id ∈ packet.unmarked, sends (run front).2 id = 0

/-! ## The trace -/

section Trace
variable {trace : List Action} {id : Nat}

theorem run_snoc (steps : List (Outcome × Event)) (step : Outcome × Event) :
    run (steps ++ [step]) =
      (((run steps).1.step step.1 step.2).1, (run steps).2 ++ ((run steps).1.step step.1 step.2).2) := by
  rw [run,List.foldl_append]
  rfl

theorem retries_append (actions : List Action) : retries (trace ++ actions) id = retries trace id + retries actions id :=
  List.countP_append

theorem retries_wire (sent : Nat) (sequence : Sequence) (retransmission : Bool) :
    retries [.wire (.copy sent sequence retransmission)] id = if sent = id ∧ retransmission = true then 1 else 0 := by
  simp [retries,Action.Retries,List.countP_cons]

theorem retried_wire {packet : Output} (retried : retries [.wire packet] id ≠ 0) : ∃ sequence, packet = .copy id sequence true := by
  cases packet with
  | other => exact absurd rfl retried
  | multicast receiver sequence => exact absurd rfl retried
  | copy sent sequence retransmission =>
    rw [retries_wire] at retried
    by_cases both : sent = id ∧ retransmission = true
    · obtain ⟨rfl,rfl⟩ := both
      exact ⟨sequence,rfl⟩
    · rw [if_neg both] at retried
      exact absurd rfl retried

theorem retries_eq_zero (none_sent : ∀ sequence, Action.wire (.copy id sequence true) ∉ trace) : retries trace id = 0 := by
  refine List.countP_eq_zero.2 fun action member retried => ?_
  unfold Action.Retries at retried
  split at retried
  · rename_i sent sequence retransmission
    simp only [Bool.and_eq_true,beq_iff_eq] at retried
    obtain ⟨rfl,rfl⟩ := retried
    exact none_sent sequence member
  · cases retried

theorem samples_append (actions : List Action) :
    samples (trace ++ actions) = actions.foldl (fun samples action =>
      match action with
      | .cleared => []
      | .sampled _ sample_msec => sample_msec :: samples
      | _ => samples) (samples trace) := by
  rw [samples,List.foldl_append]
  rfl

/-- Where a trace is cut in front of an action, the action is in the new part or the cut is in the old one. -/
theorem cut_append {actions front back : List Action} {action : Action} (cut : trace ++ actions = front ++ action :: back) :
    (∃ rest, trace = front ++ action :: rest ∧ back = rest ++ actions) ∨
      ∃ first, front = trace ++ first ∧ actions = first ++ action :: back := by
  rcases List.append_eq_append_iff.1 cut with ⟨first,rfl,rest⟩ | ⟨first,old,rest⟩
  · exact .inr ⟨first,rfl,rest⟩
  · cases first with
    | nil =>
      rw [List.append_nil] at old
      exact .inr ⟨[],by rw [old,List.append_nil],by simpa using rest.symm⟩
    | cons head tail =>
      rw [List.cons_append] at rest
      obtain ⟨rfl,rfl⟩ := List.cons.inj rest
      exact .inl ⟨tail,old,rfl⟩

end Trace

/-! ## Keys -/

/-- What the source knows a packet by. -/
def Packet.key (packet : Packet) : Nat × Sequence := (packet.id,packet.sequence)

def Link.keys (link : Link) : List (Nat × Sequence) := link.retrans_queue.map Packet.key

/-- The copies in the output queue are those of packets that were created, and a retransmission is that of the oldest one. -/
structure Keyed (keys : List (Nat × Sequence)) (obuf : List Output) (next_id : Nat) : Prop where
  created : ∀ key ∈ keys, key.1 < next_id
  nodup : (keys.map Prod.fst).Nodup
  copied : ∀ id sequence retransmission, .copy id sequence retransmission ∈ obuf → id < next_id
  head : ∀ id sequence, .copy id sequence true ∈ obuf → ∀ key ∈ keys, key.1 = id → keys.head? = some key ∧ key.2 = sequence

section Keys
variable {keys : List (Nat × Sequence)} {obuf more : List Output} {next_id : Nat} {key : Nat × Sequence}

theorem Keyed.subset (keyed : Keyed keys obuf next_id) (fewer : more ⊆ obuf) : Keyed keys more next_id where
  created := keyed.created
  nodup := keyed.nodup
  copied := fun id sequence retransmission member => keyed.copied id sequence retransmission (fewer member)
  head := fun id sequence member => keyed.head id sequence (fewer member)

theorem Keyed.append (keyed : Keyed keys obuf next_id) (known : ∀ id sequence retransmission, .copy id sequence retransmission ∈ more →
    id < next_id) (oldest : ∀ id sequence, .copy id sequence true ∈ more → keys.head? = some (id,sequence)) :
    Keyed keys (obuf ++ more) next_id where
  created := keyed.created
  nodup := keyed.nodup
  copied := by
    intro id sequence retransmission member
    rcases List.mem_append.1 member with old | new
    · exact keyed.copied id sequence retransmission old
    · exact known id sequence retransmission new
  head := by
    intro id sequence member key here same
    rcases List.mem_append.1 member with old | new
    · exact keyed.head id sequence old key here same
    · have first := oldest id sequence new
      have there : (id,sequence) ∈ keys := List.mem_of_mem_head? first
      have equal : key = (id,sequence) := List.inj_on_of_nodup_map keyed.nodup here there same
      exact ⟨by rw [first,equal],by rw [equal]⟩

/-- The oldest packet leaves. -/
theorem Keyed.tail {rest : List (Nat × Sequence)} (keyed : Keyed (key :: rest) obuf next_id) : Keyed rest obuf next_id where
  created := fun other member => keyed.created other (by simp [member])
  nodup := (List.nodup_cons.1 keyed.nodup).2
  copied := keyed.copied
  head := by
    intro id sequence member other here same
    obtain ⟨first,_⟩ := keyed.head id sequence member other (by simp [here]) same
    cases first
    exact absurd (List.mem_map_of_mem here) (List.nodup_cons.1 keyed.nodup).1

/-- A packet is created. -/
theorem Keyed.create {front back : List (Nat × Sequence)} {sequence : Sequence} (keyed : Keyed (front ++ back) obuf next_id)
    (behind : back = [] ∨ ∀ id sequence, .copy id sequence true ∉ obuf) : Keyed (front ++ (next_id,sequence) :: back) obuf (next_id + 1) where
  created := by
    intro other member
    rcases List.mem_append.1 member with old | new
    · exact (keyed.created other (by simp [old])).trans (Nat.lt_succ_self _)
    · rcases List.mem_cons.1 new with rfl | old
      · exact Nat.lt_succ_self _
      · exact (keyed.created other (by simp [old])).trans (Nat.lt_succ_self _)
  nodup := by
    have perm : (front ++ (next_id,sequence) :: back).Perm ((next_id,sequence) :: (front ++ back)) := List.perm_middle
    refine (perm.map Prod.fst).nodup_iff.2 (List.nodup_cons.2 ⟨fun member => ?_,keyed.nodup⟩)
    obtain ⟨other,here,same⟩ := List.mem_map.1 member
    exact absurd (keyed.created other here) (by rw [same]; exact Nat.lt_irrefl _)
  copied := fun id sequence retransmission member => (keyed.copied id sequence retransmission member).trans (Nat.lt_succ_self _)
  head := by
    intro id other member key here same
    rcases behind with rfl | none_there
    · have old : key ∈ front := by
        rcases List.mem_append.1 here with old | new
        · exact old
        · have equal : key = (next_id,sequence) := by simpa using new
          rw [equal] at same
          exact absurd (keyed.copied id other true member) (by rw [← same]; exact Nat.lt_irrefl _)
      obtain ⟨first,number⟩ := keyed.head id other member key (by simp [old]) same
      refine ⟨?_,number⟩
      cases front with
      | nil => cases old
      | cons head tail => simpa using first
    · exact absurd member (none_there id other)

theorem Keyed.clear (keyed : Keyed keys obuf next_id) : Keyed [] obuf next_id where
  created := fun _ member => by cases member
  nodup := List.nodup_nil
  copied := keyed.copied
  head := fun _ _ _ _ member => by cases member

end Keys

/-! ## What a step does to the oldest packet -/

section Heads
variable {link : Link} {outcome : Outcome} {packet : Output}

/-- The wire send of this packet counts as a retransmission of the oldest one. -/
def Output.hits (packet : Output) (head : Packet) : Bool :=
  match packet with
  | .copy _ sequence retransmission => retransmission && head.sequence == sequence
  | _ => false

theorem at_head_eq (sequence : Sequence) (update : Packet → Packet) :
    link.at_head sequence update =
      { link with retrans_queue := link.retrans_queue.modifyHead fun head => if head.sequence = sequence then update head else head } := by
  unfold Link.at_head
  cases queue : link.retrans_queue with
  | nil =>
    obtain ⟨_,_,_,_⟩ := link
    simp_all
  | cons head rest =>
    by_cases same : head.sequence = sequence
    · simp [same]
    · obtain ⟨_,_,_,_⟩ := link
      simp_all

/-- A wire send touches the oldest packet only. -/
theorem send_update_eq : ∃ update : Packet → Packet,
    link.send_update outcome packet = { link with retrans_queue := link.retrans_queue.modifyHead update } ∧
      ∀ head, (update head).key = head.key ∧
        (update head).retrans_counter = head.retrans_counter + (if packet.hits head then 1 else 0) ∧
        (update head).retry_queued = (!packet.hits head && head.retry_queued) := by
  have first (sequence : Sequence) (head : Packet) :
      let update (queued : Packet) : Packet :=
        if queued.sent_msec ≠ 0 then queued else { queued with sent_msec := outcome.now_msec }.timer_start outcome
      ((if head.sequence = sequence then update head else head).key = head.key) ∧
        (if head.sequence = sequence then update head else head).retrans_counter = head.retrans_counter ∧
        (if head.sequence = sequence then update head else head).retry_queued = head.retry_queued := by
    simp only
    split_ifs <;> exact ⟨rfl,rfl,rfl⟩
  cases packet with
  | other =>
    refine ⟨id,?_,fun head => ⟨rfl,rfl,by simp [Output.hits]⟩⟩
    obtain ⟨queue,_,_,_⟩ := link
    cases queue <;> rfl
  | multicast receiver sequence =>
    refine ⟨_,at_head_eq sequence _,fun head => ?_⟩
    obtain ⟨key,counter,queued⟩ := first sequence head
    exact ⟨key,by simpa [Output.hits] using counter,by simpa [Output.hits] using queued⟩
  | copy id sequence retransmission =>
    cases retransmission with
    | false =>
      refine ⟨_,at_head_eq sequence _,fun head => ?_⟩
      obtain ⟨key,counter,queued⟩ := first sequence head
      exact ⟨key,by simpa [Output.hits] using counter,by simpa [Output.hits] using queued⟩
    | true =>
      refine ⟨_,at_head_eq sequence _,fun head => ?_⟩
      by_cases same : head.sequence = sequence
      · simp [same,Output.hits,Packet.timer_start,Packet.key]
      · have different : ¬ head.sequence.1 = sequence.1 := fun equal => same (Subtype.ext equal)
        simp [same,different,Output.hits]

theorem send_failure_update_eq : ∃ update : Packet → Packet,
    link.send_failure_update outcome packet = { link with retrans_queue := link.retrans_queue.modifyHead update } ∧
      ∀ head, (update head).key = head.key ∧ (update head).retrans_counter = head.retrans_counter ∧
        (update head).retry_queued = (!packet.hits head && head.retry_queued) := by
  cases packet with
  | other =>
    refine ⟨id,?_,fun head => ⟨rfl,rfl,by simp [Output.hits]⟩⟩
    obtain ⟨queue,_,_,_⟩ := link
    cases queue <;> rfl
  | multicast receiver sequence =>
    refine ⟨_,at_head_eq sequence _,fun head => ?_⟩
    by_cases same : head.sequence = sequence <;> simp [same,Output.hits,Packet.timer_start,Packet.key]
  | copy id sequence retransmission =>
    refine ⟨_,at_head_eq sequence _,fun head => ?_⟩
    by_cases same : head.sequence = sequence
    · cases retransmission <;> simp [same,Output.hits,Packet.timer_start,Packet.key]
    · have different : ¬ head.sequence.1 = sequence.1 := fun equal => same (Subtype.ext equal)
      simp [same,different,Output.hits]

/-- The first send of the oldest packet is queued, or its timer is set. -/
theorem send_reliably_eq : ∃ (update : Packet → Packet) (more : List Output),
    link.send_reliably outcome = { link with retrans_queue := link.retrans_queue.modifyHead update, obuf := link.obuf ++ more } ∧
      (∀ head, (update head).key = head.key ∧ (update head).retrans_counter = head.retrans_counter ∧
        (update head).retry_queued = head.retry_queued) ∧
      (more = [] ∨ ∃ head, link.retrans_queue.head? = some head ∧ more = [.copy head.id head.sequence false]) := by
  obtain ⟨queue,rtt,obuf,next_id⟩ := link
  unfold Link.send_reliably
  cases queue with
  | nil => exact ⟨id,[],by simp,fun head => ⟨rfl,rfl,rfl⟩,.inl rfl⟩
  | cons head rest =>
    simp only
    by_cases held : outcome.held = true
    · exact ⟨id,[],by simp [held],fun head => ⟨rfl,rfl,rfl⟩,.inl rfl⟩
    · by_cases dup : outcome.dup = true
      · exact ⟨id,_,by simp [held,dup],fun head => ⟨rfl,rfl,rfl⟩,.inr ⟨head,rfl,rfl⟩⟩
      · exact ⟨fun head => head.timer_start outcome,[],by simp [held,dup],fun head => ⟨rfl,rfl,rfl⟩,.inl rfl⟩

theorem keys_modifyHead {queue : List Packet} {update : Packet → Packet} (same : ∀ head, (update head).key = head.key) :
    (queue.modifyHead update).map Packet.key = queue.map Packet.key := by
  cases queue with
  | nil => rfl
  | cons head rest => simp [same head]

theorem keys_modify {queue : List Packet} {update : Packet → Packet} (position : Nat) (same : ∀ packet, (update packet).key = packet.key) :
    (queue.modify position update).map Packet.key = queue.map Packet.key := by
  refine List.ext_getElem? fun place => ?_
  rw [List.getElem?_map,List.getElem?_map,List.getElem?_modify]
  cases queue[place]? with
  | none => rfl
  | some packet =>
    by_cases here : position = place
    · simp [here,same packet]
    · simp [here]

/-- A packet behind an update of the oldest one is an old packet, or the oldest one updated. -/
theorem mem_modifyHead {queue : List Packet} {update : Packet → Packet} {found : Packet} (member : found ∈ queue.modifyHead update) :
    (∃ head, queue.head? = some head ∧ found = update head) ∨ found ∈ queue.tail := by
  cases queue with
  | nil => cases member
  | cons head rest =>
    rw [List.modifyHead_cons] at member
    rcases List.mem_cons.1 member with rfl | old
    · exact .inl ⟨head,rfl,rfl⟩
    · exact .inr old

end Heads

/-! ## Soundness -/

/-- The state fits the trace: what was retransmitted has been counted, and the estimates lie within the samples. -/
structure Sound (link : Link) (trace : List Action) : Prop where
  keyed : Keyed link.keys link.obuf link.next_id
  counted : ∀ packet ∈ link.retrans_queue, retries trace packet.id ≠ 0 → packet.retrans_counter ≠ 0
  wired : ∀ id sequence retransmission, .wire (.copy id sequence retransmission) ∈ trace → id < link.next_id
  rtt : link.rtt.Within (samples trace)
  unretried : ∀ front back id sample_msec, trace = front ++ .sampled id sample_msec :: back → retries front id = 0

section Steps
variable {link : Link} {outcome : Outcome} {trace : List Action}

theorem sound_new : Sound {} [] where
  keyed :=
    { created := fun _ member => by cases member
      nodup := List.nodup_nil
      copied := fun _ _ _ member => by cases member
      head := fun _ _ member => by cases member }
  counted := fun _ member => by cases member
  wired := fun _ _ _ member => by cases member
  rtt := @Rtt.clear_within {}
  unretried := fun front back id sample_msec cut => by simp at cut

/-- A retransmission that is put on the wire and belongs to a queued packet is one of the oldest packet. -/
theorem Sound.hit (sound : Sound link trace) {id : Nat} {sequence : Sequence} (waits : .copy id sequence true ∈ link.obuf) {packet : Packet}
    (member : packet ∈ link.retrans_queue) (same : packet.id = id) :
    ∃ head, link.retrans_queue.head? = some head ∧ head.id = id ∧ (Output.copy id sequence true).hits head = true := by
  have here : packet.key ∈ link.keys := List.mem_map_of_mem member
  obtain ⟨first,number⟩ := sound.keyed.head id sequence waits packet.key here same
  rw [Link.keys,List.head?_map] at first
  obtain ⟨head,is_head,key⟩ := Option.map_eq_some_iff.1 first
  have ids : head.id = packet.id := congrArg Prod.fst key
  have numbers : head.sequence = packet.sequence := congrArg Prod.snd key
  refine ⟨head,is_head,ids.trans same,?_⟩
  have equal : packet.sequence = sequence := number
  simp [Output.hits,numbers,equal]

theorem write_sound (sound : Sound link trace) : Sound (link.write outcome).1 (trace ++ (link.write outcome).2) := by
  unfold Link.write
  cases waiting : link.obuf with
  | nil => simpa using sound
  | cons packet obuf =>
    simp only
    by_cases paced : outcome.paced = true
    · simpa [paced] using sound
    have fewer : obuf ⊆ link.obuf := by rw [waiting]; exact List.subset_cons_self packet obuf
    rw [if_neg paced]
    by_cases sends : outcome.sends = true
    · rw [if_pos sends]
      obtain ⟨update,updated,effect⟩ := @send_update_eq link outcome packet
      rw [updated]
      have keys := @keys_modifyHead link.retrans_queue update (fun head => (effect head).1)
      refine ⟨?_,?_,?_,?_,?_⟩
      · simp only [Link.keys,keys]
        exact sound.keyed.subset fewer
      · intro found member retried
        rw [retries_append] at retried
        rcases mem_modifyHead member with ⟨head,is_head,rfl⟩ | old
        · have there : head ∈ link.retrans_queue := List.mem_of_mem_head? is_head
          have ids : (update head).id = head.id := congrArg Prod.fst (effect head).1
          rw [(effect head).2.1]
          by_cases before : retries trace head.id = 0
          · rw [ids,before,Nat.zero_add] at retried
            obtain ⟨sequence,rfl⟩ := retried_wire retried
            have waits : .copy head.id sequence true ∈ link.obuf := by rw [waiting]; exact List.mem_cons_self
            obtain ⟨other,is_other,_,hits⟩ := sound.hit waits there rfl
            rw [is_head] at is_other
            cases is_other
            rw [if_pos hits]
            omega
          · have counted := sound.counted head there before
            omega
        · have there : found ∈ link.retrans_queue := List.mem_of_mem_tail old
          refine sound.counted found there fun before => ?_
          rw [before,Nat.zero_add] at retried
          obtain ⟨sequence,rfl⟩ := retried_wire retried
          have waits : .copy found.id sequence true ∈ link.obuf := by rw [waiting]; exact List.mem_cons_self
          obtain ⟨head,is_head,ids,_⟩ := sound.hit waits there rfl
          have nodup := sound.keyed.nodup
          rw [Link.keys,List.map_map] at nodup
          cases queue : link.retrans_queue with
          | nil =>
            rw [queue] at there
            cases there
          | cons first rest =>
            rw [queue] at is_head old nodup
            cases is_head
            exact (List.nodup_cons.1 nodup).1 (List.mem_map.2 ⟨found,old,ids.symm⟩)
      · intro id sequence retransmission member
        rcases List.mem_append.1 member with old | new
        · exact sound.wired id sequence retransmission old
        · have is_packet : packet = .copy id sequence retransmission := by simpa using (List.mem_singleton.1 new).symm
          exact sound.keyed.copied id sequence retransmission (by rw [waiting,is_packet]; simp)
      · rw [samples_append]
        exact sound.rtt
      · intro front back id sample_msec cut
        rcases cut_append cut with ⟨rest,old,_⟩ | ⟨first,_,new⟩
        · exact sound.unretried front rest id sample_msec old
        · cases first with
          | nil => cases new
          | cons head tail => simp at new
    · rw [if_neg sends,List.append_nil]
      obtain ⟨update,updated,effect⟩ := @send_failure_update_eq link outcome packet
      rw [updated]
      have keys := @keys_modifyHead link.retrans_queue update (fun head => (effect head).1)
      refine ⟨?_,?_,sound.wired,sound.rtt,sound.unretried⟩
      · simp only [Link.keys,keys]
        exact sound.keyed.subset fewer
      · intro found member retried
        rcases mem_modifyHead member with ⟨head,is_head,rfl⟩ | old
        · have ids : (update head).id = head.id := congrArg Prod.fst (effect head).1
          rw [(effect head).2.1]
          exact sound.counted head (List.mem_of_mem_head? is_head) (by rwa [ids] at retried)
        · exact sound.counted found (List.mem_of_mem_tail old) retried

/-- The first send of the oldest packet leaves the counters alone. -/
theorem send_reliably_sound (sound : Sound link trace) : Sound (link.send_reliably outcome) trace := by
  obtain ⟨update,more,updated,effect,first⟩ := @send_reliably_eq link outcome
  have keys := @keys_modifyHead link.retrans_queue update (fun head => (effect head).1)
  rw [updated]
  refine ⟨?_,?_,sound.wired,sound.rtt,sound.unretried⟩
  · simp only [Link.keys,keys]
    refine sound.keyed.append ?_ ?_
    · intro id sequence retransmission member
      rcases first with rfl | ⟨head,is_head,rfl⟩
      · cases member
      · cases List.mem_singleton.1 member
        exact sound.keyed.created head.key (List.mem_map_of_mem (List.mem_of_mem_head? is_head))
    · intro id sequence member
      rcases first with rfl | ⟨head,is_head,rfl⟩
      · cases member
      · cases List.mem_singleton.1 member
  · intro found member retried
    rcases mem_modifyHead member with ⟨head,is_head,rfl⟩ | old
    · have ids : (update head).id = head.id := congrArg Prod.fst (effect head).1
      rw [(effect head).2.1]
      exact sound.counted head (List.mem_of_mem_head? is_head) (by rwa [ids] at retried)
    · exact sound.counted found (List.mem_of_mem_tail old) retried

/-- A packet that was retransmitted gives no sample. -/
theorem rtt_sample_counter {packet : Packet} {sample_msec : UInt32} (sampled : packet.rtt_sample outcome = some sample_msec) :
    packet.retrans_counter = 0 := by
  unfold Packet.rtt_sample at sampled
  by_contra counted
  rw [if_pos (.inl counted)] at sampled
  cases sampled

/-- The state when the oldest packet has been acknowledged and unlinked. -/
def Link.acked (outcome : Outcome) (link : Link) (packet : Packet) (rest : List Packet) : Link :=
  { link with
    retrans_queue := rest
    obuf := if packet.retry_queued then (link.retry_cancel packet.sequence).obuf else link.obuf
    rtt := (packet.rtt_sample outcome).elim link.rtt link.rtt.sample }

/-- What the acknowledgement of the oldest packet is recorded as. -/
def Packet.acked (outcome : Outcome) (packet : Packet) : List Action :=
  ((packet.rtt_sample outcome).elim [] fun sample_msec => [.sampled packet.id sample_msec]) ++ [.acknowledged packet.id]

theorem ack_eq {packet : Packet} {rest : List Packet} (queue : link.retrans_queue = packet :: rest) (init : Bool) :
    link.ack outcome packet.sequence.1 init =
      (if init then link.acked outcome packet rest else (link.acked outcome packet rest).send_reliably outcome, packet.acked outcome) := by
  obtain ⟨_,rtt,obuf,next_id⟩ := link
  cases queue
  unfold Link.ack
  simp only [if_true]
  by_cases retry : packet.retry_queued = true
  · simp only [retry,if_true,Link.acked,Packet.acked,Link.retry_cancel]
  · simp only [retry,Link.acked,Packet.acked]
    rfl

theorem ack_other {ack : UInt32} (init : Bool) (other : ∀ packet ∈ link.retrans_queue.head?, ack ≠ packet.sequence.1) :
    link.ack outcome ack init = (link,[]) := by
  unfold Link.ack
  cases queue : link.retrans_queue with
  | nil => rfl
  | cons packet rest => exact if_neg (other packet (by rw [queue]; rfl))

theorem acked_obuf {packet : Packet} {rest : List Packet} : (link.acked outcome packet rest).obuf ⊆ link.obuf := by
  unfold Link.acked
  split
  · exact List.filter_subset_self _
  · exact List.Subset.refl _

/-- The oldest packet leaves with its sample. -/
theorem acked_sound {packet : Packet} {rest : List Packet} (sound : Sound link trace) (queue : link.retrans_queue = packet :: rest) :
    Sound (link.acked outcome packet rest) (trace ++ packet.acked outcome) := by
  have none_sent (id : Nat) : retries (packet.acked outcome) id = 0 := by
    unfold Packet.acked
    cases packet.rtt_sample outcome <;> rfl
  refine ⟨?_,?_,?_,?_,?_⟩
  · have keyed := sound.keyed
    rw [Link.keys,queue] at keyed
    exact (keyed.subset acked_obuf).tail
  · intro found member retried
    rw [retries_append,none_sent,Nat.add_zero] at retried
    exact sound.counted found (by rw [queue]; exact List.mem_cons_of_mem _ member) retried
  · intro id sequence retransmission member
    rcases List.mem_append.1 member with old | new
    · exact sound.wired id sequence retransmission old
    · unfold Packet.acked at new
      cases sampled : packet.rtt_sample outcome <;> rw [sampled] at new <;> simp at new
  · rw [samples_append]
    unfold Packet.acked Link.acked
    cases packet.rtt_sample outcome with
    | none => exact sound.rtt
    | some sample_msec => exact Rtt.sample_within sound.rtt
  · intro front back id sample_msec cut
    rcases cut_append cut with ⟨rest,old,_⟩ | ⟨first,rfl,new⟩
    · exact sound.unretried front rest id sample_msec old
    · unfold Packet.acked at new
      cases sampled : packet.rtt_sample outcome with
      | none =>
        rw [sampled] at new
        cases first with
        | nil => cases new
        | cons head tail => simp at new
      | some sample =>
        rw [sampled] at new
        cases first with
        | nil =>
          cases new
          rw [List.append_nil]
          by_contra retried
          exact sound.counted packet (by rw [queue]; exact List.mem_cons_self) retried (rtt_sample_counter sampled)
        | cons head tail => cases tail <;> simp at new

theorem ack_sound {ack : UInt32} {init : Bool} (sound : Sound link trace) :
    Sound (link.ack outcome ack init).1 (trace ++ (link.ack outcome ack init).2) := by
  by_cases matched : ∃ packet rest, link.retrans_queue = packet :: rest ∧ ack = packet.sequence.1
  · obtain ⟨packet,rest,queue,rfl⟩ := matched
    rw [ack_eq queue]
    have left := @acked_sound _ outcome _ _ _ sound queue
    cases init with
    | false => exact send_reliably_sound left
    | true => exact left
  · have other : ∀ packet ∈ link.retrans_queue.head?, ack ≠ packet.sequence.1 := by
      intro packet is_head same
      obtain ⟨rest,queue⟩ := List.head?_eq_some_iff.1 is_head
      exact matched ⟨packet,rest,queue,same⟩
    rw [ack_other init other,List.append_nil]
    exact sound

/-- The neighbor is gone, and its copies with it. -/
theorem cleared_sound {obuf : List Output} {rtt : Rtt} (sound : Sound link trace) (fewer : obuf ⊆ link.obuf) (clear : rtt = link.rtt.clear)
    (actions : List Action) (quiet : ∀ packet, .wire packet ∉ actions)
    (unsampled : ∀ id sample_msec, .sampled id sample_msec ∉ actions) :
    Sound { link with retrans_queue := [], obuf, rtt } (trace ++ (actions ++ [.cleared])) where
  keyed := (sound.keyed.subset fewer).clear
  counted := fun _ member => by cases member
  wired := by
    intro id sequence retransmission member
    rcases List.mem_append.1 member with old | new
    · exact sound.wired id sequence retransmission old
    · rcases List.mem_append.1 new with here | last
      · exact absurd here (quiet _)
      · simp at last
  rtt := by
    rw [samples_append,List.foldl_append,clear]
    exact @Rtt.clear_within link.rtt
  unretried := by
    intro front back id sample_msec cut
    rcases cut_append cut with ⟨rest,old,_⟩ | ⟨first,_,new⟩
    · exact sound.unretried front rest id sample_msec old
    · have member : Action.sampled id sample_msec ∈ actions ++ [.cleared] := by rw [new]; simp
      rcases List.mem_append.1 member with here | last
      · exact absurd here (unsampled id sample_msec)
      · simp at last

theorem delete_sound (sound : Sound link trace) : Sound link.delete (trace ++ [.cleared]) :=
  cleared_sound sound (List.filter_subset_self _) rfl [] (fun _ member => by cases member) (fun _ _ member => by cases member)

/-- A copy of the oldest packet is queued; it is a retransmission when the packet has been sent. -/
theorem unack_retrans_sound (sound : Sound link trace) : Sound (link.unack_retrans outcome).1 (trace ++ (link.unack_retrans outcome).2) := by
  unfold Link.unack_retrans
  cases queue : link.retrans_queue with
  | nil => simpa using sound
  | cons packet rest =>
    have here : packet ∈ link.retrans_queue := by rw [queue]; exact List.mem_cons_self
    simp only
    by_cases queued : packet.retry_queued = true
    · rw [if_pos queued]
      simpa using sound
    rw [if_neg queued]
    by_cases limit : packet.retrans_counter ≥ retrans_max
    · rw [if_pos limit]
      exact cleared_sound sound (List.filter_subset_self _) rfl [.retry_limit packet.id] (by simp) (by simp)
    rw [if_neg limit]
    by_cases no_memory : outcome.dup = false
    · rw [if_pos no_memory,List.append_nil]
      refine ⟨?_,?_,sound.wired,sound.rtt,sound.unretried⟩
      · have keyed := sound.keyed
        rw [Link.keys,queue] at keyed
        exact keyed
      · intro found member retried
        rcases List.mem_cons.1 member with rfl | old
        · exact sound.counted packet here retried
        · exact sound.counted found (by rw [queue]; exact List.mem_cons_of_mem _ old) retried
    · rw [if_neg no_memory,List.append_nil]
      refine ⟨?_,?_,sound.wired,?_,sound.unretried⟩
      · have keyed := sound.keyed
        rw [Link.keys,queue] at keyed
        refine keyed.append ?_ ?_
        · intro id sequence retransmission member
          cases List.mem_singleton.1 member
          exact keyed.created packet.key List.mem_cons_self
        · intro id sequence member
          have equal := List.mem_singleton.1 member
          injection equal with ids sequences
          rw [ids,sequences]
          rfl
      · intro found member retried
        rcases List.mem_cons.1 member with rfl | old
        · exact sound.counted packet here retried
        · exact sound.counted found (by rw [queue]; exact List.mem_cons_of_mem _ old) retried
      · split
        · exact Rtt.backoff_within sound.rtt
        · exact sound.rtt

/-- Changes of the queue that touch neither key nor counter of a packet. -/
theorem timer_sound {update : Packet → Packet} (sound : Sound link trace) (position : Nat)
    (same : ∀ packet, (update packet).key = packet.key ∧ (update packet).retrans_counter = packet.retrans_counter) :
    Sound { link with retrans_queue := link.retrans_queue.modify position update } trace where
  keyed := by
    rw [Link.keys,keys_modify position fun packet => (same packet).1]
    exact sound.keyed
  counted := by
    intro found member retried
    obtain ⟨place,at_place⟩ := List.mem_iff_getElem?.1 member
    rw [List.getElem?_modify] at at_place
    obtain ⟨packet,old,rfl⟩ := Option.map_eq_some_iff.1 at_place
    have there := List.mem_of_getElem? old
    split
    · have ids : (update packet).id = packet.id := congrArg Prod.fst (same packet).1
      rw [if_pos (by assumption),ids] at retried
      rw [(same packet).2]
      exact sound.counted packet there retried
    · rw [if_neg (by assumption)] at retried
      exact sound.counted packet there retried
  wired := sound.wired
  rtt := sound.rtt
  unretried := sound.unretried

/-- A packet that is created has not been on the wire. -/
theorem create_sound {front back : List Packet} {sequence : Sequence} {obuf : List Output} (sound : Sound link trace)
    (queue : link.retrans_queue = front ++ back) (fewer : ∀ id sequence retransmission, .copy id sequence retransmission ∈ obuf →
      .copy id sequence retransmission ∈ link.obuf) (behind : back = [] ∨ ∀ id sequence, .copy id sequence true ∉ obuf) :
    Sound { link with retrans_queue := front ++ { id := link.next_id, sequence } :: back, obuf, next_id := link.next_id + 1 } trace where
  keyed := by
    have keyed := sound.keyed
    rw [Link.keys,queue,List.map_append] at keyed
    have kept : Keyed (front.map Packet.key ++ back.map Packet.key) obuf link.next_id :=
      { created := keyed.created
        nodup := keyed.nodup
        copied := fun id sequence retransmission member => keyed.copied id sequence retransmission (fewer id sequence retransmission member)
        head := fun id sequence member => keyed.head id sequence (fewer id sequence true member) }
    rw [Link.keys,List.map_append,List.map_cons]
    refine kept.create ?_
    rcases behind with rfl | none_there
    · exact .inl rfl
    · exact .inr none_there
  counted := by
    intro found member retried
    have old (there : found ∈ front ++ back) : found.retrans_counter ≠ 0 := sound.counted found (by rw [queue]; exact there) retried
    rcases List.mem_append.1 member with here | rest
    · exact old (by simp [here])
    · rcases List.mem_cons.1 rest with rfl | here
      · exact absurd (retries_eq_zero fun sequence wired => Nat.lt_irrefl _ (sound.wired link.next_id sequence true wired)) retried
      · exact old (by simp [here])
  wired := fun id sequence retransmission member => (sound.wired id sequence retransmission member).trans (Nat.lt_succ_self _)
  rtt := sound.rtt
  unretried := sound.unretried

theorem enqueue_sound {sequence : Sequence} (sound : Sound link trace) : Sound (link.enqueue outcome sequence) trace := by
  have queued : Sound { link with retrans_queue := link.retrans_queue ++ [{ id := link.next_id, sequence }], next_id := link.next_id + 1 } trace :=
    create_sound sound (List.append_nil _).symm (fun _ _ _ member => member) (.inl rfl)
  unfold Link.enqueue
  simp only
  split
  · exact send_reliably_sound queued
  · exact queued

theorem multicast_admit_sound {sequence : Sequence} {receiver busy : Bool} (sound : Sound link trace) :
    Sound (link.multicast_admit sequence receiver busy) trace := by
  unfold Link.multicast_admit
  by_cases empty : link.obuf.isEmpty = true
  · rw [if_pos empty]
    have no_copy (id : Nat) (other : Sequence) (retransmission : Bool) :
        .copy id other retransmission ∉ (if busy then [Output.other] else []) ++
          [.multicast (if receiver then some link.next_id else none) sequence] := by
      cases busy <;> simp
    simp only
    by_cases receives : receiver = true
    · rw [if_pos receives]
      refine create_sound sound List.takeWhile_append_dropWhile.symm ?_ (.inr fun id other => no_copy id other true)
      exact fun id other retransmission member => absurd member (no_copy id other retransmission)
    · rw [if_neg receives]
      refine ⟨?_,sound.counted,sound.wired,sound.rtt,sound.unretried⟩
      exact { created := sound.keyed.created
              nodup := sound.keyed.nodup
              copied := fun id other retransmission member => absurd member (no_copy id other retransmission)
              head := fun id other member => absurd member (no_copy id other true) }
  · rw [if_neg empty]
    exact sound

theorem step_sound (sound : Sound link trace) (event : Event) : Sound (link.step outcome event).1 (trace ++ (link.step outcome event).2) := by
  cases event with
  | enqueue sequence =>
    rw [Link.step,List.append_nil]
    exact enqueue_sound sound
  | multicast_admit sequence receiver busy =>
    rw [Link.step,List.append_nil]
    exact multicast_admit_sound sound
  | output front =>
    rw [Link.step,List.append_nil]
    refine ⟨?_,sound.counted,sound.wired,sound.rtt,sound.unretried⟩
    have plain : Keyed link.keys (link.obuf ++ [.other]) link.next_id :=
      sound.keyed.append (fun _ _ _ member => by simp at member) (fun _ _ member => by simp at member)
    refine plain.subset ?_
    cases front with
    | false => exact List.Subset.refl _
    | true => exact fun packet member => List.mem_append.2 ((List.mem_cons.1 member).elim (fun new => .inr (by simp [new])) .inl)
  | write => exact write_sound sound
  | ack ack init => exact ack_sound sound
  | retrans_timer position =>
    unfold Link.step
    simp only
    split
    · exact unack_retrans_sound (timer_sound sound position fun packet => ⟨rfl,rfl⟩)
    · simpa using sound
  | state_down =>
    exact cleared_sound sound (List.Subset.refl _) rfl [] (fun _ member => by cases member) (fun _ _ member => by cases member)
  | nbr_down =>
    exact cleared_sound sound (List.filter_subset_self _) rfl [] (fun _ member => by cases member) (fun _ _ member => by cases member)
  | delete => exact delete_sound sound
  | intf_down =>
    exact cleared_sound sound (List.nil_subset _) rfl [] (fun _ member => by cases member) (fun _ _ member => by cases member)

theorem run_sound (steps : List (Outcome × Event)) : Sound (run steps).1 (run steps).2 := by
  induction steps using List.reverseRecOn with
  | nil => exact sound_new
  | append_singleton steps step ih =>
    rw [run_snoc]
    exact step_sound ih step.2

theorem ack_wire {ack : UInt32} {init : Bool} {packet : Output} : .wire packet ∉ (link.ack outcome ack init).2 := by
  intro sent
  unfold Link.ack at sent
  cases queue : link.retrans_queue with
  | nil => simp [queue] at sent
  | cons head rest =>
    simp only [queue] at sent
    by_cases matched : ack = head.sequence.1
    · rw [if_pos matched] at sent
      cases sampled : head.rtt_sample outcome <;> simp [sampled] at sent
    · simp [matched] at sent

theorem unack_retrans_wire {packet : Output} : .wire packet ∉ (link.unack_retrans outcome).2 := by
  intro sent
  unfold Link.unack_retrans at sent
  split at sent
  · simp at sent
  · split_ifs at sent <;> simp at sent

/-- What a step puts on the wire is the packet in front of the output queue. -/
theorem step_wire {event : Event} {packet : Output} (sent : .wire packet ∈ (link.step outcome event).2) :
    event = .write ∧ outcome.paced = false ∧ outcome.sends = true ∧ link.obuf.head? = some packet ∧
      (link.step outcome event).2 = [.wire packet] := by
  cases event with
  | write =>
    simp only [Link.step,Link.write] at sent ⊢
    cases waiting : link.obuf with
    | nil => simp [waiting] at sent
    | cons head obuf =>
      simp only [waiting] at sent ⊢
      by_cases paced : outcome.paced = true
      · simp [paced] at sent
      · by_cases accepted : outcome.sends = true
        · rw [if_neg paced,if_pos accepted] at sent ⊢
          have same : packet = head := by simpa using sent
          subst same
          exact ⟨trivial,by simpa using paced,accepted,rfl,rfl⟩
        · simp [paced,accepted] at sent
  | ack ack init => exact absurd sent ack_wire
  | retrans_timer position =>
    unfold Link.step at sent
    simp only at sent
    split at sent
    · exact absurd sent unack_retrans_wire
    · cases sent
  | _ => simp [Link.step] at sent

theorem sends_eq_zero {actions : List Action} (unsent : ∀ packet, .wire packet ∉ actions) (id : Nat) : sends actions id = 0 := by
  refine List.countP_eq_zero.2 fun action member sent => ?_
  cases action with
  | wire packet => exact unsent packet member
  | _ => cases sent

theorem sends_append (actions : List Action) (id : Nat) : sends (trace ++ actions) id = sends trace id + sends actions id :=
  List.countP_append

/-- Where unmarked sends are first ones, a packet has never been on the wire more often than its retransmissions and once. -/
theorem run_sends {steps : List (Outcome × Event)} (first : FirstSends steps) {id : Nat} {front back : List Action}
    (cut : (run steps).2 = front ++ back) : sends front id ≤ retries front id + 1 := by
  induction steps using List.reverseRecOn generalizing front back with
  | nil =>
    obtain ⟨rfl,_⟩ := List.append_eq_nil_iff.1 cut.symm
    exact Nat.zero_le _
  | append_singleton steps step ih =>
    obtain ⟨outcome,event⟩ := step
    have earlier : FirstSends steps := by
      intro front other back cut
      refine first front other (back ++ [(outcome,event)]) ?_
      rw [cut,List.append_assoc,List.cons_append]
    rw [run_snoc] at cut
    rcases List.append_eq_append_iff.1 cut with ⟨more,rfl,actions⟩ | ⟨more,old,_⟩
    · have before : sends (run steps).2 id ≤ retries (run steps).2 id + 1 := ih earlier (List.append_nil _).symm
      rw [sends_append,retries_append]
      by_cases sent : ∃ packet, .wire packet ∈ more
      · obtain ⟨packet,sent⟩ := sent
        have here : .wire packet ∈ ((run steps).1.step outcome event).2 := actions ▸ List.mem_append_left back sent
        obtain ⟨rfl,paced,accepted,waits,only⟩ := step_wire here
        have fresh := first steps outcome [] rfl paced accepted packet waits id
        have single : more = [.wire packet] := by
          cases more with
          | nil => cases sent
          | cons head rest =>
            rw [only,List.cons_append] at actions
            obtain ⟨rfl,rest_nil⟩ := List.cons.inj actions
            rw [(List.append_eq_nil_iff.1 rest_nil.symm).1]
        subst single
        by_cases unmarked : packet.unmarked = some id
        · have never := fresh unmarked
          have once : sends [.wire packet] id ≤ 1 := List.countP_le_length
          omega
        · have marked : Action.Sends id (.wire packet) = Action.Retries id (.wire packet) := by simp [Action.Sends,unmarked]
          have same : sends [.wire packet] id = retries [.wire packet] id := by
            rw [sends,retries,List.countP_singleton,List.countP_singleton,marked]
          omega
      · have none_sent := sends_eq_zero (fun packet member => sent ⟨packet,member⟩) id
        omega
    · exact ih earlier old

/-- In every run the timeout is within its limits and the estimates are within the samples since they were cleared. Where
each send that is not marked as a retransmission is the first of its packet, no packet gives a sample that has been
retransmitted. -/
theorem round_trip_sane (steps : List (Outcome × Event)) :
    let nbr := (run steps).1.rtt
    let since_clear := samples (run steps).2
    (rto_min_msec ≤ nbr.rto ∧ nbr.rto ≤ rto_max_msec) ∧
      (nbr.srtt_valid = true → (∃ least ∈ since_clear, least ≤ nbr.srtt_msec) ∧ (∃ most ∈ since_clear, nbr.srtt_msec ≤ most) ∧
        ∃ most ∈ since_clear, nbr.rttvar_msec ≤ most) ∧
      (nbr.srtt_valid = false → since_clear = []) ∧
      (∀ sample_msec, 0 ≤ nbr.next_rttvar sample_msec ∧ 0 ≤ nbr.next_srtt sample_msec) ∧
      (∀ front back id sample_msec, (run steps).2 = front ++ .sampled id sample_msec :: back →
        ∀ sequence, .wire (.copy id sequence true) ∉ front) ∧
      (FirstSends steps → ∀ front back id sample_msec, (run steps).2 = front ++ .sampled id sample_msec :: back →
        ¬ Retransmitted front id) := by
  have sound := run_sound steps
  refine ⟨Rtt.rto_within sound.rtt.limited,fun set => ⟨sound.rtt.above set,sound.rtt.below set,sound.rtt.variation set⟩,sound.rtt.unset,
    fun sample_msec => ⟨Rtt.next_rttvar_between.1,?_⟩,fun front back id sample_msec cut sequence member => ?_,
    fun first front back id sample_msec cut => ?_⟩
  · have between := (@Rtt.next_srtt_between (run steps).1.rtt sample_msec).1
    omega
  · have none_before := List.countP_eq_zero.1 (sound.unretried front back id sample_msec cut) _ member
    simp [Action.Retries] at none_before
  · have unretried := sound.unretried front back id sample_msec cut
    have once := @run_sends steps first id front _ cut
    rintro (again | retried)
    · omega
    · exact retried unretried

/-- A packet is sent and acknowledged 50 ms later. -/
def answered_steps : List (Outcome × Event) := [({},.enqueue ⟨1,Rtp.one_nonzero⟩),({},.write),({ now_msec := 51 },.ack 1 false)]

theorem answered_first_sends : FirstSends answered_steps := by
  intro front outcome back cut paced accepted packet waits id unmarked
  rcases front with _ | ⟨first,_ | ⟨second,rest⟩⟩
  · simp [answered_steps] at cut
  · simp only [answered_steps,List.cons_append,List.nil_append,List.cons.injEq] at cut
    rw [← cut.1]
    rfl
  · rcases rest with _ | ⟨third,rest⟩ <;> simp [answered_steps] at cut

theorem fifty_msec_sane :
    let nbr := (run answered_steps).1.rtt
    nbr.srtt_valid = true ∧ nbr.srtt_msec = 50 ∧ nbr.rttvar_msec ≤ 50 ∧ rto_min_msec ≤ nbr.rto ∧
      ¬ Retransmitted [.wire (.copy 0 ⟨1,by decide⟩ false)] 0 := by
  have sane := round_trip_sane answered_steps
  have set : (run answered_steps).1.rtt.srtt_valid = true := by decide
  obtain ⟨_,_,most,member,bound⟩ := sane.2.1 set
  have fifty : most = 50 := by
    have only : samples (run answered_steps).2 = [50] := by decide
    rw [only] at member
    exact List.mem_singleton.1 member
  have trace : (run answered_steps).2 = [.wire (.copy 0 ⟨1,by decide⟩ false)] ++ .sampled 0 50 :: [.acknowledged 0] := by decide
  exact ⟨set,by decide,fifty ▸ bound,sane.1.1,sane.2.2.2.2.2 answered_first_sends _ _ _ _ trace⟩

/-- A multicast waits for pacing while the ACK of the packet before it queues the unicast copy; both are sent, and the ACK
comes a second after the first. -/
def recovered_steps : List (Outcome × Event) :=
  [({},.enqueue ⟨1,Rtp.one_nonzero⟩),({},.write),({}, Event.multicast_admit ⟨2,Rtp.two_nonzero⟩ true true),({},.write),
   ({ paced := true },.write),({ now_msec := 51 },.ack 1 false),({ now_msec := 100 },.write),({ now_msec := 110 },.write),
   ({ now_msec := 1100 },.ack 2 false)]

theorem recovered_copy_sampled :
    ¬ ∀ front back id sample_msec, (run recovered_steps).2 = front ++ .sampled id sample_msec :: back →
      ¬ Retransmitted front id := by
  intro unambiguous
  have trace : (run recovered_steps).2 = ((run recovered_steps).2.take 6) ++ .sampled 1 1000 :: [.acknowledged 1] := by decide
  have twice : 2 ≤ sends ((run recovered_steps).2.take 6) 1 := by decide
  exact unambiguous _ _ _ _ trace (.inl twice)

end Steps

end Eigrp.Retry
