import Eigrp.Rtp

/-!
# Progress of the reliable transport

The oldest packet of a neighbor never lies idle: `Sound` says what keeps it moving, by whether it has been on the
wire. Each operation keeps it, but for those that `Calm` names: a timer that fires on a packet that was never sent,
a timer event that cannot be allocated, and sequence numbers that have come round.
-/

namespace Eigrp.Rtp

/-- Behind the oldest packet nothing has been sent. -/
def Unsent (queue : List Reliable) : Prop := ∀ packet ∈ queue, packet.sent = false ∧ packet.retry_queued = false

/-- What keeps the oldest packet moving. On the wire once: its timer, or a retransmission in the output queue. Never
    on the wire: its timer, a copy in the output queue, or a multicast in front of it. -/
def Peer.HeadSound (nbr : Peer) (obuf : List Output) (pending : List Multicast) (head : Reliable) : Prop :=
  if head.sent then
    (head.retry_queued = false ∧ head.timer) ∨ (head.retry_queued ∧ ∃ cr, .packet head.sequence (some nbr.id) true cr ∈ obuf)
  else
    head.retry_queued = false ∧
      (head.timer ∨ (∃ cr, .packet head.sequence (some nbr.id) false cr ∈ obuf) ∨ (∃ cr, .packet head.sequence none false cr ∈ obuf) ∨
        nbr.behind_multicast pending head.sequence)

def Peer.Sound (nbr : Peer) (obuf : List Output) (pending : List Multicast) : Prop :=
  match nbr.retrans_queue with
  | [] => True
  | head :: rest => Unsent rest ∧ nbr.HeadSound obuf pending head

def Transport.Sound (ei : Transport) : Prop := ∀ nbr ∈ ei.nbrs, nbr.Sound ei.obuf ei.multicast_pending

theorem Peer.Sound.progresses {ei : Transport} {nbr : Peer} (sound : nbr.Sound ei.obuf ei.multicast_pending) :
    nbr.Progresses ei := by
  intro head first
  rcases queue : nbr.retrans_queue with _ | ⟨oldest,rest⟩
  · simp [queue] at first
  · obtain rfl : oldest = head := by simpa [queue] using first
    simp only [Peer.Sound,queue] at sound
    have moving := sound.2
    unfold Peer.HeadSound at moving
    split at moving
    · rcases moving with ⟨idle,timer⟩ | ⟨_,cr,copy⟩
      · exact .inl ⟨timer,by simp [idle]⟩
      · exact .inr (.inl ⟨_,_,_,copy,.inl rfl⟩)
    · obtain ⟨idle,timer | ⟨cr,copy⟩ | ⟨cr,copy⟩ | held⟩ := moving
      · exact .inl ⟨timer,by simp [idle]⟩
      · exact .inr (.inl ⟨_,_,_,copy,.inl rfl⟩)
      · exact .inr (.inl ⟨_,_,_,copy,.inr rfl⟩)
      · exact .inr (.inr held)

/-- A packet of the output queue that a neighbor receives. -/
def Output.For (id : Nat) : Output → Prop
  | .hello _ => False
  | .packet _ dst _ _ => dst = some id ∨ dst = none

/-- A neighbor stays sound as long as its copies stay in the output queue and the multicasts hold it as before. -/
theorem Peer.Sound.mono {nbr : Peer} {obuf obuf' : List Output} {pending pending' : List Multicast}
    (sound : nbr.Sound obuf pending) (kept : ∀ out ∈ obuf, out.For nbr.id → out ∈ obuf')
    (held : ∀ sequence, nbr.behind_multicast pending sequence → nbr.behind_multicast pending' sequence) :
    nbr.Sound obuf' pending' := by
  rcases queue : nbr.retrans_queue with _ | ⟨head,rest⟩
  · simp [Peer.Sound,queue]
  · simp only [Peer.Sound,queue] at sound ⊢
    refine ⟨sound.1,?_⟩
    have moving := sound.2
    unfold Peer.HeadSound at moving ⊢
    split
    · rename_i sent
      rw [if_pos sent] at moving
      rcases moving with idle | ⟨retry,cr,copy⟩
      · exact .inl idle
      · exact .inr ⟨retry,cr,kept _ copy (.inl rfl)⟩
    · rename_i unsent
      rw [if_neg unsent] at moving
      refine ⟨moving.1,?_⟩
      rcases moving.2 with timer | ⟨cr,copy⟩ | ⟨cr,copy⟩ | behind
      · exact .inl timer
      · exact .inr (.inl ⟨cr,kept _ copy (.inl rfl)⟩)
      · exact .inr (.inr (.inl ⟨cr,kept _ copy (.inr rfl)⟩))
      · exact .inr (.inr (.inr (held _ behind)))

/-! ## The parts of a step -/

@[simp] theorem multicast_resume_nbrs (ei : Transport) : ei.multicast_resume.nbrs = ei.nbrs := by
  unfold Transport.multicast_resume
  split
  · rfl
  · dsimp only
    split_ifs <;> rfl

@[simp] theorem multicast_resume_obuf (ei : Transport) : ei.multicast_resume.obuf = ei.obuf := by
  unfold Transport.multicast_resume
  split
  · rfl
  · dsimp only
    split_ifs <;> rfl

@[simp] theorem multicast_resume_pending (ei : Transport) :
    ei.multicast_resume.multicast_pending = ei.multicast_pending := by
  unfold Transport.multicast_resume
  split
  · rfl
  · dsimp only
    split_ifs <;> rfl

theorem sound_resume {ei : Transport} (sound : ei.Sound) : ei.multicast_resume.Sound := by
  intro nbr member
  rw [multicast_resume_nbrs] at member
  rw [multicast_resume_obuf, multicast_resume_pending]
  exact sound nbr member

theorem nbr_mem {ei : Transport} {id : Nat} {nbr : Peer} (found : ei.nbr id = some nbr) : nbr ∈ ei.nbrs ∧ nbr.id = id := by
  unfold Transport.nbr at found
  exact ⟨List.mem_of_find?_eq_some found,by simpa using List.find?_some found⟩

/-- Every neighbor but those of one id is sound. -/
def Transport.SoundBut (ei : Transport) (id : Nat) : Prop :=
  ∀ nbr ∈ ei.nbrs, nbr.id ≠ id → nbr.Sound ei.obuf ei.multicast_pending

theorem Transport.Sound.but {ei : Transport} (sound : ei.Sound) (id : Nat) : ei.SoundBut id :=
  fun nbr member _ => sound nbr member

theorem soundBut_resume {ei : Transport} {id : Nat} (sound : ei.SoundBut id) : ei.multicast_resume.SoundBut id := by
  intro nbr member other
  rw [multicast_resume_nbrs] at member
  rw [multicast_resume_obuf, multicast_resume_pending]
  exact sound nbr member other

theorem soundBut_put {ei : Transport} {nbr : Peer} (sound : ei.SoundBut nbr.id) (outputs : List Output) :
    (ei.put nbr outputs).SoundBut nbr.id := by
  intro other member different
  obtain ⟨old,old_member,rfl⟩ := List.mem_map.1 member
  by_cases same : old.id = nbr.id
  · simp [same] at different
  · rw [if_neg same]
    exact (sound old old_member same).mono (fun out waiting _ => List.mem_append_left _ waiting) (fun _ held => held)

/-- A neighbor is replaced: it has to be sound itself, the others only see the output queue grow. -/
theorem sound_put {ei : Transport} {id : Nat} (sound : ei.SoundBut id) {nbr : Peer} (its : nbr.id = id)
    {outputs : List Output} (next : nbr.Sound (ei.obuf ++ outputs) ei.multicast_pending) :
    (ei.put nbr outputs).Sound := by
  subst its
  intro other member
  by_cases same : other.id = nbr.id
  · obtain ⟨old,_,rfl⟩ := List.mem_map.1 member
    by_cases replaced : old.id = nbr.id
    · simpa [Transport.put,replaced] using next
    · simp [replaced] at same
  · exact soundBut_put sound outputs other member same

theorem soundBut_retry_cancel {ei : Transport} {id : Nat} (sound : ei.SoundBut id) (sequence : Sequence) :
    (ei.retry_cancel id sequence).SoundBut id := by
  intro nbr member other
  refine (sound nbr member other).mono (fun out waiting received => ?_) (fun _ held => held)
  refine List.mem_filter.2 ⟨waiting,?_⟩
  cases out with
  | hello => rfl
  | packet queued dst retransmission cr =>
    rcases received with rfl | rfl
    · simp [other]
    · simp

theorem soundBut_output_clear {ei : Transport} {id : Nat} (sound : ei.SoundBut id) : (ei.output_clear id).SoundBut id := by
  intro nbr member other
  refine (sound nbr member other).mono (fun out waiting received => ?_) (fun _ held => held)
  refine List.mem_filter.2 ⟨waiting,?_⟩
  cases out with
  | hello => rfl
  | packet sequence dst retransmission cr =>
    rcases received with rfl | rfl
    · simp [other]
    · simp

theorem sound_delete {ei : Transport} (sound : ei.Sound) (id : Nat) : (ei.delete id).Sound := by
  refine sound_resume fun nbr member => ?_
  obtain ⟨old,other⟩ := List.mem_filter.1 member
  exact soundBut_output_clear (sound.but id) nbr old (by simpa using other)

theorem unsent_modify {queue : List Reliable} (unsent : Unsent queue) (position : Nat) :
    Unsent (queue.modify position fun packet => { packet with timer := false }) := by
  intro packet member
  obtain ⟨index,found⟩ := List.mem_iff_getElem?.1 member
  rw [List.getElem?_modify] at found
  split at found
  · obtain ⟨old,at_index,rfl⟩ := Option.map_eq_some_iff.1 found
    exact unsent old (List.mem_iff_getElem?.2 ⟨index,at_index⟩)
  · exact unsent packet (List.mem_iff_getElem?.2 ⟨index,by simpa using found⟩)

section Timers
variable {outcome : Outcome} (timers : ∀ id, outcome.timer id = true)
include timers

/-- A queue of packets that were never sent is sound once its head is handed to `eigrp_packet_send_reliably`. -/
theorem sound_send_reliably {nbr : Peer} (unsent : Unsent nbr.retrans_queue) (obuf : List Output)
    (pending : List Multicast) :
    (nbr.send_reliably outcome pending).1.id = nbr.id ∧
      (nbr.send_reliably outcome pending).1.Sound (obuf ++ (nbr.send_reliably outcome pending).2) pending := by
  unfold Peer.send_reliably
  rcases queue : nbr.retrans_queue with _ | ⟨head,rest⟩
  · simp [Peer.Sound,queue]
  · rw [queue] at unsent
    obtain ⟨fresh,idle⟩ := unsent head (by simp)
    have behind_head : Unsent rest := fun packet member => unsent packet (by simp [member])
    by_cases held : nbr.behind_multicast pending head.sequence = true
    · simp [Peer.Sound,queue,behind_head,Peer.HeadSound,fresh,idle,held]
    · by_cases copied : outcome.dup nbr.id = true
      · simp [Peer.Sound,queue,behind_head,Peer.HeadSound,fresh,idle,held,copied]
      · simp [Peer.Sound,behind_head,Peer.HeadSound,fresh,idle,held,copied,Peer.timer_start,timers]

theorem sound_put_sent {ei : Transport} {nbr : Peer} (sound : ei.SoundBut nbr.id) (unsent : Unsent nbr.retrans_queue) :
    (ei.put (nbr.send_reliably outcome ei.multicast_pending).1
      (nbr.send_reliably outcome ei.multicast_pending).2).Sound := by
  obtain ⟨same,next⟩ := sound_send_reliably timers unsent ei.obuf ei.multicast_pending
  exact sound_put sound same next

theorem sound_enqueue {ei : Transport} (sound : ei.Sound) {nbr : Peer}
    (itself : nbr.Sound ei.obuf ei.multicast_pending) (sequence : Sequence) :
    (ei.enqueue outcome nbr sequence).Sound := by
  unfold Transport.enqueue
  dsimp only
  rcases queue : nbr.retrans_queue with _ | ⟨head,rest⟩
  · have unsent : Unsent ([] ++ [({ sequence } : Reliable)]) := by simp [Unsent]
    exact @sound_put_sent outcome timers ei { nbr with retrans_queue := [] ++ [{ sequence }] } (sound.but nbr.id) unsent
  · rw [if_neg (by simp)]
    refine sound_put (sound.but nbr.id) (by rfl) ?_
    simp only [Peer.Sound,queue] at itself
    obtain ⟨unsent,moving⟩ := itself
    have appended : Unsent (rest ++ [({ sequence } : Reliable)]) := by
      intro packet member
      rcases List.mem_append.1 member with old | new
      · exact unsent packet old
      · simp [List.mem_singleton.1 new]
    simp only [List.append_nil,Peer.Sound,List.cons_append]
    exact ⟨appended,moving⟩

theorem sound_ack {ei : Transport} (sound : ei.Sound) {nbr : Peer} (member : nbr ∈ ei.nbrs) (sequence : Sequence)
    (alone : nbr.state = .pending → nbr.init_sequence_number = some sequence → nbr.retrans_queue.tail = []) :
    (ei.ack outcome nbr sequence).Sound := by
  have itself := sound nbr member
  unfold Transport.ack
  rcases queue : nbr.retrans_queue with _ | ⟨head,rest⟩
  · exact sound
  · simp only [Peer.Sound,queue] at itself
    dsimp only
    split
    · exact sound
    · -- between the dequeue and the send the neighbor itself may be idle
      have cancelled : Transport.SoundBut (if head.retry_queued then ei.retry_cancel nbr.id sequence else ei) nbr.id := by
        split
        · exact soundBut_retry_cancel (sound.but nbr.id) sequence
        · exact sound.but nbr.id
      have dequeued := soundBut_resume (@soundBut_put _ { nbr with retrans_queue := rest } cancelled [])
      split
      · rename_i handshake
        have empty : rest = [] := by simpa [queue] using alone handshake.1 handshake.2
        refine @sound_put _ nbr.id dequeued _ (by rfl) _ ?_
        simp [Peer.Sound,empty]
      · exact @sound_put_sent outcome timers _ { nbr with retrans_queue := rest } dequeued itself.1

theorem sound_retrans_timer {ei : Transport} (sound : ei.Sound) {nbr : Peer} (member : nbr ∈ ei.nbrs) (position : Nat)
    (retried : ∀ head ∈ nbr.retrans_queue.head?, outcome.dup nbr.id = true → head.sent = true) :
    (ei.retrans_timer outcome nbr position).Sound := by
  have itself := sound nbr member
  rcases queue : nbr.retrans_queue with _ | ⟨head,rest⟩
  · simp only [Transport.retrans_timer,queue,Peer.unack_retrans,List.modify_nil]
    exact sound_put (sound.but nbr.id) (by rfl) (by simp [Peer.Sound])
  · simp only [Peer.Sound,queue] at itself
    obtain ⟨unsent,moving⟩ := itself
    have retried := retried head (by simp [queue])
    -- the fired timer leaves the head as it was but for its own slot, and the packets behind it unsent
    obtain ⟨fired,tail,modified,sequence,sent,retry,behind⟩ : ∃ fired tail,
        (head :: rest).modify position (fun packet => { packet with timer := false }) = fired :: tail ∧
        fired.sequence = head.sequence ∧ fired.sent = head.sent ∧ fired.retry_queued = head.retry_queued ∧
        Unsent tail := by
      cases position with
      | zero => exact ⟨_,_,rfl,rfl,rfl,rfl,unsent⟩
      | succ position => exact ⟨_,_,rfl,rfl,rfl,rfl,unsent_modify unsent position⟩
    unfold Peer.HeadSound at moving
    simp only [Transport.retrans_timer,queue,modified,Peer.unack_retrans]
    by_cases queued : head.retry_queued = true
    · rw [if_pos (by rw [retry]; exact queued)]
      refine sound_put (sound.but nbr.id) (by rfl) ?_
      have on_wire : head.sent = true := by
        by_contra never
        simp [never,queued] at moving
      simp only [on_wire,queued,if_true] at moving
      simpa [Peer.Sound,behind,Peer.HeadSound,sent,on_wire,retry,queued,sequence] using moving
    · rw [if_neg (by rw [retry]; exact queued)]
      by_cases limit : fired.retrans_counter ≥ retrans_max
      · rw [if_pos limit]
        exact sound_delete sound nbr.id
      · rw [if_neg limit]
        by_cases copied : outcome.dup nbr.id = true
        · rw [if_pos copied]
          refine sound_put (sound.but nbr.id) (by rfl) ?_
          simp [Peer.Sound,behind,Peer.HeadSound,sent,retried copied]
        · rw [if_neg copied]
          refine sound_put (sound.but nbr.id) (by rfl) ?_
          simp [Peer.Sound,behind,Peer.HeadSound,Peer.timer_start,timers,retry,queued]

/-- The packet at the front of the output queue goes on the wire. -/
theorem sound_wire_sent {nbr : Peer} {packet : Output} {obuf : List Output} {pending : List Multicast}
    (sound : nbr.Sound (packet :: obuf) pending) : (nbr.wire_sent outcome packet).Sound obuf pending := by
  rcases queue : nbr.retrans_queue with _ | ⟨head,rest⟩
  · have same : nbr.wire_sent outcome packet = nbr := by
      unfold Peer.wire_sent
      rw [queue]
      cases packet <;> rfl
    simp [same,Peer.Sound,queue]
  · cases packet with
    | hello sequence_tlv =>
      have same : nbr.wire_sent outcome (.hello sequence_tlv) = nbr := by simp [Peer.wire_sent]
      rw [same]
      refine sound.mono (fun out waiting received => ?_) (fun _ held => held)
      rcases List.mem_cons.1 waiting with rfl | waiting
      · exact absurd received id
      · exact waiting
    | packet sequence dst retransmission cr =>
      simp only [Peer.wire_sent,queue]
      split
      · -- a packet of another sequence number or for another neighbor
        rename_i foreign
        simp only [Peer.Sound,queue] at sound ⊢
        refine ⟨sound.1,?_⟩
        have moving := sound.2
        unfold Peer.HeadSound at moving ⊢
        simp only [List.mem_cons,Output.packet.injEq] at moving
        grind
      · rename_i its
        simp only [Peer.Sound,queue] at sound ⊢
        refine ⟨sound.1,?_⟩
        have moving := sound.2
        unfold Peer.HeadSound at moving ⊢
        simp only [List.mem_cons,Output.packet.injEq] at moving
        simp only [Peer.timer_start,timers]
        grind

end Timers

/-! ## Admission of a multicast -/

theorem before_asymm {first second : Sequence} (earlier : before first second = true) : before second first = false := by
  unfold before sequence_before at *
  simp only [bne_iff_ne,Bool.and_eq_true,decide_eq_true_eq,Bool.and_eq_false_iff,decide_eq_false_iff_not] at *
  right
  have bound := UInt32.lt_iff_toNat_lt.1 earlier.2
  intro later
  have later := UInt32.lt_iff_toNat_lt.1 later
  have different : first.1.toNat ≠ second.1.toNat := fun same => earlier.1 (UInt32.toNat_inj.1 same)
  have first_bound := first.1.toNat_lt
  have second_bound := second.1.toNat_lt
  rw [UInt32.toNat_sub] at bound later
  simp at bound later
  omega

/-- A neighbor that is not to receive the first multicast is held by the later ones as before. -/
theorem behind_of_ineligible {nbr : Peer} {packet : Multicast} {pending : List Multicast}
    (foreign : nbr.eligible packet.multicast_epoch = false) (sequence : Sequence)
    (held : nbr.behind_multicast (packet :: pending) sequence) : nbr.behind_multicast pending sequence := by
  unfold Peer.behind_multicast at held ⊢
  rw [List.takeWhile_cons] at held
  split at held
  · simpa [foreign] using held
  · simp at held

/-- The copy of a multicast joins the queue of a neighbor while the multicast itself goes to the output queue. -/
theorem sound_ordered_enqueue {nbr : Peer} {obuf : List Output} {packet : Multicast} {pending : List Multicast}
    (sound : nbr.Sound obuf (packet :: pending)) {obuf' : List Output} (kept : ∀ out ∈ obuf, out ∈ obuf')
    {cr : Bool} (sent : .packet packet.sequence none false cr ∈ obuf')
    (ahead : ∀ queued ∈ nbr.retrans_queue.dropWhile fun queued => before queued.sequence packet.sequence,
      queued.sent = false) :
    Peer.Sound { nbr with retrans_queue := ordered_enqueue nbr.retrans_queue { sequence := packet.sequence, cr } } obuf'
      pending := by
  rcases queue : nbr.retrans_queue with _ | ⟨head,rest⟩
  · exact ⟨by simp [Unsent],rfl,.inr (.inr (.inl ⟨cr,sent⟩))⟩
  · simp only [Peer.Sound,queue] at sound
    obtain ⟨unsent,moving⟩ := sound
    by_cases earlier : before head.sequence packet.sequence = true
    · -- the head stays; it was not held behind this multicast
      have free : nbr.behind_multicast (packet :: pending) head.sequence = false := by
        simp [Peer.behind_multicast,before_asymm earlier]
      have inserted : Unsent (ordered_enqueue rest { sequence := packet.sequence, cr }) := by
        intro queued member
        unfold ordered_enqueue at member
        rcases List.mem_append.1 member with front | back
        · exact unsent queued ((List.takeWhile_prefix _).subset front)
        · rcases List.mem_cons.1 back with rfl | back
          · exact ⟨rfl,rfl⟩
          · exact unsent queued ((List.dropWhile_suffix _).subset back)
      have order : ordered_enqueue (head :: rest) { sequence := packet.sequence, cr } =
          head :: ordered_enqueue rest { sequence := packet.sequence, cr } := by
        simp [ordered_enqueue,earlier]
      simp only [Peer.Sound,order]
      refine ⟨inserted,?_⟩
      unfold Peer.HeadSound at moving ⊢
      simp only [free] at moving
      split
      · rename_i on_wire
        rw [if_pos on_wire] at moving
        exact moving.imp_right fun ⟨retry,its,copy⟩ => ⟨retry,its,kept _ copy⟩
      · rename_i never
        rw [if_neg never] at moving
        obtain ⟨idle,timer | ⟨its,copy⟩ | ⟨its,copy⟩ | held⟩ := moving
        · exact ⟨idle,.inl timer⟩
        · exact ⟨idle,.inr (.inl ⟨its,kept _ copy⟩)⟩
        · exact ⟨idle,.inr (.inr (.inl ⟨its,kept _ copy⟩))⟩
        · simp at held
    · -- the copy becomes the head, in front of one that was never sent
      have order : ordered_enqueue (head :: rest) { sequence := packet.sequence, cr } =
          { sequence := packet.sequence, cr } :: head :: rest := by
        simp [ordered_enqueue,earlier]
      have never : head.sent = false := ahead head (by simp [queue,earlier])
      have idle : head.retry_queued = false := by
        unfold Peer.HeadSound at moving
        rw [if_neg (by simp [never])] at moving
        exact moving.1
      simp only [Peer.Sound,order]
      refine ⟨?_,rfl,.inr (.inr (.inl ⟨cr,sent⟩))⟩
      intro queued member
      rcases List.mem_cons.1 member with rfl | member
      · exact ⟨never,idle⟩
      · exact unsent queued member

/-- The next multicast is admitted behind everything its receivers have been sent. -/
def Transport.InOrder (ei : Transport) : Prop :=
  ∀ packet ∈ ei.multicast_pending.head?, ∀ nbr ∈ ei.nbrs, nbr.eligible packet.multicast_epoch →
    ∀ queued ∈ nbr.retrans_queue.dropWhile fun queued => before queued.sequence packet.sequence, queued.sent = false

theorem sound_admit_multicast {ei : Transport} (sound : ei.Sound) (order : ei.InOrder) (outcome : Outcome) :
    (ei.admit_multicast outcome).1.Sound := by
  unfold Transport.admit_multicast
  split
  · exact sound
  · rcases queue : ei.multicast_pending with _ | ⟨packet,pending⟩
    · simpa using sound
    · have order := order packet (by simp [queue])
      have unchanged : ∀ nbr ∈ ei.nbrs, nbr.Sound ei.obuf (packet :: pending) := by
        intro nbr member
        rw [← queue]
        exact sound nbr member
      dsimp only
      split_ifs with full none_left all_busy too_long failed
      · exact unchanged
      · -- nobody is left to receive it
        refine sound_resume fun nbr member => ?_
        have foreign : nbr.eligible packet.multicast_epoch = false := by
          have empty := List.isEmpty_iff.1 none_left
          simpa using List.filter_eq_nil_iff.1 empty nbr member
        exact (unchanged nbr member).mono (fun _ waiting _ => waiting) (behind_of_ineligible foreign)
      · exact unchanged
      · exact unchanged
      · exact unchanged
      all_goals
        intro nbr member
        obtain ⟨old,old_member,rfl⟩ := List.mem_map.1 member
        have before_admission := unchanged old old_member
        by_cases receiver : old.eligible packet.multicast_epoch = true
        · rw [if_pos receiver]
          refine sound_ordered_enqueue before_admission (fun out waiting => ?_) (by simp) (order old old_member receiver)
          simp [waiting]
        · rw [if_neg receiver]
          refine before_admission.mono (fun out waiting _ => ?_) (behind_of_ineligible (by simpa using receiver))
          simp [waiting]

/-! ## Runs -/

/-- A step that the transport takes in its stride: timer events can be allocated, no retransmission timer fires on a
    packet that was never on the wire (or its duplicate cannot be allocated), a multicast is admitted behind what its
    receivers have been sent, and nothing stands behind the INIT when it is acknowledged. -/
def Transport.Calm (outcome : Outcome) (ei : Transport) (event : Event) : Prop :=
  (∀ id, outcome.timer id = true) ∧
    match event with
    | .write => ei.obuf = [] → ei.InOrder
    | .ack id sequence => ∀ nbr ∈ ei.nbr id, nbr.state = .pending → nbr.init_sequence_number = some sequence →
        nbr.retrans_queue.tail = []
    | .retrans_timer id _ => ∀ nbr ∈ ei.nbr id, ∀ head ∈ nbr.retrans_queue.head?, outcome.dup id = true → head.sent = true
    | _ => True

theorem sound_step {outcome : Outcome} {ei : Transport} {event : Event} (sound : ei.Sound) (calm : ei.Calm outcome event) :
    (ei.step outcome event).Sound := by
  obtain ⟨timers,calm⟩ := calm
  cases event with
  | create id =>
    simp only [Transport.step]
    split
    · exact sound
    · intro nbr member
      rcases List.mem_append.1 member with old | new
      · exact sound nbr old
      · rw [List.mem_singleton.1 new]
        trivial
  | pending id =>
    simp only [Transport.step]
    cases found : ei.nbr id with
    | none => exact sound
    | some nbr =>
      dsimp only
      split
      · rename_i down
        refine sound_put (sound.but nbr.id) (by rfl) ?_
        have itself := sound nbr (nbr_mem found).1
        rcases queue : nbr.retrans_queue with _ | ⟨head,rest⟩
        · simp [Peer.Sound]
        · -- a neighbor that is DOWN is held behind no multicast
          have free (sequence : Sequence) : nbr.behind_multicast ei.multicast_pending sequence = false := by
            simp [Peer.behind_multicast,Peer.eligible,down]
          simp only [Peer.Sound,queue,List.append_nil] at itself ⊢
          refine ⟨itself.1,?_⟩
          have moving := itself.2
          unfold Peer.HeadSound at moving ⊢
          simp only [free] at moving
          split
          · rename_i on_wire
            rwa [if_pos on_wire] at moving
          · rename_i never
            rw [if_neg never] at moving
            exact ⟨moving.1,moving.2.imp_right fun copy => copy.imp_right fun copy => copy.imp_right fun held => by simp at held⟩
      · exact sound
  | enqueue id sequence =>
    simp only [Transport.step]
    cases found : ei.nbr id with
    | none => exact sound
    | some nbr => exact sound_enqueue timers sound (sound nbr (nbr_mem found).1) sequence
  | send_init id sequence =>
    simp only [Transport.step]
    cases found : ei.nbr id with
    | none => exact sound
    | some nbr =>
      refine sound_enqueue timers sound ?_ sequence
      exact sound nbr (nbr_mem found).1
  | multicast sequence =>
    refine sound_resume fun nbr member => ?_
    refine (sound nbr member).mono (fun _ waiting _ => waiting) (fun later held => ?_)
    unfold Peer.behind_multicast at held ⊢
    obtain ⟨packet,front,receiver⟩ := List.any_eq_true.1 held
    refine List.any_eq_true.2 ⟨packet,?_,receiver⟩
    rw [List.takeWhile_append]
    split
    · exact List.mem_append_left _ ((List.takeWhile_prefix _).subset front)
    · exact front
  | hello =>
    intro nbr member
    exact (sound nbr member).mono (fun _ waiting _ => List.mem_cons_of_mem _ waiting) (fun _ held => held)
  | write =>
    have admitted : Transport.Sound (if ei.obuf.isEmpty then (ei.admit_multicast outcome).1 else ei) := by
      split
      · rename_i empty
        exact sound_admit_multicast sound (calm (by simpa using empty)) outcome
      · exact sound
    simp only [Transport.step,Transport.write]
    generalize (if ei.obuf.isEmpty then (ei.admit_multicast outcome).1 else ei) = ready at admitted ⊢
    rcases queue : ready.obuf with _ | ⟨packet,obuf⟩
    · exact admitted
    · dsimp only
      split
      · exact admitted
      · intro nbr member
        obtain ⟨old,old_member,rfl⟩ := List.mem_map.1 member
        have before_send := admitted old old_member
        rw [queue] at before_send
        exact sound_wire_sent timers before_send
  | ack id sequence =>
    simp only [Transport.step]
    cases found : ei.nbr id with
    | none => exact sound
    | some nbr => exact sound_ack timers sound (nbr_mem found).1 sequence (calm nbr found)
  | retrans_timer id position =>
    simp only [Transport.step]
    cases found : ei.nbr id with
    | none => exact sound
    | some nbr =>
      obtain ⟨member,rfl⟩ := nbr_mem found
      dsimp only [Option.elim]
      split
      · exact sound_retrans_timer timers sound member position (calm nbr found)
      · exact sound
  | multicast_retry => exact sound_resume sound
  | reset id =>
    simp only [Transport.step]
    cases found : ei.nbr id with
    | none => exact sound
    | some nbr => exact sound_resume (sound_put (sound.but nbr.id) (by rfl) trivial)
  | down id =>
    simp only [Transport.step]
    cases found : ei.nbr id with
    | none => exact sound
    | some nbr =>
      obtain ⟨member,rfl⟩ := nbr_mem found
      exact sound_resume (sound_put (soundBut_output_clear (sound.but nbr.id)) (by rfl) trivial)
  | delete id => exact sound_delete sound id
  | intf_down =>
    intro nbr member
    simp [Transport.step] at member

/-- Every step of a run is calm where it is taken. -/
def CalmRun : Transport → List (Outcome × Event) → Prop
  | _, [] => True
  | ei, step :: steps => ei.Calm step.1 step.2 ∧ CalmRun (ei.step step.1 step.2) steps

theorem sound_run {ei : Transport} (sound : ei.Sound) {steps : List (Outcome × Event)} (calm : CalmRun ei steps) (n : Nat) :
    ((steps.take n).foldl (fun ei step => ei.step step.1 step.2) ei).Sound := by
  induction steps generalizing ei n with
  | nil => simpa using sound
  | cons step steps ih =>
    cases n with
    | zero => exact sound
    | succ n => exact ih (sound_step sound calm.1) calm.2 n

/-- In a calm run no queue of a neighbor ever stalls. -/
theorem run_progresses {steps : List (Outcome × Event)} (calm : CalmRun {} steps) (n : Nat) :
    ∀ nbr ∈ (run (steps.take n)).nbrs, nbr.Progresses (run (steps.take n)) := by
  have start : Transport.Sound {} := by
    intro nbr member
    simp at member
  intro nbr member
  exact (sound_run start calm n nbr member).progresses

/-- The INIT to a new neighbor is sent, retried once and acknowledged. -/
def handshake : List (Outcome × Event) :=
  [({}, .create 1),({}, .send_init 1 ⟨1,by decide⟩),({}, .pending 1),({}, .write),({}, .retrans_timer 1 0),({}, .write),
   ({}, .ack 1 ⟨1,by decide⟩)]

theorem handshake_progresses :
    CalmRun {} handshake ∧ ∀ nbr ∈ (run (handshake.take 6)).nbrs, nbr.Progresses (run (handshake.take 6)) := by
  have calm : CalmRun {} handshake := by
    refine ⟨⟨fun _ => rfl,trivial⟩,⟨fun _ => rfl,trivial⟩,⟨fun _ => rfl,trivial⟩,⟨fun _ => rfl,?_⟩,⟨fun _ => rfl,?_⟩,
      ⟨fun _ => rfl,?_⟩,⟨fun _ => rfl,?_⟩,trivial⟩
    · intro empty
      exact absurd empty (by decide +kernel)
    · decide +kernel
    · intro empty
      exact absurd empty (by decide +kernel)
    · decide +kernel
  exact ⟨calm,run_progresses calm 6⟩

/-- The host rejects the first transmission of a packet; the timer repeats it, and this time it is sent. -/
def failed_send : List (Outcome × Event) :=
  [({}, .create 1),({}, .enqueue 1 ⟨1,by decide⟩),({ sends := false }, .write),({}, .retrans_timer 1 0),({}, .write)]

theorem failed_send_stalls : ∃ nbr ∈ (run failed_send).nbrs, ¬ nbr.Progresses (run failed_send) := by
  have queue : (run failed_send).nbrs = [{ id := 1, retrans_queue :=
      [{ sequence := ⟨1,by decide⟩, sent := true, retry_queued := true, timer := true }] }] := by decide +kernel
  have empty : (run failed_send).obuf = [] := by decide +kernel
  have unheld : (run failed_send).multicast_pending = [] := by decide +kernel
  rw [queue]
  refine ⟨_,List.mem_singleton.2 rfl,fun progresses => ?_⟩
  rcases progresses _ rfl with ⟨_,idle⟩ | ⟨dst,retransmission,cr,copy,_⟩ | held
  · exact idle rfl
  · simp [empty] at copy
  · simp [unheld,Peer.behind_multicast] at held
end Eigrp.Rtp
