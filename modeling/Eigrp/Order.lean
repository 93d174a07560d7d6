import Eigrp.FanOut
import Eigrp.Lib.Serial

/-!
# Order of the reliable transport

Sequence numbers are reserved when a packet is created and packets are linked later: at once by the packetizer and for the
INIT, at admission for a multicast, and whenever a packet of the initial synchronisation is full. A sender is the transport
of an interface with the counter of the instance and the packets that the table walks hold.
-/

namespace Eigrp.Rtp
open Eigrp.Lib

/-- `eigrp_packet_sequence_reserve`: the number, and the counter behind it. -/
def sequence_reserve (sequence_number : UInt32) : Sequence × UInt32 :=
  if zero : sequence_number = 0 then (⟨1,one_nonzero⟩, 2)
  else (⟨sequence_number,zero⟩, if sequence_number + 1 = 0 then 1 else sequence_number + 1)

structure Sender where
  ei : Transport := {}
  sequence_number : UInt32 := 1
  sync_packets : List (Nat × Sequence) := []

/-- What makes use of the transport. `reserve` is a packet of another interface or one that cannot be allocated, `unicast` a
    QUERY, REPLY, SIA packet or a part of a graceful restart; the four steps of a table walk begin it, go on without a packet,
    queue a full one behind the creation of the next, and queue the last one. -/
inductive Work where
  | reserve
  | unicast (id : Nat)
  | send_init (id : Nat)
  | multicast
  | sync_start (id : Nat) (created : Bool)
  | sync_resume (id : Nat)
  | sync_queue (id : Nat)
  | sync_end (id : Nat)
  | transport (event : Event)

/-- An event that links a packet; these come from the work above. -/
def Event.links : Event → Bool
  | .enqueue _ _ => true
  | .send_init _ _ => true
  | .multicast _ => true
  | _ => false

namespace Sender
variable (outcome : Outcome) (sender : Sender)

/-- The sequence number that is reserved next. -/
def fresh : Sequence := (sequence_reserve sender.sequence_number).1

def reserved : Sender := { sender with sequence_number := (sequence_reserve sender.sequence_number).2 }

/-- The packet that the table walk of a neighbor holds. -/
def held (id : Nat) : Option Sequence := (sender.sync_packets.find? (·.1 == id)).map Prod.snd

def release (id : Nat) : Sender := { sender with sync_packets := sender.sync_packets.filter (·.1 ≠ id) }

def hold (id : Nat) (sequence : Sequence) : Sender := { sender with sync_packets := (id, sequence) :: (sender.release id).sync_packets }

def perform (event : Event) : Sender := { sender with ei := sender.ei.step outcome event }

/-- `eigrp_update_sync_cancel`: at `eigrp_nbr_down`, and when a neighbor leaves UP or goes away. -/
def sync_cancelled (event : Event) (id : Nat) : Bool :=
  let next := sender.ei.step outcome event
  (match event with | .down other => other == id | _ => false) || (sender.ei.up id && !next.up id) || (next.nbr id).isNone

def step : Work → Sender
  | .reserve => sender.reserved
  | .unicast id => sender.reserved.perform outcome (.enqueue id sender.fresh)
  | .send_init id => sender.reserved.perform outcome (.send_init id sender.fresh)
  | .multicast => sender.reserved.perform outcome (.multicast sender.fresh)
  | .sync_start id created => if created then sender.reserved.hold id sender.fresh else sender.reserved.release id
  | .sync_resume id => if (sender.held id).isSome then sender else sender.reserved.hold id sender.fresh
  | .sync_queue id =>
    match sender.held id with
    | none => sender
    | some sequence => ((sender.reserved.release id).perform outcome (.enqueue id sequence)).hold id sender.fresh
  | .sync_end id =>
    match sender.held id with
    | none => sender
    | some sequence => (sender.release id).perform outcome (.enqueue id sequence)
  | .transport event =>
    if event.links then sender
    else
      { sender.perform outcome event with
        sync_packets := sender.sync_packets.filter fun packet => !sender.sync_cancelled outcome event packet.1 }

end Sender

def sender_run (steps : List (Outcome × Work)) : Sender := steps.foldl (fun sender step => sender.step step.1 step.2) {}

/-! ## What is in order -/

/-- The sequence numbers of a queue, the oldest first. -/
def Peer.sequences (nbr : Peer) : List Sequence := nbr.retrans_queue.map (·.sequence)

/-- Every queue is strictly increasing, without a number twice and without zero; and `eigrp_packet_reliable_prior_count` counts
    what precedes a number that has been reserved. -/
structure Sender.InSequence (sender : Sender) : Prop where
  increasing : ∀ nbr ∈ sender.ei.nbrs, nbr.sequences.Pairwise (before · ·)
  distinct : ∀ nbr ∈ sender.ei.nbrs, nbr.sequences.Nodup
  nonzero : ∀ nbr ∈ sender.ei.nbrs, ∀ sequence ∈ nbr.sequences, sequence.1 ≠ 0
  prior_count : ∀ nbr ∈ sender.ei.nbrs, ∀ sequence : Sequence, sequence_before sequence.1 sender.sequence_number →
    nbr.prior_count sequence = nbr.sequences.countP (before · sequence)

/-- Numbers that are reserved and not linked yet. -/
def Sender.waiting (sender : Sender) : List Sequence :=
  sender.ei.multicast_pending.map (·.sequence) ++ sender.sync_packets.map Prod.snd

def Sender.outstanding (sender : Sender) : List Sequence := sender.ei.nbrs.flatMap Peer.sequences ++ sender.waiting

/-- The work reserves a number. -/
def Sender.reserves (sender : Sender) : Work → Bool
  | .sync_resume id => (sender.held id).isNone
  | .sync_queue id => (sender.held id).isSome
  | .sync_end _ => false
  | .transport _ => false
  | _ => true

/-- The neighbor whose table walk queues the packet at hand. -/
def Work.flushes : Work → Option Nat
  | .sync_queue id => some id
  | .sync_end id => some id
  | _ => none

/-- The counter does not run half of its circle ahead of a packet that is outstanding, and a table walk queues its packet behind
    no later one. -/
def Sender.Orderly (sender : Sender) (work : Work) : Prop :=
  (sender.reserves work → ∀ sequence ∈ sender.outstanding, sequence_before sequence.1 (sequence_reserve sender.sequence_number).2) ∧
    ∀ id ∈ work.flushes, ∀ sequence ∈ sender.held id, ∀ nbr ∈ sender.ei.nbr id, ∀ queued ∈ nbr.sequences, ¬ before sequence queued

/-! ## Serial arithmetic -/

theorem sequence_before_iff (first second : UInt32) : sequence_before first second = true ↔ Recent second first := by
  have bound := first.toNat_lt
  have other_bound := second.toNat_lt
  have zero : age second first = 0 ↔ first = second := by
    rw [age_eq,← UInt32.toNat_inj]
    omega
  simp only [sequence_before,Bool.and_eq_true,bne_iff_ne,decide_eq_true_eq,UInt32.lt_iff_toNat_lt,Recent]
  rw [ne_eq,← zero]
  exact and_congr Nat.pos_iff_ne_zero.symm Iff.rfl

theorem before_iff (first second : Sequence) : before first second = true ↔ Recent second.1 first.1 := sequence_before_iff _ _

/-- The counter behind a number is one or two ahead of it. -/
theorem fresh_spec {sequence_number : UInt32} (nonzero : sequence_number ≠ 0) :
    (sequence_reserve sequence_number).1.1 = sequence_number ∧ (sequence_reserve sequence_number).2 ≠ 0 ∧
      Recent (sequence_reserve sequence_number).2 sequence_number := by
  have bound := sequence_number.toNat_lt
  rw [sequence_reserve,dif_neg nonzero]
  refine ⟨rfl,?_⟩
  dsimp only
  by_cases wraps : sequence_number + 1 = 0
  · have last := congrArg UInt32.toNat wraps
    rw [UInt32.toNat_add] at last
    simp at last
    rw [if_pos wraps]
    refine ⟨by decide,?_⟩
    simp only [Recent,age_eq]
    simp
    omega
  · have room : sequence_number.toNat + 1 < 2 ^ 32 := by
      by_contra full
      refine wraps (UInt32.toNat_inj.1 ?_)
      rw [UInt32.toNat_add]
      simp
      omega
    rw [if_neg wraps]
    refine ⟨wraps,?_⟩
    simp only [Recent,age_eq,UInt32.toNat_add]
    simp
    omega

/-! ## What is outstanding -/

/-- Numbers are distinct where they must be, the counter is ahead of all of them, and the queues are in order. -/
structure Sender.Sound (sender : Sender) : Prop where
  counter : sender.sequence_number ≠ 0
  recent : ∀ sequence ∈ sender.outstanding, Recent sender.sequence_number sequence.1
  waiting : sender.waiting.Nodup
  unlinked : ∀ nbr ∈ sender.ei.nbrs, ∀ sequence ∈ nbr.sequences, sequence ∉ sender.waiting
  ordered : ∀ nbr ∈ sender.ei.nbrs, nbr.sequences.Pairwise (before · ·)

theorem outstanding_queued {sender : Sender} {nbr : Peer} {sequence : Sequence} (member : nbr ∈ sender.ei.nbrs)
    (queued : sequence ∈ nbr.sequences) : sequence ∈ sender.outstanding :=
  List.mem_append_left _ (List.mem_flatMap.2 ⟨nbr,member,queued⟩)

theorem outstanding_waiting {sender : Sender} {sequence : Sequence} (waits : sequence ∈ sender.waiting) : sequence ∈ sender.outstanding :=
  List.mem_append_right _ waits

theorem Sender.Sound.inSequence {sender : Sender} (sound : sender.Sound) : sender.InSequence := by
  refine ⟨sound.ordered,?_,?_,?_⟩
  · intro nbr member
    refine (sound.ordered nbr member).imp ?_
    intro first second earlier same
    rw [same,before_iff] at earlier
    exact recent_asymm earlier earlier
  · exact fun nbr _ sequence _ => sequence.2
  · intro nbr member sequence reserved
    rw [sequence_before_iff] at reserved
    have counted := @takeWhile_length_eq_countP _ before nbr.sequences sequence (sound.ordered nbr member) ?_
    · rw [← counted,Peer.prior_count,Peer.sequences,List.takeWhile_map,List.length_map]
      rfl
    · intro first in_first second in_second earlier later
      rw [before_iff] at *
      exact recent_trans (sound.recent first (outstanding_queued member in_first)) (sound.recent second (outstanding_queued member in_second))
        reserved earlier later

/-- Packets and numbers leave. -/
structure Sender.Thins (sender next : Sender) : Prop where
  counter : next.sequence_number = sender.sequence_number
  waiting : next.waiting.Sublist sender.waiting
  queues : ∀ nbr ∈ next.ei.nbrs, nbr.sequences = [] ∨ ∃ old ∈ sender.ei.nbrs, nbr.sequences.Sublist old.sequences

theorem Sender.Sound.thins {sender next : Sender} (sound : sender.Sound) (thins : sender.Thins next) : next.Sound := by
  have linked (nbr : Peer) (member : nbr ∈ next.ei.nbrs) (sequence : Sequence) (queued : sequence ∈ nbr.sequences) :
      ∃ old ∈ sender.ei.nbrs, sequence ∈ old.sequences := by
    rcases thins.queues nbr member with empty | ⟨old,inside,fewer⟩
    · simp [empty] at queued
    · exact ⟨old,inside,fewer.subset queued⟩
  refine ⟨thins.counter ▸ sound.counter,?_,sound.waiting.sublist thins.waiting,?_,?_⟩
  · intro sequence member
    rw [thins.counter]
    rcases List.mem_append.1 member with queued | waits
    · obtain ⟨nbr,inside,queued⟩ := List.mem_flatMap.1 queued
      obtain ⟨old,old_member,its⟩ := linked nbr inside sequence queued
      exact sound.recent sequence (outstanding_queued old_member its)
    · exact sound.recent sequence (outstanding_waiting (thins.waiting.subset waits))
  · intro nbr member sequence queued waits
    obtain ⟨old,inside,its⟩ := linked nbr member sequence queued
    exact sound.unlinked old inside sequence its (thins.waiting.subset waits)
  · intro nbr member
    rcases thins.queues nbr member with empty | ⟨old,inside,fewer⟩
    · rw [empty]
      exact .nil
    · exact (sound.ordered old inside).sublist fewer

theorem sound_release {sender : Sender} (sound : sender.Sound) (id : Nat) : (sender.release id).Sound := by
  refine sound.thins ⟨rfl,?_,fun nbr member => .inr ⟨nbr,member,List.Sublist.refl _⟩⟩
  exact List.Sublist.append (List.Sublist.refl _) (List.filter_sublist.map _)

/-- A number is reserved: it is outstanding nowhere, and younger than everything that is. -/
theorem sound_reserved {sender : Sender} (sound : sender.Sound)
    (room : ∀ sequence ∈ sender.outstanding, sequence_before sequence.1 (sequence_reserve sender.sequence_number).2) :
    sender.reserved.Sound ∧ sender.fresh ∉ sender.outstanding ∧ Recent sender.reserved.sequence_number sender.fresh.1 ∧
      ∀ sequence ∈ sender.outstanding, before sequence sender.fresh := by
  obtain ⟨same,nonzero,next⟩ := fresh_spec sound.counter
  have younger : ∀ sequence ∈ sender.outstanding, before sequence sender.fresh := by
    intro sequence member
    rw [before_iff,Sender.fresh,same]
    exact sound.recent sequence member
  refine ⟨⟨nonzero,fun sequence member => (sequence_before_iff _ _).1 (room sequence member),sound.waiting,sound.unlinked,sound.ordered⟩,
    ?_,?_,younger⟩
  · intro member
    have itself := (before_iff _ _).1 (younger _ member)
    exact recent_asymm itself itself
  · rw [Sender.fresh,same]
    exact next

/-! ## Linking -/

theorem release_outstanding (sender : Sender) (id : Nat) : (sender.release id).outstanding ⊆ sender.outstanding := by
  intro sequence member
  rcases List.mem_append.1 member with queued | waits
  · exact List.mem_append_left _ queued
  · rcases List.mem_append.1 waits with pending | kept
    · exact outstanding_waiting (List.mem_append_left _ pending)
    · exact outstanding_waiting (List.mem_append_right _ ((List.filter_sublist.map _).subset kept))

/-- A number that is outstanding nowhere is given to a table walk. -/
theorem sound_hold {sender : Sender} (sound : sender.Sound) (id : Nat) {sequence : Sequence} (unused : sequence ∉ sender.outstanding)
    (recent : Recent sender.sequence_number sequence.1) : (sender.hold id sequence).Sound := by
  have released := sound_release sound id
  have waits : (sender.hold id sequence).waiting.Perm (sequence :: (sender.release id).waiting) := List.perm_middle
  have absent : sequence ∉ (sender.release id).outstanding := fun member => unused (release_outstanding sender id member)
  refine ⟨sound.counter,?_,?_,?_,sound.ordered⟩
  · intro other member
    rcases List.mem_append.1 member with queued | waiting
    · exact sound.recent other (List.mem_append_left _ queued)
    · rcases List.mem_cons.1 (waits.subset waiting) with rfl | waiting
      · exact recent
      · exact released.recent other (outstanding_waiting waiting)
  · rw [waits.nodup_iff,List.nodup_cons]
    exact ⟨fun waiting => absent (outstanding_waiting waiting),released.waiting⟩
  · intro nbr member other queued waiting
    rcases List.mem_cons.1 (waits.subset waiting) with rfl | waiting
    · exact unused (outstanding_queued member queued)
    · exact released.unlinked nbr member other queued waiting

theorem send_reliably_sequences (outcome : Outcome) (pending : List Multicast) (nbr : Peer) :
    (nbr.send_reliably outcome pending).1.sequences = nbr.sequences := by
  unfold Peer.send_reliably
  split
  · rfl
  · rename_i head rest queue
    split_ifs
    · rfl
    · rfl
    · simp [Peer.sequences,queue,Peer.timer_start]

theorem mem_enqueue {outcome : Outcome} {ei : Transport} {nbr other : Peer} {sequence : Sequence}
    (member : other ∈ (ei.enqueue outcome nbr sequence).nbrs) : other.sequences = nbr.sequences ++ [sequence] ∨ other ∈ ei.nbrs := by
  have appended : Peer.sequences { nbr with retrans_queue := nbr.retrans_queue ++ [{ sequence }] } = nbr.sequences ++ [sequence] := by
    simp [Peer.sequences]
  unfold Transport.enqueue at member
  dsimp only at member
  split at member
  · rcases mem_put member with ⟨rfl,_⟩ | ⟨old,_⟩
    · exact .inl ((send_reliably_sequences outcome _ _).trans appended)
    · exact .inr old
  · rcases mem_put member with ⟨rfl,_⟩ | ⟨old,_⟩
    · exact .inl appended
    · exact .inr old

theorem enqueue_pending (outcome : Outcome) (ei : Transport) (nbr : Peer) (sequence : Sequence) :
    (ei.enqueue outcome nbr sequence).multicast_pending = ei.multicast_pending := by
  unfold Transport.enqueue
  dsimp only
  split <;> rfl

/-- A packet is appended to the queue of a neighbor whose packets are all older. -/
theorem sound_enqueue_behind {sender : Sender} (sound : sender.Sound) {sequence : Sequence} (unused : sequence ∉ sender.waiting)
    (recent : Recent sender.sequence_number sequence.1) {nbr old : Peer} (member : old ∈ sender.ei.nbrs)
    (same : nbr.sequences = old.sequences) (older : ∀ queued ∈ old.sequences, before queued sequence) (outcome : Outcome) :
    Sender.Sound { sender with ei := sender.ei.enqueue outcome nbr sequence } := by
  have waiting : Sender.waiting { sender with ei := sender.ei.enqueue outcome nbr sequence } = sender.waiting := by
    rw [Sender.waiting,Sender.waiting,enqueue_pending]
  have queued {other : Peer} (inside : other ∈ (sender.ei.enqueue outcome nbr sequence).nbrs) :
      other.sequences = old.sequences ++ [sequence] ∨ other ∈ sender.ei.nbrs := same ▸ mem_enqueue inside
  refine ⟨sound.counter,?_,waiting ▸ sound.waiting,?_,?_⟩
  · intro other outstanding
    rcases List.mem_append.1 outstanding with linked | waits
    · obtain ⟨peer,inside,its⟩ := List.mem_flatMap.1 linked
      rcases queued inside with extended | known
      · rw [extended,List.mem_append,List.mem_singleton] at its
        rcases its with its | rfl
        · exact sound.recent other (outstanding_queued member its)
        · exact recent
      · exact sound.recent other (outstanding_queued known its)
    · exact sound.recent other (outstanding_waiting (waiting ▸ waits))
  · intro peer inside other its
    rw [waiting]
    rcases queued inside with extended | known
    · rw [extended,List.mem_append,List.mem_singleton] at its
      rcases its with its | rfl
      · exact sound.unlinked old member other its
      · exact unused
    · exact sound.unlinked peer known other its
  · intro peer inside
    rcases queued inside with extended | known
    · rw [extended]
      refine List.pairwise_append.2 ⟨sound.ordered old member,List.pairwise_singleton _ _,?_⟩
      intro first in_first second in_second
      rw [List.mem_singleton.1 in_second]
      exact older first in_first
    · exact sound.ordered peer known

theorem enqueue_outstanding (outcome : Outcome) (sender : Sender) (id : Nat) (sequence : Sequence) :
    (sender.perform outcome (.enqueue id sequence)).outstanding ⊆ sequence :: sender.outstanding := by
  simp only [Sender.perform,Transport.step]
  cases found : sender.ei.nbr id with
  | none => exact List.subset_cons_self _ _
  | some nbr =>
    intro other member
    rcases List.mem_append.1 member with linked | waits
    · obtain ⟨peer,inside,its⟩ := List.mem_flatMap.1 linked
      rcases mem_enqueue inside with extended | known
      · rw [extended,List.mem_append,List.mem_singleton] at its
        rcases its with its | rfl
        · exact List.mem_cons_of_mem _ (outstanding_queued (nbr_mem found).1 its)
        · exact List.mem_cons_self
      · exact List.mem_cons_of_mem _ (outstanding_queued known its)
    · refine List.mem_cons_of_mem _ (outstanding_waiting ?_)
      simpa [Sender.waiting,enqueue_pending] using waits

theorem sound_perform_enqueue {sender : Sender} (sound : sender.Sound) {id : Nat} {sequence : Sequence} (unused : sequence ∉ sender.waiting)
    (recent : Recent sender.sequence_number sequence.1)
    (older : ∀ nbr ∈ sender.ei.nbr id, ∀ queued ∈ nbr.sequences, before queued sequence) (outcome : Outcome) :
    (sender.perform outcome (.enqueue id sequence)).Sound := by
  simp only [Sender.perform,Transport.step]
  cases found : sender.ei.nbr id with
  | none => exact sound
  | some nbr => exact sound_enqueue_behind sound unused recent (nbr_mem found).1 rfl (older nbr found) outcome

theorem sound_perform_init {sender : Sender} (sound : sender.Sound) {id : Nat} {sequence : Sequence} (unused : sequence ∉ sender.waiting)
    (recent : Recent sender.sequence_number sequence.1)
    (older : ∀ nbr ∈ sender.ei.nbr id, ∀ queued ∈ nbr.sequences, before queued sequence) (outcome : Outcome) :
    (sender.perform outcome (.send_init id sequence)).Sound := by
  simp only [Sender.perform,Transport.step]
  cases found : sender.ei.nbr id with
  | none => exact sound
  | some nbr =>
    exact @sound_enqueue_behind sender sound sequence unused recent { nbr with init_sequence_number := some sequence } nbr (nbr_mem found).1
      rfl (older nbr found) outcome

theorem sound_perform_multicast {sender : Sender} (sound : sender.Sound) {sequence : Sequence} (unused : sequence ∉ sender.outstanding)
    (recent : Recent sender.sequence_number sequence.1) (outcome : Outcome) : (sender.perform outcome (.multicast sequence)).Sound := by
  have nbrs : (sender.perform outcome (.multicast sequence)).ei.nbrs = sender.ei.nbrs := multicast_resume_nbrs _
  have waits : (sender.perform outcome (.multicast sequence)).waiting.Perm (sequence :: sender.waiting) := by
    have pending : (sender.perform outcome (.multicast sequence)).ei.multicast_pending =
        sender.ei.multicast_pending ++ [Multicast.mk sequence sender.ei.multicast_epoch false] := multicast_resume_pending _
    rw [Sender.waiting,pending,List.map_append,List.append_assoc]
    exact List.perm_middle
  refine ⟨sound.counter,?_,?_,?_,nbrs ▸ sound.ordered⟩
  · intro other outstanding
    rcases List.mem_append.1 outstanding with linked | waiting
    · rw [nbrs] at linked
      exact sound.recent other (List.mem_append_left _ linked)
    · rcases List.mem_cons.1 (waits.subset waiting) with rfl | waiting
      · exact recent
      · exact sound.recent other (outstanding_waiting waiting)
  · rw [waits.nodup_iff,List.nodup_cons]
    exact ⟨fun waiting => unused (outstanding_waiting waiting),sound.waiting⟩
  · intro nbr member other queued waiting
    rw [nbrs] at member
    rcases List.mem_cons.1 (waits.subset waiting) with rfl | waiting
    · exact unused (outstanding_queued member queued)
    · exact sound.unlinked nbr member other queued waiting

/-! ## Events of the transport -/

/-- Queues of neighbors and pending multicasts become shorter at most. -/
structure Transport.Shrinks (ei next : Transport) : Prop where
  queues : ∀ nbr ∈ next.nbrs, nbr.sequences = [] ∨ ∃ old ∈ ei.nbrs, nbr.sequences.Sublist old.sequences
  pending : next.multicast_pending <:+ ei.multicast_pending

theorem Transport.Shrinks.refl (ei : Transport) : ei.Shrinks ei :=
  ⟨fun nbr member => .inr ⟨nbr,member,List.Sublist.refl _⟩,List.suffix_rfl⟩

theorem Transport.Shrinks.trans {ei next last : Transport} (first : ei.Shrinks next) (second : next.Shrinks last) : ei.Shrinks last := by
  refine ⟨fun nbr member => ?_,second.pending.trans first.pending⟩
  rcases second.queues nbr member with empty | ⟨mid,inside,fewer⟩
  · exact .inl empty
  · rcases first.queues mid inside with empty | ⟨old,known,less⟩
    · exact .inl (List.sublist_nil.1 (empty ▸ fewer))
    · exact .inr ⟨old,known,fewer.trans less⟩

theorem shrinks_of_eq {ei next : Transport} (nbrs : next.nbrs = ei.nbrs) (pending : next.multicast_pending <:+ ei.multicast_pending) :
    ei.Shrinks next :=
  ⟨fun nbr member => .inr ⟨nbr,nbrs ▸ member,List.Sublist.refl _⟩,pending⟩

theorem shrinks_resume (ei : Transport) : ei.Shrinks ei.multicast_resume :=
  shrinks_of_eq (multicast_resume_nbrs ei) (multicast_resume_pending ei ▸ List.suffix_rfl)

theorem shrinks_put {ei : Transport} {nbr next : Peer} (outputs : List Output) (member : nbr ∈ ei.nbrs)
    (fewer : next.sequences.Sublist nbr.sequences) : ei.Shrinks (ei.put next outputs) := by
  refine ⟨fun other inside => ?_,List.suffix_rfl⟩
  rcases mem_put inside with ⟨rfl,_⟩ | ⟨old,_⟩
  · exact .inr ⟨nbr,member,fewer⟩
  · exact .inr ⟨other,old,List.Sublist.refl _⟩

theorem shrinks_delete (ei : Transport) (id : Nat) : ei.Shrinks (ei.delete id) := by
  have filtered : ei.Shrinks { ei.output_clear id with nbrs := ei.nbrs.filter (·.id ≠ id) } :=
    ⟨fun nbr member => .inr ⟨nbr,(List.mem_filter.1 member).1,List.Sublist.refl _⟩,List.suffix_rfl⟩
  exact filtered.trans (shrinks_resume _)

theorem wire_sent_sequences (outcome : Outcome) (packet : Output) (nbr : Peer) : (nbr.wire_sent outcome packet).sequences = nbr.sequences := by
  unfold Peer.wire_sent
  split
  · rename_i head rest queue
    split
    · rfl
    · dsimp only
      split_ifs <;> simp [Peer.sequences,queue,Peer.timer_start]
  · rfl

theorem timer_modify_sequences (queue : List Reliable) (position : Nat) :
    (queue.modify position fun packet => { packet with timer := false }).map (·.sequence) = queue.map (·.sequence) := by
  refine List.ext_getElem? fun index => ?_
  rw [List.getElem?_map,List.getElem?_map,List.getElem?_modify]
  split <;> cases queue[index]? <;> rfl

theorem shrinks_ack {ei : Transport} {nbr : Peer} (member : nbr ∈ ei.nbrs) (outcome : Outcome) (sequence : Sequence) :
    ei.Shrinks (ei.ack outcome nbr sequence) := by
  unfold Transport.ack
  rcases queue : nbr.retrans_queue with _ | ⟨head,rest⟩
  · exact .refl ei
  · dsimp only
    by_cases other : head.sequence ≠ sequence
    · rw [if_pos other]
      exact .refl ei
    · rw [if_neg other]
      have fewer : Peer.sequences { nbr with retrans_queue := rest } |>.Sublist nbr.sequences := by
        simp [Peer.sequences,queue]
      have cancelled : ei.Shrinks (if head.retry_queued then ei.retry_cancel nbr.id sequence else ei) := by
        split
        · exact shrinks_of_eq rfl List.suffix_rfl
        · exact .refl ei
      have inside : nbr ∈ (if head.retry_queued then ei.retry_cancel nbr.id sequence else ei).nbrs := by
        split <;> exact member
      have acked := (cancelled.trans (shrinks_put [] inside fewer)).trans (shrinks_resume _)
      have replaced : { nbr with retrans_queue := rest } ∈
          (((if head.retry_queued then ei.retry_cancel nbr.id sequence else ei).put { nbr with retrans_queue := rest } []).multicast_resume).nbrs := by
        rw [multicast_resume_nbrs]
        exact List.mem_map.2 ⟨nbr,inside,by simp⟩
      generalize ((if head.retry_queued then ei.retry_cancel nbr.id sequence else ei).put { nbr with retrans_queue := rest }
        []).multicast_resume = next at acked replaced ⊢
      split
      · have rises : next.Shrinks { next with multicast_epoch := next_epoch next.multicast_epoch } := shrinks_of_eq rfl List.suffix_rfl
        exact acked.trans (rises.trans (@shrinks_put { next with multicast_epoch := next_epoch next.multicast_epoch } _ _ [] replaced
          (List.Sublist.refl _)))
      · refine acked.trans (shrinks_put _ replaced ?_)
        rw [send_reliably_sequences]

theorem shrinks_retrans_timer {ei : Transport} {nbr : Peer} (member : nbr ∈ ei.nbrs) (outcome : Outcome) (position : Nat) :
    ei.Shrinks (ei.retrans_timer outcome nbr position) := by
  have fired : Peer.sequences { nbr with retrans_queue := nbr.retrans_queue.modify position fun packet => { packet with timer := false } } =
      nbr.sequences := timer_modify_sequences nbr.retrans_queue position
  unfold Transport.retrans_timer
  dsimp only
  generalize { nbr with retrans_queue := nbr.retrans_queue.modify position fun packet => { packet with timer := false } } = ready at fired ⊢
  split
  · exact shrinks_delete ei nbr.id
  · rename_i next outputs retried
    refine shrinks_put outputs member ?_
    rw [← fired]
    unfold Peer.unack_retrans at retried
    split at retried
    · cases retried
      exact List.Sublist.refl _
    · rename_i head rest queue
      split_ifs at retried <;> cases retried <;> simp [Peer.sequences,queue,Peer.timer_start]

/-- Everything but the admission of a multicast. -/
theorem shrinks_step (outcome : Outcome) (ei : Transport) {event : Event} (unlinked : event.links = false) (quiet : event ≠ .write) :
    ei.Shrinks (ei.step outcome event) := by
  cases event with
  | enqueue id sequence => cases unlinked
  | send_init id sequence => cases unlinked
  | multicast sequence => cases unlinked
  | write => exact absurd rfl quiet
  | create id =>
    simp only [Transport.step]
    split
    · exact .refl ei
    · refine ⟨fun nbr member => ?_,List.suffix_rfl⟩
      rcases List.mem_append.1 member with old | new
      · exact .inr ⟨nbr,old,List.Sublist.refl _⟩
      · rw [List.mem_singleton.1 new]
        exact .inl rfl
  | pending id =>
    simp only [Transport.step]
    cases found : ei.nbr id with
    | none => exact .refl ei
    | some nbr =>
      dsimp only
      split
      · exact shrinks_put _ (nbr_mem found).1 (List.Sublist.refl _)
      · exact .refl ei
  | hello => exact shrinks_of_eq rfl List.suffix_rfl
  | ack id sequence =>
    simp only [Transport.step]
    cases found : ei.nbr id with
    | none => exact .refl ei
    | some nbr => exact shrinks_ack (nbr_mem found).1 outcome sequence
  | retrans_timer id position =>
    simp only [Transport.step]
    cases found : ei.nbr id with
    | none => exact .refl ei
    | some nbr =>
      dsimp only [Option.elim]
      split
      · exact shrinks_retrans_timer (nbr_mem found).1 outcome position
      · exact .refl ei
  | multicast_retry =>
    exact (@shrinks_of_eq ei { ei with t_multicast_retry := false } rfl List.suffix_rfl).trans (shrinks_resume _)
  | reset id =>
    simp only [Transport.step]
    cases found : ei.nbr id with
    | none => exact .refl ei
    | some nbr => exact (@shrinks_put ei nbr nbr.down [] (nbr_mem found).1 (List.nil_sublist _)).trans (shrinks_resume _)
  | down id =>
    simp only [Transport.step]
    cases found : ei.nbr id with
    | none => exact .refl ei
    | some nbr =>
      have cleared : ei.Shrinks (ei.output_clear id) := shrinks_of_eq rfl List.suffix_rfl
      exact (cleared.trans (@shrinks_put (ei.output_clear id) nbr nbr.down [] (nbr_mem found).1 (List.nil_sublist _))).trans (shrinks_resume _)
  | delete id => exact shrinks_delete ei id
  | intf_down => exact ⟨by simp [Transport.step],List.nil_suffix⟩

/-! ## Admission of a multicast -/

theorem ordered_enqueue_sequences (queue : List Reliable) (packet : Reliable) :
    (ordered_enqueue queue packet).map (·.sequence) =
      (queue.map (·.sequence)).takeWhile (before · packet.sequence) ++
        packet.sequence :: (queue.map (·.sequence)).dropWhile (before · packet.sequence) := by
  rw [ordered_enqueue,List.map_append,List.map_cons,List.takeWhile_map,List.dropWhile_map]
  rfl

theorem mem_ordered_enqueue {queue : List Reliable} {packet : Reliable} {sequence : Sequence}
    (member : sequence ∈ (ordered_enqueue queue packet).map (·.sequence)) :
    sequence = packet.sequence ∨ sequence ∈ queue.map (·.sequence) := by
  rw [ordered_enqueue_sequences] at member
  rcases List.mem_append.1 member with front | back
  · exact .inr ((List.takeWhile_prefix _).subset front)
  · rcases List.mem_cons.1 back with same | back
    · exact .inl same
    · exact .inr ((List.dropWhile_suffix _).subset back)

/-- A queue in order stays so when a number joins it that is not in it and as recent as the others. -/
theorem ordered_enqueue_pairwise {now : UInt32} {queue : List Reliable} {packet : Reliable}
    (ordered : (queue.map (·.sequence)).Pairwise (before · ·)) (recent : ∀ sequence ∈ queue.map (·.sequence), Recent now sequence.1)
    (new : Recent now packet.sequence.1) (absent : packet.sequence ∉ queue.map (·.sequence)) :
    ((ordered_enqueue queue packet).map (·.sequence)).Pairwise (before · ·) := by
  rw [ordered_enqueue_sequences]
  refine pairwise_insert ordered ?_ ?_
  · intro other member later
    have different : other.1 ≠ packet.sequence.1 := fun same => absent (Subtype.ext same ▸ member)
    rw [before_iff]
    refine (recent_total (recent other member) new different).resolve_left fun earlier => ?_
    rw [← before_iff,later] at earlier
    cases earlier
  · intro first in_first second in_second earlier later
    rw [before_iff] at *
    exact recent_trans new (recent first in_first) (recent second in_second) earlier later

theorem shrinks_sound {sender : Sender} (sound : sender.Sound) {ei : Transport} (shrinks : sender.ei.Shrinks ei) {sync_packets : List (Nat × Sequence)}
    (fewer : sync_packets.Sublist sender.sync_packets) : Sender.Sound { sender with ei, sync_packets } := by
  refine sound.thins ⟨rfl,?_,shrinks.queues⟩
  exact List.Sublist.append (shrinks.pending.sublist.map _) (fewer.map _)

theorem sound_admit {sender : Sender} (sound : sender.Sound) (outcome : Outcome) :
    Sender.Sound { sender with ei := (sender.ei.admit_multicast outcome).1 } := by
  rcases queue : sender.ei.multicast_pending with _ | ⟨packet,pending⟩
  · have same : (sender.ei.admit_multicast outcome).1 = sender.ei := by
      unfold Transport.admit_multicast
      split
      · rfl
      · simp [queue]
    rw [same]
    exact sound
  · rcases admit_multicast_cases outcome queue with ⟨_,rest,cr,nbrs⟩ | ⟨_,nbrs,_⟩
    · have waiting : sender.waiting = packet.sequence :: Sender.waiting { sender with ei := (sender.ei.admit_multicast outcome).1 } := by
        rw [Sender.waiting,Sender.waiting,queue,rest,List.map_cons,List.cons_append]
      have waits : packet.sequence ∈ sender.waiting := waiting ▸ List.mem_cons_self
      have nodup := sound.waiting
      rw [waiting,List.nodup_cons] at nodup
      have linked {nbr : Peer} (member : nbr ∈ (sender.ei.admit_multicast outcome).1.nbrs) :
          ∃ old ∈ sender.ei.nbrs, nbr.sequences = old.sequences ∨
            nbr.sequences = (ordered_enqueue old.retrans_queue { sequence := packet.sequence, cr }).map (·.sequence) := by
        rw [nbrs] at member
        obtain ⟨old,inside,rfl⟩ := List.mem_map.1 member
        refine ⟨old,inside,?_⟩
        split
        · exact .inr rfl
        · exact .inl rfl
      have from_queue {nbr : Peer} (member : nbr ∈ (sender.ei.admit_multicast outcome).1.nbrs) {sequence : Sequence} (queued : sequence ∈ nbr.sequences) :
          sequence = packet.sequence ∨ ∃ old ∈ sender.ei.nbrs, sequence ∈ old.sequences := by
        obtain ⟨old,inside,same | inserted⟩ := linked member
        · exact .inr ⟨old,inside,same ▸ queued⟩
        · exact (mem_ordered_enqueue (inserted ▸ queued)).imp_right fun its => ⟨old,inside,its⟩
      refine ⟨sound.counter,?_,nodup.2,?_,?_⟩
      · intro sequence outstanding
        rcases List.mem_append.1 outstanding with queued | waits
        · obtain ⟨nbr,member,queued⟩ := List.mem_flatMap.1 queued
          rcases from_queue member queued with rfl | ⟨old,inside,its⟩
          · exact sound.recent _ (outstanding_waiting waits)
          · exact sound.recent sequence (outstanding_queued inside its)
        · refine sound.recent sequence (outstanding_waiting ?_)
          rw [waiting]
          exact List.mem_cons_of_mem _ waits
      · intro nbr member sequence queued waits
        rcases from_queue member queued with rfl | ⟨old,inside,its⟩
        · exact nodup.1 waits
        · refine sound.unlinked old inside sequence its ?_
          rw [waiting]
          exact List.mem_cons_of_mem _ waits
      · intro nbr member
        obtain ⟨old,inside,same | inserted⟩ := linked member
        · rw [same]
          exact sound.ordered old inside
        · rw [inserted]
          refine @ordered_enqueue_pairwise sender.sequence_number _ _ (sound.ordered old inside) ?_ ?_ ?_
          · exact fun sequence its => sound.recent sequence (outstanding_queued inside its)
          · exact sound.recent _ (outstanding_waiting waits)
          · exact fun its => sound.unlinked old inside _ its waits
    · exact shrinks_sound sound (shrinks_of_eq nbrs (keeps_admit_multicast outcome sender.ei).pending) (List.Sublist.refl _)

theorem sound_write {sender : Sender} (sound : sender.Sound) (outcome : Outcome) :
    Sender.Sound { sender with ei := sender.ei.write outcome } := by
  have admitted : Sender.Sound { sender with ei := if sender.ei.obuf.isEmpty then (sender.ei.admit_multicast outcome).1 else sender.ei } := by
    split
    · exact sound_admit sound outcome
    · exact sound
  unfold Transport.write
  dsimp only
  generalize (if sender.ei.obuf.isEmpty then (sender.ei.admit_multicast outcome).1 else sender.ei) = ready at admitted ⊢
  split
  · exact admitted
  · rename_i packet obuf _
    split
    · exact admitted
    · refine @shrinks_sound _ admitted { ready with obuf, nbrs := ready.nbrs.map (Peer.wire_sent outcome packet) } ⟨?_,List.suffix_rfl⟩ _
        (List.Sublist.refl _)
      intro nbr member
      obtain ⟨old,inside,rfl⟩ := List.mem_map.1 member
      exact .inr ⟨old,inside,wire_sent_sequences outcome packet old ▸ List.Sublist.refl _⟩

/-! ## Runs -/

theorem held_mem {sender : Sender} {id : Nat} {sequence : Sequence} (held : sender.held id = some sequence) : (id, sequence) ∈ sender.sync_packets := by
  obtain ⟨packet,found,rfl⟩ := Option.map_eq_some_iff.1 held
  have its : packet.1 = id := by simpa using List.find?_some found
  exact its ▸ List.mem_of_find?_eq_some found

/-- The packet of a table walk is released and appended to a queue that holds nothing later. -/
theorem sound_flush {sender : Sender} (sound : sender.Sound) {id : Nat} {sequence : Sequence} (held : (id, sequence) ∈ sender.sync_packets)
    (behind : ∀ nbr ∈ sender.ei.nbr id, ∀ queued ∈ nbr.sequences, ¬ before sequence queued) (outcome : Outcome) :
    ((sender.release id).perform outcome (.enqueue id sequence)).Sound := by
  have waits : sequence ∈ sender.waiting := List.mem_append_right _ (List.mem_map.2 ⟨_,held,rfl⟩)
  have released : sequence ∉ (sender.release id).waiting := by
    obtain ⟨_,distinct,apart⟩ := List.nodup_append.1 sound.waiting
    intro member
    rcases List.mem_append.1 member with pending | other
    · exact apart _ pending _ (List.mem_map.2 ⟨_,held,rfl⟩) rfl
    · obtain ⟨packet,kept,same⟩ := List.mem_map.1 other
      obtain ⟨inside,foreign⟩ := List.mem_filter.1 kept
      have itself : packet = (id,sequence) := List.inj_on_of_nodup_map distinct inside held same
      simp [itself] at foreign
  refine sound_perform_enqueue (sound_release sound id) released (sound.recent _ (outstanding_waiting waits)) ?_ outcome
  intro nbr found queued its
  have inside : nbr ∈ sender.ei.nbrs := (nbr_mem found).1
  have different : queued.1 ≠ sequence.1 := fun same => sound.unlinked nbr inside queued its (Subtype.ext same ▸ waits)
  rw [before_iff]
  refine (recent_total (sound.recent queued (outstanding_queued inside its)) (sound.recent _ (outstanding_waiting waits)) different).resolve_right ?_
  rw [← before_iff]
  exact behind nbr found queued its

/-- A number is reserved for a packet that is linked at once. -/
theorem sound_linked {sender : Sender} (sound : sender.Sound)
    (room : ∀ sequence ∈ sender.outstanding, sequence_before sequence.1 (sequence_reserve sender.sequence_number).2) :
    sender.reserved.Sound ∧ sender.fresh ∉ sender.reserved.outstanding ∧ Recent sender.reserved.sequence_number sender.fresh.1 ∧
      ∀ id, ∀ nbr ∈ sender.reserved.ei.nbr id, ∀ queued ∈ nbr.sequences, before queued sender.fresh := by
  obtain ⟨reserved,unused,recent,younger⟩ := sound_reserved sound room
  refine ⟨reserved,unused,recent,fun id nbr found queued its => younger queued ?_⟩
  exact @outstanding_queued sender nbr queued (nbr_mem found).1 its

theorem sound_sender_step {sender : Sender} (sound : sender.Sound) {work : Work} (orderly : sender.Orderly work) (outcome : Outcome) :
    (sender.step outcome work).Sound := by
  obtain ⟨room,behind⟩ := orderly
  cases work with
  | reserve => exact (sound_linked sound (room rfl)).1
  | unicast id =>
    obtain ⟨reserved,unused,recent,younger⟩ := sound_linked sound (room rfl)
    exact sound_perform_enqueue reserved (fun waits => unused (outstanding_waiting waits)) recent (younger id) outcome
  | send_init id =>
    obtain ⟨reserved,unused,recent,younger⟩ := sound_linked sound (room rfl)
    exact sound_perform_init reserved (fun waits => unused (outstanding_waiting waits)) recent (younger id) outcome
  | multicast =>
    obtain ⟨reserved,unused,recent,_⟩ := sound_linked sound (room rfl)
    exact sound_perform_multicast reserved unused recent outcome
  | sync_start id created =>
    obtain ⟨reserved,unused,recent,_⟩ := sound_linked sound (room rfl)
    simp only [Sender.step]
    split
    · exact sound_hold reserved id unused recent
    · exact sound_release reserved id
  | sync_resume id =>
    simp only [Sender.step]
    split
    · exact sound
    · rename_i none_held
      obtain ⟨reserved,unused,recent,_⟩ := sound_linked sound (room (by simpa [Sender.reserves] using none_held))
      exact sound_hold reserved id unused recent
  | sync_queue id =>
    simp only [Sender.step]
    cases held : sender.held id with
    | none => exact sound
    | some sequence =>
      obtain ⟨reserved,unused,recent,_⟩ := sound_linked sound (room (by simp [Sender.reserves,held]))
      have flushed := sound_flush reserved (held_mem held) (behind id rfl sequence held) outcome
      refine sound_hold flushed id ?_ recent
      intro member
      rcases List.mem_cons.1 (enqueue_outstanding outcome (sender.reserved.release id) id sequence member) with same | member
      · refine unused (same ▸ outstanding_waiting ?_)
        exact List.mem_append_right _ (List.mem_map.2 ⟨_,held_mem held,rfl⟩)
      · exact unused (release_outstanding sender.reserved id member)
  | sync_end id =>
    simp only [Sender.step]
    cases held : sender.held id with
    | none => exact sound
    | some sequence => exact sound_flush sound (held_mem held) (behind id rfl sequence held) outcome
  | transport event =>
    simp only [Sender.step]
    split
    · exact sound
    · rename_i unlinked
      by_cases write : event = .write
      · subst write
        exact shrinks_sound (sound_write sound outcome) (.refl _) List.filter_sublist
      · exact shrinks_sound sound (shrinks_step outcome sender.ei (by simpa using unlinked) write) List.filter_sublist

/-- Every work of a run is orderly where it is done. -/
def OrderlyRun : Sender → List (Outcome × Work) → Prop
  | _, [] => True
  | sender, step :: steps => sender.Orderly step.2 ∧ OrderlyRun (sender.step step.1 step.2) steps

instance decidableOrderly (sender : Sender) (work : Work) : Decidable (sender.Orderly work) :=
  @instDecidableAnd _ _
    (@instDecidableForall _ _ inferInstance (@List.decidableBAll _ _ (fun _ => inferInstance) sender.outstanding))
    (@Option.decidableForallMem _ _ (fun id => @Option.decidableForallMem _ _ (fun _ =>
      @Option.decidableForallMem _ _ (fun nbr => @List.decidableBAll _ _ (fun _ => inferInstance) nbr.sequences)
        (sender.ei.nbr id)) (sender.held id)) work.flushes)

instance decidableOrderlyRun : (sender : Sender) → (steps : List (Outcome × Work)) → Decidable (OrderlyRun sender steps)
  | _, [] => .isTrue trivial
  | sender, step :: steps =>
    @instDecidableAnd _ _ (decidableOrderly sender step.2) (decidableOrderlyRun (sender.step step.1 step.2) steps)

theorem sound_sender_run {sender : Sender} (sound : sender.Sound) {steps : List (Outcome × Work)} (orderly : OrderlyRun sender steps) :
    (steps.foldl (fun sender step => sender.step step.1 step.2) sender).Sound := by
  induction steps generalizing sender with
  | nil => exact sound
  | cons step steps ih => exact ih (sound_sender_step sound orderly.1 step.1) orderly.2

/-- In an orderly run every queue is in sequence. -/
theorem run_in_sequence {steps : List (Outcome × Work)} (orderly : OrderlyRun {} steps) : (sender_run steps).InSequence := by
  have start : Sender.Sound {} := ⟨by decide,by simp [Sender.outstanding,Sender.waiting],by simp [Sender.waiting],by simp,by simp⟩
  exact (sound_sender_run start orderly).inSequence

/-- Work that the host does not disturb. -/
def works (works : List Work) : List (Outcome × Work) := works.map fun work => ({}, work)

/-- A neighbor is UP, and its table walk holds a packet. -/
def walk_begun : List Work :=
  [.transport (.create 1),.send_init 1,.transport (.pending 1),.transport (.ack 1 ⟨1,one_nonzero⟩),.sync_start 1 true]

/-- A full packet is queued and acknowledged, the last one follows, and then a multicast and a REPLY. -/
def walk_undisturbed : List Work :=
  walk_begun ++ [.sync_queue 1,.transport (.ack 1 ⟨2,two_nonzero⟩),.sync_end 1,.multicast,.unicast 1]

theorem run_in_sequence_undisturbed :
    (sender_run (works walk_undisturbed)).ei.nbrs.map Peer.sequences = [[⟨3,by decide⟩,⟨5,by decide⟩]] ∧
      (sender_run (works walk_undisturbed)).InSequence :=
  ⟨by decide +kernel,run_in_sequence (by decide +kernel)⟩

/-- A REPLY overtakes the packet that the table walk holds. -/
theorem walk_overtaken_not_in_sequence : ¬ ∀ steps, (sender_run steps).InSequence := by
  intro in_sequence
  have increasing := (in_sequence (works (walk_begun ++ [.unicast 1,.sync_end 1]))).increasing
  revert increasing
  decide +kernel

/-! ## Reservations -/

/-- The counter behind a number of reservations. -/
def counter (start : UInt32) : Nat → UInt32
  | 0 => start
  | n + 1 => (sequence_reserve (counter start n)).2

/-- The number that a call of `eigrp_packet_sequence_reserve` returns when so many came before it. -/
def reservation (start : UInt32) (n : Nat) : Sequence := (sequence_reserve (counter start n)).1

/-- A counter of zero counts as one. -/
def counter_place (start : UInt32) : Nat := start.toNat - 1

theorem reserve_issued {sequence_number : UInt32} {place : Nat} (there : sequence_number = issued place) :
    (sequence_reserve sequence_number).1.1 = issued place ∧ (sequence_reserve sequence_number).2 = issued (place + 1) := by
  have nonzero : sequence_number ≠ 0 := there ▸ issued_ne_zero place
  have value : sequence_number.toNat = place % (2 ^ 32 - 1) + 1 := there ▸ issued_toNat place
  have next := issued_toNat (place + 1)
  rw [sequence_reserve,dif_neg nonzero]
  refine ⟨there,?_⟩
  dsimp only
  by_cases wraps : sequence_number + 1 = 0
  · have last := congrArg UInt32.toNat wraps
    rw [UInt32.toNat_add] at last
    simp at last
    rw [if_pos wraps]
    refine UInt32.toNat_inj.1 ?_
    rw [next]
    simp
    omega
  · have inside : sequence_number.toNat + 1 < 2 ^ 32 := by
      by_contra full
      refine wraps (UInt32.toNat_inj.1 ?_)
      rw [UInt32.toNat_add]
      simp
      omega
    rw [if_neg wraps]
    refine UInt32.toNat_inj.1 ?_
    rw [next,UInt32.toNat_add]
    simp
    omega

theorem start_issued {start : UInt32} (nonzero : start ≠ 0) : start = issued (counter_place start) := by
  have bound := start.toNat_lt
  have positive : start.toNat ≠ 0 := fun none => nonzero (UInt32.toNat_inj.1 none)
  refine UInt32.toNat_inj.1 ?_
  rw [issued_toNat,counter_place]
  omega

theorem counter_issued (start : UInt32) (n : Nat) : counter start (n + 1) = issued (counter_place start + n + 1) := by
  induction n with
  | zero =>
    by_cases zero : start = 0
    · subst zero
      rfl
    · exact (reserve_issued (start_issued zero)).2
  | succ n ih => exact (reserve_issued ih).2

theorem reservation_issued (start : UInt32) (n : Nat) : (reservation start n).1 = issued (counter_place start + n) := by
  cases n with
  | zero =>
    by_cases zero : start = 0
    · subst zero
      rfl
    · exact (reserve_issued (start_issued zero)).1
  | succ n => exact (reserve_issued (counter_issued start n)).1

/-- Two reservations less than half of the circle apart, the zero left out, are in the order in which they were made. -/
theorem reservation_recent (start : UInt32) {first second : Nat} (earlier : first < second) (near : second < first + (2 ^ 31 - 1)) :
    Recent (reservation start second).1 (reservation start first).1 := by
  rw [reservation_issued,reservation_issued]
  exact issued_recent (by omega) (by omega)

/-- Among reservations of one window the comparison tells which was made first. -/
theorem reservation_before_iff (start : UInt32) {window first second : Nat} (one : window ≤ first ∧ first < window + (2 ^ 31 - 1))
    (two : window ≤ second ∧ second < window + (2 ^ 31 - 1)) :
    sequence_before (reservation start first).1 (reservation start second).1 = true ↔ first < second := by
  rw [sequence_before_iff]
  rcases Nat.lt_trichotomy first second with earlier | same | later
  · exact iff_of_true (reservation_recent start earlier (by omega)) earlier
  · subst same
    refine iff_of_false (fun recent => ?_) (Nat.lt_irrefl _)
    exact recent_asymm recent recent
  · refine iff_of_false (fun recent => ?_) (by omega)
    exact recent_asymm recent (reservation_recent start later (by omega))

/-- No packet is numbered zero, and within half of the number space the numbers are apart and ordered as they were taken. -/
theorem sequence_space (start : UInt32) :
    (∀ n, (reservation start n).1 ≠ 0) ∧
      (∀ first second, first < second → second < first + (2 ^ 31 - 1) →
        reservation start first ≠ reservation start second ∧
          sequence_before (reservation start first).1 (reservation start second).1 = true ∧
            sequence_before (reservation start second).1 (reservation start first).1 = false) ∧
      ∀ window, ∀ first second third, window ≤ first → first < window + (2 ^ 31 - 1) → window ≤ second →
        second < window + (2 ^ 31 - 1) → window ≤ third → third < window + (2 ^ 31 - 1) →
        sequence_before (reservation start first).1 (reservation start first).1 = false ∧
          (sequence_before (reservation start first).1 (reservation start second).1 = true →
            sequence_before (reservation start second).1 (reservation start first).1 = false) ∧
              (sequence_before (reservation start first).1 (reservation start second).1 = true →
                sequence_before (reservation start second).1 (reservation start third).1 = true →
                  sequence_before (reservation start first).1 (reservation start third).1 = true) := by
  refine ⟨fun n => (reservation start n).2,?_,?_⟩
  · intro first second earlier near
    have recent := reservation_recent start earlier near
    have backwards : sequence_before (reservation start second).1 (reservation start first).1 = false := by
      rw [Bool.eq_false_iff,ne_eq,sequence_before_iff]
      exact recent_asymm recent
    refine ⟨fun same => ?_,(sequence_before_iff _ _).2 recent,backwards⟩
    rw [same] at recent
    exact recent_asymm recent recent
  · intro window first second third one one' two two' three three'
    have order := @reservation_before_iff start window
    refine ⟨?_,?_,?_⟩
    · rw [Bool.eq_false_iff,ne_eq,order ⟨one,one'⟩ ⟨one,one'⟩]
      exact Nat.lt_irrefl _
    · intro earlier
      rw [order ⟨one,one'⟩ ⟨two,two'⟩] at earlier
      rw [Bool.eq_false_iff,ne_eq,order ⟨two,two'⟩ ⟨one,one'⟩]
      omega
    · intro earlier later
      rw [order ⟨one,one'⟩ ⟨two,two'⟩] at earlier
      rw [order ⟨two,two'⟩ ⟨three,three'⟩] at later
      exact (order ⟨one,one'⟩ ⟨three,three'⟩).2 (earlier.trans later)

end Eigrp.Rtp
