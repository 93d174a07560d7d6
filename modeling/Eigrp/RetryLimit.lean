import Eigrp.Retry

/-!
# The retry limit

The retries of a packet are counted where they are sent and compared with the limit where the timer expires. The two agree as
long as every retransmission that waits in the output queue belongs to a packet that is still queued under its sequence. An
acknowledged packet is silent from then on, unless a copy of it waits that is not marked as a retransmission: those stay.
-/

namespace Eigrp.Retry
open Eigrp.Rtp (Sequence retrans_max)

/-! ## Careful runs -/

/-- A retransmission waits under the sequence, of a packet that is not queued any more. -/
def Link.stale_retry (link : Link) (sequence : Sequence) : Bool :=
  link.obuf.any fun
    | .copy id queued retransmission => retransmission && queued == sequence && !link.retrans_queue.any (·.id == id)
    | _ => false

/-- A copy of the packet waits that is not marked as a retransmission. -/
def Link.first_copy_waits (link : Link) (id : Nat) : Bool :=
  link.obuf.any fun
    | .copy queued _ retransmission => queued == id && !retransmission
    | _ => false

/-- No packet is created under the sequence of a stale retransmission, and none is acknowledged while such a copy waits. -/
def Link.careful (link : Link) : Event → Bool
  | .enqueue sequence => !link.stale_retry sequence
  | .ack ack _ =>
    match link.retrans_queue with
    | [] => true
    | head :: _ => ack != head.sequence.1 || !link.first_copy_waits head.id
  | _ => true

def Careful (steps : List (Outcome × Event)) : Prop :=
  ∀ front step back, steps = front ++ step :: back → (run front).1.careful step.2 = true

/-- An adjacency goes down after the last retry, unacknowledged, and an acknowledged packet is not sent to the neighbor any more. -/
def Accounted (trace : List Action) : Prop :=
  (∀ front back id, trace = front ++ .retry_limit id :: back → retries front id = retrans_max ∧ .acknowledged id ∉ front) ∧
    ∀ front back id, trace = front ++ .acknowledged id :: back → ∀ sequence retransmission, .wire (.copy id sequence retransmission) ∉ back

section Conditions
variable {link : Link} {sequence : Sequence}

theorem not_stale (fresh : link.careful (.enqueue sequence) = true) {id : Nat} (waits : .copy id sequence true ∈ link.obuf) :
    ∃ packet ∈ link.retrans_queue, packet.id = id := by
  by_contra none_queued
  have stale : link.stale_retry sequence = true := by
    refine List.any_eq_true.2 ⟨_,waits,?_⟩
    have no_one : link.retrans_queue.any (·.id == id) = false := by
      refine List.any_eq_false.2 fun packet member same => none_queued ⟨packet,member,?_⟩
      simpa using same
    simp [no_one]
  rw [Link.careful,stale] at fresh
  cases fresh

theorem no_first_copy {packet : Packet} {rest : List Packet} {init : Bool} (queue : link.retrans_queue = packet :: rest)
    (careful : link.careful (.ack packet.sequence.1 init) = true) (other : Sequence) : .copy packet.id other false ∉ link.obuf := by
  intro waits
  have first : link.first_copy_waits packet.id = true := List.any_eq_true.2 ⟨_,waits,by simp⟩
  simp [Link.careful,queue,first] at careful

theorem Careful.init {steps : List (Outcome × Event)} {step : Outcome × Event} (careful : Careful (steps ++ [step])) :
    Careful steps ∧ (run steps).1.careful step.2 = true := by
  refine ⟨fun front other back cut => careful front other (back ++ [step]) ?_,careful steps step [] rfl⟩
  rw [cut,List.append_assoc]
  rfl

theorem careful_of_take {steps : List (Outcome × Event)}
    (careful : ∀ count : Fin steps.length, (run (steps.take count)).1.careful (steps.get count).2 = true) : Careful steps := by
  rintro front step back rfl
  have here := careful ⟨front.length,by simp⟩
  simpa using here

end Conditions

/-! ## Waiting retransmissions -/

/-- How often the packet would be retransmitted if the whole output queue were sent. -/
def waiting (obuf : List Output) (id : Nat) : Nat := retries (obuf.map .wire) id

section Waiting
variable {obuf more : List Output} {id : Nat}

theorem waiting_cons (packet : Output) : waiting (packet :: obuf) id = retries [.wire packet] id + waiting obuf id :=
  @retries_append [.wire packet] _ (obuf.map .wire)

theorem waiting_append : waiting (obuf ++ more) id = waiting obuf id + waiting more id := by
  rw [waiting,List.map_append,retries_append]
  rfl

theorem waiting_sublist (fewer : more.Sublist obuf) : waiting more id ≤ waiting obuf id :=
  (fewer.map Action.wire).countP_le

theorem waiting_eq_zero (none_waits : ∀ sequence, .copy id sequence true ∉ obuf) : waiting obuf id = 0 := by
  refine retries_eq_zero fun sequence member => ?_
  obtain ⟨packet,waits,same⟩ := List.mem_map.1 member
  injection same with same
  exact none_waits sequence (same ▸ waits)

theorem waiting_pos {sequence : Sequence} (waits : .copy id sequence true ∈ obuf) : 0 < waiting obuf id :=
  List.countP_pos_iff.2 ⟨_,List.mem_map_of_mem waits,by simp [Action.Retries]⟩

end Waiting

/-! ## Exactness -/

/-- The counters are the retries on the wire, and what the output queue holds of a packet fits its state. -/
structure Exact (link : Link) (trace : List Action) : Prop where
  counted : ∀ packet ∈ link.retrans_queue, packet.retrans_counter = retries trace packet.id
  queued : ∀ packet ∈ link.retrans_queue, waiting link.obuf packet.id ≤ if packet.retry_queued then 1 else 0
  limit : ∀ packet ∈ link.retrans_queue, packet.retrans_counter + waiting link.obuf packet.id ≤ retrans_max
  known : ∀ id sequence, .copy id sequence true ∈ link.obuf → ∀ key ∈ link.keys, key.2 = sequence → id ∈ link.keys.map Prod.fst
  gone : ∀ id, .acknowledged id ∈ trace → id < link.next_id ∧ id ∉ link.keys.map Prod.fst ∧
    ∀ sequence retransmission, .copy id sequence retransmission ∉ link.obuf
  accounted : Accounted trace

section Steps
variable {link : Link} {outcome : Outcome} {trace : List Action}

theorem exact_new : Exact {} [] where
  counted := fun _ member => by cases member
  queued := fun _ member => by cases member
  limit := fun _ member => by cases member
  known := fun _ _ member => by cases member
  gone := fun _ member => by cases member
  accounted := ⟨fun front back id cut => by simp at cut,fun front back id cut => by simp at cut⟩

/-- Actions that neither acknowledge nor give up keep the account, when they send no copy of an acknowledged packet. -/
theorem Accounted.append {actions : List Action} (accounted : Accounted trace) (no_ack : ∀ id, .acknowledged id ∉ actions)
    (no_limit : ∀ id, .retry_limit id ∉ actions)
    (silent : ∀ id sequence retransmission, .wire (.copy id sequence retransmission) ∈ actions → .acknowledged id ∉ trace) :
    Accounted (trace ++ actions) := by
  constructor
  · intro front back id cut
    rcases cut_append cut with ⟨rest,old,_⟩ | ⟨first,_,new⟩
    · exact accounted.1 front rest id old
    · exact absurd (by rw [new]; simp) (no_limit id)
  · intro front back id cut sequence retransmission member
    rcases cut_append cut with ⟨rest,old,rfl⟩ | ⟨first,_,new⟩
    · rcases List.mem_append.1 member with before | after
      · exact accounted.2 front rest id old sequence retransmission before
      · exact silent id sequence retransmission after (by rw [old]; simp)
    · exact absurd (by rw [new]; simp) (no_ack id)

theorem mem_keys {packet : Packet} (member : packet ∈ link.retrans_queue) : packet.id ∈ link.keys.map Prod.fst :=
  List.mem_map_of_mem (List.mem_map_of_mem member)

theorem key_of_id {id : Nat} (member : id ∈ link.keys.map Prod.fst) : ∃ packet ∈ link.retrans_queue, packet.id = id := by
  obtain ⟨key,there,rfl⟩ := List.mem_map.1 member
  obtain ⟨packet,here,rfl⟩ := List.mem_map.1 there
  exact ⟨packet,here,rfl⟩

theorem Sound.rest_differs (sound : Sound link trace) {head packet : Packet} {rest : List Packet} (queue : link.retrans_queue = head :: rest)
    (member : packet ∈ rest) : packet.id ≠ head.id := by
  intro same
  have nodup := sound.keyed.nodup
  rw [Link.keys,List.map_map,queue] at nodup
  exact (List.nodup_cons.1 nodup).1 (List.mem_map.2 ⟨packet,member,same⟩)

/-- No retransmission waits but those of the oldest packet. -/
theorem Sound.rest_unsent (sound : Sound link trace) {head packet : Packet} {rest : List Packet} (queue : link.retrans_queue = head :: rest)
    (member : packet ∈ rest) : waiting link.obuf packet.id = 0 := by
  refine waiting_eq_zero fun sequence waits => ?_
  obtain ⟨other,is_head,same,_⟩ := sound.hit waits (by rw [queue]; exact List.mem_cons_of_mem _ member) rfl
  rw [queue] at is_head
  cases is_head
  exact sound.rest_differs queue member same.symm

/-- The wire send of a packet counts where it is one more retry. -/
theorem Exact.hits (exact : Exact link trace) (sound : Sound link trace) {packet : Output} (waits : packet ∈ link.obuf) {head : Packet}
    (is_head : link.retrans_queue.head? = some head) : retries [.wire packet] head.id = if packet.hits head then 1 else 0 := by
  have there : head ∈ link.retrans_queue := List.mem_of_mem_head? is_head
  by_cases sent : ∃ sequence, packet = .copy head.id sequence true
  · obtain ⟨sequence,rfl⟩ := sent
    obtain ⟨other,is_other,_,hits⟩ := sound.hit waits there rfl
    rw [is_head] at is_other
    cases is_other
    rw [retries_wire,hits]
    simp
  · have none_sent : retries [.wire packet] head.id = 0 := by
      by_contra retried
      exact sent (retried_wire retried)
    have misses : packet.hits head = false := by
      cases packet with
      | other => rfl
      | multicast receiver sequence => rfl
      | copy id sequence retransmission =>
        by_contra hits
        have both : retransmission = true ∧ head.sequence = sequence := by
          simpa [Output.hits,Subtype.ext_iff] using hits
        obtain ⟨rfl,same⟩ := both
        have member := exact.known id sequence waits head.key (List.mem_map_of_mem there) same
        obtain ⟨queued,here,ids⟩ := key_of_id member
        obtain ⟨other,is_other,heads,_⟩ := sound.hit waits here ids
        rw [is_head] at is_other
        cases is_other
        exact sent ⟨sequence,by rw [heads]⟩
    rw [none_sent,misses]
    rfl

/-- The oldest packet of the output queue leaves it, sent or not; `sent` says how often the oldest packet was retransmitted. -/
theorem written_exact {packet : Output} {obuf : List Output} {update : Packet → Packet} {actions : List Action} (exact : Exact link trace)
    (sound : Sound link trace) (is_waiting : link.obuf = packet :: obuf) (actions_eq : actions = [.wire packet] ∨ actions = [])
    (effect : ∀ head, (update head).key = head.key ∧
      (update head).retrans_counter = head.retrans_counter + (if actions = [] then 0 else if packet.hits head then 1 else 0) ∧
      (update head).retry_queued = (!packet.hits head && head.retry_queued)) :
    Exact { link with retrans_queue := link.retrans_queue.modifyHead update, obuf } (trace ++ actions) := by
  have waits : packet ∈ link.obuf := by rw [is_waiting]; exact List.mem_cons_self
  have keys : (link.retrans_queue.modifyHead update).map Packet.key = link.keys := keys_modifyHead fun head => (effect head).1
  have before (id : Nat) : waiting link.obuf id = retries [.wire packet] id + waiting obuf id := by rw [is_waiting,waiting_cons]
  have retried (id : Nat) : retries actions id = if actions = [] then 0 else retries [.wire packet] id := by
    rcases actions_eq with rfl | rfl
    · rfl
    · rfl
  have fewer {output : Output} (member : output ∈ obuf) : output ∈ link.obuf := by rw [is_waiting]; exact List.mem_cons_of_mem _ member
  have rest_silent {found : Packet} (old : found ∈ link.retrans_queue.tail) : retries [.wire packet] found.id = 0 := by
    cases queue : link.retrans_queue with
    | nil =>
      rw [queue] at old
      cases old
    | cons head rest =>
      rw [queue] at old
      have none_waits := sound.rest_unsent queue old
      have split := before found.id
      omega
  refine ⟨?_,?_,?_,?_,?_,?_⟩
  · intro found member
    rw [retries_append,retried]
    rcases mem_modifyHead member with ⟨head,is_head,rfl⟩ | old
    · have ids : (update head).id = head.id := congrArg Prod.fst (effect head).1
      rw [(effect head).2.1,ids,exact.counted head (List.mem_of_mem_head? is_head),exact.hits sound waits is_head]
    · rw [exact.counted found (List.mem_of_mem_tail old),rest_silent old]
      simp
  · intro found member
    rcases mem_modifyHead member with ⟨head,is_head,rfl⟩ | old
    · have ids : (update head).id = head.id := congrArg Prod.fst (effect head).1
      have queued := exact.queued head (List.mem_of_mem_head? is_head)
      rw [before,exact.hits sound waits is_head] at queued
      rw [(effect head).2.2,ids]
      revert queued
      cases packet.hits head <;> cases head.retry_queued <;> simp
    · have queued := exact.queued found (List.mem_of_mem_tail old)
      rw [before] at queued
      exact (Nat.le_add_left _ _).trans queued
  · intro found member
    rcases mem_modifyHead member with ⟨head,is_head,rfl⟩ | old
    · have ids : (update head).id = head.id := congrArg Prod.fst (effect head).1
      have limit := exact.limit head (List.mem_of_mem_head? is_head)
      rw [before,exact.hits sound waits is_head] at limit
      rw [(effect head).2.1,ids]
      simp only
      split <;> omega
    · have limit := exact.limit found (List.mem_of_mem_tail old)
      rw [before] at limit
      simp only
      omega
  · simp only [Link.keys,keys]
    exact fun id sequence member => exact.known id sequence (fewer member)
  · intro id acked
    have old : .acknowledged id ∈ trace := by
      rcases List.mem_append.1 acked with old | new
      · exact old
      · rcases actions_eq with rfl | rfl
        · simp at new
        · cases new
    obtain ⟨created,unqueued,no_copy⟩ := exact.gone id old
    refine ⟨created,?_,fun sequence retransmission member => no_copy sequence retransmission (fewer member)⟩
    simp only [Link.keys,keys]
    exact unqueued
  · rcases actions_eq with rfl | rfl
    · refine exact.accounted.append (by simp) (by simp) fun id sequence retransmission member acked => ?_
      have is_packet : packet = .copy id sequence retransmission := by
        injection List.mem_singleton.1 member with same
        exact same.symm
      exact (exact.gone id acked).2.2 sequence retransmission (is_packet ▸ waits)
    · rw [List.append_nil]
      exact exact.accounted

theorem write_exact (exact : Exact link trace) (sound : Sound link trace) :
    Exact (link.write outcome).1 (trace ++ (link.write outcome).2) := by
  unfold Link.write
  cases is_waiting : link.obuf with
  | nil => simpa using exact
  | cons packet obuf =>
    simp only
    by_cases paced : outcome.paced = true
    · simpa [paced] using exact
    rw [if_neg paced]
    by_cases sends : outcome.sends = true
    · rw [if_pos sends]
      obtain ⟨update,updated,effect⟩ := @send_update_eq link outcome packet
      rw [updated]
      exact written_exact exact sound is_waiting (.inl rfl) effect
    · rw [if_neg sends]
      obtain ⟨update,updated,effect⟩ := @send_failure_update_eq link outcome packet
      rw [updated]
      exact written_exact exact sound is_waiting (.inr rfl) effect

/-- The first send of the oldest packet is no retransmission. -/
theorem send_reliably_exact (exact : Exact link trace) : Exact (link.send_reliably outcome) trace := by
  obtain ⟨update,more,updated,effect,first⟩ := @send_reliably_eq link outcome
  have keys : (link.retrans_queue.modifyHead update).map Packet.key = link.keys := keys_modifyHead fun head => (effect head).1
  have unmarked (id : Nat) (sequence : Sequence) : .copy id sequence true ∉ more := by
    rcases first with rfl | ⟨head,is_head,rfl⟩ <;> simp
  have same (id : Nat) : waiting (link.obuf ++ more) id = waiting link.obuf id := by
    rw [waiting_append,waiting_eq_zero (unmarked id),Nat.add_zero]
  have kept {found : Packet} (member : found ∈ link.retrans_queue.modifyHead update) : ∃ packet ∈ link.retrans_queue,
      found.id = packet.id ∧ found.retrans_counter = packet.retrans_counter ∧ found.retry_queued = packet.retry_queued := by
    rcases mem_modifyHead member with ⟨head,is_head,rfl⟩ | old
    · exact ⟨head,List.mem_of_mem_head? is_head,congrArg Prod.fst (effect head).1,(effect head).2⟩
    · exact ⟨found,List.mem_of_mem_tail old,rfl,rfl,rfl⟩
  rw [updated]
  refine ⟨?_,?_,?_,?_,?_,exact.accounted⟩
  · intro found member
    obtain ⟨packet,here,ids,counter,_⟩ := kept member
    rw [ids,counter]
    exact exact.counted packet here
  · intro found member
    obtain ⟨packet,here,ids,_,queued⟩ := kept member
    rw [ids,queued,same]
    exact exact.queued packet here
  · intro found member
    obtain ⟨packet,here,ids,counter,_⟩ := kept member
    rw [ids,counter,same]
    exact exact.limit packet here
  · simp only [Link.keys,keys]
    intro id sequence member
    rcases List.mem_append.1 member with old | new
    · exact exact.known id sequence old
    · exact absurd new (unmarked id sequence)
  · intro id acked
    obtain ⟨created,unqueued,no_copy⟩ := exact.gone id acked
    simp only [Link.keys,keys]
    refine ⟨created,unqueued,fun sequence retransmission member => ?_⟩
    rcases List.mem_append.1 member with old | new
    · exact no_copy sequence retransmission old
    · rcases first with rfl | ⟨head,is_head,rfl⟩
      · cases new
      · cases List.mem_singleton.1 new
        exact unqueued (mem_keys (List.mem_of_mem_head? is_head))

/-- What is left in the output queue when a packet was acknowledged is not a copy of it. -/
theorem acked_silent {packet : Packet} {rest : List Packet} {init : Bool} (exact : Exact link trace) (sound : Sound link trace)
    (queue : link.retrans_queue = packet :: rest) (careful : link.careful (.ack packet.sequence.1 init) = true) (sequence : Sequence)
    (retransmission : Bool) : .copy packet.id sequence retransmission ∉ (link.acked outcome packet rest).obuf := by
  intro member
  have here : packet ∈ link.retrans_queue := by rw [queue]; exact List.mem_cons_self
  have old := acked_obuf member
  cases retransmission with
  | false => exact no_first_copy queue careful sequence old
  | true =>
    have queued := exact.queued packet here
    have some_wait := waiting_pos old
    have again : packet.retry_queued = true := by
      by_contra idle
      rw [if_neg idle] at queued
      omega
    obtain ⟨_,number⟩ := sound.keyed.head packet.id sequence old packet.key (List.mem_map_of_mem here) rfl
    have same : packet.sequence = sequence := number
    unfold Link.acked at member
    rw [if_pos again,Link.retry_cancel] at member
    simp [same] at member

/-- The oldest packet leaves, and its retransmissions with it. -/
theorem acked_exact {packet : Packet} {rest : List Packet} {init : Bool} (exact : Exact link trace) (sound : Sound link trace)
    (queue : link.retrans_queue = packet :: rest) (careful : link.careful (.ack packet.sequence.1 init) = true) :
    Exact (link.acked outcome packet rest) (trace ++ packet.acked outcome) := by
  have fewer : (link.acked outcome packet rest).obuf.Sublist link.obuf := by
    unfold Link.acked
    split
    · exact List.filter_sublist
    · exact List.Sublist.refl _
  have none_sent (id : Nat) : retries (packet.acked outcome) id = 0 := by
    unfold Packet.acked
    cases packet.rtt_sample outcome <;> rfl
  have here : packet ∈ link.retrans_queue := by rw [queue]; exact List.mem_cons_self
  have there {found : Packet} (member : found ∈ rest) : found ∈ link.retrans_queue := by rw [queue]; exact List.mem_cons_of_mem _ member
  have keys : link.keys = packet.key :: rest.map Packet.key := by rw [Link.keys,queue,List.map_cons]
  refine ⟨?_,?_,?_,?_,?_,?_⟩
  · intro found member
    rw [retries_append,none_sent,Nat.add_zero]
    exact exact.counted found (there member)
  · exact fun found member => (waiting_sublist fewer).trans (exact.queued found (there member))
  · intro found member
    have limit := exact.limit found (there member)
    have less := @waiting_sublist _ _ found.id fewer
    omega
  · intro id sequence member key key_here same
    have known := exact.known id sequence (fewer.subset member) key (by rw [keys]; exact List.mem_cons_of_mem _ key_here) same
    rw [keys,List.map_cons] at known
    rcases List.mem_cons.1 known with rfl | old
    · exact absurd member (acked_silent exact sound queue careful sequence true)
    · exact old
  · intro id acked
    rcases List.mem_append.1 acked with old | new
    · obtain ⟨created,unqueued,no_copy⟩ := exact.gone id old
      rw [keys,List.map_cons] at unqueued
      exact ⟨created,fun member => unqueued (List.mem_cons_of_mem _ member),
        fun sequence retransmission member => no_copy sequence retransmission (fewer.subset member)⟩
    · have is_packet : id = packet.id := by
        unfold Packet.acked at new
        cases sampled : packet.rtt_sample outcome <;> rw [sampled] at new <;> simpa using new
      rw [is_packet]
      refine ⟨sound.keyed.created packet.key (List.mem_map_of_mem here),fun member => ?_,acked_silent exact sound queue careful⟩
      obtain ⟨key,key_here,same⟩ := List.mem_map.1 member
      obtain ⟨found,found_here,rfl⟩ := List.mem_map.1 key_here
      exact sound.rest_differs queue found_here same
  · constructor
    · intro front back id cut
      rcases cut_append cut with ⟨after,old,_⟩ | ⟨first,_,new⟩
      · exact exact.accounted.1 front after id old
      · have member : Action.retry_limit id ∈ packet.acked outcome := by rw [new]; simp
        unfold Packet.acked at member
        cases sampled : packet.rtt_sample outcome <;> rw [sampled] at member <;> simp at member
    · intro front back id cut sequence retransmission member
      have no_wire : Action.wire (.copy id sequence retransmission) ∉ packet.acked outcome := by
        intro wired
        unfold Packet.acked at wired
        cases sampled : packet.rtt_sample outcome <;> rw [sampled] at wired <;> simp at wired
      rcases cut_append cut with ⟨after,old,rfl⟩ | ⟨first,_,new⟩
      · rcases List.mem_append.1 member with before | late
        · exact exact.accounted.2 front after id old sequence retransmission before
        · exact no_wire late
      · exact no_wire (by rw [new]; exact List.mem_append_right _ (List.mem_cons_of_mem _ member))

theorem ack_exact {ack : UInt32} {init : Bool} (exact : Exact link trace) (sound : Sound link trace)
    (careful : link.careful (.ack ack init) = true) : Exact (link.ack outcome ack init).1 (trace ++ (link.ack outcome ack init).2) := by
  by_cases matched : ∃ packet rest, link.retrans_queue = packet :: rest ∧ ack = packet.sequence.1
  · obtain ⟨packet,rest,queue,rfl⟩ := matched
    rw [ack_eq queue]
    have left := @acked_exact _ outcome _ _ _ _ exact sound queue careful
    cases init with
    | false => exact send_reliably_exact left
    | true => exact left
  · have other : ∀ packet ∈ link.retrans_queue.head?, ack ≠ packet.sequence.1 := by
      intro packet is_head same
      obtain ⟨rest,queue⟩ := List.head?_eq_some_iff.1 is_head
      exact matched ⟨packet,rest,queue,same⟩
    rw [ack_other init other,List.append_nil]
    exact exact

/-- The neighbor is gone; what the output queue keeps was there before. -/
theorem cleared_exact {obuf : List Output} {rtt : Rtt} (exact : Exact link trace) (fewer : obuf ⊆ link.obuf) :
    Exact { link with retrans_queue := [], obuf, rtt } (trace ++ [.cleared]) where
  counted := fun _ member => by cases member
  queued := fun _ member => by cases member
  limit := fun _ member => by cases member
  known := fun _ _ _ _ member => by cases member
  gone := by
    intro id acked
    have old : .acknowledged id ∈ trace := by simpa using acked
    obtain ⟨created,_,no_copy⟩ := exact.gone id old
    exact ⟨created,List.not_mem_nil,fun sequence retransmission member => no_copy sequence retransmission (fewer member)⟩
  accounted := exact.accounted.append (by simp) (by simp) (by simp)

/-- The last retry was one of as many as the limit says. -/
theorem limited_exact {packet : Packet} {rest : List Packet} (exact : Exact link trace) (queue : link.retrans_queue = packet :: rest)
    (limit : packet.retrans_counter ≥ retrans_max) : Exact link (trace ++ [.retry_limit packet.id]) := by
  have here : packet ∈ link.retrans_queue := by rw [queue]; exact List.mem_cons_self
  have unchanged (id : Nat) : retries (trace ++ [.retry_limit packet.id]) id = retries trace id := by
    rw [retries_append]
    rfl
  refine ⟨?_,exact.queued,exact.limit,exact.known,fun id acked => exact.gone id (by simpa using acked),?_,?_⟩
  · intro found member
    rw [unchanged]
    exact exact.counted found member
  · intro front back id cut
    rcases cut_append cut with ⟨after,old,_⟩ | ⟨first,rfl,new⟩
    · exact exact.accounted.1 front after id old
    · cases first with
      | nil =>
        cases new
        have most := exact.limit packet here
        have counted := exact.counted packet here
        rw [List.append_nil]
        exact ⟨by omega,fun acked => (exact.gone packet.id acked).2.1 (mem_keys here)⟩
      | cons action actions => simp at new
  · intro front back id cut sequence retransmission member
    rcases cut_append cut with ⟨after,old,rfl⟩ | ⟨first,_,new⟩
    · exact exact.accounted.2 front after id old sequence retransmission (by simpa using member)
    · cases first with
      | nil => cases new
      | cons action actions => simp at new

theorem delete_exact (exact : Exact link trace) : Exact link.delete (trace ++ [.cleared]) :=
  @cleared_exact link trace _ _ exact (List.filter_subset_self _)

theorem unack_retrans_exact (exact : Exact link trace) (sound : Sound link trace) :
    Exact (link.unack_retrans outcome).1 (trace ++ (link.unack_retrans outcome).2) := by
  unfold Link.unack_retrans
  cases queue : link.retrans_queue with
  | nil => simpa using exact
  | cons packet rest =>
    have here : packet ∈ link.retrans_queue := by rw [queue]; exact List.mem_cons_self
    have there {found : Packet} (member : found ∈ rest) : found ∈ link.retrans_queue := by rw [queue]; exact List.mem_cons_of_mem _ member
    have keys : link.keys = packet.key :: rest.map Packet.key := by rw [Link.keys,queue,List.map_cons]
    simp only
    by_cases again : packet.retry_queued = true
    · rw [if_pos again]
      simpa using exact
    rw [if_neg again]
    by_cases limit : packet.retrans_counter ≥ retrans_max
    · rw [if_pos limit]
      have last := delete_exact (limited_exact exact queue limit)
      rwa [List.append_assoc] at last
    rw [if_neg limit]
    by_cases no_memory : outcome.dup = false
    · rw [if_pos no_memory,List.append_nil]
      have gone := exact.gone
      have known := exact.known
      rw [keys] at gone known
      refine ⟨?_,?_,?_,known,gone,exact.accounted⟩
      · intro found member
        rcases List.mem_cons.1 member with rfl | old
        · exact exact.counted packet here
        · exact exact.counted found (there old)
      · intro found member
        rcases List.mem_cons.1 member with rfl | old
        · exact exact.queued packet here
        · exact exact.queued found (there old)
      · intro found member
        rcases List.mem_cons.1 member with rfl | old
        · exact exact.limit packet here
        · exact exact.limit found (there old)
    · rw [if_neg no_memory,List.append_nil]
      have idle : waiting link.obuf packet.id = 0 := by
        have queued := exact.queued packet here
        rw [if_neg again] at queued
        omega
      have one_more (id : Nat) (retransmission : Bool) : waiting (link.obuf ++ [.copy packet.id packet.sequence retransmission]) id =
          waiting link.obuf id + if packet.id = id ∧ retransmission = true then 1 else 0 := by
        rw [waiting_append]
        exact congrArg _ (retries_wire packet.id packet.sequence retransmission)
      refine ⟨?_,?_,?_,?_,?_,exact.accounted⟩
      · intro found member
        rcases List.mem_cons.1 member with rfl | old
        · exact exact.counted packet here
        · exact exact.counted found (there old)
      · intro found member
        simp only [one_more]
        rcases List.mem_cons.1 member with rfl | old
        · rw [idle]
          split <;> simp
        · have differs : ¬ packet.id = found.id := fun same => sound.rest_differs queue old same.symm
          simpa [differs] using exact.queued found (there old)
      · intro found member
        simp only [one_more]
        rcases List.mem_cons.1 member with rfl | old
        · rw [idle]
          simp only
          split <;> omega
        · have differs : ¬ packet.id = found.id := fun same => sound.rest_differs queue old same.symm
          simpa [differs] using exact.limit found (there old)
      · intro id sequence member key key_here same
        have old_key : key ∈ link.keys := by rw [keys]; exact key_here
        have known : id ∈ link.keys.map Prod.fst := by
          rcases List.mem_append.1 member with old | new
          · exact exact.known id sequence old key old_key same
          · have equal := List.mem_singleton.1 new
            injection equal with ids _
            rw [ids]
            exact mem_keys here
        rw [keys] at known
        exact known
      · intro id acked
        obtain ⟨created,unqueued,no_copy⟩ := exact.gone id acked
        refine ⟨created,?_,fun sequence retransmission member => ?_⟩
        · rw [keys] at unqueued
          exact unqueued
        · rcases List.mem_append.1 member with old | new
          · exact no_copy sequence retransmission old
          · have equal := List.mem_singleton.1 new
            injection equal with ids _
            exact unqueued (ids ▸ mem_keys here)

/-- Changes of the queue that touch neither key nor counter nor retry of a packet. -/
theorem timer_exact {update : Packet → Packet} (exact : Exact link trace) (position : Nat)
    (same : ∀ packet, (update packet).key = packet.key ∧ (update packet).retrans_counter = packet.retrans_counter ∧
      (update packet).retry_queued = packet.retry_queued) :
    Exact { link with retrans_queue := link.retrans_queue.modify position update } trace := by
  have keys : (link.retrans_queue.modify position update).map Packet.key = link.keys :=
    keys_modify position fun packet => (same packet).1
  have kept {found : Packet} (member : found ∈ link.retrans_queue.modify position update) : ∃ packet ∈ link.retrans_queue,
      found.id = packet.id ∧ found.retrans_counter = packet.retrans_counter ∧ found.retry_queued = packet.retry_queued := by
    obtain ⟨place,at_place⟩ := List.mem_iff_getElem?.1 member
    rw [List.getElem?_modify] at at_place
    obtain ⟨packet,old,rfl⟩ := Option.map_eq_some_iff.1 at_place
    refine ⟨packet,List.mem_of_getElem? old,?_⟩
    split
    · exact ⟨congrArg Prod.fst (same packet).1,(same packet).2⟩
    · exact ⟨rfl,rfl,rfl⟩
  refine ⟨?_,?_,?_,?_,?_,exact.accounted⟩
  · intro found member
    obtain ⟨packet,here,ids,counter,_⟩ := kept member
    rw [ids,counter]
    exact exact.counted packet here
  · intro found member
    obtain ⟨packet,here,ids,_,queued⟩ := kept member
    rw [ids,queued]
    exact exact.queued packet here
  · intro found member
    obtain ⟨packet,here,ids,counter,_⟩ := kept member
    rw [ids,counter]
    exact exact.limit packet here
  · simp only [Link.keys,keys]
    exact exact.known
  · simp only [Link.keys,keys]
    exact exact.gone

/-- A packet is created; what waits in the output queue was there, or is not a copy. -/
theorem create_exact {front back : List Packet} {sequence : Sequence} {obuf : List Output} (exact : Exact link trace)
    (sound : Sound link trace) (queue : link.retrans_queue = front ++ back)
    (fewer : obuf = link.obuf ∨ ∀ id sequence retransmission, .copy id sequence retransmission ∉ obuf)
    (fresh : ∀ id, .copy id sequence true ∈ obuf → ∃ packet ∈ link.retrans_queue, packet.id = id) :
    Exact { link with retrans_queue := front ++ { id := link.next_id, sequence } :: back, obuf, next_id := link.next_id + 1 } trace := by
  have less (id : Nat) : waiting obuf id ≤ waiting link.obuf id := by
    rcases fewer with rfl | none_there
    · exact le_rfl
    · rw [waiting_eq_zero fun sequence => none_there id sequence true]
      exact Nat.zero_le _
  have subset {id : Nat} {number : Sequence} {retransmission : Bool} (member : .copy id number retransmission ∈ obuf) :
      .copy id number retransmission ∈ link.obuf := by
    rcases fewer with rfl | none_there
    · exact member
    · exact absurd member (none_there id number retransmission)
  have unsent : waiting obuf link.next_id = 0 :=
    waiting_eq_zero fun number member => Nat.lt_irrefl _ (sound.keyed.copied link.next_id number true (subset member))
  have untried : retries trace link.next_id = 0 :=
    retries_eq_zero fun number wired => Nat.lt_irrefl _ (sound.wired link.next_id number true wired)
  have cases_of {found : Packet} (member : found ∈ front ++ { id := link.next_id, sequence } :: back) :
      found ∈ link.retrans_queue ∨ found = { id := link.next_id, sequence } := by
    rw [queue,List.mem_append]
    rcases List.mem_append.1 member with here | rest
    · exact .inl (.inl here)
    · rcases List.mem_cons.1 rest with new | here
      · exact .inr new
      · exact .inl (.inr here)
  have old_key {id : Nat} (member : id ∈ link.keys.map Prod.fst) :
      id ∈ ((front ++ { id := link.next_id, sequence } :: back).map Packet.key).map Prod.fst := by
    rw [Link.keys,queue] at member
    simp only [List.map_append,List.map_cons,List.mem_append,List.mem_cons] at member ⊢
    exact member.imp_right .inr
  refine ⟨?_,?_,?_,?_,?_,exact.accounted⟩
  · intro found member
    rcases cases_of member with here | rfl
    · exact exact.counted found here
    · exact untried.symm
  · intro found member
    rcases cases_of member with here | rfl
    · exact (less found.id).trans (exact.queued found here)
    · exact unsent.le
  · intro found member
    rcases cases_of member with here | rfl
    · exact (Nat.add_le_add_left (less found.id) _).trans (exact.limit found here)
    · simp only [unsent]
      exact Nat.zero_le _
  · intro id number member key key_here same
    obtain ⟨found,found_here,rfl⟩ := List.mem_map.1 key_here
    rcases cases_of found_here with here | rfl
    · exact old_key (exact.known id number (subset member) found.key (List.mem_map_of_mem here) same)
    · have number_eq : sequence = number := same
      rw [← number_eq] at member
      obtain ⟨packet,here,rfl⟩ := fresh id member
      exact old_key (mem_keys here)
  · intro id acked
    obtain ⟨created,unqueued,no_copy⟩ := exact.gone id acked
    refine ⟨created.trans (Nat.lt_succ_self _),fun member => ?_,fun number retransmission there => no_copy number retransmission (subset there)⟩
    obtain ⟨key,key_here,rfl⟩ := List.mem_map.1 member
    obtain ⟨found,found_here,rfl⟩ := List.mem_map.1 key_here
    rcases cases_of found_here with here | rfl
    · exact unqueued (mem_keys here)
    · exact Nat.lt_irrefl _ created

theorem enqueue_exact {sequence : Sequence} (exact : Exact link trace) (sound : Sound link trace)
    (careful : link.careful (.enqueue sequence) = true) : Exact (link.enqueue outcome sequence) trace := by
  have queued : Exact { link with retrans_queue := link.retrans_queue ++ [{ id := link.next_id, sequence }], next_id := link.next_id + 1 } trace :=
    create_exact exact sound (List.append_nil _).symm (.inl rfl) fun id => not_stale careful
  unfold Link.enqueue
  simp only
  split
  · exact send_reliably_exact queued
  · exact queued

theorem multicast_admit_exact {sequence : Sequence} {receiver busy : Bool} (exact : Exact link trace) (sound : Sound link trace) :
    Exact (link.multicast_admit sequence receiver busy) trace := by
  unfold Link.multicast_admit
  by_cases empty : link.obuf.isEmpty = true
  · rw [if_pos empty]
    have no_copy (id : Nat) (number : Sequence) (retransmission : Bool) :
        .copy id number retransmission ∉ (if busy then [Output.other] else []) ++
          [.multicast (if receiver then some link.next_id else none) sequence] := by
      cases busy <;> simp
    simp only
    by_cases receives : receiver = true
    · rw [if_pos receives]
      exact create_exact exact sound List.takeWhile_append_dropWhile.symm (.inr no_copy) fun id member => absurd member (no_copy id _ true)
    · rw [if_neg receives]
      have none_waits (id : Nat) : waiting ((if busy then [Output.other] else []) ++
          [.multicast (if receiver then some link.next_id else none) sequence]) id = 0 :=
        waiting_eq_zero fun number => no_copy id number true
      refine ⟨exact.counted,?_,?_,fun id number member => absurd member (no_copy id number true),?_,exact.accounted⟩
      · intro packet member
        rw [none_waits]
        exact Nat.zero_le _
      · intro packet member
        rw [none_waits]
        exact (Nat.le_add_right _ _).trans (exact.limit packet member)
      · intro id acked
        obtain ⟨created,unqueued,_⟩ := exact.gone id acked
        exact ⟨created,unqueued,no_copy id⟩
  · rw [if_neg empty]
    exact exact

/-- A packet that has no part in the queue of the neighbor joins the output queue. -/
theorem output_exact (exact : Exact link trace) (front : Bool) :
    Exact { link with obuf := if front then .other :: link.obuf else link.obuf ++ [.other] } trace := by
  have same (id : Nat) : waiting (if front then .other :: link.obuf else link.obuf ++ [.other]) id = waiting link.obuf id := by
    cases front with
    | false => exact waiting_append
    | true => exact (waiting_cons .other).trans (Nat.zero_add _)
  have subset {id : Nat} {number : Sequence} {retransmission : Bool}
      (member : .copy id number retransmission ∈ if front then .other :: link.obuf else link.obuf ++ [.other]) :
      .copy id number retransmission ∈ link.obuf := by
    cases front <;> simpa using member
  refine ⟨exact.counted,?_,?_,fun id number member => exact.known id number (subset member),?_,exact.accounted⟩
  · intro packet member
    rw [same]
    exact exact.queued packet member
  · intro packet member
    rw [same]
    exact exact.limit packet member
  · intro id acked
    obtain ⟨created,unqueued,no_copy⟩ := exact.gone id acked
    exact ⟨created,unqueued,fun number retransmission member => no_copy number retransmission (subset member)⟩

theorem step_exact {event : Event} (exact : Exact link trace) (sound : Sound link trace) (careful : link.careful event = true) :
    Exact (link.step outcome event).1 (trace ++ (link.step outcome event).2) := by
  cases event with
  | enqueue sequence =>
    rw [Link.step,List.append_nil]
    exact enqueue_exact exact sound careful
  | multicast_admit sequence receiver busy =>
    rw [Link.step,List.append_nil]
    exact multicast_admit_exact exact sound
  | output front =>
    rw [Link.step,List.append_nil]
    exact output_exact exact front
  | write => exact write_exact exact sound
  | ack ack init => exact ack_exact exact sound careful
  | retrans_timer position =>
    unfold Link.step
    simp only
    split
    · exact unack_retrans_exact (timer_exact exact position fun packet => ⟨rfl,rfl,rfl⟩) (timer_sound sound position fun packet => ⟨rfl,rfl⟩)
    · simpa using exact
  | state_down => exact cleared_exact exact (List.Subset.refl _)
  | nbr_down => exact @cleared_exact link trace _ _ exact (List.filter_subset_self _)
  | delete => exact delete_exact exact
  | intf_down => exact @cleared_exact link trace _ _ exact (List.nil_subset _)

theorem run_exact (steps : List (Outcome × Event)) (careful : Careful steps) : Exact (run steps).1 (run steps).2 := by
  induction steps using List.reverseRecOn with
  | nil => exact exact_new
  | append_singleton steps step ih =>
    obtain ⟨before,last⟩ := careful.init
    rw [run_snoc]
    exact step_exact (ih before) (run_sound steps) last

/-! ## Retry accounting -/

/-- In every careful run an adjacency is given up after the last retry, and an acknowledged packet is silent; an ACK that is not
the sequence of the oldest packet removes none. -/
theorem retry_accounting (steps : List (Outcome × Event)) (careful : Careful steps) :
    Accounted (run steps).2 ∧ ∀ outcome ack init,
      let left := ((run steps).1.step outcome (.ack ack init)).1.keys
      left = (run steps).1.keys ∨
        ∃ head rest, (run steps).1.retrans_queue = head :: rest ∧ ack = head.sequence.1 ∧ left = rest.map Packet.key := by
  refine ⟨(run_exact steps careful).accounted,fun outcome ack init => ?_⟩
  by_cases matched : ∃ packet rest, (run steps).1.retrans_queue = packet :: rest ∧ ack = packet.sequence.1
  · obtain ⟨packet,rest,queue,rfl⟩ := matched
    refine .inr ⟨packet,rest,queue,rfl,?_⟩
    rw [Link.step,ack_eq queue]
    cases init with
    | true => rfl
    | false =>
      obtain ⟨update,more,updated,effect,_⟩ := @send_reliably_eq ((run steps).1.acked outcome packet rest) outcome
      simp only [updated]
      exact keys_modifyHead fun head => (effect head).1
  · left
    rw [Link.step,ack_other]
    intro packet is_head same
    obtain ⟨rest,queue⟩ := List.head?_eq_some_iff.1 is_head
    exact matched ⟨packet,rest,queue,same⟩

end Steps

/-- A packet is sent and retried until the limit. -/
def unanswered : List (Outcome × Event) :=
  (({} : Outcome),.enqueue ⟨1,Rtp.one_nonzero⟩) :: (({} : Outcome),.write) ::
    (List.replicate (retrans_max + 1) [(({} : Outcome),.retrans_timer 0),(({} : Outcome),.write)]).flatten

theorem unanswered_gives_up : ∃ front, (run unanswered).2 = front ++ .retry_limit 0 :: [.cleared] ∧ retries front 0 = 16 := by
  have careful : Careful unanswered := by
    refine careful_of_take ?_
    decide +kernel
  have gives_up : (run unanswered).2 = (run unanswered).2.dropLast.dropLast ++ .retry_limit 0 :: [.cleared] := by decide +kernel
  exact ⟨_,gives_up,((retry_accounting unanswered careful).1.1 _ _ _ gives_up).1⟩

/-- The host refuses the first send; the copy that the timer queues instead is no retransmission, is acknowledged while it waits
and is sent then. -/
def acknowledged_while_waiting : List (Outcome × Event) :=
  [({},.enqueue ⟨1,Rtp.one_nonzero⟩),({ sends := false },.write),({},.retrans_timer 0),({},.ack 1 false),({},.write)]

theorem first_copy_outlives_ack : ¬ Accounted (run acknowledged_while_waiting).2 := by
  intro accounted
  have trace : (run acknowledged_while_waiting).2 = [] ++ .acknowledged 0 :: [.wire (.copy 0 ⟨1,by decide⟩ false)] := by decide
  exact accounted.2 _ _ _ trace ⟨1,by decide⟩ false List.mem_cons_self

end Eigrp.Retry
