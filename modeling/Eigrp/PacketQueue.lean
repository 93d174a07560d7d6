import Eigrp.Rtp
import Eigrp.Lib.Links

/-!
# Packet queues

The output queue of an interface, its multicasts that wait for admission and the reliable packets of a neighbor are queues of
one kind: the newest packet at the head, the oldest at the tail, linked in both directions. `eigrp_packet.c` relinks them in
each of the functions below.
-/

namespace Eigrp.PacketQueue
open Eigrp.Lib

/-- What the queues read of a packet: the neighbor, the number, whether it is a retry, and the bytes of its stream. -/
structure Packet where
  nbr : Option Nat := none
  sequence_number : UInt32 := 0
  retransmission : Bool := false
  s : Option (List UInt8) := none
  length : UInt16 := 0
deriving DecidableEq, Repr

/-- The packets that are allocated. -/
abbrev Memory := Nat → Option Packet

/-- The links of all packets, and `eigrp_packet_queue_t`. -/
structure Queue extends Links Nat where
  count : Nat

def Queue.set_next (queue : Queue) (packet : Nat) (value : Option Nat) : Queue :=
  { queue with next := fun other => if other = packet then value else queue.next other }

def Queue.set_previous (queue : Queue) (packet : Nat) (value : Option Nat) : Queue :=
  { queue with previous := fun other => if other = packet then value else queue.previous other }

/-! ## Operations

A result of `none` is a NULL that is dereferenced, a freed packet that is read, or a loop that does not end. -/

/-- `eigrp_packet_enqueue`. -/
def packet_enqueue (queue : Queue) (packet : Nat) : Option Queue := do
  let queue := (queue.set_next packet queue.head).set_previous packet none
  let queue := if queue.tail = none then { queue with tail := some packet } else queue
  let queue ← if queue.count ≠ 0 then do
      let head ← queue.head
      some (queue.set_previous head (some packet))
    else some queue
  some { queue with head := some packet, count := queue.count + 1 }

def header_len : UInt16 := 20
def opc_hello : UInt8 := 5

/-- The opcode is the second byte of the header. -/
def Packet.is_hello (packet : Packet) : Bool :=
  match packet.s with
  | some data => header_len ≤ packet.length && data.getD 1 0 == opc_hello
  | none => false

/-- `eigrp_packet_output_enqueue`: a Hello is put in front of the oldest packet. -/
def packet_output_enqueue (memory : Memory) (queue : Queue) (packet : Nat) : Option Queue := do
  let new ← memory packet
  if new.is_hello then
    let queue := (queue.set_next packet none).set_previous packet queue.tail
    let queue := match queue.tail with
      | some tail => queue.set_next tail (some packet)
      | none => { queue with head := some packet }
    some { queue with tail := some packet, count := queue.count + 1 }
  else packet_enqueue queue packet

/-- The loop of `eigrp_packet_reliable_ordered_enqueue`, from the oldest packet on. -/
def ordered_loop (memory : Memory) (queue : Queue) (packet : Nat) (sequence_number : UInt32) : Nat → Option Nat → Option Queue
  | 0, _ => none
  | _ + 1, none => packet_enqueue queue packet
  | steps + 1, some here => do
    let queued ← memory here
    if sequence_before queued.sequence_number sequence_number then
      ordered_loop memory queue packet sequence_number steps (queue.previous here)
    else
      let queue := (queue.set_previous packet (some here)).set_next packet (queue.next here)
      let queue := match queue.next here with
        | some after => queue.set_previous after (some packet)
        | none => { queue with tail := some packet }
      some { queue.set_next here (some packet) with count := queue.count + 1 }

/-- `eigrp_packet_reliable_ordered_enqueue`. -/
def packet_reliable_ordered_enqueue (memory : Memory) (queue : Queue) (packet : Nat) : Option Queue := do
  let new ← memory packet
  ordered_loop memory queue packet new.sequence_number (queue.count + 1) queue.tail

/-- `eigrp_packet_dequeue`. -/
def packet_dequeue (queue : Queue) : Option Nat × Queue :=
  match queue.tail with
  | none => (none, queue)
  | some packet =>
    let queue := { queue with tail := queue.previous packet }
    let queue := match queue.tail with
      | none => { queue with head := none }
      | some tail => queue.set_next tail none
    (some packet, { queue with count := queue.count - 1 })

/-- `eigrp_packet_free`, as far as the queues know it. -/
def packet_free (memory : Memory) (packet : Nat) : Option Memory := do
  let _ ← memory packet
  some fun other => if other = packet then none else memory other

/-- The packets that `eigrp_packet_neighbor_output_drop` takes out. -/
def Packet.dropped (nbr : Nat) (sequence : UInt32) (retries_only : Bool) (packet : Packet) : Bool :=
  packet.nbr == some nbr && (!retries_only || packet.retransmission && packet.sequence_number == sequence)

/-- The loop of `eigrp_packet_neighbor_output_drop`, from the oldest packet on. -/
def drop_loop (drops : Packet → Bool) : Nat → Option Nat → Memory → Queue → Option (Memory × Queue)
  | 0, _, _, _ => none
  | _ + 1, none, memory, queue => some (memory, queue)
  | steps + 1, some packet, memory, queue => do
    let queued ← memory packet
    let next := queue.previous packet
    if drops queued then
      let queue := match queue.previous packet with
        | some previous => queue.set_next previous (queue.next packet)
        | none => { queue with head := queue.next packet }
      let queue := match queue.next packet with
        | some after => queue.set_previous after (queue.previous packet)
        | none => { queue with tail := queue.previous packet }
      let memory ← packet_free memory packet
      drop_loop drops steps next memory { queue with count := queue.count - 1 }
    else drop_loop drops steps next memory queue

/-- `eigrp_packet_neighbor_output_drop`. -/
def packet_neighbor_output_drop (nbr : Nat) (sequence : UInt32) (retries_only : Bool) (memory : Memory) (queue : Queue) :
    Option (Memory × Queue) :=
  drop_loop (Packet.dropped nbr sequence retries_only) (queue.count + 1) queue.tail memory queue

def clear_loop (queue : Queue) : Nat → Option Nat → Memory → Option Memory
  | 0, _, _ => none
  | _ + 1, none, memory => some memory
  | steps + 1, some packet, memory => do
    let next := queue.next packet
    let memory ← packet_free memory packet
    clear_loop queue steps next memory

/-- `eigrp_packet_queue_clear`. -/
def packet_queue_clear (memory : Memory) (queue : Queue) : Option (Memory × Queue) := do
  let memory ← clear_loop queue (queue.count + 1) queue.head memory
  some (memory, { queue with head := none, tail := none, count := 0 })

/-! ## What a queue holds -/

/-- The packets from the head to the tail. -/
structure Queue.Holds (queue : Queue) (packets : List Nat) : Prop where
  chain : queue.toLinks.Chain packets
  count : queue.count = packets.length

/-- No links but those of the packets were written. -/
def Queue.Frames (queue : Queue) (packets : List Nat) (after : Queue) : Prop :=
  ∀ other, other ∉ packets → after.next other = queue.next other ∧ after.previous other = queue.previous other

section Operations
variable {memory : Memory} {queue : Queue} {packets : List Nat} {packet : Nat}

/-- The packet between two others, where none stands for an end of the queue. -/
def Queue.inserted (queue : Queue) (before after : Option Nat) (packet : Nat) : Queue :=
  { queue.toLinks.insert before after packet with count := queue.count + 1 }

def Queue.unlinked (queue : Queue) (packet : Nat) : Queue :=
  { queue.toLinks.unlink packet with count := queue.count - 1 }

theorem inserted_holds {front back : List Nat} (holds : queue.Holds (front ++ back)) (fresh : packet ∉ front ++ back) :
    (queue.inserted front.getLast? back.head? packet).Holds (front ++ packet :: back) ∧
      queue.Frames (packet :: (front ++ back)) (queue.inserted front.getLast? back.head? packet) := by
  have before : front.getLast? ≠ some packet := fun last => fresh (List.mem_append_left _ (List.mem_of_getLast? last))
  have behind : back.head? ≠ some packet := fun first => fresh (List.mem_append_right _ (List.mem_of_head? first))
  obtain ⟨next,previous,_,_⟩ := @Links.insert_views _ queue.toLinks _ _ _ _ before behind
  refine ⟨⟨holds.chain.insert fresh,?_⟩,?_⟩
  · rw [Queue.inserted,holds.count]
    simp only [List.length_append,List.length_cons]
    omega
  · intro other outside
    rw [List.mem_cons,List.mem_append,not_or,not_or] at outside
    obtain ⟨apart,not_front,not_back⟩ := outside
    have not_last : front.getLast? ≠ some other := fun last => not_front (List.mem_of_getLast? last)
    have not_first : back.head? ≠ some other := fun first => not_back (List.mem_of_head? first)
    rw [Queue.inserted,next,previous]
    simp only [apart,not_last,not_first,if_false,and_self]

theorem unlinked_holds {front back : List Nat} (holds : queue.Holds (front ++ packet :: back)) :
    (queue.unlinked packet).Holds (front ++ back) ∧ queue.Frames (front ++ packet :: back) (queue.unlinked packet) := by
  obtain ⟨next,previous,_,_⟩ := Links.unlink_views queue.toLinks packet
  rw [holds.chain.previous_eq,holds.chain.next_eq] at next previous
  refine ⟨⟨holds.chain.unlink,?_⟩,?_⟩
  · rw [Queue.unlinked,holds.count]
    simp only [List.length_append,List.length_cons]
    omega
  · intro other outside
    rw [List.mem_append,List.mem_cons,not_or,not_or] at outside
    obtain ⟨not_front,_,not_back⟩ := outside
    have not_last : front.getLast? ≠ some other := fun last => not_front (List.mem_of_getLast? last)
    have not_first : back.head? ≠ some other := fun first => not_back (List.mem_of_head? first)
    rw [Queue.unlinked,next,previous]
    simp only [not_last,not_first,if_false,and_self]

theorem Queue.Frames.trans {first second third : Queue} {some_packets more : List Nat} (one : first.Frames some_packets second)
    (two : second.Frames more third) (less : ∀ other ∈ more, other ∈ some_packets) : first.Frames some_packets third := by
  intro other outside
  have beyond : other ∉ more := fun member => outside (less other member)
  exact ⟨(two other beyond).1.trans (one other outside).1,(two other beyond).2.trans (one other outside).2⟩

/-! ## What the operations do to it -/

theorem packet_enqueue_eq (holds : queue.Holds packets) : packet_enqueue queue packet = some (queue.inserted none packets.head? packet) := by
  have head := holds.chain.head_eq
  have tail := holds.chain.tail_eq
  have count := holds.count
  cases packets with
  | nil => simp_all [packet_enqueue,Queue.inserted,Queue.set_next,Queue.set_previous,Links.insert,Links.point_next,Links.point_previous]
  | cons first rest =>
    have some_tail : queue.tail ≠ none := by simp [tail]
    have some_count : queue.count ≠ 0 := by simp [count]
    simp [packet_enqueue,Queue.inserted,Queue.set_next,Queue.set_previous,Links.insert,Links.point_next,Links.point_previous,head,
      some_tail,some_count]

theorem packet_enqueue_holds (holds : queue.Holds packets) (fresh : packet ∉ packets) :
    ∃ after, packet_enqueue queue packet = some after ∧ after.Holds (packet :: packets) ∧ queue.Frames (packet :: packets) after :=
  ⟨_,packet_enqueue_eq holds,@inserted_holds queue packet [] packets holds fresh⟩

/-- The packets behind `eigrp_packet_output_enqueue`. -/
def output (packets : List Nat) (packet : Nat) (new : Packet) : List Nat :=
  if new.is_hello then packets ++ [packet] else packet :: packets

theorem packet_output_enqueue_holds (holds : queue.Holds packets) (fresh : packet ∉ packets) {new : Packet}
    (allocated : memory packet = some new) :
    ∃ after, packet_output_enqueue memory queue packet = some after ∧ after.Holds (output packets packet new) ∧
      queue.Frames (packet :: packets) after := by
  by_cases hello : new.is_hello = true
  · have tail := holds.chain.tail_eq
    have inserted := @inserted_holds queue packet packets [] (by rwa [List.append_nil]) (by rwa [List.append_nil])
    rw [List.append_nil] at inserted
    refine ⟨_,?_,by rw [output,if_pos hello]; exact inserted.1,inserted.2⟩
    cases last : packets.getLast? <;>
      simp [packet_output_enqueue,allocated,hello,tail,last,Queue.inserted,Queue.set_next,Queue.set_previous,Links.insert,Links.point_next,
        Links.point_previous]
  · rw [packet_output_enqueue,allocated,output,if_neg hello]
    simp only [Option.bind_eq_bind,Option.bind_some,hello,Bool.false_eq_true,if_false]
    exact packet_enqueue_holds holds fresh

/-- Whether a queued packet has an earlier number. -/
def early (memory : Memory) (sequence_number : UInt32) (queued : Nat) : Bool :=
  (memory queued).any fun queued => sequence_before queued.sequence_number sequence_number

/-- The packets behind `eigrp_packet_reliable_ordered_enqueue`: the new one behind the oldest ones with earlier numbers. -/
def ordered (memory : Memory) (packets : List Nat) (packet : Nat) (sequence_number : UInt32) : List Nat :=
  (packets.reverse.dropWhile (early memory sequence_number)).reverse ++
    packet :: (packets.reverse.takeWhile (early memory sequence_number)).reverse

theorem ordered_loop_holds {sequence_number : UInt32} (front back : List Nat) (holds : queue.Holds (front ++ back))
    (fresh : packet ∉ front ++ back) (live : ∀ queued ∈ front, memory queued ≠ none) {steps : Nat} (enough : front.length < steps) :
    ∃ after, ordered_loop memory queue packet sequence_number steps front.getLast? = some after ∧
      after.Holds (ordered memory front packet sequence_number ++ back) ∧ queue.Frames (packet :: (front ++ back)) after := by
  -- from the tail on: the packets of `back` are passed, and `front` is still ahead
  induction front using List.reverseRecOn generalizing back steps with
  | nil =>
    cases steps with
    | zero => simp at enough
    | succ steps => exact packet_enqueue_holds holds fresh
  | append_singleton front here ih =>
    have moved : front ++ [here] ++ back = front ++ here :: back := by simp
    cases steps with
    | zero => simp at enough
    | succ steps =>
      obtain ⟨queued,allocated⟩ := Option.ne_none_iff_exists'.1 (live here (by simp))
      have early_eq : early memory sequence_number here = sequence_before queued.sequence_number sequence_number := by
        rw [early,allocated]
        rfl
      rw [List.getLast?_concat,ordered_loop,allocated]
      simp only [Option.bind_eq_bind,Option.bind_some]
      by_cases earlier : sequence_before queued.sequence_number sequence_number = true
      · rw [if_pos earlier]
        rw [moved] at holds fresh ⊢
        rw [holds.chain.previous_eq]
        obtain ⟨after,run,spec,frames⟩ := ih (here :: back) holds fresh
          (fun other member => live other (List.mem_append_left _ member)) (by simp at enough; omega)
        refine ⟨after,run,?_,frames⟩
        rw [ordered,List.reverse_append,List.reverse_singleton,List.singleton_append,List.dropWhile_cons_of_pos (by rwa [early_eq]),
          List.takeWhile_cons_of_pos (by rwa [early_eq]),List.reverse_cons]
        simpa [ordered] using spec
      · rw [if_neg earlier]
        have inserted := inserted_holds holds fresh
        have stays : ordered memory (front ++ [here]) packet sequence_number = front ++ [here] ++ [packet] := by
          rw [ordered,List.reverse_append,List.reverse_singleton,List.singleton_append,List.dropWhile_cons_of_neg (by rwa [early_eq]),
            List.takeWhile_cons_of_neg (by rwa [early_eq])]
          simp
        have apart : here ≠ packet := fun same => fresh (by simp [same])
        have next : queue.next here = back.head? := by
          rw [moved] at holds
          exact holds.chain.next_eq
        rw [stays,List.append_assoc _ [packet] back,List.singleton_append]
        refine ⟨_,?_,inserted.1,inserted.2⟩
        rw [List.getLast?_concat]
        cases behind : back.head? <;>
          simp [Queue.inserted,Queue.set_next,Queue.set_previous,Links.insert,Links.point_next,Links.point_previous,next,behind,apart]

theorem while_congr {α : Type} {cells : List α} {one two : α → Bool} (same : ∀ cell ∈ cells, one cell = two cell) :
    cells.takeWhile one = cells.takeWhile two ∧ cells.dropWhile one = cells.dropWhile two := by
  induction cells with
  | nil => exact ⟨rfl,rfl⟩
  | cons cell cells ih =>
    obtain ⟨take,drop⟩ := ih fun other member => same other (List.mem_cons_of_mem _ member)
    rw [List.takeWhile_cons,List.takeWhile_cons,List.dropWhile_cons,List.dropWhile_cons,same cell List.mem_cons_self,take,drop]
    exact ⟨rfl,rfl⟩

/-- The oldest first, this is the insertion that the reliable transport is described with. -/
theorem ordered_reliable (view : Nat → Rtp.Reliable) {packet : Nat}
    (numbers : ∀ queued ∈ packets, ∃ data, memory queued = some data ∧ data.sequence_number = (view queued).sequence.1) :
    (ordered memory packets packet (view packet).sequence.1).reverse.map view =
      Rtp.ordered_enqueue (packets.reverse.map view) (view packet) := by
  have same : ∀ queued ∈ packets.reverse, early memory (view packet).sequence.1 queued =
      Rtp.before (view queued).sequence (view packet).sequence := by
    intro queued member
    obtain ⟨data,allocated,number⟩ := numbers queued (List.mem_reverse.1 member)
    rw [early,allocated,Rtp.before,← number]
    rfl
  obtain ⟨take,drop⟩ := while_congr same
  rw [Rtp.ordered_enqueue,List.takeWhile_map,List.dropWhile_map,ordered,List.reverse_append,List.reverse_cons,List.reverse_reverse,
    List.reverse_reverse,List.append_assoc,List.singleton_append,List.map_append,List.map_cons,take,drop]
  rfl

theorem packet_reliable_ordered_enqueue_holds (holds : queue.Holds packets) (fresh : packet ∉ packets)
    (live : ∀ queued ∈ packets, memory queued ≠ none) {new : Packet} (allocated : memory packet = some new) :
    ∃ after, packet_reliable_ordered_enqueue memory queue packet = some after ∧
      after.Holds (ordered memory packets packet new.sequence_number) ∧ queue.Frames (packet :: packets) after := by
  have loop := @ordered_loop_holds memory queue packet new.sequence_number packets [] (by rwa [List.append_nil])
    (by rwa [List.append_nil]) live (queue.count + 1) (by rw [holds.count]; exact Nat.lt_succ_self _)
  rw [List.append_nil,List.append_nil,← holds.chain.tail_eq] at loop
  rw [packet_reliable_ordered_enqueue,allocated]
  exact loop

theorem packet_dequeue_eq (holds : queue.Holds packets) :
    packet_dequeue queue = (packets.getLast?, match packets.getLast? with
      | some packet => queue.unlinked packet
      | none => queue) := by
  have tail := holds.chain.tail_eq
  cases packets using List.reverseRecOn with
  | nil =>
    have no_tail : queue.tail = none := tail
    rw [packet_dequeue,no_tail]
    rfl
  | append_singleton front last =>
    have next : queue.next last = none := holds.chain.next_eq
    have previous : queue.previous last = front.getLast? := holds.chain.previous_eq
    rw [List.getLast?_concat] at tail ⊢
    cases before : front.getLast? <;>
      simp [packet_dequeue,tail,Queue.unlinked,Queue.set_next,Links.unlink,Links.point_next,Links.point_previous,next,previous,before]

theorem packet_dequeue_holds (holds : queue.Holds packets) :
    (packet_dequeue queue).1 = packets.getLast? ∧ (packet_dequeue queue).2.Holds packets.dropLast ∧
      queue.Frames packets (packet_dequeue queue).2 := by
  rw [packet_dequeue_eq holds]
  cases packets using List.reverseRecOn with
  | nil => exact ⟨rfl,holds,fun _ _ => ⟨rfl,rfl⟩⟩
  | append_singleton front last =>
    have unlinked := unlinked_holds holds
    rw [List.append_nil] at unlinked
    rw [List.getLast?_concat,List.dropLast_concat]
    exact ⟨rfl,unlinked⟩

/-! ## Packets that are freed -/

def freed (memory : Memory) (packets : List Nat) : Memory := fun other => if other ∈ packets then none else memory other

theorem packet_free_eq (allocated : memory packet ≠ none) : packet_free memory packet = some (freed memory [packet]) := by
  obtain ⟨data,here⟩ := Option.ne_none_iff_exists'.1 allocated
  rw [packet_free,here]
  simp only [Option.bind_eq_bind,Option.bind_some,Option.some.injEq]
  funext other
  simp only [freed,List.mem_singleton]

theorem freed_nil : freed memory [] = memory := funext fun _ => if_neg List.not_mem_nil

theorem freed_freed (first second : List Nat) : freed (freed memory first) second = freed memory (first ++ second) := by
  funext other
  simp only [freed,List.mem_append]
  by_cases one : other ∈ first <;> by_cases two : other ∈ second <;> simp [one,two]

theorem freed_of_notMem {other : Nat} (outside : other ∉ packets) : freed memory packets other = memory other := if_neg outside

/-- Whether a queued packet matches. -/
def matching (memory : Memory) (drops : Packet → Bool) (queued : Nat) : Bool := (memory queued).any drops

theorem drop_loop_holds {drops : Packet → Bool} (front back : List Nat) (holds : queue.Holds (front ++ back))
    (live : ∀ queued ∈ front, memory queued ≠ none) {steps : Nat} (enough : front.length < steps) :
    ∃ after, drop_loop drops steps front.getLast? memory queue =
        some (freed memory (front.filter (matching memory drops)).reverse,after) ∧
      after.Holds (front.filter (fun queued => !matching memory drops queued) ++ back) ∧ queue.Frames (front ++ back) after := by
  -- from the tail on: what is left of `back` is passed, and `front` is still ahead
  induction front using List.reverseRecOn generalizing back steps memory queue with
  | nil =>
    cases steps with
    | zero => simp at enough
    | succ steps => exact ⟨queue,rfl,holds,fun _ _ => ⟨rfl,rfl⟩⟩
  | append_singleton front packet ih =>
    have moved : front ++ [packet] ++ back = front ++ packet :: back := by simp
    have absent : packet ∉ front := by
      have nodup := holds.chain.nodup
      rw [moved] at nodup
      exact fun member => (List.nodup_append.1 nodup).2.2 _ member _ List.mem_cons_self rfl
    have live_front : ∀ queued ∈ front, memory queued ≠ none := fun other member => live other (List.mem_append_left _ member)
    rw [moved] at holds ⊢
    cases steps with
    | zero => simp at enough
    | succ steps =>
      have fewer : front.length < steps := by
        simp at enough
        omega
      obtain ⟨queued,allocated⟩ := Option.ne_none_iff_exists'.1 (live packet (by simp))
      have matching_eq : matching memory drops packet = drops queued := by
        rw [matching,allocated]
        rfl
      have previous : queue.previous packet = front.getLast? := holds.chain.previous_eq
      have next : queue.next packet = back.head? := holds.chain.next_eq
      rw [List.getLast?_concat,drop_loop,allocated,List.filter_append,List.filter_append]
      simp only [Option.bind_eq_bind,Option.bind_some]
      by_cases drop : drops queued = true
      · have unlinked := unlinked_holds holds
        have same {other : Nat} (member : other ∈ front) : matching (freed memory [packet]) drops other = matching memory drops other := by
          rw [matching,freed_of_notMem (by simp only [List.mem_singleton]; exact fun here => absent (here ▸ member))]
          rfl
        obtain ⟨after,run,spec,frames⟩ := @ih (freed memory [packet]) (queue.unlinked packet) back unlinked.1
          (fun other member => by
            rw [freed_of_notMem (by simp only [List.mem_singleton]; exact fun here => absent (here ▸ member))]
            exact live_front other member) steps fewer
        rw [List.filter_congr fun other member => same member,freed_freed] at run
        rw [List.filter_congr fun other member => congrArg (!·) (same member)] at spec
        refine ⟨after,?_,?_,unlinked.2.trans frames fun other member => ?_⟩
        · rw [if_pos drop,packet_free_eq (by rw [allocated]; exact Option.some_ne_none _)]
          simp only [Option.bind_some]
          rw [List.filter_cons_of_pos (by rwa [matching_eq]),List.filter_nil,List.reverse_append,List.reverse_singleton,← run,previous]
          congr 1
          cases before : front.getLast? <;> cases behind : back.head? <;>
            simp [Queue.unlinked,Queue.set_next,Queue.set_previous,Links.unlink,Links.point_next,Links.point_previous,next,previous,before,
              behind]
        · rw [List.filter_cons_of_neg (by simp [matching_eq,drop]),List.filter_nil,List.append_nil]
          exact spec
        · rcases List.mem_append.1 member with left | right
          · exact List.mem_append_left _ left
          · exact List.mem_append_right _ (List.mem_cons_of_mem _ right)
      · obtain ⟨after,run,spec,frames⟩ := @ih memory queue (packet :: back) holds live_front steps fewer
        refine ⟨after,?_,?_,frames⟩
        · rw [if_neg drop,List.filter_cons_of_neg (by rwa [matching_eq]),List.filter_nil,List.append_nil,previous]
          exact run
        · rw [List.filter_cons_of_pos (by simp [matching_eq,drop]),List.filter_nil,List.append_assoc,List.singleton_append]
          exact spec

theorem packet_neighbor_output_drop_holds (holds : queue.Holds packets) (live : ∀ queued ∈ packets, memory queued ≠ none) (nbr : Nat)
    (sequence : UInt32) (retries_only : Bool) :
    ∃ after, packet_neighbor_output_drop nbr sequence retries_only memory queue =
        some (freed memory (packets.filter (matching memory (Packet.dropped nbr sequence retries_only))).reverse,after) ∧
      after.Holds (packets.filter fun queued => !matching memory (Packet.dropped nbr sequence retries_only) queued) ∧
      queue.Frames packets after := by
  have loop := @drop_loop_holds memory queue (Packet.dropped nbr sequence retries_only) packets [] (by rwa [List.append_nil]) live
    (queue.count + 1) (by rw [holds.count]; exact Nat.lt_succ_self _)
  rw [List.append_nil,List.append_nil,← holds.chain.tail_eq] at loop
  exact loop

theorem clear_loop_eq (rest : List Nat) {cursor : Option Nat} (linked : Threaded queue.next cursor rest) (nodup : rest.Nodup)
    (live : ∀ queued ∈ rest, memory queued ≠ none) {steps : Nat} (enough : rest.length < steps) :
    clear_loop queue steps cursor memory = some (freed memory rest) := by
  induction rest generalizing cursor memory steps with
  | nil =>
    have ended : cursor = none := linked
    subst ended
    cases steps with
    | zero => simp at enough
    | succ steps => rw [clear_loop,freed_nil]
  | cons packet rest ih =>
    obtain ⟨rfl,linked⟩ := linked
    obtain ⟨absent,nodup⟩ := List.nodup_cons.1 nodup
    cases steps with
    | zero => simp at enough
    | succ steps =>
      rw [clear_loop,packet_free_eq (live packet List.mem_cons_self)]
      simp only [Option.bind_eq_bind,Option.bind_some]
      rw [ih linked nodup (fun other member => ?_) (Nat.lt_of_succ_lt_succ enough),freed_freed,List.singleton_append]
      rw [freed_of_notMem (by simp only [List.mem_singleton]; exact fun here => absent (here ▸ member))]
      exact live other (List.mem_cons_of_mem _ member)

theorem packet_queue_clear_holds (holds : queue.Holds packets) (live : ∀ queued ∈ packets, memory queued ≠ none) :
    ∃ after, packet_queue_clear memory queue = some (freed memory packets,after) ∧ after.Holds [] ∧ queue.Frames [] after := by
  have loop := @clear_loop_eq memory queue packets _ holds.chain.forward holds.chain.nodup live (queue.count + 1)
    (by rw [holds.count]; exact Nat.lt_succ_self _)
  refine ⟨{ queue with head := none, tail := none, count := 0 },?_,⟨Links.chain_empty queue.toLinks,rfl⟩,fun _ _ => ⟨rfl,rfl⟩⟩
  rw [packet_queue_clear,loop]
  rfl

end Operations

/-! ## All queues -/

/-- The allocated packets with their links, and the queues of all interfaces and neighbors. -/
structure Heap where
  memory : Memory
  next : Nat → Option Nat
  previous : Nat → Option Nat
  head : Nat → Option Nat
  tail : Nat → Option Nat
  count : Nat → Nat

def Heap.empty : Heap where
  memory _ := none
  next _ := none
  previous _ := none
  head _ := none
  tail _ := none
  count _ := 0

def Heap.queue (heap : Heap) (id : Nat) : Queue where
  next := heap.next
  previous := heap.previous
  head := heap.head id
  tail := heap.tail id
  count := heap.count id

/-- The heap behind an operation on one of the queues. -/
def Heap.put (heap : Heap) (id : Nat) (memory : Memory) (queue : Queue) : Heap where
  memory := memory
  next := queue.next
  previous := queue.previous
  head other := if other = id then queue.head else heap.head other
  tail other := if other = id then queue.tail else heap.tail other
  count other := if other = id then queue.count else heap.count other

/-- `eigrp_packet_create` where the allocator returned `packet`. -/
def Heap.create (heap : Heap) (packet : Nat) (data : Packet) : Heap :=
  { heap with
    memory := fun other => if other = packet then some data else heap.memory other
    next := fun other => if other = packet then none else heap.next other
    previous := fun other => if other = packet then none else heap.previous other }

/-- What is done to the queues: a new packet is queued in one of the three ways, the oldest multicast goes to the output queue,
    the oldest packet is taken out and freed, packets of a neighbor are dropped, a queue is cleared. -/
inductive Action where
  | enqueue (id packet : Nat) (data : Packet)
  | output_enqueue (id packet : Nat) (data : Packet)
  | ordered_enqueue (id packet : Nat) (data : Packet)
  | admission (pending obuf : Nat)
  | dequeue (id : Nat)
  | drop (id nbr : Nat) (sequence : UInt32) (retries_only : Bool)
  | clear (id : Nat)

/-- The allocator does not return a packet that is in use. -/
def Action.Possible (heap : Heap) : Action → Prop
  | .enqueue _ packet _ | .output_enqueue _ packet _ | .ordered_enqueue _ packet _ => heap.memory packet = none
  | _ => True

def Heap.step (heap : Heap) : Action → Option Heap
  | .enqueue id packet data => do
    let heap := heap.create packet data
    let queue ← packet_enqueue (heap.queue id) packet
    some (heap.put id heap.memory queue)
  | .output_enqueue id packet data => do
    let heap := heap.create packet data
    let queue ← packet_output_enqueue heap.memory (heap.queue id) packet
    some (heap.put id heap.memory queue)
  | .ordered_enqueue id packet data => do
    let heap := heap.create packet data
    let queue ← packet_reliable_ordered_enqueue heap.memory (heap.queue id) packet
    some (heap.put id heap.memory queue)
  | .admission pending obuf =>
    match packet_dequeue (heap.queue pending) with
    | (none, _) => some heap
    | (some packet, queue) => do
      let heap := heap.put pending heap.memory queue
      let queue ← packet_output_enqueue heap.memory (heap.queue obuf) packet
      some (heap.put obuf heap.memory queue)
  | .dequeue id =>
    match packet_dequeue (heap.queue id) with
    | (none, _) => some heap
    | (some packet, queue) => do
      let memory ← packet_free heap.memory packet
      some (heap.put id memory queue)
  | .drop id nbr sequence retries_only => do
    let (memory, queue) ← packet_neighbor_output_drop nbr sequence retries_only heap.memory (heap.queue id)
    some (heap.put id memory queue)
  | .clear id => do
    let (memory, queue) ← packet_queue_clear heap.memory (heap.queue id)
    some (heap.put id memory queue)

inductive Reached : Heap → Prop where
  | empty : Reached .empty
  | step {heap after : Heap} {action : Action} (reached : Reached heap) (possible : action.Possible heap)
      (step : heap.step action = some after) : Reached after

/-! ## What the queues hold along a run -/

/-- The packets of each queue from its head to its tail. -/
abbrev Contents := Nat → List Nat

def Contents.put (contents : Contents) (id : Nat) (packets : List Nat) : Contents :=
  fun other => if other = id then packets else contents other

/-- What an action is to do to the contents. -/
def Action.contents (heap : Heap) (contents : Contents) : Action → Contents
  | .enqueue id packet _ => contents.put id (packet :: contents id)
  | .output_enqueue id packet data => contents.put id (output (contents id) packet data)
  | .ordered_enqueue id packet data =>
    contents.put id (ordered (heap.create packet data).memory (contents id) packet data.sequence_number)
  | .admission pending obuf =>
    match (contents pending).getLast? with
    | none => contents
    | some packet =>
      let left := contents.put pending (contents pending).dropLast
      left.put obuf (output (left obuf) packet ((heap.memory packet).getD {}))
  | .dequeue id => contents.put id (contents id).dropLast
  | .drop id nbr sequence retries_only =>
    contents.put id ((contents id).filter fun queued => !matching heap.memory (Packet.dropped nbr sequence retries_only) queued)
  | .clear id => contents.put id []

/-- Every queue holds its packets, and no packet is in two queues. -/
structure Heap.Holds (heap : Heap) (contents : Contents) : Prop where
  holds : ∀ id, (heap.queue id).Holds (contents id)
  live : ∀ id, ∀ packet ∈ contents id, heap.memory packet ≠ none
  apart : ∀ one two, one ≠ two → ∀ packet ∈ contents one, packet ∉ contents two

section Runs
variable {heap : Heap} {contents : Contents} {id : Nat}

theorem empty_holds : Heap.Holds .empty fun _ => [] where
  holds _ := ⟨⟨rfl,rfl,List.nodup_nil⟩,rfl⟩
  live _ packet member := by cases member
  apart _ _ _ packet member := by cases member

/-- An operation on one queue leaves the others alone. -/
theorem put_holds (all : heap.Holds contents) {memory : Memory} {queue : Queue} {packets touched : List Nat} (holds : queue.Holds packets)
    (frames : (heap.queue id).Frames touched queue) (own : ∀ other, other ≠ id → ∀ packet ∈ contents other, packet ∉ touched ∧ packet ∉ packets)
    (live : ∀ packet ∈ packets, memory packet ≠ none) (kept : ∀ other, other ≠ id → ∀ packet ∈ contents other, memory packet ≠ none) :
    (heap.put id memory queue).Holds (contents.put id packets) := by
  refine ⟨fun other => ?_,fun other packet member => ?_,fun one two different packet member => ?_⟩
  · by_cases here : other = id
    · subst here
      have same : (heap.put other memory queue).queue other = queue := by simp [Heap.put,Heap.queue]
      rw [same,Contents.put,if_pos rfl]
      exact holds
    · have old := all.holds other
      rw [Contents.put,if_neg here]
      refine ⟨old.chain.congr ?_ ?_ (fun packet member => ?_) (fun packet member => ?_),?_⟩
      · simp [Heap.put,Heap.queue,here]
      · simp [Heap.put,Heap.queue,here]
      · exact (frames packet (own other here packet member).1).1
      · exact (frames packet (own other here packet member).1).2
      · rw [← old.count]
        simp [Heap.put,Heap.queue,here]
  · rw [Contents.put] at member
    split at member
    · exact live packet member
    · rename_i here
      exact kept other here packet member
  · rw [Contents.put] at member ⊢
    by_cases first : one = id
    · rw [if_pos first] at member
      have second : two ≠ id := fun same => different (first.trans same.symm)
      rw [if_neg second]
      exact fun there => (own two second packet there).2 member
    · rw [if_neg first] at member
      split
      · exact (own one first packet member).2
      · exact all.apart one two different packet member

theorem create_holds (all : heap.Holds contents) {packet : Nat} (data : Packet) (unused : heap.memory packet = none) :
    (heap.create packet data).Holds contents ∧ ∀ other, packet ∉ contents other := by
  have fresh : ∀ other, packet ∉ contents other := fun other member => all.live other packet member unused
  have different {other queued : Nat} (member : queued ∈ contents other) : queued ≠ packet := fun here => fresh other (here ▸ member)
  refine ⟨⟨fun other => ?_,fun other queued member => ?_,all.apart⟩,fresh⟩
  · have old := all.holds other
    refine ⟨old.chain.congr rfl rfl (fun queued member => ?_) (fun queued member => ?_),old.count⟩
    · exact if_neg (different member)
    · exact if_neg (different member)
  · have same : (heap.create packet data).memory queued = heap.memory queued := if_neg (different member)
    rw [same]
    exact all.live other queued member

/-- A packet that is in no queue is queued in one of them. -/
theorem queued_holds (all : heap.Holds contents) {packet : Nat} (fresh : ∀ other, packet ∉ contents other)
    (allocated : heap.memory packet ≠ none) {queue : Queue} {packets : List Nat} (holds : queue.Holds packets)
    (frames : (heap.queue id).Frames (packet :: contents id) queue) (members : ∀ queued ∈ packets, queued = packet ∨ queued ∈ contents id) :
    (heap.put id heap.memory queue).Holds (contents.put id packets) := by
  refine put_holds all holds frames (fun other different queued member => ⟨?_,?_⟩) (fun queued member => ?_)
    fun other _ queued member => all.live other queued member
  · rw [List.mem_cons,not_or]
    exact ⟨fun here => fresh other (here ▸ member),all.apart other id different queued member⟩
  · intro there
    rcases members queued there with here | inside
    · exact fresh other (here ▸ member)
    · exact all.apart other id different queued member inside
  · rcases members queued member with rfl | inside
    · exact allocated
    · exact all.live id queued inside

theorem mem_output {packets : List Nat} {packet queued : Nat} {new : Packet} (member : queued ∈ output packets packet new) :
    queued = packet ∨ queued ∈ packets := by
  rw [output] at member
  split at member
  · rcases List.mem_append.1 member with old | here
    · exact .inr old
    · exact .inl (List.mem_singleton.1 here)
  · exact List.mem_cons.1 member

theorem mem_ordered {memory : Memory} {packets : List Nat} {packet queued : Nat} {sequence_number : UInt32}
    (member : queued ∈ ordered memory packets packet sequence_number) : queued = packet ∨ queued ∈ packets := by
  rw [ordered] at member
  rcases List.mem_append.1 member with later | behind
  · exact .inr (List.mem_reverse.1 (List.dropWhile_sublist _ |>.mem (List.mem_reverse.1 later)))
  rcases List.mem_cons.1 behind with here | earlier
  · exact .inl here
  · exact .inr (List.mem_reverse.1 (List.takeWhile_sublist _ |>.mem (List.mem_reverse.1 earlier)))

theorem created (packet : Nat) (data : Packet) : (heap.create packet data).memory packet = some data := if_pos rfl

theorem getLast_live (all : heap.Holds contents) {packet : Nat} (last : (contents id).getLast? = some packet) :
    ∃ data, heap.memory packet = some data :=
  Option.ne_none_iff_exists'.1 (all.live id packet (List.mem_of_getLast? last))

/-- The oldest packet is taken out of its queue. -/
theorem dequeued_holds (all : heap.Holds contents) {packet : Nat} (last : (contents id).getLast? = some packet) {memory : Memory}
    (same : ∀ queued, queued ≠ packet → memory queued = heap.memory queued) :
    (heap.put id memory (packet_dequeue (heap.queue id)).2).Holds (contents.put id (contents id).dropLast) ∧
      ∀ other, packet ∉ contents.put id (contents id).dropLast other := by
  obtain ⟨_,holds,frames⟩ := packet_dequeue_holds (all.holds id)
  have member : packet ∈ contents id := List.mem_of_getLast? last
  have absent : packet ∉ (contents id).dropLast := by
    have nodup := (all.holds id).chain.nodup
    rw [← List.dropLast_append_getLast? packet last] at nodup
    exact fun inside => (List.nodup_append.1 nodup).2.2 _ inside _ (List.mem_singleton_self _) rfl
  have others {other queued : Nat} (different : other ≠ id) (inside : queued ∈ contents other) : queued ≠ packet :=
    fun here => all.apart other id different queued inside (here ▸ member)
  constructor
  · refine put_holds all holds frames (fun other different queued inside => ?_) (fun queued inside => ?_) fun other different queued inside => ?_
    · exact ⟨all.apart other id different queued inside,
        fun there => all.apart other id different queued inside (List.dropLast_subset _ there)⟩
    · rw [same queued fun here => absent (here ▸ inside)]
      exact all.live id queued (List.dropLast_subset _ inside)
    · rw [same queued (others different inside)]
      exact all.live other queued inside
  · intro other inside
    rw [Contents.put] at inside
    split at inside
    · exact absent inside
    · rename_i different
      exact others different inside rfl

theorem dequeue_pair {queue : Queue} {packet : Option Nat} (taken : (packet_dequeue queue).1 = packet) :
    packet_dequeue queue = (packet,(packet_dequeue queue).2) := Prod.ext taken rfl

/-- Every action finds the packets it reads, ends, and does to the contents what it is to do. -/
theorem step_holds (all : heap.Holds contents) {action : Action} (possible : action.Possible heap) :
    ∃ after, heap.step action = some after ∧ after.Holds (action.contents heap contents) := by
  cases action with
  | enqueue id packet data =>
    obtain ⟨made,fresh⟩ := create_holds all data possible
    obtain ⟨queue,run,holds,frames⟩ := packet_enqueue_holds (made.holds id) (fresh id)
    refine ⟨_,by rw [Heap.step,run]; rfl,?_⟩
    exact queued_holds made fresh (by rw [created]; exact Option.some_ne_none _) holds frames fun _ => List.mem_cons.1
  | output_enqueue id packet data =>
    obtain ⟨made,fresh⟩ := create_holds all data possible
    obtain ⟨queue,run,holds,frames⟩ := packet_output_enqueue_holds (made.holds id) (fresh id) (created packet data)
    refine ⟨_,by rw [Heap.step,run]; rfl,?_⟩
    exact queued_holds made fresh (by rw [created]; exact Option.some_ne_none _) holds frames fun _ => mem_output
  | ordered_enqueue id packet data =>
    obtain ⟨made,fresh⟩ := create_holds all data possible
    obtain ⟨queue,run,holds,frames⟩ := packet_reliable_ordered_enqueue_holds (made.holds id) (fresh id) (made.live id) (created packet data)
    refine ⟨_,by rw [Heap.step,run]; rfl,?_⟩
    exact queued_holds made fresh (by rw [created]; exact Option.some_ne_none _) holds frames fun _ => mem_ordered
  | admission pending obuf =>
    have taken := (packet_dequeue_holds (all.holds pending)).1
    cases last : (contents pending).getLast? with
    | none =>
      refine ⟨heap,?_,by rw [Action.contents,last]; exact all⟩
      rw [last] at taken
      rw [Heap.step,dequeue_pair taken]
    | some packet =>
      obtain ⟨data,allocated⟩ := getLast_live all last
      obtain ⟨left,fresh⟩ := @dequeued_holds _ _ _ all _ last heap.memory fun _ _ => rfl
      obtain ⟨queue,run,holds,frames⟩ := packet_output_enqueue_holds (left.holds obuf) (fresh obuf) allocated
      rw [last] at taken
      have moved := queued_holds left fresh (by rw [Heap.put,allocated]; exact Option.some_ne_none _) holds frames fun _ => mem_output
      refine ⟨_,by rw [Heap.step,dequeue_pair taken]; exact congrArg (Option.bind · _) run,?_⟩
      simp only [Action.contents,last,allocated,Option.getD_some]
      exact moved
  | dequeue id =>
    have taken := (packet_dequeue_holds (all.holds id)).1
    cases last : (contents id).getLast? with
    | none =>
      have empty : contents id = [] := List.getLast?_eq_none_iff.1 last
      have same : contents.put id (contents id).dropLast = contents := by
        funext other
        rw [Contents.put]
        split
        · rename_i here
          rw [here,empty]
          rfl
        · rfl
      rw [last] at taken
      refine ⟨heap,by rw [Heap.step,dequeue_pair taken],?_⟩
      rw [Action.contents,same]
      exact all
    | some packet =>
      obtain ⟨data,allocated⟩ := getLast_live all last
      have free := @packet_free_eq heap.memory packet (by rw [allocated]; exact Option.some_ne_none _)
      rw [last] at taken
      refine ⟨_,by rw [Heap.step,dequeue_pair taken]; exact congrArg (Option.bind · _) free,?_⟩
      exact (dequeued_holds all last fun queued different => freed_of_notMem (by simpa using different)).1
  | drop id nbr sequence retries_only =>
    obtain ⟨queue,run,holds,frames⟩ := packet_neighbor_output_drop_holds (all.holds id) (all.live id) nbr sequence retries_only
    refine ⟨_,by rw [Heap.step,run]; rfl,?_⟩
    refine put_holds all holds frames (fun other different queued member => ?_) (fun queued member => ?_) fun other different queued member => ?_
    · exact ⟨all.apart other id different queued member,
        fun there => all.apart other id different queued member (List.mem_of_mem_filter there)⟩
    · have kept := (List.mem_filter.1 member).2
      rw [freed_of_notMem]
      · exact all.live id queued (List.mem_of_mem_filter member)
      · intro dropped
        have matched := (List.mem_filter.1 (List.mem_reverse.1 dropped)).2
        simp [matched] at kept
    · rw [freed_of_notMem]
      · exact all.live other queued member
      · exact fun dropped => all.apart other id different queued member (List.mem_of_mem_filter (List.mem_reverse.1 dropped))
  | clear id =>
    obtain ⟨queue,run,holds,frames⟩ := packet_queue_clear_holds (all.holds id) (all.live id)
    refine ⟨_,by rw [Heap.step,run]; rfl,?_⟩
    refine put_holds all holds frames (fun _ _ _ _ => ⟨List.not_mem_nil,List.not_mem_nil⟩) (fun _ member => nomatch member) ?_
    intro other different queued member
    rw [freed_of_notMem (all.apart other id different queued member)]
    exact all.live other queued member

theorem reached_holds (reached : Reached heap) : ∃ contents, heap.Holds contents := by
  induction reached with
  | empty => exact ⟨_,empty_holds⟩
  | step _ possible step ih =>
    obtain ⟨contents,all⟩ := ih
    obtain ⟨after,run,holds⟩ := step_holds all possible
    rw [step] at run
    cases run
    exact ⟨_,holds⟩

end Runs

/-- The links, the ends and the counts of all queues as one reads them. -/
structure Heap.Linked (heap : Heap) (contents : Contents) : Prop where
  forward : ∀ id steps, (contents id).length ≤ steps → trail heap.next steps (heap.head id) = contents id
  backward : ∀ id steps, (contents id).length ≤ steps → trail heap.previous steps (heap.tail id) = (contents id).reverse
  once : ∀ id, (contents id).Nodup
  count : ∀ id, heap.count id = (contents id).length
  head : ∀ id, heap.head id = none ↔ heap.count id = 0
  tail : ∀ id, heap.tail id = none ↔ heap.count id = 0

theorem Heap.Holds.linked {heap : Heap} {contents : Contents} (all : heap.Holds contents) : heap.Linked contents where
  forward id _ enough := (all.holds id).chain.forward.trail_eq enough
  backward id _ enough := (all.holds id).chain.backward.trail_eq (by rwa [List.length_reverse])
  once id := (all.holds id).chain.nodup
  count id := (all.holds id).count
  head id := by
    have head : heap.head id = (contents id).head? := (all.holds id).chain.head_eq
    have count : heap.count id = (contents id).length := (all.holds id).count
    rw [head,count,List.head?_eq_none_iff,List.length_eq_zero_iff]
  tail id := by
    have tail : heap.tail id = (contents id).getLast? := (all.holds id).chain.tail_eq
    have count : heap.count id = (contents id).length := (all.holds id).count
    rw [tail,count,List.getLast?_eq_none_iff,List.length_eq_zero_iff]

/-- Along every run the queues are lists that are linked in both directions, and every action does to them what it does to
    lists: a drop filters. -/
theorem queues_linked {heap : Heap} (reached : Reached heap) :
    ∃ contents, heap.Linked contents ∧ ∀ action : Action, action.Possible heap →
      ∃ after, heap.step action = some after ∧ after.Linked (action.contents heap contents) := by
  obtain ⟨contents,all⟩ := reached_holds reached
  refine ⟨contents,all.linked,fun action possible => ?_⟩
  obtain ⟨after,run,holds⟩ := step_holds all possible
  exact ⟨after,run,holds.linked⟩

theorem queues_linked_first_packets :
    ∃ after, (Heap.empty.step (.enqueue 0 7 {}) >>= fun heap => heap.step (.ordered_enqueue 0 8 { sequence_number := 1 })) = some after ∧
      ∃ contents, after.Linked contents := by
  obtain ⟨_,_,actions⟩ := queues_linked .empty
  obtain ⟨after,first,_⟩ := actions (.enqueue 0 7 {}) rfl
  have reached : Reached after := @Reached.step _ _ (.enqueue 0 7 {}) .empty rfl first
  obtain ⟨contents,_,actions⟩ := queues_linked reached
  have unused : after.memory 8 = none := by
    cases first
    rfl
  obtain ⟨last,second,linked⟩ := actions (.ordered_enqueue 0 8 { sequence_number := 1 }) unused
  exact ⟨last,by rw [first]; exact second,_,linked⟩

end Eigrp.PacketQueue
