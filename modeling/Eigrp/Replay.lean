import Eigrp.Auth
import Eigrp.Peering
import Eigrp.Lib.Serial

/-!
# Sequence numbers of authenticated packets

The process thread authenticates what comes in from one source and queues it, and the address family takes it off the
queue. Both advance the number of the last packet in the neighbor: the one before the packet is queued, the other for a
Hello that was queued when there was no neighbor yet. A neighbor that goes down keeps its place but not its number. The queue
is never full here: an authenticated packet that `eigrp_packet_input_enqueue` has no room for is dropped.
-/

namespace Eigrp.Replay
open Eigrp.Lib
open Eigrp.Auth (sequence_newer)
open Eigrp.Peering (LimitState)

/-- What a packet of the source says: the number of its authentication TLV, its opcode and its acknowledgement. -/
structure Datagram where
  sequence : UInt32
  hello : Bool
  ack : Bool := false
deriving DecidableEq, Repr

/-- `eigrp_packet_input_t` once it is authenticated, with its `ingress_neighbor_generation`. -/
structure Input extends Datagram where
  generation : UInt64
deriving DecidableEq, Repr

/-- What `eigrp_packet_ingress_authenticate` leaves in the queue. -/
def Input.admitted (input : Input) : Prop := input.sequence ≠ 0 ∧ (input.generation = 0 → input.hello = true)

/-- `eigrp_nbr_t`; `processed` has the numbers of its packets that reached RTP, Hello or DUAL processing. -/
structure Neighbor where
  generation : UInt64
  crypt_seqnum : UInt32 := 0
  state : NbrState := .down
  limit_state : LimitState := .none
  limit_cleanup_pending : Bool := false
  af_suspended : Bool := false
  processed : List UInt32 := []
deriving DecidableEq, Repr

/-- The neighbor of the source on its interface, and the packets of the source in `packetQ`. `recording` is the number of a
    Hello that has published the neighbor and has not been stored in it yet. -/
structure Ingress where
  nbr : Option Neighbor := none
  recording : Option UInt32 := none
  af_state : Bool := false
  next_generation : UInt64 := 0
  queue : List Input := []
deriving DecidableEq, Repr

/-- `++next_neighbor_generation`, past zero. -/
def generation_next (generation : UInt64) : UInt64 := if generation + 1 = 0 then 1 else generation + 1

namespace Neighbor

/-- `eigrp_nbr_is_eligible`. -/
def is_eligible (af_state : Bool) (nbr : Neighbor) : Bool :=
  nbr.limit_state == .none && !nbr.limit_cleanup_pending && !nbr.af_suspended && !af_state

/-- `eigrp_nbr_state_update_reason`. -/
def state_update (state : NbrState) (nbr : Neighbor) : Neighbor :=
  if (nbr.limit_state ≠ .none ∨ nbr.af_suspended) ∧ state ≠ .down then nbr
  else if state = .down then { nbr with state := state, crypt_seqnum := 0 }
  else { nbr with state := state }

/-- `eigrp_nbr_down`. -/
def down (nbr : Neighbor) : Neighbor := { nbr with limit_cleanup_pending := false }.state_update .down

/-- `eigrp_nbr_limit_mark_down`. -/
def limit_mark_down (af_state : Bool) (nbr : Neighbor) : Neighbor :=
  if nbr.is_eligible af_state then { nbr with limit_cleanup_pending := true, state := .down } else nbr

/-- A packet reaches processing, unless a check behind that of its number refuses it. -/
def process (served : Bool) (sequence : UInt32) (nbr : Neighbor) : Neighbor :=
  if served then { nbr with processed := nbr.processed ++ [sequence] } else nbr

end Neighbor

inductive Event where
  | receive (datagram : Datagram) (admitted verified : Bool)
  | take (valid served created : Bool)
  | record
  | state_update (state : NbrState)
  | limit_mark
  | limit_state (state : LimitState)
  | limit_release
  | af_exceeded
  | af_suspend
  | af_release
  | delete
deriving DecidableEq, Repr

namespace Ingress

/-- `eigrp_packet_ingress_authenticate`; whether there is room for a new source and whether the digest is right are given. -/
def ingress_authenticate (datagram : Datagram) (admitted verified : Bool) (s : Ingress) : Ingress :=
  match s.nbr with
  | some nbr =>
    if nbr.is_eligible s.af_state ∧ verified ∧ sequence_newer datagram.sequence nbr.crypt_seqnum then
      { s with
        nbr := some { nbr with crypt_seqnum := datagram.sequence }
        queue := s.queue ++ [{ datagram with generation := nbr.generation }] }
    else s
  | none =>
    if datagram.hello ∧ ¬ datagram.ack ∧ admitted ∧ verified ∧ sequence_newer datagram.sequence 0 then
      { s with queue := s.queue ++ [{ datagram with generation := 0 }] }
    else s

/-- `eigrp_packet_input_process` for an input off the queue. That the header is valid, that the packet passes the checks
    behind that of its number and that a neighbor can be created for it are given. -/
def input_process (input : Input) (valid served created : Bool) (s : Ingress) : Ingress :=
  if ¬ valid ∨ s.af_state ∧ input.hello then s
  else
    match s.nbr with
    | some nbr =>
      if ¬ nbr.is_eligible s.af_state ∨ input.generation ≠ 0 ∧ nbr.generation ≠ input.generation then s
      else if input.hello ∧ input.generation = 0 then
        -- `eigrp_auth_discovery_sequence_accept`
        if sequence_newer input.sequence nbr.crypt_seqnum then
          { s with nbr := some ({ nbr with crypt_seqnum := input.sequence }.process served input.sequence) }
        else s
      else { s with nbr := some (nbr.process served input.sequence) }
    | none =>
      if input.generation = 0 ∧ input.hello ∧ ¬ input.ack ∧ served ∧ created then
        -- `eigrp_nbr_create` publishes the neighbor, and `eigrp_hello_receive` goes on with its number
        { s with
          nbr := some { generation := generation_next s.next_generation, processed := [input.sequence] }
          recording := some input.sequence
          next_generation := generation_next s.next_generation }
      else s

/-- A change of the neighbor that gives it a new generation. -/
def renew (change : Neighbor → Neighbor) (nbr : Neighbor) (s : Ingress) : Ingress :=
  { s with
    nbr := some (change { nbr with generation := generation_next s.next_generation })
    next_generation := generation_next s.next_generation }

/-- What the thread of the address family does with its neighbor. -/
def update (event : Event) (nbr : Neighbor) (s : Ingress) : Ingress :=
  match event with
  | .state_update state => { s with nbr := some (nbr.state_update state) }
  | .limit_mark => { s with nbr := some (nbr.limit_mark_down s.af_state) }
  | .limit_state state =>
    if state = .none ∨ nbr.limit_state = .locked ∧ state = .suspended then s
    else if nbr.limit_state = .none then s.renew (fun nbr => { nbr with limit_state := state }.down) nbr
    else { s with nbr := some { nbr with limit_state := state } }
  | .limit_release => if nbr.limit_state = .suspended then s.renew (fun nbr => { nbr with limit_state := .none }) nbr else s
  | .af_suspend =>
    if nbr.af_suspended then s
    else
      s.renew (fun nbr => if nbr.limit_state = .none then { nbr with af_suspended := true }.down
        else { nbr with af_suspended := true }) nbr
  | .af_release => if nbr.af_suspended then s.renew (fun nbr => { nbr with af_suspended := false }) nbr else s
  | .delete => { s with nbr := none }
  | _ => s

def update_nbr (event : Event) (s : Ingress) : Ingress :=
  match s.nbr with
  | some nbr => s.update event nbr
  | none => s

/-- A step of the thread of the address family. -/
def act (s : Ingress) : Event → Ingress
  | .take valid served created =>
    match s.queue with
    | [] => s
    | input :: rest => { s with queue := rest }.input_process input valid served created
  | .af_exceeded => { s with af_state := true }
  | .af_release => { s with af_state := false }.update_nbr .af_release
  | event => s.update_nbr event

/-- The end of `eigrp_hello_receive` for a Hello that has published the neighbor. -/
def record (s : Ingress) : Ingress :=
  match s.recording, s.nbr with
  | some sequence, some nbr => { s with nbr := some { nbr with crypt_seqnum := sequence }, recording := none }
  | _, _ => s

/-- A step of either thread; that of the address family has the Hello to finish first. -/
def step (s : Ingress) : Event → Ingress
  | .receive datagram admitted verified => s.ingress_authenticate datagram admitted verified
  | .record => s.record
  | event => if s.recording.isSome then s else s.act event

def run (start : Ingress) (events : List Event) : Ingress := events.foldl step start

/-! ## What is asked of a step -/

/-- No packet of the neighbor has been authenticated by its generation and waits in the queue. -/
def none_queued (generation : UInt64) (queue : List Input) : Prop := ∀ input ∈ queue, input.generation ≠ generation

/-- An authenticated packet is not compared with the zero of a neighbor that is there; a Hello that was queued without a
    neighbor does not overtake packets that were queued with it; and no generation comes round while packets of it wait. -/
def sound (s : Ingress) : Event → Prop
  | .receive _ _ verified => verified = true → ∀ nbr ∈ s.nbr, nbr.crypt_seqnum ≠ 0
  | .take _ _ _ =>
    (∀ nbr ∈ s.nbr, ∀ input ∈ s.queue.head?, input.generation = 0 →
      nbr.crypt_seqnum ≠ 0 ∧ (sequence_newer input.sequence nbr.crypt_seqnum → none_queued nbr.generation s.queue)) ∧
    (s.nbr = none → none_queued (generation_next s.next_generation) s.queue)
  | .limit_state _ | .limit_release | .af_suspend | .af_release => none_queued (generation_next s.next_generation) s.queue
  | _ => True

/-- All steps of a run are. -/
def Sound : Ingress → List Event → Prop
  | _, [] => True
  | s, event :: events => s.sound event ∧ Sound (s.step event) events

/-- Before the neighbor is created. What waits are Hellos and packets of earlier neighbors of the source. -/
structure Idle (s : Ingress) : Prop where
  nbr : s.nbr = none
  recording : s.recording = none
  queue : ∀ input ∈ s.queue, input.admitted

end Ingress

/-- The numbers that can be met lie in one half of the circle. -/
structure Span (now : UInt32) (start : Ingress) (events : List Event) : Prop where
  queued : ∀ input ∈ start.queue, Recent now input.sequence
  received : ∀ datagram admitted verified, .receive datagram admitted verified ∈ events → Recent now datagram.sequence

/-! ## What a step keeps -/

theorem generation_next_ne_zero (generation : UInt64) : generation_next generation ≠ 0 := by
  unfold generation_next
  split
  · decide
  · assumption

theorem sequence_newer_nonzero {received stored : UInt32} (newer : sequence_newer received stored = true) : received ≠ 0 := by
  rintro rfl
  simp [sequence_newer] at newer

/-- Among numbers of one half of the circle a newer one is not as old. -/
theorem sequence_newer_iff {now received stored : UInt32} (recent : Recent now received) (other : Recent now stored)
    (nonzero : stored ≠ 0) :
    sequence_newer received stored = true ↔ received ≠ 0 ∧ age now received < age now stored := by
  rw [← recent_age_lt other recent]
  unfold sequence_newer Recent age
  by_cases zero : received = 0
  · simp [zero]
  · have positive : received - stored ≠ 0 ↔ 0 < (received - stored).toNat := by
      rw [Nat.pos_iff_ne_zero,ne_eq,ne_eq,← UInt32.toNat_inj]
      rfl
    have half : received - stored < 0x80000000 ↔ (received - stored).toNat < 0x80000000 := by
      rw [UInt32.lt_iff_toNat_lt]
      rfl
    simp only [zero,nonzero,if_false,Bool.and_eq_true,bne_iff_ne,decide_eq_true_eq,positive,half,not_false_eq_true,
      true_and,ne_eq]

section Numbers
open Ingress (none_queued)
variable {now : UInt32} {nbr changed : Neighbor} {queue rest : List Input}

/-- The numbers that were processed, and those of the neighbor's packets that wait. -/
def numbers (nbr : Neighbor) (queue : List Input) : List UInt32 :=
  nbr.processed ++ (queue.filter (·.generation = nbr.generation)).map (·.sequence)

/-- They get newer from one to the next, and none is newer than the number of the neighbor. -/
structure Ordered (now : UInt32) (nbr : Neighbor) (queue : List Input) : Prop where
  generation : nbr.generation ≠ 0
  recent : ∀ number ∈ numbers nbr queue, Recent now number ∧ number ≠ 0
  sorted : (numbers nbr queue).Pairwise fun earlier later => age now later < age now earlier
  newest : nbr.crypt_seqnum ≠ 0 →
    Recent now nbr.crypt_seqnum ∧ ∀ number ∈ numbers nbr queue, age now nbr.crypt_seqnum ≤ age now number

theorem numbers_none_queued (none : none_queued nbr.generation queue) : numbers nbr queue = nbr.processed := by
  have empty : queue.filter (·.generation = nbr.generation) = [] := by
    refine List.filter_eq_nil_iff.2 fun input member => ?_
    simpa using none input member
  rw [numbers,empty,List.map_nil,List.append_nil]

/-- Fewer numbers, and the number of the neighbor or none. -/
theorem Ordered.shrink (ordered : Ordered now nbr queue) (generation : changed.generation ≠ 0)
    (fewer : (numbers changed rest).Sublist (numbers nbr queue))
    (number : changed.crypt_seqnum = 0 ∨ changed.crypt_seqnum = nbr.crypt_seqnum) : Ordered now changed rest := by
  refine ⟨generation,fun number member => ordered.recent number (fewer.subset member),ordered.sorted.sublist fewer,?_⟩
  intro nonzero
  rcases number with zero | same
  · exact absurd zero nonzero
  · rw [same] at nonzero ⊢
    obtain ⟨recent,least⟩ := ordered.newest nonzero
    exact ⟨recent,fun number member => least number (fewer.subset member)⟩

/-- One more number, newer than that of the neighbor. -/
theorem Ordered.push (ordered : Ordered now nbr queue) {sequence : UInt32} (generation : changed.generation ≠ 0)
    (more : numbers changed rest = numbers nbr queue ++ [sequence]) (number : changed.crypt_seqnum = sequence)
    (recent : Recent now sequence) (nonzero : nbr.crypt_seqnum ≠ 0)
    (newer : sequence_newer sequence nbr.crypt_seqnum = true) : Ordered now changed rest := by
  obtain ⟨stored,least⟩ := ordered.newest nonzero
  obtain ⟨positive,younger⟩ := (sequence_newer_iff recent stored nonzero).1 newer
  refine ⟨generation,?_,?_,?_⟩
  · rw [more]
    intro number member
    rcases List.mem_append.1 member with old | new
    · exact ordered.recent number old
    · obtain rfl := List.mem_singleton.1 new
      exact ⟨recent,positive⟩
  · rw [more]
    refine List.pairwise_append.2 ⟨ordered.sorted,List.pairwise_singleton _ _,?_⟩
    intro earlier old later new
    obtain rfl := List.mem_singleton.1 new
    exact younger.trans_le (least earlier old)
  · intro _
    rw [number,more]
    refine ⟨recent,fun other member => ?_⟩
    rcases List.mem_append.1 member with old | new
    · exact younger.le.trans (least other old)
    · obtain rfl := List.mem_singleton.1 new
      exact le_rfl

/-- A change that leaves the generation and the processed packets. -/
structure Neighbor.Same (nbr changed : Neighbor) : Prop where
  generation : changed.generation = nbr.generation
  processed : changed.processed = nbr.processed
  number : changed.crypt_seqnum = 0 ∨ changed.crypt_seqnum = nbr.crypt_seqnum

theorem Neighbor.Same.ordered (same : nbr.Same changed) (ordered : Ordered now nbr queue) : Ordered now changed queue := by
  refine ordered.shrink ?_ ?_ same.number
  · rw [same.generation]
    exact ordered.generation
  · rw [numbers,numbers,same.generation,same.processed]

theorem Neighbor.state_update_same (state : NbrState) (nbr : Neighbor) : nbr.Same (nbr.state_update state) := by
  unfold Neighbor.state_update
  split
  · exact ⟨rfl,rfl,.inr rfl⟩
  · split
    · exact ⟨rfl,rfl,.inl rfl⟩
    · exact ⟨rfl,rfl,.inr rfl⟩

theorem Neighbor.down_same (nbr : Neighbor) : nbr.Same nbr.down := by
  obtain ⟨generation,processed,number⟩ := Neighbor.state_update_same .down { nbr with limit_cleanup_pending := false }
  exact ⟨generation,processed,number⟩

/-- With a new generation nothing waits for the neighbor. -/
theorem ordered_renewed {generation : UInt64} (ordered : Ordered now nbr queue) (fresh : generation ≠ 0)
    (none : none_queued generation queue)
    (same : Neighbor.Same { nbr with generation := generation } changed) : Ordered now changed queue := by
  have renewed : Ordered now { nbr with generation := generation } queue := by
    refine ordered.shrink fresh ?_ (.inr rfl)
    rw [@numbers_none_queued { nbr with generation := generation } queue none]
    exact List.sublist_append_left _ _
  exact same.ordered renewed

end Numbers

/-- What holds in every state of a run whose steps are sound. -/
structure Inv (now : UInt32) (s : Ingress) : Prop where
  queue : ∀ input ∈ s.queue, input.admitted ∧ Recent now input.sequence
  ordered : ∀ nbr ∈ s.nbr, Ordered now nbr s.queue
  recording : ∀ sequence ∈ s.recording, ∃ nbr, s.nbr = some nbr ∧ nbr.processed = [sequence] ∧ nbr.crypt_seqnum = 0 ∧
    Ingress.none_queued nbr.generation s.queue

section Steps
variable {now : UInt32} {s : Ingress}
open Ingress (none_queued)

theorem Inv.mk_free (queue : ∀ input ∈ s.queue, input.admitted ∧ Recent now input.sequence) (free : s.recording = none)
    (ordered : ∀ nbr ∈ s.nbr, Ordered now nbr s.queue) : Inv now s := by
  refine ⟨queue,ordered,?_⟩
  intro sequence recorded
  rw [free] at recorded
  cases recorded

theorem numbers_append (nbr : Neighbor) (queue : List Input) (input : Input) :
    numbers nbr (queue ++ [input]) =
      numbers nbr queue ++ if input.generation = nbr.generation then [input.sequence] else [] := by
  unfold numbers
  by_cases own : input.generation = nbr.generation <;> simp [List.filter_append,own]

theorem numbers_cons_sublist (nbr : Neighbor) (input : Input) (rest : List Input) :
    (numbers nbr rest).Sublist (numbers nbr (input :: rest)) :=
  List.Sublist.append_left (((List.sublist_cons_self input rest).filter _).map _) _

/-- A packet that comes in. -/
theorem inv_receive (inv : Inv now s) (datagram : Datagram) (admitted verified : Bool) (recent : Recent now datagram.sequence)
    (sound : s.sound (.receive datagram admitted verified)) : Inv now (s.ingress_authenticate datagram admitted verified) := by
  have queued (generation : UInt64) (positive : datagram.sequence ≠ 0) (hello : generation = 0 → datagram.hello = true) :
      ∀ input ∈ s.queue ++ [{ datagram with generation := generation }], Input.admitted input ∧ Recent now input.sequence := by
    intro input member
    rcases List.mem_append.1 member with old | new
    · exact inv.queue input old
    · obtain rfl := List.mem_singleton.1 new
      exact ⟨⟨positive,hello⟩,recent⟩
  unfold Ingress.ingress_authenticate
  cases found : s.nbr with
  | some nbr =>
    dsimp only
    split
    · next taken =>
      obtain ⟨_,digest,newer⟩ := taken
      have nonzero := sound digest nbr found
      have ordered := inv.ordered nbr found
      refine Inv.mk_free (queued nbr.generation (sequence_newer_nonzero newer) (fun zero => absurd zero ordered.generation)) ?_ ?_
      · cases recorded : s.recording with
        | none => rfl
        | some sequence =>
          obtain ⟨other,there,_,zero,_⟩ := inv.recording sequence recorded
          rw [found] at there
          obtain rfl := Option.some.inj there
          exact absurd zero nonzero
      · intro changed same
        obtain rfl := Option.some.inj same
        refine ordered.push ordered.generation ?_ rfl recent nonzero newer
        rw [numbers_append]
        simp [numbers]
    · exact inv
  | none =>
    dsimp only
    split
    · next taken =>
      obtain ⟨hello,_,_,_,newer⟩ := taken
      refine Inv.mk_free (queued 0 (sequence_newer_nonzero newer) (fun _ => hello)) ?_ ?_
      · cases recorded : s.recording with
        | none => rfl
        | some sequence =>
          obtain ⟨other,there,_⟩ := inv.recording sequence recorded
          rw [found] at there
          cases there
      · intro nbr there
        cases there
    · exact inv

/-- A packet that is taken off the queue. -/
theorem inv_take {input : Input} {rest : List Input} (inv : Inv now s) (free : s.recording = none)
    (front : s.queue = input :: rest) (valid served created : Bool) (sound : s.sound (.take valid served created)) :
    Inv now ({ s with queue := rest }.input_process input valid served created) := by
  obtain ⟨discovery,creation⟩ := sound
  obtain ⟨⟨positive,hello⟩,recent⟩ := inv.queue input (by rw [front]; exact List.mem_cons_self)
  have others : ∀ other ∈ rest, other.admitted ∧ Recent now other.sequence := by
    intro other member
    exact inv.queue other (by rw [front]; exact List.mem_cons_of_mem _ member)
  have dropped : Inv now { s with queue := rest } := by
    refine Inv.mk_free others free fun nbr there => ?_
    have ordered := inv.ordered nbr there
    rw [front] at ordered
    exact ordered.shrink ordered.generation (numbers_cons_sublist nbr input rest) (.inr rfl)
  unfold Ingress.input_process
  split
  · exact dropped
  · cases found : s.nbr with
    | some nbr =>
      have ordered := inv.ordered nbr found
      rw [found] at dropped
      dsimp only
      split
      · exact dropped
      · next matching =>
        obtain ⟨_,matching⟩ := not_or.1 matching
        split
        · next discovered =>
          obtain ⟨nonzero,alone⟩ := discovery nbr found input (by rw [front]; rfl) discovered.2
          split
          · next newer =>
            refine Inv.mk_free others free ?_
            intro changed same
            obtain rfl := Option.some.inj same
            have none := alone newer
            have none_rest : none_queued nbr.generation rest := by
              intro other member
              exact none other (by rw [front]; exact List.mem_cons_of_mem _ member)
            have before : numbers nbr s.queue = nbr.processed := numbers_none_queued none
            cases served with
            | true =>
              refine ordered.push ordered.generation ?_ rfl recent nonzero newer
              rw [before]
              exact numbers_none_queued none_rest
            | false =>
              obtain ⟨stored,least⟩ := ordered.newest nonzero
              have after : numbers (Neighbor.process false input.sequence { nbr with crypt_seqnum := input.sequence }) rest =
                nbr.processed := numbers_none_queued none_rest
              obtain ⟨_,younger⟩ := (sequence_newer_iff recent stored nonzero).1 newer
              refine ⟨ordered.generation,?_,?_,?_⟩
              · rw [after,← before]
                exact ordered.recent
              · rw [after,← before]
                exact ordered.sorted
              · intro _
                rw [after,← before]
                exact ⟨recent,fun number member => younger.le.trans (least number member)⟩
          · exact dropped
        · next other =>
          have own : input.generation = nbr.generation := by
            by_contra different
            refine other ⟨hello ?_,?_⟩
            · by_contra nonzero
              exact matching ⟨nonzero,fun same => different same.symm⟩
            · by_contra nonzero
              exact matching ⟨nonzero,fun same => different same.symm⟩
          refine Inv.mk_free others free ?_
          intro changed same
          obtain rfl := Option.some.inj same
          have whole : numbers nbr s.queue = nbr.processed ++ input.sequence :: (numbers { nbr with processed := [] } rest) := by
            rw [front]
            simp [numbers,own]
          cases served with
          | true =>
            refine ordered.shrink ordered.generation ?_ (.inr rfl)
            rw [whole]
            simp [numbers,Neighbor.process]
          | false =>
            refine ordered.shrink ordered.generation ?_ (.inr rfl)
            rw [front]
            exact numbers_cons_sublist nbr input rest
    | none =>
      rw [found] at dropped
      dsimp only
      split
      · have fresh := creation found
        have alone : none_queued (generation_next s.next_generation) rest := by
          intro other member
          exact fresh other (by rw [front]; exact List.mem_cons_of_mem _ member)
        have first : numbers { generation := generation_next s.next_generation, processed := [input.sequence] } rest =
          [input.sequence] := numbers_none_queued alone
        refine ⟨others,?_,?_⟩
        · intro nbr same
          obtain rfl := Option.some.inj same
          refine ⟨generation_next_ne_zero _,?_,?_,fun zero => absurd rfl zero⟩
          · rw [first]
            intro number member
            obtain rfl := List.mem_singleton.1 member
            exact ⟨recent,positive⟩
          · rw [first]
            exact List.pairwise_singleton _ _
        · intro sequence same
          obtain rfl := Option.some.inj same
          exact ⟨_,rfl,rfl,rfl,alone⟩
      · exact dropped

/-- What the address family does with the neighbor between packets. -/
theorem inv_update {nbr : Neighbor} (inv : Inv now s) (free : s.recording = none) (found : s.nbr = some nbr) (event : Event)
    (sound : s.sound event) : Inv now (s.update event nbr) := by
  have ordered := inv.ordered nbr found
  have kept {changed : Neighbor} (same : nbr.Same changed) : Inv now { s with nbr := some changed } := by
    refine Inv.mk_free inv.queue free fun other there => ?_
    obtain rfl := Option.some.inj there
    exact same.ordered ordered
  have renewed {change : Neighbor → Neighbor} (none : none_queued (generation_next s.next_generation) s.queue)
      (same : ∀ nbr : Neighbor, nbr.Same (change nbr)) : Inv now (s.renew change nbr) := by
    refine Inv.mk_free inv.queue free fun other there => ?_
    obtain rfl := Option.some.inj there
    exact ordered_renewed ordered (generation_next_ne_zero _) none (same _)
  have penalized (nbr : Neighbor) (state : LimitState) : nbr.Same { nbr with limit_state := state }.down := by
    obtain ⟨generation,processed,number⟩ := Neighbor.down_same { nbr with limit_state := state }
    exact ⟨generation,processed,number⟩
  cases event with
  | state_update state => exact kept (Neighbor.state_update_same state nbr)
  | limit_mark =>
    refine kept ?_
    unfold Neighbor.limit_mark_down
    split
    · exact ⟨rfl,rfl,.inr rfl⟩
    · exact ⟨rfl,rfl,.inr rfl⟩
  | limit_state state =>
    unfold Ingress.update
    dsimp only
    split
    · exact inv
    · split
      · exact renewed sound fun nbr => penalized nbr state
      · exact kept ⟨rfl,rfl,.inr rfl⟩
  | limit_release =>
    unfold Ingress.update
    dsimp only
    split
    · exact renewed sound fun nbr => ⟨rfl,rfl,.inr rfl⟩
    · exact inv
  | af_suspend =>
    unfold Ingress.update
    dsimp only
    split
    · exact inv
    · refine renewed sound fun nbr => ?_
      split
      · obtain ⟨generation,processed,number⟩ := Neighbor.down_same { nbr with af_suspended := true }
        exact ⟨generation,processed,number⟩
      · exact ⟨rfl,rfl,.inr rfl⟩
  | af_release =>
    unfold Ingress.update
    dsimp only
    split
    · exact renewed sound fun nbr => ⟨rfl,rfl,.inr rfl⟩
    · exact inv
  | delete =>
    refine Inv.mk_free inv.queue free fun other there => ?_
    cases there
  | receive datagram admitted verified => exact inv
  | take valid served created => exact inv
  | record => exact inv
  | af_exceeded => exact inv

theorem inv_update_nbr (inv : Inv now s) (free : s.recording = none) (event : Event) (sound : s.sound event) :
    Inv now (s.update_nbr event) := by
  unfold Ingress.update_nbr
  cases found : s.nbr with
  | some nbr => exact inv_update inv free found event sound
  | none => exact inv

theorem inv_act (inv : Inv now s) (free : s.recording = none) (event : Event) (sound : s.sound event) :
    Inv now (s.act event) := by
  cases event with
  | take valid served created =>
    unfold Ingress.act
    cases front : s.queue with
    | nil => exact inv
    | cons input rest => exact inv_take inv free front valid served created sound
  | af_exceeded => exact Inv.mk_free inv.queue free inv.ordered
  | af_release =>
    have cleared : Inv now { s with af_state := false } := Inv.mk_free inv.queue free inv.ordered
    exact inv_update_nbr cleared free .af_release sound
  | state_update state => exact inv_update_nbr inv free (.state_update state) sound
  | limit_mark => exact inv_update_nbr inv free .limit_mark sound
  | limit_state state => exact inv_update_nbr inv free (.limit_state state) sound
  | limit_release => exact inv_update_nbr inv free .limit_release sound
  | af_suspend => exact inv_update_nbr inv free .af_suspend sound
  | delete => exact inv_update_nbr inv free .delete sound
  | receive datagram admitted verified => exact inv_update_nbr inv free (.receive datagram admitted verified) sound
  | record => exact inv_update_nbr inv free .record sound

theorem inv_record (inv : Inv now s) : Inv now s.record := by
  unfold Ingress.record
  cases recorded : s.recording with
  | none => exact inv
  | some sequence =>
    obtain ⟨nbr,found,processed,_,none⟩ := inv.recording sequence recorded
    rw [found]
    have ordered := inv.ordered nbr found
    have all : numbers nbr s.queue = [sequence] := (numbers_none_queued none).trans processed
    refine Inv.mk_free inv.queue rfl fun changed there => ?_
    obtain rfl := Option.some.inj there
    refine ⟨ordered.generation,ordered.recent,ordered.sorted,fun _ => ?_⟩
    have same : numbers { nbr with crypt_seqnum := sequence } s.queue = [sequence] := all
    have first := ordered.recent sequence (by rw [all]; exact List.mem_singleton_self _)
    rw [same]
    refine ⟨first.1,fun number member => ?_⟩
    obtain rfl := List.mem_singleton.1 member
    exact le_rfl

theorem inv_step (inv : Inv now s) (event : Event)
    (recent : ∀ datagram admitted verified, event = .receive datagram admitted verified → Recent now datagram.sequence)
    (sound : s.sound event) : Inv now (s.step event) := by
  have acts : Inv now (if s.recording.isSome then s else s.act event) := by
    cases recorded : s.recording with
    | none => exact inv_act inv recorded event sound
    | some sequence => exact inv
  cases event with
  | receive datagram admitted verified => exact inv_receive inv datagram admitted verified (recent _ _ _ rfl) sound
  | record => exact inv_record inv
  | take | af_exceeded | af_release | state_update | limit_mark | limit_state | limit_release | af_suspend | delete => exact acts

end Steps

/-! ## Whole runs -/

theorem inv_run {now : UInt32} {events : List Event} {start : Ingress} (inv : Inv now start)
    (received : ∀ datagram admitted verified, .receive datagram admitted verified ∈ events → Recent now datagram.sequence)
    (sound : start.Sound events) : Inv now (start.run events) := by
  induction events generalizing start with
  | nil => exact inv
  | cons event events ih =>
    obtain ⟨first,rest⟩ := sound
    refine ih (inv_step inv event ?_ first) ?_ rest
    · rintro datagram admitted verified rfl
      exact received datagram admitted verified List.mem_cons_self
    · exact fun datagram admitted verified member => received datagram admitted verified (List.mem_cons_of_mem _ member)

theorem Ingress.Sound.prefix {start : Ingress} {earlier later : List Event} (sound : start.Sound (earlier ++ later)) :
    start.Sound earlier := by
  induction earlier generalizing start with
  | nil => trivial
  | cons event earlier ih => exact ⟨sound.1,ih sound.2⟩

/-- Each number that was processed is newer than all before it. -/
def Neighbor.Fresh (nbr : Neighbor) : Prop :=
  nbr.processed.Pairwise fun earlier later => sequence_newer later earlier = true

theorem Neighbor.Fresh.nodup {nbr : Neighbor} (fresh : nbr.Fresh) : nbr.processed.Nodup := by
  refine fresh.imp fun {earlier later} newer same => ?_
  subst same
  simp [sequence_newer] at newer

theorem Ordered.fresh {now : UInt32} {nbr : Neighbor} {queue : List Input} (ordered : Ordered now nbr queue) : nbr.Fresh := by
  have processed : nbr.processed.Sublist (numbers nbr queue) := List.sublist_append_left _ _
  refine (ordered.sorted.sublist processed).imp_of_mem fun {earlier later} first second younger => ?_
  obtain ⟨recent,positive⟩ := ordered.recent later (processed.subset second)
  obtain ⟨other,nonzero⟩ := ordered.recent earlier (processed.subset first)
  exact (sequence_newer_iff recent other nonzero).2 ⟨positive,younger⟩

/-- In a run whose steps are sound no neighbor processes a packet twice or out of order. -/
theorem processed_fresh {now : UInt32} {start : Ingress} {events : List Event} (idle : start.Idle)
    (span : Span now start events) (sound : start.Sound events) {earlier later : List Event} (split : events = earlier ++ later)
    {nbr : Neighbor} (there : (start.run earlier).nbr = some nbr) : nbr.Fresh ∧ nbr.processed.Nodup := by
  subst split
  have initial : Inv now start := by
    refine Inv.mk_free (fun input member => ⟨idle.queue input member,span.queued input member⟩) idle.recording ?_
    intro nbr there
    rw [idle.nbr] at there
    cases there
  have inv := inv_run initial
    (fun datagram admitted verified member => span.received datagram admitted verified (List.mem_append_left _ member)) sound.prefix
  have fresh := (inv.ordered nbr there).fresh
  exact ⟨fresh,fresh.nodup⟩

/-- A Hello makes the neighbor, and an UPDATE follows it. -/
def discovery : List Event :=
  [.receive { sequence := 5, hello := true } true true, .take true true true, .record,
    .receive { sequence := 6, hello := false } true true, .take true true true]

def discovered : Neighbor := { generation := 1, crypt_seqnum := 6, processed := [5, 6] }

theorem discovered_fresh : discovered.Fresh ∧ discovered.processed.Nodup := by
  refine @processed_fresh 7 {} discovery ⟨rfl,rfl,by simp⟩ ⟨by simp,?_⟩ ?_ discovery [] (by simp) discovered rfl
  · intro datagram admitted verified member
    simp only [discovery,List.mem_cons,Event.receive.injEq,reduceCtorEq,false_or,List.not_mem_nil,or_false] at member
    rcases member with ⟨rfl,_⟩ | ⟨rfl,_⟩ <;> unfold Recent age <;> decide
  · refine ⟨?_,⟨?_,?_⟩,trivial,?_,⟨?_,?_⟩,trivial⟩
    · rintro _ nbr ⟨⟩
    · rintro nbr ⟨⟩
    · unfold Ingress.none_queued
      decide
    · rintro _ nbr ⟨⟩
      decide
    · rintro nbr ⟨⟩ input ⟨⟩ zero
      exact absurd zero (by decide)
    · unfold Ingress.none_queued
      decide

/-- The peer restarts: its INIT takes the neighbor down and keeps it, and the UPDATE is accepted once more. -/
theorem update_replayed : ((Ingress.run {} (discovery ++
    [.state_update .up, .state_update .down, .state_update .pending, .receive { sequence := 6, hello := false } true true,
      .take true true true])).nbr.map Neighbor.processed) = some [5, 6, 6] ∧
    ¬ ∀ nbr ∈ (Ingress.run {} (discovery ++
    [.state_update .up, .state_update .down, .state_update .pending, .receive { sequence := 6, hello := false } true true,
      .take true true true])).nbr, nbr.processed.Nodup := by
  decide

end Eigrp.Replay
