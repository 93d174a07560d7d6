import Eigrp.Progress

/-!
# Fan-out of reliable multicasts

A multicast waits in `multicast_pending` until it is admitted, and the neighbors come and go in the meantime. Who receives a
copy is decided by epochs; `Ledger` says beside the transport who should: those that were UP when the multicast was handed
off and have been ever since.
-/

namespace Eigrp.Rtp

/-- The neighbor is UP on the interface. -/
def Transport.up (ei : Transport) (id : Nat) : Bool := ei.nbrs.any fun nbr => nbr.id == id && nbr.state == .up

/-- The transport with the neighbors that each pending multicast is owed to. -/
structure Ledger where
  ei : Transport := {}
  owed : List (List Nat) := []

/-- A multicast is owed to the neighbors that are UP at its hand-off. -/
def Ledger.handed (ledger : Ledger) : Event → List (List Nat)
  | .multicast _ => ledger.owed ++ [(ledger.ei.nbrs.map Peer.id).filter ledger.ei.up]
  | _ => ledger.owed

/-- Who leaves UP is owed nothing any longer. Multicasts are taken from the front of the queue. -/
def Ledger.step (outcome : Outcome) (ledger : Ledger) (event : Event) : Ledger :=
  let next := ledger.ei.step outcome event
  let handed := ledger.handed event
  { ei := next, owed := (handed.drop (handed.length - next.multicast_pending.length)).map (·.filter next.up) }

def ledger_run (steps : List (Outcome × Event)) : Ledger :=
  steps.foldl (fun ledger step => ledger.step step.1 step.2) {}

/-- A queue gains one copy of a multicast. -/
def Gains (sequence : Sequence) (queue next : List Reliable) : Prop :=
  ∃ front copy back, queue = front ++ back ∧ next = front ++ copy :: back ∧ copy.sequence = sequence

/-- An attempt to admit the first multicast either gives one copy to every neighbor it is owed to and none to the others, or
    leaves the queues of the neighbors as they are, and the multicast in its place with its flags as long as it is owed to anyone. -/
structure Transport.FansOut (outcome : Outcome) (ei : Transport) (owed : List Nat) : Prop where
  admitted : (ei.admit_multicast outcome).2 = true → ∃ packet,
    ei.multicast_pending = packet :: (ei.admit_multicast outcome).1.multicast_pending ∧
      List.Forall₂ (fun nbr next => next.id = nbr.id ∧
        if nbr.id ∈ owed then Gains packet.sequence nbr.retrans_queue next.retrans_queue else next.retrans_queue = nbr.retrans_queue)
        ei.nbrs (ei.admit_multicast outcome).1.nbrs
  failed : (ei.admit_multicast outcome).2 = false → (ei.admit_multicast outcome).1.nbrs = ei.nbrs ∧
    (owed ≠ [] → (ei.admit_multicast outcome).1.multicast_pending = ei.multicast_pending)

/-! ## What a step does to the neighbors -/

/-- An ACK that completes the handshake of a neighbor. -/
def Transport.comes_up (ei : Transport) : Event → Bool
  | .ack id sequence => (ei.nbr id).any fun nbr =>
      nbr.state == .pending && nbr.init_sequence_number == some sequence && nbr.retrans_queue.head?.any (·.sequence == sequence)
  | _ => false

/-- Nobody comes UP, and multicasts leave the front of the queue only. -/
structure Transport.Keeps (ei next : Transport) : Prop where
  ids : (ei.nbrs.map (·.id)).Nodup → (next.nbrs.map (·.id)).Nodup
  epoch : next.multicast_epoch = ei.multicast_epoch
  peers : ∀ nbr ∈ next.nbrs, nbr.state = .up →
    ∃ old ∈ ei.nbrs, old.id = nbr.id ∧ old.state = .up ∧ old.multicast_epoch = nbr.multicast_epoch
  pending : next.multicast_pending <:+ ei.multicast_pending

theorem Transport.Keeps.refl (ei : Transport) : ei.Keeps ei :=
  ⟨id,rfl,fun nbr member up => ⟨nbr,member,rfl,up,rfl⟩,List.suffix_rfl⟩

theorem Transport.Keeps.trans {ei next last : Transport} (first : ei.Keeps next) (second : next.Keeps last) : ei.Keeps last := by
  refine ⟨second.ids ∘ first.ids,second.epoch.trans first.epoch,?_,second.pending.trans first.pending⟩
  intro nbr member up
  obtain ⟨mid,inside,same,mid_up,epoch⟩ := second.peers nbr member up
  obtain ⟨old,old_member,old_same,old_up,old_epoch⟩ := first.peers mid inside mid_up
  exact ⟨old,old_member,old_same.trans same,old_up,old_epoch.trans epoch⟩

theorem multicast_resume_epoch (ei : Transport) : ei.multicast_resume.multicast_epoch = ei.multicast_epoch := by
  unfold Transport.multicast_resume
  split
  · rfl
  · dsimp only
    split_ifs <;> rfl

theorem keeps_resume (ei : Transport) : ei.Keeps ei.multicast_resume := by
  refine ⟨?_,multicast_resume_epoch ei,?_,by simp⟩
  · simp
  · intro nbr member up
    rw [multicast_resume_nbrs] at member
    exact ⟨nbr,member,rfl,up,rfl⟩

theorem put_ids (ei : Transport) (nbr : Peer) (outputs : List Output) : (ei.put nbr outputs).nbrs.map (·.id) = ei.nbrs.map (·.id) := by
  unfold Transport.put
  dsimp only
  rw [List.map_map]
  refine List.map_congr_left fun other _ => ?_
  by_cases same : other.id = nbr.id
  · simp [same]
  · simp [same]

theorem mem_put {ei : Transport} {nbr other : Peer} {outputs : List Output} (member : other ∈ (ei.put nbr outputs).nbrs) :
    (other = nbr ∧ ∃ old ∈ ei.nbrs, old.id = nbr.id) ∨ (other ∈ ei.nbrs ∧ other.id ≠ nbr.id) := by
  obtain ⟨old,inside,rfl⟩ := List.mem_map.1 member
  by_cases same : old.id = nbr.id
  · exact .inl ⟨by rw [if_pos same],old,inside,same⟩
  · rw [if_neg same]
    exact .inr ⟨inside,same⟩

/-- A neighbor of the interface changes without coming UP. -/
theorem keeps_put {ei : Transport} {nbr next : Peer} (outputs : List Output) (member : nbr ∈ ei.nbrs) (same : next.id = nbr.id)
    (up : next.state = .up → nbr.state = .up ∧ nbr.multicast_epoch = next.multicast_epoch) : ei.Keeps (ei.put next outputs) := by
  refine ⟨?_,rfl,?_,List.suffix_rfl⟩
  · rw [put_ids]
    exact id
  · intro other inside other_up
    rcases mem_put inside with ⟨rfl,_⟩ | ⟨old,_⟩
    · exact ⟨nbr,member,same.symm,up other_up⟩
    · exact ⟨other,old,rfl,other_up,rfl⟩

/-- Only the output queue and the state of admission differ. -/
theorem keeps_of_eq {ei next : Transport} (nbrs : next.nbrs = ei.nbrs) (epoch : next.multicast_epoch = ei.multicast_epoch)
    (pending : next.multicast_pending <:+ ei.multicast_pending) : ei.Keeps next := by
  refine ⟨?_,epoch,?_,pending⟩
  · rw [nbrs]
    exact id
  · intro nbr member up
    rw [nbrs] at member
    exact ⟨nbr,member,rfl,up,rfl⟩

/-- Every neighbor changes without coming UP. -/
theorem keeps_map {ei next : Transport} {change : Peer → Peer} (nbrs : next.nbrs = ei.nbrs.map change)
    (same : ∀ nbr, (change nbr).id = nbr.id ∧ (change nbr).state = nbr.state ∧ (change nbr).multicast_epoch = nbr.multicast_epoch)
    (epoch : next.multicast_epoch = ei.multicast_epoch) (pending : next.multicast_pending <:+ ei.multicast_pending) : ei.Keeps next := by
  refine ⟨?_,epoch,?_,pending⟩
  · intro nodup
    rw [nbrs,List.map_map]
    have ids : List.map ((·.id) ∘ change) ei.nbrs = ei.nbrs.map (·.id) := List.map_congr_left fun nbr _ => (same nbr).1
    rwa [ids]
  · intro nbr member up
    rw [nbrs] at member
    obtain ⟨old,inside,rfl⟩ := List.mem_map.1 member
    obtain ⟨its,state,era⟩ := same old
    exact ⟨old,inside,its.symm,state ▸ up,era.symm⟩

theorem wire_sent_same (outcome : Outcome) (packet : Output) (nbr : Peer) :
    (nbr.wire_sent outcome packet).id = nbr.id ∧ (nbr.wire_sent outcome packet).state = nbr.state ∧
      (nbr.wire_sent outcome packet).multicast_epoch = nbr.multicast_epoch := by
  unfold Peer.wire_sent
  split
  · split
    · exact ⟨rfl,rfl,rfl⟩
    · exact ⟨rfl,rfl,rfl⟩
  · exact ⟨rfl,rfl,rfl⟩

theorem send_reliably_same (outcome : Outcome) (pending : List Multicast) (nbr : Peer) :
    (nbr.send_reliably outcome pending).1.id = nbr.id ∧ (nbr.send_reliably outcome pending).1.state = nbr.state ∧
      (nbr.send_reliably outcome pending).1.multicast_epoch = nbr.multicast_epoch := by
  unfold Peer.send_reliably
  split
  · exact ⟨rfl,rfl,rfl⟩
  · split_ifs <;> exact ⟨rfl,rfl,rfl⟩

theorem keeps_admit_multicast (outcome : Outcome) (ei : Transport) : ei.Keeps (ei.admit_multicast outcome).1 := by
  unfold Transport.admit_multicast
  split
  · exact .refl ei
  · rcases queue : ei.multicast_pending with _ | ⟨packet,pending⟩
    · exact .refl ei
    · have shorter : pending <:+ ei.multicast_pending := queue ▸ List.suffix_cons packet pending
      have whole : packet :: pending <:+ ei.multicast_pending := queue ▸ List.suffix_rfl
      dsimp only
      split_ifs
      · exact keeps_of_eq rfl rfl whole
      · exact (@keeps_of_eq ei { ei with multicast_pending := pending } rfl rfl shorter).trans (keeps_resume _)
      · exact keeps_of_eq rfl rfl whole
      · exact keeps_of_eq rfl rfl whole
      · exact keeps_of_eq rfl rfl whole
      all_goals
        refine keeps_map rfl (fun nbr => ?_) rfl shorter
        split <;> exact ⟨rfl,rfl,rfl⟩

theorem keeps_write (outcome : Outcome) (ei : Transport) : ei.Keeps (ei.write outcome) := by
  have admitted : ei.Keeps (if ei.obuf.isEmpty then (ei.admit_multicast outcome).1 else ei) := by
    split
    · exact keeps_admit_multicast outcome ei
    · exact .refl ei
  unfold Transport.write
  dsimp only
  generalize (if ei.obuf.isEmpty then (ei.admit_multicast outcome).1 else ei) = ready at admitted ⊢
  split
  · exact admitted
  · split
    · exact admitted
    · exact admitted.trans (keeps_map rfl (wire_sent_same outcome _) rfl List.suffix_rfl)

theorem keeps_delete (ei : Transport) (id : Nat) : ei.Keeps (ei.delete id) := by
  have filtered : ei.Keeps { ei.output_clear id with nbrs := ei.nbrs.filter (·.id ≠ id) } := by
    refine ⟨?_,rfl,?_,List.suffix_rfl⟩
    · exact fun nodup => nodup.sublist (List.filter_sublist.map _)
    · intro nbr member up
      exact ⟨nbr,(List.mem_filter.1 member).1,rfl,up,rfl⟩
  exact filtered.trans (keeps_resume _)

theorem keeps_enqueue {outcome : Outcome} {ei : Transport} {nbr old : Peer} (member : old ∈ ei.nbrs) (same : nbr.id = old.id)
    (up : nbr.state = .up → old.state = .up ∧ old.multicast_epoch = nbr.multicast_epoch) (sequence : Sequence) :
    ei.Keeps (ei.enqueue outcome nbr sequence) := by
  unfold Transport.enqueue
  dsimp only
  split
  · have sent := send_reliably_same outcome ei.multicast_pending { nbr with retrans_queue := nbr.retrans_queue ++ [{ sequence }] }
    refine keeps_put _ member (sent.1.trans same) ?_
    rw [sent.2.1,sent.2.2]
    exact up
  · exact keeps_put _ member same up

theorem keeps_retrans_timer {outcome : Outcome} {ei : Transport} {nbr : Peer} (member : nbr ∈ ei.nbrs) (position : Nat) :
    ei.Keeps (ei.retrans_timer outcome nbr position) := by
  unfold Transport.retrans_timer Peer.unack_retrans
  dsimp only
  split
  · exact keeps_delete ei nbr.id
  · rename_i next outputs fired
    have same : next.id = nbr.id ∧ next.state = nbr.state ∧ next.multicast_epoch = nbr.multicast_epoch := by
      split at fired
      · cases fired
        exact ⟨rfl,rfl,rfl⟩
      · split_ifs at fired <;> cases fired <;> exact ⟨rfl,rfl,rfl⟩
    refine keeps_put _ member same.1 ?_
    rw [same.2.1,same.2.2]
    exact fun up => ⟨up,rfl⟩

/-- What an ACK leaves of the neighbor and of the interface. -/
theorem keeps_acked {ei : Transport} {nbr : Peer} (member : nbr ∈ ei.nbrs) (retry : Bool) (rest : List Reliable) (sequence : Sequence) :
    ei.Keeps (((if retry then ei.retry_cancel nbr.id sequence else ei).put { nbr with retrans_queue := rest } []).multicast_resume) := by
  have cancelled : ei.Keeps (if retry then ei.retry_cancel nbr.id sequence else ei) := by
    split
    · exact keeps_of_eq rfl rfl List.suffix_rfl
    · exact .refl ei
  have inside : nbr ∈ (if retry then ei.retry_cancel nbr.id sequence else ei).nbrs := by
    split <;> exact member
  exact (cancelled.trans (@keeps_put _ nbr { nbr with retrans_queue := rest } [] inside rfl fun up => ⟨up,rfl⟩)).trans (keeps_resume _)

/-- A neighbor of the interface comes UP in the next epoch. -/
structure Transport.Rises (ei next : Transport) : Prop where
  ids : (ei.nbrs.map (·.id)).Nodup → (next.nbrs.map (·.id)).Nodup
  epoch : next.multicast_epoch = next_epoch ei.multicast_epoch
  peers : ∀ nbr ∈ next.nbrs, nbr.state = .up →
    (∃ old ∈ ei.nbrs, old.id = nbr.id ∧ old.state = .up ∧ old.multicast_epoch = nbr.multicast_epoch) ∨
      (nbr.multicast_epoch = next_epoch ei.multicast_epoch ∧ ∃ old ∈ ei.nbrs, old.id = nbr.id ∧ old.state = .pending)
  pending : next.multicast_pending <:+ ei.multicast_pending

theorem ack_cases {outcome : Outcome} {ei : Transport} {nbr : Peer} {id : Nat} (found : ei.nbr id = some nbr) (sequence : Sequence) :
    (ei.Keeps (ei.ack outcome nbr sequence)) ∨
      (ei.comes_up (.ack id sequence) ∧ ei.Rises (ei.ack outcome nbr sequence)) := by
  obtain ⟨member,rfl⟩ := nbr_mem found
  unfold Transport.ack
  rcases queue : nbr.retrans_queue with _ | ⟨head,rest⟩
  · exact .inl (.refl ei)
  · dsimp only
    by_cases other : head.sequence ≠ sequence
    · rw [if_pos other]
      exact .inl (.refl ei)
    · rw [if_neg other]
      have acked := keeps_acked member head.retry_queued rest sequence
      have inside : { nbr with retrans_queue := rest } ∈
          (((if head.retry_queued then ei.retry_cancel nbr.id sequence else ei).put { nbr with retrans_queue := rest } []).multicast_resume).nbrs := by
        rw [multicast_resume_nbrs]
        refine List.mem_map.2 ⟨nbr,?_,by simp⟩
        split <;> exact member
      generalize ((if head.retry_queued then ei.retry_cancel nbr.id sequence else ei).put { nbr with retrans_queue := rest }
        []).multicast_resume = next at acked inside ⊢
      by_cases handshake : nbr.state = .pending ∧ nbr.init_sequence_number = some sequence
      · rw [if_pos handshake]
        refine .inr ⟨?_,?_,?_,?_,acked.pending⟩
        · simp [Transport.comes_up,found,handshake,queue,not_not.1 other]
        · rw [put_ids]
          exact acked.ids
        · exact congrArg next_epoch acked.epoch
        · intro changed changed_member up
          rcases mem_put changed_member with ⟨rfl,_⟩ | ⟨old,_⟩
          · exact .inr ⟨congrArg next_epoch acked.epoch,nbr,member,rfl,handshake.1⟩
          · exact .inl (acked.peers changed old up)
      · rw [if_neg handshake]
        have sent := send_reliably_same outcome next.multicast_pending { nbr with retrans_queue := rest }
        refine .inl (acked.trans (keeps_put _ inside sent.1 ?_))
        rw [sent.2.1,sent.2.2]
        exact fun up => ⟨up,rfl⟩

/-- A multicast is handed off, a neighbor comes UP, or neither. -/
theorem step_cases (outcome : Outcome) (ei : Transport) (event : Event) :
    (∃ sequence, event = .multicast sequence) ∨ (ei.Keeps (ei.step outcome event)) ∨
      (ei.comes_up event ∧ ei.Rises (ei.step outcome event)) := by
  cases event with
  | multicast sequence => exact .inl ⟨sequence,rfl⟩
  | create id =>
    refine .inr (.inl ?_)
    simp only [Transport.step]
    split
    · exact .refl ei
    · rename_i unknown
      refine ⟨fun nodup => ?_,rfl,?_,List.suffix_rfl⟩
      · rw [List.map_append]
        refine List.nodup_append.2 ⟨nodup,by simp,?_⟩
        rintro first inside second new rfl
        obtain ⟨nbr,member,rfl⟩ := List.mem_map.1 inside
        refine unknown (List.find?_isSome.2 ⟨nbr,member,?_⟩)
        simpa using new
      · intro nbr member up
        rcases List.mem_append.1 member with old | new
        · exact ⟨nbr,old,rfl,up,rfl⟩
        · rw [List.mem_singleton.1 new] at up
          cases up
  | pending id =>
    refine .inr (.inl ?_)
    simp only [Transport.step]
    cases found : ei.nbr id with
    | none => exact .refl ei
    | some nbr =>
      dsimp only
      split
      · exact keeps_put _ (nbr_mem found).1 rfl (fun up => by cases up)
      · exact .refl ei
  | enqueue id sequence =>
    refine .inr (.inl ?_)
    simp only [Transport.step]
    cases found : ei.nbr id with
    | none => exact .refl ei
    | some nbr => exact keeps_enqueue (nbr_mem found).1 rfl (fun up => ⟨up,rfl⟩) sequence
  | send_init id sequence =>
    refine .inr (.inl ?_)
    simp only [Transport.step]
    cases found : ei.nbr id with
    | none => exact .refl ei
    | some nbr =>
      exact @keeps_enqueue outcome ei { nbr with init_sequence_number := some sequence } nbr (nbr_mem found).1 rfl (fun up => ⟨up,rfl⟩) sequence
  | hello => exact .inr (.inl (keeps_of_eq rfl rfl List.suffix_rfl))
  | write => exact .inr (.inl (keeps_write outcome ei))
  | ack id sequence =>
    simp only [Transport.step]
    cases found : ei.nbr id with
    | none => exact .inr (.inl (.refl ei))
    | some nbr => exact .inr (ack_cases found sequence)
  | retrans_timer id position =>
    refine .inr (.inl ?_)
    simp only [Transport.step]
    cases found : ei.nbr id with
    | none => exact .refl ei
    | some nbr =>
      dsimp only [Option.elim]
      split
      · exact keeps_retrans_timer (nbr_mem found).1 position
      · exact .refl ei
  | multicast_retry =>
    exact .inr (.inl ((@keeps_of_eq ei { ei with t_multicast_retry := false } rfl rfl List.suffix_rfl).trans (keeps_resume _)))
  | reset id =>
    refine .inr (.inl ?_)
    simp only [Transport.step]
    cases found : ei.nbr id with
    | none => exact .refl ei
    | some nbr =>
      have lost : ei.Keeps (ei.put nbr.down []) := keeps_put _ (nbr_mem found).1 rfl (fun up => by cases up)
      exact lost.trans (keeps_resume _)
  | down id =>
    refine .inr (.inl ?_)
    simp only [Transport.step]
    cases found : ei.nbr id with
    | none => exact .refl ei
    | some nbr =>
      have cleared : ei.Keeps (ei.output_clear id) := keeps_of_eq rfl rfl List.suffix_rfl
      have lost : (ei.output_clear id).Keeps ((ei.output_clear id).put nbr.down []) :=
        @keeps_put (ei.output_clear id) nbr nbr.down [] (nbr_mem found).1 rfl (fun up => by cases up)
      exact (cleared.trans lost).trans (keeps_resume _)
  | delete id => exact .inr (.inl (keeps_delete ei id))
  | intf_down => exact .inr (.inl ⟨fun _ => List.nodup_nil,rfl,by simp [Transport.step],List.nil_suffix⟩)

/-! ## Epochs and the ledger -/

/-- The epoch of the interface does not come round. -/
def Transport.Unwrapped (ei : Transport) (event : Event) : Prop := ei.comes_up event → ei.multicast_epoch + 1 ≠ 0

/-- The neighbors that a multicast is owed to are those that the epochs make eligible. -/
def Transport.Owes (ei : Transport) (packet : Multicast) (owed : List Nat) : Prop :=
  packet.multicast_epoch ≤ ei.multicast_epoch ∧ (∀ id ∈ owed, ei.up id) ∧
    ∀ nbr ∈ ei.nbrs, nbr.eligible packet.multicast_epoch ↔ nbr.id ∈ owed

structure Ledger.Aligned (ledger : Ledger) : Prop where
  ids : (ledger.ei.nbrs.map (·.id)).Nodup
  epochs : ∀ nbr ∈ ledger.ei.nbrs, nbr.state = .up → nbr.multicast_epoch ≠ 0 ∧ nbr.multicast_epoch ≤ ledger.ei.multicast_epoch
  owed : List.Forall₂ ledger.ei.Owes ledger.ei.multicast_pending ledger.owed

theorem up_iff {ei : Transport} {nbr : Peer} (ids : (ei.nbrs.map (·.id)).Nodup) (member : nbr ∈ ei.nbrs) :
    ei.up nbr.id ↔ nbr.state = .up := by
  constructor
  · intro up
    obtain ⟨other,inside,its⟩ := List.any_eq_true.1 up
    simp only [Bool.and_eq_true,beq_iff_eq] at its
    rw [List.inj_on_of_nodup_map ids member inside its.1.symm]
    exact its.2
  · intro up
    exact List.any_eq_true.2 ⟨nbr,member,by simp [up]⟩

theorem next_epoch_lt {epoch : UInt64} (room : epoch + 1 ≠ 0) : epoch < next_epoch epoch := by
  have larger : epoch.toNat + 1 < 2 ^ 64 := by
    by_contra full
    refine room (UInt64.toNat_inj.1 ?_)
    have bound := epoch.toNat_lt
    rw [UInt64.toNat_add]
    simp
    omega
  rw [next_epoch,if_neg room,UInt64.lt_iff_toNat_lt,UInt64.toNat_add]
  simp
  omega

theorem eligible_eq {nbr old : Peer} (state : nbr.state = .up) (old_state : old.state = .up)
    (same : old.multicast_epoch = nbr.multicast_epoch) (epoch : UInt64) : nbr.eligible epoch = old.eligible epoch := by
  simp [Peer.eligible,state,old_state,same]

theorem not_eligible {nbr : Peer} (state : nbr.state ≠ .up) (epoch : UInt64) : nbr.eligible epoch = false := by
  simp [Peer.eligible,state]

/-- The ledger strikes out whom a step takes from UP. -/
theorem owes_step {ei next : Transport} {packet : Multicast} {owed : List Nat} (ids : (next.nbrs.map (·.id)).Nodup)
    (epoch : ei.multicast_epoch ≤ next.multicast_epoch)
    (peers : ∀ nbr ∈ next.nbrs, nbr.state = .up →
      (∃ old ∈ ei.nbrs, old.id = nbr.id ∧ old.state = .up ∧ old.multicast_epoch = nbr.multicast_epoch) ∨
        (ei.multicast_epoch < nbr.multicast_epoch ∧ ∃ old ∈ ei.nbrs, old.id = nbr.id ∧ old.state = .pending))
    (owes : ei.Owes packet owed) : next.Owes packet (owed.filter next.up) := by
  obtain ⟨past,_,eligible⟩ := owes
  refine ⟨UInt64.le_trans past epoch,fun id member => (List.mem_filter.1 member).2,?_⟩
  intro nbr member
  rw [List.mem_filter,up_iff ids member]
  by_cases state : nbr.state = .up
  · rcases peers nbr member state with ⟨old,inside,same,old_state,era⟩ | ⟨later,old,inside,same,old_state⟩
    · rw [eligible_eq state old_state era,eligible old inside,same]
      simp [state]
    · have late : nbr.eligible packet.multicast_epoch = false := by
        have beyond : ¬ nbr.multicast_epoch ≤ packet.multicast_epoch :=
          UInt64.not_le.2 (UInt64.lt_of_le_of_lt past later)
        simp [Peer.eligible,beyond]
      have unowed : nbr.id ∉ owed := by
        rw [← same,← eligible old inside]
        simp [Peer.eligible,old_state]
      simp [late,unowed]
  · simp [not_eligible state,state]

/-- A multicast that is handed off is owed to whoever is UP. -/
theorem owes_handed {ei : Transport} {packet : Multicast} (ids : (ei.nbrs.map (·.id)).Nodup)
    (epochs : ∀ nbr ∈ ei.nbrs, nbr.state = .up → nbr.multicast_epoch ≠ 0 ∧ nbr.multicast_epoch ≤ ei.multicast_epoch)
    (now : packet.multicast_epoch = ei.multicast_epoch) : ei.Owes packet ((ei.nbrs.map Peer.id).filter ei.up) := by
  refine ⟨UInt64.le_of_eq now,fun id member => (List.mem_filter.1 member).2,?_⟩
  intro nbr member
  have its : nbr.id ∈ ei.nbrs.map Peer.id := List.mem_map_of_mem member
  rw [List.mem_filter,up_iff ids member]
  by_cases state : nbr.state = .up
  · obtain ⟨nonzero,old⟩ := epochs nbr member state
    simp [Peer.eligible,state,nonzero,now,old,its]
  · simp [not_eligible state,state]

/-- The entries of the ledger are dropped with the multicasts. -/
theorem owed_drop {ei next : Transport} {pending : List Multicast} {owed : List (List Nat)} (owes : List.Forall₂ ei.Owes pending owed)
    (rest : next.multicast_pending <:+ pending)
    (step : ∀ packet owed, ei.Owes packet owed → next.Owes packet (owed.filter next.up)) :
    List.Forall₂ next.Owes next.multicast_pending
      ((owed.drop (owed.length - next.multicast_pending.length)).map (·.filter next.up)) := by
  obtain ⟨gone,rfl⟩ := rest
  have length := owes.length_eq
  rw [List.length_append] at length
  have dropped : owed.length - next.multicast_pending.length = gone.length := by omega
  have kept := List.forall₂_drop gone.length owes
  rw [List.drop_left] at kept
  rw [dropped,List.forall₂_map_right_iff]
  exact kept.imp fun packet owed owes => step packet owed owes

/-- The hand-off itself changes no neighbor. -/
theorem aligned_handed {ledger : Ledger} (aligned : ledger.Aligned) (outcome : Outcome) (sequence : Sequence) :
    (ledger.step outcome (.multicast sequence)).Aligned := by
  have nbrs : (ledger.ei.step outcome (.multicast sequence)).nbrs = ledger.ei.nbrs := multicast_resume_nbrs _
  have epoch : (ledger.ei.step outcome (.multicast sequence)).multicast_epoch = ledger.ei.multicast_epoch := multicast_resume_epoch _
  have pending : (ledger.ei.step outcome (.multicast sequence)).multicast_pending =
      ledger.ei.multicast_pending ++ [Multicast.mk sequence ledger.ei.multicast_epoch false] := multicast_resume_pending _
  have handed : List.Forall₂ ledger.ei.Owes (ledger.ei.multicast_pending ++ [Multicast.mk sequence ledger.ei.multicast_epoch false])
      (ledger.handed (.multicast sequence)) :=
    List.rel_append aligned.owed (.cons (owes_handed aligned.ids aligned.epochs rfl) .nil)
  unfold Ledger.step
  refine ⟨nbrs ▸ aligned.ids,?_,owed_drop handed (pending ▸ List.suffix_rfl) ?_⟩
  · dsimp only
    rw [nbrs,epoch]
    exact aligned.epochs
  · intro packet owed owes
    refine owes_step (nbrs ▸ aligned.ids) (UInt64.le_of_eq epoch.symm) ?_ owes
    intro nbr member up
    exact .inl ⟨nbr,nbrs ▸ member,rfl,up,rfl⟩

theorem handed_other {ledger : Ledger} {event : Event} (other : ¬ ∃ sequence, event = .multicast sequence) :
    ledger.handed event = ledger.owed := by
  cases event with
  | multicast sequence => exact absurd ⟨sequence,rfl⟩ other
  | _ => rfl

theorem aligned_step {ledger : Ledger} (aligned : ledger.Aligned) {outcome : Outcome} {event : Event}
    (unwrapped : ledger.ei.Unwrapped event) : (ledger.step outcome event).Aligned := by
  by_cases multicast : ∃ sequence, event = .multicast sequence
  · obtain ⟨sequence,rfl⟩ := multicast
    exact aligned_handed aligned outcome sequence
  · unfold Ledger.step
    rw [handed_other multicast]
    dsimp only
    rcases (step_cases outcome ledger.ei event).resolve_left multicast with keeps | ⟨comes,rises⟩
    · refine ⟨keeps.ids aligned.ids,?_,owed_drop aligned.owed keeps.pending fun packet owed owes => ?_⟩
      · intro nbr member up
        obtain ⟨old,inside,_,old_up,era⟩ := keeps.peers nbr member up
        rw [keeps.epoch,← era]
        exact aligned.epochs old inside old_up
      · exact owes_step (keeps.ids aligned.ids) (UInt64.le_of_eq keeps.epoch.symm) (fun nbr member up => .inl (keeps.peers nbr member up)) owes
    · have later := next_epoch_lt (unwrapped comes)
      have advanced : ledger.ei.multicast_epoch ≤ (ledger.ei.step outcome event).multicast_epoch :=
        rises.epoch ▸ UInt64.le_of_lt later
      refine ⟨rises.ids aligned.ids,?_,owed_drop aligned.owed rises.pending fun packet owed owes => ?_⟩
      · intro nbr member up
        rcases rises.peers nbr member up with ⟨old,inside,_,old_up,era⟩ | ⟨era,_⟩
        · obtain ⟨nonzero,past⟩ := aligned.epochs old inside old_up
          exact ⟨era ▸ nonzero,UInt64.le_trans (era ▸ past) advanced⟩
        · rw [era,rises.epoch]
          refine ⟨fun zero => ?_,UInt64.le_refl _⟩
          rw [zero] at later
          exact UInt64.not_lt.2 (UInt64.zero_le) later
      · refine owes_step (rises.ids aligned.ids) advanced (fun nbr member up => ?_) owes
        rcases rises.peers nbr member up with kept | ⟨era,risen⟩
        · exact .inl kept
        · exact .inr ⟨era ▸ later,risen⟩

/-! ## Admission -/

theorem ordered_enqueue_gains (queue : List Reliable) (packet : Reliable) : Gains packet.sequence queue (ordered_enqueue queue packet) :=
  ⟨_,packet,_,(List.takeWhile_append_dropWhile).symm,rfl,rfl⟩

/-- An attempt admits the first multicast to all that are eligible, or changes no neighbor; a multicast without receivers is
    dropped. -/
theorem admit_multicast_cases (outcome : Outcome) {ei : Transport} {packet : Multicast} {pending : List Multicast}
    (queue : ei.multicast_pending = packet :: pending) :
    ((ei.admit_multicast outcome).2 = true ∧ (ei.admit_multicast outcome).1.multicast_pending = pending ∧
      ∃ cr, (ei.admit_multicast outcome).1.nbrs = ei.nbrs.map fun nbr =>
        if nbr.eligible packet.multicast_epoch then
          { nbr with retrans_queue := ordered_enqueue nbr.retrans_queue { sequence := packet.sequence, cr } }
        else nbr) ∨
    ((ei.admit_multicast outcome).2 = false ∧ (ei.admit_multicast outcome).1.nbrs = ei.nbrs ∧
      ((ei.admit_multicast outcome).1.multicast_pending = ei.multicast_pending ∨
        (ei.nbrs.filter (·.eligible packet.multicast_epoch)).isEmpty = true)) := by
  unfold Transport.admit_multicast
  by_cases held : (ei.multicast_backoff || ei.multicast_waiting || ei.t_multicast_retry) = true
  · rw [if_pos held]
    exact .inr ⟨rfl,rfl,.inl rfl⟩
  · rw [if_neg held,queue]
    dsimp only
    split_ifs with full none_left all_busy too_long failed
    · exact .inr ⟨rfl,rfl,.inl rfl⟩
    · exact .inr ⟨rfl,multicast_resume_nbrs _,.inr none_left⟩
    · exact .inr ⟨rfl,rfl,.inl rfl⟩
    · exact .inr ⟨rfl,rfl,.inl rfl⟩
    · exact .inr ⟨rfl,rfl,.inl rfl⟩
    all_goals exact .inl ⟨rfl,rfl,_,rfl⟩

theorem owes_fansOut {ei : Transport} {packet : Multicast} {pending : List Multicast} {owed : List Nat}
    (queue : ei.multicast_pending = packet :: pending) (owes : ei.Owes packet owed) (outcome : Outcome) : ei.FansOut outcome owed := by
  obtain ⟨_,present,eligible⟩ := owes
  rcases admit_multicast_cases outcome queue with ⟨admitted,rest,cr,nbrs⟩ | ⟨failed,nbrs,kept⟩
  · refine ⟨fun _ => ⟨packet,rest ▸ queue,?_⟩,fun failed => by simp [admitted] at failed⟩
    rw [nbrs,List.forall₂_map_right_iff,List.forall₂_same]
    intro nbr member
    by_cases receiver : nbr.eligible packet.multicast_epoch = true
    · rw [if_pos receiver,if_pos ((eligible nbr member).1 receiver)]
      exact ⟨rfl,ordered_enqueue_gains nbr.retrans_queue { sequence := packet.sequence, cr }⟩
    · rw [if_neg receiver,if_neg (fun owed => receiver ((eligible nbr member).2 owed))]
      exact ⟨rfl,rfl⟩
  · refine ⟨fun admitted => by simp [failed] at admitted,fun _ => ⟨nbrs,fun someone => ?_⟩⟩
    refine kept.resolve_right fun empty => someone ?_
    refine List.eq_nil_iff_forall_not_mem.2 fun id member => ?_
    obtain ⟨nbr,inside,its⟩ := List.any_eq_true.1 (present id member)
    simp only [Bool.and_eq_true,beq_iff_eq] at its
    have receiver := (eligible nbr inside).2 (its.1 ▸ member)
    simpa [receiver] using List.filter_eq_nil_iff.1 (List.isEmpty_iff.1 empty) nbr inside

/-! ## Runs -/

/-- No neighbor comes UP in a run when the epoch of the interface has reached its end. -/
def UnwrappedRun : Transport → List (Outcome × Event) → Prop
  | _, [] => True
  | ei, step :: steps => ei.Unwrapped step.2 ∧ UnwrappedRun (ei.step step.1 step.2) steps

instance decidableUnwrappedRun : (ei : Transport) → (steps : List (Outcome × Event)) → Decidable (UnwrappedRun ei steps)
  | _, [] => .isTrue trivial
  | ei, step :: steps =>
    @instDecidableAnd _ _ (inferInstanceAs (Decidable (ei.comes_up step.2 → ei.multicast_epoch + 1 ≠ 0)))
      (decidableUnwrappedRun (ei.step step.1 step.2) steps)

theorem aligned_run {ledger : Ledger} (aligned : ledger.Aligned) {steps : List (Outcome × Event)} (unwrapped : UnwrappedRun ledger.ei steps) :
    (steps.foldl (fun ledger step => ledger.step step.1 step.2) ledger).Aligned := by
  induction steps generalizing ledger with
  | nil => exact aligned
  | cons step steps ih => exact ih (aligned_step aligned unwrapped.1) unwrapped.2

theorem ledger_run_ei (steps : List (Outcome × Event)) : (ledger_run steps).ei = run steps := by
  have loop (ledger : Ledger) : (steps.foldl (fun ledger step => ledger.step step.1 step.2) ledger).ei =
      steps.foldl (fun ei step => ei.step step.1 step.2) ledger.ei := by
    induction steps generalizing ledger with
    | nil => rfl
    | cons step steps ih => exact ih (ledger.step step.1 step.2)
  exact loop {}

/-- As long as the epoch has not come round, every attempt of every run fans the first multicast out to the neighbors it is
    owed to. -/
theorem multicast_fans_out {steps : List (Outcome × Event)} (unwrapped : UnwrappedRun {} steps) (outcome : Outcome) :
    (ledger_run steps).owed.length = (run steps).multicast_pending.length ∧
      ∀ owed ∈ (ledger_run steps).owed.head?, (run steps).FansOut outcome owed := by
  have start : Ledger.Aligned {} := ⟨List.nodup_nil,by simp,.nil⟩
  have aligned : (ledger_run steps).Aligned := aligned_run start unwrapped
  have owes := aligned.owed
  rw [ledger_run_ei] at owes
  refine ⟨owes.length_eq.symm,fun owed first => ?_⟩
  obtain ⟨later,ledger⟩ := List.head?_eq_some_iff.1 first
  rw [ledger] at owes
  obtain ⟨packet,pending,its,_,queue⟩ := List.forall₂_cons_right_iff.1 owes
  exact owes_fansOut queue its outcome

/-- The handshake with a neighbor. -/
def handshake_of (id : Nat) (sequence : Sequence) : List (Outcome × Event) :=
  [({}, .pending id),({}, .send_init id sequence),({}, .ack id sequence)]

/-- A multicast is handed off between the handshakes with two neighbors. -/
def handed_between : List (Outcome × Event) :=
  ({}, .create 1) :: ({}, .create 2) ::
    (handshake_of 1 ⟨1,one_nonzero⟩ ++ ({}, .multicast ⟨2,two_nonzero⟩) :: handshake_of 2 ⟨3,three_nonzero⟩)

theorem multicast_fans_out_between : (ledger_run handed_between).owed = [[1]] ∧ (run handed_between).up 2 = true ∧
    ((run handed_between).admit_multicast {}).2 = true ∧ (run handed_between).FansOut {} [1] := by
  have owed : (ledger_run handed_between).owed = [[1]] := by decide +kernel
  have unwrapped : UnwrappedRun {} handed_between := by decide +kernel
  exact ⟨owed,by decide +kernel,by decide +kernel,(multicast_fans_out unwrapped {}).2 [1] (by simp [owed])⟩

/-- A neighbor comes UP and goes down. -/
def flap : List (Outcome × Event) := handshake_of 1 ⟨1,one_nonzero⟩ ++ [(({} : Outcome), Event.down 1)]

/-- The interface behind some flaps of its only neighbor. -/
def flapped (epoch : UInt64) : Ledger := { ei := { nbrs := [{ id := 1, multicast_epoch := epoch }], multicast_epoch := epoch } }

theorem flap_run (epoch : UInt64) :
    flap.foldl (fun ledger step => ledger.step step.1 step.2) (flapped epoch) = flapped (next_epoch epoch) := by
  simp [flap,handshake_of,flapped,Ledger.step,Ledger.handed,Transport.step,Transport.nbr,Transport.put,Transport.enqueue,
    Peer.send_reliably,Peer.behind_multicast,Transport.ack,Transport.multicast_resume,Transport.output_clear,Peer.down]

theorem flaps_run {count : Nat} (few : count < 2 ^ 64) :
    (List.replicate count flap).flatten.foldl (fun ledger step => ledger.step step.1 step.2) (flapped 0) =
      flapped (UInt64.ofNat count) := by
  induction count with
  | zero => rfl
  | succ count ih =>
    have sum : UInt64.ofNat count + 1 = UInt64.ofNat (count + 1) := (UInt64.ofNat_add count 1).symm
    have room : UInt64.ofNat (count + 1) ≠ 0 := by
      intro zero
      have zero := congrArg UInt64.toNat zero
      rw [UInt64.toNat_ofNat_of_lt' few] at zero
      simp at zero
    have succ : next_epoch (UInt64.ofNat count) = UInt64.ofNat (count + 1) := by
      rw [next_epoch,sum,if_neg room]
    rw [List.replicate_succ',List.flatten_append,List.foldl_append,ih (by omega)]
    simp only [List.flatten_cons,List.flatten_nil,List.append_nil]
    rw [flap_run,succ]

theorem queues_eq {nbrs next : List Peer} (same : List.Forall₂ (fun nbr next => next.retrans_queue = nbr.retrans_queue) nbrs next) :
    next.map (·.retrans_queue) = nbrs.map (·.retrans_queue) := by
  induction same with
  | nil => rfl
  | cons head _ ih => rw [List.map_cons,List.map_cons,head,ih]

/-- The multicast is handed off in the last epoch, and the neighbor comes UP behind it. -/
def handed_last : List (Outcome × Event) := ({}, .multicast ⟨2,two_nonzero⟩) :: handshake_of 1 ⟨3,three_nonzero⟩

/-- Behind as many flaps as there are epochs a new neighbor receives a multicast from before its time. -/
theorem wrapped_not_fans_out : ¬ ∀ steps outcome, (ledger_run steps).owed.length = (run steps).multicast_pending.length ∧
    ∀ owed ∈ (ledger_run steps).owed.head?, (run steps).FansOut outcome owed := by
  intro fans_out
  have reached : ledger_run (({}, .create 1) :: ((List.replicate (2 ^ 64 - 1) flap).flatten ++ handed_last)) =
      handed_last.foldl (fun ledger step => ledger.step step.1 step.2) (flapped (UInt64.ofNat (2 ^ 64 - 1))) := by
    have created : Ledger.step {} {} (.create 1) = flapped 0 := rfl
    rw [ledger_run,List.foldl_cons,created,List.foldl_append,flaps_run (by norm_num)]
  obtain ⟨_,fans_out⟩ := fans_out (({}, .create 1) :: ((List.replicate (2 ^ 64 - 1) flap).flatten ++ handed_last)) {}
  rw [← ledger_run_ei,reached] at fans_out
  have none_owed := fans_out [] (by decide +kernel)
  obtain ⟨packet,_,queues⟩ := none_owed.admitted (by decide +kernel)
  have unchanged := queues_eq (queues.imp fun _ _ same => same.2)
  revert unchanged
  decide +kernel

end Eigrp.Rtp
