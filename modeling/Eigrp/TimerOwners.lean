import Eigrp.Timers
import Eigrp.Instance

/-!
# Owners of timers

Packets, prefix descriptors and neighbors own timers, and are destroyed on paths of their own (`eigrp_packet_free`,
`eigrp_topology_prefix_free`, `eigrp_nbr_delete`), which have to empty their slots. A slot is emptied only where the object still
leads to its instance. An object is known by a number that no later one gets. `eigrp_intf_free` leaves `t_distribute` linked.
-/

namespace Eigrp.Timers

/-! ## The owners -/

/-- The slots of `eigrp_nbr_t`. -/
inductive NbrTimer where
  | t_holddown
  | t_nbr_send_gr
  | t_sync
  | t_limit_restart
  | t_limit_reset
deriving DecidableEq, Repr

/-- The slots of `eigrp_intf_t`. -/
inductive IntfTimer where
  | t_hello
  | t_distribute
  | t_multicast_retry
deriving DecidableEq, Repr

/-- The slots of `eigrp_instance_t`. -/
inductive InstanceTimer where
  | t_distribute
  | t_pacing
  | t_pfxlimits_af_restart
  | t_pfxlimits_af_reset
  | t_redist_limit_restart
  | t_redist_limit_reset
deriving DecidableEq, Repr

/-- What an event can point back to: `t_retrans_timer` of a packet, `t_active` of a prefix descriptor, and the slots above. -/
inductive Owner where
  | packet (packet : Id)
  | destination (pe : Id)
  | nbr (nbr : Id) (timer : NbrTimer)
  | intf (ei : Id) (timer : IntfTimer)
  | runtime (timer : InstanceTimer)
deriving DecidableEq, Repr

/-- `eigrp_nbr_t`: `ei` tells whether it has an interface, which all but `neighbor_self` have; `retrans_queue` has the packet first
    that is sent next. -/
structure Nbr where
  ei : Bool
  published : Bool
  state : NbrState := .down
  retrans_queue : List Id := []
  sync_active : Bool := false
  sync_packet : Option Id := none
deriving DecidableEq, Repr

/-- An instance with the objects that own its timers: packets with their `nbr`, prefix descriptors with whether `active_eigrp` is
    set, and interfaces, which are freed but not forgotten. -/
structure Runtime where
  timers : Pending Owner
  packets : Id → Option (Option Id)
  nbrs : Id → Option Nbr
  descriptors : Id → Option Bool
  intfs : Id → Option Bool

/-- An instance before its thread runs. -/
def Runtime.initial (now : Clock) : Runtime where
  timers := { now, shutdown := false, thread_running := false, timer_head := [], slot := fun _ => none, linked := 0 }
  packets _ := none
  nbrs _ := none
  descriptors _ := none
  intfs _ := none

def Runtime.timer_cancel (eigrp : Runtime) (runtime : Bool) (owner : Owner) : Runtime :=
  { eigrp with timers := eigrp.timers.timer_cancel runtime owner }

def Runtime.nbr_update (eigrp : Runtime) (nbr : Id) (change : Nbr → Nbr) : Runtime :=
  { eigrp with nbrs := Function.update eigrp.nbrs nbr ((eigrp.nbrs nbr).map change) }

/-- `nbr->ei ? nbr->ei->eigrp : NULL`. -/
def Runtime.nbr_eigrp (eigrp : Runtime) (nbr : Id) : Bool := (eigrp.nbrs nbr).any Nbr.ei

/-- `eigrp_packet_free`. -/
def Runtime.packet_free (eigrp : Runtime) (packet : Id) : Runtime :=
  let nbr := (eigrp.packets packet).join
  let eigrp := eigrp.timer_cancel (nbr.any eigrp.nbr_eigrp) (.packet packet)
  { eigrp with packets := Function.update eigrp.packets packet none }

/-- The loop of `eigrp_packet_queue_clear` and `eigrp_packet_queue_free`, from the packet that was queued last. -/
def Runtime.packets_free (eigrp : Runtime) (queue : List Id) : Runtime := queue.reverse.foldl Runtime.packet_free eigrp

/-- `nbr->retrans_queue`. -/
def Runtime.retrans_queue (eigrp : Runtime) (nbr : Id) : List Id := ((eigrp.nbrs nbr).map Nbr.retrans_queue).getD []

/-- `eigrp_update_sync_cancel`. -/
def Runtime.update_sync_cancel (eigrp : Runtime) (nbr : Id) : Runtime :=
  let eigrp := eigrp.timer_cancel (eigrp.nbr_eigrp nbr) (.nbr nbr .t_sync)
  let eigrp :=
    match (eigrp.nbrs nbr).bind Nbr.sync_packet with
    | some sync_packet => eigrp.packet_free sync_packet
    | none => eigrp
  eigrp.nbr_update nbr fun nbr => { nbr with sync_packet := none, sync_active := false }

/-- `eigrp_nbr_state_update_reason` behind its test for suspended neighbors. -/
def Runtime.nbr_state_update (eigrp : Runtime) (nbr : Id) (state : NbrState) : Runtime :=
  let old_state := (eigrp.nbrs nbr).map Nbr.state
  let eigrp := if old_state = some .up ∧ state ≠ .up then eigrp.update_sync_cancel nbr else eigrp
  let eigrp := eigrp.nbr_update nbr fun nbr => { nbr with state }
  if state = .down then
    let eigrp := eigrp.timer_cancel (eigrp.nbr_eigrp nbr) (.nbr nbr .t_holddown)
    let eigrp := eigrp.packets_free (eigrp.retrans_queue nbr)
    eigrp.nbr_update nbr fun nbr => { nbr with retrans_queue := [] }
  else eigrp

/-- `eigrp_nbr_down_deferred`. -/
def Runtime.nbr_down_deferred (eigrp : Runtime) (nbr : Id) : Runtime :=
  let eigrp := eigrp.nbr_state_update nbr .down
  let eigrp := eigrp.update_sync_cancel nbr
  eigrp.timer_cancel (eigrp.nbr_eigrp nbr) (.nbr nbr .t_nbr_send_gr)

/-- `eigrp_nbr_limit_timers_cancel`. -/
def Runtime.nbr_limit_timers_cancel (eigrp : Runtime) (nbr : Id) : Runtime :=
  let eigrp := eigrp.timer_cancel (eigrp.nbr_eigrp nbr) (.nbr nbr .t_limit_restart)
  eigrp.timer_cancel (eigrp.nbr_eigrp nbr) (.nbr nbr .t_limit_reset)

/-- `eigrp_nbr_delete` up to the topology pass of `eigrp_nbr_down`. -/
def Runtime.nbr_unpublish (eigrp : Runtime) (nbr : Id) : Runtime :=
  ((eigrp.nbr_update nbr fun nbr => { nbr with published := false }).nbr_limit_timers_cancel nbr).nbr_down_deferred nbr

/-- `eigrp_nbr_delete` behind the topology pass. -/
def Runtime.nbr_free (eigrp : Runtime) (nbr : Id) : Runtime :=
  let eigrp := eigrp.packets_free (eigrp.retrans_queue nbr)
  { eigrp with nbrs := Function.update eigrp.nbrs nbr none }

/-! ## Calls -/

/-- What happens to the timers and their owners; `event` is what `calloc` returns where an event is armed. -/
inductive Call where
  | tick (clock : Clock)
  | thread_start
  | thread_stop
  | shutdown
  | due_dequeue
  | cancel_all
  | packet_create (packet : Id) (nbr : Option Id)
  | packet_enqueue (nbr packet : Id) (position : Nat)
  | packet_free (packet : Id)
  | packet_ack (nbr : Id)
  | retransmit_timer_start (nbr : Id) (rto_msec : UInt32) (event : Option Id)
  | allocation_retry (nbr : Id) (event : Option Id)
  | nbr_create (nbr : Id) (ei : Bool)
  | nbr_state_update (nbr : Id) (state : NbrState)
  | nbr_holddown_update (nbr : Id) (eligible : Bool) (v_holddown : UInt16) (event : Option Id)
  | update_send_EOT (nbr : Id) (packet : Option Id)
  | sync_packet_create (nbr packet : Id)
  | sync_packet_queue (nbr : Id) (finished : Bool)
  | update_sync_retry (nbr : Id) (delay_msec : UInt32) (event : Option Id)
  | update_send_GR (nbr : Id) (delay_msec : UInt32) (event : Option Id)
  | nbr_limit_timer_arm (nbr : Id) (reset : Bool) (delta : UInt32) (event : Option Id)
  | nbr_limit_timers_cancel (nbr : Id)
  | nbr_down_deferred (nbr : Id)
  | nbr_unpublish (nbr : Id)
  | nbr_free (nbr : Id)
  | prefix_create (pe : Id)
  | fsm_active_timer_start (pe : Id) (active_time : UInt16) (event : Option Id)
  | fsm_active_timer_again (pe : Id) (active_time : UInt16) (event : Option Id)
  | fsm_active_timer_stop (pe : Id)
  | topology_prefix_free (pe : Id)
  | intf_create (ei : Id)
  | intf_timer_add (ei : Id) (timer : IntfTimer) (delay_msec : UInt32) (event : Option Id)
  | intf_timer_cancel (ei : Id) (timer : IntfTimer)
  | intf_free (ei : Id)
  | runtime_timer_add (timer : InstanceTimer) (delay_msec : UInt32) (event : Option Id)
  | runtime_timer_cancel (timer : InstanceTimer)

/-- `eigrp_timer_add` for an object that exists; `calloc` returns no event that is linked. -/
def Runtime.timer_add (eigrp : Runtime) (owner : Owner) (delay_msec : UInt32) (event : Option Id) : Option Runtime :=
  if event.all fun id => (eigrp.timers.timer_cancel true owner).timer_head.all fun link => link.id ≠ id then
    some { eigrp with timers := eigrp.timers.timer_add true owner delay_msec event }
  else none

/-- The timers of a neighbor are armed for peers that are found in `ei->nbrs` or are called back. -/
def Runtime.nbr_timer_add (eigrp : Runtime) (nbr : Id) (timer : NbrTimer) (delay_msec : UInt32) (event : Option Id) : Option Runtime :=
  if (eigrp.nbrs nbr).any fun nbr => nbr.ei && nbr.published then eigrp.timer_add (.nbr nbr timer) delay_msec event else none

/-- `&nbr->retrans_queue->tail->t_retrans_timer`, where the queue is not empty. -/
def Runtime.retransmit_timer_start (eigrp : Runtime) (nbr : Id) (delay_msec : UInt32) (event : Option Id) : Option Runtime :=
  if eigrp.nbr_eigrp nbr then
    match (eigrp.retrans_queue nbr).head? with
    | some packet => eigrp.timer_add (.packet packet) delay_msec event
    | none => some eigrp
  else none

/-- A packet that nobody holds but the caller. -/
def Runtime.loose (eigrp : Runtime) (packet : Id) : Bool :=
  match eigrp.packets packet with
  | none => false
  | some none => true
  | some (some nbr) =>
    (eigrp.nbrs nbr).all fun nbr => decide (packet ∉ nbr.retrans_queue) && decide (nbr.sync_packet ≠ some packet)

/-- `eigrp_packet_create` for a neighbor that exists. -/
def Runtime.packet_create (eigrp : Runtime) (packet : Id) (nbr : Option Id) : Option Runtime :=
  if (eigrp.packets packet).isNone && nbr.all fun nbr => (eigrp.nbrs nbr).isSome then
    some { eigrp with packets := Function.update eigrp.packets packet (some nbr) }
  else none

/-- A call on the instance, where the objects it is about exist. -/
def exec (eigrp : Runtime) : Call → Option Runtime
  | .tick clock => if eigrp.timers.now.msec ≤ clock.msec then some { eigrp with timers.now := clock } else none
  | .thread_start => some { eigrp with timers.thread_running := true }
  | .thread_stop => some { eigrp with timers.thread_running := false }
  | .shutdown => some { eigrp with timers.shutdown := true }
  | .due_dequeue => some { eigrp with timers := eigrp.timers.timer_due_dequeue.2 }
  | .cancel_all => some { eigrp with timers := eigrp.timers.timer_cancel_all }
  | .packet_create packet nbr => eigrp.packet_create packet nbr
  | .packet_enqueue nbr packet position =>
    if eigrp.packets packet = some (some nbr) ∧ eigrp.loose packet then
      some (eigrp.nbr_update nbr fun nbr => { nbr with retrans_queue := nbr.retrans_queue.take position ++ packet :: nbr.retrans_queue.drop position })
    else none
  | .packet_free packet => if eigrp.loose packet then some (eigrp.packet_free packet) else none
  | .packet_ack nbr =>
    match eigrp.retrans_queue nbr with
    | packet :: rest => some ((eigrp.nbr_update nbr fun nbr => { nbr with retrans_queue := rest }).packet_free packet)
    | [] => some eigrp
  | .retransmit_timer_start nbr rto_msec event => eigrp.retransmit_timer_start nbr rto_msec event
  | .allocation_retry nbr event => eigrp.retransmit_timer_start nbr 250 event
  | .nbr_create nbr ei =>
    if (eigrp.nbrs nbr).isNone then some { eigrp with nbrs := Function.update eigrp.nbrs nbr (some { ei, published := ei }) } else none
  | .nbr_state_update nbr state => some (eigrp.nbr_state_update nbr state)
  | .nbr_holddown_update nbr eligible v_holddown event =>
    let cancelled := eigrp.timer_cancel (eigrp.nbr_eigrp nbr) (.nbr nbr .t_holddown)
    if !eligible || (eigrp.nbrs nbr).all fun nbr => nbr.state = .down then some cancelled
    else cancelled.nbr_timer_add nbr .t_holddown (v_holddown.toUInt32 * 1000) event
  | .update_send_EOT nbr packet =>
    if (eigrp.nbrs nbr).any fun nbr => nbr.ei && nbr.published then
      let eigrp := eigrp.update_sync_cancel nbr
      let eigrp := eigrp.nbr_update nbr fun nbr => { nbr with sync_active := true }
      match packet with
      | none => some eigrp
      | some packet =>
        (eigrp.packet_create packet (some nbr)).map fun eigrp => eigrp.nbr_update nbr fun nbr => { nbr with sync_packet := some packet }
    else none
  | .sync_packet_create nbr packet =>
    if (eigrp.nbrs nbr).any fun nbr => nbr.ei && nbr.sync_active && nbr.sync_packet.isNone then
      (eigrp.packet_create packet (some nbr)).map fun eigrp => eigrp.nbr_update nbr fun nbr => { nbr with sync_packet := some packet }
    else none
  | .sync_packet_queue nbr finished =>
    some (eigrp.nbr_update nbr fun nbr =>
      { nbr with
        retrans_queue := nbr.retrans_queue ++ nbr.sync_packet.toList, sync_packet := none, sync_active := nbr.sync_active && !finished })
  | .update_sync_retry nbr delay_msec event =>
    if (eigrp.nbrs nbr).any Nbr.sync_active then eigrp.nbr_timer_add nbr .t_sync delay_msec event else none
  | .update_send_GR nbr delay_msec event => eigrp.nbr_timer_add nbr .t_nbr_send_gr delay_msec event
  | .nbr_limit_timer_arm nbr reset delta event =>
    eigrp.nbr_timer_add nbr (if reset then .t_limit_reset else .t_limit_restart) delta event
  | .nbr_limit_timers_cancel nbr => some (eigrp.nbr_limit_timers_cancel nbr)
  | .nbr_down_deferred nbr => some (eigrp.nbr_down_deferred nbr)
  | .nbr_unpublish nbr => some (eigrp.nbr_unpublish nbr)
  | .nbr_free nbr => if (eigrp.nbrs nbr).any fun nbr => !nbr.published then some (eigrp.nbr_free nbr) else none
  | .prefix_create pe =>
    if (eigrp.descriptors pe).isNone then some { eigrp with descriptors := Function.update eigrp.descriptors pe (some false) } else none
  | .fsm_active_timer_start pe active_time event =>
    if (eigrp.descriptors pe).isNone then none
    else if active_time = 0 then some eigrp
    else
      let eigrp := { eigrp with descriptors := Function.update eigrp.descriptors pe (some true) }
      (eigrp.timer_cancel true (.destination pe)).timer_add (.destination pe) (active_time.toUInt32 * 500) event
  | .fsm_active_timer_again pe active_time event =>
    if eigrp.descriptors pe = some true then
      if active_time = 0 then some eigrp else eigrp.timer_add (.destination pe) (active_time.toUInt32 * 500) event
    else none
  | .fsm_active_timer_stop pe =>
    match eigrp.descriptors pe with
    | none => none
    | some active_eigrp =>
      some { eigrp.timer_cancel active_eigrp (.destination pe) with descriptors := Function.update eigrp.descriptors pe (some false) }
  | .topology_prefix_free pe =>
    match eigrp.descriptors pe with
    | none => none
    | some active_eigrp =>
      some { eigrp.timer_cancel active_eigrp (.destination pe) with descriptors := Function.update eigrp.descriptors pe none }
  | .intf_create ei =>
    if (eigrp.intfs ei).isNone then some { eigrp with intfs := Function.update eigrp.intfs ei (some true) } else none
  | .intf_timer_add ei timer delay_msec event =>
    if eigrp.intfs ei = some true then eigrp.timer_add (.intf ei timer) delay_msec event else none
  | .intf_timer_cancel ei timer => if eigrp.intfs ei = some true then some (eigrp.timer_cancel true (.intf ei timer)) else none
  | .intf_free ei =>
    -- `eigrp_intf_down` cancels two of the three timers
    if eigrp.intfs ei = some true then
      let eigrp := (eigrp.timer_cancel true (.intf ei .t_multicast_retry)).timer_cancel true (.intf ei .t_hello)
      some { eigrp with intfs := Function.update eigrp.intfs ei (some false) }
    else none
  | .runtime_timer_add timer delay_msec event => eigrp.timer_add (.runtime timer) delay_msec event
  | .runtime_timer_cancel timer => some (eigrp.timer_cancel true (.runtime timer))

/-- The events whose callbacks a call lets run, with the clock. -/
def fires (eigrp : Runtime) : Call → List (TimerEvent Owner × Clock)
  | .due_dequeue => eigrp.timers.timer_due_dequeue.1.toList.map fun event => (event, eigrp.timers.now)
  | _ => []

/-- Every sequence of calls, with the events whose callbacks have run. -/
inductive Run (now : Clock) : Runtime → List (TimerEvent Owner × Clock) → Prop where
  | start : Run now (Runtime.initial now) []
  | call {eigrp after : Runtime} {fired : List (TimerEvent Owner × Clock)} (run : Run now eigrp fired) (call : Call)
      (completes : exec eigrp call = some after) : Run now after (fired ++ fires eigrp call)

/-! ## What the slots say about their owners -/

/-- What holds of the timers and their owners also within a call: who has a slot in use can be asked for the instance, so that the
    slot is emptied when it is destroyed. -/
structure Sound (eigrp : Runtime) : Prop where
  timers : Disciplined eigrp.timers
  packet (packet : Id) : eigrp.timers.slot (.packet packet) ≠ none →
    ∃ nbr it, eigrp.packets packet = some (some nbr) ∧ eigrp.nbrs nbr = some it ∧ it.ei = true ∧ packet ∈ it.retrans_queue
  nbr (nbr : Id) (timer : NbrTimer) : eigrp.timers.slot (.nbr nbr timer) ≠ none → ∃ it, eigrp.nbrs nbr = some it ∧ it.ei = true
  active (pe : Id) : eigrp.timers.slot (.destination pe) ≠ none → eigrp.descriptors pe = some true
  queued {nbr : Id} {it : Nbr} : eigrp.nbrs nbr = some it → ∀ packet ∈ it.retrans_queue, eigrp.packets packet = some (some nbr)
  single {nbr : Id} {it : Nbr} : eigrp.nbrs nbr = some it → it.retrans_queue.Nodup
  synced {nbr : Id} {it : Nbr} : eigrp.nbrs nbr = some it → ∀ packet, it.sync_packet = some packet →
    eigrp.packets packet = some (some nbr) ∧ packet ∉ it.retrans_queue

/-- A neighbor before and after packets were freed. -/
structure Nbr.Keeps (freed : List Id) (nbr after : Nbr) : Prop where
  ei : after.ei = nbr.ei
  queue : after.retrans_queue.Sublist nbr.retrans_queue
  unfreed (packet : Id) : packet ∈ after.retrans_queue → packet ∉ freed
  kept (packet : Id) : packet ∈ nbr.retrans_queue → packet ∉ freed → packet ∈ after.retrans_queue
  synced (packet : Id) : after.sync_packet = some packet → nbr.sync_packet = some packet ∧ packet ∉ freed

/-- Packets are freed, slots are emptied, and neighbors lose what is freed. -/
structure Drops (eigrp after : Runtime) (freed : List Id) : Prop where
  disciplined : Disciplined after.timers
  fewer : Fewer eigrp.timers after.timers
  packets (packet : Id) : after.packets packet = if packet ∈ freed then none else eigrp.packets packet
  cancelled (packet : Id) : packet ∈ freed → after.timers.slot (.packet packet) = none
  nbrs (nbr : Id) : Option.Rel (Nbr.Keeps freed) (eigrp.nbrs nbr) (after.nbrs nbr)
  descriptors : after.descriptors = eigrp.descriptors

section Sound
variable {eigrp after : Runtime}

theorem Fewer.none_of_none {Owner : Type} {timers after : Pending Owner} (fewer : Fewer timers after) {owner : Owner}
    (empty : timers.slot owner = none) : after.slot owner = none := by
  cases named : after.slot owner with
  | none => rfl
  | some event =>
    have before := fewer.slot owner event named
    rw [empty] at before
    cases before

theorem Fewer.some_of_some {Owner : Type} {timers after : Pending Owner} (fewer : Fewer timers after) {owner : Owner}
    (used : after.slot owner ≠ none) : timers.slot owner ≠ none := fun empty => used (fewer.none_of_none empty)

theorem Drops.after_of_nbr {freed : List Id} (drops : Drops eigrp after freed) {nbr : Id} {it : Nbr} (here : eigrp.nbrs nbr = some it) :
    ∃ next, after.nbrs nbr = some next ∧ it.Keeps freed next := by
  have related := drops.nbrs nbr
  rw [here] at related
  cases next : after.nbrs nbr with
  | none =>
    rw [next] at related
    cases related
  | some kept =>
    rw [next] at related
    cases related with
    | some keeps => exact ⟨kept,rfl,keeps⟩

theorem Drops.before_of_nbr {freed : List Id} (drops : Drops eigrp after freed) {nbr : Id} {it : Nbr} (here : after.nbrs nbr = some it) :
    ∃ before, eigrp.nbrs nbr = some before ∧ before.Keeps freed it := by
  have related := drops.nbrs nbr
  rw [here] at related
  cases earlier : eigrp.nbrs nbr with
  | none =>
    rw [earlier] at related
    cases related
  | some before =>
    rw [earlier] at related
    cases related with
    | some keeps => exact ⟨before,rfl,keeps⟩

theorem Drops.sound {freed : List Id} (drops : Drops eigrp after freed) (good : Sound eigrp) : Sound after where
  timers := drops.disciplined
  packet packet used := by
    have unfreed : packet ∉ freed := fun member => used (drops.cancelled packet member)
    obtain ⟨nbr,it,named,here,ei,queued⟩ := good.packet packet (drops.fewer.some_of_some used)
    obtain ⟨next,there,keeps⟩ := drops.after_of_nbr here
    exact ⟨nbr,next,by rw [drops.packets,if_neg unfreed,named],there,keeps.ei.trans ei,keeps.kept packet queued unfreed⟩
  nbr nbr timer used := by
    obtain ⟨it,here,ei⟩ := good.nbr nbr timer (drops.fewer.some_of_some used)
    obtain ⟨next,there,keeps⟩ := drops.after_of_nbr here
    exact ⟨next,there,keeps.ei.trans ei⟩
  active pe used := by
    rw [drops.descriptors]
    exact good.active pe (drops.fewer.some_of_some used)
  queued {nbr it} there packet member := by
    obtain ⟨before,here,keeps⟩ := drops.before_of_nbr there
    rw [drops.packets,if_neg (keeps.unfreed packet member)]
    exact good.queued here packet (keeps.queue.subset member)
  single {nbr it} there := by
    obtain ⟨before,here,keeps⟩ := drops.before_of_nbr there
    exact (good.single here).sublist keeps.queue
  synced {nbr it} there packet sync := by
    obtain ⟨before,here,keeps⟩ := drops.before_of_nbr there
    obtain ⟨earlier,unfreed⟩ := keeps.synced packet sync
    obtain ⟨named,apart⟩ := good.synced here packet earlier
    exact ⟨by rw [drops.packets,if_neg unfreed,named],fun member => apart (keeps.queue.subset member)⟩

theorem Nbr.Keeps.refl (nbr : Nbr) : nbr.Keeps [] nbr :=
  ⟨rfl,List.Sublist.refl _,fun _ _ freed => (List.not_mem_nil freed),fun _ member _ => member,fun _ sync => ⟨sync,List.not_mem_nil⟩⟩

/-- A neighbor that has none of the freed packets. -/
theorem Nbr.Keeps.of_apart {freed : List Id} {nbr : Nbr} (queue : ∀ packet ∈ nbr.retrans_queue, packet ∉ freed)
    (sync : ∀ packet, nbr.sync_packet = some packet → packet ∉ freed) : nbr.Keeps freed nbr :=
  ⟨rfl,List.Sublist.refl _,queue,fun _ member _ => member,fun packet held => ⟨held,sync packet held⟩⟩

theorem rel_some {freed : List Id} {before next : Option Nbr} (keeps : ∀ it : Nbr, before = some it → ∃ kept, next = some kept ∧ it.Keeps freed kept)
    (none_kept : before = none → next = none) : Option.Rel (Nbr.Keeps freed) before next := by
  cases before with
  | none =>
    rw [none_kept rfl]
    exact .none
  | some it =>
    obtain ⟨kept,rfl,related⟩ := keeps it rfl
    exact .some related

theorem rel_refl (nbrs : Option Nbr) : Option.Rel (Nbr.Keeps []) nbrs nbrs :=
  rel_some (fun it here => ⟨it,here,Nbr.Keeps.refl it⟩) fun empty => empty

/-- Cancelling frees no packet. -/
theorem Sound.cancel_drops (good : Sound eigrp) (runtime : Bool) (owner : Owner) : Drops eigrp (eigrp.timer_cancel runtime owner) [] where
  disciplined := good.timers.timer_cancel runtime owner
  fewer := timer_cancel_fewer eigrp.timers runtime owner
  packets _ := (if_neg List.not_mem_nil).symm
  cancelled _ member := absurd member List.not_mem_nil
  nbrs _ := rel_refl _
  descriptors := rfl

/-- An update of a neighbor that keeps its queue. -/
theorem Sound.update_drops (good : Sound eigrp) (nbr : Id) {change : Nbr → Nbr} (keeps : ∀ it : Nbr, it.Keeps [] (change it)) :
    Drops eigrp (eigrp.nbr_update nbr change) [] where
  disciplined := good.timers
  fewer := Fewer.refl _
  packets _ := (if_neg List.not_mem_nil).symm
  cancelled _ member := absurd member List.not_mem_nil
  nbrs other := by
    simp only [Runtime.nbr_update,Function.update_apply]
    split
    · rename_i same
      subst same
      exact rel_some (fun it here => ⟨change it,by rw [here]; rfl,keeps it⟩) fun empty => by rw [empty]; rfl
    · exact rel_refl _
  descriptors := rfl

/-- Whose slot is in use can be asked for the instance. -/
theorem Sound.armed (good : Sound eigrp) {packet : Id} (used : eigrp.timers.slot (.packet packet) ≠ none) :
    (eigrp.packets packet).join.any eigrp.nbr_eigrp = true := by
  obtain ⟨nbr,it,named,here,ei,_⟩ := good.packet packet used
  rw [named]
  change eigrp.nbr_eigrp nbr = true
  rw [Runtime.nbr_eigrp,here]
  exact ei

/-- What freeing packets does to everything but the neighbors. -/
structure Frees (eigrp after : Runtime) (freed : List Id) : Prop where
  disciplined : Disciplined eigrp.timers → Disciplined after.timers
  fewer : Fewer eigrp.timers after.timers
  packets (packet : Id) : after.packets packet = if packet ∈ freed then none else eigrp.packets packet
  cancelled : (∀ packet, eigrp.timers.slot (.packet packet) ≠ none → (eigrp.packets packet).join.any eigrp.nbr_eigrp = true) →
    ∀ packet ∈ freed, after.timers.slot (.packet packet) = none
  nbrs : after.nbrs = eigrp.nbrs
  descriptors : after.descriptors = eigrp.descriptors
  intfs : after.intfs = eigrp.intfs

theorem packet_free_frees (eigrp : Runtime) (packet : Id) : Frees eigrp (eigrp.packet_free packet) [packet] where
  disciplined good := good.timer_cancel _ _
  fewer := timer_cancel_fewer _ _ _
  packets other := by
    simp only [Runtime.packet_free,Function.update_apply,List.mem_singleton]
    rfl
  cancelled armed other member := by
    rw [List.mem_singleton] at member
    subst member
    by_cases used : eigrp.timers.slot (.packet other) = none
    · exact (timer_cancel_fewer _ _ _).none_of_none used
    · change (eigrp.timers.timer_cancel _ _).slot _ = none
      rw [armed other used,timer_cancel_slot,Function.update_self]
  nbrs := rfl
  descriptors := rfl
  intfs := rfl

theorem Frees.trans {middle : Runtime} {first second : List Id} (one : Frees eigrp middle first) (two : Frees middle after second) :
    Frees eigrp after (first ++ second) where
  disciplined good := two.disciplined (one.disciplined good)
  fewer := one.fewer.trans two.fewer
  packets packet := by
    rw [two.packets,one.packets]
    by_cases early : packet ∈ first <;> by_cases late : packet ∈ second <;> simp [early,late]
  cancelled armed packet member := by
    rcases List.mem_append.1 member with early | late
    · exact two.fewer.none_of_none (one.cancelled armed packet early)
    · refine two.cancelled (fun other used => ?_) packet late
      have before := armed other (one.fewer.some_of_some used)
      have unfreed : other ∉ first := fun freed => used (one.cancelled armed other freed)
      rw [one.packets,if_neg unfreed]
      have same : middle.nbr_eigrp = eigrp.nbr_eigrp := by
        funext nbr
        rw [Runtime.nbr_eigrp,Runtime.nbr_eigrp,one.nbrs]
      rwa [same]
  nbrs := two.nbrs.trans one.nbrs
  descriptors := two.descriptors.trans one.descriptors
  intfs := two.intfs.trans one.intfs

theorem Frees.refl (eigrp : Runtime) : Frees eigrp eigrp [] :=
  ⟨fun good => good,Fewer.refl _,fun _ => (if_neg List.not_mem_nil).symm,fun _ _ member => absurd member List.not_mem_nil,rfl,rfl,rfl⟩

theorem foldl_packet_free (queue : List Id) (eigrp : Runtime) : Frees eigrp (queue.foldl Runtime.packet_free eigrp) queue := by
  induction queue generalizing eigrp with
  | nil => exact Frees.refl eigrp
  | cons packet rest ih => exact (packet_free_frees eigrp packet).trans (ih (eigrp.packet_free packet))

theorem packets_free_frees (eigrp : Runtime) (queue : List Id) : Frees eigrp (eigrp.packets_free queue) queue.reverse :=
  foldl_packet_free queue.reverse eigrp

/-- Whose packets are freed loses them, and nobody else has them. -/
theorem Sound.frees_drops {middle : Runtime} {freed : List Id} (good : Sound eigrp) (frees : Frees eigrp middle freed) (nbr : Id)
    {change : Nbr → Nbr} (owned : ∀ packet ∈ freed, eigrp.packets packet = some (some nbr))
    (keeps : ∀ it, eigrp.nbrs nbr = some it → it.Keeps freed (change it)) : Drops eigrp (middle.nbr_update nbr change) freed where
  disciplined := frees.disciplined good.timers
  fewer := frees.fewer
  packets := frees.packets
  cancelled packet member := frees.cancelled (fun _ used => good.armed used) packet member
  nbrs other := by
    simp only [Runtime.nbr_update,Function.update_apply,frees.nbrs]
    split
    · rename_i same
      subst same
      exact rel_some (fun it here => ⟨change it,by rw [here]; rfl,keeps it here⟩) fun empty => by rw [empty]; rfl
    · rename_i elsewhere
      refine rel_some (fun it here => ⟨it,here,Nbr.Keeps.of_apart (fun packet queued member => ?_) fun packet sync member => ?_⟩) fun empty => empty
      · have other_owner := good.queued here packet queued
        rw [owned packet member] at other_owner
        exact elsewhere (Option.some.inj (Option.some.inj other_owner)).symm
      · have other_owner := (good.synced here packet sync).1
        rw [owned packet member] at other_owner
        exact elsewhere (Option.some.inj (Option.some.inj other_owner)).symm
  descriptors := frees.descriptors

/-- A call that arms nothing, makes no neighbor and destroys none. -/
structure Winds (eigrp after : Runtime) : Prop where
  sound : Sound after
  fewer : Fewer eigrp.timers after.timers
  kept (nbr : Id) : (after.nbrs nbr).map (fun it => (it.ei, it.published)) = (eigrp.nbrs nbr).map fun it => (it.ei, it.published)

theorem Winds.trans {middle : Runtime} (one : Winds eigrp middle) (two : Winds middle after) : Winds eigrp after :=
  ⟨two.sound,one.fewer.trans two.fewer,fun nbr => (two.kept nbr).trans (one.kept nbr)⟩

theorem Sound.winds_refl (good : Sound eigrp) : Winds eigrp eigrp := ⟨good,Fewer.refl _,fun _ => rfl⟩

theorem Sound.cancel_winds (good : Sound eigrp) (runtime : Bool) (owner : Owner) : Winds eigrp (eigrp.timer_cancel runtime owner) :=
  ⟨(good.cancel_drops runtime owner).sound good,timer_cancel_fewer _ _ _,fun _ => rfl⟩

/-- A slot of a neighbor is empty behind `eigrp_timer_cancel` with the instance of the neighbor, also where it has none. -/
theorem Sound.cancel_nbr_slot (good : Sound eigrp) (nbr : Id) (timer : NbrTimer) :
    (eigrp.timer_cancel (eigrp.nbr_eigrp nbr) (.nbr nbr timer)).timers.slot (.nbr nbr timer) = none := by
  by_cases used : eigrp.timers.slot (.nbr nbr timer) = none
  · exact (timer_cancel_fewer _ _ _).none_of_none used
  · obtain ⟨it,here,ei⟩ := good.nbr nbr timer used
    have asked : eigrp.nbr_eigrp nbr = true := by
      rw [Runtime.nbr_eigrp,here]
      exact ei
    rw [asked]
    change (eigrp.timers.timer_cancel _ _).slot _ = none
    rw [timer_cancel_slot,Function.update_self]

theorem update_kept (nbrs : Id → Option Nbr) (nbr : Id) {change : Nbr → Nbr}
    (same : ∀ it, (change it).ei = it.ei ∧ (change it).published = it.published) (other : Id) :
    (Function.update nbrs nbr ((nbrs nbr).map change) other).map (fun it => (it.ei, it.published)) =
      (nbrs other).map fun it => (it.ei, it.published) := by
  rw [Function.update_apply]
  split
  · rename_i here
    subst here
    cases nbrs other with
    | none => rfl
    | some it => simp [same it]
  · rfl

theorem Sound.update_winds (good : Sound eigrp) (nbr : Id) {change : Nbr → Nbr} (keeps : ∀ it : Nbr, it.Keeps [] (change it))
    (published : ∀ it, (change it).published = it.published) : Winds eigrp (eigrp.nbr_update nbr change) :=
  ⟨(good.update_drops nbr keeps).sound good,Fewer.refl _,update_kept eigrp.nbrs nbr fun it => ⟨(keeps it).ei,published it⟩⟩

theorem Sound.frees_winds {middle : Runtime} {freed : List Id} (good : Sound eigrp) (frees : Frees eigrp middle freed) (nbr : Id)
    {change : Nbr → Nbr} (owned : ∀ packet ∈ freed, eigrp.packets packet = some (some nbr))
    (keeps : ∀ it, eigrp.nbrs nbr = some it → it.Keeps freed (change it))
    (same : ∀ it, (change it).ei = it.ei ∧ (change it).published = it.published) : Winds eigrp (middle.nbr_update nbr change) := by
  refine ⟨(good.frees_drops frees nbr owned keeps).sound good,frees.fewer,fun other => ?_⟩
  change (Function.update middle.nbrs nbr ((middle.nbrs nbr).map change) other).map _ = _
  rw [frees.nbrs]
  exact update_kept eigrp.nbrs nbr same other

/-- The state of a neighbor and whether it is synchronised do not matter to the timers. -/
theorem Nbr.Keeps.status (nbr : Nbr) (state : NbrState) (sync_active published : Bool) :
    nbr.Keeps [] { nbr with state, sync_active, published } :=
  ⟨rfl,List.Sublist.refl _,fun _ _ => List.not_mem_nil,fun _ member _ => member,fun _ sync => ⟨sync,List.not_mem_nil⟩⟩

theorem Sound.update_sync_cancel (good : Sound eigrp) (nbr : Id) :
    Winds eigrp (eigrp.update_sync_cancel nbr) ∧ (eigrp.update_sync_cancel nbr).timers.slot (.nbr nbr .t_sync) = none := by
  have first := good.cancel_winds (eigrp.nbr_eigrp nbr) (.nbr nbr .t_sync)
  have empty := good.cancel_nbr_slot nbr .t_sync
  unfold Runtime.update_sync_cancel
  generalize eigrp.timer_cancel (eigrp.nbr_eigrp nbr) (.nbr nbr .t_sync) = cancelled at first empty ⊢
  have second : Winds cancelled
      (Runtime.nbr_update
        (match (cancelled.nbrs nbr).bind Nbr.sync_packet with
          | some sync_packet => cancelled.packet_free sync_packet
          | none => cancelled)
        nbr fun nbr => { nbr with sync_packet := none, sync_active := false }) := by
    cases sync : (cancelled.nbrs nbr).bind Nbr.sync_packet with
    | none =>
      exact first.sound.frees_winds (Frees.refl cancelled) nbr (fun _ member => absurd member List.not_mem_nil)
        (fun it _ => ⟨rfl,List.Sublist.refl _,fun _ _ => List.not_mem_nil,fun _ member _ => member,fun _ held => by cases held⟩)
        fun _ => ⟨rfl,rfl⟩
    | some sync_packet =>
      obtain ⟨it,here,held⟩ := Option.bind_eq_some_iff.1 sync
      obtain ⟨named,apart⟩ := first.sound.synced here sync_packet held
      refine first.sound.frees_winds (packet_free_frees cancelled sync_packet) nbr (fun packet member => ?_) (fun it' here' => ?_)
        fun _ => ⟨rfl,rfl⟩
      · rw [List.mem_singleton.1 member,named]
      · rw [here] at here'
        injection here' with same
        subst same
        refine ⟨rfl,List.Sublist.refl _,fun packet member freed => ?_,fun _ member _ => member,fun _ held => by cases held⟩
        rw [List.mem_singleton.1 freed] at member
        exact apart member
  exact ⟨first.trans second,second.fewer.none_of_none empty⟩

/-- The queue of a neighbor is freed with its packets. -/
theorem Sound.queue_clear (good : Sound eigrp) (nbr : Id) :
    Winds eigrp ((eigrp.packets_free (eigrp.retrans_queue nbr)).nbr_update nbr fun nbr => { nbr with retrans_queue := [] }) := by
  have members (packet : Id) (member : packet ∈ (eigrp.retrans_queue nbr).reverse) :
      ∃ it, eigrp.nbrs nbr = some it ∧ packet ∈ it.retrans_queue := by
    rw [List.mem_reverse,Runtime.retrans_queue] at member
    cases here : eigrp.nbrs nbr with
    | none =>
      rw [here] at member
      cases member
    | some it =>
      rw [here] at member
      exact ⟨it,rfl,member⟩
  refine good.frees_winds (packets_free_frees eigrp (eigrp.retrans_queue nbr)) nbr (fun packet member => ?_) (fun it here => ?_)
    fun _ => ⟨rfl,rfl⟩
  · obtain ⟨it,here,queued⟩ := members packet member
    exact good.queued here packet queued
  · refine ⟨rfl,List.nil_sublist _,fun _ member => absurd member List.not_mem_nil,fun packet queued unfreed => ?_,
      fun packet sync => ⟨sync,fun member => ?_⟩⟩
    · refine absurd (List.mem_reverse.2 ?_) unfreed
      rw [Runtime.retrans_queue,here]
      exact queued
    · obtain ⟨same,also,queued⟩ := members packet member
      rw [here] at also
      injection also with equal
      subst equal
      exact (good.synced here packet sync).2 queued

theorem Sound.nbr_state_update (good : Sound eigrp) (nbr : Id) (state : NbrState) :
    Winds eigrp (eigrp.nbr_state_update nbr state) ∧
      (state = .down → (eigrp.nbr_state_update nbr state).timers.slot (.nbr nbr .t_holddown) = none) := by
  unfold Runtime.nbr_state_update
  dsimp only
  generalize (eigrp.nbrs nbr).map Nbr.state = old_state
  have first : Winds eigrp (if old_state = some .up ∧ state ≠ .up then eigrp.update_sync_cancel nbr else eigrp) := by
    split
    · exact (good.update_sync_cancel nbr).1
    · exact good.winds_refl
  generalize (if old_state = some .up ∧ state ≠ .up then eigrp.update_sync_cancel nbr else eigrp) = cancelled at first ⊢
  have second := first.trans (first.sound.update_winds nbr (fun it => Nbr.Keeps.status it state it.sync_active it.published) fun _ => rfl)
  change Winds eigrp (cancelled.nbr_update nbr fun nbr => { nbr with state }) at second
  generalize (cancelled.nbr_update nbr fun nbr => { nbr with state }) = updated at second ⊢
  split
  · have third := second.sound.cancel_winds (updated.nbr_eigrp nbr) (.nbr nbr .t_holddown)
    have empty := second.sound.cancel_nbr_slot nbr .t_holddown
    have fourth := third.sound.queue_clear nbr
    exact ⟨second.trans (third.trans fourth),fun _ => fourth.fewer.none_of_none empty⟩
  · rename_i alive
    exact ⟨second,fun down => absurd down alive⟩

theorem Sound.nbr_down_deferred (good : Sound eigrp) (nbr : Id) :
    Winds eigrp (eigrp.nbr_down_deferred nbr) ∧
      ∀ timer ∈ [NbrTimer.t_holddown, .t_sync, .t_nbr_send_gr], (eigrp.nbr_down_deferred nbr).timers.slot (.nbr nbr timer) = none := by
  obtain ⟨first,hold⟩ := good.nbr_state_update nbr .down
  obtain ⟨second,sync⟩ := first.sound.update_sync_cancel nbr
  have third := second.sound.cancel_winds (((eigrp.nbr_state_update nbr .down).update_sync_cancel nbr).nbr_eigrp nbr) (.nbr nbr .t_nbr_send_gr)
  have gr := second.sound.cancel_nbr_slot nbr .t_nbr_send_gr
  refine ⟨first.trans (second.trans third),fun timer member => ?_⟩
  simp only [List.mem_cons,List.not_mem_nil,or_false] at member
  rcases member with rfl | rfl | rfl
  · exact third.fewer.none_of_none (second.fewer.none_of_none (hold rfl))
  · exact third.fewer.none_of_none sync
  · exact gr

theorem Sound.nbr_limit_timers_cancel (good : Sound eigrp) (nbr : Id) :
    Winds eigrp (eigrp.nbr_limit_timers_cancel nbr) ∧
      ∀ timer ∈ [NbrTimer.t_limit_restart, .t_limit_reset],
        (eigrp.nbr_limit_timers_cancel nbr).timers.slot (.nbr nbr timer) = none := by
  have first := good.cancel_winds (eigrp.nbr_eigrp nbr) (.nbr nbr .t_limit_restart)
  have restart := good.cancel_nbr_slot nbr .t_limit_restart
  have second := first.sound.cancel_winds
    ((eigrp.timer_cancel (eigrp.nbr_eigrp nbr) (.nbr nbr .t_limit_restart)).nbr_eigrp nbr) (.nbr nbr .t_limit_reset)
  have reset := first.sound.cancel_nbr_slot nbr .t_limit_reset
  refine ⟨first.trans second,fun timer member => ?_⟩
  simp only [List.mem_cons,List.not_mem_nil,or_false] at member
  rcases member with rfl | rfl
  · exact second.fewer.none_of_none restart
  · exact reset

end Sound

/-! ## What holds between the calls -/

/-- Between two calls, a neighbor that is being deleted has no slot in use. -/
structure Settled (eigrp : Runtime) : Prop extends Sound eigrp where
  retired {nbr : Id} {it : Nbr} : eigrp.nbrs nbr = some it → it.published = false → ∀ timer, eigrp.timers.slot (.nbr nbr timer) = none

/-- The owners whose timers are armed. -/
def Armable (eigrp : Runtime) : Owner → Prop
  | .packet packet =>
    ∃ nbr it, eigrp.packets packet = some (some nbr) ∧ eigrp.nbrs nbr = some it ∧ it.ei = true ∧ packet ∈ it.retrans_queue
  | .destination pe => eigrp.descriptors pe = some true
  | .nbr nbr _ => ∃ it, eigrp.nbrs nbr = some it ∧ it.ei = true ∧ it.published = true
  | .intf _ _ => True
  | .runtime _ => True

/-- A call keeps what holds between calls, and what holds of the callbacks that have run. -/
structure Advances (eigrp after : Runtime) : Prop where
  settled : Settled after
  ran {fired : List (TimerEvent Owner × Clock)} : Ran eigrp.timers fired → Ran after.timers fired

section Settled
variable {eigrp after : Runtime}

theorem Advances.trans {middle : Runtime} (one : Advances eigrp middle) (two : Advances middle after) : Advances eigrp after :=
  ⟨two.settled,fun ran => two.ran (one.ran ran)⟩

theorem Settled.advances (settled : Settled after) (fewer : Fewer eigrp.timers after.timers) : Advances eigrp after :=
  ⟨settled,fun ran => ran.fewer fewer⟩

theorem Settled.retired_kept (good : Settled eigrp) (fewer : Fewer eigrp.timers after.timers) {nbr : Id} {it : Nbr}
    (kept : (after.nbrs nbr).map (fun it => (it.ei, it.published)) = (eigrp.nbrs nbr).map fun it => (it.ei, it.published))
    (there : after.nbrs nbr = some it) (unpublished : it.published = false) (timer : NbrTimer) :
    after.timers.slot (.nbr nbr timer) = none := by
  rw [there] at kept
  cases here : eigrp.nbrs nbr with
  | none =>
    rw [here] at kept
    cases kept
  | some before =>
    rw [here] at kept
    have same : it.published = before.published := congrArg Prod.snd (Option.some.inj kept)
    exact fewer.none_of_none (good.retired here (same ▸ unpublished) timer)

theorem Winds.settled (winds : Winds eigrp after) (good : Settled eigrp) : Settled after where
  toSound := winds.sound
  retired {nbr _} there unpublished timer := good.retired_kept winds.fewer (winds.kept nbr) there unpublished timer

theorem timer_add_eq {owner : Owner} {delay_msec : UInt32} {event : Option Id} (added : eigrp.timer_add owner delay_msec event = some after) :
    after = { eigrp with timers := eigrp.timers.timer_add true owner delay_msec event } ∧
      ∀ id, event = some id → ∀ link ∈ (eigrp.timers.timer_cancel true owner).timer_head, link.id ≠ id := by
  unfold Runtime.timer_add at added
  split at added
  · rename_i unused
    refine ⟨(Option.some.inj added).symm,fun id allocated link member => ?_⟩
    subst allocated
    exact of_decide_eq_true (List.all_eq_true.1 unused link member)
  · cases added

theorem timer_add_slot {Slots : Type} [DecidableEq Slots] {timers : Pending Slots} {eigrp : Bool} {owner : Slots} {delay_msec : UInt32}
    {event : Option Id} {other : Slots} (used : (timers.timer_add eigrp owner delay_msec event).slot other ≠ none) :
    other = owner ∨ timers.slot other ≠ none := by
  by_cases here : other = owner
  · exact .inl here
  right
  rcases timer_add_cases timers eigrp owner delay_msec event with cancelled | ⟨id,_,_,added⟩
  · rw [cancelled] at used
    exact (timer_cancel_fewer timers eigrp owner).some_of_some used
  · rw [added] at used
    simpa [Function.update_apply,here] using used

/-- Arming a timer of an owner that its destruction can cancel. -/
theorem Settled.timer_add (good : Settled eigrp) {owner : Owner} {delay_msec : UInt32} {event : Option Id} (armable : Armable eigrp owner)
    (added : eigrp.timer_add owner delay_msec event = some after) : Advances eigrp after := by
  obtain ⟨rfl,unused⟩ := timer_add_eq added
  refine ⟨?_,fun ran => ran.timer_add true owner delay_msec event⟩
  refine ⟨⟨good.timers.timer_add true owner delay_msec unused,fun packet used => ?_,fun nbr timer used => ?_,fun pe used => ?_,
    good.queued,good.single,good.synced⟩,fun {nbr it} here unpublished timer => ?_⟩
  · rcases timer_add_slot used with rfl | before
    · exact armable
    · exact good.packet packet before
  · rcases timer_add_slot used with rfl | before
    · obtain ⟨it,here,ei,_⟩ := armable
      exact ⟨it,here,ei⟩
    · exact good.nbr nbr timer before
  · rcases timer_add_slot used with rfl | before
    · exact armable
    · exact good.active pe before
  · by_contra used
    rcases timer_add_slot used with rfl | before
    · obtain ⟨same,there,_,published⟩ := armable
      rw [here] at there
      injection there with equal
      rw [equal,published] at unpublished
      cases unpublished
    · exact before (good.retired here unpublished timer)

theorem Settled.nbr_timer_add (good : Settled eigrp) {nbr : Id} {timer : NbrTimer} {delay_msec : UInt32} {event : Option Id}
    (added : eigrp.nbr_timer_add nbr timer delay_msec event = some after) : Advances eigrp after := by
  unfold Runtime.nbr_timer_add at added
  split at added
  · rename_i found
    obtain ⟨it,here,published⟩ := (Option.any_eq_true _ _).1 found
    rw [Bool.and_eq_true] at published
    have armable : Armable eigrp (.nbr nbr timer) := ⟨it,here,published⟩
    exact good.timer_add armable added
  · cases added

theorem Settled.retransmit_timer_start (good : Settled eigrp) {nbr : Id} {delay_msec : UInt32} {event : Option Id}
    (added : eigrp.retransmit_timer_start nbr delay_msec event = some after) : Advances eigrp after := by
  unfold Runtime.retransmit_timer_start at added
  split at added
  · rename_i asked
    split at added
    · rename_i packet head
      rw [Runtime.retrans_queue] at head
      rw [Runtime.nbr_eigrp] at asked
      cases here : eigrp.nbrs nbr with
      | none =>
        rw [here] at head
        cases head
      | some it =>
        rw [here] at head asked
        have queued : packet ∈ it.retrans_queue := List.mem_of_mem_head? head
        have armable : Armable eigrp (.packet packet) := ⟨nbr,it,good.queued here packet queued,here,asked,queued⟩
        exact good.timer_add armable added
    · injection added with same
      exact same ▸ good.advances (Fewer.refl _)
  · cases added

theorem loose_apart {packet : Id} (loose : eigrp.loose packet = true) {nbr : Id} {it : Nbr} (here : eigrp.nbrs nbr = some it)
    (named : eigrp.packets packet = some (some nbr)) : packet ∉ it.retrans_queue ∧ it.sync_packet ≠ some packet := by
  unfold Runtime.loose at loose
  rw [named] at loose
  simp only [here,Option.all_some,Bool.and_eq_true,decide_eq_true_eq] at loose
  exact loose

/-- A packet that only the caller has can be freed. -/
theorem Settled.packet_free (good : Settled eigrp) {packet : Id} (loose : eigrp.loose packet = true) : Settled (eigrp.packet_free packet) := by
  have frees := packet_free_frees eigrp packet
  have apart (nbr : Id) (it : Nbr) (here : eigrp.nbrs nbr = some it) : it.Keeps [packet] it := by
    refine Nbr.Keeps.of_apart (fun other queued member => ?_) fun other sync member => ?_
    · rw [List.mem_singleton.1 member] at queued
      exact (loose_apart loose here (good.queued here packet queued)).1 queued
    · rw [List.mem_singleton.1 member] at sync
      exact (loose_apart loose here (good.synced here packet sync).1).2 sync
  have drops : Drops eigrp (eigrp.packet_free packet) [packet] :=
    ⟨frees.disciplined good.timers,frees.fewer,frees.packets,frees.cancelled fun _ used => good.armed used,
      fun nbr => rel_some (fun it here => ⟨it,here,apart nbr it here⟩) fun empty => empty,frees.descriptors⟩
  exact Winds.settled ⟨drops.sound good.toSound,frees.fewer,fun _ => rfl⟩ good

/-- An acknowledged packet leaves the queue and is freed. -/
theorem Settled.packet_ack (good : Settled eigrp) {nbr packet : Id} {rest : List Id} (head : eigrp.retrans_queue nbr = packet :: rest) :
    Settled ((eigrp.nbr_update nbr fun nbr => { nbr with retrans_queue := rest }).packet_free packet) := by
  cases here : eigrp.nbrs nbr with
  | none =>
    rw [Runtime.retrans_queue,here] at head
    cases head
  | some it =>
    rw [Runtime.retrans_queue,here] at head
    have queue : it.retrans_queue = packet :: rest := head
    have single := good.single here
    rw [queue,List.nodup_cons] at single
    have named := good.queued here packet (by rw [queue]; exact List.mem_cons_self)
    have frees := packet_free_frees eigrp packet
    -- the packet asks for the instance of the neighbor, which the change of the queue leaves
    have asked : (eigrp.nbr_update nbr fun nbr => { nbr with retrans_queue := rest }).nbr_eigrp nbr = eigrp.nbr_eigrp nbr := by
      simp [Runtime.nbr_update,Runtime.nbr_eigrp,here]
    have moved : (eigrp.nbr_update nbr fun nbr => { nbr with retrans_queue := rest }).packet_free packet =
        (eigrp.packet_free packet).nbr_update nbr fun nbr => { nbr with retrans_queue := rest } := by
      have test : (eigrp.packets packet).join.any (eigrp.nbr_update nbr fun nbr => { nbr with retrans_queue := rest }).nbr_eigrp =
          (eigrp.packets packet).join.any eigrp.nbr_eigrp := by
        rw [named]
        exact asked
      change ({ eigrp with
        timers := eigrp.timers.timer_cancel
          ((eigrp.packets packet).join.any (eigrp.nbr_update nbr fun nbr => { nbr with retrans_queue := rest }).nbr_eigrp) (.packet packet)
        packets := _, nbrs := _ } : Runtime) = _
      rw [test]
      rfl
    rw [moved]
    refine Winds.settled (good.frees_winds frees nbr (fun other member => ?_) (fun other there => ?_) fun _ => ⟨rfl,rfl⟩) good
    · rw [List.mem_singleton.1 member,named]
    · rw [here] at there
      injection there with same
      subst same
      refine ⟨rfl,?_,fun other member freed => ?_,fun other member unfreed => ?_,fun other sync => ⟨sync,fun freed => ?_⟩⟩
      · rw [queue]
        exact List.sublist_cons_self _ _
      · rw [List.mem_singleton.1 freed] at member
        exact single.1 member
      · rw [queue] at member
        exact (List.mem_cons.1 member).resolve_left fun equal => unfreed (List.mem_singleton.2 equal)
      · rw [List.mem_singleton.1 freed] at sync
        exact (good.synced here packet sync).2 (by rw [queue]; exact List.mem_cons_self)

theorem Settled.packet_create (good : Settled eigrp) {packet : Id} {nbr : Option Id} (created : eigrp.packet_create packet nbr = some after) :
    Settled after ∧ after.timers = eigrp.timers ∧ after.nbrs = eigrp.nbrs ∧ after.packets packet = some nbr ∧ eigrp.packets packet = none := by
  unfold Runtime.packet_create at created
  split at created
  · rename_i fresh
    rw [Bool.and_eq_true,Option.isNone_iff_eq_none] at fresh
    obtain ⟨unused,_⟩ := fresh
    injection created with same
    subst same
    have kept (other : Id) (names : Option Id) (named : eigrp.packets other = some names) :
        Function.update eigrp.packets packet (some nbr) other = some names := by
      rw [Function.update_apply,if_neg,named]
      rintro rfl
      rw [unused] at named
      cases named
    refine ⟨⟨⟨good.timers,fun other used => ?_,good.nbr,good.active,fun here other member => kept other _ (good.queued here other member),good.single,
      fun here other sync => ?_⟩,good.retired⟩,rfl,rfl,Function.update_self _ _ _,unused⟩
    · obtain ⟨owner,it,named,here,rest⟩ := good.packet other used
      exact ⟨owner,it,kept other _ named,here,rest⟩
    · obtain ⟨named,apart⟩ := good.synced here other sync
      exact ⟨kept other _ named,apart⟩
  · cases created

/-- A change of one neighbor. -/
theorem Settled.nbr_change (good : Settled eigrp) {nbr : Id} {it : Nbr} (here : eigrp.nbrs nbr = some it) {change : Nbr → Nbr}
    (ei : (change it).ei = it.ei) (published : (change it).published = it.published)
    (queue : ∀ packet ∈ it.retrans_queue, packet ∈ (change it).retrans_queue)
    (queued : ∀ packet ∈ (change it).retrans_queue, eigrp.packets packet = some (some nbr)) (single : (change it).retrans_queue.Nodup)
    (synced : ∀ packet, (change it).sync_packet = some packet →
      eigrp.packets packet = some (some nbr) ∧ packet ∉ (change it).retrans_queue) : Settled (eigrp.nbr_update nbr change) := by
  have there (other : Id) (next : Nbr) (found : (eigrp.nbr_update nbr change).nbrs other = some next) :
      other = nbr ∧ next = change it ∨ eigrp.nbrs other = some next := by
    simp only [Runtime.nbr_update,Function.update_apply] at found
    split at found
    · rename_i same
      rw [here] at found
      exact .inl ⟨same,(Option.some.inj found).symm⟩
    · exact .inr found
  have kept (other : Id) (before : Nbr) (found : eigrp.nbrs other = some before) :
      ∃ next, (eigrp.nbr_update nbr change).nbrs other = some next ∧ next.ei = before.ei ∧
        ∀ packet ∈ before.retrans_queue, packet ∈ next.retrans_queue := by
    simp only [Runtime.nbr_update,Function.update_apply]
    split
    · rename_i same
      subst same
      rw [here] at found
      injection found with equal
      subst equal
      exact ⟨change it,by rw [here]; rfl,ei,queue⟩
    · exact ⟨before,found,rfl,fun _ member => member⟩
  refine ⟨⟨good.timers,fun packet used => ?_,fun other timer used => ?_,good.active,fun {other next} found => ?_,fun {other next} found => ?_,
    fun {other next} found => ?_⟩,fun {other next} found unpublished timer => ?_⟩
  · obtain ⟨owner,before,named,found,has,member⟩ := good.packet packet used
    obtain ⟨next,next_found,same,more⟩ := kept owner before found
    exact ⟨owner,next,named,next_found,same.trans has,more packet member⟩
  · obtain ⟨before,found,has⟩ := good.nbr other timer used
    obtain ⟨next,next_found,same,_⟩ := kept other before found
    exact ⟨next,next_found,same.trans has⟩
  · rcases there other next found with ⟨rfl,rfl⟩ | before
    · exact queued
    · exact good.queued before
  · rcases there other next found with ⟨rfl,rfl⟩ | before
    · exact single
    · exact good.single before
  · rcases there other next found with ⟨rfl,rfl⟩ | before
    · exact synced
    · exact good.synced before
  · rcases there other next found with ⟨rfl,rfl⟩ | before
    · exact good.retired here (published ▸ unpublished) timer
    · exact good.retired before unpublished timer

/-- A neighbor that is taken out for its deletion has no slot in use when the topology is told. -/
theorem Settled.nbr_unpublish (good : Settled eigrp) (nbr : Id) : Advances eigrp (eigrp.nbr_unpublish nbr) := by
  have unpublished : Sound (eigrp.nbr_update nbr fun nbr => { nbr with published := false }) :=
    (good.update_drops nbr fun it => Nbr.Keeps.status it it.state it.sync_active false).sound good.toSound
  obtain ⟨first,limits⟩ := unpublished.nbr_limit_timers_cancel nbr
  obtain ⟨second,others⟩ := first.sound.nbr_down_deferred nbr
  have winds := first.trans second
  refine ⟨⟨second.sound,fun {other it} there retired timer => ?_⟩,fun ran => ran.fewer winds.fewer⟩
  by_cases same : other = nbr
  · subst same
    cases timer with
    | t_holddown => exact others .t_holddown (by simp)
    | t_nbr_send_gr => exact others .t_nbr_send_gr (by simp)
    | t_sync => exact others .t_sync (by simp)
    | t_limit_restart => exact second.fewer.none_of_none (limits .t_limit_restart (by simp))
    | t_limit_reset => exact second.fewer.none_of_none (limits .t_limit_reset (by simp))
  · have kept := winds.kept other
    rw [show (eigrp.nbr_update nbr fun nbr => { nbr with published := false }).nbrs other = eigrp.nbrs other from
      Function.update_of_ne same _ _] at kept
    exact good.retired_kept winds.fewer kept there retired timer

/-- The memory of a neighbor is freed with the packets of its queue, and no slot of it is in use. -/
theorem Settled.nbr_free (good : Settled eigrp) {nbr : Id} {it : Nbr} (here : eigrp.nbrs nbr = some it) (unpublished : it.published = false) :
    Settled (eigrp.nbr_free nbr) := by
  have winds := good.toSound.queue_clear nbr
  have cleared := winds.settled good
  generalize emptied : (eigrp.packets_free (eigrp.retrans_queue nbr)).nbr_update nbr (fun nbr => { nbr with retrans_queue := [] }) = empty
    at winds cleared
  have alone : empty.nbrs nbr = some { it with retrans_queue := [] } := by
    rw [← emptied,Runtime.nbr_update,(packets_free_frees eigrp _).nbrs,here]
    exact Function.update_self _ _ _
  have removed : eigrp.nbr_free nbr = { empty with nbrs := Function.update empty.nbrs nbr none } := by
    rw [← emptied,Runtime.nbr_free,Runtime.nbr_update,Function.update_idem]
  have unused (timer : NbrTimer) : empty.timers.slot (.nbr nbr timer) = none := cleared.retired alone unpublished timer
  have others (other : Id) (next : Nbr) (found : Function.update empty.nbrs nbr none other = some next) :
      other ≠ nbr ∧ empty.nbrs other = some next := by
    rw [Function.update_apply] at found
    split at found
    · cases found
    · rename_i apart
      exact ⟨apart,found⟩
  rw [removed]
  refine ⟨⟨cleared.timers,fun packet used => ?_,fun other timer used => ?_,cleared.active,fun found => cleared.queued (others _ _ found).2,
    fun found => cleared.single (others _ _ found).2,fun found => cleared.synced (others _ _ found).2⟩,
    fun found retired timer => cleared.retired (others _ _ found).2 retired timer⟩
  · obtain ⟨owner,before,named,found,ei,queued⟩ := cleared.packet packet used
    have apart : owner ≠ nbr := by
      rintro rfl
      rw [alone] at found
      injection found with same
      rw [← same] at queued
      exact List.not_mem_nil queued
    exact ⟨owner,before,named,by simpa only [Function.update_of_ne apart] using found,ei,queued⟩
  · obtain ⟨before,found,ei⟩ := cleared.nbr other timer used
    have apart : other ≠ nbr := by
      rintro rfl
      exact used (unused timer)
    exact ⟨before,by simpa only [Function.update_of_ne apart] using found,ei⟩

theorem Settled.nbr_create (good : Settled eigrp) {nbr : Id} (fresh : eigrp.nbrs nbr = none) (ei : Bool) :
    Settled { eigrp with nbrs := Function.update eigrp.nbrs nbr (some { ei, published := ei }) } := by
  have there (other : Id) (next : Nbr) (found : Function.update eigrp.nbrs nbr (some { ei, published := ei }) other = some next) :
      other = nbr ∧ next = { ei, published := ei } ∨ eigrp.nbrs other = some next := by
    rw [Function.update_apply] at found
    split at found
    · rename_i same
      exact .inl ⟨same,(Option.some.inj found).symm⟩
    · exact .inr found
  have kept (other : Id) (it : Nbr) (found : eigrp.nbrs other = some it) :
      Function.update eigrp.nbrs nbr (some { ei, published := ei }) other = some it := by
    rw [Function.update_apply,if_neg,found]
    rintro rfl
    rw [fresh] at found
    cases found
  refine ⟨⟨good.timers,fun packet used => ?_,fun other timer used => ?_,good.active,fun {other next} found => ?_,fun {other next} found => ?_,
    fun {other next} found => ?_⟩,fun {other next} found unpublished timer => ?_⟩
  · obtain ⟨owner,it,named,found,rest⟩ := good.packet packet used
    exact ⟨owner,it,named,kept owner it found,rest⟩
  · obtain ⟨it,found,has⟩ := good.nbr other timer used
    exact ⟨it,kept other it found,has⟩
  · rcases there other next found with ⟨_,rfl⟩ | before
    · exact fun packet member => absurd member List.not_mem_nil
    · exact good.queued before
  · rcases there other next found with ⟨_,rfl⟩ | before
    · exact List.nodup_nil
    · exact good.single before
  · rcases there other next found with ⟨_,rfl⟩ | before
    · intro packet sync
      cases sync
    · exact good.synced before
  · rcases there other next found with ⟨rfl,_⟩ | before
    · by_contra used
      obtain ⟨it,here,_⟩ := good.nbr other timer used
      rw [fresh] at here
      cases here
    · exact good.retired before unpublished timer

/-- The slot of a prefix descriptor is empty behind `eigrp_timer_cancel` with its `active_eigrp`. -/
theorem Settled.active_cancel (good : Settled eigrp) {pe : Id} {active_eigrp : Bool} (here : eigrp.descriptors pe = some active_eigrp)
    (next : Option Bool) :
    Settled { eigrp.timer_cancel active_eigrp (.destination pe) with descriptors := Function.update eigrp.descriptors pe next } := by
  have winds := good.cancel_winds active_eigrp (.destination pe)
  have cancelled := winds.settled good
  have empty : (eigrp.timer_cancel active_eigrp (.destination pe)).timers.slot (.destination pe) = none := by
    by_cases used : eigrp.timers.slot (.destination pe) = none
    · exact winds.fewer.none_of_none used
    · have active := good.active pe used
      rw [here] at active
      rw [Option.some.inj active]
      change (eigrp.timers.timer_cancel _ _).slot _ = none
      rw [timer_cancel_slot,Function.update_self]
  refine ⟨⟨cancelled.timers,cancelled.packet,cancelled.nbr,fun other used => ?_,cancelled.queued,cancelled.single,cancelled.synced⟩,
    cancelled.retired⟩
  have apart : other ≠ pe := by
    rintro rfl
    exact used empty
  exact (Function.update_of_ne apart _ _).trans (cancelled.active other used)

/-- Whether a descriptor has its `active_eigrp` does not matter where its slot is empty, and setting it never does. -/
theorem Settled.activate (good : Settled eigrp) (pe : Id) (active_eigrp : Bool)
    (safe : active_eigrp = true ∨ eigrp.timers.slot (.destination pe) = none) :
    Settled { eigrp with descriptors := Function.update eigrp.descriptors pe (some active_eigrp) } := by
  refine ⟨⟨good.timers,good.packet,good.nbr,fun other used => ?_,good.queued,good.single,good.synced⟩,good.retired⟩
  change Function.update eigrp.descriptors pe (some active_eigrp) other = some true
  rw [Function.update_apply]
  split
  · rename_i same
    subst same
    rcases safe with rfl | empty
    · rfl
    · exact absurd empty used
  · exact good.active other used

theorem Settled.timers_fewer (good : Settled eigrp) {timers : Pending Owner} (disciplined : Disciplined timers)
    (fewer : Fewer eigrp.timers timers) : Settled { eigrp with timers } := by
  have drops : Drops eigrp { eigrp with timers } [] :=
    ⟨disciplined,fewer,fun _ => (if_neg List.not_mem_nil).symm,fun _ member => absurd member List.not_mem_nil,fun _ => rel_refl _,rfl⟩
  exact Winds.settled ⟨drops.sound good.toSound,fewer,fun _ => rfl⟩ good

/-- The list does not depend on whether the thread runs. -/
theorem Settled.thread_change (good : Settled eigrp) (shutdown thread_running : Bool) :
    Advances eigrp { eigrp with timers := { eigrp.timers with shutdown, thread_running } } := by
  have fewer : Fewer eigrp.timers { eigrp.timers with shutdown, thread_running } := ⟨rfl,rfl,List.Sublist.refl _,fun _ _ named => named⟩
  have disciplined : Disciplined { eigrp.timers with shutdown, thread_running } :=
    ⟨good.timers.sorted,good.timers.once,good.timers.named,good.timers.numbered⟩
  exact (good.timers_fewer disciplined fewer).advances fewer

theorem Settled.cancel_advances (good : Settled eigrp) (runtime : Bool) (owner : Owner) : Advances eigrp (eigrp.timer_cancel runtime owner) :=
  have winds := good.cancel_winds runtime owner
  (winds.settled good).advances winds.fewer

theorem Settled.cancel_all (good : Settled eigrp) : Advances eigrp { eigrp with timers := eigrp.timers.timer_cancel_all } := by
  have fewer : Fewer eigrp.timers eigrp.timers.timer_cancel_all := by
    refine ⟨rfl,rfl,List.nil_sublist _,fun owner event named => ?_⟩
    rw [timer_cancel_all_slot good.timers] at named
    cases named
  exact (good.timers_fewer good.timers.timer_cancel_all fewer).advances fewer

theorem nbr_update_none {nbr : Id} (empty : eigrp.nbrs nbr = none) (change : Nbr → Nbr) : eigrp.nbr_update nbr change = eigrp := by
  simp only [Runtime.nbr_update,empty,Option.map_none]
  rw [← empty,Function.update_eq_self]

/-- A packet that is queued for a neighbor names it. -/
theorem Settled.packet_enqueue (good : Settled eigrp) {nbr packet : Id} (position : Nat) (named : eigrp.packets packet = some (some nbr))
    (loose : eigrp.loose packet = true) :
    Settled (eigrp.nbr_update nbr fun nbr =>
      { nbr with retrans_queue := nbr.retrans_queue.take position ++ packet :: nbr.retrans_queue.drop position }) := by
  cases here : eigrp.nbrs nbr with
  | none =>
    rw [nbr_update_none here]
    exact good
  | some it =>
    obtain ⟨unqueued,unsynced⟩ := loose_apart loose here named
    have moved : (it.retrans_queue.take position ++ packet :: it.retrans_queue.drop position).Perm (packet :: it.retrans_queue) := by
      have middle := @List.perm_middle _ packet (it.retrans_queue.take position) (it.retrans_queue.drop position)
      rwa [List.take_append_drop] at middle
    refine good.nbr_change here rfl rfl (fun other member => ?_) (fun other member => ?_) ?_ fun other sync => ?_
    · exact moved.mem_iff.2 (List.mem_cons_of_mem _ member)
    · rcases List.mem_cons.1 (moved.mem_iff.1 member) with rfl | before
      · exact named
      · exact good.queued here other before
    · exact moved.nodup_iff.2 (List.nodup_cons.2 ⟨unqueued,good.single here⟩)
    · obtain ⟨owner,apart⟩ := good.synced here other sync
      refine ⟨owner,fun member => ?_⟩
      rcases List.mem_cons.1 (moved.mem_iff.1 member) with rfl | before
      · exact unsynced sync
      · exact apart before

/-- The packet of a synchronisation names its neighbor and is in no queue. -/
theorem Settled.sync_packet_create (good : Settled eigrp) {nbr packet : Id} {middle : Runtime}
    (created : eigrp.packet_create packet (some nbr) = some middle) :
    Settled (middle.nbr_update nbr fun nbr => { nbr with sync_packet := some packet }) ∧ middle.timers = eigrp.timers := by
  obtain ⟨settled,timers,nbrs,named,fresh⟩ := good.packet_create created
  refine ⟨?_,timers⟩
  cases here : middle.nbrs nbr with
  | none =>
    rw [nbr_update_none here]
    exact settled
  | some it =>
    have queued := settled.queued here
    have single := settled.single here
    refine settled.nbr_change here rfl rfl (fun _ member => member) queued single fun other sync => ?_
    have same : packet = other := Option.some.inj sync
    subst same
    refine ⟨named,fun queued => ?_⟩
    rw [nbrs] at here
    rw [good.queued here packet queued] at fresh
    cases fresh

/-- The packet of a synchronisation moves into the queue. -/
theorem Settled.sync_packet_queue (good : Settled eigrp) (nbr : Id) (finished : Bool) :
    Settled (eigrp.nbr_update nbr fun nbr =>
      { nbr with
        retrans_queue := nbr.retrans_queue ++ nbr.sync_packet.toList, sync_packet := none, sync_active := nbr.sync_active && !finished }) := by
  cases here : eigrp.nbrs nbr with
  | none =>
    rw [nbr_update_none here]
    exact good
  | some it =>
    refine good.nbr_change here rfl rfl (fun _ member => List.mem_append_left _ member) (fun packet member => ?_) ?_ fun _ sync => by cases sync
    · rcases List.mem_append.1 member with queued | held
      · exact good.queued here packet queued
      · exact (good.synced here packet (Option.mem_toList.1 held)).1
    · rw [List.nodup_append]
      refine ⟨good.single here,?_,fun packet queued other held same => ?_⟩
      · cases it.sync_packet <;> simp
      · subst same
        exact (good.synced here packet (Option.mem_toList.1 held)).2 queued

/-- Every call keeps what holds between the calls. -/
theorem exec_advances (good : Settled eigrp) {call : Call} (other : call ≠ .due_dequeue) (completes : exec eigrp call = some after) :
    Advances eigrp after := by
  cases call with
  | due_dequeue => exact absurd rfl other
  | tick clock =>
    rw [exec] at completes
    split at completes
    · rename_i later
      injection completes with same
      subst same
      have timers := good.timers
      refine ⟨⟨⟨⟨timers.sorted,timers.once,timers.named,timers.numbered⟩,good.packet,good.nbr,good.active,good.queued,good.single,good.synced⟩,
        good.retired⟩,fun ran => ran.tick later⟩
    · cases completes
  | thread_start =>
    injection completes with same
    subst same
    exact good.thread_change eigrp.timers.shutdown true
  | thread_stop =>
    injection completes with same
    subst same
    exact good.thread_change eigrp.timers.shutdown false
  | shutdown =>
    injection completes with same
    subst same
    exact good.thread_change true eigrp.timers.thread_running
  | cancel_all =>
    injection completes with same
    subst same
    exact good.cancel_all
  | packet_create packet nbr =>
    obtain ⟨settled,timers,_⟩ := good.packet_create completes
    exact settled.advances (timers ▸ Fewer.refl _)
  | packet_enqueue nbr packet position =>
    rw [exec] at completes
    split at completes
    · rename_i held
      injection completes with same
      subst same
      exact (good.packet_enqueue position held.1 held.2).advances (Fewer.refl _)
    · cases completes
  | packet_free packet =>
    rw [exec] at completes
    split at completes
    · rename_i loose
      injection completes with same
      subst same
      exact (good.packet_free loose).advances (packet_free_frees eigrp packet).fewer
    · cases completes
  | packet_ack nbr =>
    rw [exec] at completes
    split at completes
    · rename_i packet rest head
      injection completes with same
      subst same
      exact (good.packet_ack head).advances (timer_cancel_fewer _ _ _)
    · injection completes with same
      exact same ▸ good.advances (Fewer.refl _)
  | retransmit_timer_start nbr rto_msec event => exact good.retransmit_timer_start completes
  | allocation_retry nbr event => exact good.retransmit_timer_start completes
  | nbr_create nbr ei =>
    rw [exec] at completes
    split at completes
    · rename_i fresh
      injection completes with same
      subst same
      exact (good.nbr_create (Option.isNone_iff_eq_none.1 fresh) ei).advances (Fewer.refl _)
    · cases completes
  | nbr_state_update nbr state =>
    injection completes with same
    subst same
    have winds := (good.toSound.nbr_state_update nbr state).1
    exact (winds.settled good).advances winds.fewer
  | nbr_holddown_update nbr eligible v_holddown event =>
    have cancelled := good.cancel_advances (eigrp.nbr_eigrp nbr) (.nbr nbr .t_holddown)
    rw [exec] at completes
    split at completes
    · injection completes with same
      exact same ▸ cancelled
    · exact cancelled.trans (cancelled.settled.nbr_timer_add completes)
  | update_send_EOT nbr packet =>
    rw [exec] at completes
    split at completes
    · dsimp only at completes
      have first := (good.toSound.update_sync_cancel nbr).1
      have second := first.trans (first.sound.update_winds nbr (fun it => Nbr.Keeps.status it it.state true it.published) fun _ => rfl)
      change Winds eigrp ((eigrp.update_sync_cancel nbr).nbr_update nbr fun nbr => { nbr with sync_active := true }) at second
      generalize (eigrp.update_sync_cancel nbr).nbr_update nbr (fun nbr => { nbr with sync_active := true }) = started at second completes
      have begun : Advances eigrp started := (second.settled good).advances second.fewer
      cases packet with
      | none =>
        injection completes with same
        exact same ▸ begun
      | some packet =>
        obtain ⟨middle,created,rfl⟩ := Option.map_eq_some_iff.1 completes
        obtain ⟨settled,timers⟩ := begun.settled.sync_packet_create created
        have fewer : Fewer started.timers middle.timers := timers ▸ Fewer.refl _
        exact begun.trans (settled.advances fewer)
    · cases completes
  | sync_packet_create nbr packet =>
    rw [exec] at completes
    split at completes
    · obtain ⟨middle,created,rfl⟩ := Option.map_eq_some_iff.1 completes
      obtain ⟨settled,timers⟩ := good.sync_packet_create created
      have fewer : Fewer eigrp.timers middle.timers := timers ▸ Fewer.refl _
      exact settled.advances fewer
    · cases completes
  | sync_packet_queue nbr finished =>
    injection completes with same
    subst same
    exact (good.sync_packet_queue nbr finished).advances (Fewer.refl _)
  | update_sync_retry nbr delay_msec event =>
    rw [exec] at completes
    split at completes
    · exact good.nbr_timer_add completes
    · cases completes
  | update_send_GR nbr delay_msec event => exact good.nbr_timer_add completes
  | nbr_limit_timer_arm nbr reset delta event => exact good.nbr_timer_add completes
  | nbr_limit_timers_cancel nbr =>
    injection completes with same
    subst same
    have winds := (good.toSound.nbr_limit_timers_cancel nbr).1
    exact (winds.settled good).advances winds.fewer
  | nbr_down_deferred nbr =>
    injection completes with same
    subst same
    have winds := (good.toSound.nbr_down_deferred nbr).1
    exact (winds.settled good).advances winds.fewer
  | nbr_unpublish nbr =>
    injection completes with same
    subst same
    exact good.nbr_unpublish nbr
  | nbr_free nbr =>
    rw [exec] at completes
    split at completes
    · rename_i found
      obtain ⟨it,here,unpublished⟩ := (Option.any_eq_true _ _).1 found
      injection completes with same
      subst same
      rw [Bool.not_eq_true'] at unpublished
      exact (good.nbr_free here unpublished).advances (packets_free_frees eigrp _).fewer
    · cases completes
  | prefix_create pe =>
    rw [exec] at completes
    split at completes
    · rename_i fresh
      injection completes with same
      subst same
      refine (good.activate pe false (.inr ?_)).advances (Fewer.refl _)
      by_contra used
      rw [good.active pe used] at fresh
      cases fresh
    · cases completes
  | fsm_active_timer_start pe active_time event =>
    rw [exec] at completes
    split at completes
    · cases completes
    split at completes
    · injection completes with same
      exact same ▸ good.advances (Fewer.refl _)
    · dsimp only at completes
      have active := (good.activate pe true (.inl rfl)).advances (Fewer.refl eigrp.timers)
      generalize started : ({ eigrp with descriptors := Function.update eigrp.descriptors pe (some true) } : Runtime) = set at active completes
      have set_active : set.descriptors pe = some true := by
        rw [← started]
        exact Function.update_self _ _ _
      have cancelled := active.settled.cancel_advances true (.destination pe)
      have armable : Armable (set.timer_cancel true (.destination pe)) (.destination pe) := set_active
      exact active.trans (cancelled.trans (cancelled.settled.timer_add armable completes))
  | fsm_active_timer_again pe active_time event =>
    rw [exec] at completes
    split at completes
    · rename_i active
      split at completes
      · injection completes with same
        exact same ▸ good.advances (Fewer.refl _)
      · have armable : Armable eigrp (.destination pe) := active
        exact good.timer_add armable completes
    · cases completes
  | fsm_active_timer_stop pe =>
    rw [exec] at completes
    split at completes
    · cases completes
    · rename_i active_eigrp here
      injection completes with same
      subst same
      exact (good.active_cancel here (some false)).advances (timer_cancel_fewer _ _ _)
  | topology_prefix_free pe =>
    rw [exec] at completes
    split at completes
    · cases completes
    · rename_i active_eigrp here
      injection completes with same
      subst same
      exact (good.active_cancel here none).advances (timer_cancel_fewer _ _ _)
  | intf_create ei =>
    rw [exec] at completes
    split at completes
    · injection completes with same
      subst same
      exact Advances.mk ⟨⟨good.timers,good.packet,good.nbr,good.active,good.queued,good.single,good.synced⟩,good.retired⟩ fun ran => ran
    · cases completes
  | intf_timer_add ei timer delay_msec event =>
    rw [exec] at completes
    split at completes
    · have armable : Armable eigrp (.intf ei timer) := trivial
      exact good.timer_add armable completes
    · cases completes
  | intf_timer_cancel ei timer =>
    rw [exec] at completes
    split at completes
    · injection completes with same
      exact same ▸ good.cancel_advances true (.intf ei timer)
    · cases completes
  | intf_free ei =>
    rw [exec] at completes
    split at completes
    · injection completes with same
      have first := good.cancel_advances true (.intf ei .t_multicast_retry)
      have second := first.trans (first.settled.cancel_advances true (.intf ei .t_hello))
      generalize (eigrp.timer_cancel true (.intf ei .t_multicast_retry)).timer_cancel true (.intf ei .t_hello) = down at second same
      subst same
      have settled := second.settled
      exact ⟨⟨⟨settled.timers,settled.packet,settled.nbr,settled.active,settled.queued,settled.single,settled.synced⟩,settled.retired⟩,second.ran⟩
    · cases completes
  | runtime_timer_add timer delay_msec event =>
    have armable : Armable eigrp (.runtime timer) := trivial
    exact good.timer_add armable completes
  | runtime_timer_cancel timer =>
    injection completes with same
    exact same ▸ good.cancel_advances true (.runtime timer)

theorem initial_settled (now : Clock) : Settled (Runtime.initial now) where
  timers := {
    sorted := List.Pairwise.nil
    once := List.nodup_nil
    named owner event := by
      constructor
      · intro named
        cases named
      · rintro ⟨link,member,_⟩
        cases member
    numbered _ member := by cases member }
  packet _ used := absurd rfl used
  nbr _ _ used := absurd rfl used
  active _ used := absurd rfl used
  queued here := by cases here
  single here := by cases here
  synced here := by cases here
  retired here := by cases here

theorem initial_ran (now : Clock) : Ran (Runtime.initial now).timers [] where
  due _ member := by cases member
  numbered _ member := by cases member
  ahead _ member := by cases member
  sorted := List.Pairwise.nil

theorem run_ran {now : Clock} {fired : List (TimerEvent Owner × Clock)} (run : Run now eigrp fired) :
    Settled eigrp ∧ Ran eigrp.timers fired := by
  induction run with
  | start => exact ⟨initial_settled now,initial_ran now⟩
  | @call eigrp after fired _ call completes ih =>
    obtain ⟨good,ran⟩ := ih
    by_cases dequeue : call = .due_dequeue
    · subst dequeue
      injection completes with same
      subst same
      obtain ⟨disciplined,fewer⟩ := good.timers.timer_due_dequeue
      exact ⟨good.timers_fewer disciplined fewer,ran.timer_due_dequeue good.timers⟩
    · have advances := exec_advances good dequeue completes
      have silent : fires eigrp call = [] := by
        unfold fires
        split
        · exact absurd rfl dequeue
        · rfl
      rw [silent,List.append_nil]
      exact ⟨advances.settled,advances.ran ran⟩

/-- Whether the object of a slot exists; interfaces and the instance are not asked. -/
def destroyed (eigrp : Runtime) : Owner → Bool
  | .packet packet => (eigrp.packets packet).isNone
  | .destination pe => (eigrp.descriptors pe).isNone
  | .nbr nbr _ => (eigrp.nbrs nbr).isNone
  | .intf _ _ => false
  | .runtime _ => false

/-- In every run: the list is sorted by due time, and by insertion where it is the same; no event is linked twice, and a slot is in use
    exactly when a linked event, and no other, names it; callbacks run when they are due, in the order of the list, and before all that
    is linked; and no linked event names a packet, a prefix or a neighbor that is destroyed. -/
theorem timers_disciplined {now : Clock} {fired : List (TimerEvent Owner × Clock)} (run : Run now eigrp fired) :
    eigrp.timers.timer_head.Pairwise TimerEvent.Before ∧
      (eigrp.timers.timer_head.map TimerEvent.id).Nodup ∧
      (∀ owner event, eigrp.timers.slot owner = some event ↔
        ∃ link ∈ eigrp.timers.timer_head, link.owner = owner ∧ link.id = event ∧
          ∀ other ∈ eigrp.timers.timer_head, other.owner = owner → other = link) ∧
      (fired.map Prod.fst).Pairwise TimerEvent.Before ∧
      (∀ firing ∈ fired, firing.1.due_msec ≤ firing.2.msec ∧ ∀ link ∈ eigrp.timers.timer_head, firing.1.Before link) ∧
      ∀ link ∈ eigrp.timers.timer_head, destroyed eigrp link.owner = false := by
  obtain ⟨good,ran⟩ := run_ran run
  have timers := good.timers
  refine ⟨timers.sorted,timers.once,fun owner event => ?_,ran.sorted,fun firing member => ⟨(ran.due firing member).1,ran.ahead firing member⟩,
    fun link linked => ?_⟩
  · rw [timers.named owner event]
    constructor
    · rintro ⟨link,linked,owned,named⟩
      exact ⟨link,linked,owned,named,fun other member same => timers.owner_eq member linked (same.trans owned.symm)⟩
    · rintro ⟨link,linked,owned,named,_⟩
      exact ⟨link,linked,owned,named⟩
  · have used : eigrp.timers.slot link.owner ≠ none := by
      rw [(timers.named link.owner link.id).2 ⟨link,linked,rfl,rfl⟩]
      exact Option.some_ne_none _
    cases owner : link.owner with
    | packet packet =>
      rw [owner] at used
      obtain ⟨nbr,_,named,_⟩ := good.packet packet used
      rw [destroyed,named]
      rfl
    | destination pe =>
      rw [owner] at used
      rw [destroyed,good.active pe used]
      rfl
    | nbr nbr timer =>
      rw [owner] at used
      obtain ⟨it,here,_⟩ := good.nbr nbr timer used
      rw [destroyed,here]
      rfl
    | intf ei timer => rfl
    | runtime timer => rfl

end Settled

/-- The calls of a list, one after the other. -/
def play (eigrp : Runtime) (fired : List (TimerEvent Owner × Clock)) : List Call → Option (Runtime × List (TimerEvent Owner × Clock))
  | [] => some (eigrp, fired)
  | call :: rest =>
    match exec eigrp call with
    | some after => play after (fired ++ fires eigrp call) rest
    | none => none

theorem run_play {now : Clock} {calls : List Call} {eigrp after : Runtime} {fired all : List (TimerEvent Owner × Clock)}
    (run : Run now eigrp fired) (played : play eigrp fired calls = some (after, all)) : Run now after all := by
  induction calls generalizing eigrp fired with
  | nil =>
    injection played with same
    injection same with same_state same_fired
    exact same_state ▸ same_fired ▸ run
  | cons call rest ih =>
    rw [play] at played
    split at played
    · rename_i next completes
      exact ih (.call run call completes) played
    · cases played

/-- A second after the start, and five seconds later. -/
def first_second : Clock := ⟨1000,by decide⟩
def sixth_second : Clock := ⟨6000,by decide⟩

/-- A neighbor with a packet on the way is deleted when its retransmission and the pacing of the instance were due, while a prefix
    stays ACTIVE. -/
theorem timers_disciplined_deletion :
    ∃ eigrp fired, Run first_second eigrp fired ∧
      fired.map (fun firing => firing.1.owner) = [.packet 2, .runtime .t_pacing] ∧
      eigrp.timers.timer_head.map (fun link => (link.owner, link.due_msec)) = [(.destination 3, 91000)] ∧
      (eigrp.timers.timer_head.Pairwise TimerEvent.Before ∧
        (eigrp.timers.timer_head.map TimerEvent.id).Nodup ∧
        (∀ owner event, eigrp.timers.slot owner = some event ↔
          ∃ link ∈ eigrp.timers.timer_head, link.owner = owner ∧ link.id = event ∧
            ∀ other ∈ eigrp.timers.timer_head, other.owner = owner → other = link) ∧
        (fired.map Prod.fst).Pairwise TimerEvent.Before ∧
        (∀ firing ∈ fired, firing.1.due_msec ≤ firing.2.msec ∧ ∀ link ∈ eigrp.timers.timer_head, firing.1.Before link) ∧
        ∀ link ∈ eigrp.timers.timer_head, destroyed eigrp link.owner = false) :=
  have run := @run_play first_second
    [.thread_start, .nbr_create 1 true, .nbr_state_update 1 .pending, .nbr_holddown_update 1 true 15 (some 10),
      .packet_create 2 (some 1), .packet_enqueue 1 2 0, .retransmit_timer_start 1 5000 (some 11),
      .runtime_timer_add .t_pacing 5000 (some 12), .prefix_create 3, .fsm_active_timer_start 3 180 (some 13), .tick sixth_second,
      .due_dequeue, .due_dequeue, .nbr_unpublish 1, .nbr_free 1] _ _ _ _ .start rfl
  ⟨_,_,run,rfl,rfl,timers_disciplined run⟩

end Eigrp.Timers
