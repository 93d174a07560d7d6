import Eigrp.Restart

/-!
# Answers to an SIA-QUERY

A neighbor that waits too long for a REPLY asks again with an SIA-QUERY and tears the adjacency down
unless it is answered. A PASSIVE destination is answered by DUAL, as for a QUERY, and an ACTIVE one by
the receiver itself, after the event.
-/

namespace Eigrp
open Eigrp.Lib

/-! ## Items of an event -/

def Effect.item : Effect → Option Work
  | .enqueue work => some work
  | _ => none

/-- The items that a call queues, in their order. -/
def items (out : List Effect) : List Work := out.filterMap Effect.item

/-- The item that answers a neighbor, with the ACTIVE flag or without it. -/
def answer (opcode : Opcode) (id : Nat) (nbr : Nbr) (active : Bool) : Work :=
  { opcode, nbr := some nbr, pd := some (.shared id), route_active := active }

section Events
variable {env : Env} {pd next : PrefixDescriptor} {nbr : Nbr} {received : Received} {out rest : List Effect}

@[simp] theorem items_append : items (out ++ rest) = items out ++ items rest := List.filterMap_append

@[simp] theorem items_nil : items [] = [] := rfl

@[simp] theorem items_cons (effect : Effect) : items (effect :: out) = effect.item.toList ++ items out := by
  unfold items
  rw [List.filterMap_cons]
  cases effect.item <;> rfl

@[simp] theorem update_routing_table_items (env : Env) (pd : PrefixDescriptor) : items (update_routing_table env pd).2 = [] := by
  unfold update_routing_table
  dsimp only
  split
  · split <;> rfl
  · rfl

theorem keep_passive_items (env : Env) (pd : PrefixDescriptor) (used : RouteDescriptor) : items (keep_passive env pd used).2 = [] := by
  simp only [keep_passive]
  split <;> simp [Effect.item]

/-- The end of a computation answers the neighbor that asked for it before it announces the result. -/
theorem fsm_event_lr_items (asked : pd.state = .active_3) (origin : pd.query_origin = some nbr) :
    ∃ update, items (fsm_event_lr env pd).2 = [answer .reply pd.id nbr false,update] := by
  refine ⟨{ opcode := .update, exception := none },?_⟩
  simp only [fsm_event_lr,asked,passive_refresh_eq]
  cases route_read pd <;> simp [reply_send,reply_send_route,origin,Effect.item,update_send_all,answer]

/-- A PASSIVE destination answers the neighbor unless the event makes it ACTIVE. -/
theorem query_outcome_items {msg : Msg} {after : RouteDescriptor} (passive : pd.state = .passive) (query : msg.packet_type = .query)
    (sender : msg.adv_router = some nbr) (outcome : Outcome env msg after pd next out) :
    (next.state = .passive ∧ ∃ more, items out = answer .reply next.id nbr false :: more) ∨
      (next.state ≠ .passive ∧ items out = []) := by
  cases outcome with
  | commit used =>
    have control := keep_passive_control env pd used
    refine .inl ⟨control.state.trans passive,[],?_⟩
    simp [keep_passive_items,query,reply_send,reply_send_route,sender,Effect.item,answer]
  | start _ other => exact absurd query other
  | start_query =>
    simp only [fsm_event_q_fcn]
    rcases diffuse_cases env { pd with state := .active_3, query_origin := msg.adv_router } with ⟨_,asked⟩ | ⟨_,ended⟩
    · rw [asked]
      exact .inr ⟨by simp,by simp [Effect.item]⟩
    · rw [ended]
      have finished := fsm_event_lr_finished env
        { pd with state := .active_3, query_origin := msg.adv_router, t_active := false, rij := [] }
      obtain ⟨update,queued⟩ := @fsm_event_lr_items env
        { pd with state := .active_3, query_origin := msg.adv_router, t_active := false, rij := [] } nbr rfl sender
      refine .inl ⟨finished.state,[update],?_⟩
      rw [items_cons,queued,finished.id]
      rfl
  | wait active => exact absurd passive active
  | origin active => exact absurd passive active
  | increase _ states =>
    rcases states with ⟨odd,_⟩ | ⟨odd,_⟩ <;> simp [odd] at passive
  | last_reply odd =>
    rcases odd with odd | odd <;> simp [odd] at passive
  | last_reply_feasible _ _ even =>
    rcases even with even | even <;> simp [even] at passive
  | last_reply_infeasible even =>
    rcases even with even | even <;> simp [even] at passive

/-- An SIA-QUERY leaves an ACTIVE destination in its state, and DUAL says nothing. -/
theorem siaquery_outcome_items {msg : Msg} {after : RouteDescriptor} (active : pd.state ≠ .passive)
    (siaquery : msg.packet_type = .siaquery) (outcome : Outcome env msg after pd next out) :
    next.state ≠ .passive ∧ items out = [] := by
  cases outcome with
  | commit used passive => exact absurd passive active
  | start passive => exact absurd passive active
  | start_query passive => exact absurd passive active
  | wait => exact ⟨active,by simp [siaquery]⟩
  | origin _ query => simp [siaquery] at query
  | increase _ _ update => simp [siaquery] at update
  | last_reply _ reply => simp [siaquery] at reply
  | last_reply_feasible _ _ _ reply => simp [siaquery] at reply
  | last_reply_infeasible _ reply => simp [siaquery] at reply

/-- Exactly one answer is queued for the neighbor, and it says whether the destination is ACTIVE behind the event. -/
theorem siaquery_receive_items (done : siaquery_receive_pd env pd nbr received = some (next, out)) :
    ∃ opcode more, (opcode = .reply ∨ opcode = .siareply) ∧
      items out = answer opcode next.id nbr (next.state ≠ .passive) :: more := by
  obtain ⟨more,reaction,rfl⟩ := siaquery_receive_cases done
  obtain ⟨current,msg,after,rerouted,_,packet,sender,outcome⟩ := reaction.reacts
  have untouched : discharge current msg (some nbr) = current := by
    unfold discharge
    split
    · rename_i reply
      rw [packet] at reply
      split at reply <;> simp at reply
    · rfl
  rw [untouched] at outcome
  by_cases passive : pd.state = .passive
  · rw [if_pos passive] at packet
    rcases query_outcome_items (rerouted.state.trans passive) packet sender outcome with ⟨rests,rest,queued⟩ | ⟨started,silent⟩
    · exact ⟨.reply,rest,.inl rfl,by simp [rests,queued]⟩
    · exact ⟨.siareply,[],.inr rfl,by simp [started,silent,siareply_send,Effect.item,answer]⟩
  · rw [if_neg passive] at packet
    obtain ⟨active,silent⟩ := siaquery_outcome_items (rerouted.state ▸ passive) packet outcome
    exact ⟨.siareply,[],.inr rfl,by simp [active,silent,siareply_send,Effect.item,answer]⟩

theorem siaquery_receive_contained (done : siaquery_receive_pd env pd nbr received = some (next, out)) : Contained pd.id out := by
  obtain ⟨more,reaction,rfl⟩ := siaquery_receive_cases done
  refine .append (reaction_contained reaction) ?_
  split
  · have same : next.id = pd.id := (reaction_identity reaction).id
    exact .cons (by simp [siareply_send,Effect.contained,same]) .nil
  · exact .nil

end Events

/-! ## The queue -/

/-- The destination is ACTIVE. -/
def Instance.active (eigrp : Instance) (dest : Prefix) : Bool :=
  (eigrp.topology_table_lookup dest).any fun pd => pd.state ≠ .passive

/-- The item is about the destination. -/
def Work.about (eigrp : Instance) (dest : Prefix) (work : Work) : Prop :=
  match work.pd with
  | some (.shared id) => ∃ pd, eigrp.descriptor id = some pd ∧ pd.destination = dest
  | some (.owned pd) => pd.destination = dest
  | none => False

/-- A step queues a REPLY or SIA-REPLY about the destination for the neighbor, with the ACTIVE flag exactly if the
    destination is ACTIVE behind it. -/
def Answered (nbr : Nbr) (dest : Prefix) (before after : Instance) : Prop :=
  ∃ queued, after.packetizer = before.packetizer ++ queued ∧ ∃ work ∈ queued,
    (work.opcode = .reply ∨ work.opcode = .siareply) ∧ work.nbr = some nbr ∧ work.about after dest ∧
      work.route_active = after.active dest

section Queue
variable {eigrp : Instance} {id : Nat} {pd next : PrefixDescriptor} {out : List Effect} {dest : Prefix} {call : Call}

theorem effects_items (contained : Contained pd.id out) (eigrp : Instance) :
    (eigrp.effects pd out).packetizer = eigrp.packetizer ++ items out := by
  have single (effect : Effect) (eigrp : Instance) (inside : effect.contained pd.id) :
      (eigrp.effect pd effect).packetizer = eigrp.packetizer ++ effect.item.toList := by
    cases effect with
    | topology_change_once =>
      simp only [Instance.effect]
      split <;> simp [Effect.item]
    | rib_route_add route =>
      simp only [Instance.effect]
      split <;> simp [Effect.item,Instance.rib_write]
    | enqueue work => rfl
    | detach => simp [Effect.contained] at inside
    | _ => simp [Instance.effect,Effect.item,Instance.rib_write]
  unfold Instance.effects
  induction out generalizing eigrp with
  | nil => simp
  | cons effect out ih =>
    rw [List.foldl_cons,ih (fun other member => contained other (by simp [member])),single effect eigrp (contained effect (by simp)),
      items_cons,List.append_assoc]

/-- Writing one descriptor changes what the table finds for its destination, and nothing else. -/
theorem find_written {lookup changed : Nat → Option PrefixDescriptor} (found : lookup id = some pd)
    (same : next.destination = pd.destination) (numbered : ∀ other kept, lookup other = some kept → kept.id = other)
    (written : ∀ other, changed other = if other = id then some next else lookup other) (table : List Nat) :
    (table.filterMap changed).find? (fun pd => pd.destination = dest) =
      ((table.filterMap lookup).find? fun pd => pd.destination = dest).map fun pd => if pd.id = id then next else pd := by
  induction table with
  | nil => rfl
  | cons other table ih =>
    rw [List.filterMap_cons,List.filterMap_cons,written other]
    by_cases here : other = id
    · subst here
      rw [if_pos rfl,found]
      dsimp only
      rw [List.find?_cons,List.find?_cons,same]
      split
      · simp [numbered other pd found]
      · exact ih
    · rw [if_neg here]
      cases stored : lookup other with
      | none => exact ih
      | some kept =>
        dsimp only
        rw [List.find?_cons,List.find?_cons]
        split
        · simp [numbered other kept stored,here]
        · exact ih

/-- A call that stays within its destination leaves the changed descriptor where the old one was found. -/
theorem perform_lookup (looked : eigrp.topology_table_lookup dest = some pd) (done : exec eigrp.env pd call = some (next, out))
    (contained : Contained pd.id out) : (eigrp.perform pd.id call).topology_table_lookup dest = some next ∧
      (eigrp.perform pd.id call).descriptor pd.id = some next ∧
        (eigrp.perform pd.id call).packetizer = eigrp.packetizer ++ items out ∧ next.destination = dest := by
  obtain ⟨id,_,stored⟩ := List.mem_filterMap.1 (List.mem_of_find?_eq_some looked)
  have number : pd.id = id := (descriptor_mem stored).2
  have found : eigrp.descriptor pd.id = some pd := number ▸ stored
  have here : pd.destination = dest := by simpa using List.find?_some looked
  have identity := exec_identity done
  have inside : Contained next.id out := identity.id.symm ▸ contained
  have after (other : Nat) : (eigrp.perform pd.id call).descriptor other = if other = pd.id then some next else eigrp.descriptor other := by
    simp only [Instance.perform,found,done]
    rw [descriptor_of_prefixes (effects_prefixes next out _)]
    exact descriptor_write found identity.id other
  refine ⟨?_,(after pd.id).trans (if_pos rfl),?_,identity.destination.trans here⟩
  · have table : (eigrp.perform pd.id call).topology_table = eigrp.topology_table := by
      simp only [Instance.perform,found,done,(effects_contained inside _).1]
    have written := @find_written _ _ _ dest _ _ found identity.destination
      (fun other kept present => (descriptor_mem present).2) after eigrp.topology_table
    unfold Instance.topology_table_lookup at looked ⊢
    rw [table,written,looked]
    simp
  · simp only [Instance.perform,found,done]
    exact effects_items inside _

end Queue

/-- The TLV is about a destination of the table, and does not meet a PASSIVE one without routes unadmitted. -/
def answerable (eigrp : Instance) (nbr : Nbr) (received : Received) : Bool :=
  (eigrp.topology_table_lookup received.tlv.dest).any fun pd => !routeless eigrp.env (.siaquery_receive nbr received) pd

theorem not_answered_same {nbr : Nbr} {dest : Prefix} {before after : Instance} (same : after.packetizer = before.packetizer) :
    ¬ Answered nbr dest before after := by
  rintro ⟨queued,more,work,member,_⟩
  rw [same] at more
  have none : queued = [] := by simpa using more
  simp [none] at member

/-- The receiver of an SIA-QUERY answers exactly the TLVs that it hands to DUAL without a fault. -/
theorem siaquery_route_answered_iff {machine : Machine} {nbr : Nbr} (peer : nbr ≠ .self) (received : Received)
    (sound : machine.state.fault = none) :
    Answered nbr received.tlv.dest machine.state (known_receive_route (.siaquery_receive nbr) received machine).state ↔
      answerable machine.state nbr received := by
  unfold known_receive_route answerable
  cases looked : machine.state.topology_table_lookup received.tlv.dest with
  | none => exact iff_of_false (not_answered_same rfl) (by simp)
  | some pd =>
    dsimp only [Option.any_some]
    rw [Machine.perform,Machine.act_state sound]
    have sender : (Call.siaquery_receive nbr received).nbr ≠ some .self := by simpa [Call.nbr] using peer
    obtain ⟨id,_,stored⟩ := List.mem_filterMap.1 (List.mem_of_find?_eq_some looked)
    have found : machine.state.descriptor pd.id = some pd := (descriptor_mem stored).2 ▸ stored
    cases done : exec machine.state.env pd (.siaquery_receive nbr received) with
    | none =>
      have routeless := (handed_none_iff sender (by simp)).1 done
      exact iff_of_false (not_answered_same (by simp [Instance.act,Instance.perform,found,done,Instance.fail])) (by simp [routeless])
    | some result =>
      obtain ⟨next,out⟩ := result
      have sound : routeless machine.state.env (.siaquery_receive nbr received) pd = false := by
        by_contra fails
        have stops := (handed_none_iff sender (by simp)).2 (by simpa using fails)
        exact absurd (stops.symm.trans done) (by simp)
      refine iff_of_true ?_ (by simp [sound])
      obtain ⟨lookup,descriptor,queue,here⟩ := perform_lookup looked done (siaquery_receive_contained done)
      obtain ⟨opcode,more,kind,queued⟩ := siaquery_receive_items done
      refine ⟨items out,queue,answer opcode next.id nbr (next.state ≠ .passive),by simp [queued],kind,rfl,?_,?_⟩
      · exact ⟨next,(exec_identity done).id ▸ descriptor,here⟩
      · simp [answer,Instance.active,Instance.act,lookup]

/-! ## Packets -/

theorem walk_append (nbr : Nbr) (body : Received → Machine → Machine) (earlier later : List Received) (machine : Machine) :
    walk nbr false body (earlier ++ later) machine = walk nbr false body later (walk nbr false body earlier machine) := by
  induction earlier generalizing machine with
  | nil => rfl
  | cons received earlier ih => simpa [walk] using ih _

/-- The instance that a TLV finds behind the earlier ones of an SIA-QUERY. -/
def siaquery_found (nbr : Nbr) (packet : Packet) (earlier : List Received) (received : Received) (machine : Machine) : Machine :=
  limit_mark nbr received
    (walk nbr false (known_receive_route (.siaquery_receive nbr)) earlier (recv_sequence_update nbr packet machine))

/-- The receiver walks the rest of the packet from what it makes of the TLV. -/
theorem siaquery_receive_walk {machine : Machine} {nbr : Nbr} {neighbor : Neighbor} {packet : Packet} {earlier later : List Received}
    {received : Received} (known : machine.state.neighbor nbr = some neighbor) (up : neighbor.state = .up)
    (siaquery : packet.opcode = .siaquery) (arrives : packet.routes = earlier ++ received :: later) :
    packet_receive nbr packet machine =
      let walked := walk nbr false (known_receive_route (.siaquery_receive nbr)) later
        (known_receive_route (.siaquery_receive nbr) received (siaquery_found nbr packet earlier received machine))
      if packet.routes.any (·.limit_mark_down) then nbr_down nbr walked else walked := by
  have handled : ¬ (packet.opcode ≠ .update ∧ neighbor.state ≠ .up) := fun down => down.2 up
  have split : walk nbr false (known_receive_route (.siaquery_receive nbr)) packet.routes (recv_sequence_update nbr packet machine) =
      walk nbr false (known_receive_route (.siaquery_receive nbr)) later
        (known_receive_route (.siaquery_receive nbr) received (siaquery_found nbr packet earlier received machine)) := by
    rw [arrives,walk_append]
    rfl
  unfold packet_receive
  rw [known]
  dsimp only
  rw [if_neg handled,siaquery]
  dsimp only
  rw [split]

/-- In every run, each TLV of an SIA-QUERY from a neighbor that is UP is answered exactly if it can be. -/
theorem siaquery_answered_iff (metric : MetricConfig) (events : List Event) {ei id : Nat} {neighbor : Neighbor} {packet : Packet}
    {earlier later : List Received} {received : Received} (known : (run metric events).state.neighbor (.peer ei id) = some neighbor)
    (up : neighbor.state = .up) (siaquery : packet.opcode = .siaquery) (arrives : packet.routes = earlier ++ received :: later)
    (sound : (siaquery_found (.peer ei id) packet earlier received (run metric events)).state.fault = none) :
    let found := siaquery_found (.peer ei id) packet earlier received (run metric events)
    let behind := known_receive_route (.siaquery_receive (.peer ei id)) received found
    (packet_receive (.peer ei id) packet (run metric events) =
      let walked := walk (.peer ei id) false (known_receive_route (.siaquery_receive (.peer ei id))) later behind
      if packet.routes.any (·.limit_mark_down) then nbr_down (.peer ei id) walked else walked) ∧
    (Answered (.peer ei id) received.tlv.dest found.state behind.state ↔ answerable found.state (.peer ei id) received) :=
  ⟨siaquery_receive_walk known up siaquery arrives,siaquery_route_answered_iff (by simp) received sound⟩

/-- The neighbor has advertised a destination before it asks for it. -/
def advertised : List Event := two_neighbors ++ [.packet_receive (.peer 0 0) (route_packet .update 100)]

/-- The TLV of `route_packet`. -/
def route_tlv (delay : UInt64) : Received := { tlv := { dest := ⟨10,8⟩, metric := { delay, bandwidth := 100 } } }

theorem siaquery_answered_advertised :
    let found := siaquery_found (.peer 0 0) (route_packet .siaquery 100) [] (route_tlv 100) (run {} advertised)
    Answered (.peer 0 0) (route_tlv 100).tlv.dest found.state
      (known_receive_route (.siaquery_receive (.peer 0 0)) (route_tlv 100) found).state :=
  (@siaquery_answered_iff {} advertised 0 0 { id := 0, state := .up, recv_sequence_number := 1 } (route_packet .siaquery 100)
    [] [] (route_tlv 100) (by decide +kernel) rfl rfl rfl (by decide +kernel)).2.mpr (by decide +kernel)

/-- An SIA-QUERY for a destination that is not in the table queues nothing. -/
theorem siaquery_unknown_silent : ((run {} two_neighbors).state.neighbor (.peer 0 0)).any (·.state = .up) ∧
    ¬ Answered (.peer 0 0) ⟨10,8⟩ (run {} two_neighbors).state
      (packet_receive (.peer 0 0) (route_packet .siaquery 100) (run {} two_neighbors)).state :=
  ⟨by decide +kernel,not_answered_same (by decide +kernel)⟩

end Eigrp
