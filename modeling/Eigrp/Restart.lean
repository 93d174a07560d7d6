import Eigrp.Removal
import Eigrp.Total

/-!
# Graceful restart of a neighbor

A restarting neighbor sends its whole table again, in one UPDATE or in several of which only the
first and the last are marked. What it does not send again is withdrawn. The list of what is still
missing is kept from packet to packet, but the first packet frees it before the second one reads it.
-/

namespace Eigrp
open Eigrp.Lib

/-- Packets of one neighbor, in the order of their arrival. -/
def packets_receive (nbr : Nbr) (packets : List Packet) (machine : Machine) : Machine :=
  packets.foldl (fun machine packet => packet_receive nbr packet machine) machine

/-- A TLV of the neighbor tells DUAL that the neighbor does not reach the destination: it is a poison, or the inbound
    filter makes one of it. -/
def poisons (env : Env) (pd : PrefixDescriptor) (nbr : Nbr) (received : Received) : Bool :=
  let metric := metric_calculate env.metric (ingress_metric received)
  !update_dropped env pd nbr received && (metric == max_metric || metric == metric_max)

/-- The destination that DUAL is told in the step to be unreachable through the neighbor: the neighbor has not sent it
    again, it goes down, or one of its TLVs says so. -/
def step_asks (nbr : Nbr) (step : Step Instance Label) : Option Nat :=
  match step.label with
  | .perform id (.gr_ask sender) | .perform id (.neighbor_down sender) => if sender = nbr then some id else none
  | .perform id (.update_receive sender received) =>
    if sender = nbr ∧ (step.before.descriptor id).any fun pd => poisons step.before.env pd sender received then some id else none
  | _ => none

/-- The destinations that DUAL was told to be unreachable through the neighbor, one entry for each event. -/
def Machine.asked (nbr : Nbr) (machine : Machine) : List Nat := machine.trace.filterMap (step_asks nbr)

/-- A call that is not about a TLV of the neighbor by which the neighbor does not reach the destination. -/
def unpoisoned (nbr : Nbr) (eigrp : Instance) (call : Call) (pd : PrefixDescriptor) : Bool :=
  match call with
  | .update_receive sender received => sender != nbr || !poisons eigrp.env pd sender received
  | _ => true

/-- One of the routes is about the destination. -/
def readvertised (eigrp : Instance) (routes : List Received) (id : Nat) : Bool :=
  routes.any fun received => (eigrp.topology_table_lookup received.tlv.dest).any fun pd => pd.id = id

/-- What was learned from the neighbor and is in none of the packets. -/
def unadvertised (nbr : Nbr) (packets : List Packet) (eigrp : Instance) : List Nat :=
  (nbr_prefixes_lookup nbr eigrp).filter fun id => ¬ packets.any fun packet => readvertised eigrp packet.routes id

/-- A TLV for a destination that the table does not have is not recorded. -/
def Instance.refuses (eigrp : Instance) (received : Received) : Bool :=
  metric_calculate eigrp.metric received.tlv.metric = max_metric
    ∨ ¬ nbr_route_admitted eigrp.env received (ingress_metric received)

/-- The table of a restarting neighbor, in one packet or in several. -/
inductive RestartTable : List Packet → Prop
  | whole {packet : Packet} : packet.opcode = .update → packet.flags = init_flag + rs_flag + eot_flag → RestartTable [packet]
  | parts {first last : Packet} {middle : List Packet} : (∀ packet ∈ first :: middle ++ [last], packet.opcode = .update) →
      first.flags = init_flag + rs_flag → (∀ packet ∈ middle, packet.flags = 0) → last.flags = eot_flag →
      RestartTable (first :: middle ++ [last])

/-- The packets are processed, nothing is withdrawn before the last one, and behind it exactly what was learned from the
    neighbor and is in none of them. -/
structure Reconciled (nbr : Nbr) (packets : List Packet) (machine : Machine) : Prop where
  sound : (packets_receive nbr packets machine).state.fault = none
  early : ∀ earlier last, packets = earlier ++ [last] → (packets_receive nbr earlier machine).asked nbr = machine.asked nbr
  final : (packets_receive nbr packets machine).asked nbr = machine.asked nbr ++ unadvertised nbr packets machine.state

/-! ## Events of withdrawal -/

/-- The destination for which the operation withdraws what the neighbor has sent before. -/
def Label.withdraws (nbr : Nbr) : Label → Option Nat
  | .perform id (.gr_ask sender) | .perform id (.neighbor_down sender) => if sender = nbr then some id else none
  | _ => none

def Machine.withdrawn (nbr : Nbr) (machine : Machine) : List Nat := machine.trace.filterMap fun step => step.label.withdraws nbr

theorem filterMap_fewer {α β : Type} {first second : α → Option β}
    (covers : ∀ item found, second item = some found → first item = some found) (items : List α) :
    (items.filterMap second).length ≤ (items.filterMap first).length := by
  induction items with
  | nil => exact le_refl _
  | cons item items ih =>
    cases found : second item with
    | some value => simpa [List.filterMap_cons_some found,List.filterMap_cons_some (covers item value found)] using ih
    | none =>
      rw [List.filterMap_cons_none found]
      cases other : first item with
      | none => rwa [List.filterMap_cons_none other]
      | some value => simpa [List.filterMap_cons_some other] using ih.trans (Nat.le_succ _)

/-- Two readings of the items agree if one covers the other and finds no more. -/
theorem filterMap_agree {α β : Type} {first second : α → Option β} {items : List α}
    (covers : ∀ item found, second item = some found → first item = some found)
    (fewer : (items.filterMap first).length ≤ (items.filterMap second).length) : ∀ item ∈ items, first item = second item := by
  intro item member
  cases unread : second item with
  | some value => exact covers item value unread
  | none =>
    cases read : first item with
    | none => rfl
    | some value =>
      obtain ⟨earlier,later,rfl⟩ := List.append_of_mem member
      have before := filterMap_fewer covers earlier
      have behind := filterMap_fewer covers later
      rw [List.filterMap_append,List.filterMap_append,List.filterMap_cons_some read,List.filterMap_cons_none unread] at fewer
      simp only [List.length_append,List.length_cons] at fewer
      omega

theorem withdraws_asks {nbr : Nbr} {step : Step Instance Label} {id : Nat} (withdraws : step.label.withdraws nbr = some id) :
    step_asks nbr step = some id := by
  revert withdraws
  unfold step_asks Label.withdraws
  split <;> simp_all

/-- DUAL is told what is withdrawn and nothing else, exactly if no TLV poisons. -/
theorem asks_withdraws_iff {nbr : Nbr} {step : Step Instance Label} :
    step_asks nbr step = step.label.withdraws nbr ↔ ∀ call pd, Finds step call pd → unpoisoned nbr step.before call pd := by
  have other (silent : ∀ id sender received, step.label ≠ .perform id (.update_receive sender received)) :
      step_asks nbr step = step.label.withdraws nbr ∧ ∀ call pd, Finds step call pd → unpoisoned nbr step.before call pd := by
    constructor
    · unfold step_asks Label.withdraws
      split <;> simp_all
    · rintro call pd ⟨id,label,_⟩
      unfold unpoisoned
      split
      · rename_i sender received
        exact absurd label (silent id sender received)
      · rfl
  by_cases told : ∃ id sender received, step.label = .perform id (.update_receive sender received)
  · obtain ⟨id,sender,received,label⟩ := told
    simp only [step_asks,Label.withdraws,label]
    constructor
    · rintro silent call pd ⟨id',same,found⟩
      rw [label] at same
      cases same
      by_contra poison
      simp only [unpoisoned,Bool.or_eq_true,bne_iff_ne,ne_eq,Bool.not_eq_true',not_or,not_not,Bool.not_eq_false] at poison
      obtain ⟨rfl,poison⟩ := poison
      simp [found,poison] at silent
    · intro spared
      cases found : step.before.descriptor id with
      | none => simp
      | some pd =>
        have checked := spared (.update_receive sender received) pd ⟨id,label,found⟩
        simp only [unpoisoned,Bool.or_eq_true,bne_iff_ne,ne_eq,Bool.not_eq_true'] at checked
        rw [if_neg]
        rintro ⟨same,poison⟩
        rcases checked with foreign | quiet
        · exact foreign same
        · simp [quiet] at poison
  · obtain ⟨same,all⟩ := other fun id sender received label => told ⟨id,sender,received,label⟩
    exact ⟨fun _ => all,fun _ => same⟩

section Asked
variable {machine : Machine} {nbr : Nbr}

theorem Machine.act_withdrawn (label : Label) (silent : label.withdraws nbr = none) :
    (Machine.act label machine).withdrawn nbr = machine.withdrawn nbr := by
  unfold Machine.act
  split
  · rfl
  · simp [Machine.withdrawn,Recorded.record,silent]

theorem Machine.other_withdrawn (update : Instance → Instance) : (machine.other update).withdrawn nbr = machine.withdrawn nbr := by
  unfold Machine.other
  split
  · rfl
  · simp [Machine.withdrawn,Recorded.record,Label.withdraws]

theorem send_all_withdrawn (exception : Option Nat) : (send_all exception machine).withdrawn nbr = machine.withdrawn nbr := by
  refine (Machine.other_withdrawn _).trans ?_
  unfold query_send_all
  split
  · exact Machine.other_withdrawn _
  · rfl

theorem walk_withdrawn (routes : List Received) :
    (walk nbr true (update_receive_route nbr) routes machine).withdrawn nbr = machine.withdrawn nbr := by
  induction routes generalizing machine with
  | nil => rfl
  | cons received routes ih =>
    have marked : (limit_mark nbr received machine).withdrawn nbr = machine.withdrawn nbr := by
      unfold limit_mark
      split
      · exact Machine.other_withdrawn _
      · rfl
    have handled : (update_receive_route nbr received (limit_mark nbr received machine)).withdrawn nbr = machine.withdrawn nbr := by
      refine Eq.trans ?_ marked
      unfold update_receive_route
      split
      · exact Machine.act_withdrawn _ rfl
      · split
        · rfl
        · exact Machine.act_withdrawn _ rfl
    unfold walk
    dsimp only
    split
    · exact handled
    · exact ih.trans handled

/-- Without a fault every event of a loop over destinations is delivered. -/
theorem perform_loop_withdrawn {call : Call} (withdraws : ∀ id, (Label.perform id call).withdraws nbr = some id) (ids : List Nat)
    (sound : (ids.foldl (fun machine id => machine.perform id call) machine).state.fault = none) (outer : call.Outer) :
    (ids.foldl (fun machine id => machine.perform id call) machine).withdrawn nbr = machine.withdrawn nbr ++ ids := by
  induction ids generalizing machine with
  | nil => simp
  | cons id ids ih =>
    have later := (perform_loop_responds call outer ids (machine.perform id call)).continues.sound sound
    have before := (Machine.perform_responds id call machine outer).continues.sound later
    have first : (machine.perform id call).withdrawn nbr = machine.withdrawn nbr ++ [id] := by
      simp [Machine.perform,Machine.act,before,Machine.withdrawn,Recorded.record,withdraws]
    rw [List.foldl_cons,ih sound,first,List.append_assoc,List.singleton_append]

theorem nbr_down_withdrawn (peer : nbr ≠ .self) (sound : (nbr_down nbr machine).state.fault = none) :
    (nbr_down nbr machine).withdrawn nbr = machine.withdrawn nbr ++ machine.state.topology_table := by
  have outer : (Call.neighbor_down nbr).Outer := .heard peer rfl rfl
  have deferred : (nbr_down_deferred nbr machine).withdrawn nbr = machine.withdrawn nbr := Machine.other_withdrawn _
  have table := (@nbr_down_deferred_spares 0 nbr machine).topology_table
  unfold nbr_down topology_neighbor_down at sound ⊢
  have performed := (send_all_responds nbr.ei _).continues.sound sound
  unfold perform_all at performed ⊢
  rw [send_all_withdrawn,perform_loop_withdrawn (by simp [Label.withdraws]) _ performed outer,deferred,table]

end Asked

/-! ## The receive state -/

/-- What tells the packets of a restart apart: the last sequence number and the saved list. -/
def Instance.restart_state (eigrp : Instance) (nbr : Nbr) : Option (UInt32 × Bool) :=
  (eigrp.neighbor nbr).map fun neighbor => (neighbor.recv_sequence_number,neighbor.nbr_gr_prefixes)

theorem effects_eiflist (pd : PrefixDescriptor) (out : List Effect) (eigrp : Instance) :
    (eigrp.effects pd out).eiflist = eigrp.eiflist := by
  obtain ⟨_,_,_,_,same⟩ := effects_frame pd out eigrp
  rw [same]

/-- An operation on a descriptor leaves interfaces and neighbors alone. -/
theorem act_eiflist (eigrp : Instance) (label : Label) : (eigrp.act label).eiflist = eigrp.eiflist := by
  cases label with
  | perform id call =>
    simp only [Instance.act,Instance.perform]
    split
    · rfl
    · split
      · rfl
      · exact effects_eiflist _ _ _
  | create creation =>
    simp only [Instance.act,Instance.create]
    split
    · rfl
    · exact effects_eiflist _ _ _
  | detach id =>
    simp only [Instance.act]
    split
    · rfl
    · exact effects_eiflist _ [.detach] eigrp
  | delete id =>
    simp only [Instance.act,Instance.delete]
    split
    · rfl
    · split <;> rfl
  | free id => rfl
  | other => rfl

theorem neighbor_of_eiflist {eigrp other : Instance} (same : other.eiflist = eigrp.eiflist) (nbr : Nbr) :
    other.neighbor nbr = eigrp.neighbor nbr := by
  cases nbr with
  | self => rfl
  | peer ei id => simp only [Instance.neighbor,Instance.intf,same]

/-- An update that keeps the key is found where the item was. -/
theorem find_map {α κ : Type} [DecidableEq κ] (key : α → κ) {update : α → α} (same : ∀ item, key (update item) = key item)
    (items : List α) (wanted : κ) :
    (items.map update).find? (fun item => key item = wanted) = (items.find? fun item => key item = wanted).map update := by
  rw [List.find?_map]
  simp only [Function.comp_def,same]

theorem neighbor_write_neighbor (eigrp : Instance) (nbr : Nbr) {update : Neighbor → Neighbor}
    (same : ∀ neighbor, (update neighbor).id = neighbor.id) :
    (eigrp.neighbor_write nbr update).neighbor nbr = (eigrp.neighbor nbr).map update := by
  cases nbr with
  | self => rfl
  | peer ei id =>
    unfold Instance.neighbor Instance.intf Instance.neighbor_write
    dsimp only
    rw [find_map Intf.id (by intro intf; split <;> rfl)]
    cases found : eigrp.eiflist.find? fun intf => decide (intf.id = ei) with
    | none => rfl
    | some intf =>
      have here : intf.id = ei := by simpa using List.find?_some found
      have reached : Nbr.ei (.peer ei id) = some intf.id := by simp [Nbr.ei,here]
      simp only [Option.map_some,Option.bind_some,reached,if_true]
      rw [find_map Neighbor.id (by intro neighbor; split; exacts [same neighbor,rfl])]
      cases stored : intf.nbrs.find? fun neighbor => decide (neighbor.id = id) with
      | none => rfl
      | some neighbor =>
        have there : neighbor.id = id := by simpa using List.find?_some stored
        simp [here,there]

/-! ## Soundness of the walk -/

/-- The second instance is sound and has every destination of the first one. -/
structure Grown (before after : Instance) : Prop where
  fault : after.fault = none
  metric : after.metric = before.metric
  topology_table : before.topology_table ⊆ after.topology_table
  stored : ∀ id, (before.descriptor id).isSome → (after.descriptor id).isSome

theorem Grown.trans {before middle after : Instance} (first : Grown before middle) (second : Grown middle after) : Grown before after where
  fault := second.fault
  metric := second.metric.trans first.metric
  topology_table := List.Subset.trans first.topology_table second.topology_table
  stored := fun id present => second.stored id (first.stored id present)

theorem Grown.additive {before after : Instance} (additive : Additive before after) (sound : after.fault = none) : Grown before after where
  fault := sound
  metric := additive.metric
  topology_table := by
    rw [additive.frame.topology_table]
    exact List.Subset.refl _
  stored := by
    intro id present
    rwa [descriptor_of_prefixes additive.frame.prefixes]

theorem effects_contained {pd : PrefixDescriptor} {out : List Effect} (contained : Contained pd.id out) (eigrp : Instance) :
    (eigrp.effects pd out).topology_table = eigrp.topology_table ∧ (eigrp.effects pd out).metric = eigrp.metric := by
  have single (effect : Effect) (eigrp : Instance) (inside : effect.contained pd.id) :
      (eigrp.effect pd effect).topology_table = eigrp.topology_table ∧ (eigrp.effect pd effect).metric = eigrp.metric := by
    cases effect with
    | topology_change_once =>
      simp only [Instance.effect]
      split <;> exact ⟨rfl,rfl⟩
    | rib_route_add route =>
      simp only [Instance.effect]
      split <;> exact ⟨rfl,rfl⟩
    | detach => simp [Effect.contained] at inside
    | _ => exact ⟨rfl,rfl⟩
  unfold Instance.effects
  induction out generalizing eigrp with
  | nil => exact ⟨rfl,rfl⟩
  | cons effect out ih =>
    obtain ⟨table,metric⟩ := ih (fun other member => contained other (by simp [member])) (eigrp.effect pd effect)
    obtain ⟨first,same⟩ := single effect eigrp (contained effect (by simp))
    exact ⟨table.trans first,metric.trans same⟩

theorem perform_grown {eigrp : Instance} {id : Nat} {call : Call} (sound : eigrp.fault = none) (present : (eigrp.descriptor id).isSome)
    (total : ∀ pd, eigrp.descriptor id = some pd → exec eigrp.env pd call ≠ none)
    (contained : ∀ pd next out, exec eigrp.env pd call = some (next, out) → Contained pd.id out) :
    Grown eigrp (eigrp.perform id call) := by
  obtain ⟨pd,found⟩ := Option.isSome_iff_exists.mp present
  obtain ⟨⟨next,out⟩,done⟩ := Option.ne_none_iff_exists'.mp (total pd found)
  have inside : Contained next.id out := (exec_identity done).id ▸ contained pd next out done
  have result : (eigrp.perform id call).fault = none := by
    simp only [Instance.perform,found,done]
    exact (effects_next_id next out _).2.trans sound
  obtain ⟨_,_,_,_,_,stored⟩ := perform_step eigrp id call result
  refine ⟨result,?_,?_,fun other known => ?_⟩
  · simp only [Instance.perform,found,done]
    exact (effects_contained inside _).2
  · simp only [Instance.perform,found,done,(effects_contained inside _).1]
    exact List.Subset.refl _
  · rw [stored]
    split
    · rfl
    · exact known

theorem route_descriptor_add_contained (env : Env) (pd : PrefixDescriptor) (route : RouteDescriptor) {id : Nat} :
    Contained id (route_descriptor_add env pd route).2 := by
  unfold route_descriptor_add
  dsimp only
  split
  · exact .cons rfl .nil
  · exact .nil

theorem update_create_contained {env : Env} {id : Nat} {nbr : Nbr} {received : Received} {pd : PrefixDescriptor} {out : List Effect}
    (built : update_prefix_create env id nbr received = some (pd, out)) : Contained pd.id out := by
  unfold update_prefix_create at built
  obtain ⟨learned,_,built⟩ := Option.bind_eq_some_iff.mp built
  cases built
  exact .append (route_descriptor_add_contained env _ _) (.cons rfl .nil)

theorem create_grown {eigrp : Instance} {nbr : Nbr} {received : Received} (sound : eigrp.fault = none) (peer : nbr ≠ .self) :
    Grown eigrp (eigrp.create (.update nbr received)) ∧ eigrp.next_id ∈ (eigrp.create (.update nbr received)).topology_table := by
  have total := @build_total eigrp.env eigrp.next_id (.update nbr received) (by simpa [Label.nbr] using peer)
  obtain ⟨⟨pd,out⟩,built⟩ := Option.isSome_iff_exists.mp total
  have inside : Contained pd.id out := update_create_contained built
  have result : (eigrp.create (.update nbr received)).fault = none := by
    simp only [Instance.create,built]
    exact (effects_next_id pd out _).2.trans sound
  obtain ⟨_,_,_,_,stored⟩ := create_step eigrp (.update nbr received) result
  have table : (eigrp.create (.update nbr received)).topology_table = eigrp.topology_table ++ [eigrp.next_id] := by
    simp only [Instance.create,built,(effects_contained inside _).1]
  refine ⟨⟨result,?_,?_,fun other known => ?_⟩,by simp [table]⟩
  · simp only [Instance.create,built]
    exact (effects_contained inside _).2
  · rw [table]
    exact List.subset_append_left _ _
  · rw [stored]
    split
    · simp
    · exact known

section Walks
variable {machine : Machine} {nbr : Nbr}

theorem Machine.other_grown {update : Instance → Instance} (sound : machine.state.fault = none)
    (additive : ∀ eigrp, Additive eigrp (update eigrp)) (kept : (update machine.state).fault = none) :
    Grown machine.state (machine.other update).state := by
  rw [Machine.other_state sound]
  exact .additive (additive _) kept

theorem Machine.perform_grown {id : Nat} {call : Call} (sound : machine.state.fault = none) (present : (machine.state.descriptor id).isSome)
    (peer : call.nbr ≠ some .self) (other : ∀ ei, call ≠ .connected_interface_down ei)
    (checked : (machine.perform id call).calls_all routes_present)
    (contained : ∀ env pd next out, exec env pd call = some (next, out) → Contained pd.id out) :
    Grown machine.state (machine.perform id call).state := by
  have total (pd : PrefixDescriptor) (found : machine.state.descriptor id = some pd) : exec machine.state.env pd call ≠ none := by
    intro none
    have crash := (handed_none_iff peer other).mp none
    have finds := perform_checked checked sound found
    simp [routes_present,crash] at finds
  rw [Machine.perform,Machine.act_state sound]
  exact Eigrp.perform_grown sound present total (contained _)

theorem update_receive_contained {env : Env} {pd next : PrefixDescriptor} {received : Received} {out : List Effect}
    (done : exec env pd (.update_receive nbr received) = some (next, out)) : Contained pd.id out := by
  rcases update_receive_cases done with ⟨_,rfl⟩ | reaction
  · exact .nil
  · exact reaction_contained reaction

theorem refuses_of_metric {before after : Instance} (same : after.metric = before.metric) (received : Received) :
    after.refuses received = before.refuses received := by
  simp [Instance.refuses,nbr_route_admitted,Instance.env,same]

theorem limit_mark_grown (sound : machine.state.fault = none) (received : Received) :
    Grown machine.state (limit_mark nbr received machine).state := by
  unfold limit_mark
  split
  · exact Machine.other_grown sound (fun eigrp => .neighbor_write eigrp nbr _) sound
  · exact .additive (.refl _) sound

/-- A TLV is handled without a fault, and leaves an empty table empty exactly when it is refused. -/
theorem update_receive_route_grown (peer : nbr ≠ .self) (sound : machine.state.fault = none) (received : Received)
    (checked : (update_receive_route nbr received machine).calls_all routes_present) :
    Grown machine.state (update_receive_route nbr received machine).state ∧
      ((update_receive_route nbr received machine).state.topology_table = [] ↔
        machine.state.topology_table = [] ∧ machine.state.refuses received) := by
  unfold update_receive_route at checked ⊢
  cases found : machine.state.topology_table_lookup received.tlv.dest with
  | some pd =>
    rw [found] at checked
    have linked := lookup_stored_destination found
    have grown : Grown machine.state (machine.perform pd.id (.update_receive nbr received)).state :=
      Machine.perform_grown sound (by rw [linked.2.1]; rfl) (by simpa [Call.nbr] using peer) (by simp) checked
        (fun env pd next out done => update_receive_contained done)
    refine ⟨grown,fun empty => ?_,fun empty => ?_⟩
    · have member := grown.topology_table linked.1
      simp only at empty
      rw [empty] at member
      cases member
    · have member := linked.1
      rw [empty.1] at member
      cases member
  | none =>
    dsimp only
    by_cases refused : machine.state.refuses received
    · rw [if_pos (by simpa [Instance.refuses] using refused)]
      exact ⟨.additive (.refl _) sound,by simp [refused]⟩
    · rw [if_neg (by simpa [Instance.refuses] using refused)]
      rw [Machine.act_state sound]
      obtain ⟨grown,member⟩ := @create_grown _ _ received sound peer
      refine ⟨grown,fun empty => ?_,fun empty => absurd empty.2 refused⟩
      have empty : (machine.state.create (.update nbr received)).topology_table = [] := empty
      rw [empty] at member
      cases member

theorem walk_grown (peer : nbr ≠ .self) (sound : machine.state.fault = none) (routes : List Received)
    (checked : (walk nbr true (update_receive_route nbr) routes machine).calls_all routes_present) :
    Grown machine.state (walk nbr true (update_receive_route nbr) routes machine).state ∧
      ((walk nbr true (update_receive_route nbr) routes machine).state.topology_table = [] ↔
        machine.state.topology_table = [] ∧ ∀ received ∈ walked_routes routes, machine.state.refuses received) := by
  induction routes generalizing machine with
  | nil => exact ⟨.additive (.refl _) sound,by simp [walk,walked_routes]⟩
  | cons received routes ih =>
    have marked := @limit_mark_grown machine nbr sound received
    have table : (limit_mark nbr received machine).state.topology_table = machine.state.topology_table := by
      unfold limit_mark
      split
      · rw [Machine.other_state sound]
        rfl
      · rfl
    unfold walk at checked ⊢
    unfold walked_routes
    dsimp only at checked ⊢
    by_cases full : received.limit_mark_down
    · simp only [full,Bool.and_self,if_true,List.mem_singleton,forall_eq] at checked ⊢
      obtain ⟨handled,empty⟩ := update_receive_route_grown peer marked.fault received checked
      rw [refuses_of_metric marked.metric,table] at empty
      exact ⟨marked.trans handled,empty⟩
    · simp only [full,Bool.and_false,Bool.false_eq_true,if_false,List.mem_cons,forall_eq_or_imp] at checked ⊢
      have first := (walk_responds nbr true _ (fun received machine => update_receive_route_responds peer received machine) routes
        (update_receive_route nbr received (limit_mark nbr received machine))).continues.calls_all checked
      obtain ⟨handled,empty⟩ := update_receive_route_grown peer marked.fault received first
      rw [refuses_of_metric marked.metric,table] at empty
      have grown := marked.trans handled
      obtain ⟨later,rest⟩ := ih handled.fault checked
      refine ⟨grown.trans later,rest.trans ?_⟩
      rw [empty]
      simp only [refuses_of_metric grown.metric]
      tauto

theorem receive_gr_ask_grown (peer : nbr ≠ .self) {ids : List Nat} (sound : machine.state.fault = none)
    (present : ∀ id ∈ ids, (machine.state.descriptor id).isSome)
    (checked : (receive_gr_ask nbr ids machine).calls_all routes_present) :
    Grown machine.state (receive_gr_ask nbr ids machine).state := by
  induction ids generalizing machine with
  | nil => exact .additive (.refl _) sound
  | cons id ids ih =>
    have grown : Grown machine.state (machine.perform id (.gr_ask nbr)).state :=
      Machine.perform_grown sound (present id (by simp)) (by simpa [Call.nbr] using peer) (by simp)
        ((receive_gr_ask_responds peer ids (machine.perform id (.gr_ask nbr))).continues.calls_all checked)
        (fun env pd next out done => reaction_contained (gr_ask_reaction done))
    exact grown.trans (ih grown.fault (fun other member => grown.stored other (present other (by simp [member]))) checked)

theorem send_all_grown (sound : machine.state.fault = none) (exception : Option Nat) :
    Grown machine.state (send_all exception machine).state := by
  have queries : Grown machine.state (query_send_all machine).state := by
    unfold query_send_all
    split
    · exact Machine.other_grown sound (fun eigrp => .packetizer_enqueue eigrp (by simp [Work.unshared])) sound
    · exact .additive (.refl _) sound
  exact queries.trans (Machine.other_grown queries.fault (fun eigrp => .packetizer_enqueue eigrp (by simp [Work.unshared])) queries.fault)

end Walks

/-! ## The receive state along a packet -/

section Received
variable {machine : Machine} {nbr : Nbr} {neighbor : Neighbor} {packet : Packet} {sequence : UInt32}

theorem Machine.act_restart_state (label : Label) :
    (Machine.act label machine).state.restart_state nbr = machine.state.restart_state nbr := by
  unfold Machine.act
  split
  · rfl
  · simp only [Recorded.record,Instance.restart_state,neighbor_of_eiflist (act_eiflist machine.state label)]

theorem Machine.other_restart_state {update : Instance → Instance}
    (same : (update machine.state).restart_state nbr = machine.state.restart_state nbr) :
    (machine.other update).state.restart_state nbr = machine.state.restart_state nbr := by
  unfold Machine.other
  split
  · rfl
  · exact same

theorem send_all_restart_state (exception : Option Nat) :
    (send_all exception machine).state.restart_state nbr = machine.state.restart_state nbr := by
  refine (Machine.other_restart_state rfl).trans ?_
  unfold query_send_all
  split
  · exact Machine.other_restart_state rfl
  · rfl

theorem walk_restart_state (routes : List Received) :
    (walk nbr true (update_receive_route nbr) routes machine).state.restart_state nbr = machine.state.restart_state nbr := by
  induction routes generalizing machine with
  | nil => rfl
  | cons received routes ih =>
    have marked : (limit_mark nbr received machine).state.restart_state nbr = machine.state.restart_state nbr := by
      unfold limit_mark
      split
      · refine Machine.other_restart_state ?_
        rw [Instance.restart_state,neighbor_write_neighbor _ _ (by simp),Option.map_map]
        rfl
      · rfl
    have handled : (update_receive_route nbr received (limit_mark nbr received machine)).state.restart_state nbr =
        machine.state.restart_state nbr := by
      refine Eq.trans ?_ marked
      unfold update_receive_route
      split
      · exact Machine.act_restart_state _
      · split
        · rfl
        · exact Machine.act_restart_state _
    unfold walk
    dsimp only
    split
    · exact handled
    · exact ih.trans handled

theorem receive_gr_ask_restart_state (ids : List Nat) :
    (receive_gr_ask nbr ids machine).state.restart_state nbr = machine.state.restart_state nbr := by
  unfold receive_gr_ask
  induction ids generalizing machine with
  | nil => rfl
  | cons id ids ih => exact ih.trans (Machine.act_restart_state _)

/-- The packet as the receive functions see it: its number is noted first. -/
def noted (nbr : Nbr) (packet : Packet) (machine : Machine) : Machine :=
  machine.other fun eigrp => eigrp.neighbor_write nbr fun neighbor => neighbor.update_received packet

theorem noted_eq (nbr : Nbr) (packet : Packet) (machine : Machine) :
    (machine.other fun eigrp => eigrp.neighbor_write nbr fun neighbor => neighbor.update_received packet) = noted nbr packet machine := rfl

theorem update_received_fields (neighbor : Neighbor) (packet : Packet) :
    (neighbor.update_received packet).id = neighbor.id ∧ (neighbor.update_received packet).nbr_gr_prefixes = neighbor.nbr_gr_prefixes ∧
      (neighbor.update_received packet).recv_sequence_number = packet.sequence := by
  unfold Neighbor.update_received
  dsimp only
  split
  · exact ⟨rfl,rfl,rfl⟩
  · split <;> exact ⟨rfl,rfl,rfl⟩

theorem noted_restart_state (sound : machine.state.fault = none) (known : machine.state.neighbor nbr = some neighbor) :
    (noted nbr packet machine).state.restart_state nbr = some (packet.sequence,neighbor.nbr_gr_prefixes) := by
  rw [noted,Machine.other_state sound,Instance.restart_state,
    neighbor_write_neighbor _ _ (fun neighbor => (update_received_fields neighbor packet).1),known]
  simp [update_received_fields]

theorem noted_lookup (machine : Machine) (destination : Prefix) :
    (noted nbr packet machine).state.topology_table_lookup destination = machine.state.topology_table_lookup destination :=
  other_lookup (.neighbor_write _ nbr _) destination

theorem noted_prefixes (sound : machine.state.fault = none) :
    nbr_prefixes_lookup nbr (noted nbr packet machine).state = nbr_prefixes_lookup nbr machine.state := by
  rw [noted,Machine.other_state sound]
  rfl

/-- The receive state is written, but neither number nor saved list of it. -/
structure Calm (update : Neighbor → Neighbor) : Prop where
  id : ∀ neighbor, (update neighbor).id = neighbor.id
  recv_sequence_number : ∀ neighbor, (update neighbor).recv_sequence_number = neighbor.recv_sequence_number
  nbr_gr_prefixes : ∀ neighbor, (update neighbor).nbr_gr_prefixes = neighbor.nbr_gr_prefixes

theorem Calm.restart_state {update : Neighbor → Neighbor} (calm : Calm update) (eigrp : Instance) :
    (eigrp.neighbor_write nbr update).restart_state nbr = eigrp.restart_state nbr := by
  rw [Instance.restart_state,neighbor_write_neighbor _ _ calm.id,Option.map_map,Instance.restart_state]
  simp only [Function.comp_def,calm.recv_sequence_number,calm.nbr_gr_prefixes]

/-- A restart in one packet: the packet is walked, and then asked about what it does not have. -/
theorem whole_receive (sound : machine.state.fault = none) (known : machine.state.neighbor nbr = some neighbor)
    (flags : packet.flags = init_flag + rs_flag + eot_flag) (fresh : neighbor.recv_sequence_number ≠ packet.sequence) :
    ∃ update, Calm update ∧ update_receive nbr packet machine = send_all nbr.ei (Machine.other (fun eigrp => eigrp.neighbor_write nbr update)
      (receive_gr_ask nbr (unreceived packet machine.state (nbr_prefixes_lookup nbr machine.state))
        (walk nbr true (update_receive_route nbr) packet.routes (noted nbr packet machine)))) := by
  have reception : update_reception neighbor packet = .gr_final := by
    simp [update_reception,flags,fresh,init_flag,rs_flag,eot_flag]
  have pending : resync_complete neighbor packet = false := by
    simp [resync_complete,flags,init_flag,rs_flag,eot_flag]
  have missing : unreceived packet (noted nbr packet machine).state = unreceived packet machine.state := by
    funext ids
    simp only [unreceived,noted_lookup]
  refine ⟨fun neighbor => { neighbor with
    peer_init_resync_prefixes := neighbor.peer_init_resync_prefixes.map (unreceived packet machine.state) },⟨by simp,by simp,by simp⟩,?_⟩
  have walked := @noted_prefixes machine nbr packet sound
  simp only [update_receive,known,reception,pending]
  simp [noted_eq,walked,missing]

/-- The first packet of several saves the list that it frees. -/
theorem first_receive (sound : machine.state.fault = none) (known : machine.state.neighbor nbr = some neighbor)
    (flags : packet.flags = init_flag + rs_flag) (fresh : neighbor.recv_sequence_number ≠ packet.sequence)
    (received : (update_receive nbr packet machine).state.fault = none) :
    (update_receive nbr packet machine).state.restart_state nbr = some (packet.sequence,true) := by
  have reception : update_reception neighbor packet = .gr_start := by
    simp [update_reception,flags,fresh,init_flag,rs_flag,eot_flag]
  have pending : resync_complete neighbor packet = false := by
    simp [resync_complete,flags,init_flag,rs_flag,eot_flag]
  have state := (@walk_restart_state (noted nbr packet machine) nbr packet.routes).trans (noted_restart_state sound known)
  simp only [update_receive,known,reception,pending] at received ⊢
  simp only [noted_eq,reduceCtorEq,if_false,Bool.false_eq_true] at received ⊢
  have written := (send_all_responds nbr.ei _).continues.sound received
  have walked := (neighbor_write_responds nbr _ _).continues.sound written
  rw [send_all_restart_state]
  rw [Machine.other_state walked,Instance.restart_state,neighbor_write_neighbor _ _ (by simp),Option.map_map]
  obtain ⟨found,there,same⟩ := Option.map_eq_some_iff.mp state
  have number : found.recv_sequence_number = packet.sequence := congrArg Prod.fst same
  simp [there,number]

/-- A later packet of several reads the list after it was freed. -/
theorem later_receive (known : machine.state.restart_state nbr = some (sequence,true))
    (flags : packet.flags = 0 ∨ packet.flags = eot_flag) (fresh : sequence ≠ packet.sequence) :
    (update_receive nbr packet machine).state.fault ≠ none := by
  obtain ⟨neighbor,found,state⟩ := Option.map_eq_some_iff.mp known
  obtain ⟨rfl,saved⟩ := Prod.ext_iff.mp state
  have saved : neighbor.nbr_gr_prefixes = true := saved
  have fresh : neighbor.recv_sequence_number ≠ packet.sequence := fresh
  have reception : update_reception neighbor packet = .gr_saved := by
    rcases flags with flags | flags <;> simp [update_reception,flags,fresh,saved,init_flag,rs_flag,eot_flag]
  have stops (walked : Machine) : (walked.other fun eigrp => eigrp.fail .dangling).state.fault ≠ none := by
    intro sound
    have before := (fail_continues walked).sound sound
    rw [Machine.other_state before] at sound
    cases sound
  simp only [update_receive,found,reception,if_true]
  exact stops _

/-- What a restart in one packet leaves behind. -/
structure WholeReceived (nbr : Nbr) (packet : Packet) (before after : Machine) : Prop where
  sound : after.state.fault = none
  withdrawn : after.withdrawn nbr = before.withdrawn nbr ++ unreceived packet before.state (nbr_prefixes_lookup nbr before.state)
  empty : after.state.topology_table = [] ↔
    before.state.topology_table = [] ∧ ∀ received ∈ walked_routes packet.routes, before.state.refuses received
  saved : after.state.restart_state nbr = (before.state.restart_state nbr).map fun state => (packet.sequence,state.2)

theorem whole_received (sound : machine.state.fault = none) (known : machine.state.neighbor nbr = some neighbor)
    (flags : packet.flags = init_flag + rs_flag + eot_flag) (fresh : neighbor.recv_sequence_number ≠ packet.sequence)
    (checked : (update_receive nbr packet machine).calls_all routes_present) :
    WholeReceived nbr packet machine (update_receive nbr packet machine) := by
  obtain ⟨update,calm,received⟩ := whole_receive sound known flags fresh
  have peer : nbr ≠ .self := neighbor_peer (by rw [known]; rfl)
  have noted_grown : Grown machine.state (noted nbr packet machine).state :=
    Machine.other_grown sound (fun eigrp => .neighbor_write eigrp nbr _) sound
  have table : (noted nbr packet machine).state.topology_table = machine.state.topology_table := by
    rw [noted,Machine.other_state sound]
    rfl
  generalize ids_eq : unreceived packet machine.state (nbr_prefixes_lookup nbr machine.state) = ids at received
  rw [received] at checked ⊢
  have asked := (neighbor_write_responds nbr _ _).continues.calls_all ((send_all_responds nbr.ei _).continues.calls_all checked)
  have handled := (receive_gr_ask_responds peer ids _).continues.calls_all asked
  obtain ⟨walked,empty⟩ := walk_grown peer noted_grown.fault packet.routes handled
  have present : ∀ id ∈ ids, (machine.state.descriptor id).isSome := by
    intro id member
    rw [← ids_eq] at member
    have learned := (List.mem_filter.mp (List.mem_of_mem_filter member)).2
    cases stored : machine.state.descriptor id with
    | none => simp [stored] at learned
    | some pd => rfl
  have asks := receive_gr_ask_grown peer walked.fault
    (fun id member => walked.stored id (noted_grown.stored id (present id member))) asked
  have written := Machine.other_grown asks.fault (fun eigrp => Additive.neighbor_write eigrp nbr update) asks.fault
  have sent := send_all_grown written.fault nbr.ei
  have outer : (Call.gr_ask nbr).Outer := .heard peer rfl rfl
  refine ⟨sent.fault,?_,⟨fun gone => ?_,fun gone => ?_⟩,?_⟩
  · rw [send_all_withdrawn,Machine.other_withdrawn,ids_eq]
    have loop := @perform_loop_withdrawn _ nbr (.gr_ask nbr) (by simp [Label.withdraws]) ids asks.fault outer
    unfold receive_gr_ask
    rw [loop,walk_withdrawn,noted,Machine.other_withdrawn]
  · have earlier := List.subset_nil.mp (gone ▸ (asks.trans (written.trans sent)).topology_table)
    obtain ⟨first,refused⟩ := empty.mp earlier
    refine ⟨table.symm.trans first,fun received member => ?_⟩
    rw [← refuses_of_metric noted_grown.metric]
    exact refused received member
  · have none_asked : ids = [] := by
      rw [← ids_eq,nbr_prefixes_lookup,gone.1]
      rfl
    have refused : ∀ received ∈ walked_routes packet.routes, (noted nbr packet machine).state.refuses received := by
      intro received member
      rw [refuses_of_metric noted_grown.metric]
      exact gone.2 received member
    rw [(@send_all_spares 0 nbr.ei _).topology_table,Machine.other_state asks.fault,none_asked]
    exact empty.mpr ⟨table.trans gone.1,refused⟩
  · rw [send_all_restart_state,Machine.other_state asks.fault,calm.restart_state,receive_gr_ask_restart_state,walk_restart_state,
      noted_restart_state sound known,Instance.restart_state,known]
    rfl

/-- Taking the neighbor down frees a saved list a second time. -/
theorem nbr_down_saved (saved : machine.state.restart_state nbr = some (sequence,true)) : (nbr_down nbr machine).state.fault ≠ none := by
  obtain ⟨neighbor,found,state⟩ := Option.map_eq_some_iff.mp saved
  have saved : neighbor.nbr_gr_prefixes = true := congrArg Prod.snd state
  have peer : nbr ≠ .self := neighbor_peer (by rw [found]; rfl)
  intro sound
  unfold nbr_down at sound
  have deferred := (topology_neighbor_down_concludes peer _).responds.continues.sound sound
  have before := (nbr_down_deferred_responds nbr machine).continues.sound deferred
  rw [nbr_down_deferred,Machine.other_state before,found] at deferred
  simp [saved,Instance.fail] at deferred

/-- A neighbor without destinations is taken down without an event. -/
theorem nbr_down_empty (sound : machine.state.fault = none) (empty : machine.state.topology_table = [])
    (unsaved : machine.state.restart_state nbr = some (sequence,false)) : (nbr_down nbr machine).state.fault = none := by
  obtain ⟨neighbor,found,state⟩ := Option.map_eq_some_iff.mp unsaved
  have unsaved : neighbor.nbr_gr_prefixes = false := congrArg Prod.snd state
  have deferred : (nbr_down_deferred nbr machine).state.fault = none := by
    rw [nbr_down_deferred,Machine.other_state sound,found]
    simp only [unsaved,Bool.false_eq_true,if_false]
    exact sound
  unfold nbr_down topology_neighbor_down perform_all
  rw [(@nbr_down_deferred_spares 0 nbr machine).topology_table,empty]
  exact (send_all_grown deferred nbr.ei).fault

theorem walked_routes_subset (routes : List Received) : walked_routes routes ⊆ routes := by
  induction routes with
  | nil => exact List.Subset.refl _
  | cons received routes ih =>
    unfold walked_routes
    split
    · simp
    · exact List.cons_subset_cons received ih

theorem walked_routes_all {routes : List Received} (unlimited : ¬ routes.any (·.limit_mark_down)) : walked_routes routes = routes := by
  induction routes with
  | nil => rfl
  | cons received routes ih =>
    simp only [List.any_cons,Bool.or_eq_true,not_or] at unlimited
    rw [walked_routes,if_neg unlimited.1,ih unlimited.2]

theorem unadvertised_whole (eigrp : Instance) :
    (unadvertised nbr [packet] eigrp).length ≤ (unreceived packet eigrp (nbr_prefixes_lookup nbr eigrp)).length ∧
      (¬ packet.routes.any (·.limit_mark_down) →
        unadvertised nbr [packet] eigrp = unreceived packet eigrp (nbr_prefixes_lookup nbr eigrp)) := by
  constructor
  · refine (List.monotone_filter_right _ fun id absent => ?_).length_le
    simp only [List.any_cons,List.any_nil,Bool.or_false,readvertised,decide_eq_true_eq,Bool.not_eq_true,List.any_eq_false] at absent ⊢
    intro received member
    exact absent received (walked_routes_subset _ member)
  · intro unlimited
    simp only [unadvertised,unreceived,walked_routes_all unlimited,readvertised,List.any_cons,List.any_nil,Bool.or_false]

theorem update_packet_receive (known : machine.state.neighbor nbr = some neighbor) (update : packet.opcode = .update) :
    packet_receive nbr packet machine = if packet.routes.any (·.limit_mark_down) then
      nbr_down nbr (update_receive nbr packet machine) else update_receive nbr packet machine := by
  simp [packet_receive,known,update]

theorem packet_receive_continues (nbr : Nbr) (packets : List Packet) (machine : Machine) :
    machine.Continues (packets_receive nbr packets machine) :=
  Recorded.Extends.foldl _ (fun machine packet => (packet_receive_responds nbr packet machine).continues) _ _

/-- Without a poison DUAL is told what is withdrawn. -/
theorem Machine.Continues.asked {next : Machine} {ids : List Nat} (continues : machine.Continues next)
    (withdrawn : next.withdrawn nbr = machine.withdrawn nbr ++ ids) (spared : (next.since machine).calls_all (unpoisoned nbr)) :
    next.asked nbr = machine.asked nbr ++ ids := by
  obtain ⟨steps,trace,_⟩ := continues
  rw [Machine.calls_all_iff,Machine.since,trace,List.drop_left] at spared
  simp only [Machine.withdrawn,trace,List.filterMap_append,List.append_cancel_left_eq] at withdrawn
  rw [Machine.asked,Machine.asked,trace,List.filterMap_append,← withdrawn]
  congr 1
  exact List.filterMap_congr fun step member => asks_withdraws_iff.mpr (spared step member)

/-- If DUAL is told no more than is withdrawn there is no poison. -/
theorem Machine.Continues.unpoisoned {next : Machine} {ids told : List Nat} (continues : machine.Continues next)
    (withdrawn : next.withdrawn nbr = machine.withdrawn nbr ++ ids) (asked : next.asked nbr = machine.asked nbr ++ told)
    (fewer : told.length ≤ ids.length) : (next.since machine).calls_all (unpoisoned nbr) := by
  obtain ⟨steps,trace,_⟩ := continues
  simp only [Machine.withdrawn,trace,List.filterMap_append,List.append_cancel_left_eq] at withdrawn
  simp only [Machine.asked,trace,List.filterMap_append,List.append_cancel_left_eq] at asked
  rw [Machine.calls_all_iff,Machine.since,trace,List.drop_left]
  intro step member
  rw [← asked,← withdrawn] at fewer
  exact asks_withdraws_iff.mp (filterMap_agree (fun step id => withdraws_asks) fewer step member)

/-- One packet is reconciled if every TLV finds the routes that DUAL reads and none is a poison, unless its limit takes
    the neighbor down while there is a destination to lose. -/
theorem whole_reconciled_iff (sound : machine.state.fault = none) (known : machine.state.neighbor nbr = some neighbor)
    (update : packet.opcode = .update) (flags : packet.flags = init_flag + rs_flag + eot_flag)
    (fresh : neighbor.recv_sequence_number ≠ packet.sequence) (tidy : ∀ pd ∈ machine.state.prefixes, Tidy pd)
    (past : machine.calls_all routes_present) :
    Reconciled nbr [packet] machine ↔ (packet.routes.any (·.limit_mark_down) → neighbor.nbr_gr_prefixes = false ∧
      machine.state.topology_table = [] ∧ ∀ received ∈ walked_routes packet.routes, machine.state.refuses received) ∧
      ((packets_receive nbr [packet] machine).since machine).calls_all routes_present ∧
      ((packets_receive nbr [packet] machine).since machine).calls_all (unpoisoned nbr) := by
  have peer : nbr ≠ .self := neighbor_peer (by rw [known]; rfl)
  have continues := packet_receive_continues nbr [packet] machine
  have updates := (update_receive_concludes nbr packet machine).responds.continues
  have downs := (nbr_down_concludes peer (update_receive nbr packet machine)).responds.continues
  have early : ∀ earlier last, [packet] = earlier ++ [last] → (packets_receive nbr earlier machine).asked nbr = machine.asked nbr := by
    intro earlier last split
    have none_earlier : earlier = [] := by
      have lengths := congrArg List.length split
      exact List.length_eq_zero_iff.mp (by simpa using lengths)
    rw [none_earlier]
    rfl
  have received : packets_receive nbr [packet] machine = if packet.routes.any (·.limit_mark_down) then
      nbr_down nbr (update_receive nbr packet machine) else update_receive nbr packet machine :=
    update_packet_receive known update
  obtain ⟨fewer,exact⟩ := @unadvertised_whole nbr packet machine.state
  have saved (whole : WholeReceived nbr packet machine (update_receive nbr packet machine)) :
      (update_receive nbr packet machine).state.restart_state nbr = some (packet.sequence,neighbor.nbr_gr_prefixes) := by
    rw [whole.saved,Instance.restart_state,known]
    rfl
  by_cases limited : packet.routes.any (·.limit_mark_down)
  · rw [if_pos limited] at received
    simp only [limited,true_implies]
    constructor
    · rintro ⟨kept,_,final⟩
      rw [received] at kept continues
      have once := downs.sound kept
      have whole := whole_received sound known flags fresh (updates.calls_all_iff.mpr ⟨past,updates.present tidy once⟩)
      have unsaved : neighbor.nbr_gr_prefixes = false := by
        by_contra set
        rw [Bool.not_eq_false] at set
        exact nbr_down_saved (set ▸ saved whole) kept
      have withdrawn := (nbr_down_withdrawn peer kept).trans (by rw [whole.withdrawn,List.append_assoc])
      rw [received] at final ⊢
      have spared := continues.unpoisoned withdrawn final (by rw [List.length_append]; omega)
      rw [continues.asked withdrawn spared] at final
      have counted := congrArg List.length (List.append_cancel_left final)
      rw [List.length_append] at counted
      have empty : (update_receive nbr packet machine).state.topology_table = [] := List.length_eq_zero_iff.mp (by omega)
      exact ⟨⟨unsaved,whole.empty.mp empty⟩,continues.present tidy kept,spared⟩
    · rintro ⟨⟨unsaved,empty,refused⟩,present,spared⟩
      rw [received] at present spared continues
      have whole := whole_received sound known flags fresh (downs.calls_all (continues.calls_all_iff.mpr ⟨past,present⟩))
      have gone := whole.empty.mpr ⟨empty,refused⟩
      have kept := nbr_down_empty whole.sound gone (unsaved ▸ saved whole)
      have none_learned : nbr_prefixes_lookup nbr machine.state = [] := by
        rw [nbr_prefixes_lookup,empty]
        rfl
      refine ⟨received ▸ kept,early,?_⟩
      rw [received,continues.asked ((nbr_down_withdrawn peer kept).trans (by rw [whole.withdrawn,List.append_assoc])) spared,gone,none_learned]
      simp [unreceived,unadvertised,none_learned]
  · rw [if_neg limited] at received
    rw [received] at continues ⊢
    constructor
    · rintro ⟨kept,_,final⟩
      rw [received] at kept final
      have whole := whole_received sound known flags fresh (updates.calls_all_iff.mpr ⟨past,updates.present tidy kept⟩)
      exact ⟨fun full => absurd full limited,continues.present tidy kept,continues.unpoisoned whole.withdrawn final fewer⟩
    · rintro ⟨_,present,spared⟩
      have whole := whole_received sound known flags fresh (continues.calls_all_iff.mpr ⟨past,present⟩)
      refine ⟨received ▸ whole.sound,early,?_⟩
      rw [received,continues.asked whole.withdrawn spared,← exact limited]

/-- Of several packets the second one finds a list that was freed. -/
theorem parts_fault {first second : Packet} {later : List Packet} (sound : machine.state.fault = none)
    (known : machine.state.neighbor nbr = some neighbor) (updates : first.opcode = .update ∧ second.opcode = .update)
    (first_flags : first.flags = init_flag + rs_flag) (second_flags : second.flags = 0 ∨ second.flags = eot_flag)
    (fresh : neighbor.recv_sequence_number ≠ first.sequence ∧ first.sequence ≠ second.sequence) :
    (packets_receive nbr (first :: second :: later) machine).state.fault ≠ none := by
  intro final
  have peer : nbr ≠ .self := neighbor_peer (by rw [known]; rfl)
  have twice := (packet_receive_continues nbr later (packet_receive nbr second (packet_receive nbr first machine))).sound final
  have once := (packet_receive_responds nbr second _).continues.sound twice
  have saved := first_receive sound known first_flags fresh.1
  rw [update_packet_receive known updates.1] at once twice
  by_cases limited : first.routes.any (·.limit_mark_down)
  · rw [if_pos limited] at once
    exact nbr_down_saved (saved ((nbr_down_concludes peer _).responds.continues.sound once)) once
  · rw [if_neg limited] at once twice
    obtain ⟨_,found,_⟩ := Option.map_eq_some_iff.mp (saved once)
    have later := later_receive (saved once) second_flags fresh.2
    rw [update_packet_receive found updates.2] at twice
    split at twice
    · exact later ((nbr_down_concludes peer _).responds.continues.sound twice)
    · exact later twice

end Received

/-! ## Restarts in runs -/

/-- For every run, neighbor and table of a restart: what is missing is withdrawn behind the last packet, and nothing else,
    exactly when the table comes in one packet, no limit takes the neighbor down with a destination to lose, every call
    finds the routes that DUAL reads, and no TLV is unreachable while the neighbor's route is stored. -/
theorem restart_reconciled_iff (metric : MetricConfig) (events : List Event) (nbr : Nbr) (neighbor : Neighbor) (packets : List Packet)
    (sound : (run metric events).state.fault = none) (known : (run metric events).state.neighbor nbr = some neighbor)
    (table : RestartTable packets) (fresh : (neighbor.recv_sequence_number :: packets.map (·.sequence)).IsChain (· ≠ ·)) :
    Reconciled nbr packets (run metric events) ↔ ∃ packet, packets = [packet] ∧
      (packet.routes.any (·.limit_mark_down) → neighbor.nbr_gr_prefixes = false ∧ (run metric events).state.topology_table = [] ∧
        ∀ received ∈ walked_routes packet.routes, (run metric events).state.refuses received) ∧
      ((packets_receive nbr packets (run metric events)).since (run metric events)).calls_all routes_present ∧
      ((packets_receive nbr packets (run metric events)).since (run metric events)).calls_all (unpoisoned nbr) := by
  cases table with
  | @whole packet update flags =>
    have different : neighbor.recv_sequence_number ≠ packet.sequence := by simpa using fresh
    have begun : (Instance.start metric).Continues (run metric events) := Recorded.Extends.foldl handle handle_continues events _
    have past := begun.calls_all_iff.mpr ⟨rfl,begun.present (by simp [Instance.start]) sound⟩
    rw [whole_reconciled_iff sound known update flags different (run_tidy (.inl rfl)) past]
    simp
  | @parts first last middle updates first_flags middle_flags last_flags =>
    have several (packet : Packet) : first :: middle ++ [last] ≠ [packet] := by simp
    refine ⟨fun reconciled => absurd reconciled.sound ?_,?_⟩
    swap
    · rintro ⟨packet,single,_⟩
      exact absurd single (several packet)
    obtain ⟨second,later,split⟩ : ∃ second later, middle ++ [last] = second :: later :=
      List.exists_cons_of_ne_nil (by simp)
    have member : second ∈ middle ++ [last] := by simp [split]
    rw [List.cons_append,split] at updates fresh ⊢
    simp only [List.map_cons,List.isChain_cons_cons] at fresh
    refine parts_fault sound known ⟨updates first (by simp),updates second (by simp)⟩ first_flags ?_ ⟨fresh.1,fresh.2.1⟩
    rcases List.mem_append.mp member with member | member
    · exact .inl (middle_flags second member)
    · rw [List.mem_singleton.mp member]
      exact .inr last_flags

/-- A neighbor has announced two destinations. -/
def learned_twice : List Event :=
  two_neighbors ++ [.packet_receive (.peer 0 0)
    { opcode := .update, routes := [{ tlv := { dest := ⟨10,8⟩, metric := { delay := 100, bandwidth := 100 } } },
      { tlv := { dest := ⟨20,8⟩, metric := { delay := 100, bandwidth := 100 } } }] }]

/-- A packet of its restart with the first of them. -/
def restart_packet (flags sequence : UInt32) : Packet := { route_packet .update 100 with flags, sequence }

theorem restart_reconciled_once :
    Reconciled (.peer 0 0) [restart_packet (init_flag + rs_flag + eot_flag) 2] (run {} learned_twice) ∧
      unadvertised (.peer 0 0) [restart_packet (init_flag + rs_flag + eot_flag) 2] (run {} learned_twice).state = [1] := by
  constructor
  · refine (restart_reconciled_iff {} learned_twice (.peer 0 0) (((run {} learned_twice).state.neighbor (.peer 0 0)).get (by decide +kernel))
      _ (by decide +kernel) (by simp) (.whole rfl rfl) ?_).mpr
        ⟨_,rfl,(by simp [restart_packet,route_packet]),by decide +kernel,by decide +kernel⟩
    have different : (((run {} learned_twice).state.neighbor (.peer 0 0)).get (by decide +kernel)).recv_sequence_number ≠ 2 := by
      decide +kernel
    simpa [restart_packet] using different
  · decide +kernel

/-- In two packets the second one reads the freed list. -/
theorem restart_in_two_not_reconciled : ¬ ∀ metric events nbr neighbor packets, (run metric events).state.fault = none →
    (run metric events).state.neighbor nbr = some neighbor → RestartTable packets →
      (neighbor.recv_sequence_number :: packets.map (·.sequence)).IsChain (· ≠ ·) → Reconciled nbr packets (run metric events) := by
  intro reconciles
  have reconciled := reconciles {} learned_twice (.peer 0 0)
    (((run {} learned_twice).state.neighbor (.peer 0 0)).get (by decide +kernel))
    [restart_packet (init_flag + rs_flag) 2,restart_packet eot_flag 3] (by decide +kernel) (by simp)
    (@RestartTable.parts (restart_packet (init_flag + rs_flag) 2) (restart_packet eot_flag 3) [] (by simp [restart_packet,route_packet])
      rfl (by simp) rfl) ?_
  · have fails : (packets_receive (.peer 0 0) [restart_packet (init_flag + rs_flag) 2,restart_packet eot_flag 3]
        (run {} learned_twice)).state.fault = some .dangling := by decide +kernel
    have sound := reconciled.sound
    rw [fails] at sound
    cases sound
  · have different : (((run {} learned_twice).state.neighbor (.peer 0 0)).get (by decide +kernel)).recv_sequence_number ≠ 2 := by
      decide +kernel
    simpa [restart_packet] using different

end Eigrp
