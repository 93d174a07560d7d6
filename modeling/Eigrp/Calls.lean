import Eigrp.Dual
import Eigrp.Instance

/-!
# Calls as messages to DUAL

Most calls hand one message to `eigrp_fsm_event`, about the route of one neighbor, after storing what
the packet says of that route. `Reaction` is what such a call does, and the loss of a neighbor
without a route is a REPLY of that neighbor in the same sense.
-/

namespace Eigrp

theorem lookup_stored {pd : PrefixDescriptor} {nbr : Nbr} {route : RouteDescriptor}
    (found : prefix_descriptor_lookup pd nbr = some route) : route ∈ pd.routes ∧ route.adv_router = some nbr :=
  ⟨List.mem_of_find?_eq_some found,by simpa using List.find?_some found⟩

/-! ## Flags under updates of routes -/

theorem route_write_eq_map (pd : PrefixDescriptor) (id : Nat) (update : RouteDescriptor → RouteDescriptor) :
    route_write pd id update = routes_map pd fun route => if route.id = id then update route else route := rfl

theorem flagged_map {pd : PrefixDescriptor} {update : RouteDescriptor → RouteDescriptor} (flag : RouteDescriptor → Bool)
    (number : ∀ route, (update route).id = route.id) (kept : ∀ route, flag (update route) = flag route) :
    flagged flag (routes_map pd update) = flagged flag pd := by
  ext id
  constructor
  · rintro ⟨other,member,rfl,raised⟩
    obtain ⟨route,stored,rfl⟩ := mem_routes_map.mp member
    exact ⟨route,stored,(number route).symm,by rw [← kept,raised]⟩
  · rintro ⟨route,stored,rfl,raised⟩
    exact ⟨update route,mem_routes_map.mpr ⟨route,stored,rfl⟩,number route,by rw [kept,raised]⟩

/-- An update that keeps number and flags. -/
theorem sameFlags_map {pd : PrefixDescriptor} {update : RouteDescriptor → RouteDescriptor}
    (number : ∀ route, (update route).id = route.id) (successor : ∀ route, (update route).successor = route.successor)
    (intable : ∀ route, (update route).intable = route.intable) : SameFlags pd (routes_map pd update) :=
  ⟨flagged_map _ number successor,flagged_map _ number intable⟩

/-- A route with a number of its own. -/
theorem tidy_insert_new {pd : PrefixDescriptor} {route : RouteDescriptor} (tidy : Tidy pd) (numbered : route.id < pd.next_route)
    (new : ∀ other ∈ pd.routes, other.id ≠ route.id) : Tidy (route_insert pd route) := by
  have same := routes_insert_perm pd route
  have next_route : (route_insert pd route).next_route = pd.next_route := by
    unfold route_insert
    split <;> rfl
  constructor
  · refine (same.map (·.id)).nodup_iff.mpr (List.nodup_cons.mpr ⟨?_,tidy.numbers⟩)
    intro member
    obtain ⟨other,stored,equal⟩ := List.mem_map.mp member
    exact new other stored equal
  · intro other member
    rw [next_route]
    rcases List.mem_cons.mp (same.mem_iff.mp member) with rfl | stored
    · exact numbered
    · exact tidy.bounded other stored

/-- A route with the next number. -/
theorem tidy_insert {pd : PrefixDescriptor} {route : RouteDescriptor} (tidy : Tidy pd) (number : route.id = pd.next_route) :
    Tidy (route_insert { pd with next_route := pd.next_route + 1 } route) := by
  apply tidy_insert_new
  · exact ⟨tidy.numbers,fun other member => Nat.lt_succ_of_lt (tidy.bounded other member)⟩
  · exact number ▸ Nat.lt_succ_self _
  · intro other member
    exact number ▸ Nat.ne_of_lt (tidy.bounded other member)

/-! ## Messages -/

/-- The routes of `next` are numbered, carry the flags they had, and agree with the message's route. -/
structure InOrder (pd next : PrefixDescriptor) (route : RouteDescriptor) : Prop where
  tidy : Tidy next
  numbered : route.id < next.next_route
  flags : SameFlags pd next
  consistent : Consistent next route

/-- A descriptor and a route that differ from the stored ones only in what a packet says of the route. -/
structure Presented (pd start : PrefixDescriptor) (route : RouteDescriptor) : Prop where
  rerouted : Rerouted pd start
  order : Tidy pd → InOrder pd start route

theorem presented_stored {pd : PrefixDescriptor} {route : RouteDescriptor} {update : RouteDescriptor → RouteDescriptor}
    (stored : route ∈ pd.routes) (number : ∀ route, (update route).id = route.id)
    (successor : ∀ route, (update route).successor = route.successor)
    (intable : ∀ route, (update route).intable = route.intable) :
    Presented pd (route_write pd route.id update) (update route) where
  rerouted := route_write_rerouted pd route.id update
  order := by
    intro tidy
    rw [route_write_eq_map]
    refine ⟨(routes_map_numbers pd ?_).tidy tidy,?_,sameFlags_map ?_ ?_ ?_,?_,?_⟩
    · intro other
      split <;> simp [number]
    · rw [number]
      exact tidy.bounded route stored
    · intro other
      split <;> simp [number]
    · intro other
      split <;> simp [successor]
    · intro other
      split <;> simp [intable]
    · intro other member same
      obtain ⟨found,present,rfl⟩ := mem_routes_map.mp member
      rw [number] at same
      have foundId : found.id = route.id := by
        split at same
        · simpa [number] using same
        · exact same
      have equal := tidy.unique stored present foundId
      subst equal
      simp
    · intro missing
      refine absurd ?_ (missing (update route) (mem_routes_map.mpr ⟨route,stored,by simp⟩))
      rfl

theorem presented_self {pd : PrefixDescriptor} {route : RouteDescriptor} (stored : route ∈ pd.routes) :
    Presented pd pd route where
  rerouted := .refl pd
  order := by
    intro tidy
    refine ⟨tidy,tidy.bounded route stored,.refl pd,?_,fun missing => absurd rfl (missing route stored)⟩
    intro other member same
    rw [tidy.unique stored member same]
    exact ⟨rfl,rfl⟩

theorem presented_fresh {pd : PrefixDescriptor} {route : RouteDescriptor} (number : route.id = pd.next_route)
    (successor : route.successor = false) (intable : route.intable = false) :
    Presented pd { pd with next_route := pd.next_route + 1 } route where
  rerouted := .of_routes pd _ _ _
  order := by
    intro tidy
    have spared : Tidy { pd with next_route := pd.next_route + 1 } :=
      ⟨tidy.numbers,fun other member => Nat.lt_succ_of_lt (tidy.bounded other member)⟩
    refine ⟨spared,?_,⟨rfl,rfl⟩,?_,fun _ => ⟨successor,intable⟩⟩
    · rw [number]
      exact Nat.lt_succ_self _
    intro other member same
    have bound := tidy.bounded other member
    omega

/-- What a message of one neighbor about its route does: the routes are brought up to date, its REPLY is taken
    off, and one outcome follows. -/
structure Reaction (env : Env) (pd : PrefixDescriptor) (packet : Opcode) (sender : Option Nbr) (nbr : Nbr)
    (next : PrefixDescriptor) (out : List Effect) : Prop where
  reacts : ∃ (current : PrefixDescriptor) (msg : Msg) (after : RouteDescriptor), Rerouted pd current ∧
    (Tidy pd → Tidy current) ∧ msg.packet_type = packet ∧ msg.adv_router = sender ∧
      Outcome env msg after (discharge current msg (some nbr)) next out

section Reactions
variable {env : Env} {pd start next : PrefixDescriptor} {route : RouteDescriptor} {nbr : Nbr} {msg : Msg} {out : List Effect}

theorem Presented.outcome (presented : Presented pd start route) (done : fsm_event env start msg route = some (next, out)) :
    ∃ current after, Rerouted pd current ∧ (Tidy pd → Tidy current) ∧
      (∀ nbr, route.adv_router = some nbr → after.adv_router = some nbr) ∧
        Outcome env msg after (discharge current msg after.adv_router) next out := by
  obtain ⟨current,_,after,_,measured,outcome⟩ := fsm_event_outcome done
  have linking := update_distance_linking measured
  refine ⟨current,after,presented.rerouted.trans linking.rerouted,?_,fun _ known => linking.adv_router known,outcome⟩
  intro tidy
  have order := presented.order tidy
  exact linking.tidy order.tidy order.numbered

theorem Presented.reaction (presented : Presented pd start route) (adv_router : route.adv_router = some nbr)
    (done : fsm_event env start msg route = some (next, out)) :
    Reaction env pd msg.packet_type msg.adv_router nbr next out := by
  obtain ⟨current,after,rerouted,order,known,outcome⟩ := presented.outcome done
  rw [known nbr adv_router] at outcome
  exact ⟨current,msg,after,rerouted,order,rfl,rfl,outcome⟩

/-- Whose route it is matters for a REPLY only. -/
theorem Presented.reaction_other (presented : Presented pd start route) (other : msg.packet_type ≠ .reply)
    (done : fsm_event env start msg route = some (next, out)) :
    Reaction env pd msg.packet_type msg.adv_router nbr next out := by
  obtain ⟨current,after,rerouted,order,_,outcome⟩ := presented.outcome done
  refine ⟨current,msg,after,rerouted,order,rfl,rfl,?_⟩
  simpa [discharge,other] using outcome

end Reactions

section Packets
variable {env : Env} {pd next : PrefixDescriptor} {nbr : Nbr} {received : Received} {out : List Effect}

theorem receive_reaction {packet : Opcode} {tlv : Tlv} {metrics : Metrics} {admitted : Bool}
    (done : receive env pd packet nbr tlv metrics admitted = some (next, out)) :
    Reaction env pd packet (some nbr) nbr next out := by
  unfold receive at done
  dsimp only at done
  split at done
  · rename_i route found
    obtain ⟨stored,adv_router⟩ := lookup_stored found
    have presented : Presented pd (route_write pd route.id fun route => refreshed route tlv) (refreshed route tlv) :=
      presented_stored stored (fun _ => rfl) (fun _ => rfl) (fun _ => rfl)
    exact presented.reaction adv_router done
  · exact (presented_fresh rfl rfl rfl).reaction rfl done

theorem update_receive_eq (env : Env) (pd : PrefixDescriptor) (nbr : Nbr) (received : Received) :
    update_receive_pd env pd nbr received = some (pd, []) ∨
      update_receive_pd env pd nbr received = receive env pd .update nbr received.tlv (ingress_metric received) true := by
  unfold update_receive_pd
  dsimp only
  generalize (!metric_calculate env.metric (ingress_metric received) == max_metric &&
    if (prefix_descriptor_lookup pd nbr).isSome then !received.topology_prefix_admitted
    else !nbr_route_admitted env received (ingress_metric received)) = refused
  split
  · exact .inl rfl
  · split
    · exact .inl rfl
    · exact .inr rfl

theorem update_receive_cases (done : update_receive_pd env pd nbr received = some (next, out)) :
    (next = pd ∧ out = []) ∨ Reaction env pd .update (some nbr) nbr next out := by
  rcases update_receive_eq env pd nbr received with refused | taken
  · rw [refused] at done
    cases done
    exact .inl ⟨rfl,rfl⟩
  · rw [taken] at done
    exact .inr (receive_reaction done)

theorem query_unknown_route_record_rerouted (done : query_unknown_route_record env pd nbr received = some next) :
    Rerouted pd next := by
  unfold query_unknown_route_record at done
  split at done
  · cases done
    exact .refl pd
  · split at done
    · obtain ⟨⟨result,_,_,_⟩,measured,finished⟩ := Option.bind_eq_some_iff.mp done
      cases finished
      exact (route_write_rerouted _ _ _).trans (update_distance_linking measured).rerouted
    · obtain ⟨route,_,finished⟩ := Option.bind_eq_some_iff.mp done
      cases finished
      exact (Rerouted.of_routes pd _ _ _).trans (route_insert_rerouted _ route)

theorem query_unknown_route_record_tidy (done : query_unknown_route_record env pd nbr received = some next) (tidy : Tidy pd) :
    Tidy next := by
  unfold query_unknown_route_record at done
  split at done
  · cases done
    exact tidy
  · split at done
    · rename_i previous found
      obtain ⟨⟨result,_,_,_⟩,measured,finished⟩ := Option.bind_eq_some_iff.mp done
      cases finished
      have presented : Presented pd (route_write pd previous.id fun route => refreshed route received.tlv)
          (refreshed previous received.tlv) :=
        presented_stored (lookup_stored found).1 (fun _ => rfl) (fun _ => rfl) (fun _ => rfl)
      have order := presented.order tidy
      exact (update_distance_linking measured).tidy order.tidy order.numbered
    · obtain ⟨route,learned,finished⟩ := Option.bind_eq_some_iff.mp done
      cases finished
      obtain ⟨_,_,rfl⟩ := Option.map_eq_some_iff.mp learned
      exact tidy_insert tidy rfl

/-- A QUERY is answered at a summary boundary or for a destination without a path, or it goes to DUAL. -/
theorem query_receive_cases (done : query_receive_pd env pd nbr received = some (next, out)) :
    (∃ summary, next = pd ∧ out = [query_summary_reply_send nbr received.tlv summary]) ∨
    (pd.state = .passive ∧ Rerouted pd next ∧ out = [query_unknown_reply_send nbr received.tlv] ∧ (Tidy pd → Tidy next)) ∨
      Reaction env pd .query (some nbr) nbr next out := by
  unfold query_receive_pd at done
  split at done
  · cases done
    exact .inl ⟨_,rfl,rfl⟩
  · split at done
    · rename_i unelected
      obtain ⟨recorded,found,finished⟩ := Option.bind_eq_some_iff.mp done
      cases finished
      exact .inr (.inl ⟨unelected.1,query_unknown_route_record_rerouted found,rfl,query_unknown_route_record_tidy found⟩)
    · exact .inr (.inr (receive_reaction done))

theorem reply_receive_cases (done : reply_receive_pd env pd nbr received = some (next, out)) :
    (pd.state = .passive ∧ next = pd ∧ out = []) ∨
      (pd.state ≠ .passive ∧ Reaction env pd .reply (some nbr) nbr next out) := by
  unfold reply_receive_pd at done
  split at done
  · rename_i passive
    cases done
    exact .inl ⟨passive,rfl,rfl⟩
  · rename_i active
    exact .inr ⟨active,receive_reaction done⟩

theorem siaquery_receive_cases (done : siaquery_receive_pd env pd nbr received = some (next, out)) :
    ∃ more, Reaction env pd (if pd.state = .passive then .query else .siaquery) (some nbr) nbr next more ∧
      out = more ++ if next.state ≠ .passive then [siareply_send next nbr true] else [] := by
  obtain ⟨⟨result,more⟩,received,finished⟩ := Option.bind_eq_some_iff.mp done
  cases finished
  exact ⟨more,receive_reaction received,rfl⟩

/-- An SIA-REPLY is ignored unless the neighbor owes a REPLY; it extends the time or stands for the REPLY. -/
theorem siareply_receive_cases (done : siareply_receive_pd env pd nbr received = some (next, out)) :
    (next = pd ∧ out = [] ∧ (pd.state = .passive ∨ ¬ reply_status_pending pd nbr)) ∨
    (opaque_active received.tlv.metric ∧ pd.state ≠ .passive ∧ next = sia_reply_received pd nbr ∧ out = []) ∨
      (¬ opaque_active received.tlv.metric ∧ pd.state ≠ .passive ∧ reply_status_pending pd nbr ∧
        Reaction env pd .reply (some nbr) nbr next out) := by
  unfold siareply_receive_pd at done
  split at done
  · rename_i idle
    cases done
    exact .inl ⟨rfl,rfl,idle⟩
  · rename_i waiting
    push Not at waiting
    split at done
    · rename_i still
      cases done
      exact .inr (.inl ⟨still,waiting.1,rfl,rfl⟩)
    · rename_i final
      dsimp only at done
      split at done
      · rename_i route found
        obtain ⟨stored,adv_router⟩ := lookup_stored found
        exact .inr (.inr ⟨final,waiting.1,waiting.2,(presented_self stored).reaction adv_router done⟩)
      · exact .inr (.inr ⟨final,waiting.1,waiting.2,(presented_fresh rfl rfl rfl).reaction rfl done⟩)

theorem gr_ask_reaction (done : gr_ask_pd env pd nbr = some (next, out)) :
    Reaction env pd .update (some nbr) nbr next out := by
  unfold gr_ask_pd at done
  dsimp only at done
  split at done
  · rename_i route found
    obtain ⟨stored,adv_router⟩ := lookup_stored found
    exact (presented_self stored).reaction adv_router done
  · exact (presented_fresh rfl rfl rfl).reaction rfl done

end Packets

/-! ## Loss of neighbors and interfaces -/

section Losses
variable {env : Env} {pd next : PrefixDescriptor} {nbr : Nbr} {out : List Effect}

/-- A lost neighbor of which no route is stored stands for a REPLY about a route that never existed. -/
def neighbor_down_reply (nbr : Nbr) : Msg := { packet_type := .reply, adv_router := some nbr, data_type := .int }

theorem fsm_neighbor_down_outcome (done : fsm_neighbor_down env pd nbr = some (next, out)) :
    (next = pd ∧ out = [] ∧ (pd.state = .passive ∨ ¬ reply_status_pending pd nbr)) ∨
      (pd.state ≠ .passive ∧ reply_status_pending pd nbr ∧
        Outcome env (neighbor_down_reply nbr) { id := pd.next_route } (discharge pd (neighbor_down_reply nbr) (some nbr)) next out) := by
  unfold fsm_neighbor_down at done
  split at done
  · rename_i idle
    cases done
    exact .inl ⟨rfl,rfl,idle⟩
  · rename_i waiting
    push Not at waiting
    obtain ⟨active,pending⟩ := waiting
    refine .inr ⟨active,pending,?_⟩
    have removed : discharge pd (neighbor_down_reply nbr) (some nbr) = reply_status_remove pd (some nbr) := by
      simp [discharge,active,neighbor_down_reply]
    have stays : (reply_status_remove pd (some nbr)).state = pd.state := rfl
    rw [removed]
    dsimp only at done
    split at done
    · rename_i owed
      cases done
      exact .wait active (fun _ => owed) (by simp [neighbor_down_reply])
    · rename_i owed
      have owed : (reply_status_remove pd (some nbr)).rij = [] := by simpa using owed
      split at done
      · rename_i even
        split at done
        · exact .last_reply_feasible next out even rfl owed done
        · cases done
          exact .last_reply_infeasible even rfl owed
      · rename_i odd
        cases done
        refine .last_reply ?_ rfl owed
        rw [stays] at odd ⊢
        cases state : pd.state <;> simp_all

theorem fsm_neighbor_down_cases (done : fsm_neighbor_down env pd nbr = some (next, out)) :
    (next = pd ∧ out = [] ∧ (pd.state = .passive ∨ ¬ reply_status_pending pd nbr)) ∨
      (pd.state ≠ .passive ∧ reply_status_pending pd nbr ∧ Reaction env pd .reply (some nbr) nbr next out) := by
  rcases fsm_neighbor_down_outcome done with idle | ⟨active,pending,outcome⟩
  · exact .inl idle
  · exact .inr ⟨active,pending,pd,neighbor_down_reply nbr,{ id := pd.next_route },.refl pd,fun tidy => tidy,rfl,rfl,outcome⟩

/-- Losing a neighbor withdraws its route, or stands for the REPLY it owed. -/
theorem neighbor_lost_cases (done : neighbor_lost env pd nbr = some (next, out)) :
    (next = pd ∧ out = [] ∧ (pd.state = .passive ∨ ¬ reply_status_pending pd nbr)) ∨
    (pd.state = .passive ∧ Reaction env pd .update (some nbr) nbr next out) ∨
      (pd.state ≠ .passive ∧ Reaction env pd .reply (some nbr) nbr next out) := by
  unfold neighbor_lost at done
  split at done
  · rename_i route found
    obtain ⟨stored,adv_router⟩ := lookup_stored found
    have reaction := (presented_self stored).reaction adv_router done
    by_cases passive : pd.state = .passive
    · exact .inr (.inl ⟨passive,by simpa [passive] using reaction⟩)
    · exact .inr (.inr ⟨passive,by simpa [passive] using reaction⟩)
  · rcases fsm_neighbor_down_cases done with idle | ⟨active,_,reaction⟩
    · exact .inl idle
    · exact .inr (.inr ⟨active,reaction⟩)

/-- Any number of UPDATEs of the router itself. -/
inductive Withdrawals (env : Env) : PrefixDescriptor → PrefixDescriptor → List Effect → Prop
  | nil (pd : PrefixDescriptor) : Withdrawals env pd pd []
  | cons {pd middle next : PrefixDescriptor} {out rest : List Effect} :
      Reaction env pd .update (some .self) .self middle out → Withdrawals env middle next rest →
        Withdrawals env pd next (out ++ rest)

theorem connected_routes_down_withdrawals {ids : List Nat} (done : connected_routes_down env ids pd = some (next, out)) :
    Withdrawals env pd next out := by
  induction ids generalizing pd next out with
  | nil =>
    cases done
    exact .nil pd
  | cons id ids ih =>
    obtain ⟨route,found,done⟩ := Option.bind_eq_some_iff.mp done
    obtain ⟨⟨middle,first⟩,event,done⟩ := Option.bind_eq_some_iff.mp done
    obtain ⟨⟨last,rest⟩,loop,finished⟩ := Option.bind_eq_some_iff.mp done
    cases finished
    have reaction : Reaction env pd .update (some .self) .self middle first :=
      (presented_self (List.mem_of_find?_eq_some found)).reaction_other (by simp) event
    exact .cons reaction (ih loop)

end Losses

/-! ## Local routes -/

section Local
variable {env : Env} {pd next : PrefixDescriptor} {source : Source} {out : List Effect}

/-- A fresh route that carries no flag and has no interface is only stored. -/
theorem route_descriptor_add_plain {route : RouteDescriptor} (plain : route.ei = none) :
    route_descriptor_add env pd route = (route_insert pd route, []) := by
  unfold route_descriptor_add
  simp only [southbound_nexthop,plain,Option.map_none]
  split <;> simp_all

theorem sameFlags_insert {route : RouteDescriptor} (successor : route.successor = false) (intable : route.intable = false) :
    SameFlags pd (route_insert pd route) := by
  have plain (flag : RouteDescriptor → Bool) (lowered : flag route = false) :
      flagged flag (route_insert pd route) = flagged flag pd := by
    ext id
    constructor
    · rintro ⟨other,member,rfl,raised⟩
      rcases mem_routes_insert.mp member with rfl | stored
      · simp [lowered] at raised
      · exact ⟨other,stored,rfl,raised⟩
    · rintro ⟨other,stored,rfl,raised⟩
      exact ⟨other,mem_routes_insert.mpr (.inr stored),rfl,raised⟩
  exact ⟨plain _ successor,plain _ intable⟩

/-- A route that is stored first, without flags, and then changed as a packet says. -/
theorem presented_inserted {fresh : RouteDescriptor} {update : RouteDescriptor → RouteDescriptor} (fresh_id : fresh.id = pd.next_route)
    (lowered : fresh.successor = false ∧ fresh.intable = false) (number : ∀ route, (update route).id = route.id)
    (successor : ∀ route, (update route).successor = route.successor) (intable : ∀ route, (update route).intable = route.intable) :
    Presented pd (route_write (route_insert { pd with next_route := pd.next_route + 1 } fresh) fresh.id update) (update fresh) := by
  have added := presented_stored (mem_routes_insert.mpr (.inl rfl) : fresh ∈ (route_insert { pd with next_route := pd.next_route + 1 } fresh).routes)
    number successor intable
  refine ⟨((Rerouted.of_routes pd _ _ _).trans (route_insert_rerouted _ _)).trans added.rerouted,fun tidy => ?_⟩
  obtain ⟨ordered,bounded,flags,consistent⟩ := added.order (tidy_insert tidy fresh_id)
  have numbered : SameFlags pd { pd with next_route := pd.next_route + 1 } := ⟨rfl,rfl⟩
  exact ⟨ordered,bounded,(numbered.trans (sameFlags_insert lowered.1 lowered.2)).trans flags,consistent⟩

theorem redistributed_update_cases {metric : Metrics}
    (done : redistributed_update_pd env pd source metric = some (next, out)) :
    ∃ middle more, Reaction env pd .update (some .self) .self middle more ∧
      ((next = middle ∧ out = more) ∨ (next = (redistributed_update_mark middle).1 ∧ out = more ++ (redistributed_update_mark middle).2)) := by
  let update := fun route : RouteDescriptor =>
    { route with external := true, adv_router := some .self, ei := none, extdata := source.extdata, nexthop := source.nexthop }
  have fate {middle : PrefixDescriptor} {more : List Effect} {changed : Bool}
      (finished : some ((if changed then redistributed_update_mark middle else (middle, [])).1,
        [] ++ more ++ (if changed then redistributed_update_mark middle else (middle, [])).2) = some (next, out)) :
      (next = middle ∧ out = more) ∨ (next = (redistributed_update_mark middle).1 ∧ out = more ++ (redistributed_update_mark middle).2) := by
    cases finished
    cases changed with
    | false => exact .inl ⟨rfl,by simp⟩
    | true => exact .inr ⟨rfl,by simp⟩
  unfold redistributed_update_pd at done
  cases found : redistributed_route_lookup pd source with
  | some route =>
    simp only [found] at done
    obtain ⟨⟨middle,more⟩,event,finished⟩ := Option.bind_eq_some_iff.mp done
    have stored : route ∈ pd.routes := List.mem_append_right _ (List.mem_of_find?_eq_some found)
    have presented : Presented pd (route_write pd route.id update) (update route) :=
      presented_stored stored (fun _ => rfl) (fun _ => rfl) (fun _ => rfl)
    exact ⟨middle,more,presented.reaction rfl event,fate finished⟩
  | none =>
    let fresh : RouteDescriptor := { id := pd.next_route, external := true, adv_router := some .self }
    let start := route_insert { pd with next_route := pd.next_route + 1 } fresh
    have plain : route_descriptor_add env { pd with next_route := pd.next_route + 1 }
        { id := pd.next_route, external := true, adv_router := some .self } = (start, []) := route_descriptor_add_plain rfl
    simp only [found,plain] at done
    obtain ⟨⟨middle,more⟩,event,finished⟩ := Option.bind_eq_some_iff.mp done
    have presented : Presented pd (route_write start fresh.id update) (update fresh) :=
      presented_inserted rfl ⟨rfl,rfl⟩ (fun _ => rfl) (fun _ => rfl) (fun _ => rfl)
    exact ⟨middle,more,presented.reaction rfl event,fate finished⟩

theorem redistributed_remove_cases (done : redistributed_remove_pd env pd source = some (next, out)) :
    (next = pd ∧ out = []) ∨ Reaction env pd .update (some .self) .self next out := by
  unfold redistributed_remove_pd at done
  split at done
  · cases done
    exact .inl ⟨rfl,rfl⟩
  · rename_i route found
    have stored : route ∈ pd.routes := List.mem_append_right _ (List.mem_of_find?_eq_some found)
    exact .inr ((presented_self stored).reaction_other (by simp) done)

/-- The local route that an interface left behind is deleted when it comes up again. -/
def intf_up_deleted (pd : PrefixDescriptor) (ei : Nat) : PrefixDescriptor × List Effect :=
  match prefix_descriptor_lookup pd .self with
  | some old_local => if old_local.ei = some ei then route_descriptor_delete pd old_local else (pd, [])
  | none => (pd, [])

/-- What an interface that comes up does to its destination before DUAL hears of it. -/
def intf_up_added (env : Env) (pd : PrefixDescriptor) (ei : Nat) : PrefixDescriptor × List Effect :=
  let start := (intf_up_deleted pd ei).1
  let added := route_descriptor_add env { start with next_route := start.next_route + 1 } (connected_route env start.next_route ei)
  (added.1, (intf_up_deleted pd ei).2 ++ added.2)

theorem intf_up_deleted_rerouted (ei : Nat) : Rerouted pd (intf_up_deleted pd ei).1 := by
  unfold intf_up_deleted
  split
  · split
    · exact route_descriptor_delete_rerouted pd _
    · exact .refl pd
  · exact .refl pd

theorem intf_up_added_rerouted (ei : Nat) : Rerouted pd (intf_up_added env pd ei).1 :=
  (intf_up_deleted_rerouted ei).trans ((Rerouted.of_routes _ _ _ _).trans (route_descriptor_add_rerouted env _ _))

theorem intf_up_cases {ei : Nat} (done : intf_up_pd env pd ei = some (next, out)) :
    ∃ more, Reaction env (intf_up_added env pd ei).1 .update none .self next more ∧
      out = (intf_up_added env pd ei).2 ++ more := by
  obtain ⟨route,found,done⟩ := Option.bind_eq_some_iff.mp done
  obtain ⟨⟨last,more⟩,event,finished⟩ := Option.bind_eq_some_iff.mp done
  cases finished
  exact ⟨more,(presented_self (List.mem_of_find?_eq_some found)).reaction_other (by simp) event,rfl⟩

end Local

/-! ## Calls without a message -/

section Plain
variable {env : Env} {pd : PrefixDescriptor}

theorem exec_some {result : PrefixDescriptor × List Effect} {next : PrefixDescriptor} {out : List Effect}
    (done : some result = some (next, out)) : next = result.1 ∧ out = result.2 := by
  cases done
  exact ⟨rfl,rfl⟩

/-- The routes under the new weights, in the order of their new distances. -/
def metric_refreshed (env : Env) (pd : PrefixDescriptor) : PrefixDescriptor :=
  { pd with internal_routes := queue_resort (pd.internal_routes.map (route_refresh env))
            external_routes := queue_resort (pd.external_routes.map (route_refresh env)) }

/-- The best route's distance becomes that of the destination. -/
def metric_committed (pd : PrefixDescriptor) : PrefixDescriptor :=
  match route_read pd with
  | some best =>
    { pd with distance := best.distance, fdistance := best.distance, rdistance := best.distance
              reported_metric := best.total_metric }
  | none => pd

theorem metric_update_cases (env : Env) (pd : PrefixDescriptor) :
    (pd.state ≠ .passive ∧ metric_update_pd env pd = (pd, [])) ∨
    (pd.state = .passive ∧ metric_update_pd env pd = (metric_refreshed env pd, [])) ∨
      (pd.state = .passive ∧ metric_update_pd env pd =
        ({ (update_routing_table env (update_node_flags env (metric_committed (metric_refreshed env pd)))).1 with
            need_update := true },
          (update_routing_table env (update_node_flags env (metric_committed (metric_refreshed env pd)))).2 ++
            [.topology_change_once])) := by
  by_cases passive : pd.state = .passive
  · simp only [metric_update_pd,passive,ne_eq,not_true_eq_false,if_false]
    split
    · exact .inr (.inl ⟨trivial,rfl⟩)
    · exact .inr (.inr ⟨trivial,rfl⟩)
  · exact .inl ⟨passive,by simp [metric_update_pd,passive]⟩

theorem metric_committed_control (pd : PrefixDescriptor) : SameControl pd (metric_committed pd) := by
  unfold metric_committed
  split <;> exact ⟨rfl,rfl,rfl,rfl,rfl,rfl⟩

theorem metric_update_control : SameControl pd (metric_update_pd env pd).1 := by
  rcases metric_update_cases env pd with ⟨_,same⟩ | ⟨_,refreshed⟩ | ⟨_,committed⟩
  · rw [same]
    exact (Rerouted.refl pd).control
  · rw [refreshed]
    exact ⟨rfl,rfl,rfl,rfl,rfl,rfl⟩
  · rw [committed]
    obtain ⟨id,destination,state,rij,t_active,query_origin⟩ :=
      (metric_committed_control (metric_refreshed env pd)).trans (refreshed_table_rerouted env _).control
    exact ⟨id,destination,state,rij,t_active,query_origin⟩

theorem redistributed_update_mark_control (pd : PrefixDescriptor) : SameControl pd (redistributed_update_mark pd).1 := by
  unfold redistributed_update_mark
  split <;> exact ⟨rfl,rfl,rfl,rfl,rfl,rfl⟩

theorem action_clear_control (pd : PrefixDescriptor) (action : Action) : SameControl pd (action_clear pd action) := by
  cases action <;> exact ⟨rfl,rfl,rfl,rfl,rfl,rfl⟩

theorem multipath_update_rerouted : Rerouted pd (multipath_update_pd env pd).1 := by
  unfold multipath_update_pd
  split
  · exact .refl pd
  · exact refreshed_table_rerouted env pd

theorem traffic_share_update_rerouted : Rerouted pd (traffic_share_update_pd env pd).1 := by
  unfold traffic_share_update_pd
  split
  · exact .refl pd
  · exact update_routing_table_rerouted env pd

theorem routes_replay_rerouted : Rerouted pd (routes_replay_pd env pd).1 := by
  unfold routes_replay_pd
  split
  · exact update_routing_table_rerouted env pd
  · exact .refl pd

theorem retire_rerouted (pd : PrefixDescriptor) : Rerouted pd (pd |> update_topology_table_prefix).1 := by
  unfold update_topology_table_prefix
  dsimp only
  split
  · exact .refl pd
  · split <;> exact delete_unreachable_rerouted _ pd

theorem reply_status_pending_iff {nbr : Nbr} : reply_status_pending pd nbr ↔ nbr ∈ pd.rij.map (·.neighbor) := by
  simp [reply_status_pending]

/-- Packetizing a QUERY adds the neighbors it is addressed to, and changes nothing else. -/
theorem reply_status_add_foldl (nbrs : List Nbr) (pd : PrefixDescriptor) :
    ∃ rij, nbrs.foldl reply_status_add pd = { pd with rij } ∧
      ∀ nbr, nbr ∈ rij.map (·.neighbor) ↔ nbr ∈ pd.rij.map (·.neighbor) ∨ nbr ∈ nbrs := by
  induction nbrs generalizing pd with
  | nil => exact ⟨pd.rij,rfl,by simp⟩
  | cons first nbrs ih =>
    have added : ∃ rij, reply_status_add pd first = { pd with rij } ∧
        ∀ nbr, nbr ∈ rij.map (·.neighbor) ↔ nbr ∈ pd.rij.map (·.neighbor) ∨ nbr = first := by
      unfold reply_status_add
      split
      · rename_i pending
        refine ⟨pd.rij,rfl,fun nbr => ⟨.inl,?_⟩⟩
        rintro (member | rfl)
        · exact member
        · exact reply_status_pending_iff.mp pending
      · exact ⟨_,rfl,by simp⟩
    obtain ⟨middle,same,members⟩ := added
    obtain ⟨rij,rest,all⟩ := ih (reply_status_add pd first)
    refine ⟨rij,?_,fun nbr => ?_⟩
    · rw [List.foldl_cons,rest,same]
    · rw [all,same]
      simp only [members,List.mem_cons]
      tauto

/-- The end of packetizing a QUERY arms the timer, or ends a computation that nobody was asked in. -/
theorem fsm_query_sent_cases (env : Env) (pd : PrefixDescriptor) :
    (pd.state = .passive ∧ fsm_query_sent env pd = (pd, [])) ∨
    (pd.state ≠ .passive ∧ pd.rij ≠ [] ∧ ∃ t_active, fsm_query_sent env pd = ({ pd with t_active }, [])) ∨
      (pd.state ≠ .passive ∧ pd.rij = [] ∧ fsm_query_sent env pd = fsm_event_lr env pd) := by
  unfold fsm_query_sent
  split
  · rename_i passive
    exact .inl ⟨passive,rfl⟩
  · rename_i active
    split
    · rename_i owed
      refine .inr (.inl ⟨active,owed,?_⟩)
      unfold active_timer_start
      split
      · exact ⟨pd.t_active,rfl⟩
      · exact ⟨true,rfl⟩
    · rename_i owed
      exact .inr (.inr ⟨active,by simpa using owed,rfl⟩)

theorem fsm_active_timer_expired_cases (env : Env) (pd : PrefixDescriptor) :
    ∃ rij t_active, (fsm_active_timer_expired env pd).1 = { pd with rij, t_active } ∧
      rij.map (·.neighbor) = pd.rij.map (·.neighbor) ∧ (pd.state = .passive → t_active = false) := by
  unfold fsm_active_timer_expired
  dsimp only
  split
  · exact ⟨pd.rij,false,rfl,rfl,fun _ => rfl⟩
  · rename_i waiting
    push Not at waiting
    split
    · exact ⟨pd.rij,false,rfl,rfl,fun _ => rfl⟩
    · exact ⟨_,_,rfl,by simp,fun passive => absurd passive waiting.1⟩

end Plain

/-! ## Calls of handlers -/

/-- The calls that only the packetizer and the active timer make. -/
def Call.scheduled : Call → Bool
  | .query_rij_add _ | .query_sent | .action_clear _ | .retire | .active_timer_expired => true
  | _ => false

/-- What the calls of the handlers keep: they bring routes up to date, note an SIA-REPLY, forget the origin of a QUERY, or
    hand messages to DUAL. -/
theorem exec_kept {P : PrefixDescriptor → Prop} {env : Env} {pd next : PrefixDescriptor} {out : List Effect} {call : Call}
    (control : ∀ pd next, SameControl pd next → P pd → P next)
    (forgotten : ∀ (pd : PrefixDescriptor) query_origin, (∀ nbr, query_origin = some nbr → pd.query_origin = some nbr) → P pd →
      P { pd with query_origin })
    (extended : ∀ pd nbr, pd.state ≠ .passive → P pd → P (sia_reply_received pd nbr))
    (reacts : ∀ pd packet sender nbr next out, Reaction env pd packet sender nbr next out → P pd → P next)
    (unscheduled : ¬ call.scheduled) (done : exec env pd call = some (next, out)) (holds : P pd) : P next := by
  cases call with
  | update_receive nbr received =>
    rcases update_receive_cases done with ⟨rfl,_⟩ | reaction
    · exact holds
    · exact reacts _ _ _ _ _ _ reaction holds
  | query_receive nbr received =>
    rcases query_receive_cases done with ⟨_,rfl,_⟩ | ⟨_,rerouted,_⟩ | reaction
    · exact holds
    · exact control _ _ rerouted.control holds
    · exact reacts _ _ _ _ _ _ reaction holds
  | reply_receive nbr received =>
    rcases reply_receive_cases done with ⟨_,rfl,_⟩ | ⟨_,reaction⟩
    · exact holds
    · exact reacts _ _ _ _ _ _ reaction holds
  | siaquery_receive nbr received =>
    obtain ⟨_,reaction,_⟩ := siaquery_receive_cases done
    exact reacts _ _ _ _ _ _ reaction holds
  | siareply_receive nbr received =>
    rcases siareply_receive_cases done with ⟨rfl,_⟩ | ⟨_,active,rfl,_⟩ | ⟨_,_,_,reaction⟩
    · exact holds
    · exact extended _ nbr active holds
    · exact reacts _ _ _ _ _ _ reaction holds
  | gr_ask nbr => exact reacts _ _ _ _ _ _ (gr_ask_reaction done) holds
  | neighbor_down nbr =>
    have forgets : P { pd with query_origin := if pd.query_origin = some nbr then none else pd.query_origin } := by
      refine forgotten pd _ (fun other kept => ?_) holds
      split at kept
      · cases kept
      · exact kept
    rcases neighbor_lost_cases done with ⟨rfl,_⟩ | ⟨_,reaction⟩ | ⟨_,reaction⟩
    · exact forgets
    · exact reacts _ _ _ _ _ _ reaction forgets
    · exact reacts _ _ _ _ _ _ reaction forgets
  | suspended_origin_clear nbrs =>
    obtain ⟨rfl,rfl⟩ := exec_some done
    refine forgotten pd _ (fun nbr kept => ?_) holds
    exact (Option.filter_eq_some_iff.mp kept).1
  | connected_interface_down ei =>
    have withdrawals := connected_routes_down_withdrawals done
    clear done
    induction withdrawals with
    | nil => exact holds
    | cons reaction _ ih => exact ih (reacts _ _ _ _ _ _ reaction holds)
  | intf_up ei =>
    obtain ⟨_,reaction,_⟩ := intf_up_cases done
    exact reacts _ _ _ _ _ _ reaction (control _ _ (intf_up_added_rerouted ei).control holds)
  | redistributed_update source metric =>
    obtain ⟨middle,_,reaction,fate⟩ := redistributed_update_cases done
    have reacted := reacts _ _ _ _ _ _ reaction holds
    rcases fate with ⟨rfl,_⟩ | ⟨rfl,_⟩
    · exact reacted
    · exact control _ _ (redistributed_update_mark_control middle) reacted
  | redistributed_remove source =>
    rcases redistributed_remove_cases done with ⟨rfl,_⟩ | reaction
    · exact holds
    · exact reacts _ _ _ _ _ _ reaction holds
  | metric_update =>
    obtain ⟨rfl,rfl⟩ := exec_some done
    exact control _ _ metric_update_control holds
  | multipath_update =>
    obtain ⟨rfl,rfl⟩ := exec_some done
    exact control _ _ multipath_update_rerouted.control holds
  | traffic_share_update =>
    obtain ⟨rfl,rfl⟩ := exec_some done
    exact control _ _ traffic_share_update_rerouted.control holds
  | routes_replay =>
    obtain ⟨rfl,rfl⟩ := exec_some done
    exact control _ _ routes_replay_rerouted.control holds
  | query_rij_add nbrs => exact absurd rfl unscheduled
  | query_sent => exact absurd rfl unscheduled
  | action_clear action => exact absurd rfl unscheduled
  | retire => exact absurd rfl unscheduled
  | active_timer_expired => exact absurd rfl unscheduled

/-! ## Identity -/

/-- The descriptors stand for the same destination. -/
structure SameIdentity (pd next : PrefixDescriptor) : Prop where
  id : next.id = pd.id
  destination : next.destination = pd.destination

theorem SameIdentity.refl (pd : PrefixDescriptor) : SameIdentity pd pd := ⟨rfl,rfl⟩

theorem SameIdentity.trans {pd middle next : PrefixDescriptor} (first : SameIdentity pd middle)
    (second : SameIdentity middle next) : SameIdentity pd next :=
  ⟨second.id.trans first.id,second.destination.trans first.destination⟩

theorem SameControl.identity {pd next : PrefixDescriptor} (same : SameControl pd next) : SameIdentity pd next :=
  ⟨same.id,same.destination⟩

theorem Finished.identity {pd next : PrefixDescriptor} (finished : Finished pd next) : SameIdentity pd next :=
  ⟨finished.id,finished.destination⟩

section Identity
variable {env : Env} {msg : Msg} {pd next : PrefixDescriptor} {after : RouteDescriptor} {nbr : Nbr} {packet : Opcode}
  {sender : Option Nbr} {out : List Effect}

theorem diffuse_identity (env : Env) (pd : PrefixDescriptor) : SameIdentity pd (diffuse env pd).1 := by
  rcases diffuse_cases env pd with ⟨_,asked⟩ | ⟨_,ended⟩
  · rw [asked]
    exact ⟨rfl,rfl⟩
  · rw [ended]
    have finished := (fsm_event_lr_finished env { pd with t_active := false, rij := [] }).identity
    exact ⟨finished.id,finished.destination⟩

theorem outcome_identity (outcome : Outcome env msg after pd next out) : SameIdentity pd next := by
  cases outcome with
  | commit used => exact (keep_passive_control env pd used).identity
  | start =>
    obtain ⟨id,destination⟩ := diffuse_identity env { pd with state := .active_1 }
    exact ⟨id,destination⟩
  | start_query =>
    obtain ⟨id,destination⟩ := diffuse_identity env { pd with state := .active_3, query_origin := msg.adv_router }
    exact ⟨id,destination⟩
  | wait => exact .refl pd
  | origin => exact ⟨rfl,rfl⟩
  | increase => exact ⟨rfl,rfl⟩
  | last_reply => exact (fsm_event_lr_finished env pd).identity
  | last_reply_feasible _ _ _ _ _ done => exact (fsm_event_lr_fcs_finished done).identity
  | last_reply_infeasible =>
    obtain ⟨id,destination⟩ := diffuse_identity env { pd with state := if pd.state = .active_0 then .active_1 else .active_3 }
    exact ⟨id,destination⟩

theorem discharge_identity (pd : PrefixDescriptor) (msg : Msg) (nbr : Option Nbr) : SameIdentity pd (discharge pd msg nbr) := by
  unfold discharge
  split <;> exact ⟨rfl,rfl⟩

theorem reaction_identity (reaction : Reaction env pd packet sender nbr next out) : SameIdentity pd next := by
  obtain ⟨current,msg,after,rerouted,_,_,_,outcome⟩ := reaction.reacts
  exact (rerouted.control.identity.trans (discharge_identity current msg (some nbr))).trans (outcome_identity outcome)

theorem discharge_state (pd : PrefixDescriptor) (msg : Msg) (nbr : Option Nbr) : (discharge pd msg nbr).state = pd.state := by
  unfold discharge
  split <;> rfl

/-- An UPDATE does not end a computation. -/
theorem reaction_update_active (active : pd.state ≠ .passive) (reaction : Reaction env pd .update sender nbr next out) :
    next.state ≠ .passive := by
  obtain ⟨current,msg,after,rerouted,_,update,_,outcome⟩ := reaction.reacts
  have waiting : (discharge current msg (some nbr)).state ≠ .passive := by
    rw [discharge_state,rerouted.state]
    exact active
  cases outcome with
  | commit used passive found => exact absurd passive waiting
  | start passive other => exact absurd passive waiting
  | start_query passive query => exact absurd passive waiting
  | wait _ owed other => exact waiting
  | origin _ query successor => simp [update] at query
  | increase state states => rcases states with ⟨_,rfl⟩ | ⟨_,rfl⟩ <;> simp
  | last_reply odd reply owed => simp [update] at reply
  | last_reply_feasible _ _ even reply owed done => simp [update] at reply
  | last_reply_infeasible even reply owed => simp [update] at reply

theorem query_sent_identity : SameIdentity pd (fsm_query_sent env pd).1 := by
  rcases fsm_query_sent_cases env pd with ⟨_,same⟩ | ⟨_,_,_,armed⟩ | ⟨_,_,ended⟩
  · rw [same]
    exact .refl pd
  · rw [armed]
    exact ⟨rfl,rfl⟩
  · rw [ended]
    exact (fsm_event_lr_finished env pd).identity

/-- No call turns a descriptor into that of another destination. -/
theorem exec_identity {call : Call} (done : exec env pd call = some (next, out)) : SameIdentity pd next := by
  by_cases scheduled : call.scheduled
  · cases call with
    | query_rij_add nbrs =>
      obtain ⟨rfl,rfl⟩ := exec_some done
      obtain ⟨_,same,_⟩ := reply_status_add_foldl nbrs pd
      rw [same]
      exact ⟨rfl,rfl⟩
    | query_sent =>
      obtain ⟨rfl,rfl⟩ := exec_some done
      exact query_sent_identity
    | action_clear action =>
      obtain ⟨rfl,rfl⟩ := exec_some done
      exact (action_clear_control pd action).identity
    | retire =>
      obtain ⟨rfl,rfl⟩ := exec_some done
      exact (retire_rerouted pd).control.identity
    | active_timer_expired =>
      obtain ⟨rfl,rfl⟩ := exec_some done
      obtain ⟨_,_,same,_⟩ := fsm_active_timer_expired_cases env pd
      rw [same]
      exact ⟨rfl,rfl⟩
    | _ => cases scheduled
  · refine @exec_kept (SameIdentity pd) _ _ _ _ _ ?_ ?_ ?_ ?_ scheduled done (.refl pd)
    · exact fun _ _ same identity => identity.trans same.identity
    · exact fun _ _ _ identity => ⟨identity.id,identity.destination⟩
    · exact fun _ _ _ identity => ⟨identity.id,identity.destination⟩
    · exact fun _ _ _ _ _ _ reaction identity => identity.trans (reaction_identity reaction)

end Identity

/-! ## Creations -/

/-- A new descriptor owes and waits for nothing; it is PASSIVE unless the operator had it queried again. -/
structure Fresh (id : Nat) (creation : Creation) (pd : PrefixDescriptor) : Prop where
  id : pd.id = id
  destination : pd.destination = creation.destination
  rij : pd.rij = []
  t_active : pd.t_active = false
  query_origin : pd.query_origin = none
  state : pd.state = .passive ∨ (pd.state = .active_1 ∧ ∃ old, creation = .remote_requery old)

theorem routes_add_rerouted (env : Env) (routes : List RouteDescriptor) (pd : PrefixDescriptor) :
    Rerouted pd (routes_add env routes pd).1 := by
  induction routes generalizing pd with
  | nil => exact .refl pd
  | cons route routes ih => exact (route_descriptor_add_rerouted env pd route).trans (ih _)

theorem announced_control (env : Env) (pd : PrefixDescriptor) (reported_metric : Metrics) :
    SameControl pd { update_node_flags env { pd with reported_metric } with need_update := true } := by
  have same := update_node_flags_rerouted env { pd with reported_metric }
  exact ⟨same.id,same.destination,same.state,same.rij,same.t_active,same.query_origin⟩

theorem Fresh.of_control {id : Nat} {creation : Creation} {start pd : PrefixDescriptor} (same : SameControl start pd)
    (fresh : Fresh id creation start) : Fresh id creation pd where
  id := same.id.trans fresh.id
  destination := same.destination.trans fresh.destination
  rij := same.rij.trans fresh.rij
  t_active := same.t_active.trans fresh.t_active
  query_origin := same.query_origin.trans fresh.query_origin
  state := same.state ▸ fresh.state

theorem creation_fresh {env : Env} {id : Nat} {creation : Creation} {pd : PrefixDescriptor} {out : List Effect}
    (built : creation.build env id = some (pd, out)) : Fresh id creation pd := by
  cases creation with
  | update nbr received =>
    obtain ⟨learned,_,finished⟩ := Option.bind_eq_some_iff.mp built
    obtain ⟨rfl,rfl⟩ := exec_some finished
    refine .of_control (.trans (route_descriptor_add_rerouted env _ _).control (announced_control env _ _)) ?_
    exact ⟨rfl,rfl,rfl,rfl,rfl,.inl rfl⟩
  | query nbr received =>
    obtain ⟨route,_,finished⟩ := Option.bind_eq_some_iff.mp built
    obtain ⟨rfl,rfl⟩ := exec_some finished
    exact .of_control (route_insert_rerouted _ route).control ⟨rfl,rfl,rfl,rfl,rfl,.inl rfl⟩
  | connected destination ei =>
    obtain ⟨rfl,rfl⟩ := exec_some built
    exact .of_control (route_descriptor_add_rerouted env _ _).control ⟨rfl,rfl,rfl,rfl,rfl,.inl rfl⟩
  | redistributed destination source metric =>
    obtain ⟨rfl,rfl⟩ := exec_some built
    refine .of_control (.trans (route_descriptor_add_rerouted env _ _).control (redistributed_update_mark_control _)) ?_
    exact ⟨rfl,rfl,rfl,rfl,rfl,.inl rfl⟩
  | connected_recreate old =>
    obtain ⟨rfl,rfl⟩ := exec_some built
    exact .of_control (routes_add_rerouted env _ _).control ⟨rfl,rfl,rfl,rfl,rfl,.inl rfl⟩
  | remote_requery old =>
    obtain ⟨rfl,rfl⟩ := exec_some built
    exact ⟨rfl,rfl,rfl,rfl,rfl,.inr ⟨rfl,old,rfl⟩⟩

end Eigrp
