import Mathlib.Algebra.Group.Nat.Defs
import Mathlib.Logic.Function.Basic
import Mathlib.Data.List.Perm.Basic
import Mathlib.Data.List.Nodup

/-!
# Timers

The AF keeps its timers in one list, sorted by due time, and every event points back to the slot of the object that armed it
(`eigrp_timer.c`). Callbacks run from the front of the list.
-/

namespace Eigrp.Timers

/-! ## The pending list -/

/-- An allocation, for as long as it lives. -/
abbrev Id := Nat

/-- `eigrp_timer_event_t`; `order` counts the events that were linked before it. -/
structure TimerEvent (Owner : Type) where
  id : Id
  owner : Owner
  due_msec : UInt64
  order : Nat
deriving DecidableEq, Repr

/-- What `eigrp_sys_monotime_msec` returns: the milliseconds since the start leave room for the longest delay. -/
structure Clock where
  msec : UInt64
  room : msec.toNat + 2 ^ 32 ≤ 2 ^ 64

/-- The timers of `eigrp_instance_t`, and the slots of the objects that own them. -/
structure Pending (Owner : Type) where
  now : Clock
  shutdown : Bool
  thread_running : Bool
  timer_head : List (TimerEvent Owner)
  slot : Owner → Option Id
  linked : Nat

section List
variable {Owner : Type}

/-- `eigrp_timer_unlink_locked`. -/
def timer_unlink (event : Id) : List (TimerEvent Owner) → List (TimerEvent Owner)
  | [] => []
  | link :: rest => if link.id = event then rest else link :: timer_unlink event rest

/-- The loop of `eigrp_timer_add`: in front of the first event that is due later. -/
def timer_insert (event : TimerEvent Owner) : List (TimerEvent Owner) → List (TimerEvent Owner)
  | [] => [event]
  | link :: rest => if link.due_msec > event.due_msec then event :: link :: rest else link :: timer_insert event rest

end List

section Pending
variable {Owner : Type} [DecidableEq Owner]

/-- `eigrp_timer_cancel`; `eigrp` tells whether an instance is given. -/
def Pending.timer_cancel (timers : Pending Owner) (eigrp : Bool) (owner : Owner) : Pending Owner :=
  if !eigrp then timers
  else
    match timers.slot owner with
    | none => timers
    | some event =>
      { timers with slot := Function.update timers.slot owner none, timer_head := timer_unlink event timers.timer_head }

/-- `eigrp_timer_add`; `event` is what `calloc` returns. -/
def Pending.timer_add (timers : Pending Owner) (eigrp : Bool) (owner : Owner) (delay_msec : UInt32) (event : Option Id) :
    Pending Owner :=
  if !eigrp then timers
  else
    let timers := timers.timer_cancel eigrp owner
    match event with
    | none => timers
    | some event =>
      if timers.shutdown || !timers.thread_running then timers
      else
        { timers with
          timer_head :=
            timer_insert { id := event, owner, due_msec := timers.now.msec + delay_msec.toUInt64, order := timers.linked } timers.timer_head
          slot := Function.update timers.slot owner (some event)
          linked := timers.linked + 1 }

/-- `*event->owner = NULL`, where it names the event. -/
def slot_clear (slot : Owner → Option Id) (event : TimerEvent Owner) : Owner → Option Id :=
  if slot event.owner = some event.id then Function.update slot event.owner none else slot

/-- `eigrp_timer_cancel_all`. -/
def Pending.timer_cancel_all (timers : Pending Owner) : Pending Owner :=
  { timers with timer_head := [], slot := timers.timer_head.foldl slot_clear timers.slot }

/-- `eigrp_instance_timer_due_dequeue`; the callback of the event it returns runs next. -/
def Pending.timer_due_dequeue (timers : Pending Owner) : Option (TimerEvent Owner) × Pending Owner :=
  match timers.timer_head with
  | [] => (none, timers)
  | event :: rest =>
    if event.due_msec ≤ timers.now.msec then (some event, { timers with timer_head := rest, slot := slot_clear timers.slot event })
    else (none, timers)

end Pending

/-! ## The discipline -/

section Discipline
variable {Owner : Type}

/-- The order of the list: by due time, and as they were linked. -/
def TimerEvent.Before (first second : TimerEvent Owner) : Prop :=
  first.due_msec < second.due_msec ∨ first.due_msec = second.due_msec ∧ first.order < second.order

/-- What holds of the list and the slots between two calls. -/
structure Disciplined (timers : Pending Owner) : Prop where
  sorted : timers.timer_head.Pairwise TimerEvent.Before
  once : (timers.timer_head.map TimerEvent.id).Nodup
  named (owner : Owner) (event : Id) :
    timers.slot owner = some event ↔ ∃ link ∈ timers.timer_head, link.owner = owner ∧ link.id = event
  numbered (event : TimerEvent Owner) : event ∈ timers.timer_head → event.order < timers.linked

theorem timer_unlink_sublist (event : Id) (events : List (TimerEvent Owner)) : (timer_unlink event events).Sublist events := by
  induction events with
  | nil => exact List.Sublist.refl _
  | cons link rest ih =>
    rw [timer_unlink]
    split
    · exact List.sublist_cons_self _ _
    · exact ih.cons_cons _

theorem mem_timer_unlink {event : Id} {events : List (TimerEvent Owner)} (once : (events.map TimerEvent.id).Nodup)
    (other : TimerEvent Owner) : other ∈ timer_unlink event events ↔ other ∈ events ∧ other.id ≠ event := by
  induction events with
  | nil => simp [timer_unlink]
  | cons link rest ih =>
    rw [List.map_cons,List.nodup_cons] at once
    obtain ⟨alone,once⟩ := once
    rw [timer_unlink]
    split
    · rename_i same
      constructor
      · intro member
        refine ⟨List.mem_cons_of_mem _ member,fun equal => alone ?_⟩
        rw [same,← equal]
        exact List.mem_map_of_mem member
      · rintro ⟨member,apart⟩
        rcases List.mem_cons.1 member with rfl | behind
        · exact absurd same apart
        · exact behind
    · rename_i different
      rw [List.mem_cons,ih once,List.mem_cons]
      constructor
      · rintro (rfl | ⟨member,apart⟩)
        · exact ⟨.inl rfl,different⟩
        · exact ⟨.inr member,apart⟩
      · rintro ⟨rfl | member,apart⟩
        · exact .inl rfl
        · exact .inr ⟨member,apart⟩

theorem timer_insert_perm (event : TimerEvent Owner) (events : List (TimerEvent Owner)) :
    (timer_insert event events).Perm (event :: events) := by
  induction events with
  | nil => exact List.Perm.refl _
  | cons link rest ih =>
    rw [timer_insert]
    split
    · exact List.Perm.refl _
    · exact (ih.cons link).trans (List.Perm.swap _ _ _)

/-- An event that is linked last stands behind all that are due at its time. -/
theorem timer_insert_sorted {event : TimerEvent Owner} {events : List (TimerEvent Owner)} (sorted : events.Pairwise TimerEvent.Before)
    (last : ∀ link ∈ events, link.order < event.order) : (timer_insert event events).Pairwise TimerEvent.Before := by
  induction events with
  | nil => exact List.pairwise_singleton _ _
  | cons link rest ih =>
    obtain ⟨ahead,tail⟩ := List.pairwise_cons.1 sorted
    rw [timer_insert]
    split
    · rename_i later
      refine List.pairwise_cons.2 ⟨fun other member => ?_,sorted⟩
      rcases List.mem_cons.1 member with rfl | behind
      · exact .inl later
      · rcases ahead other behind with earlier | ⟨same,_⟩
        · exact .inl (UInt64.lt_trans later earlier)
        · exact .inl (same ▸ later)
    · rename_i not_later
      refine List.pairwise_cons.2 ⟨fun other member => ?_,ih tail fun link member => last link (List.mem_cons_of_mem _ member)⟩
      rcases List.mem_cons.1 ((timer_insert_perm event rest).mem_iff.1 member) with rfl | behind
      · rcases UInt64.lt_or_eq_of_le (UInt64.not_lt.1 not_later) with earlier | same
        · exact .inl earlier
        · exact .inr ⟨same,last link List.mem_cons_self⟩
      · exact ahead other behind

theorem Disciplined.event_eq {timers : Pending Owner} (good : Disciplined timers) {first second : TimerEvent Owner}
    (first_linked : first ∈ timers.timer_head) (second_linked : second ∈ timers.timer_head) (same : first.id = second.id) :
    first = second := List.inj_on_of_nodup_map good.once first_linked second_linked same

/-- An owner has one linked event at most. -/
theorem Disciplined.owner_eq {timers : Pending Owner} (good : Disciplined timers) {first second : TimerEvent Owner}
    (first_linked : first ∈ timers.timer_head) (second_linked : second ∈ timers.timer_head) (same : first.owner = second.owner) :
    first = second := by
  have names_first := (good.named first.owner first.id).2 ⟨first,first_linked,rfl,rfl⟩
  have names_second := (good.named second.owner second.id).2 ⟨second,second_linked,rfl,rfl⟩
  rw [same,names_second] at names_first
  exact good.event_eq first_linked second_linked (Option.some.inj names_first).symm

/-- What a call on the timers keeps of the clock and of what was linked. -/
structure Fewer (timers after : Pending Owner) : Prop where
  now : after.now = timers.now
  linked : after.linked = timers.linked
  head : after.timer_head.Sublist timers.timer_head
  slot (owner : Owner) (event : Id) : after.slot owner = some event → timers.slot owner = some event

theorem Fewer.refl (timers : Pending Owner) : Fewer timers timers := ⟨rfl,rfl,List.Sublist.refl _,fun _ _ named => named⟩

theorem Fewer.trans {first second third : Pending Owner} (one : Fewer first second) (two : Fewer second third) : Fewer first third :=
  ⟨two.now.trans one.now,two.linked.trans one.linked,two.head.trans one.head,
    fun owner event named => one.slot owner event (two.slot owner event named)⟩

variable [DecidableEq Owner]

theorem timer_cancel_slot (timers : Pending Owner) (owner : Owner) :
    (timers.timer_cancel true owner).slot = Function.update timers.slot owner none := by
  unfold Pending.timer_cancel
  rw [Bool.not_true,if_neg (by decide)]
  split
  · rename_i empty
    rw [← empty,Function.update_eq_self]
  · rfl

theorem timer_cancel_fewer (timers : Pending Owner) (eigrp : Bool) (owner : Owner) : Fewer timers (timers.timer_cancel eigrp owner) := by
  unfold Pending.timer_cancel
  split
  · exact Fewer.refl timers
  split
  · exact Fewer.refl timers
  · refine ⟨rfl,rfl,timer_unlink_sublist _ _,fun other event named => ?_⟩
    simp only [Function.update_apply] at named
    split at named
    · cases named
    · exact named

theorem Disciplined.timer_cancel {timers : Pending Owner} (good : Disciplined timers) (eigrp : Bool) (owner : Owner) :
    Disciplined (timers.timer_cancel eigrp owner) := by
  have fewer := timer_cancel_fewer timers eigrp owner
  refine ⟨good.sorted.sublist fewer.head,good.once.sublist (fewer.head.map _),fun other event => ?_,fun link member => ?_⟩
  · unfold Pending.timer_cancel
    split
    · exact good.named other event
    split
    · exact good.named other event
    · rename_i cancelled named
      obtain ⟨link,linked,owned,same⟩ := (good.named owner cancelled).1 named
      simp only [Function.update_apply]
      split
      · rename_i here
        subst here
        constructor
        · intro none_named
          cases none_named
        · rintro ⟨other_link,member,other_owned,_⟩
          obtain ⟨still,apart⟩ := (mem_timer_unlink good.once other_link).1 member
          have equal := good.owner_eq still linked (other_owned.trans owned.symm)
          exact absurd (equal ▸ same) apart
      · rename_i elsewhere
        rw [good.named other event]
        refine exists_congr fun other_link => ?_
        rw [mem_timer_unlink good.once,and_assoc]
        refine and_congr_right fun still => ⟨fun ⟨other_owned,other_same⟩ => ⟨?_,other_owned,other_same⟩,fun found => found.2⟩
        intro equal
        have merged := good.event_eq still linked (equal.trans same.symm)
        exact elsewhere (other_owned.symm.trans (merged ▸ owned))
  · rw [fewer.linked]
    exact good.numbered link (fewer.head.subset member)

/-- What `eigrp_timer_add` does behind the cancellation. -/
theorem timer_add_cases (timers : Pending Owner) (eigrp : Bool) (owner : Owner) (delay_msec : UInt32) (event : Option Id) :
    timers.timer_add eigrp owner delay_msec event = timers.timer_cancel eigrp owner ∨
      ∃ id, event = some id ∧ eigrp = true ∧
        timers.timer_add eigrp owner delay_msec event =
          { timers.timer_cancel true owner with
            timer_head :=
              timer_insert { id, owner, due_msec := timers.now.msec + delay_msec.toUInt64, order := timers.linked }
                (timers.timer_cancel true owner).timer_head
            slot := Function.update timers.slot owner (some id)
            linked := timers.linked + 1 } := by
  have fewer := timer_cancel_fewer timers true owner
  unfold Pending.timer_add
  cases eigrp with
  | false => exact .inl rfl
  | true =>
    rw [Bool.not_true,if_neg (by decide)]
    cases event with
    | none => exact .inl rfl
    | some id =>
      dsimp only
      split
      · exact .inl rfl
      · refine .inr ⟨id,rfl,rfl,?_⟩
        rw [fewer.now,fewer.linked,timer_cancel_slot,Function.update_idem]

theorem Disciplined.timer_add {timers : Pending Owner} (good : Disciplined timers) (eigrp : Bool) (owner : Owner) (delay_msec : UInt32)
    {event : Option Id}
    (unused : ∀ id, event = some id → ∀ link ∈ (timers.timer_cancel true owner).timer_head, link.id ≠ id) :
    Disciplined (timers.timer_add eigrp owner delay_msec event) := by
  rcases timer_add_cases timers eigrp owner delay_msec event with cancelled | ⟨id,allocated,_,added⟩
  · rw [cancelled]
    exact good.timer_cancel eigrp owner
  have rest := good.timer_cancel true owner
  have fewer := timer_cancel_fewer timers true owner
  have slot := timer_cancel_slot timers owner
  have fresh := unused id allocated
  rw [added]
  generalize timers.timer_cancel true owner = cancelled at rest fewer slot fresh
  generalize new_eq : ({ id, owner, due_msec := timers.now.msec + delay_msec.toUInt64, order := timers.linked } : TimerEvent Owner) = new
  have new_id : new.id = id := by rw [← new_eq]
  have new_owner : new.owner = owner := by rw [← new_eq]
  have new_order : new.order = timers.linked := by rw [← new_eq]
  have members (link : TimerEvent Owner) : link ∈ timer_insert new cancelled.timer_head ↔ link = new ∨ link ∈ cancelled.timer_head := by
    rw [(timer_insert_perm new _).mem_iff,List.mem_cons]
  have behind (link : TimerEvent Owner) (member : link ∈ cancelled.timer_head) : link.order < new.order := by
    rw [new_order,← fewer.linked]
    exact rest.numbered link member
  refine ⟨timer_insert_sorted rest.sorted behind,?_,fun other wanted => ?_,fun link member => ?_⟩
  · rw [((timer_insert_perm new cancelled.timer_head).map TimerEvent.id).nodup_iff,List.map_cons,List.nodup_cons]
    refine ⟨fun member => ?_,rest.once⟩
    obtain ⟨link,linked,same⟩ := List.mem_map.1 member
    exact fresh link linked (same.trans new_id)
  · simp only [Function.update_apply,members]
    have others := rest.named other wanted
    rw [slot,Function.update_apply] at others
    split
    · rename_i here
      rw [if_pos here] at others
      constructor
      · intro same
        exact ⟨new,.inl rfl,new_owner.trans here.symm,new_id.trans (Option.some.inj same)⟩
      · rintro ⟨link,rfl | member,owned,same⟩
        · rw [← same,new_id]
        · cases others.2 ⟨link,member,owned,same⟩
    · rename_i elsewhere
      rw [if_neg elsewhere] at others
      rw [others]
      constructor
      · rintro ⟨link,member,owned,same⟩
        exact ⟨link,.inr member,owned,same⟩
      · rintro ⟨link,rfl | member,owned,same⟩
        · exact absurd (owned.symm.trans new_owner) elsewhere
        · exact ⟨link,member,owned,same⟩
  · rcases (members link).1 member with rfl | before
    · rw [new_order]
      exact Nat.lt_succ_self _
    · exact Nat.lt_succ_of_lt (new_order ▸ behind link before)

theorem slot_clear_eq {slot : Owner → Option Id} {event : TimerEvent Owner} (named : slot event.owner = some event.id) :
    slot_clear slot event = Function.update slot event.owner none := if_pos named

theorem foldl_slot_clear {events : List (TimerEvent Owner)} {slot : Owner → Option Id}
    (named : ∀ owner event, slot owner = some event ↔ ∃ link ∈ events, link.owner = owner ∧ link.id = event)
    (once : (events.map TimerEvent.id).Nodup) (owner : Owner) : events.foldl slot_clear slot owner = none := by
  induction events generalizing slot with
  | nil =>
    cases empty : slot owner with
    | none => exact empty
    | some event =>
      obtain ⟨link,member,_⟩ := (named owner event).1 empty
      cases member
  | cons first rest ih =>
    have here : slot first.owner = some first.id := (named first.owner first.id).2 ⟨first,List.mem_cons_self,rfl,rfl⟩
    rw [List.map_cons,List.nodup_cons] at once
    rw [List.foldl_cons,slot_clear_eq here]
    refine ih (fun other event => ?_) once.2
    rw [Function.update_apply]
    split
    · rename_i same
      constructor
      · intro wanted
        cases wanted
      · rintro ⟨link,member,owned,named_event⟩
        have also := (named other event).2 ⟨link,List.mem_cons_of_mem _ member,owned,named_event⟩
        rw [same,here] at also
        exact absurd (List.mem_map.2 ⟨link,member,named_event.trans (Option.some.inj also).symm⟩) once.1
    · rename_i elsewhere
      rw [named other event]
      constructor
      · rintro ⟨link,member,owned,named_event⟩
        rcases List.mem_cons.1 member with rfl | behind
        · exact absurd owned.symm elsewhere
        · exact ⟨link,behind,owned,named_event⟩
      · rintro ⟨link,member,owned,named_event⟩
        exact ⟨link,List.mem_cons_of_mem _ member,owned,named_event⟩

theorem Disciplined.timer_cancel_all {timers : Pending Owner} (good : Disciplined timers) : Disciplined timers.timer_cancel_all where
  sorted := List.Pairwise.nil
  once := List.nodup_nil
  named owner event := by
    have empty : timers.timer_cancel_all.slot owner = none := foldl_slot_clear good.named good.once owner
    rw [empty]
    constructor
    · intro wanted
      cases wanted
    · rintro ⟨link,member,_⟩
      cases member
  numbered event member := by cases member

theorem timer_cancel_all_slot {timers : Pending Owner} (good : Disciplined timers) (owner : Owner) :
    timers.timer_cancel_all.slot owner = none := foldl_slot_clear good.named good.once owner

/-- What a due dequeue takes: the first event, which is due. -/
theorem timer_due_dequeue_cases {timers : Pending Owner} (good : Disciplined timers) :
    timers.timer_due_dequeue = (none, timers) ∨
      ∃ event rest, timers.timer_head = event :: rest ∧ event.due_msec ≤ timers.now.msec ∧
        timers.timer_due_dequeue =
          (some event, { timers with timer_head := rest, slot := Function.update timers.slot event.owner none }) := by
  unfold Pending.timer_due_dequeue
  cases head : timers.timer_head with
  | nil => exact .inl rfl
  | cons event rest =>
    simp only
    split
    · rename_i due
      have named := (good.named event.owner event.id).2 ⟨event,by rw [head]; exact List.mem_cons_self,rfl,rfl⟩
      exact .inr ⟨event,rest,rfl,due,by rw [slot_clear_eq named]⟩
    · exact .inl rfl

theorem Disciplined.timer_due_dequeue {timers : Pending Owner} (good : Disciplined timers) :
    Disciplined timers.timer_due_dequeue.2 ∧ Fewer timers timers.timer_due_dequeue.2 := by
  rcases timer_due_dequeue_cases good with idle | ⟨event,rest,head,_,taken⟩
  · rw [idle]
    exact ⟨good,Fewer.refl timers⟩
  have linked : event ∈ timers.timer_head := by
    rw [head]
    exact List.mem_cons_self
  have behind : rest.Sublist timers.timer_head := by
    rw [head]
    exact List.sublist_cons_self _ _
  have alone : event.id ∉ rest.map TimerEvent.id := by
    have once := good.once
    rw [head,List.map_cons,List.nodup_cons] at once
    exact once.1
  rw [taken]
  refine ⟨⟨good.sorted.sublist behind,good.once.sublist (behind.map _),fun owner wanted => ?_,
    fun link member => good.numbered link (behind.subset member)⟩,⟨rfl,rfl,behind,fun owner wanted named => ?_⟩⟩
  · simp only [Function.update_apply]
    split
    · rename_i here
      constructor
      · intro named
        cases named
      · rintro ⟨link,member,owned,_⟩
        have merged := good.owner_eq (behind.subset member) linked (owned.trans here)
        exact absurd (List.mem_map.2 ⟨link,member,congrArg _ merged⟩) alone
    · rename_i elsewhere
      rw [good.named owner wanted,head]
      constructor
      · rintro ⟨link,member,owned,same⟩
        rcases List.mem_cons.1 member with rfl | after
        · exact absurd owned.symm elsewhere
        · exact ⟨link,after,owned,same⟩
      · rintro ⟨link,member,owned,same⟩
        exact ⟨link,List.mem_cons_of_mem _ member,owned,same⟩
  · simp only [Function.update_apply] at named
    split at named
    · cases named
    · exact named

/-! ## Callbacks -/

omit [DecidableEq Owner] in
theorem Clock.le_add (clock : Clock) (delay_msec : UInt32) : clock.msec ≤ clock.msec + delay_msec.toUInt64 := by
  have room := clock.room
  have small : delay_msec.toUInt64.toNat < 2 ^ 32 := by
    rw [UInt32.toNat_toUInt64]
    exact delay_msec.toNat_lt
  rw [UInt64.le_iff_toNat_le,UInt64.toNat_add,Nat.mod_eq_of_lt (by omega)]
  omega

/-- What holds of the events that were dequeued, in the order of their callbacks and with the clock at each of them. -/
structure Ran (timers : Pending Owner) (fired : List (TimerEvent Owner × Clock)) : Prop where
  due (firing : TimerEvent Owner × Clock) :
    firing ∈ fired → firing.1.due_msec ≤ firing.2.msec ∧ firing.2.msec ≤ timers.now.msec
  numbered (firing : TimerEvent Owner × Clock) : firing ∈ fired → firing.1.order < timers.linked
  ahead (firing : TimerEvent Owner × Clock) : firing ∈ fired → ∀ link ∈ timers.timer_head, firing.1.Before link
  sorted : (fired.map Prod.fst).Pairwise TimerEvent.Before

omit [DecidableEq Owner] in
theorem Ran.fewer {timers after : Pending Owner} {fired : List (TimerEvent Owner × Clock)} (ran : Ran timers fired)
    (fewer : Fewer timers after) : Ran after fired where
  due firing member := by
    rw [fewer.now]
    exact ran.due firing member
  numbered firing member := by
    rw [fewer.linked]
    exact ran.numbered firing member
  ahead firing member link linked := ran.ahead firing member link (fewer.head.subset linked)
  sorted := ran.sorted

omit [DecidableEq Owner] in
theorem Ran.tick {timers : Pending Owner} {fired : List (TimerEvent Owner × Clock)} (ran : Ran timers fired) {clock : Clock}
    (later : timers.now.msec ≤ clock.msec) : Ran { timers with now := clock } fired where
  due firing member := ⟨(ran.due firing member).1,UInt64.le_trans (ran.due firing member).2 later⟩
  numbered := ran.numbered
  ahead := ran.ahead
  sorted := ran.sorted

/-- An event that is armed is due behind all whose callbacks have run. -/
theorem Ran.timer_add {timers : Pending Owner} {fired : List (TimerEvent Owner × Clock)} (ran : Ran timers fired) (eigrp : Bool)
    (owner : Owner) (delay_msec : UInt32) (event : Option Id) : Ran (timers.timer_add eigrp owner delay_msec event) fired := by
  rcases timer_add_cases timers eigrp owner delay_msec event with cancelled | ⟨id,_,_,added⟩
  · rw [cancelled]
    exact ran.fewer (timer_cancel_fewer timers eigrp owner)
  have rest := ran.fewer (timer_cancel_fewer timers true owner)
  have now := (timer_cancel_fewer timers true owner).now
  rw [added]
  refine ⟨rest.due,fun firing member => Nat.lt_succ_of_lt (ran.numbered firing member),fun firing member link linked => ?_,ran.sorted⟩
  rcases List.mem_cons.1 ((timer_insert_perm _ _).mem_iff.1 linked) with rfl | before
  · obtain ⟨due,past⟩ := ran.due firing member
    have behind := UInt64.le_trans due (UInt64.le_trans past (timers.now.le_add delay_msec))
    rcases UInt64.lt_or_eq_of_le behind with earlier | same
    · exact .inl earlier
    · exact .inr ⟨same,ran.numbered firing member⟩
  · exact rest.ahead firing member link before

/-- What a dequeue takes runs after all events before it, and none that is linked is before it. -/
theorem Ran.timer_due_dequeue {timers : Pending Owner} {fired : List (TimerEvent Owner × Clock)} (ran : Ran timers fired)
    (good : Disciplined timers) :
    Ran timers.timer_due_dequeue.2 (fired ++ timers.timer_due_dequeue.1.toList.map fun event => (event, timers.now)) := by
  have fewer := good.timer_due_dequeue.2
  rcases timer_due_dequeue_cases good with idle | ⟨event,rest,head,due,taken⟩
  · rw [idle]
    simpa using ran
  have linked : event ∈ timers.timer_head := by
    rw [head]
    exact List.mem_cons_self
  rw [taken] at fewer ⊢
  have before := ran.fewer fewer
  have sorted := good.sorted
  rw [head] at sorted
  have members (firing : TimerEvent Owner × Clock) :
      firing ∈ fired ++ [(event, timers.now)] ↔ firing ∈ fired ∨ firing = (event, timers.now) := by
    rw [List.mem_append,List.mem_singleton]
  refine ⟨fun firing member => ?_,fun firing member => ?_,fun firing member link behind => ?_,?_⟩
  · rcases (members firing).1 member with earlier | rfl
    · exact before.due firing earlier
    · exact ⟨due,UInt64.le_refl _⟩
  · rcases (members firing).1 member with earlier | rfl
    · exact before.numbered firing earlier
    · exact good.numbered event linked
  · rcases (members firing).1 member with earlier | rfl
    · exact before.ahead firing earlier link behind
    · exact (List.pairwise_cons.1 sorted).1 link behind
  · rw [Option.toList_some,List.map_append,List.map_map,List.pairwise_append]
    refine ⟨ran.sorted,List.pairwise_singleton _ _,fun first member second last => ?_⟩
    obtain ⟨firing,earlier,rfl⟩ := List.mem_map.1 member
    rw [List.map_singleton,List.mem_singleton] at last
    rw [last]
    exact ran.ahead firing earlier event linked

end Discipline

end Eigrp.Timers
