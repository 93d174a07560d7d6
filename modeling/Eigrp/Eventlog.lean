import Eigrp.Lib.Ring
import Eigrp.Portable

/-!
# The event log

`eigrp_eventlog.c`: a ring of the last events, resized and cleared by the operator and read from the newest event back.
Every access to the ring goes through `load` and `store`, which have no result outside the allocated entries.
-/

namespace Eigrp.Eventlog
open Eigrp.Lib

/-! ## Data -/

/-- `eigrp_eventlog_msg_t`. -/
structure Msg where
  timestamp : UInt64 := 0
  opcode : UInt16 := 0
  addr : Portable.Prefix := {}
  arg1 : UInt64 := 0
  arg2 : UInt64 := 0
  arg3 : UInt64 := 0
  arg4 : UInt64 := 0
deriving DecidableEq

/-- `eigrp_eventlog_t`. -/
structure Log where
  entries : Option (List Msg) := none
  capacity : UInt32 := 0
  next : UInt32 := 0
  count : UInt32 := 0
  written : UInt64 := 0
  overwritten : UInt64 := 0
deriving DecidableEq

/-- `eigrp_result_t`. -/
inductive Result where
  | success
  | not_implemented
  | invalid_argument
  | not_found
  | conflict
  | unsupported
  | internal_failure
deriving DecidableEq

/-- What the size check of an allocation depends on: `SIZE_MAX` and the size of an entry. -/
structure Platform where
  size_max : Nat
  entry_size : Nat

/-- Whether `calloc` has memory for the log and for its entries. -/
structure Allocated where
  log : Bool
  entries : Bool
deriving DecidableEq

/-! ## Access -/

def load (entries : List Msg) (index : UInt32) : Option Msg := entries[index.toNat]?

def store (entries : Option (List Msg)) (index : UInt32) (entry : Msg) : Option (Option (List Msg)) := do
  let entries ← entries
  if index.toNat < entries.length then some (some (entries.set index.toNat entry)) else none

/-- The index of `eigrp_eventlog_recent_read`. -/
def Log.recent (log : Log) (recent_index : UInt32) : UInt32 := (log.next + log.capacity - 1 - recent_index) % log.capacity

/-- `eigrp_eventlog_recent_read`. -/
def Log.recent_read (log : Log) (recent_index : UInt32) : Option (Option Msg) :=
  match log.entries with
  | none => some none
  | some entries =>
    if log.count ≤ recent_index ∨ log.capacity = 0 then some none
    else (load entries (log.recent recent_index)).map some

/-! ## Operations -/

/-- The size check in front of an allocation of entries. -/
def Platform.too_large (platform : Platform) (capacity : UInt32) : Prop :=
  capacity ≠ 0 ∧ platform.size_max / capacity.toNat < platform.entry_size

instance (platform : Platform) (capacity : UInt32) : Decidable (platform.too_large capacity) :=
  inferInstanceAs (Decidable (_ ∧ _))

/-- `eigrp_eventlog_init` of an instance without a log. -/
def create (platform : Platform) (allocated : Allocated) (capacity : UInt32) : Result × Option Log :=
  if allocated.log = false then (.internal_failure, none)
  else if capacity = 0 then (.success, some {})
  else if platform.too_large capacity then (.invalid_argument, none)
  else if allocated.entries = false then (.internal_failure, none)
  else (.success, some { entries := some (List.replicate capacity.toNat {}), capacity })

/-- The kept events are copied to the front, the oldest first. -/
def Log.copy (log : Log) (keep : UInt32) (entries : Option (List Msg)) : Option (Option (List Msg)) :=
  (List.range keep.toNat).foldlM (fun entries i => do
    match ← log.recent_read (keep - 1 - UInt32.ofNat i) with
    | some entry => store entries (UInt32.ofNat i) entry
    | none => some entries) entries

/-- `eigrp_eventlog_resize`. -/
def resize (platform : Platform) (allocated : Allocated) (eventlog : Option Log) (capacity : UInt32) : Option (Result × Option Log) :=
  match eventlog with
  | none => some (create platform allocated capacity)
  | some log =>
    if capacity = log.capacity then some (.success, log)
    else if platform.too_large capacity then some (.invalid_argument, log)
    else if capacity ≠ 0 ∧ allocated.entries = false then some (.internal_failure, log)
    else do
      let entries := if capacity ≠ 0 then some (List.replicate capacity.toNat {}) else none
      let keep := if log.count < capacity then log.count else capacity
      let overwritten := if keep < log.count then log.overwritten + (log.count - keep).toUInt64 else log.overwritten
      let entries ← log.copy keep entries
      some (.success, some { log with
                             overwritten, entries, capacity
                             count := keep
                             next := if capacity ≠ 0 then keep % capacity else 0 })

/-- `eigrp_eventlog_init`. -/
def init (platform : Platform) (allocated : Allocated) (eventlog : Option Log) (capacity : UInt32) : Option (Result × Option Log) :=
  match eventlog with
  | some log => resize platform allocated log capacity
  | none => some (create platform allocated capacity)

/-- The entry that `eigrp_eventlog_msg_add` fills. -/
def event (timestamp : UInt64) (opcode : UInt16) (addr : Option Portable.Prefix) (arg1 arg2 arg3 arg4 : UInt64) : Msg :=
  { timestamp, opcode, addr := addr.getD {}, arg1, arg2, arg3, arg4 }

/-- `eigrp_eventlog_msg_add` of an event with its time. -/
def msg_add (eventlog : Option Log) (entry : Msg) : Option (Result × Option Log) :=
  if entry.opcode = 0 then some (.invalid_argument, eventlog)
  else match eventlog with
    | none => some (.success, none)
    | some log =>
      if log.capacity = 0 ∨ log.entries = none then some (.success, log)
      else do
        let overwritten := if log.count = log.capacity then log.overwritten + 1 else log.overwritten
        let entries ← store log.entries log.next entry
        some (.success, some { log with
                               overwritten, entries
                               written := log.written + 1
                               next := (log.next + 1) % log.capacity
                               count := if log.count < log.capacity then log.count + 1 else log.count })

/-- `eigrp_eventlog_clear`. -/
def clear (eventlog : Option Log) : Result × Option Log :=
  match eventlog with
  | none => (.not_found, none)
  | some log => (.success, some { log with count := 0, next := 0, written := 0, overwritten := 0 })

/-- `eigrp_eventlog_delete`. -/
def delete (_ : Option Log) : Option Log := none

section Iterate
variable {σ : Type} (callback : σ → UInt32 → Msg → Result × σ)

/-- The calls of `eigrp_eventlog_msg_iterate`, as far as the callback has success. -/
def Log.iterate (log : Log) : List Nat → σ → Option (Result × σ)
  | [], arg => some (.success, arg)
  | i :: rest, arg => do
    match ← log.recent_read (UInt32.ofNat i) with
    | none => some (.internal_failure, arg)
    | some entry =>
      let (result, arg) := callback arg (UInt32.ofNat i + 1) entry
      if result ≠ .success then some (result, arg) else log.iterate rest arg

/-- `eigrp_eventlog_msg_iterate`. -/
def msg_iterate (eventlog : Option Log) (arg : σ) : Option (Result × σ) :=
  match eventlog with
  | none => some (.not_found, arg)
  | some log => log.iterate callback (List.range log.count.toNat) arg

end Iterate

/-! ## The plain list of events -/

/-- What the log is for: the last events, newest first, no more of them than the capacity. -/
structure History where
  capacity : Nat := 0
  events : List Msg := []

def History.add (history : History) (entry : Msg) : History :=
  { history with events := (entry :: history.events).take history.capacity }

def History.resize (history : History) (capacity : Nat) : History :=
  { capacity, events := history.events.take capacity }

def History.clear (history : History) : History := { history with events := [] }

/-- The events are handed out one after the other, numbered, as far as the callback has success. -/
def hand_out {σ : Type} (callback : σ → UInt32 → Msg → Result × σ) : Nat → List Msg → σ → Result × σ
  | _, [], arg => (.success, arg)
  | number, entry :: rest, arg =>
    let (result, arg) := callback arg (UInt32.ofNat number) entry
    if result ≠ .success then (result, arg) else hand_out callback (number + 1) rest arg

/-! ## Representation -/

/-- The entries that are allocated. -/
def Log.ring (log : Log) : List Msg := log.entries.getD []

/-- The positions of the log fit the entries that are allocated. -/
structure Log.Sound (log : Log) : Prop where
  allocated : log.entries = if log.capacity = 0 then none else some log.ring
  length : log.ring.length = log.capacity.toNat
  next : log.capacity ≠ 0 → log.next.toNat < log.capacity.toNat
  count : log.count.toNat ≤ log.capacity.toNat
  written : log.written = log.count.toUInt64 + log.overwritten

/-- The index arithmetic stays within 32 bits. -/
def Log.Legible (log : Log) : Prop := log.count = 0 ∨ log.next.toNat + log.capacity.toNat ≤ 2 ^ 32

instance (log : Log) : Decidable log.Legible := inferInstanceAs (Decidable (_ ∨ _))

/-- A resize to the capacity copies events of the log. -/
def Log.Copies (log : Log) (platform : Platform) (allocated : Allocated) (capacity : UInt32) : Prop :=
  capacity ≠ log.capacity ∧ capacity ≠ 0 ∧ ¬ platform.too_large capacity ∧ allocated.entries = true

/-- The ring holds the events. -/
def Log.Shows (log : Log) (events : List Msg) : Prop := log.capacity ≠ 0 → Holds log.ring log.next.toNat events

section Reading
variable {log : Log} {events : List Msg} {index : UInt32}

theorem Log.Sound.entries (sound : log.Sound) (some_room : log.capacity ≠ 0) : log.entries = some log.ring := by
  rw [sound.allocated,if_neg some_room]

theorem capacity_pos (some_room : log.capacity ≠ 0) : 0 < log.capacity.toNat :=
  Nat.pos_of_ne_zero fun zero => some_room (UInt32.toNat_inj.1 zero)

theorem Log.Sound.some_room (sound : log.Sound) {n : Nat} (inside : n < log.count.toNat) : log.capacity ≠ 0 := by
  intro none_left
  have count := sound.count
  have zero : (0 : UInt32).toNat = 0 := rfl
  rw [none_left] at count
  omega

/-- No index leaves the allocated entries. -/
theorem recent_lt (some_room : log.capacity ≠ 0) : (log.recent index).toNat < log.capacity.toNat := by
  rw [Log.recent,UInt32.toNat_mod]
  exact Nat.mod_lt _ (capacity_pos some_room)

theorem recent_read_eq (sound : log.Sound) (inside : index < log.count) :
    log.recent_read index = (log.ring[(log.recent index).toNat]?).map some := by
  have some_room := sound.some_room (UInt32.lt_iff_toNat_lt.1 inside)
  have read : ¬ (log.count ≤ index ∨ log.capacity = 0) := by
    rintro (outside | none_left)
    · exact absurd (UInt32.le_iff_toNat_le.1 outside) (Nat.not_le.2 (UInt32.lt_iff_toNat_lt.1 inside))
    · exact some_room none_left
  rw [Log.recent_read,sound.entries some_room]
  simp only [read,if_false,load]

theorem recent_read_some (sound : log.Sound) (inside : index < log.count) :
    ∃ entry, log.recent_read index = some (some entry) ∧ log.ring[(log.recent index).toNat]? = some entry := by
  have some_room := sound.some_room (UInt32.lt_iff_toNat_lt.1 inside)
  have within : (log.recent index).toNat < log.ring.length := by
    rw [sound.length]
    exact recent_lt some_room
  exact ⟨_,by rw [recent_read_eq sound inside,List.getElem?_eq_getElem within]; rfl,List.getElem?_eq_getElem within⟩

/-- Within 32 bits the index is the place of the event in the ring. -/
theorem recent_eq_slot (sound : log.Sound) (legible : log.next.toNat + log.capacity.toNat ≤ 2 ^ 32) (inside : index.toNat < log.count.toNat) :
    (log.recent index).toNat = slot log.capacity.toNat log.next.toNat index.toNat := by
  have count := sound.count
  have some_room := sound.some_room inside
  have positive := capacity_pos some_room
  have next := sound.next some_room
  have bound := log.capacity.toNat_lt
  rw [slot_eq_mod next (by omega),Log.recent,UInt32.toNat_mod]
  congr 1
  rw [UInt32.toNat_sub,UInt32.toNat_sub,UInt32.toNat_add]
  have one : (1 : UInt32).toNat = 1 := rfl
  rw [one]
  omega

/-- Beyond 32 bits the newest event is looked for in the wrong place. -/
theorem recent_ne_slot (sound : log.Sound) (illegible : ¬ log.Legible) :
    (log.recent 0).toNat ≠ slot log.capacity.toNat log.next.toNat 0 := by
  obtain ⟨some_events,wraps⟩ := not_or.1 illegible
  have some_room : log.capacity ≠ 0 := by
    intro none_left
    have next := log.next.toNat_lt
    have zero : (0 : UInt32).toNat = 0 := rfl
    rw [none_left] at wraps
    omega
  have next := sound.next some_room
  have bound := log.capacity.toNat_lt
  have one : (1 : UInt32).toNat = 1 := rfl
  have zero : (0 : UInt32).toNat = 0 := rfl
  have index : (log.recent 0).toNat = log.next.toNat + log.capacity.toNat - 1 - 2 ^ 32 := by
    rw [Log.recent,UInt32.toNat_mod,UInt32.toNat_sub,UInt32.toNat_sub,UInt32.toNat_add,one,zero]
    have low : (2 ^ 32 - 0 + (2 ^ 32 - 1 + (log.next.toNat + log.capacity.toNat) % 2 ^ 32) % 2 ^ 32) % 2 ^ 32 =
        log.next.toNat + log.capacity.toNat - 1 - 2 ^ 32 := by omega
    rw [low]
    exact Nat.mod_eq_of_lt (by omega)
  rw [index]
  unfold slot
  split <;> omega

end Reading

/-! ## Copying -/

section Copying
variable {log : Log} {events : List Msg}

theorem store_inside {entries : List Msg} {index : UInt32} {entry : Msg} (inside : index.toNat < entries.length) :
    store (some entries) index entry = some (some (entries.set index.toNat entry)) := if_pos inside

theorem ofNat_toNat {i : Nat} {size : UInt32} (inside : i ≤ size.toNat) : (UInt32.ofNat i).toNat = i := by
  have bound := size.toNat_lt
  rw [UInt32.toNat_ofNat']
  exact Nat.mod_eq_of_lt (by omega)

/-- The copy lays the kept events from the front, the oldest first. -/
theorem copy_laid (sound : log.Sound) {keep : UInt32} {fresh : List Msg} (kept : keep.toNat ≤ log.count.toNat)
    (room : keep.toNat ≤ fresh.length) :
    ∃ entries, log.copy keep (some fresh) = some (some entries) ∧ entries.length = fresh.length ∧
      ∀ i < keep.toNat, entries[i]? = log.ring[(log.recent (keep - 1 - UInt32.ofNat i)).toNat]? := by
  have steps (done : Nat) (within : done ≤ keep.toNat) :
      ∃ entries, (List.range done).foldlM (fun entries i => do
          match ← log.recent_read (keep - 1 - UInt32.ofNat i) with
          | some entry => store entries (UInt32.ofNat i) entry
          | none => some entries) (some fresh) = some (some entries) ∧ entries.length = fresh.length ∧
        ∀ i < done, entries[i]? = log.ring[(log.recent (keep - 1 - UInt32.ofNat i)).toNat]? := by
    induction done with
    | zero => exact ⟨fresh,rfl,rfl,fun i before => absurd before (Nat.not_lt_zero i)⟩
    | succ done ih =>
      obtain ⟨entries,run,length,laid⟩ := ih (by omega)
      have index : (UInt32.ofNat done).toNat = done := @ofNat_toNat done keep (by omega)
      have one : (1 : UInt32).toNat = 1 := rfl
      have inside : keep - 1 - UInt32.ofNat done < log.count := by
        have bound := keep.toNat_lt
        rw [UInt32.lt_iff_toNat_lt,UInt32.toNat_sub,UInt32.toNat_sub,index,one]
        omega
      obtain ⟨entry,read,there⟩ := recent_read_some sound inside
      refine ⟨entries.set done entry,?_,by rw [List.length_set,length],?_⟩
      · rw [List.range_succ,List.foldlM_append,run]
        change (do
          match ← log.recent_read (keep - 1 - UInt32.ofNat done) with
          | some entry => store (some entries) (UInt32.ofNat done) entry
          | none => some (some entries)).bind _ = _
        rw [read]
        change (store (some entries) (UInt32.ofNat done) entry).bind _ = _
        rw [store_inside (by rw [index]; omega),index]
        rfl
      · intro i before
        by_cases last : i = done
        · rw [last,List.getElem?_set_self (by omega),there]
        · rw [List.getElem?_set_ne (Ne.symm last)]
          exact laid i (by omega)
  exact steps keep.toNat le_rfl

theorem copy_nothing {entries : Option (List Msg)} : log.copy 0 entries = some entries := rfl

end Copying

/-! ## Operations -/

section Operations
variable {platform : Platform} {allocated : Allocated} {log : Log} {eventlog : Option Log} {events : List Msg}

/-- The log, if there is one, is sound. -/
def Sound (eventlog : Option Log) : Prop := ∀ log ∈ eventlog, log.Sound

/-- The log has as many events as the history, and the same capacity. -/
def Counts (eventlog : Option Log) (history : History) : Prop :=
  match eventlog with
  | none => history.capacity = 0 ∧ history.events = []
  | some log => log.capacity.toNat = history.capacity ∧ log.count.toNat = history.events.length

/-- What the log shows is the history. -/
def Shows (eventlog : Option Log) (history : History) : Prop := ∀ log ∈ eventlog, log.Shows history.events

theorem fresh_sound {capacity : UInt32} (some_room : capacity ≠ 0) :
    Log.Sound { entries := some (List.replicate capacity.toNat {}), capacity } where
  allocated := by simp [some_room,Log.ring]
  length := by simp [Log.ring]
  next := fun _ => @capacity_pos { capacity } some_room
  count := Nat.zero_le _
  written := rfl

theorem empty_sound : Log.Sound {} where
  allocated := rfl
  length := rfl
  next := fun never => absurd rfl never
  count := le_rfl
  written := rfl

theorem create_sound {capacity : UInt32} {result : Result} {after : Option Log}
    (created : create platform allocated capacity = (result, after)) :
    Sound after ∧ (result ≠ .success → after = none) ∧
      (result = .success → Counts after { capacity := capacity.toNat, events := [] } ∧ Shows after { capacity := capacity.toNat, events := [] }) := by
  unfold create at created
  split_ifs at created with no_log empty large no_entries
  · cases created
    exact ⟨by simp [Sound],fun _ => rfl,fun never => Result.noConfusion never⟩
  · cases created
    refine ⟨fun log is => ?_,fun failed => absurd rfl failed,fun _ => ⟨?_,fun log is => ?_⟩⟩
    · cases is
      exact empty_sound
    · rw [empty]
      exact ⟨rfl,rfl⟩
    · cases is
      exact fun never => absurd rfl never
  · cases created
    exact ⟨by simp [Sound],fun _ => rfl,fun never => Result.noConfusion never⟩
  · cases created
    exact ⟨by simp [Sound],fun _ => rfl,fun never => Result.noConfusion never⟩
  · cases created
    refine ⟨fun log is => ?_,fun failed => absurd rfl failed,fun _ => ⟨⟨rfl,rfl⟩,fun log is => ?_⟩⟩
    · cases is
      exact fresh_sound empty
    · cases is
      intro some_room
      refine Holds.empty ?_
      simpa [Log.ring] using @capacity_pos { capacity } some_room

/-- A resize that fails changes nothing. -/
theorem resize_failed {capacity : UInt32} {result : Result} {after : Option Log}
    (resized : resize platform allocated eventlog capacity = some (result, after)) (failed : result ≠ .success) : after = eventlog := by
  cases eventlog with
  | none => exact (create_sound (Option.some.inj resized)).2.1 failed
  | some log =>
    unfold resize at resized
    simp only at resized
    by_cases same : capacity = log.capacity
    · rw [if_pos same] at resized
      cases resized
      rfl
    rw [if_neg same] at resized
    by_cases large : platform.too_large capacity
    · rw [if_pos large] at resized
      cases resized
      rfl
    rw [if_neg large] at resized
    by_cases no_memory : capacity ≠ 0 ∧ allocated.entries = false
    · rw [if_pos no_memory] at resized
      cases resized
      rfl
    rw [if_neg no_memory] at resized
    obtain ⟨entries,_,success⟩ := Option.bind_eq_some_iff.1 resized
    cases success
    exact absurd rfl failed

theorem kept_toNat {count capacity : UInt32} : (if count < capacity then count else capacity).toNat = min count.toNat capacity.toNat := by
  split
  · rename_i less
    have before := UInt32.lt_iff_toNat_lt.1 less
    omega
  · rename_i more
    have before := mt UInt32.lt_iff_toNat_lt.2 more
    omega

theorem overwritten_kept {count keep : UInt32} {overwritten : UInt64} (kept : keep.toNat ≤ count.toNat) :
    count.toUInt64 + overwritten =
      keep.toUInt64 + if keep < count then overwritten + (count - keep).toUInt64 else overwritten := by
  have bound := count.toNat_lt
  split
  · refine UInt64.toNat_inj.1 ?_
    simp only [UInt64.toNat_add,UInt32.toNat_toUInt64,UInt32.toNat_sub]
    omega
  · rename_i all
    have before := mt UInt32.lt_iff_toNat_lt.2 all
    have same : keep = count := UInt32.toNat_inj.1 (by omega)
    rw [same]

/-- Resizing keeps the newest events; the copy is right when the index arithmetic of the old ring is. -/
theorem resize_some {capacity : UInt32} {history : History} (sound : log.Sound) (counts : Counts log history) :
    ∃ result after, resize platform allocated log capacity = some (result, after) ∧ Sound after ∧
      (result = .success → Counts after (history.resize capacity.toNat) ∧
        (log.Shows history.events → (log.Copies platform allocated capacity → log.Legible) → Shows after (history.resize capacity.toNat))) := by
  have is_sound : Sound (some log) := fun other is => by cases is; exact sound
  obtain ⟨at_capacity,at_count⟩ := counts
  unfold resize
  simp only
  by_cases same : capacity = log.capacity
  · rw [if_pos same]
    refine ⟨_,_,rfl,is_sound,fun _ => ?_⟩
    have all : history.events.take capacity.toNat = history.events := by
      refine List.take_of_length_le ?_
      have count := sound.count
      rw [same]
      omega
    refine ⟨⟨by rw [same]; rfl,by simp only [History.resize,all]; exact at_count⟩,fun shows _ => ?_⟩
    intro other is
    cases is
    simp only [History.resize,all]
    exact shows
  rw [if_neg same]
  by_cases large : platform.too_large capacity
  · rw [if_pos large]
    exact ⟨_,_,rfl,is_sound,fun never => Result.noConfusion never⟩
  rw [if_neg large]
  by_cases no_memory : capacity ≠ 0 ∧ allocated.entries = false
  · rw [if_pos no_memory]
    exact ⟨_,_,rfl,is_sound,fun never => Result.noConfusion never⟩
  · rw [if_neg no_memory]
    have keep := @kept_toNat log.count capacity
    generalize at_keep : (if log.count < capacity then log.count else capacity) = kept at keep
    have written := @overwritten_kept log.count kept log.overwritten (by omega)
    rw [← sound.written] at written
    have events : (history.resize capacity.toNat).events.length = kept.toNat := by
      simp only [History.resize,List.length_take]
      omega
    by_cases empty : capacity = 0
    · have none_kept : kept = 0 := by
        refine UInt32.toNat_inj.1 ?_
        have zero : (0 : UInt32).toNat = 0 := rfl
        rw [empty] at keep
        omega
      subst none_kept
      rw [if_neg (by simp [empty]),copy_nothing]
      refine ⟨_,_,rfl,fun after is => ?_,fun _ => ⟨⟨rfl,events.symm⟩,fun _ _ after is => ?_⟩⟩
      · cases is
        exact ⟨by simp [empty],by simp [Log.ring,empty],fun never => absurd empty never,by simp,written⟩
      · cases is
        exact fun never => absurd empty never
    · rw [if_pos empty]
      have room : kept.toNat ≤ (List.replicate capacity.toNat ({} : Msg)).length := by simp; omega
      obtain ⟨entries,run,length,laid⟩ := copy_laid sound (by omega) room
      rw [List.length_replicate] at length
      rw [run]
      have positive := @capacity_pos { capacity } empty
      refine ⟨_,_,rfl,fun after is => ?_,fun _ => ⟨⟨rfl,events.symm⟩,fun shows legible after is => ?_⟩⟩
      · cases is
        refine ⟨by simp [empty,Log.ring],by simpa [Log.ring] using length,fun _ => ?_,by simp only; omega,written⟩
        rw [if_pos empty,UInt32.toNat_mod]
        exact Nat.mod_lt _ positive
      · cases is
        intro _
        simp only [Log.ring,Option.getD_some,empty,ne_eq,not_false_eq_true,if_true,UInt32.toNat_mod]
        have filled : Holds entries ((history.resize capacity.toNat).events.length % entries.length) (history.resize capacity.toNat).events := by
          refine Holds.filled (by rw [length]; exact positive) (by omega) fun place before => ?_
          rw [events] at before ⊢
          rw [laid place before]
          have index : (UInt32.ofNat place).toNat = place := @ofNat_toNat place kept (by omega)
          have one : (1 : UInt32).toNat = 1 := rfl
          have back : (kept - 1 - UInt32.ofNat place).toNat = kept.toNat - 1 - place := by
            have bound := kept.toNat_lt
            rw [UInt32.toNat_sub,UInt32.toNat_sub,index,one]
            omega
          have some_room := sound.some_room (show 0 < log.count.toNat by omega)
          have in_range : log.next.toNat + log.capacity.toNat ≤ 2 ^ 32 := by
            have memory : allocated.entries = true := by
              cases has : allocated.entries with
              | true => rfl
              | false => exact absurd ⟨empty,has⟩ no_memory
            rcases legible ⟨same,empty,large,memory⟩ with nothing | in_range
            · rw [nothing] at keep
              have zero : (0 : UInt32).toNat = 0 := rfl
              omega
            · exact in_range
          rw [recent_eq_slot sound in_range (by rw [back]; omega),back,← sound.length,
            (shows some_room).read _ (by omega),History.resize,List.getElem?_take_of_lt (by omega)]
        rwa [events,length] at filled

/-- Adding puts an event in front, whatever the ring holds. -/
theorem msg_add_some {entry : Msg} {history : History} (sound : Sound eventlog) (counts : Counts eventlog history) (named : entry.opcode ≠ 0) :
    ∃ after, msg_add eventlog entry = some (.success, after) ∧ Sound after ∧ Counts after (history.add entry) ∧
      (Shows eventlog history → Shows after (history.add entry)) := by
  unfold msg_add
  rw [if_neg named]
  cases eventlog with
  | none =>
    obtain ⟨no_room,_⟩ := counts
    exact ⟨none,rfl,sound,⟨no_room,by simp [History.add,no_room]⟩,fun _ log is => by cases is⟩
  | some log =>
    have good := sound log rfl
    obtain ⟨at_capacity,at_count⟩ := counts
    have bounded := good.count
    simp only
    by_cases no_room : log.capacity = 0
    · have zero : (0 : UInt32).toNat = 0 := rfl
      rw [no_room,zero] at at_capacity bounded
      have nothing : history.events = [] := List.eq_nil_of_length_eq_zero (by omega)
      rw [if_pos (.inl no_room)]
      refine ⟨_,rfl,sound,⟨by rw [no_room,zero]; exact at_capacity,?_⟩,fun _ other is => ?_⟩
      · rw [at_count,nothing,History.add,← at_capacity]
        rfl
      · cases is
        exact fun never => absurd no_room never
    · have entries := good.entries no_room
      have length := good.length
      have next := good.next no_room
      have one : (1 : UInt32).toNat = 1 := rfl
      have bound := log.capacity.toNat_lt
      rw [if_neg (by simp [no_room,entries]),entries,store_inside (by rw [length]; exact next)]
      have forward : ((log.next + 1) % log.capacity).toNat = (log.next.toNat + 1) % log.ring.length := by
        rw [UInt32.toNat_mod,UInt32.toNat_add,one,length,Nat.mod_eq_of_lt (show log.next.toNat + 1 < 2 ^ 32 by omega)]
      have counted : (if log.count < log.capacity then log.count + 1 else log.count).toNat = min (log.count.toNat + 1) log.capacity.toNat := by
        split
        · rename_i less
          have before := UInt32.lt_iff_toNat_lt.1 less
          rw [UInt32.toNat_add,one]
          omega
        · rename_i full
          have before := mt UInt32.lt_iff_toNat_lt.2 full
          omega
      refine ⟨_,rfl,fun after is => ?_,⟨at_capacity,?_⟩,fun shows after is => ?_⟩
      · cases is
        refine ⟨by simp [no_room,Log.ring],by simpa [Log.ring] using length,fun _ => ?_,by simp only; omega,?_⟩
        · rw [forward,length]
          exact Nat.mod_lt _ (capacity_pos no_room)
        · rw [good.written]
          refine UInt64.toNat_inj.1 ?_
          by_cases full : log.count = log.capacity
          · have stays : ¬ log.count < log.capacity := by rw [full]; exact UInt32.lt_irrefl _
            simp only [full,if_true,UInt32.lt_irrefl,if_false,UInt64.toNat_add,UInt32.toNat_toUInt64]
            omega
          · have less : log.count < log.capacity := by
              refine UInt32.lt_iff_toNat_lt.2 (Nat.lt_of_le_of_ne bounded fun same => full (UInt32.toNat_inj.1 same))
            have before := UInt32.lt_iff_toNat_lt.1 less
            have one' : (1 : UInt64).toNat = 1 := rfl
            simp only [less,if_true,full,if_false,UInt64.toNat_add,UInt32.toNat_toUInt64,UInt32.toNat_add,one,one']
            omega
      · rw [counted,History.add,List.length_take,List.length_cons]
        omega
      · cases is
        intro _
        simp only [Log.ring,Option.getD_some]
        rw [forward,History.add,← at_capacity,← length]
        exact (shows log rfl no_room).push

theorem clear_some {history : History} (sound : Sound eventlog) (counts : Counts eventlog history) :
    Sound (clear eventlog).2 ∧ Counts (clear eventlog).2 history.clear ∧ Shows (clear eventlog).2 history.clear := by
  cases eventlog with
  | none => exact ⟨sound,⟨counts.1,rfl⟩,fun log is => by cases is⟩
  | some log =>
    have good := sound log rfl
    refine ⟨fun after is => ?_,⟨counts.1,rfl⟩,fun after is => ?_⟩
    · cases is
      refine ⟨good.allocated,good.length,fun some_room => ?_,Nat.zero_le _,rfl⟩
      exact capacity_pos some_room
    · cases is
      intro some_room
      refine Holds.empty ?_
      change (0 : UInt32).toNat < log.ring.length
      rw [good.length]
      exact capacity_pos some_room

end Operations

/-! ## Reading the events -/

section Iterating
variable {σ : Type} {callback : σ → UInt32 → Msg → Result × σ} {log : Log} {eventlog : Option Log} {history : History}

/-- Reading never leaves the allocated entries. -/
theorem iterate_inside (sound : log.Sound) (indices : List Nat) (inside : ∀ i ∈ indices, i < log.count.toNat) (arg : σ) :
    ∃ outcome, log.iterate callback indices arg = some outcome := by
  induction indices generalizing arg with
  | nil => exact ⟨_,rfl⟩
  | cons i rest ih =>
    have here := inside i (by simp)
    have index : (UInt32.ofNat i).toNat = i := @ofNat_toNat i log.count (by omega)
    obtain ⟨entry,read,_⟩ := @recent_read_some log (UInt32.ofNat i) sound (UInt32.lt_iff_toNat_lt.2 (by rw [index]; exact here))
    unfold Log.iterate
    rw [read]
    by_cases stop : (callback arg (UInt32.ofNat i + 1) entry).1 ≠ .success
    · exact ⟨callback arg (UInt32.ofNat i + 1) entry,if_pos stop⟩
    · obtain ⟨outcome,run⟩ := ih (fun j member => inside j (by simp [member])) (callback arg (UInt32.ofNat i + 1) entry).2
      exact ⟨outcome,(if_neg stop).trans run⟩

/-- Within 32 bits the events are handed out as the history has them. -/
theorem iterate_eq (sound : log.Sound) (counts : log.count.toNat = history.events.length) (shows : log.Shows history.events)
    (legible : log.Legible) (first n : Nat) (all : first + n = log.count.toNat) (arg : σ) :
    log.iterate callback (List.range' first n) arg = some (hand_out callback (first + 1) (history.events.drop first) arg) := by
  induction n generalizing first arg with
  | zero =>
    rw [List.drop_of_length_le (by omega)]
    rfl
  | succ n ih =>
    have index : (UInt32.ofNat first).toNat = first := @ofNat_toNat first log.count (by omega)
    have inside : first < history.events.length := by omega
    have some_room := sound.some_room (show first < log.count.toNat by omega)
    have in_range : log.next.toNat + log.capacity.toNat ≤ 2 ^ 32 := by
      rcases legible with nothing | in_range
      · have zero : (0 : UInt32).toNat = 0 := rfl
        rw [nothing] at all
        omega
      · exact in_range
    have read : log.recent_read (UInt32.ofNat first) = some (some history.events[first]) := by
      rw [recent_read_eq sound (UInt32.lt_iff_toNat_lt.2 (by rw [index]; omega)),recent_eq_slot sound in_range (by rw [index]; omega),index,
        ← sound.length,(shows some_room).read first inside,List.getElem?_eq_getElem inside]
      rfl
    have number : UInt32.ofNat first + 1 = UInt32.ofNat (first + 1) := (UInt32.ofNat_add first 1).symm
    rw [List.range'_succ,List.drop_eq_getElem_cons inside]
    unfold Log.iterate hand_out
    rw [read,number]
    by_cases stop : (callback arg (UInt32.ofNat (first + 1)) history.events[first]).1 ≠ .success
    · exact (if_pos stop).trans (congrArg some (if_pos stop).symm)
    · exact (if_neg stop).trans ((ih (first + 1) (by omega) _).trans (congrArg some (if_neg stop).symm))

end Iterating

/-! ## Runs -/

inductive Operation where
  | add (entry : Msg)
  | resize (allocated : Allocated) (capacity : UInt32)
  | clear
  | delete

def operate (platform : Platform) (eventlog : Option Log) : Operation → Option (Result × Option Log)
  | .add entry => msg_add eventlog entry
  | .resize allocated capacity => resize platform allocated eventlog capacity
  | .clear => some (clear eventlog)
  | .delete => some (.success, delete eventlog)

/-- What an operation with this result makes of the history. -/
def History.after (history : History) (result : Result) : Operation → History
  | .add entry => if entry.opcode = 0 then history else history.add entry
  | .resize _ capacity => if result = .success then history.resize capacity.toNat else history
  | .clear => history.clear
  | .delete => {}

/-- The log and the history after the operations. -/
def run (platform : Platform) : List Operation → Option Log → History → Option (Option Log × History)
  | [], eventlog, history => some (eventlog, history)
  | operation :: rest, eventlog, history => do
    let (result, after) ← operate platform eventlog operation
    run platform rest after (history.after result operation)

def Legible (eventlog : Option Log) : Prop := ∀ log ∈ eventlog, log.Legible

/-- The operation copies events of the log. -/
def Operation.Copies (platform : Platform) (eventlog : Option Log) : Operation → Prop
  | .resize allocated capacity => ∃ log ∈ eventlog, log.Copies platform allocated capacity
  | _ => False

/-- The log is legible whenever its events are copied. -/
def LegibleRun (platform : Platform) : List Operation → Option Log → Prop
  | [], _ => True
  | operation :: rest, eventlog => (operation.Copies platform eventlog → Legible eventlog) ∧
    ∀ result after, operate platform eventlog operation = some (result, after) → LegibleRun platform rest after

section Runs
variable {platform : Platform} {eventlog : Option Log} {history : History}

theorem operate_tracks (operation : Operation) (sound : Sound eventlog) (counts : Counts eventlog history) :
    ∃ result after, operate platform eventlog operation = some (result, after) ∧ Sound after ∧
      Counts after (history.after result operation) ∧
      (Shows eventlog history → (operation.Copies platform eventlog → Legible eventlog) → Shows after (history.after result operation)) := by
  cases operation with
  | add entry =>
    by_cases unnamed : entry.opcode = 0
    · refine ⟨_,_,if_pos unnamed,sound,?_,fun shows _ => ?_⟩
      · rwa [History.after,if_pos unnamed]
      · rwa [History.after,if_pos unnamed]
    · obtain ⟨after,added,sound_after,counts_after,shows_after⟩ := msg_add_some sound counts unnamed
      refine ⟨_,after,added,sound_after,?_,fun shows _ => ?_⟩
      · rwa [History.after,if_neg unnamed]
      · rw [History.after,if_neg unnamed]
        exact shows_after shows
  | resize allocated capacity =>
    cases eventlog with
    | none =>
      have none_kept : history.resize capacity.toNat = { capacity := capacity.toNat, events := [] } := by
        simp [History.resize,counts.2]
      rcases created : create platform allocated capacity with ⟨result,after⟩
      obtain ⟨sound_after,failure,success⟩ := create_sound created
      refine ⟨result,after,congrArg some created,sound_after,?_,fun shows _ => ?_⟩
      · by_cases worked : result = .success
        · rw [History.after,if_pos worked,none_kept]
          exact (success worked).1
        · rw [History.after,if_neg worked,failure worked]
          exact counts
      · by_cases worked : result = .success
        · rw [History.after,if_pos worked,none_kept]
          exact (success worked).2
        · rw [History.after,if_neg worked,failure worked]
          exact shows
    | some log =>
      obtain ⟨result,after,resized,sound_after,success⟩ :=
        @resize_some platform allocated log capacity history (sound log rfl) counts
      refine ⟨result,after,resized,sound_after,?_,fun shows legible => ?_⟩
      · by_cases worked : result = .success
        · rw [History.after,if_pos worked]
          exact (success worked).1
        · rw [History.after,if_neg worked,resize_failed resized worked]
          exact counts
      · by_cases worked : result = .success
        · rw [History.after,if_pos worked]
          exact (success worked).2 (shows log rfl) fun copies => legible ⟨log,rfl,copies⟩ log rfl
        · rw [History.after,if_neg worked,resize_failed resized worked]
          exact shows
  | clear =>
    obtain ⟨sound_after,counts_after,shows_after⟩ := clear_some sound counts
    exact ⟨_,_,rfl,sound_after,counts_after,fun _ _ => shows_after⟩
  | delete =>
    refine ⟨_,none,rfl,fun log is => ?_,⟨rfl,rfl⟩,fun _ _ log is => ?_⟩
    · cases is
    · cases is

theorem run_tracks (operations : List Operation) (sound : Sound eventlog) (counts : Counts eventlog history) :
    ∃ last model, run platform operations eventlog history = some (last, model) ∧ Sound last ∧ Counts last model ∧
      (Shows eventlog history → LegibleRun platform operations eventlog → Shows last model) := by
  induction operations generalizing eventlog history with
  | nil => exact ⟨_,_,rfl,sound,counts,fun shows _ => shows⟩
  | cons operation rest ih =>
    obtain ⟨result,after,operated,sound_after,counts_after,shows_after⟩ := @operate_tracks platform _ _ operation sound counts
    obtain ⟨last,model,ran,sound_last,counts_last,shows_last⟩ := ih sound_after counts_after
    refine ⟨last,model,?_,sound_last,counts_last,fun shows legible => ?_⟩
    · simp only [run,operated]
      exact ran
    · exact shows_last (shows_after shows legible.1) (legible.2 result after operated)

/-- What a log that has been run on shows is the history, as long as the index arithmetic stays within 32 bits where events
are read; the counters, the bounds of the ring and the failures of a resize do not depend on that. -/
theorem ring_history (platform : Platform) (operations : List Operation) :
    ∃ eventlog history, run platform operations none {} = some (eventlog, history) ∧
      (∀ log ∈ eventlog, log.count.toNat = history.events.length ∧ log.written = log.count.toUInt64 + log.overwritten ∧
        ∀ entries ∈ log.entries, log.next.toNat < entries.length ∧ ∀ index, (log.recent index).toNat < entries.length) ∧
      (∀ allocated capacity result after, resize platform allocated eventlog capacity = some (result, after) →
        result ≠ .success → after = eventlog) ∧
      (∀ (σ : Type) (callback : σ → UInt32 → Msg → Result × σ) (arg : σ), ∃ outcome, msg_iterate callback eventlog arg = some outcome) ∧
      (LegibleRun platform operations none → Legible eventlog →
        ∀ (σ : Type) (callback : σ → UInt32 → Msg → Result × σ) (arg : σ), msg_iterate callback eventlog arg =
          some (if eventlog = none then (.not_found, arg) else hand_out callback 1 history.events arg)) := by
  obtain ⟨eventlog,history,ran,sound,counts,shows⟩ :=
    @run_tracks platform none {} operations (fun log is => by cases is) ⟨rfl,rfl⟩
  refine ⟨eventlog,history,ran,fun log is => ?_,fun _ _ _ _ => resize_failed,fun σ callback arg => ?_,
    fun legible_run legible σ callback arg => ?_⟩
  · cases is
    have good := sound log rfl
    refine ⟨counts.2,good.written,fun entries allocated => ?_⟩
    have some_room : log.capacity ≠ 0 := by
      intro none_left
      rw [good.allocated,if_pos none_left] at allocated
      cases allocated
    have ring : entries = log.ring := by rw [Log.ring,allocated]; rfl
    rw [ring,good.length]
    exact ⟨good.next some_room,fun index => recent_lt some_room⟩
  · cases eventlog with
    | none => exact ⟨_,rfl⟩
    | some log => exact iterate_inside (sound log rfl) _ (fun i member => List.mem_range.1 member) arg
  · cases eventlog with
    | none => rfl
    | some log =>
      have all := @iterate_eq _ callback log _ (sound log rfl) counts.2
        (shows (fun log is => by cases is) legible_run log rfl) (legible log rfl) 0 log.count.toNat (Nat.zero_add _) arg
      rw [List.drop_zero] at all
      rw [if_neg (by simp),msg_iterate,List.range_eq_range']
      exact all

/-- A 64-bit machine, on which an entry takes 72 octets. -/
def platform_64 : Platform := { size_max := 2 ^ 64 - 1, entry_size := 72 }

def memory : Allocated := { log := true, entries := true }

/-- A third event takes the place of the first one in a ring of two. -/
theorem two_newest_events :
    let events : List Msg := [{ opcode := 1, arg1 := 1 }, { opcode := 1, arg1 := 2 }, { opcode := 1, arg1 := 3 }]
    ∃ eventlog history, run platform_64 (.resize memory 2 :: events.map .add) none {} = some (eventlog, history) ∧
      ∀ (σ : Type) (callback : σ → UInt32 → Msg → Result × σ) (arg : σ),
        msg_iterate callback eventlog arg = some (hand_out callback 1 (events.reverse.take 2) arg) := by
  intro events
  obtain ⟨eventlog,history,ran,_,_,_,reads⟩ := ring_history platform_64 (.resize memory 2 :: events.map .add)
  have adding (entries : List Msg) (eventlog : Option Log) : LegibleRun platform_64 (entries.map .add) eventlog := by
    induction entries generalizing eventlog with
    | nil => trivial
    | cons entry rest ih => exact ⟨False.elim,fun _ after _ => ih after⟩
  have known : run platform_64 (.resize memory 2 :: events.map .add) none {} =
      some (some { entries := some [{ opcode := 1, arg1 := 3 }, { opcode := 1, arg1 := 2 }], capacity := 2, next := 1, count := 2,
                   written := 3, overwritten := 1 },
        { capacity := 2, events := events.reverse.take 2 }) := rfl
  rw [ran] at known
  cases known
  refine ⟨_,_,ran,fun σ callback arg => ?_⟩
  have legible_run : LegibleRun platform_64 (.resize memory 2 :: events.map .add) none :=
    ⟨fun copies => absurd copies (by simp [Operation.Copies]),fun _ after _ => adding events after⟩
  rw [reads legible_run (fun log is => by cases is; decide) σ callback arg]
  rfl

/-! ## Rings beyond half of the index range -/

theorem run_append (front back : List Operation) :
    run platform (front ++ back) eventlog history =
      (run platform front eventlog history).bind fun reached => run platform back reached.1 reached.2 := by
  induction front generalizing eventlog history with
  | nil => rfl
  | cons operation rest ih =>
    simp only [List.cons_append,run]
    cases operate platform eventlog operation with
    | none => rfl
    | some outcome => exact ih

/-- Events in a ring that has come round to none of its entries twice. -/
theorem run_filling {capacity : UInt32} {entry : Msg} (named : entry.opcode ≠ 0) (some_room : capacity ≠ 0) (n : Nat) {log : Log} {history : History}
    (sound : log.Sound) (counts : Counts log history) (shows : Shows log history) (at_capacity : log.capacity = capacity)
    (here : log.next.toNat = log.count.toNat) (room : log.count.toNat + n < capacity.toNat) :
    ∃ last, run platform (List.replicate n (.add entry)) log history =
        some (some last, { history with events := List.replicate n entry ++ history.events }) ∧
      last.Sound ∧ Shows last { history with events := List.replicate n entry ++ history.events } ∧ last.capacity = capacity ∧
      last.next.toNat = log.count.toNat + n ∧ last.count.toNat = log.count.toNat + n := by
  induction n generalizing log history with
  | zero => exact ⟨log,rfl,sound,shows,at_capacity,here,rfl⟩
  | succ n ih =>
    have is_sound : Sound (some log) := fun other is => by cases is; exact sound
    obtain ⟨after,added,sound_after,counts_after,shows_after⟩ := msg_add_some is_sound counts named
    have entries := sound.entries (by rw [at_capacity]; exact some_room)
    have length := sound.length
    have one : (1 : UInt32).toNat = 1 := rfl
    have bound := capacity.toNat_lt
    have known := added
    unfold msg_add at known
    rw [if_neg named] at known
    simp only [at_capacity,some_room,entries,false_or] at known
    rw [if_neg (by simp),store_inside (by rw [length,at_capacity]; omega)] at known
    have result := (Prod.ext_iff.1 (Option.some.inj known)).2
    subst result
    have less : log.count < capacity := UInt32.lt_iff_toNat_lt.2 (by omega)
    have counted : (if log.count < capacity then log.count + 1 else log.count).toNat = log.count.toNat + 1 := by
      rw [if_pos less,UInt32.toNat_add,one]
      omega
    have forward : ((log.next + 1) % capacity).toNat = log.count.toNat + 1 := by
      rw [UInt32.toNat_mod,UInt32.toNat_add,one,here,Nat.mod_eq_of_lt (show log.count.toNat + 1 < 2 ^ 32 by omega),Nat.mod_eq_of_lt (by omega)]
    have grown : (entry :: history.events).take history.capacity = entry :: history.events := by
      refine List.take_of_length_le ?_
      obtain ⟨same,length⟩ := counts
      rw [List.length_cons]
      rw [at_capacity] at same
      omega
    obtain ⟨last,ran,sound_last,shows_last,capacity_last,next_last,count_last⟩ :=
      ih (sound_after _ rfl) counts_after (shows_after shows) rfl (by rw [forward,counted]) (by rw [counted]; omega)
    have events : List.replicate n entry ++ (history.add entry).events = List.replicate (n + 1) entry ++ history.events := by
      rw [History.add,grown,List.replicate_succ',List.append_assoc,List.singleton_append]
    refine ⟨last,?_,sound_last,?_,capacity_last,?_,?_⟩
    · have kept : history.after .success (.add entry) = history.add entry := if_neg named
      rw [List.replicate_succ]
      simp only [run,operate,added,Option.bind_eq_bind,Option.bind_some,kept]
      rw [ran,events]
      rfl
    · rw [events] at shows_last
      exact shows_last
    · rw [next_last,counted]
      omega
    · rw [count_last,counted]
      omega

/-- In a ring of more than half of the index range the newest event is not the one that is read first. -/
theorem large_ring_misread :
    ¬ ∀ (platform : Platform) (operations : List Operation) (eventlog : Option Log) (history : History),
      run platform operations none {} = some (eventlog, history) → eventlog ≠ none →
        ∀ (σ : Type) (callback : σ → UInt32 → Msg → Result × σ) (arg : σ),
          msg_iterate callback eventlog arg = some (hand_out callback 1 history.events arg) := by
  intro claimed
  let first : Msg := { opcode := 1 }
  let later : Msg := { opcode := 2 }
  -- the capacity and the number of events stay variables: nothing is to compute with lists of that length
  obtain ⟨capacity,at_capacity⟩ : ∃ capacity : UInt32, capacity = 0x80000001 := ⟨_,rfl⟩
  obtain ⟨n,at_n⟩ : ∃ n : Nat, n = 2147483646 := ⟨_,rfl⟩
  have some_room : capacity ≠ 0 := by rw [at_capacity]; decide
  have size : capacity.toNat = 2147483649 := by rw [at_capacity]; rfl
  let created : Log := { entries := some (List.replicate capacity.toNat {}), capacity }
  have none_yet : created.count.toNat = 0 := rfl
  have create_eq : create platform_64 memory capacity = (.success, some created) := by
    unfold create
    rw [if_neg (by decide),if_neg some_room,if_neg (by rw [at_capacity]; decide),if_neg (by decide)]
  obtain ⟨sound,_,success⟩ := create_sound create_eq
  obtain ⟨counts,shows⟩ := success rfl
  obtain ⟨one,ran_one,sound_one,shows_one,capacity_one,next_one,count_one⟩ :=
    @run_filling platform_64 capacity first (by decide) some_room 1 _ _ (sound _ rfl) counts shows rfl rfl
      (by rw [none_yet,size]; omega)
  have counts_one : Counts (some one) { capacity := capacity.toNat, events := List.replicate 1 first ++ [] } :=
    ⟨by rw [capacity_one],count_one⟩
  obtain ⟨last,ran_last,sound_last,shows_last,capacity_last,next_last,count_last⟩ :=
    @run_filling platform_64 capacity later (by decide) some_room (n + 1) _ _ sound_one counts_one shows_one
      capacity_one (by rw [next_one,count_one]) (by rw [count_one,none_yet,size]; omega)
  rw [List.append_nil] at ran_one ran_last shows_last
  have ran : run platform_64 (.resize memory capacity :: (List.replicate 1 (.add first) ++ List.replicate (n + 1) (.add later))) none {} =
      some (some last, { capacity := capacity.toNat, events := List.replicate (n + 1) later ++ List.replicate 1 first }) := by
    have created_log : operate platform_64 none (.resize memory capacity) = some (.success, some created) := congrArg some create_eq
    have resized : ({} : History).after .success (.resize memory capacity) = { capacity := capacity.toNat, events := [] } := by
      simp [History.after,History.resize]
    rw [run,created_log]
    simp only [Option.bind_eq_bind,Option.bind_some,resized]
    rw [run_append,ran_one]
    exact ran_last
  let read_first : Option Msg → UInt32 → Msg → Result × Option Msg := fun _ _ entry => (.conflict, some entry)
  have handed := claimed _ _ _ _ ran (by simp) _ read_first none
  have half : (0x80000000 : UInt32).toNat = 2147483648 := rfl
  have at_next : last.next = 0x80000000 := UInt32.toNat_inj.1 (by rw [next_last,count_one,none_yet,at_n,half])
  have at_count : last.count.toNat = n + 1 + 1 := by rw [count_last,count_one]; omega
  have index : (last.recent 0).toNat = 0 := by
    rw [Log.recent,at_next,capacity_last,at_capacity]
    decide
  have inside : (0 : UInt32) < last.count := UInt32.lt_iff_toNat_lt.2 (by rw [at_count]; exact Nat.succ_pos _)
  have oldest : last.ring[(0 : Nat)]? = some first := by
    have there := (shows_last last rfl (by rw [capacity_last]; exact some_room)).read (n + 1) (by simp)
    have place : slot last.ring.length last.next.toNat (n + 1) = 0 := by
      rw [sound_last.length,capacity_last,at_next,at_n,size]
      decide
    rw [place] at there
    rw [there,List.getElem?_append_right (by simp)]
    simp
  have read : last.recent_read 0 = some (some first) := by
    rw [recent_read_eq sound_last inside,index,oldest]
    rfl
  have reads_first : msg_iterate read_first (some last) none = some (.conflict, some first) := by
    rw [msg_iterate,at_count,List.range_eq_range',List.range'_succ]
    unfold Log.iterate
    rw [show UInt32.ofNat 0 = 0 by rfl,read]
    rfl
  have hands_later : hand_out read_first 1 (List.replicate (n + 1) later ++ List.replicate 1 first) none = (.conflict, some later) := by
    rw [List.replicate_succ,List.cons_append]
    rfl
  rw [reads_first,hands_later] at handed
  have same : first = later := Option.some.inj (Prod.ext_iff.1 (Option.some.inj handed)).2
  exact absurd same (by decide)

end Runs

end Eigrp.Eventlog
