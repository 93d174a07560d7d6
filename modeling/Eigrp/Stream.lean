import Eigrp.Tlv

/-!
# Streams

`eigrp_stream.c`: octets with a position to read from and a position to write at. The two route decoders work on a
stream; for the fields of one TLV they set its end to the end of that TLV.
-/

namespace Eigrp
open Eigrp.Lib

/-- `eigrp_stream_t`. The octets behind `endp` are allocated and not part of the content. -/
@[ext]
structure Stream where
  data : List UInt8 := []
  getp : Nat := 0
  endp : Nat := 0
  allocated : endp ≤ data.length := by simp
  ordered : getp ≤ endp := by simp

namespace Stream

/-- The octets between the two positions. -/
def unread (pkt : Stream) : List UInt8 := (pkt.data.take pkt.endp).drop pkt.getp

/-- `eigrp_tlv1_stream_remaining`. -/
def remaining (pkt : Stream) : Nat := pkt.endp - pkt.getp

/-- `eigrp_stream_ensure`: what is allocated behind the old octets has no value of its own. -/
def ensure (pkt : Stream) (needed : Nat) : List UInt8 := pkt.data ++ List.replicate (needed - pkt.data.length) 0

theorem ensure_length (pkt : Stream) (needed : Nat) : needed ≤ (pkt.ensure needed).length := by
  simp [ensure]
  omega

theorem ensure_within (pkt : Stream) {needed : Nat} (within : needed ≤ pkt.data.length) : pkt.ensure needed = pkt.data := by
  simp [ensure,Nat.sub_eq_zero_of_le within]

/-- `eigrp_stream_set_getp`. -/
def set_getp (pkt : Stream) (position : Nat) : Stream :=
  { pkt with
    getp := if position ≤ pkt.endp then position else pkt.endp
    ordered := by split <;> omega }

/-- `eigrp_stream_set_endp`. -/
def set_endp (pkt : Stream) (position : Nat) : Stream where
  data := pkt.ensure position
  getp := if pkt.getp > position then position else pkt.getp
  endp := position
  allocated := pkt.ensure_length position
  ordered := by split <;> omega

/-- `eigrp_stream_get`: no more than there is. -/
def get (size : Nat) : StateM Stream (List UInt8) := fun pkt =>
  let size := min size pkt.remaining
  (pkt.unread.take size, pkt.set_getp (pkt.getp + size))

/-- A number of the network: octets that the stream does not have stay zero. -/
def field (size : Nat) : StateM Stream Nat := do
  let bytes ← get size
  return number (bytes ++ List.replicate (size - bytes.length) 0)

def getc : StateM Stream UInt8 := do return UInt8.ofNat (← field 1)
def getw : StateM Stream UInt16 := do return UInt16.ofNat (← field 2)
def getl : StateM Stream UInt32 := do return UInt32.ofNat (← field 4)
def get48 : StateM Stream UInt64 := do return UInt64.ofNat (← field 6)

/-- `eigrp_stream_put`. -/
def put (pkt : Stream) (src : List UInt8) : Stream where
  data := (pkt.ensure (pkt.endp + src.length)).take pkt.endp ++ (src ++ (pkt.ensure (pkt.endp + src.length)).drop (pkt.endp + src.length))
  getp := pkt.getp
  endp := pkt.endp + src.length
  allocated := by
    have space := pkt.ensure_length (pkt.endp + src.length)
    simp
    omega
  ordered := by
    have ordered := pkt.ordered
    omega

/-! ## Reading on -/

/-- The stream with `n` more octets read. -/
def skip (pkt : Stream) (n : Nat) : Stream := pkt.set_getp (pkt.getp + n)

theorem set_getp_getp (pkt : Stream) (position : Nat) : (pkt.set_getp position).getp = min position pkt.endp := by
  simp only [set_getp]
  split <;> omega

@[simp] theorem skip_data (pkt : Stream) (n : Nat) : (pkt.skip n).data = pkt.data := rfl
@[simp] theorem skip_endp (pkt : Stream) (n : Nat) : (pkt.skip n).endp = pkt.endp := rfl

theorem unread_length (pkt : Stream) : pkt.unread.length = pkt.endp - pkt.getp := by
  have allocated := pkt.allocated
  simp [unread]
  omega

theorem skip_getp (pkt : Stream) {n : Nat} (within : n ≤ pkt.unread.length) : (pkt.skip n).getp = pkt.getp + n := by
  have ordered := pkt.ordered
  rw [unread_length] at within
  simp only [skip,set_getp]
  rw [if_pos (by omega)]

theorem unread_set_getp (pkt : Stream) {position : Nat} : (pkt.set_getp position).unread = (pkt.data.take pkt.endp).drop position := by
  simp only [unread,set_getp]
  split
  · rfl
  · rw [List.drop_of_length_le (by simp), List.drop_of_length_le (by simp; omega)]

@[simp] theorem skip_unread (pkt : Stream) (n : Nat) : (pkt.skip n).unread = pkt.unread.drop n := by
  rw [skip, unread_set_getp, unread, List.drop_drop]

@[simp] theorem skip_zero (pkt : Stream) : pkt.skip 0 = pkt := by
  have ordered := pkt.ordered
  ext1 <;> simp [skip,set_getp,ordered]

theorem skip_skip (pkt : Stream) (n k : Nat) : (pkt.skip n).skip k = pkt.skip (n + k) := by
  ext1
  · rfl
  · simp only [skip,set_getp]
    split_ifs <;> omega
  · rfl

/-- Two positions in the same octets are equal where the same octets are unread. -/
theorem skip_eq_of_drop {pkt : Stream} {n k : Nat} (same : pkt.unread.drop n = pkt.unread.drop k) : pkt.skip n = pkt.skip k := by
  have lengths := congrArg List.length same
  have ordered := pkt.ordered
  rw [List.length_drop, List.length_drop, unread_length] at lengths
  ext1
  · rfl
  · simp only [skip,set_getp]
    split_ifs <;> omega
  · rfl

/-! ## Fields of fixed size -/

/-- An action reads `n` octets, as a reader of octet strings does that has too little below them. -/
def Covers {α : Type} (action : StateM Stream α) (n : Nat) (reader : List UInt8 → Option (α × List UInt8)) : Prop :=
  ∃ value : List UInt8 → α,
    (∀ bytes, reader bytes = if n ≤ bytes.length then some (value (bytes.take n), bytes.drop n) else none) ∧
      ∀ pkt : Stream, n ≤ pkt.unread.length → action.run pkt = (value (pkt.unread.take n), pkt.skip n)

theorem Covers.pure {α : Type} (a : α) : Covers (pure a) 0 (fun bytes => some (a, bytes)) := by
  refine ⟨fun _ => a,by simp,?_⟩
  intro pkt _
  rw [skip_zero]
  rfl

theorem Covers.bind {α β : Type} {action : StateM Stream α} {next : α → StateM Stream β} {n k : Nat}
    {reader : List UInt8 → Option (α × List UInt8)} {readers : α → List UInt8 → Option (β × List UInt8)}
    (first : Covers action n reader) (second : ∀ a, Covers (next a) k (readers a)) :
    Covers (action >>= next) (n + k) (fun bytes => (reader bytes).bind fun read => readers read.1 read.2) := by
  obtain ⟨value,reads,runs⟩ := first
  choose values reads_next runs_next using second
  refine ⟨fun bytes => values (value (bytes.take n)) (bytes.drop n),?_,?_⟩
  · intro bytes
    beta_reduce
    rw [reads]
    by_cases enough : n ≤ bytes.length
    · rw [if_pos enough, Option.bind_some, reads_next, List.length_drop]
      by_cases whole : n + k ≤ bytes.length
      · rw [if_pos (by omega), if_pos whole, List.take_take, List.drop_drop, min_eq_left (by omega), List.drop_take,
          Nat.add_sub_cancel_left]
      · rw [if_neg (by omega), if_neg whole]
    · rw [if_neg enough, if_neg (by omega), Option.bind_none]
  · intro pkt whole
    have enough : n ≤ pkt.unread.length := by omega
    have more : k ≤ (pkt.skip n).unread.length := by
      rw [skip_unread, List.length_drop]
      omega
    rw [StateT.run_bind, runs pkt enough]
    change (next (value (pkt.unread.take n))).run (pkt.skip n) = _
    beta_reduce
    rw [runs_next _ _ more, skip_unread, skip_skip, List.take_take, min_eq_left (by omega), List.drop_take,
      Nat.add_sub_cancel_left]

theorem Covers.of_eq {α : Type} {action other : StateM Stream α} {n k : Nat}
    {reader known : List UInt8 → Option (α × List UInt8)} (covers : Covers action n reader) (same : action = other)
    (size : n = k) (agrees : ∀ bytes, reader bytes = known bytes) : Covers other k known := by
  subst same size
  rw [← funext agrees]
  exact covers

/-- A field of a stream is the field that the octets begin with. -/
theorem field_covers (n : Nat) : Covers (field n) n (Lib.get n) := by
  refine ⟨number,fun _ => rfl,?_⟩
  intro pkt enough
  have size : min n pkt.remaining = n := by
    rw [unread_length] at enough
    simp only [remaining]
    omega
  have got : (get n).run pkt = (pkt.unread.take n, pkt.skip n) := by
    simp only [get,StateT.run]
    rw [size]
    rfl
  have whole : n - (pkt.unread.take n).length = 0 := by simp [enough]
  simp only [field,StateT.run_bind,got]
  change (number (pkt.unread.take n ++ List.replicate (n - (pkt.unread.take n).length) 0), pkt.skip n) = _
  rw [whole, List.replicate_zero, List.append_nil]

theorem field_covers_map {α : Type} (n : Nat) (decode : Nat → α) :
    Covers (do return decode (← field n)) n (fun bytes => (Lib.get n bytes).map fun (value, rest) => (decode value, rest)) := by
  refine ((field_covers n).bind fun value => Covers.pure (decode value)).of_eq rfl rfl ?_
  intro bytes
  cases Lib.get n bytes <;> rfl

theorem stream_getc_eq (bytes : List UInt8) :
    (Lib.get 1 bytes).map (fun (value, rest) => (UInt8.ofNat value, rest)) = stream_getc bytes := by
  cases bytes with
  | nil => rfl
  | cons byte bytes => simp [stream_getc,Lib.get,number]

theorem getc_covers : Covers getc 1 stream_getc := (field_covers_map 1 UInt8.ofNat).of_eq rfl rfl stream_getc_eq
theorem getw_covers : Covers getw 2 stream_getw := field_covers_map 2 UInt16.ofNat
theorem getl_covers : Covers getl 4 stream_getl := field_covers_map 4 UInt32.ofNat
theorem get48_covers : Covers get48 6 tlv2_get48 := field_covers_map 6 UInt64.ofNat

end Stream

end Eigrp
