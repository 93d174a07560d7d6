import Eigrp.Auth
import Eigrp.Lib.Residue
import Mathlib.Algebra.BigOperators.Group.Finset.Basic
import Mathlib.Algebra.Order.BigOperators.Group.Finset

/-!
# The checksum of a packet

`eigrp_checksum` adds up the words of a packet in 32 bits, adds the carries back in and returns the complement. A packet
that carries the checksum over the rest of it adds up to the greatest word, and the receiver finds zero.
-/

namespace Eigrp.Checksum
open Eigrp.Lib Eigrp.Auth

/-! ## The header checks -/

/-- `EIGRP_EVENTLOG_PACKET_REJECT_*` as far as the header checks report them, and the check of the authentication TLV. -/
inductive Reject where
  | short_header
  | version
  | as_mismatch
  | vrid_mismatch
  | checksum
  | auth
  | source_offlink
deriving DecidableEq, Repr

def header_version : UInt8 := 2

/-- What the header checks read of the instance. -/
structure Process where
  as : UInt16
  vrid : UInt16
deriving DecidableEq, Repr

/-- `eigrp_packet_header_validate`: the first check that fails. -/
def packet_header_validate (ei : Interface) (eigrp : Process) (source_on_link : Bool) (packet : List UInt8) : Option Reject :=
  if packet.length < header_len then some .short_header
  else if packet.getD 0 0 ≠ header_version then some .version
  else if word 18 packet ≠ eigrp.as then some .as_mismatch
  else if word 16 packet ≠ eigrp.vrid then some .vrid_mismatch
  else if checksum packet ≠ 0 then some .checksum
  else if auth_header_validate ei packet = false then some .auth
  else if source_on_link = false then some .source_offlink
  else none

/-- `eigrp_process_packet_validate` for the octets behind the network header. -/
def process_packet_validate (packet : List UInt8) : Bool :=
  if packet.length < header_len then false
  else if packet.getD 0 0 ≠ header_version then false
  else checksum packet == 0

/-! ## Words -/

/-- The word at a place; a single octet at the end is the high one of its word. -/
def word_at (packet : List UInt8) (k : Nat) : Nat := 256 * (packet.getD (2 * k) 0).toNat + (packet.getD (2 * k + 1) 0).toNat

/-- The words of a packet, added up without a bound. -/
def word_sum (packet : List UInt8) : Nat := ∑ k ∈ Finset.range ((packet.length + 1) / 2), word_at packet k

theorem word_at_le (packet : List UInt8) (k : Nat) : word_at packet k ≤ 65535 := by
  have high := (packet.getD (2 * k) 0).toNat_lt
  have low := (packet.getD (2 * k + 1) 0).toNat_lt
  unfold word_at
  omega

theorem word_sum_le (packet : List UInt8) : word_sum packet ≤ (packet.length + 1) / 2 * 65535 := by
  have bound := Finset.sum_le_card_nsmul (Finset.range ((packet.length + 1) / 2)) (word_at packet) 65535
    (fun k _ => word_at_le packet k)
  simpa [word_sum] using bound

theorem word_sum_cons (high low : UInt8) (rest : List UInt8) :
    word_sum (high :: low :: rest) = 256 * high.toNat + low.toNat + word_sum rest := by
  have count : ((high :: low :: rest).length + 1) / 2 = (rest.length + 1) / 2 + 1 := by
    simp only [List.length_cons]
    omega
  have behind (k : Nat) : word_at (high :: low :: rest) (k + 1) = word_at rest k := by
    simp [word_at,Nat.mul_add]
  unfold word_sum
  rw [count,Finset.sum_range_succ',Finset.sum_congr rfl fun k _ => behind k,Nat.add_comm]
  rfl

/-- Packets that differ in one word differ in their sums by as much. -/
theorem word_sum_change {packet changed : List UInt8} (same_length : changed.length = packet.length) {k : Nat}
    (inside : k < (packet.length + 1) / 2) (rest : ∀ i, i / 2 ≠ k → changed[i]? = packet[i]?) :
    word_sum changed + word_at packet k = word_sum packet + word_at changed k := by
  have kept : ∀ j ∈ (Finset.range ((packet.length + 1) / 2)).erase k, word_at changed j = word_at packet j := by
    intro j member
    have apart : j ≠ k := Finset.ne_of_mem_erase member
    have high := rest (2 * j) (by omega)
    have low := rest (2 * j + 1) (by omega)
    simp only [word_at,List.getD_eq_getElem?_getD,high,low]
  have listed : k ∈ Finset.range ((packet.length + 1) / 2) := Finset.mem_range.mpr inside
  have others : ∑ j ∈ (Finset.range ((packet.length + 1) / 2)).erase k, word_at changed j =
      ∑ j ∈ (Finset.range ((packet.length + 1) / 2)).erase k, word_at packet j := Finset.sum_congr rfl kept
  have split (octets : List UInt8) : word_at octets k + ∑ j ∈ (Finset.range ((packet.length + 1) / 2)).erase k, word_at octets j =
      ∑ j ∈ Finset.range ((packet.length + 1) / 2), word_at octets j := Finset.add_sum_erase _ _ listed
  unfold word_sum
  rw [same_length,← split changed,← split packet,others]
  omega

/-! ## The accumulator -/

theorem octet_shift_toNat (high : UInt8) : (high.toUInt32 <<< 8).toNat = 256 * high.toNat := by
  have bound := high.toNat_lt
  have eight : UInt32.toNat 8 % 32 = 8 := by decide
  rw [UInt32.toNat_shiftLeft,UInt8.toNat_toUInt32,eight,Nat.shiftLeft_eq,Nat.mod_eq_of_lt (by omega)]
  omega

theorem checksum_sum_toNat {sum : UInt32} {packet : List UInt8} (fits : sum.toNat + word_sum packet < 2 ^ 32) :
    (checksum_sum sum packet).toNat = sum.toNat + word_sum packet := by
  induction sum, packet using checksum_sum.induct with
  | case1 sum high low rest ih =>
    rw [word_sum_cons] at fits ⊢
    have high_bound := high.toNat_lt
    have low_bound := low.toNat_lt
    have combined : (high.toUInt32 <<< 8 ||| low.toUInt32).toNat = 256 * high.toNat + low.toNat := by
      have shifted : 256 * high.toNat = high.toNat <<< 8 := by
        rw [Nat.shiftLeft_eq]
        omega
      rw [UInt32.toNat_or,octet_shift_toNat,UInt8.toNat_toUInt32,shifted,← Nat.shiftLeft_add_eq_or_of_lt low_bound high.toNat]
    have added : (sum + (high.toUInt32 <<< 8 ||| low.toUInt32)).toNat = sum.toNat + (256 * high.toNat + low.toNat) := by
      rw [UInt32.toNat_add,combined,Nat.mod_eq_of_lt (by omega)]
    rw [checksum_sum,ih (by omega),added]
    omega
  | case2 sum high =>
    have single : word_sum [high] = 256 * high.toNat := by simp [word_sum,word_at]
    rw [single] at fits ⊢
    rw [checksum_sum,UInt32.toNat_add,octet_shift_toNat,Nat.mod_eq_of_lt fits]
  | case3 sum => simp [checksum_sum,word_sum]

theorem word_sum_lt {packet : List UInt8} (fits : packet.length ≤ 65535) : word_sum packet < 2 ^ 32 := by
  have bound := word_sum_le packet
  have count : (packet.length + 1) / 2 ≤ 32768 := by omega
  have product : (packet.length + 1) / 2 * 65535 ≤ 32768 * 65535 := Nat.mul_le_mul_right _ count
  omega

/-! ## The carries -/

theorem fold_step_toNat (sum : UInt32) : ((sum &&& (0xffff : UInt32)) + sum >>> 16).toNat = end_around 65535 sum.toNat := by
  have bound := sum.toNat_lt
  have low : (sum &&& (0xffff : UInt32)).toNat = sum.toNat % 65536 := by
    rw [UInt32.toNat_and]
    exact Nat.and_two_pow_sub_one_eq_mod sum.toNat 16
  have high : (sum >>> 16).toNat = sum.toNat / 65536 := by
    rw [UInt32.toNat_shiftRight]
    exact Nat.shiftRight_eq_div_pow sum.toNat 16
  rw [UInt32.toNat_add,low,high,Nat.mod_eq_of_lt (by omega)]
  rfl

theorem high_zero_iff (sum : UInt32) : sum >>> 16 = 0 ↔ sum.toNat ≤ 65535 := by
  have high : (sum >>> 16).toNat = sum.toNat / 65536 := by
    rw [UInt32.toNat_shiftRight]
    exact Nat.shiftRight_eq_div_pow sum.toNat 16
  rw [← UInt32.toNat_inj,high]
  simp only [UInt32.toNat_zero]
  omega

/-- Two rounds leave no carry, and the sum as it was modulo the greatest word. -/
theorem checksum_fold_toNat (sum : UInt32) : (checksum_fold 4 sum).toNat = residue 65535 sum.toNat := by
  have settled (rounds : Nat) {sum : UInt32} (small : sum.toNat ≤ 65535) :
      (checksum_fold (rounds + 1) sum).toNat = residue 65535 sum.toNat := by
    rw [checksum_fold,if_pos ((high_zero_iff sum).mpr small),residue_small small]
  have carried (rounds : Nat) {sum : UInt32} (large : ¬ sum.toNat ≤ 65535) :
      checksum_fold (rounds + 1) sum = checksum_fold rounds ((sum &&& (0xffff : UInt32)) + sum >>> 16) := by
    rw [checksum_fold,if_neg (mt (high_zero_iff sum).mp large)]
  by_cases none : sum.toNat ≤ 65535
  · exact settled 3 none
  · have first := fold_step_toNat sum
    rw [carried 3 none,← residue_end_around,← first]
    generalize (sum &&& (0xffff : UInt32)) + sum >>> 16 = once at first ⊢
    have small : once.toNat ≤ 131070 := by
      have bound := sum.toNat_lt
      rw [first,end_around]
      omega
    by_cases none : once.toNat ≤ 65535
    · exact settled 2 none
    · have second := fold_step_toNat once
      rw [carried 2 none,← residue_end_around,← second]
      refine settled 1 ?_
      rw [second,end_around]
      omega

/-! ## What the checksum says -/

theorem checksum_toNat {packet : List UInt8} (fits : packet.length ≤ 65535) :
    (checksum packet).toNat = 65535 - residue 65535 (word_sum packet) := by
  have exact_sum : (checksum_sum 0 packet).toNat = word_sum packet := by
    have bound := word_sum_lt fits
    rw [checksum_sum_toNat (by simpa using bound)]
    simp
  have below := residue_le (by decide : 0 < 65535) (word_sum packet)
  rw [checksum,UInt16.toNat_not,UInt32.toNat_toUInt16,checksum_fold_toNat,exact_sum,Nat.mod_eq_of_lt (by omega)]
  rfl

/-- The check passes exactly if the words add up to a multiple of the greatest word other than zero. -/
theorem checksum_eq_zero_iff {packet : List UInt8} (fits : packet.length ≤ 65535) :
    checksum packet = 0 ↔ word_sum packet ≠ 0 ∧ word_sum packet % 65535 = 0 := by
  have below := residue_le (by decide : 0 < 65535) (word_sum packet)
  rw [← residue_eq_top (by decide),← UInt16.toNat_inj,checksum_toNat fits,UInt16.toNat_zero]
  omega

/-- The packet with the checksum over it in its field. -/
def closed (packet : List UInt8) : List UInt8 := splice 2 (stream_putw (checksum packet)) packet

section Closed
variable {packet : List UInt8}

theorem closed_length (enough : header_len ≤ packet.length) : (closed packet).length = packet.length := by
  refine splice_length ?_
  have pair : (stream_putw (checksum packet)).length = 2 := rfl
  simp only [header_len] at enough
  omega

theorem closed_sum (enough : header_len ≤ packet.length) (zeroed : window 2 2 packet = [0, 0]) :
    word_sum (closed packet) = word_sum packet + (checksum packet).toNat := by
  simp only [header_len] at enough
  have pair : (stream_putw (checksum packet)).length = 2 := rfl
  have written : 2 + (stream_putw (checksum packet)).length ≤ packet.length := by omega
  have outside : ∀ i, i / 2 ≠ 1 → (closed packet)[i]? = packet[i]? := by
    intro i apart
    rw [closed,splice_getElem? written,pair]
    by_cases before : i < 2
    · rw [if_pos before]
    · rw [if_neg before,if_neg (by omega)]
  have change := @word_sum_change packet (closed packet) (closed_length enough) 1 (by omega) outside
  have zero : word_at packet 1 = 0 := by
    have high := congrArg (·[0]?) zeroed
    have low := congrArg (·[1]?) zeroed
    simp only [window_getElem?] at high low
    norm_num at high low
    simp [word_at,List.getD_eq_getElem?_getD,high,low]
  have field : word_at (closed packet) 1 = (checksum packet).toNat := by
    have bound := (checksum packet).toNat_lt
    simp only [word_at,List.getD_eq_getElem?_getD,closed,splice_getElem? written]
    simp [stream_putw,put]
    omega
  omega

/-- Whatever the rest of the packet is, its checksum makes the check pass. -/
theorem closed_passes (enough : header_len ≤ packet.length) (fits : packet.length ≤ 65535) (zeroed : window 2 2 packet = [0, 0]) :
    checksum (closed packet) = 0 := by
  have whole : (closed packet).length ≤ 65535 := (closed_length enough).trans_le fits
  rw [checksum_eq_zero_iff whole,← residue_eq_top (by decide),closed_sum enough zeroed,checksum_toNat fits]
  exact residue_complement (by decide) _

/-- A packet that passes fails once a single word is another one modulo the greatest. -/
theorem checksum_detects {changed : List UInt8} (fits : packet.length ≤ 65535) (passes : checksum packet = 0)
    (same_length : changed.length = packet.length) {k : Nat} (rest : ∀ i, i / 2 ≠ k → changed[i]? = packet[i]?)
    (other : word_at changed k % 65535 ≠ word_at packet k % 65535) : checksum changed ≠ 0 := by
  intro passes'
  have multiple := ((checksum_eq_zero_iff fits).mp passes).2
  have multiple' := ((checksum_eq_zero_iff (same_length.trans_le fits)).mp passes').2
  by_cases inside : k < (packet.length + 1) / 2
  · have change := word_sum_change same_length inside rest
    omega
  · have outside (octets : List UInt8) (short : octets.length = packet.length) : word_at octets k = 0 := by
      have high : octets[2 * k]? = none := List.getElem?_eq_none (by omega)
      have low : octets[2 * k + 1]? = none := List.getElem?_eq_none (by omega)
      simp [word_at,List.getD_eq_getElem?_getD,high,low]
    rw [outside changed same_length,outside packet rfl] at other
    exact other rfl

/-- The header checks stop at a check other than the checksum, or accept the packet. -/
theorem closed_accepted {ei : Interface} {eigrp : Process} (passes : checksum packet = 0) (enough : header_len ≤ packet.length)
    (version : packet.getD 0 0 = header_version) (as : word 18 packet = eigrp.as) (vrid : word 16 packet = eigrp.vrid)
    (auth : auth_header_validate ei packet = true) : packet_header_validate ei eigrp true packet = none := by
  simp only [packet_header_validate,not_lt.mpr enough,version,as,vrid,passes,auth,ne_eq,not_true_eq_false,if_false]
  rfl

end Closed

/-! ## What goes out -/

section Sending
variable {lib : Primitives} {ei : Interface} {packet signed : List UInt8}

theorem make_md5_digest_kept {flags : UInt8} (made : make_md5_digest lib ei packet flags = some signed) :
    signed.length = packet.length ∧ window 2 2 signed = window 2 2 packet := by
  unfold make_md5_digest at made
  split at made
  · cases made
  · rename_i enough
    obtain ⟨key,_,made⟩ := Option.bind_eq_some_iff.mp made
    obtain ⟨digest,_,made⟩ := Option.bind_eq_some_iff.mp made
    cases made
    have sized := digest.2
    simp only [header_len] at enough
    exact ⟨splice_length (by omega),window_splice_other (by omega) (by omega)⟩

theorem make_sha256_digest_kept (made : make_sha256_digest lib ei packet = some signed) :
    signed.length = packet.length ∧ window 2 2 signed = window 2 2 packet := by
  unfold make_sha256_digest at made
  split at made
  · cases made
  · rename_i enough
    obtain ⟨key,_,made⟩ := Option.bind_eq_some_iff.mp made
    cases made
    have zeros : (List.replicate 32 (0 : UInt8)).length = 32 := List.length_replicate
    simp only [header_len] at enough
    have cleared_length : (splice 44 (List.replicate 32 (0 : UInt8)) packet).length = packet.length := splice_length (by omega)
    have sized := (lib.hmac_sha256 (hmac_key key (sha256_source lib ei none)) (splice 44 (List.replicate 32 0) packet)).2
    constructor
    · rw [splice_length (by omega),cleared_length]
    · rw [window_splice_other (by omega) (by omega),window_splice_other (by omega) (by omega)]

theorem unsigned_zero {n : Nat} (sequence : UInt32) (within : 44 + n ≤ packet.length) :
    window 2 2 (unsigned n sequence packet) = [0, 0] := by
  have number : (stream_putl sequence).length = 4 := by simp [stream_putl]
  have zeros : (List.replicate n (0 : UInt8)).length = n := List.length_replicate
  have pair : ([0, 0] : List UInt8).length = 2 := rfl
  have numbered : (splice 32 (stream_putl sequence) packet).length = packet.length := splice_length (by omega)
  have cleared_length : (splice 2 [0, 0] (splice 32 (stream_putl sequence) packet)).length = packet.length := by
    rw [splice_length (by omega),numbered]
  have digest : window 2 2 (unsigned n sequence packet) = window 2 2 (splice 2 [0, 0] (splice 32 (stream_putl sequence) packet)) := by
    unfold unsigned
    exact window_splice_other (by omega) (.inl (by omega))
  have read : window 2 ([0, 0] : List UInt8).length (splice 2 [0, 0] (splice 32 (stream_putl sequence) packet)) = [0, 0] :=
    window_splice (by omega)
  exact digest.trans read

/-- What `eigrp_auth_transmit_finalize` lets out is a packet whose field was zero, with the checksum over it. -/
theorem transmit_finalize_closed {packet_length : UInt16} (sent : (transmit_finalize lib ei packet_length packet).1 = true) :
    ∃ zeroed, zeroed.length = packet.length ∧ header_len ≤ packet.length ∧ packet.length ≤ 65535 ∧ window 2 2 zeroed = [0, 0] ∧
      (transmit_finalize lib ei packet_length packet).2.2 = closed zeroed := by
  unfold transmit_finalize at sent ⊢
  split at sent
  · cases sent
  · rename_i sized
    obtain ⟨long,exact_length⟩ := not_or.mp sized
    have bound := packet_length.toNat_lt
    have room : 2 + ([0, 0] : List UInt8).length ≤ packet.length := by
      simp only [header_len,List.length_cons,List.length_nil] at long ⊢
      omega
    rw [if_neg sized]
    split at sent
    · rename_i plain
      exact ⟨splice 2 [0, 0] packet,splice_length room,by omega,by omega,window_splice room,rfl⟩
    · cases sent
    · dsimp only
      split at sent
      · cases sent
      · rename_i keyed
        obtain ⟨tlv,_⟩ := not_or.mp keyed
        rw [if_neg keyed]
        split at sent
        · cases sent
        · rename_i fields
          rw [if_neg fields]
          have within : 44 + ei.auth_type.digest_len ≤ packet.length := by
            simp only [header_len] at tlv
            cases mode : ei.auth_type <;> simp_all [AuthType.tlv_size,AuthType.digest_len]
          have kept := @unsigned_length packet (sequence_next ei.crypt_seqnum) _ within
          have zero := unsigned_zero (sequence_next ei.crypt_seqnum) within
          dsimp only at sent ⊢
          generalize made : (if ei.auth_type = .md5 then _ else _ : Option (List UInt8)) = digest at sent ⊢
          cases digest with
          | none => cases sent
          | some signed =>
            have same : signed.length = (unsigned ei.auth_type.digest_len (sequence_next ei.crypt_seqnum) packet).length ∧
                window 2 2 signed = window 2 2 (unsigned ei.auth_type.digest_len (sequence_next ei.crypt_seqnum) packet) := by
              split at made
              · exact make_md5_digest_kept made
              · exact make_sha256_digest_kept made
            refine ⟨signed,same.1.trans kept,by omega,by omega,same.2.trans zero,?_⟩
            rfl

/-- Every packet that `eigrp_auth_transmit_finalize` lets out passes the check. -/
theorem transmit_finalize_passes {packet_length : UInt16} (sent : (transmit_finalize lib ei packet_length packet).1 = true) :
    checksum (transmit_finalize lib ei packet_length packet).2.2 = 0 := by
  obtain ⟨zeroed,length,enough,fits,zero,out⟩ := transmit_finalize_closed sent
  rw [out]
  exact closed_passes (by omega) (by omega) zero

end Sending

/-! ## The checksum closes -/

/-- A finished packet sums up to zero and passes the receiver, and a change of one word does not. -/
theorem checksum_closes (packet : List UInt8) (enough : header_len ≤ packet.length) (fits : packet.length ≤ 65535)
    (zeroed : window 2 2 packet = [0, 0]) :
    checksum (closed packet) = 0 ∧
      (∀ ei eigrp source_on_link, packet_header_validate ei eigrp source_on_link (closed packet) ≠ some .checksum ∧
        ((closed packet).getD 0 0 = header_version → word 18 (closed packet) = eigrp.as → word 16 (closed packet) = eigrp.vrid →
          auth_header_validate ei (closed packet) = true → packet_header_validate ei eigrp true (closed packet) = none)) ∧
      (process_packet_validate (closed packet) = true ↔ (closed packet).getD 0 0 = header_version) ∧
      (∀ octets : List UInt8, octets.length ≤ 65535 → ∀ n, (checksum_sum 0 (octets.take n)).toNat = word_sum (octets.take n) ∧
        word_sum (octets.take n) < 2 ^ 32) ∧
      ∀ changed k, changed.length = packet.length → (∀ i, i / 2 ≠ k → changed[i]? = (closed packet)[i]?) →
        word_at changed k % 65535 ≠ word_at (closed packet) k % 65535 → checksum changed ≠ 0 := by
  have passes := closed_passes enough fits zeroed
  have length := closed_length enough
  have long : header_len ≤ (closed packet).length := enough.trans_eq length.symm
  refine ⟨passes,?_,?_,?_,?_⟩
  · intro ei eigrp source_on_link
    refine ⟨?_,fun version as vrid auth => closed_accepted passes long version as vrid auth⟩
    unfold packet_header_validate
    rw [passes]
    split_ifs <;> simp_all
  · unfold process_packet_validate
    rw [if_neg (by omega),passes]
    simp
  · intro octets short n
    have taken : (octets.take n).length ≤ 65535 := by
      rw [List.length_take]
      omega
    have bound := word_sum_lt taken
    refine ⟨?_,bound⟩
    rw [checksum_sum_toNat (by simpa using bound)]
    simp
  · intro changed k same_length rest other
    exact checksum_detects (length.trans_le fits) passes (same_length.trans length.symm) rest other

/-- A header and an odd octet, and one word of it changed. -/
theorem shortest_odd_packet_closes :
    checksum (closed (1 :: 1 :: 0 :: 0 :: List.replicate 17 1)) = 0 ∧
      checksum (splice 0 [2, 2] (closed (1 :: 1 :: 0 :: 0 :: List.replicate 17 1))) ≠ 0 := by
  have closes := checksum_closes (1 :: 1 :: 0 :: 0 :: List.replicate 17 1) (by decide) (by decide) (by decide)
  refine ⟨closes.1,closes.2.2.2.2 _ 0 (by decide) (fun i apart => ?_) (by decide)⟩
  rw [splice_getElem? (by decide),if_neg (by omega),if_neg (by simp only [List.length_cons,List.length_nil]; omega)]

end Eigrp.Checksum
