import Eigrp.Peering
import Eigrp.Wire

/-!
# Hellos

The process thread checks the TLVs of a Hello before it is queued, the address family checks them again and then walks them
with a loop of its own (`eigrp_hello.c`). Both read the octets behind the EIGRP header.
-/

namespace Eigrp.Hello
open Eigrp.Lib

/-! ## Reading -/

/-- What is wrong with a walk: it reads behind the payload, or it does not end. -/
inductive Fault where
  | overrun
  | endless
deriving DecidableEq, Repr

def octet (octets : List UInt8) (offset : Nat) : Except Fault UInt8 :=
  match octets[offset]? with
  | some value => .ok value
  | none => .error .overrun

def octets_at (octets : List UInt8) (offset count : Nat) : Except Fault (List UInt8) :=
  if offset + count ≤ octets.length then .ok ((octets.drop offset).take count) else .error .overrun

/-- `ntohs` of the field at an offset. -/
def half (octets : List UInt8) (offset : Nat) : Except Fault UInt16 := do
  let field ← octets_at octets offset 2
  .ok (UInt16.ofNat (number field))

/-- `ntohl` of the field at an offset. -/
def long (octets : List UInt8) (offset : Nat) : Except Fault UInt32 := do
  let field ← octets_at octets offset 4
  .ok (UInt32.ofNat (number field))

def tlv_hdr_size : Nat := 4
def tlv_parameter : UInt16 := 0x0001
def tlv_parameter_len : Nat := 12
def tlv_seq : UInt16 := 0x0003
def tlv_seq_base_len : Nat := 5
def tlv_sw_version : UInt16 := 0x0004
def tlv_sw_version_len : Nat := 8
def tlv_next_mcast_seq : UInt16 := 0x0005
def next_sequence_tlv_size : Nat := 8
def tlv_peer_termination : UInt16 := 0x0007
def tlv_peer_termination_len : Nat := 9

/-- What Hello processing reads of the interface and its instance; `packet_address` are the octets of `ei->address` that an
    address of the family has. -/
structure Receiver where
  afi : Afi
  packet_address : List UInt8
  packet_address_length : packet_address.length = afi.packet_address_bytes
  k_values : List UInt8 := [1, 0, 1, 0, 0]
  metric_version : UInt8 := 2
  pfxlimits_af_state : Bool := false
  static_source_allowed : Bool := true

/-- `packet_address_bytes` of the address family. -/
def Receiver.expected (ei : Receiver) : UInt8 := UInt8.ofNat ei.afi.packet_address_bytes

/-! ## The check -/

/-- The loop over the addresses of a SEQUENCE or peer termination TLV. -/
def addresses_validate (ei : Receiver) (cursor : List UInt8) (length : Nat) : Nat → Nat → Except Fault Bool
  | 0, _ => .error .endless
  | steps + 1, offset =>
    if offset < length then do
      let encoded ← octet cursor offset
      if encoded ≠ ei.expected ∨ offset + 1 + encoded.toNat > length then .ok false
      else addresses_validate ei cursor length steps (offset + 1 + encoded.toNat)
    else .ok true

/-- The switch of `eigrp_hello_tlvs_validate`. -/
def tlv_validate (ei : Receiver) (cursor : List UInt8) (type : UInt16) (length : Nat) : Except Fault Bool :=
  if type = tlv_parameter then
    if length < tlv_parameter_len then .ok false
    else do
      let hold_time ← half cursor 10
      .ok (hold_time ≠ 0)
  else if type = tlv_sw_version then .ok (tlv_sw_version_len ≤ length)
  else if type = tlv_next_mcast_seq then .ok (length = next_sequence_tlv_size)
  else if type = tlv_seq ∨ type = tlv_peer_termination then do
    let listed ← addresses_validate ei cursor length (length + 1) tlv_hdr_size
    .ok (listed && !(type = tlv_peer_termination && decide (length < tlv_hdr_size + 1 + ei.expected.toNat)))
  else .ok true

/-- The loop of `eigrp_hello_tlvs_validate`; what remains is the rest of the payload. -/
def tlvs_validate (ei : Receiver) : Nat → List UInt8 → Bool → Except Fault Bool
  | 0, _, _ => .error .endless
  | steps + 1, cursor, parameter_seen =>
    if cursor.length = 0 then .ok parameter_seen
    else if cursor.length < tlv_hdr_size then .ok false
    else do
      let type ← half cursor 0
      let length ← half cursor 2
      if length.toNat < tlv_hdr_size ∨ length.toNat > cursor.length then .ok false
      else do
        let valid ← tlv_validate ei cursor type length.toNat
        if valid then tlvs_validate ei steps (cursor.drop length.toNat) (parameter_seen || type == tlv_parameter) else .ok false

/-- `eigrp_hello_tlvs_validate`. -/
def hello_tlvs_validate (ei : Receiver) (payload : List UInt8) : Except Fault Bool :=
  tlvs_validate ei (payload.length + 1) payload false

/-! ## The neighbor -/

def hold_interval_default : UInt16 := 15
def k_defaults : List UInt8 := [1, 0, 1, 0, 0, 0]

/-- The fields of `eigrp_nbr_t` that a Hello reads and writes; `t_holddown` is the armed hold timer in milliseconds. -/
structure Nbr where
  state : NbrState := .down
  k_values : List UInt8 := k_defaults
  v_holddown : UInt16 := hold_interval_default
  os_rel_major : UInt8 := 0
  os_rel_minor : UInt8 := 0
  tlv_rel_major : UInt8 := 0
  tlv_rel_minor : UInt8 := 0
  tlv_version : UInt8 := 0
  cr_mode : Bool := false
  cr_sequence : UInt32 := 0
  t_holddown : Option UInt32 := none
  limit_state : Peering.LimitState := .none
  limit_cleanup_pending : Bool := false
  af_suspended : Bool := false
deriving DecidableEq, Repr

/-- `eigrp_nbr_is_eligible`. -/
def Nbr.is_eligible (ei : Receiver) (nbr : Nbr) : Bool :=
  nbr.limit_state == .none && !nbr.limit_cleanup_pending && !nbr.af_suspended && !ei.pfxlimits_af_state

/-- `eigrp_nbr_state_update_reason`, for these fields. -/
def Nbr.state_update (nbr : Nbr) (state : NbrState) : Nbr :=
  if (nbr.limit_state ≠ .none ∨ nbr.af_suspended) ∧ state ≠ .down then nbr
  else if state = .down then
    { nbr with
      state, cr_mode := false, cr_sequence := 0, k_values := k_defaults, v_holddown := hold_interval_default, t_holddown := none }
  else { nbr with state }

/-- `eigrp_nbr_holddown_update`. -/
def Nbr.holddown_update (ei : Receiver) (nbr : Nbr) : Nbr :=
  if !nbr.is_eligible ei ∨ nbr.state = .down then { nbr with t_holddown := none }
  else { nbr with t_holddown := some (nbr.v_holddown.toUInt32 * 1000) }

/-! ## The walk -/

/-- The variables of the loop; `k_mismatch` says that a K-value mismatch was reported. -/
structure Walk where
  nbr : Nbr
  parameter_seen : Bool := false
  sequence_seen : Bool := false
  sequence_listed : Bool := false
  next_multicast_sequence : UInt32 := 0
  k_mismatch : Bool := false
deriving DecidableEq, Repr

/-- How the processing of one TLV ends: the loop goes on, leaves because of a length, returns early, or the neighbor is gone. -/
inductive Verdict where
  | next (walk : Walk)
  | malformed
  | returned (walk : Walk)
  | deleted
deriving DecidableEq, Repr

/-- `eigrp_hello_parameter_decode` with what is decoded from the TLV. -/
def Walk.parameter_decode (ei : Receiver) (walk : Walk) (k_values : List UInt8) (hold_time : UInt16) : Verdict :=
  let nbr := { walk.nbr with k_values, v_holddown := hold_time }
  let walk := { walk with parameter_seen := true }
  if k_values.take 5 = [0xff, 0xff, 0xff, 0xff, 0xff] then .deleted
  else if k_values.take 5 ≠ ei.k_values then
    .next { walk with nbr := if nbr.state ≠ .down then nbr.state_update .down else nbr, k_mismatch := true }
  else .next { walk with nbr := if nbr.state = .down then nbr.state_update .pending else nbr }

/-- The addresses in the loop of the SEQUENCE TLV. -/
def sequence_listed (ei : Receiver) (value : List UInt8) (length : Nat) : Nat → Nat → Bool → Except Fault Bool
  | 0, _, _ => .error .endless
  | steps + 1, offset, listed =>
    if offset < length then do
      let address_length ← octet value offset
      if address_length = 0 ∨ offset + 1 + address_length.toNat > length then .ok listed
      else if address_length = ei.expected then do
        let address ← octets_at value (offset + 1) address_length.toNat
        sequence_listed ei value length steps (offset + 1 + address_length.toNat) (listed || address == ei.packet_address)
      else sequence_listed ei value length steps (offset + 1 + address_length.toNat) listed
    else .ok listed

/-- `eigrp_peer_termination_contains`. -/
def peer_termination_contains (ei : Receiver) (value : List UInt8) (length : Nat) : Nat → Nat → Except Fault Bool
  | 0, _ => .error .endless
  | steps + 1, offset =>
    if offset < length then do
      let encoded_length ← octet value offset
      if encoded_length = 0 ∨ offset + 1 + encoded_length.toNat > length then .ok false
      else if encoded_length = ei.expected then do
        let address ← octets_at value (offset + 1) encoded_length.toNat
        if address = ei.packet_address then .ok true
        else peer_termination_contains ei value length steps (offset + 1 + encoded_length.toNat)
      else peer_termination_contains ei value length steps (offset + 1 + encoded_length.toNat)
    else .ok false

/-- `eigrp_sw_version_decode` with the octets of the TLV. -/
def Nbr.sw_version_decode (ei : Receiver) (nbr : Nbr) : List UInt8 → Nbr
  | [vender_major, vender_minor, eigrp_major, eigrp_minor] =>
    { nbr with
      os_rel_major := vender_major, os_rel_minor := vender_minor, tlv_rel_major := eigrp_major, tlv_rel_minor := eigrp_minor
      tlv_version := Peering.metric_version_select ei.metric_version eigrp_major }
  | _ => nbr

/-- The switch of `eigrp_hello_receive`. -/
def tlv_receive (ei : Receiver) (walk : Walk) (tlv_header : List UInt8) (type : UInt16) (length : Nat) : Except Fault Verdict :=
  if type = tlv_parameter then
    if length < tlv_parameter_len then .ok .malformed
    else do
      let k_values ← octets_at tlv_header 4 6
      let hold_time ← half tlv_header 10
      .ok (walk.parameter_decode ei k_values hold_time)
  else if type = tlv_seq then
    if length ≥ tlv_seq_base_len then do
      let sequence_listed ← sequence_listed ei tlv_header length (length + 1) tlv_hdr_size false
      .ok (.next { walk with sequence_seen := true, sequence_listed })
    else .ok (.next { walk with sequence_seen := true, sequence_listed := false })
  else if type = tlv_sw_version then
    if length < tlv_sw_version_len then .ok .malformed
    else do
      let version ← octets_at tlv_header 4 4
      .ok (.next { walk with nbr := walk.nbr.sw_version_decode ei version })
  else if type = tlv_next_mcast_seq then
    if length = next_sequence_tlv_size then do
      let next_multicast_sequence ← long tlv_header 4
      .ok (.next { walk with next_multicast_sequence })
    else .ok (.next walk)
  else if type = tlv_peer_termination then
    if length < tlv_peer_termination_len then .ok .malformed
    else do
      let named ← peer_termination_contains ei tlv_header length (length + 1) tlv_hdr_size
      .ok (if named then .deleted else .returned walk)
  else .ok (.next walk)

/-- The loop of `eigrp_hello_receive`: the body first, then the test for what is left. -/
def tlvs_receive (ei : Receiver) : Nat → Walk → List UInt8 → Except Fault Verdict
  | 0, _, _ => .error .endless
  | steps + 1, walk, tlv_header => do
    let type ← half tlv_header 0
    let length ← half tlv_header 2
    if length.toNat < tlv_hdr_size ∨ length.toNat > tlv_header.length then .ok .malformed
    else do
      match ← tlv_receive ei walk tlv_header type length.toNat with
      | .next walk =>
        let rest := tlv_header.drop length.toNat
        if rest.length > 0 then tlvs_receive ei steps walk rest else .ok (.next walk)
      | verdict => .ok verdict

/-- What `eigrp_hello_receive` does behind the loop. -/
def Walk.finish (ei : Receiver) (new_nbr : Bool) (walk : Walk) : Verdict :=
  if !walk.parameter_seen then if new_nbr then .deleted else .returned walk
  else
    let nbr := walk.nbr
    let nbr :=
      if walk.sequence_seen then
        let cr_mode := !walk.sequence_listed && walk.next_multicast_sequence != 0
        { nbr with cr_mode, cr_sequence := if cr_mode then walk.next_multicast_sequence else 0 }
      else nbr
    .next { walk with nbr := if new_nbr then nbr.holddown_update ei else nbr }

/-- What becomes of a Hello; it is refused when its TLVs or its source are, when the neighbor cannot be created, and while the
    neighbor or the address family is suspended. -/
inductive Outcome where
  | refused
  | processed (verdict : Verdict)
deriving DecidableEq, Repr

/-- `eigrp_hello_receive` for a packet that is no ACK, behind the checks of `eigrp_packet_input_process`; `created` tells whether
    `eigrp_nbr_create` succeeds. -/
def hello_receive (ei : Receiver) (known : Option Nbr) (created : Bool) (payload : List UInt8) : Except Fault Outcome :=
  if ei.pfxlimits_af_state ∨ known.any fun nbr => !nbr.is_eligible ei then .ok .refused
  else do
    let valid ← hello_tlvs_validate ei payload
    if !valid ∨ !ei.static_source_allowed then .ok .refused
    else match known.or (if created then some {} else none) with
      | none => .ok .refused
      | some nbr => do
        let verdict ← tlvs_receive ei (payload.length + 1) { nbr } payload
        match verdict with
        | .next walk => .ok (.processed (walk.finish ei known.isNone))
        | verdict => .ok (.processed verdict)

/-! ## Walks that end -/

/-- The result is not for want of steps. -/
def Ends {α : Type} (result : Except Fault α) : Prop := result ≠ .error .endless

section Ends
variable {α β : Type}

theorem ends_ok (value : α) : Ends (.ok value : Except Fault α) := by
  intro endless
  cases endless

theorem ends_bind {first : Except Fault α} {rest : α → Except Fault β} (ends : Ends first)
    (then_ends : ∀ value, first = .ok value → Ends (rest value)) : Ends (first >>= rest) := by
  cases first with
  | ok value => exact then_ends value rfl
  | error fault =>
    intro endless
    cases endless
    exact ends rfl

theorem ends_octet (octets : List UInt8) (offset : Nat) : Ends (octet octets offset) := by
  unfold octet Ends
  split <;> simp

theorem ends_octets_at (octets : List UInt8) (offset count : Nat) : Ends (octets_at octets offset count) := by
  unfold octets_at Ends
  split <;> simp

theorem ends_half (octets : List UInt8) (offset : Nat) : Ends (half octets offset) :=
  ends_bind (ends_octets_at octets offset 2) fun _ _ => ends_ok _

theorem ends_long (octets : List UInt8) (offset : Nat) : Ends (long octets offset) :=
  ends_bind (ends_octets_at octets offset 4) fun _ _ => ends_ok _

end Ends

section Walks
variable {ei : Receiver}

theorem sequence_listed_ends (value : List UInt8) (length : Nat) {steps offset : Nat} (listed : Bool) (within : offset ≤ length)
    (enough : length < offset + steps) : Ends (sequence_listed ei value length steps offset listed) := by
  induction steps generalizing offset listed with
  | zero => omega
  | succ steps ih =>
    rw [sequence_listed]
    split
    · refine ends_bind (ends_octet value offset) fun address_length _ => ?_
      split
      · exact ends_ok _
      split
      · exact ends_bind (ends_octets_at _ _ _) fun _ _ => ih _ (by omega) (by omega)
      · exact ih _ (by omega) (by omega)
    · exact ends_ok _

theorem peer_termination_contains_ends (value : List UInt8) (length : Nat) {steps offset : Nat} (within : offset ≤ length)
    (enough : length < offset + steps) : Ends (peer_termination_contains ei value length steps offset) := by
  induction steps generalizing offset with
  | zero => omega
  | succ steps ih =>
    rw [peer_termination_contains]
    split
    · refine ends_bind (ends_octet value offset) fun encoded_length _ => ?_
      split
      · exact ends_ok _
      split
      · refine ends_bind (ends_octets_at _ _ _) fun address _ => ?_
        split
        · exact ends_ok _
        · exact ih (by omega) (by omega)
      · exact ih (by omega) (by omega)
    · exact ends_ok _

theorem tlv_receive_ends (walk : Walk) (tlv_header : List UInt8) (type : UInt16) {length : Nat} (framed : tlv_hdr_size ≤ length) :
    Ends (tlv_receive ei walk tlv_header type length) := by
  have four : tlv_hdr_size = 4 := rfl
  unfold tlv_receive
  split
  · split
    · exact ends_ok _
    · exact ends_bind (ends_octets_at _ _ _) fun _ _ => ends_bind (ends_half _ _) fun _ _ => ends_ok _
  split
  · split
    · exact ends_bind (sequence_listed_ends tlv_header length false framed (by omega)) fun _ _ => ends_ok _
    · exact ends_ok _
  split
  · split
    · exact ends_ok _
    · exact ends_bind (ends_octets_at _ _ _) fun _ _ => ends_ok _
  split
  · split
    · exact ends_bind (ends_long _ _) fun _ _ => ends_ok _
    · exact ends_ok _
  split
  · split
    · exact ends_ok _
    · exact ends_bind (peer_termination_contains_ends tlv_header length framed (by omega)) fun _ _ => ends_ok _
  · exact ends_ok _

/-- The walk ends on all octets, whether they were checked or not. -/
theorem tlvs_receive_ends {steps : Nat} (walk : Walk) {tlv_header : List UInt8} (enough : tlv_header.length < steps) :
    Ends (tlvs_receive ei steps walk tlv_header) := by
  induction steps generalizing walk tlv_header with
  | zero => omega
  | succ steps ih =>
    rw [tlvs_receive]
    refine ends_bind (ends_half _ _) fun type _ => ends_bind (ends_half _ _) fun length _ => ?_
    split
    · exact ends_ok _
    · rename_i framed
      have four : tlv_hdr_size = 4 := rfl
      refine ends_bind (tlv_receive_ends walk tlv_header type (by omega)) fun verdict _ => ?_
      cases verdict with
      | next walk =>
        simp only
        split
        · exact ih _ (by rw [List.length_drop]; omega)
        · exact ends_ok _
      | malformed => exact ends_ok _
      | returned walk => exact ends_ok _
      | deleted => exact ends_ok _

end Walks

/-! ## Checked TLVs -/

/-- The type in front of a TLV. -/
def type_of (tlv : List UInt8) : UInt16 := UInt16.ofNat (number (tlv.take 2))

/-- The addresses of a TLV, each behind its length. -/
def listing (ei : Receiver) (addresses : List (List UInt8)) : List UInt8 := addresses.flatMap fun address => ei.expected :: address

/-- The addresses behind the header of a TLV. -/
def addresses_of (ei : Receiver) : Nat → List UInt8 → List (List UInt8)
  | 0, _ => []
  | _ + 1, [] => []
  | steps + 1, _ :: rest => rest.take ei.afi.packet_address_bytes :: addresses_of ei steps (rest.drop ei.afi.packet_address_bytes)

/-- Whether a TLV with addresses has that of the receiver. -/
def names (ei : Receiver) (tlv : List UInt8) : Bool := (addresses_of ei tlv.length (tlv.drop 4)).contains ei.packet_address

/-- What the check has seen of a TLV. -/
structure Valid (ei : Receiver) (tlv : List UInt8) : Prop where
  framed : 4 ≤ tlv.length
  length : (UInt16.ofNat (number ((tlv.drop 2).take 2))).toNat = tlv.length
  parameter : type_of tlv = tlv_parameter → 12 ≤ tlv.length
  version : type_of tlv = tlv_sw_version → 8 ≤ tlv.length
  next : type_of tlv = tlv_next_mcast_seq → tlv.length = 8
  addresses : type_of tlv = tlv_seq ∨ type_of tlv = tlv_peer_termination →
    ∃ addresses, tlv.drop 4 = listing ei addresses ∧ ∀ address ∈ addresses, address.length = ei.afi.packet_address_bytes
  termination : type_of tlv = tlv_peer_termination → 9 ≤ tlv.length

section Checked
variable {ei : Receiver}

theorem expected_toNat (ei : Receiver) : ei.expected.toNat = ei.afi.packet_address_bytes := by
  unfold Receiver.expected
  cases ei.afi <;> rfl

theorem four_le_bytes (ei : Receiver) : 4 ≤ ei.afi.packet_address_bytes := by cases ei.afi <;> decide

theorem octets_at_append {tlv : List UInt8} (rest : List UInt8) {offset count : Nat} (within : offset + count ≤ tlv.length) :
    octets_at (tlv ++ rest) offset count = .ok ((tlv.drop offset).take count) := by
  rw [octets_at,if_pos (by rw [List.length_append]; omega),List.drop_append_of_le_length (by omega),
    List.take_append_of_le_length (by rw [List.length_drop]; omega)]

theorem half_append {tlv : List UInt8} (rest : List UInt8) {offset : Nat} (within : offset + 2 ≤ tlv.length) :
    half (tlv ++ rest) offset = .ok (UInt16.ofNat (number ((tlv.drop offset).take 2))) := by
  rw [half,octets_at_append rest within]
  rfl

theorem long_append {tlv : List UInt8} (rest : List UInt8) {offset : Nat} (within : offset + 4 ≤ tlv.length) :
    long (tlv ++ rest) offset = .ok (UInt32.ofNat (number ((tlv.drop offset).take 4))) := by
  rw [long,octets_at_append rest within]
  rfl

theorem octet_append {tlv : List UInt8} (rest : List UInt8) {front back : List UInt8} {value : UInt8} (split : tlv = front ++ value :: back) :
    octet (tlv ++ rest) front.length = .ok value := by
  subst split
  simp [octet]

theorem addresses_of_listing {addresses : List (List UInt8)} (lengths : ∀ address ∈ addresses, address.length = ei.afi.packet_address_bytes)
    {steps : Nat} (enough : addresses.length ≤ steps) : addresses_of ei steps (listing ei addresses) = addresses := by
  induction addresses generalizing steps with
  | nil => cases steps <;> rfl
  | cons address addresses ih =>
    cases steps with
    | zero => simp at enough
    | succ steps =>
      have here := lengths address List.mem_cons_self
      have unfolded : listing ei (address :: addresses) = ei.expected :: (address ++ listing ei addresses) := by simp [listing]
      rw [unfolded,addresses_of,List.take_left' here,List.drop_left' here,
        ih (fun other member => lengths other (List.mem_cons_of_mem _ member)) (Nat.le_of_succ_le_succ enough)]

theorem listing_length_le (ei : Receiver) (addresses : List (List UInt8)) : addresses.length ≤ (listing ei addresses).length := by
  induction addresses with
  | nil => exact Nat.zero_le _
  | cons address addresses ih =>
    simp only [listing,List.flatMap_cons,List.length_append,List.length_cons] at ih ⊢
    omega

theorem names_listing {tlv : List UInt8} {addresses : List (List UInt8)} (body : tlv.drop 4 = listing ei addresses)
    (lengths : ∀ address ∈ addresses, address.length = ei.afi.packet_address_bytes) :
    names ei tlv = addresses.contains ei.packet_address := by
  have enough : addresses.length ≤ tlv.length := by
    have size := listing_length_le ei addresses
    rw [← body,List.length_drop] at size
    omega
  rw [names,body,addresses_of_listing lengths enough]

theorem expected_ne_zero (ei : Receiver) : ei.expected ≠ 0 := by
  unfold Receiver.expected
  cases ei.afi <;> decide

/-- The loop of the check stays inside the TLV, and has seen whole addresses where it accepts. -/
theorem addresses_validate_spec {tlv : List UInt8} (rest : List UInt8) {steps : Nat} {front back : List UInt8} (split : tlv = front ++ back)
    (enough : tlv.length < front.length + steps) :
    ∃ accepted, addresses_validate ei (tlv ++ rest) tlv.length steps front.length = .ok accepted ∧
      (accepted = true → ∃ addresses, back = listing ei addresses ∧ ∀ address ∈ addresses, address.length = ei.afi.packet_address_bytes) := by
  induction steps generalizing front back with
  | zero =>
    rw [split,List.length_append] at enough
    omega
  | succ steps ih =>
    rw [addresses_validate]
    cases back with
    | nil =>
      rw [List.append_nil] at split
      subst split
      rw [if_neg (Nat.lt_irrefl _)]
      exact ⟨true,rfl,fun _ => ⟨[],rfl,fun _ member => nomatch member⟩⟩
    | cons encoded more =>
      have size : tlv.length = front.length + 1 + more.length := by
        rw [split,List.length_append,List.length_cons]
        omega
      rw [if_pos (by omega),octet_append rest split]
      change ∃ accepted, (if encoded ≠ ei.expected ∨ front.length + 1 + encoded.toNat > tlv.length then _ else _) = _ ∧ _
      split
      · exact ⟨false,rfl,fun accepted => by cases accepted⟩
      · rename_i valid
        rw [not_or,not_ne_iff] at valid
        obtain ⟨same,fits⟩ := valid
        subst same
        have bytes := expected_toNat ei
        have cut : (more.take ei.afi.packet_address_bytes).length = ei.afi.packet_address_bytes := by
          rw [List.length_take]
          omega
        have moved : tlv = (front ++ ei.expected :: more.take ei.afi.packet_address_bytes) ++ more.drop ei.afi.packet_address_bytes := by
          rw [split,List.append_assoc,List.cons_append,List.take_append_drop]
        have next : (front ++ ei.expected :: more.take ei.afi.packet_address_bytes).length = front.length + 1 + ei.expected.toNat := by
          rw [List.length_append,List.length_cons,cut,bytes]
          omega
        obtain ⟨accepted,run,spec⟩ := ih moved (by rw [next]; omega)
        rw [next] at run
        refine ⟨accepted,run,fun yes => ?_⟩
        obtain ⟨addresses,listed,lengths⟩ := spec yes
        refine ⟨more.take ei.afi.packet_address_bytes :: addresses,?_,?_⟩
        · rw [listing,List.flatMap_cons,← listing,← listed,List.cons_append,List.take_append_drop]
        · intro address member
          rcases List.mem_cons.1 member with rfl | behind
          · exact cut
          · exact lengths address behind

/-- What is read where an address stands. -/
theorem address_read {tlv : List UInt8} (rest : List UInt8) {front address : List UInt8} {addresses : List (List UInt8)}
    (split : tlv = front ++ listing ei (address :: addresses)) (here : address.length = ei.afi.packet_address_bytes) :
    front.length < tlv.length ∧ octet (tlv ++ rest) front.length = .ok ei.expected ∧
      ¬(ei.expected = 0 ∨ front.length + 1 + ei.expected.toNat > tlv.length) ∧
      octets_at (tlv ++ rest) (front.length + 1) ei.expected.toNat = .ok address ∧
      tlv = (front ++ ei.expected :: address) ++ listing ei addresses ∧
      (front ++ ei.expected :: address).length = front.length + 1 + ei.expected.toNat := by
  have bytes := expected_toNat ei
  have unfolded : tlv = front ++ ei.expected :: (address ++ listing ei addresses) := by simp [split,listing]
  have size : tlv.length = front.length + 1 + address.length + (listing ei addresses).length := by
    rw [unfolded]
    simp only [List.length_append,List.length_cons]
    omega
  have behind : tlv.drop (front.length + 1) = address ++ listing ei addresses := by
    have joined : tlv = (front ++ [ei.expected]) ++ (address ++ listing ei addresses) := by simp [unfolded]
    rw [joined]
    exact List.drop_left' (by simp)
  refine ⟨by omega,octet_append rest unfolded,?_,?_,by simp [unfolded],?_⟩
  · rw [not_or]
    exact ⟨expected_ne_zero ei,by omega⟩
  · rw [octets_at_append rest (by omega),behind,bytes,← here,List.take_left]
  · rw [List.length_append,List.length_cons,here,bytes]
    omega

theorem sequence_listed_eq {tlv : List UInt8} (rest : List UInt8) (addresses : List (List UInt8))
    (lengths : ∀ address ∈ addresses, address.length = ei.afi.packet_address_bytes) {front : List UInt8}
    (split : tlv = front ++ listing ei addresses) {steps : Nat} (enough : addresses.length < steps) (listed : Bool) :
    sequence_listed ei (tlv ++ rest) tlv.length steps front.length listed = .ok (listed || addresses.contains ei.packet_address) := by
  induction addresses generalizing front steps listed with
  | nil =>
    cases steps with
    | zero => simp at enough
    | succ steps =>
      have whole : tlv.length = front.length := by simp [split,listing]
      rw [sequence_listed,if_neg (by omega)]
      simp
  | cons address addresses ih =>
    cases steps with
    | zero => simp at enough
    | succ steps =>
      obtain ⟨inside,length,good,field,moved,next⟩ := address_read rest split (lengths address List.mem_cons_self)
      rw [sequence_listed,if_pos inside,length]
      change (if ei.expected = 0 ∨ front.length + 1 + ei.expected.toNat > tlv.length then _ else _) = _
      rw [if_neg good,if_pos rfl,field]
      change sequence_listed ei (tlv ++ rest) tlv.length steps (front.length + 1 + ei.expected.toNat) (listed || address == ei.packet_address) = _
      rw [← next,ih (fun other member => lengths other (List.mem_cons_of_mem _ member)) moved (Nat.lt_of_succ_lt_succ enough),
        List.contains_cons,Bool.or_assoc,Bool.beq_comm]

theorem peer_termination_contains_eq {tlv : List UInt8} (rest : List UInt8) (addresses : List (List UInt8))
    (lengths : ∀ address ∈ addresses, address.length = ei.afi.packet_address_bytes) {front : List UInt8}
    (split : tlv = front ++ listing ei addresses) {steps : Nat} (enough : addresses.length < steps) :
    peer_termination_contains ei (tlv ++ rest) tlv.length steps front.length = .ok (addresses.contains ei.packet_address) := by
  induction addresses generalizing front steps with
  | nil =>
    cases steps with
    | zero => simp at enough
    | succ steps =>
      have whole : tlv.length = front.length := by simp [split,listing]
      rw [peer_termination_contains,if_neg (by omega)]
      simp
  | cons address addresses ih =>
    cases steps with
    | zero => simp at enough
    | succ steps =>
      obtain ⟨inside,length,good,field,moved,next⟩ := address_read rest split (lengths address List.mem_cons_self)
      rw [peer_termination_contains,if_pos inside,length]
      change (if ei.expected = 0 ∨ front.length + 1 + ei.expected.toNat > tlv.length then _ else _) = _
      rw [if_neg good,if_pos rfl,field]
      change (if address = ei.packet_address then _ else
        peer_termination_contains ei (tlv ++ rest) tlv.length steps (front.length + 1 + ei.expected.toNat)) = _
      rw [List.contains_cons]
      split
      · rename_i same
        simp [same]
      · rename_i different
        have apart : (ei.packet_address == address) = false := by simpa using fun same => different same.symm
        rw [← next,ih (fun other member => lengths other (List.mem_cons_of_mem _ member)) moved (Nat.lt_of_succ_lt_succ enough),apart,
          Bool.false_or]

/-- The check of one TLV stays inside it. -/
theorem tlv_validate_spec {tlv : List UInt8} (rest : List UInt8) (framed : 4 ≤ tlv.length)
    (length : (UInt16.ofNat (number ((tlv.drop 2).take 2))).toNat = tlv.length) :
    ∃ valid, tlv_validate ei (tlv ++ rest) (type_of tlv) tlv.length = .ok valid ∧ (valid = true → Valid ei tlv) := by
  have kinds : tlv_parameter ≠ tlv_sw_version ∧ tlv_parameter ≠ tlv_next_mcast_seq ∧ tlv_parameter ≠ tlv_seq ∧
      tlv_parameter ≠ tlv_peer_termination ∧ tlv_sw_version ≠ tlv_next_mcast_seq ∧ tlv_sw_version ≠ tlv_seq ∧
      tlv_sw_version ≠ tlv_peer_termination ∧ tlv_next_mcast_seq ≠ tlv_seq ∧ tlv_next_mcast_seq ≠ tlv_peer_termination ∧
      tlv_seq ≠ tlv_peer_termination := by decide
  obtain ⟨k1,k2,k3,k4,k5,k6,k7,k8,k9,k10⟩ := kinds
  unfold tlv_validate
  split
  · rename_i parameter
    have apart : ¬(tlv_parameter = tlv_seq ∨ tlv_parameter = tlv_peer_termination) := not_or.2 ⟨k3,k4⟩
    split
    · exact ⟨false,rfl,fun valid => by cases valid⟩
    · rename_i long_enough
      have twelve : 12 ≤ tlv.length := Nat.not_lt.1 long_enough
      rw [half_append rest (by omega)]
      refine ⟨_,rfl,fun _ => ⟨framed,length,fun _ => twelve,fun version => ?_,fun next => ?_,fun listing => ?_,fun termination => ?_⟩⟩
      · exact absurd (parameter.symm.trans version) k1
      · exact absurd (parameter.symm.trans next) k2
      · rw [parameter] at listing
        exact absurd listing apart
      · exact absurd (parameter.symm.trans termination) k4
  rename_i not_parameter
  split
  · rename_i version
    refine ⟨_,rfl,fun valid => ⟨framed,length,fun parameter => absurd parameter not_parameter,fun _ => ?_,fun next => ?_,fun listing => ?_,
      fun termination => ?_⟩⟩
    · exact of_decide_eq_true valid
    · exact absurd (version.symm.trans next) k5
    · rw [version] at listing
      exact absurd listing (not_or.2 ⟨k6,k7⟩)
    · exact absurd (version.symm.trans termination) k7
  rename_i not_version
  split
  · rename_i next
    refine ⟨_,rfl,fun valid => ⟨framed,length,fun parameter => absurd parameter not_parameter,fun version => absurd version not_version,
      fun _ => of_decide_eq_true valid,fun listing => ?_,fun termination => ?_⟩⟩
    · rw [next] at listing
      exact absurd listing (not_or.2 ⟨k8,k9⟩)
    · exact absurd (next.symm.trans termination) k9
  rename_i not_next
  split
  · rename_i listed
    have header : (tlv.take 4).length = 4 := by
      rw [List.length_take]
      omega
    obtain ⟨accepted,run,spec⟩ := @addresses_validate_spec ei tlv rest (tlv.length + 1) (tlv.take 4) (tlv.drop 4)
      (List.take_append_drop 4 tlv).symm (by omega)
    rw [header] at run
    change ∃ valid, (addresses_validate ei (tlv ++ rest) tlv.length (tlv.length + 1) 4 >>= _) = .ok valid ∧ _
    rw [run]
    refine ⟨_,rfl,fun valid => ?_⟩
    rw [Bool.and_eq_true] at valid
    obtain ⟨yes,long_enough⟩ := valid
    refine ⟨framed,length,fun parameter => absurd parameter not_parameter,fun version => absurd version not_version,
      fun next => absurd next not_next,fun _ => spec yes,fun termination => ?_⟩
    have bytes := expected_toNat ei
    have four := four_le_bytes ei
    by_contra short
    have shorter : tlv.length < tlv_hdr_size + 1 + ei.expected.toNat := by
      unfold tlv_hdr_size
      omega
    simp [termination,shorter] at long_enough
  · rename_i not_listed
    exact ⟨true,rfl,fun _ => ⟨framed,length,fun parameter => absurd parameter not_parameter,fun version => absurd version not_version,
      fun next => absurd next not_next,fun listed => absurd listed not_listed,fun termination => absurd (.inr termination) not_listed⟩⟩

/-- The check ends on every payload, and what it accepts is a sequence of checked TLVs. -/
theorem tlvs_validate_spec {steps : Nat} {cursor : List UInt8} (parameter_seen : Bool) (enough : cursor.length < steps) :
    ∃ valid, tlvs_validate ei steps cursor parameter_seen = .ok valid ∧
      (valid = true → ∃ tlvs : List (List UInt8), cursor = tlvs.flatten ∧ (∀ tlv ∈ tlvs, Valid ei tlv) ∧
        (parameter_seen = true ∨ ∃ tlv ∈ tlvs, type_of tlv = tlv_parameter)) := by
  induction steps generalizing cursor parameter_seen with
  | zero => omega
  | succ steps ih =>
    rw [tlvs_validate]
    split
    · rename_i empty
      refine ⟨parameter_seen,rfl,fun seen => ⟨[],List.length_eq_zero_iff.1 empty,by simp,.inl seen⟩⟩
    split
    · exact ⟨false,rfl,fun valid => by cases valid⟩
    rename_i header
    have four : 4 ≤ cursor.length := Nat.not_lt.1 header
    have type : half cursor 0 = .ok (type_of cursor) := by
      have read := @half_append cursor [] 0 (by omega)
      rwa [List.append_nil] at read
    have length : half cursor 2 = .ok (UInt16.ofNat (number ((cursor.drop 2).take 2))) := by
      have read := @half_append cursor [] 2 (by omega)
      rwa [List.append_nil] at read
    rw [type,length]
    generalize sized : UInt16.ofNat (number ((cursor.drop 2).take 2)) = size
    change ∃ valid, (if size.toNat < tlv_hdr_size ∨ size.toNat > cursor.length then _ else _) = _ ∧ _
    split
    · exact ⟨false,rfl,fun valid => by cases valid⟩
    rename_i fits
    rw [not_or,Nat.not_lt,Nat.not_lt] at fits
    obtain ⟨framed,inside⟩ := fits
    have at_least : 4 ≤ size.toNat := framed
    -- the TLV is cut off from what is behind it
    generalize cut : cursor.take size.toNat = tlv
    generalize left : cursor.drop size.toNat = rest
    have whole : cursor = tlv ++ rest := by rw [← cut,← left,List.take_append_drop]
    have tlv_length : tlv.length = size.toNat := by
      rw [← cut,List.length_take]
      omega
    have same_type : type_of cursor = type_of tlv := by
      rw [type_of,type_of,whole,List.take_append_of_le_length (by omega)]
    have same_length : (UInt16.ofNat (number ((tlv.drop 2).take 2))).toNat = tlv.length := by
      have read : (cursor.drop 2).take 2 = (tlv.drop 2).take 2 := by
        rw [whole,List.drop_append_of_le_length (by omega),List.take_append_of_le_length (by rw [List.length_drop]; omega)]
      rw [tlv_length,← read,sized]
    obtain ⟨valid,run,spec⟩ := @tlv_validate_spec ei tlv rest (by omega) same_length
    rw [same_type,← tlv_length,whole,run]
    change ∃ accepted, (if valid then _ else _) = _ ∧ _
    cases valid with
    | false => exact ⟨false,rfl,fun accepted => by cases accepted⟩
    | true =>
      obtain ⟨accepted,more,rest_spec⟩ := @ih rest (parameter_seen || type_of tlv == tlv_parameter) (by
        rw [← left,List.length_drop]
        omega)
      refine ⟨accepted,more,fun yes => ?_⟩
      obtain ⟨tlvs,split,checked,seen⟩ := rest_spec yes
      refine ⟨tlv :: tlvs,by rw [split]; rfl,?_,?_⟩
      · intro other member
        rcases List.mem_cons.1 member with rfl | behind
        · exact spec rfl
        · exact checked other behind
      · rcases seen with before | ⟨other,member,parameter⟩
        · rw [Bool.or_eq_true,beq_iff_eq] at before
          rcases before with before | here
          · exact .inl before
          · exact .inr ⟨tlv,List.mem_cons_self,here⟩
        · exact .inr ⟨other,List.mem_cons_of_mem _ member,parameter⟩

/-! ## The walk over checked TLVs -/

/-- What a checked TLV is taken for. -/
def taken (ei : Receiver) (walk : Walk) (tlv : List UInt8) : Verdict :=
  if type_of tlv = tlv_parameter then
    walk.parameter_decode ei ((tlv.drop 4).take 6) (UInt16.ofNat (number ((tlv.drop 10).take 2)))
  else if type_of tlv = tlv_seq then .next { walk with sequence_seen := true, sequence_listed := names ei tlv }
  else if type_of tlv = tlv_sw_version then .next { walk with nbr := walk.nbr.sw_version_decode ei ((tlv.drop 4).take 4) }
  else if type_of tlv = tlv_next_mcast_seq then
    .next { walk with next_multicast_sequence := UInt32.ofNat (number ((tlv.drop 4).take 4)) }
  else if type_of tlv = tlv_peer_termination then if names ei tlv then .deleted else .returned walk
  else .next walk

theorem tlv_receive_eq {tlv : List UInt8} (valid : Valid ei tlv) (walk : Walk) (rest : List UInt8) :
    tlv_receive ei walk (tlv ++ rest) (type_of tlv) tlv.length = .ok (taken ei walk tlv) := by
  have framed := valid.framed
  have header : (tlv.take 4).length = 4 := by
    rw [List.length_take]
    omega
  unfold tlv_receive taken
  split
  · rename_i parameter
    have twelve := valid.parameter parameter
    rw [if_neg (show ¬tlv.length < tlv_parameter_len from Nat.not_lt.2 twelve),octets_at_append rest (by omega),half_append rest (by omega)]
    rfl
  split
  · rename_i _ seq
    obtain ⟨addresses,body,lengths⟩ := valid.addresses (.inl seq)
    have split : tlv = tlv.take 4 ++ listing ei addresses := by rw [← body,List.take_append_drop]
    have fewer : addresses.length ≤ tlv.length := by
      have size := listing_length_le ei addresses
      rw [← body,List.length_drop] at size
      omega
    have run := @sequence_listed_eq ei tlv rest addresses lengths (tlv.take 4) split (tlv.length + 1) (by omega) false
    rw [header,Bool.false_or] at run
    rw [names_listing body lengths]
    split
    · change (sequence_listed ei (tlv ++ rest) tlv.length (tlv.length + 1) 4 false >>= _) = _
      rw [run]
      rfl
    · rename_i base
      have empty : addresses = [] := by
        cases addresses with
        | nil => rfl
        | cons address addresses =>
          exfalso
          have size := congrArg List.length body
          have unfolded : listing ei (address :: addresses) = ei.expected :: (address ++ listing ei addresses) := by simp [listing]
          rw [unfolded,List.length_drop,List.length_cons,List.length_append] at size
          unfold tlv_seq_base_len at base
          omega
      rw [empty]
      rfl
  split
  · rename_i version
    have eight := valid.version version
    rw [if_neg (show ¬tlv.length < tlv_sw_version_len from Nat.not_lt.2 eight),octets_at_append rest (by omega)]
    rfl
  split
  · rename_i next
    have eight := valid.next next
    rw [if_pos (show tlv.length = next_sequence_tlv_size from eight),long_append rest (by omega)]
    rfl
  split
  · rename_i termination
    obtain ⟨addresses,body,lengths⟩ := valid.addresses (.inr termination)
    have split : tlv = tlv.take 4 ++ listing ei addresses := by rw [← body,List.take_append_drop]
    have fewer : addresses.length ≤ tlv.length := by
      have size := listing_length_le ei addresses
      rw [← body,List.length_drop] at size
      omega
    have run := @peer_termination_contains_eq ei tlv rest addresses lengths (tlv.take 4) split (tlv.length + 1) (by omega)
    rw [header] at run
    rw [names_listing body lengths,
      if_neg (show ¬tlv.length < tlv_peer_termination_len from Nat.not_lt.2 (valid.termination termination))]
    change (peer_termination_contains ei (tlv ++ rest) tlv.length (tlv.length + 1) 4 >>= _) = _
    rw [run]
    rfl
  · rfl

/-- The walk over TLVs that were checked. -/
def received (ei : Receiver) : Walk → List (List UInt8) → Verdict
  | walk, [] => .next walk
  | walk, tlv :: tlvs =>
    match taken ei walk tlv with
    | .next walk => received ei walk tlvs
    | verdict => verdict

theorem tlvs_receive_eq {tlvs : List (List UInt8)} (valid : ∀ tlv ∈ tlvs, Valid ei tlv) (some_tlvs : tlvs ≠ []) {steps : Nat}
    (enough : tlvs.length ≤ steps) (walk : Walk) : tlvs_receive ei steps walk tlvs.flatten = .ok (received ei walk tlvs) := by
  induction tlvs generalizing steps walk with
  | nil => exact absurd rfl some_tlvs
  | cons tlv tlvs ih =>
    cases steps with
    | zero => simp at enough
    | succ steps =>
      have here := valid tlv List.mem_cons_self
      have framed := here.framed
      have others : ∀ other ∈ tlvs, Valid ei other := fun other member => valid other (List.mem_cons_of_mem _ member)
      have type : half (tlv ++ tlvs.flatten) 0 = .ok (type_of tlv) := half_append tlvs.flatten (by omega)
      have fits : ¬(tlv.length < tlv_hdr_size ∨ tlv.length > (tlv ++ tlvs.flatten).length) := by
        rw [not_or,List.length_append,Nat.not_lt]
        exact ⟨framed,by omega⟩
      rw [List.flatten_cons,tlvs_receive,type,half_append tlvs.flatten (by omega)]
      generalize sized : UInt16.ofNat (number ((tlv.drop 2).take 2)) = size
      have size_eq : size.toNat = tlv.length := sized ▸ here.length
      change (if size.toNat < tlv_hdr_size ∨ size.toNat > (tlv ++ tlvs.flatten).length then _ else _) = _
      rw [size_eq,if_neg fits,tlv_receive_eq here]
      change (match taken ei walk tlv with
        | .next walk =>
          let rest := (tlv ++ tlvs.flatten).drop tlv.length
          if rest.length > 0 then tlvs_receive ei steps walk rest else .ok (.next walk)
        | verdict => .ok verdict) = _
      rw [received]
      cases taken ei walk tlv with
      | next walk =>
        simp only [List.drop_left]
        cases tlvs with
        | nil => rfl
        | cons second tlvs =>
          have next := others second List.mem_cons_self
          have more : (second :: tlvs).flatten.length > 0 := by
            rw [List.flatten_cons,List.length_append]
            have := next.framed
            omega
          rw [if_pos more]
          exact ih others (List.cons_ne_nil _ _) (Nat.le_of_succ_le_succ enough) walk
      | malformed => rfl
      | returned walk => rfl
      | deleted => rfl

end Checked

/-! ## TLVs that end the adjacency -/

/-- The K-values of a parameter TLV that count. -/
def k_values_of (tlv : List UInt8) : List UInt8 := ((tlv.drop 4).take 6).take 5

/-- A goodbye, a K-value mismatch, or a peer termination that names the receiver. -/
def ends_adjacency (ei : Receiver) (tlv : List UInt8) : Bool :=
  type_of tlv == tlv_parameter && (k_values_of tlv == [0xff, 0xff, 0xff, 0xff, 0xff] || k_values_of tlv != ei.k_values) ||
    type_of tlv == tlv_peer_termination && names ei tlv

/-- A peer termination for other routers only. -/
def foreign (ei : Receiver) (tlv : List UInt8) : Bool := type_of tlv == tlv_peer_termination && !names ei tlv

/-- Whether a peer termination for other routers stands in front of all TLVs that end the adjacency. -/
def disturbed (ei : Receiver) : List (List UInt8) → Bool
  | [] => false
  | tlv :: tlvs => !ends_adjacency ei tlv && (foreign ei tlv || disturbed ei tlvs)

/-- The last TLV of a type. -/
def last (type : UInt16) (tlvs : List (List UInt8)) : Option (List UInt8) := tlvs.reverse.find? fun tlv => type_of tlv == type

/-- The number in a next multicast sequence TLV. -/
def sequence_of (tlv : List UInt8) : UInt32 := UInt32.ofNat (number ((tlv.drop 4).take 4))

/-- Every TLV is processed, one after the other. -/
inductive AllTaken (ei : Receiver) : Walk → List (List UInt8) → Walk → Prop where
  | nil (walk : Walk) : AllTaken ei walk [] walk
  | cons {walk next after : Walk} {tlv : List UInt8} {tlvs : List (List UInt8)} (here : taken ei walk tlv = .next next)
      (rest : AllTaken ei next tlvs after) : AllTaken ei walk (tlv :: tlvs) after

/-- What the walk over TLVs leaves behind that neither end the adjacency nor are for other routers. -/
structure Goes (ei : Receiver) (tlvs : List (List UInt8)) (walk after : Walk) : Prop where
  all : AllTaken ei walk tlvs after
  parameter_seen : after.parameter_seen = (walk.parameter_seen || (last tlv_parameter tlvs).isSome)
  sequence_seen : after.sequence_seen = (walk.sequence_seen || (last tlv_seq tlvs).isSome)
  sequence_listed : after.sequence_listed = ((last tlv_seq tlvs).map (names ei)).getD walk.sequence_listed
  next_multicast_sequence :
    after.next_multicast_sequence = ((last tlv_next_mcast_seq tlvs).map sequence_of).getD walk.next_multicast_sequence
  k_mismatch : after.k_mismatch = walk.k_mismatch
  conditional : after.nbr.cr_mode = walk.nbr.cr_mode ∧ after.nbr.cr_sequence = walk.nbr.cr_sequence
  limits : after.nbr.limit_state = walk.nbr.limit_state ∧ after.nbr.limit_cleanup_pending = walk.nbr.limit_cleanup_pending ∧
    after.nbr.af_suspended = walk.nbr.af_suspended
  started : walk.nbr.limit_state = .none → walk.nbr.af_suspended = false →
    (walk.nbr.state ≠ .down ∨ (last tlv_parameter tlvs).isSome = true) → after.nbr.state ≠ .down

section Adjacency
variable {ei : Receiver}

theorem last_cons (type : UInt16) (tlv : List UInt8) (tlvs : List (List UInt8)) :
    last type (tlv :: tlvs) = (last type tlvs).or (if type_of tlv = type then some tlv else none) := by
  rw [last,List.reverse_cons,List.find?_append,last]
  congr 1
  by_cases same : type_of tlv = type <;> simp [same]

theorem goes_nil (walk : Walk) : Goes ei [] walk walk where
  all := .nil walk
  parameter_seen := by simp [last]
  sequence_seen := by simp [last]
  sequence_listed := rfl
  next_multicast_sequence := rfl
  k_mismatch := rfl
  conditional := ⟨rfl,rfl⟩
  limits := ⟨rfl,rfl,rfl⟩
  started _ _ live := live.resolve_right (by simp [last])

/-- A TLV that neither ends the adjacency nor is for other routers is processed, and the walk goes on. -/
theorem goes_one {tlv : List UInt8} (stays : ends_adjacency ei tlv = false) (own : foreign ei tlv = false) (walk : Walk) :
    ∃ after, taken ei walk tlv = .next after ∧ Goes ei [tlv] walk after := by
  have single (type : UInt16) : last type [tlv] = if type_of tlv = type then some tlv else none := by
    rw [last_cons]
    rfl
  have all {after : Walk} (here : taken ei walk tlv = .next after) : AllTaken ei walk [tlv] after := .cons here (.nil after)
  by_cases parameter : type_of tlv = tlv_parameter
  · -- the K-values match, so the neighbor is started where it is down
    have same : k_values_of tlv ≠ [0xff, 0xff, 0xff, 0xff, 0xff] ∧ k_values_of tlv = ei.k_values := by
      simpa [ends_adjacency,parameter,tlv_parameter,tlv_peer_termination] using stays
    rw [k_values_of] at same
    have here : taken ei walk tlv = _ := if_pos parameter
    rw [Walk.parameter_decode,if_neg same.1,if_neg (not_not_intro same.2)] at here
    refine ⟨_,here,all here,?_,?_,?_,?_,rfl,?_,?_,?_⟩
    · simp [single,parameter]
    · simp [single,parameter,show tlv_parameter ≠ tlv_seq by decide]
    · simp [single,parameter,show tlv_parameter ≠ tlv_seq by decide]
    · simp [single,parameter,show tlv_parameter ≠ tlv_next_mcast_seq by decide]
    · simp only [Nbr.state_update]
      split <;> (try split) <;> exact ⟨rfl,rfl⟩
    · simp only [Nbr.state_update]
      split <;> (try split) <;> exact ⟨rfl,rfl,rfl⟩
    · intro limit suspended _
      simp only
      split
      · simp [Nbr.state_update,limit,suspended]
      · assumption
  by_cases seq : type_of tlv = tlv_seq
  · have here : taken ei walk tlv = .next { walk with sequence_seen := true, sequence_listed := names ei tlv } := by
      rw [taken,if_neg parameter,if_pos seq]
    refine ⟨_,here,all here,?_,?_,?_,?_,rfl,⟨rfl,rfl⟩,⟨rfl,rfl,rfl⟩,fun _ _ live => live.resolve_right ?_⟩
    · simp [single,seq,show tlv_seq ≠ tlv_parameter by decide]
    · simp [single,seq]
    · simp [single,seq]
    · simp [single,seq,show tlv_seq ≠ tlv_next_mcast_seq by decide]
    · simp [single,parameter]
  by_cases version : type_of tlv = tlv_sw_version
  · have here : taken ei walk tlv = .next { walk with nbr := walk.nbr.sw_version_decode ei ((tlv.drop 4).take 4) } := by
      rw [taken,if_neg parameter,if_neg seq,if_pos version]
    refine ⟨_,here,all here,?_,?_,?_,?_,rfl,?_,?_,fun _ _ live => ?_⟩
    · simp [single,parameter]
    · simp [single,seq]
    · simp [single,seq]
    · simp [single,version,show tlv_sw_version ≠ tlv_next_mcast_seq by decide]
    · simp only [Nbr.sw_version_decode]
      split <;> exact ⟨rfl,rfl⟩
    · simp only [Nbr.sw_version_decode]
      split <;> exact ⟨rfl,rfl,rfl⟩
    · have kept : (walk.nbr.sw_version_decode ei ((tlv.drop 4).take 4)).state = walk.nbr.state := by
        unfold Nbr.sw_version_decode
        split <;> rfl
      simp only [kept]
      exact live.resolve_right (by simp [single,parameter])
  by_cases next : type_of tlv = tlv_next_mcast_seq
  · have here : taken ei walk tlv = .next { walk with next_multicast_sequence := sequence_of tlv } := by
      rw [taken,if_neg parameter,if_neg seq,if_neg version,if_pos next]
      rfl
    refine ⟨_,here,all here,?_,?_,?_,?_,rfl,⟨rfl,rfl⟩,⟨rfl,rfl,rfl⟩,fun _ _ live => live.resolve_right ?_⟩
    · simp [single,parameter]
    · simp [single,seq]
    · simp [single,seq]
    · simp [single,next]
    · simp [single,parameter]
  · have here : taken ei walk tlv = .next walk := by
      rw [taken,if_neg parameter,if_neg seq,if_neg version,if_neg next]
      split
      · rename_i termination
        -- a peer termination either names the receiver or does not
        exfalso
        cases named : names ei tlv <;> simp [ends_adjacency,foreign,termination,named,tlv_peer_termination,tlv_parameter] at stays own
      · rfl
    refine ⟨_,here,all here,?_,?_,?_,?_,rfl,⟨rfl,rfl⟩,⟨rfl,rfl,rfl⟩,fun _ _ live => live.resolve_right ?_⟩
    · simp [single,parameter]
    · simp [single,seq]
    · simp [single,seq]
    · simp [single,next]
    · simp [single,parameter]

theorem Goes.cons {tlv : List UInt8} {tlvs : List (List UInt8)} {walk next after : Walk} (here : taken ei walk tlv = .next next)
    (one : Goes ei [tlv] walk next) (rest : Goes ei tlvs next after) : Goes ei (tlv :: tlvs) walk after := by
  have single (type : UInt16) : last type [tlv] = if type_of tlv = type then some tlv else none := by
    rw [last_cons]
    rfl
  refine ⟨.cons here rest.all,?_,?_,?_,?_,rest.k_mismatch.trans one.k_mismatch,?_,?_,fun limit suspended live => ?_⟩
  · rw [rest.parameter_seen,one.parameter_seen,single,last_cons]
    cases last tlv_parameter tlvs <;> simp
  · rw [rest.sequence_seen,one.sequence_seen,single,last_cons]
    cases last tlv_seq tlvs <;> simp
  · rw [rest.sequence_listed,one.sequence_listed,single,last_cons]
    cases last tlv_seq tlvs <;> simp
  · rw [rest.next_multicast_sequence,one.next_multicast_sequence,single,last_cons]
    cases last tlv_next_mcast_seq tlvs <;> simp
  · exact ⟨rest.conditional.1.trans one.conditional.1,rest.conditional.2.trans one.conditional.2⟩
  · exact ⟨rest.limits.1.trans one.limits.1,rest.limits.2.1.trans one.limits.2.1,rest.limits.2.2.trans one.limits.2.2⟩
  · refine rest.started (one.limits.1.trans limit) (one.limits.2.2.trans suspended) ?_
    rcases live with up | seen
    · exact .inl (one.started limit suspended (.inl up))
    · rw [last_cons] at seen
      cases behind : last tlv_parameter tlvs with
      | some other => exact .inr rfl
      | none =>
        rw [behind,Option.none_or] at seen
        rw [← single] at seen
        exact .inl (one.started limit suspended (.inr seen))

theorem Goes.received {tlvs : List (List UInt8)} {walk after : Walk} (all : AllTaken ei walk tlvs after) :
    received ei walk tlvs = .next after := by
  induction all with
  | nil walk => rfl
  | cons here _ ih =>
    rw [Hello.received,here]
    exact ih

end Adjacency

/-! ## Hellos that are processed whole -/

/-- The neighbor is gone, or a K-value mismatch was reported. -/
def Ended : Verdict → Prop
  | .next walk | .returned walk => walk.k_mismatch = true
  | .deleted => True
  | .malformed => False

/-- Every TLV was processed, the conditional receive state follows the SEQUENCE and next multicast sequence TLVs, and a new
    neighbor has its hold timer. -/
structure Complete (ei : Receiver) (known : Option Nbr) (tlvs : List (List UInt8)) (verdict : Verdict) : Prop where
  all : ∃ after, AllTaken ei { nbr := known.getD {} } tlvs after ∧ verdict = after.finish ei known.isNone
  applied : ∃ walk, verdict = .next walk ∧
    (match last tlv_seq tlvs with
      | none => walk.nbr.cr_mode = (known.getD {}).cr_mode ∧ walk.nbr.cr_sequence = (known.getD {}).cr_sequence
      | some tlv =>
        let next_multicast_sequence := ((last tlv_next_mcast_seq tlvs).map sequence_of).getD 0
        walk.nbr.cr_mode = (!names ei tlv && next_multicast_sequence != 0) ∧
          walk.nbr.cr_sequence = if walk.nbr.cr_mode then next_multicast_sequence else 0) ∧
    (known = none → walk.nbr.t_holddown = some (walk.nbr.v_holddown.toUInt32 * 1000))

/-- The Hello was processed whole, unless one of its TLVs ended the adjacency. -/
def Covered (ei : Receiver) (known : Option Nbr) (tlvs : List (List UInt8)) (verdict : Verdict) : Prop :=
  Ended verdict ∧ (∃ tlv ∈ tlvs, ends_adjacency ei tlv = true) ∨ Complete ei known tlvs verdict

section Covered
variable {ei : Receiver}

theorem taken_ends {tlv : List UInt8} (ends : ends_adjacency ei tlv = true) (walk : Walk) :
    taken ei walk tlv = .deleted ∨ ∃ next, taken ei walk tlv = .next next ∧ next.k_mismatch = true := by
  unfold ends_adjacency k_values_of at ends
  rw [Bool.or_eq_true,Bool.and_eq_true,Bool.and_eq_true,beq_iff_eq,beq_iff_eq] at ends
  rcases ends with ⟨parameter,ends⟩ | ⟨termination,named⟩
  · rw [taken,if_pos parameter,Walk.parameter_decode]
    split
    · exact .inl rfl
    · rename_i stays
      have mismatch : ((tlv.drop 4).take 6).take 5 ≠ ei.k_values := by simpa [stays] using ends
      rw [if_pos mismatch]
      exact .inr ⟨_,rfl,rfl⟩
  · left
    rw [taken,termination,if_neg (by decide),if_neg (by decide),if_neg (by decide),if_neg (by decide),if_pos rfl,if_pos named]

theorem taken_foreign {tlv : List UInt8} (other : foreign ei tlv = true) (walk : Walk) : taken ei walk tlv = .returned walk := by
  unfold foreign at other
  rw [Bool.and_eq_true,beq_iff_eq,Bool.not_eq_true'] at other
  rw [taken,other.1,if_neg (by decide),if_neg (by decide),if_neg (by decide),if_neg (by decide),if_pos rfl,other.2]
  rfl

/-- A K-value mismatch is not forgotten. -/
theorem received_mismatch {tlvs : List (List UInt8)} {walk : Walk} (mismatch : walk.k_mismatch = true) : Ended (received ei walk tlvs) := by
  induction tlvs generalizing walk with
  | nil => exact mismatch
  | cons tlv tlvs ih =>
    rw [received]
    by_cases ends : ends_adjacency ei tlv = true
    · rcases taken_ends ends walk with gone | ⟨next,here,reported⟩
      · rw [gone]
        trivial
      · rw [here]
        exact ih reported
    by_cases other : foreign ei tlv = true
    · rw [taken_foreign other]
      exact mismatch
    · obtain ⟨next,here,goes⟩ := goes_one (Bool.eq_false_iff.2 ends) (Bool.eq_false_iff.2 other) walk
      rw [here]
      exact ih (goes.k_mismatch.trans mismatch)

/-- A peer termination for other routers ends the processing where nothing before it has ended the adjacency. -/
theorem received_disturbed {tlvs : List (List UInt8)} (before : disturbed ei tlvs = true) (walk : Walk) :
    ∃ after, received ei walk tlvs = .returned after ∧ after.k_mismatch = walk.k_mismatch := by
  induction tlvs generalizing walk with
  | nil => cases before
  | cons tlv tlvs ih =>
    rw [disturbed,Bool.and_eq_true,Bool.not_eq_true',Bool.or_eq_true] at before
    obtain ⟨stays,later⟩ := before
    rw [received]
    by_cases other : foreign ei tlv = true
    · rw [taken_foreign other]
      exact ⟨walk,rfl,rfl⟩
    · obtain ⟨next,here,goes⟩ := goes_one stays (Bool.eq_false_iff.2 other) walk
      rw [here]
      obtain ⟨after,run,same⟩ := ih (later.resolve_left other) next
      exact ⟨after,run,same.trans goes.k_mismatch⟩

theorem received_undisturbed {tlvs : List (List UInt8)} (free : disturbed ei tlvs = false) (walk : Walk) :
    (∃ after, received ei walk tlvs = .next after ∧ Goes ei tlvs walk after) ∨
      Ended (received ei walk tlvs) ∧ ∃ tlv ∈ tlvs, ends_adjacency ei tlv = true := by
  induction tlvs generalizing walk with
  | nil => exact .inl ⟨walk,rfl,goes_nil walk⟩
  | cons tlv tlvs ih =>
    rw [received]
    by_cases ends : ends_adjacency ei tlv = true
    · right
      refine ⟨?_,tlv,List.mem_cons_self,ends⟩
      rcases taken_ends ends walk with gone | ⟨next,here,reported⟩
      · rw [gone]
        trivial
      · rw [here]
        exact received_mismatch reported
    · rw [disturbed,Bool.eq_false_iff.2 ends,Bool.not_false,Bool.true_and,Bool.or_eq_false_iff] at free
      obtain ⟨own,later⟩ := free
      obtain ⟨next,here,goes⟩ := goes_one (Bool.eq_false_iff.2 ends) own walk
      rw [here]
      rcases ih later next with ⟨after,run,rest⟩ | ⟨ended,other,member,ends⟩
      · exact .inl ⟨after,run,Goes.cons here goes rest⟩
      · exact .inr ⟨ended,other,List.mem_cons_of_mem _ member,ends⟩

theorem Ended.finish {walk : Walk} (ended : walk.k_mismatch = true) (new_nbr : Bool) : Ended (walk.finish ei new_nbr) := by
  unfold Walk.finish
  split
  · split
    · trivial
    · exact ended
  · exact ended

/-- What the loop and what follows it make of a neighbor. -/
def processed (ei : Receiver) (known : Option Nbr) (tlvs : List (List UInt8)) : Verdict :=
  match received ei { nbr := known.getD {} } tlvs with
  | .next walk => walk.finish ei known.isNone
  | verdict => verdict

theorem armed_conditional (new_nbr : Bool) (nbr : Nbr) :
    (if new_nbr then nbr.holddown_update ei else nbr).cr_mode = nbr.cr_mode ∧
      (if new_nbr then nbr.holddown_update ei else nbr).cr_sequence = nbr.cr_sequence := by
  cases new_nbr with
  | false => exact ⟨rfl,rfl⟩
  | true =>
    simp only [Nbr.holddown_update,if_true]
    split <;> exact ⟨rfl,rfl⟩

theorem Goes.complete {known : Option Nbr} {tlvs : List (List UInt8)} {after : Walk} (open_family : ei.pfxlimits_af_state = false)
    (parameter : (last tlv_parameter tlvs).isSome = true) (goes : Goes ei tlvs { nbr := known.getD {} } after) :
    Complete ei known tlvs (after.finish ei known.isNone) := by
  have seen : after.parameter_seen = true := by rw [goes.parameter_seen,parameter,Bool.or_true]
  refine ⟨⟨after,goes.all,rfl⟩,?_⟩
  rw [Walk.finish,seen,Bool.not_true,if_neg (by decide)]
  refine ⟨_,rfl,?_,?_⟩
  · obtain ⟨mode,number⟩ := @armed_conditional ei known.isNone (if after.sequence_seen then _ else after.nbr)
    simp only at mode number ⊢
    rw [mode,number]
    have sequence_seen := goes.sequence_seen
    have listed := goes.sequence_listed
    have next := goes.next_multicast_sequence
    cases sequence : last tlv_seq tlvs with
    | none =>
      rw [sequence] at sequence_seen
      have none_seen : after.sequence_seen = false := sequence_seen
      rw [none_seen]
      exact goes.conditional
    | some tlv =>
      rw [sequence] at sequence_seen listed
      have one_seen : after.sequence_seen = true := sequence_seen
      have named : after.sequence_listed = names ei tlv := listed
      rw [one_seen,named,next]
      exact ⟨rfl,rfl⟩
  · intro new
    subst new
    obtain ⟨limit,cleanup,suspended⟩ := goes.limits
    have started : after.nbr.state ≠ .down := goes.started rfl rfl (.inr parameter)
    have limit_none : after.nbr.limit_state = .none := limit
    have cleanup_none : after.nbr.limit_cleanup_pending = false := cleanup
    have unsuspended : after.nbr.af_suspended = false := suspended
    cases after.sequence_seen <;>
      simp [Nbr.holddown_update,Nbr.is_eligible,limit_none,cleanup_none,unsuspended,open_family,started]

theorem received_not_malformed (walk : Walk) (tlvs : List (List UInt8)) : received ei walk tlvs ≠ .malformed := by
  cases apart : disturbed ei tlvs with
  | true =>
    obtain ⟨after,run,_⟩ := received_disturbed apart walk
    rw [run]
    exact fun same => by cases same
  | false =>
    rcases received_undisturbed apart walk with ⟨after,run,_⟩ | ⟨ended,_⟩
    · rw [run]
      exact fun same => by cases same
    · intro same
      rw [same] at ended
      exact ended

theorem finish_not_malformed (walk : Walk) (new_nbr : Bool) : walk.finish ei new_nbr ≠ .malformed := by
  unfold Walk.finish
  split
  · split <;> exact fun same => by cases same
  · exact fun same => by cases same

theorem processed_not_malformed (known : Option Nbr) (tlvs : List (List UInt8)) : processed ei known tlvs ≠ .malformed := by
  unfold processed
  split
  · exact finish_not_malformed _ _
  · exact received_not_malformed _ _

/-- A checked Hello is processed whole exactly when no peer termination for other routers stands in front of the TLVs that end the
    adjacency. -/
theorem processed_covered_iff {tlvs : List (List UInt8)} (known : Option Nbr) (open_family : ei.pfxlimits_af_state = false)
    (parameter : (last tlv_parameter tlvs).isSome = true) :
    Covered ei known tlvs (processed ei known tlvs) ↔ disturbed ei tlvs = false := by
  constructor
  · intro covered
    by_contra before
    obtain ⟨after,run,mismatch⟩ := received_disturbed (Bool.not_eq_false _ ▸ before) { nbr := known.getD {} }
    rcases covered with ⟨ended,_⟩ | complete
    · rw [processed,run] at ended
      have reported : after.k_mismatch = true := ended
      rw [mismatch] at reported
      cases reported
    · obtain ⟨other,all,_⟩ := complete.all
      have whole := Goes.received all
      rw [run] at whole
      cases whole
  · intro free
    rw [processed]
    rcases received_undisturbed free { nbr := known.getD {} } with ⟨after,run,goes⟩ | ⟨ended,ends⟩
    · rw [run]
      exact .inr (goes.complete open_family parameter)
    · left
      refine ⟨?_,ends⟩
      generalize received ei { nbr := known.getD {} } tlvs = verdict at ended
      cases verdict with
      | next walk => exact Ended.finish ended _
      | returned walk => exact ended
      | deleted => trivial
      | malformed => exact ended

end Covered

/-- Whether a Hello with good TLVs is processed. -/
def Receiver.processes (ei : Receiver) (known : Option Nbr) (created : Bool) : Bool :=
  !ei.pfxlimits_af_state && known.all (fun nbr => nbr.is_eligible ei) && ei.static_source_allowed && (known.isSome || created)

/-- Both walks end on all octets. What the check accepts is processed without reading behind it and without leaving because of a
    length, and processed whole exactly when no peer termination for other routers stands in front of the TLVs that end the
    adjacency. -/
theorem hello_covered_iff (ei : Receiver) (known : Option Nbr) (created : Bool) (payload : List UInt8) :
    (∃ accepted, hello_tlvs_validate ei payload = .ok accepted) ∧
      (∀ walk : Walk, Ends (tlvs_receive ei (payload.length + 1) walk payload)) ∧
      (∃ outcome, hello_receive ei known created payload = .ok outcome) ∧
      (hello_tlvs_validate ei payload = .ok true → ei.processes known created = true →
        ∃ tlvs verdict, payload = tlvs.flatten ∧ (∀ tlv ∈ tlvs, Valid ei tlv) ∧
          hello_receive ei known created payload = .ok (.processed verdict) ∧ verdict ≠ .malformed ∧
          (Covered ei known tlvs verdict ↔ disturbed ei tlvs = false)) := by
  obtain ⟨accepted,checked,spec⟩ := @tlvs_validate_spec ei (payload.length + 1) payload false (by omega)
  have validated : hello_tlvs_validate ei payload = .ok accepted := checked
  refine ⟨⟨accepted,validated⟩,fun walk => tlvs_receive_ends walk (by omega),?_⟩
  -- a payload that is accepted is walked
  have walked : accepted = true → ∃ tlvs : List (List UInt8), payload = tlvs.flatten ∧ (∀ tlv ∈ tlvs, Valid ei tlv) ∧
      (last tlv_parameter tlvs).isSome = true ∧
      ∀ walk, tlvs_receive ei (payload.length + 1) walk payload = .ok (received ei walk tlvs) := by
    intro yes
    obtain ⟨tlvs,split,valid,seen⟩ := spec yes
    obtain ⟨tlv,member,parameter⟩ := seen.resolve_left (by decide)
    refine ⟨tlvs,split,valid,?_,fun walk => ?_⟩
    · rw [last,List.find?_isSome]
      exact ⟨tlv,List.mem_reverse.2 member,beq_iff_eq.2 parameter⟩
    · have enough : tlvs.length ≤ payload.length := by
        rw [split]
        rw [List.length_flatten,← List.length_map List.length]
        refine List.length_le_sum_of_one_le _ fun size member => ?_
        obtain ⟨other,inside,rfl⟩ := List.mem_map.1 member
        exact Nat.le_trans (by decide) (valid other inside).framed
      rw [split]
      exact tlvs_receive_eq valid (List.ne_nil_of_mem member) (by rw [← split]; omega) walk
  constructor
  · unfold hello_receive
    split
    · exact ⟨_,rfl⟩
    rw [validated]
    change ∃ outcome, (if !accepted ∨ !ei.static_source_allowed then _ else _) = Except.ok outcome
    split
    · exact ⟨_,rfl⟩
    · rename_i good
      have yes : accepted = true := by
        cases accepted with
        | true => rfl
        | false => exact absurd (.inl rfl) good
      obtain ⟨tlvs,_,_,_,walk⟩ := walked yes
      split
      · exact ⟨_,rfl⟩
      · rw [walk]
        change ∃ outcome, (match received ei _ tlvs with
          | .next walk => Except.ok (Outcome.processed (walk.finish ei known.isNone))
          | verdict => Except.ok (Outcome.processed verdict)) = Except.ok outcome
        split <;> exact ⟨_,rfl⟩
  · intro good processes
    rw [validated] at good
    injection good with yes
    obtain ⟨tlvs,split,valid,parameter,walk⟩ := walked yes
    unfold Receiver.processes at processes
    simp only [Bool.and_eq_true,Bool.not_eq_true'] at processes
    obtain ⟨⟨⟨open_family,eligible⟩,allowed⟩,existing⟩ := processes
    have fresh : known.or (if created then some {} else none) = some (known.getD {}) := by
      cases known with
      | some nbr => rfl
      | none =>
        rw [Option.isSome_none,Bool.false_or] at existing
        rw [existing]
        rfl
    have unrefused : ¬(ei.pfxlimits_af_state ∨ known.any fun nbr => !nbr.is_eligible ei) := by
      rw [open_family]
      cases known with
      | none => simp
      | some nbr => simpa using eligible
    refine ⟨tlvs,processed ei known tlvs,split,valid,?_,processed_not_malformed known tlvs,processed_covered_iff known open_family parameter⟩
    rw [hello_receive,if_neg unrefused,validated,yes]
    change (if (!true) = true ∨ (!ei.static_source_allowed) = true then _ else _) = Except.ok (Outcome.processed _)
    rw [allowed,if_neg (by decide),fresh]
    change (tlvs_receive ei (payload.length + 1) { nbr := known.getD {} } payload >>= _) = _
    rw [walk,processed]
    change (match received ei _ tlvs with
      | .next walk => Except.ok (Outcome.processed (walk.finish ei known.isNone))
      | verdict => Except.ok (Outcome.processed verdict)) = _
    cases received ei { nbr := known.getD {} } tlvs <;> rfl

/-- Parameters with the default K-values, and a peer termination for 192.0.2.9. -/
def termination_hello : List UInt8 := [0, 1, 0, 12, 1, 0, 1, 0, 0, 0, 0, 15, 0, 7, 0, 9, 4, 192, 0, 2, 9]

/-- A Hello makes a router a neighbor without hold timer: the check accepts its peer termination for another router, and the
    processing returns there. -/
theorem hello_termination_for_other :
    let ei : Receiver := { afi := .ipv4, packet_address := [192, 0, 2, 1], packet_address_length := rfl }
    hello_tlvs_validate ei termination_hello = .ok true ∧
      ∃ walk, hello_receive ei none true termination_hello = .ok (.processed (.returned walk)) ∧ walk.parameter_seen = true ∧
        walk.k_mismatch = false ∧ walk.nbr.state = .pending ∧ walk.nbr.t_holddown = none :=
  ⟨by decide,_,rfl,by decide⟩

end Eigrp.Hello
