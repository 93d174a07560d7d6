import Eigrp.Tlv
import Eigrp.Lib.Splice

/-!
# Authentication

What `eigrp_auth.c` writes into a packet that leaves an interface and what `eigrp_packet.c` checks of one that comes in.
A queued packet carries an authentication TLV with zeros; the digest and a sequence number of its own are put in when the
packet goes out.
-/

namespace Eigrp.Auth
open Eigrp.Lib

def header_len : Nat := 20
def tlv_auth : UInt16 := 0x0002

/-- `params.auth_type`. -/
inductive AuthType where
  | none
  | text
  | md5
  | sha256
deriving DecidableEq, Repr

def AuthType.code : AuthType → UInt16
  | .none => 0
  | .text => 1
  | .md5 => 2
  | .sha256 => 3

def AuthType.digest_len : AuthType → Nat
  | .md5 => 16
  | .sha256 => 32
  | _ => 0

/-- The size of the authentication TLV of a type, and zero when there is none. -/
def AuthType.tlv_size : AuthType → Nat
  | .md5 => 40
  | .sha256 => 56
  | _ => 0

/-- `eigrp_addr_t`. -/
structure Source where
  afi : Afi
  address : Address
deriving DecidableEq, Repr

/-- What authentication reads of `eigrp_intf_t`. A configured key chain comes with the key that `eigrp_sys_auth_key_lookup`
    finds in it. -/
structure Interface where
  auth_type : AuthType := .none
  auth_password : Option (List UInt8) := none
  auth_keychain : Option (Option (List UInt8)) := none
  address : Source
  crypt_seqnum : UInt32 := 0
deriving DecidableEq, Repr

/-- What authentication reads of `eigrp_nbr_t`, its sequence number in host order. -/
structure Neighbor where
  src : Source
  crypt_seqnum : UInt32 := 0
deriving DecidableEq, Repr

/-- The two digests and the text of an address. -/
structure Primitives where
  md5 : List UInt8 → { digest : List UInt8 // digest.length = 16 }
  hmac_sha256 : List UInt8 → List UInt8 → { digest : List UInt8 // digest.length = 32 }
  inet_ntop : Source → List UInt8

/-! ## Fields of a packet -/

def word (start : Nat) (packet : List UInt8) : UInt16 := UInt16.ofNat (number (window start 2 packet))
def long (start : Nat) (packet : List UInt8) : UInt32 := UInt32.ofNat (number (window start 4 packet))

def opcode (packet : List UInt8) : UInt8 := packet.getD 1 0
def opc_update : UInt8 := 1
def opc_hello : UInt8 := 5
def init_flag : UInt32 := 0x01

def basic_hello_flag : UInt8 := 0x01
def update_init_flag : UInt8 := 0x04
def update_flag : UInt8 := 0x08

/-- `eigrp_packet_auth_flags`, which `eigrp_auth_transmit_finalize` computes the same way. -/
def packet_auth_flags (packet : List UInt8) : UInt8 :=
  if opcode packet = opc_hello then basic_hello_flag
  else if opcode packet = opc_update ∧ long 4 packet &&& init_flag ≠ 0 then update_init_flag
  else update_flag

/-- The sum over the packet in `eigrp_checksum`. -/
def checksum_sum : UInt32 → List UInt8 → UInt32
  | sum, high :: low :: rest => checksum_sum (sum + (high.toUInt32 <<< 8 ||| low.toUInt32)) rest
  | sum, [high] => sum + high.toUInt32 <<< 8
  | sum, [] => sum

/-- The carries; three rounds leave none of 32 bits. -/
def checksum_fold : Nat → UInt32 → UInt32
  | 0, sum => sum
  | rounds + 1, sum => if sum >>> 16 = 0 then sum else checksum_fold rounds ((sum &&& (0xffff : UInt32)) + sum >>> 16)

/-- `eigrp_checksum`. -/
def checksum (packet : List UInt8) : UInt16 := ~~~(checksum_fold 4 (checksum_sum 0 packet)).toUInt16

/-! ## Keys and sequence numbers -/

/-- `eigrp_auth_sequence_newer`, on numbers in host order. -/
def sequence_newer (received stored : UInt32) : Bool :=
  if received = 0 then false
  else if stored = 0 then true
  else received - stored != 0 && received - stored < 0x80000000

/-- `eigrp_auth_sequence_next`. -/
def sequence_next (crypt_seqnum : UInt32) : UInt32 := if crypt_seqnum + 1 = 0 then 1 else crypt_seqnum + 1

/-- `eigrp_auth_material_available`. -/
def Interface.material_available (ei : Interface) : Bool := ei.auth_password.isSome || ei.auth_keychain.isSome

/-- `eigrp_auth_key_get`, for a buffer of `PLAINTEXT_LENGTH + 1` octets. -/
def Interface.key_get (ei : Interface) : Option (List UInt8) :=
  match ei.auth_type, ei.auth_password with
  | .sha256, some password => if password.length ≥ 82 then none else some password
  | _, _ => ei.auth_keychain.bind id

/-- `eigrp_auth_discovery_sequence_accept`: none when the Hello is refused. -/
def discovery_sequence_accept (ei : Interface) (nbr : Neighbor) (header : List UInt8) : Option Neighbor :=
  if ei.auth_type = .none then some nbr
  else if sequence_newer (long 32 header) nbr.crypt_seqnum then some { nbr with crypt_seqnum := long 32 header }
  else none

/-! ## Digests -/

section Digests
variable (lib : Primitives)

/-- `eigrp_auth_sha256_source`. -/
def sha256_source (ei : Interface) (nbr : Option Neighbor) : List UInt8 :=
  match nbr with
  | some nbr => lib.inet_ntop nbr.src
  | none => lib.inet_ntop ei.address

/-- `eigrp_auth_md5_compute`. -/
def md5_compute (packet key : List UInt8) (flags : UInt8) : Option { digest : List UInt8 // digest.length = 16 } :=
  if packet.length < header_len + 40 ∨ flags &&& (basic_hello_flag ||| update_init_flag ||| update_flag) = 0 then none
  else
    some (lib.md5 (packet.take 44 ++ (key ++ (List.replicate (16 - key.length) 0 ++
      if flags &&& basic_hello_flag = 0 then packet.drop (header_len + 40) else []))))

/-- The octets that key the HMAC. -/
def hmac_key (key source_ip : List UInt8) : List UInt8 := 10 :: (key ++ source_ip)

/-- `eigrp_make_md5_digest`; none when there is no digest. -/
def make_md5_digest (ei : Interface) (packet : List UInt8) (flags : UInt8) : Option (List UInt8) :=
  if packet.length < header_len + 40 then none
  else do
    let key ← ei.key_get
    let digest ← md5_compute lib packet key flags
    some (splice 44 digest.1 packet)

/-- `eigrp_make_sha256_digest`. -/
def make_sha256_digest (ei : Interface) (packet : List UInt8) : Option (List UInt8) :=
  if packet.length < header_len + 56 then none
  else do
    let key ← ei.key_get
    let cleared := splice 44 (List.replicate 32 0) packet
    some (splice 44 (lib.hmac_sha256 (hmac_key key (sha256_source lib ei none)) cleared).1 cleared)

/-- What both checks compare before they look at the digest. -/
def auth_tlv_expected (auth_type : AuthType) (packet : List UInt8) : Bool :=
  word 20 packet == tlv_auth && (word 22 packet).toNat == auth_type.tlv_size && word 24 packet == auth_type.code &&
    (word 26 packet).toNat == auth_type.digest_len

/-- The packet for the digest, with zeros for the digest itself and the checksum. -/
def cleared (digest_len : Nat) (packet : List UInt8) : List UInt8 :=
  splice 44 (List.replicate digest_len 0) (splice 2 [0, 0] packet)

/-- The packet with the digest and the checksum that it came with. -/
def restored (digest_len : Nat) (packet : List UInt8) : List UInt8 :=
  splice 2 (window 2 2 packet) (splice 44 (window 44 digest_len packet) (cleared digest_len packet))

/-- `eigrp_check_md5_digest`: the verdict, the neighbor and the packet behind the check. -/
def check_md5_digest (ei : Interface) (nbr : Neighbor) (packet : List UInt8) (flags : UInt8) :
    Bool × Neighbor × List UInt8 :=
  if packet.length < header_len + 40 ∨ ¬ auth_tlv_expected .md5 packet then (false, nbr, packet)
  else if ¬ sequence_newer (long 32 packet) nbr.crypt_seqnum then (false, nbr, packet)
  else
    match ei.key_get with
    | none => (false, nbr, packet)
    | some key =>
      match md5_compute lib (cleared 16 packet) key flags with
      | none => (false, nbr, restored 16 packet)
      | some digest =>
        if window 44 16 packet = digest.1 then (true, { nbr with crypt_seqnum := long 32 packet }, restored 16 packet)
        else (false, nbr, restored 16 packet)

/-- `eigrp_check_sha256_digest`, which leaves the verdict behind it in the same way. -/
def check_sha256_digest (ei : Interface) (nbr : Neighbor) (packet : List UInt8) : Bool × Neighbor × List UInt8 :=
  if packet.length < header_len + 56 ∨ ¬ auth_tlv_expected .sha256 packet then (false, nbr, packet)
  else if ¬ sequence_newer (long 32 packet) nbr.crypt_seqnum then (false, nbr, packet)
  else
    match ei.key_get with
    | none => (false, nbr, packet)
    | some key =>
      let digest := lib.hmac_sha256 (hmac_key key (sha256_source lib ei (some nbr))) (cleared 32 packet)
      if window 44 32 packet = digest.1 then (true, { nbr with crypt_seqnum := long 32 packet }, restored 32 packet)
      else (false, nbr, restored 32 packet)

/-! ## A packet that goes out -/

/-- The checksum over the packet with zeros in its place. -/
def checksummed (packet : List UInt8) : List UInt8 :=
  splice 2 (stream_putw (checksum (splice 2 [0, 0] packet))) (splice 2 [0, 0] packet)

/-- `eigrp_auth_transmit_finalize`: the verdict, the interface and the packet. -/
def transmit_finalize (ei : Interface) (packet_length : UInt16) (packet : List UInt8) : Bool × Interface × List UInt8 :=
  if packet_length.toNat < header_len ∨ packet.length ≠ packet_length.toNat then (false, ei, packet)
  else
    match ei.auth_type with
    | .none => (true, ei, checksummed packet)
    | .text => (false, ei, packet)
    | auth_type =>
      if packet.length < header_len + auth_type.tlv_size ∨ ei.key_get = none then (false, ei, packet)
      else if word 20 packet ≠ tlv_auth ∨ (word 22 packet).toNat ≠ auth_type.tlv_size ∨ word 24 packet ≠ auth_type.code then
        (false, ei, packet)
      else
        let sequence := sequence_next ei.crypt_seqnum
        let next := { ei with crypt_seqnum := sequence }
        let numbered := splice 2 [0, 0] (splice 32 (stream_putl sequence) packet)
        let unsigned := splice 44 (List.replicate auth_type.digest_len 0) numbered
        let signed :=
          if auth_type = .md5 then make_md5_digest lib next unsigned (packet_auth_flags unsigned)
          else make_sha256_digest lib next unsigned
        match signed with
        | none => (false, next, unsigned)
        | some signed => (true, next, splice 2 (stream_putw (checksum signed)) signed)

/-! ## A packet that comes in -/

/-- The loop of `eigrp_packet_auth_tlv_lookup` from an offset on, with the offset of the last authentication TLV so far; none
    when a TLV is malformed. Every TLV takes octets, and there are `fuel` of them at most. -/
def tlv_lookup : Nat → Nat → List UInt8 → Option Nat → Option (Option Nat)
  | _, _, [], auth_tlv => some auth_tlv
  | 0, _, _, _ => none
  | fuel + 1, offset, rest, auth_tlv =>
    match tlv_header rest with
    | none => none
    | some (tlv_type, tlv_length) =>
      if tlv_length < tlv_hdr_size ∨ tlv_length > rest.length then none
      else
        tlv_lookup fuel (offset + tlv_length) (rest.drop tlv_length)
          (if tlv_type = tlv_auth then some offset else auth_tlv)

/-- `eigrp_packet_auth_tlv_lookup`; the TLV is first when its offset is that of the first TLV. -/
def auth_tlv_lookup (packet : List UInt8) : Option (Option Nat) :=
  if packet.length < header_len then none
  else tlv_lookup packet.length header_len (packet.drop header_len) none

/-- `eigrp_packet_auth_tlv_validate`. -/
def auth_tlv_validate (ei : Interface) (packet : List UInt8) (offset : Nat) : Bool :=
  let length := (word (offset + 2) packet).toNat
  if length < 40 then false
  else if word (offset + 4) packet ≠ ei.auth_type.code then false
  else
    match ei.auth_type with
    | .md5 => length == 40 && (word (offset + 6) packet).toNat == 16
    | .sha256 => length == 56 && (word (offset + 6) packet).toNat == 32
    | _ => false

/-- `eigrp_packet_auth_header_validate`. -/
def auth_header_validate (ei : Interface) (packet : List UInt8) : Bool :=
  match auth_tlv_lookup packet with
  | none => false
  | some auth_tlv =>
    if ei.auth_type = .none then auth_tlv.isNone
    else if ¬ ei.material_available then false
    else
      match auth_tlv with
      | none => false
      | some offset => offset == header_len && auth_tlv_validate ei packet offset

/-- `eigrp_packet_auth_digest_validate`: the verdict, the neighbor, which stands for a temporary one when the sender is
    unknown, and the copy of the packet that the check worked on. -/
def auth_digest_validate (ei : Interface) (nbr : Option Neighbor) (source : Source) (packet : List UInt8) :
    Bool × Neighbor × List UInt8 :=
  let peer := nbr.getD { src := source }
  if ei.auth_type = .none then (true, peer, packet)
  else if auth_tlv_lookup packet ≠ some (some header_len) then (false, peer, packet)
  else
    match ei.auth_type with
    | .sha256 => check_sha256_digest lib ei peer packet
    | .md5 => check_md5_digest lib ei peer packet (packet_auth_flags packet)
    | _ => (false, peer, packet)

end Digests

/-! ## Framing -/

/-- TLVs of any type but that of authentication, one behind the other. -/
def Plain (octets : List UInt8) : Prop :=
  ∃ frames : List FramedTlv, octets = frames.flatMap FramedTlv.bytes ∧ ∀ frame ∈ frames, frame.type ≠ tlv_auth

theorem plain_nil : Plain [] := ⟨[],rfl,fun _ none => absurd none List.not_mem_nil⟩

theorem tlv_lookup_cons (fuel offset : Nat) (first : UInt8) (octets : List UInt8) (auth_tlv : Option Nat) :
    tlv_lookup (fuel + 1) offset (first :: octets) auth_tlv =
      match tlv_header (first :: octets) with
      | none => none
      | some (tlv_type, tlv_length) =>
        if tlv_length < tlv_hdr_size ∨ tlv_length > (first :: octets).length then none
        else
          tlv_lookup fuel (offset + tlv_length) ((first :: octets).drop tlv_length)
            (if tlv_type = tlv_auth then some offset else auth_tlv) := by
  rw [tlv_lookup]
  exact List.cons_ne_nil first octets

theorem tlv_lookup_frame {fuel offset : Nat} {auth_tlv : Option Nat} (frame : FramedTlv) (rest : List UInt8) :
    tlv_lookup (fuel + 1) offset (frame.bytes ++ rest) auth_tlv =
      tlv_lookup fuel (offset + frame.length) rest (if frame.type = tlv_auth then some offset else auth_tlv) := by
  have long : ¬ (frame.length < tlv_hdr_size ∨ frame.length > (frame.bytes ++ rest).length) := by
    rw [List.length_append,frame.bytes_length]
    simp only [FramedTlv.length]
    omega
  have filled : frame.bytes ++ rest ≠ [] := by
    intro empty
    have none := congrArg List.length empty
    rw [List.length_append,frame.bytes_length] at none
    simp [FramedTlv.length,tlv_hdr_size] at none
  obtain ⟨first,octets,split⟩ := List.exists_cons_of_ne_nil filled
  rw [split,tlv_lookup_cons,← split,frame.header]
  simp only [long,if_false,frame.drop]

theorem tlv_lookup_plain (frames : List FramedTlv) (others : ∀ frame ∈ frames, frame.type ≠ tlv_auth) (auth_tlv : Option Nat) :
    ∀ fuel offset, (frames.flatMap FramedTlv.bytes).length ≤ fuel →
      tlv_lookup fuel offset (frames.flatMap FramedTlv.bytes) auth_tlv = some auth_tlv := by
  induction frames with
  | nil =>
    intro fuel offset _
    cases fuel <;> rfl
  | cons frame rest ih =>
    intro fuel offset enough
    rw [List.flatMap_cons] at enough ⊢
    have size := frame.bytes_length
    have long : tlv_hdr_size ≤ frame.length := by simp [FramedTlv.length]
    rw [List.length_append] at enough
    simp only [tlv_hdr_size] at long
    obtain ⟨fuel,rfl⟩ : ∃ less, fuel = less + 1 := ⟨fuel - 1,by omega⟩
    rw [tlv_lookup_frame,if_neg (others frame List.mem_cons_self)]
    exact ih (fun other found => others other (List.mem_cons_of_mem _ found)) fuel _ (by omega)

/-- The octets that the loop accepts are TLVs, and it has kept the last authentication TLV among them. -/
theorem tlv_lookup_sound {fuel offset : Nat} {rest : List UInt8} {auth_tlv found : Option Nat}
    (accepted : tlv_lookup fuel offset rest auth_tlv = some found) :
    Plain rest ∧ found = auth_tlv ∨ ∃ last, found = some last ∧ offset ≤ last := by
  induction fuel generalizing offset rest auth_tlv with
  | zero =>
    cases rest with
    | nil => exact .inl ⟨plain_nil,(Option.some.inj accepted).symm⟩
    | cons first rest => simp [tlv_lookup] at accepted
  | succ fuel ih =>
    cases rest with
    | nil => exact .inl ⟨plain_nil,(Option.some.inj accepted).symm⟩
    | cons first octets =>
      rw [tlv_lookup_cons] at accepted
      cases header : tlv_header (first :: octets) with
      | none => simp [header] at accepted
      | some value =>
        obtain ⟨type,length⟩ := value
        rw [header] at accepted
        simp only at accepted
        split at accepted
        · cases accepted
        · next fits =>
          obtain ⟨frame,typed,sized,bytes⟩ := framed_of_header header (by omega) (by omega)
          have split : frame.bytes ++ (first :: octets).drop length = first :: octets := by
            rw [bytes,List.take_append_drop]
          rcases ih accepted with ⟨⟨frames,flat,others⟩,same⟩ | ⟨last,same,behind⟩
          · by_cases auth : type = tlv_auth
            · rw [if_pos auth] at same
              exact .inr ⟨offset,same,le_rfl⟩
            · rw [if_neg auth] at same
              refine .inl ⟨⟨frame :: frames,?_,?_⟩,same⟩
              · rw [List.flatMap_cons,← flat,split]
              · intro other member
                rcases List.mem_cons.1 member with rfl | later
                · rw [typed]
                  exact auth
                · exact others other later
          · exact .inr ⟨last,same,by omega⟩

/-- The only authentication TLV of the packet comes first. -/
theorem auth_tlv_lookup_first {packet : List UInt8} :
    auth_tlv_lookup packet = some (some header_len) ↔
      ∃ (auth : FramedTlv) (rest : List UInt8), packet.drop header_len = auth.bytes ++ rest ∧ auth.type = tlv_auth ∧ Plain rest := by
  constructor
  · intro found
    unfold auth_tlv_lookup at found
    split at found
    · cases found
    · next enough =>
      generalize split : packet.drop header_len = octets at found
      cases octets with
      | nil => cases packet.length <;> simp [tlv_lookup] at found
      | cons first octets =>
        obtain ⟨fuel,more⟩ : ∃ fuel, packet.length = fuel + 1 := ⟨packet.length - 1,by simp only [header_len] at enough; omega⟩
        rw [more,tlv_lookup_cons] at found
        cases header : tlv_header (first :: octets) with
        | none => simp [header] at found
        | some value =>
          obtain ⟨type,length⟩ := value
          rw [header] at found
          simp only at found
          split at found
          · cases found
          · next fits =>
            obtain ⟨frame,typed,sized,bytes⟩ := framed_of_header header (by omega) (by omega)
            have whole : frame.bytes ++ (first :: octets).drop length = first :: octets := by
              rw [bytes,List.take_append_drop]
            refine ⟨frame,(first :: octets).drop length,whole.symm,?_⟩
            simp only [tlv_hdr_size] at fits
            rcases tlv_lookup_sound found with ⟨plain,same⟩ | ⟨last,same,behind⟩
            · by_cases auth : type = tlv_auth
              · exact ⟨typed.trans auth,plain⟩
              · rw [if_neg auth] at same
                cases same
            · cases same
              omega
  · rintro ⟨auth,rest,split,typed,frames,flat,others⟩
    have long : tlv_hdr_size ≤ auth.length := by simp [FramedTlv.length]
    have size := congrArg List.length split
    rw [List.length_append,List.length_drop,auth.bytes_length] at size
    simp only [tlv_hdr_size] at long
    have enough : ¬ packet.length < header_len := by omega
    obtain ⟨fuel,more⟩ : ∃ fuel, packet.length = fuel + 1 := ⟨packet.length - 1,by omega⟩
    rw [auth_tlv_lookup,if_neg enough,split,more,tlv_lookup_frame,if_pos typed,flat]
    refine tlv_lookup_plain frames others _ fuel _ ?_
    rw [← flat]
    omega

theorem auth_tlv_lookup_none {packet : List UInt8} (enough : header_len ≤ packet.length) :
    auth_tlv_lookup packet = some none ↔ Plain (packet.drop header_len) := by
  rw [auth_tlv_lookup,if_neg (by omega)]
  constructor
  · intro found
    rcases tlv_lookup_sound found with ⟨plain,_⟩ | ⟨last,same,_⟩
    · exact plain
    · cases same
  · rintro ⟨frames,flat,others⟩
    rw [flat]
    refine tlv_lookup_plain frames others none _ _ ?_
    rw [← flat,List.length_drop]
    omega

/-! ## The authentication TLV -/

section Fields
variable {packet : List UInt8}

theorem word_of_window {start : Nat} {value : UInt16} (there : window start 2 packet = stream_putw value) :
    word start packet = value := by
  have small := value.toNat_lt
  rw [word,there,stream_putw,number_put,Nat.mod_eq_of_lt (by simpa using small),UInt16.ofNat_toNat]

theorem window_of_word {start : Nat} (within : start + 2 ≤ packet.length) :
    window start 2 packet = stream_putw (word start packet) := by
  have size := window_length start 2 packet within
  have small := number_lt (window start 2 packet)
  have octets := put_number (window start 2 packet)
  rw [size] at small octets
  rw [stream_putw,word,UInt16.toNat_ofNat_of_lt' (by simpa using small),octets]

theorem tlv_header_word (enough : header_len + tlv_hdr_size ≤ packet.length) :
    tlv_header (packet.drop header_len) = some (word 20 packet, (word 22 packet).toNat) := by
  simp only [header_len,tlv_hdr_size] at enough
  have first : 2 ≤ (packet.drop header_len).length := by
    rw [List.length_drop,header_len]
    omega
  have second : 2 ≤ ((packet.drop header_len).drop 2).length := by
    rw [List.length_drop,List.length_drop,header_len]
    omega
  have length_window : ((packet.drop header_len).drop 2).take 2 = window 22 2 packet := by
    rw [List.drop_drop]
    rfl
  simp only [tlv_header,stream_getw,Lib.get,first,second,if_true,Option.map_some,Option.bind_eq_bind,Option.bind_some,
    length_window]
  rfl

/-- The packet has an authentication TLV of the type and its length in front of TLVs that are none. -/
def Authenticated (auth_type : AuthType) (packet : List UInt8) : Prop :=
  ∃ (auth : FramedTlv) (rest : List UInt8), packet.drop header_len = auth.bytes ++ rest ∧ auth.type = tlv_auth ∧
    auth.length = auth_type.tlv_size ∧
    auth.body.take 4 = stream_putw auth_type.code ++ stream_putw (UInt16.ofNat auth_type.digest_len) ∧ Plain rest

/-- The same in the fields at their places. -/
structure AuthFields (auth_type : AuthType) (packet : List UInt8) : Prop where
  type : word 20 packet = tlv_auth
  length : (word 22 packet).toNat = auth_type.tlv_size
  code : word 24 packet = auth_type.code
  auth_length : (word 26 packet).toNat = auth_type.digest_len
  rest : Plain (packet.drop (header_len + auth_type.tlv_size))

/-- The two modes that sign. -/
def AuthType.signs (auth_type : AuthType) : Prop := auth_type = .md5 ∨ auth_type = .sha256

theorem AuthType.signs.sizes {auth_type : AuthType} (signs : auth_type.signs) :
    40 ≤ auth_type.tlv_size ∧ auth_type.tlv_size = 24 + auth_type.digest_len ∧ auth_type.digest_len ≤ 32 ∧
      (UInt16.ofNat auth_type.digest_len).toNat = auth_type.digest_len := by
  rcases signs with rfl | rfl <;> decide

theorem authenticated_iff {auth_type : AuthType} (signs : auth_type.signs)
    (enough : header_len + auth_type.tlv_size ≤ packet.length) :
    Authenticated auth_type packet ↔ AuthFields auth_type packet := by
  obtain ⟨large,sum,_,narrow⟩ := signs.sizes
  simp only [header_len] at enough
  have header := @tlv_header_word packet (by simp only [header_len,tlv_hdr_size]; omega)
  constructor
  · rintro ⟨auth,rest,split,typed,sized,fields,plain⟩
    rw [split,auth.header] at header
    injection header with header
    have type := (congrArg Prod.fst header).symm
    have length := (congrArg Prod.snd header).symm
    dsimp only at type length
    have body : auth.body.length = auth_type.tlv_size - 4 := by
      simp only [FramedTlv.length,tlv_hdr_size] at sized
      omega
    have octets : auth.bytes ++ rest = (stream_putw auth.type ++ stream_putw (UInt16.ofNat auth.length)) ++ (auth.body ++ rest) := by
      simp [FramedTlv.bytes]
    have front : (stream_putw auth.type ++ stream_putw (UInt16.ofNat auth.length)).length = 4 := by simp [stream_putw]
    have behind : packet.drop 24 = auth.body ++ rest := by
      have dropped := congrArg (List.drop 4) split
      rw [octets,List.drop_left' front,List.drop_drop] at dropped
      exact dropped
    have four : (packet.drop 24).take 4 = stream_putw auth_type.code ++ stream_putw (UInt16.ofNat auth_type.digest_len) := by
      rw [behind,List.take_append_of_le_length (by omega),fields]
    have code : window 24 2 packet = stream_putw auth_type.code := by
      have taken := congrArg (List.take 2) four
      rw [List.take_take,List.take_left' (by simp [stream_putw])] at taken
      exact taken
    have digest : window 26 2 packet = stream_putw (UInt16.ofNat auth_type.digest_len) := by
      have dropped := congrArg (List.drop 2) four
      rw [List.drop_left' (by simp [stream_putw]),List.drop_take,List.drop_drop] at dropped
      exact dropped
    refine ⟨type.trans typed,length.trans sized,word_of_window code,?_,?_⟩
    · rw [word_of_window digest,narrow]
    · have dropped := congrArg (List.drop auth_type.tlv_size) split
      rw [← sized,auth.drop,List.drop_drop,sized] at dropped
      rw [dropped]
      exact plain
  · rintro ⟨type,length,code,digest,plain⟩
    obtain ⟨auth,typed,sized,bytes⟩ := framed_of_header header (by rw [length]; simp only [tlv_hdr_size]; omega)
      (by rw [length,List.length_drop,header_len]; omega)
    rw [length] at sized bytes
    have split : packet.drop header_len = auth.bytes ++ packet.drop (header_len + auth_type.tlv_size) := by
      rw [bytes,← List.drop_drop,List.take_append_drop]
    refine ⟨auth,_,split,typed.trans type,sized,?_,plain⟩
    have body : auth.body = (packet.drop 24).take (auth_type.tlv_size - 4) := by
      have taken := congrArg (List.drop 4) bytes
      have front : (stream_putw auth.type ++ stream_putw (UInt16.ofNat auth.length)).length = 4 := by simp [stream_putw]
      rw [FramedTlv.bytes,← List.append_assoc,List.drop_left' front,List.drop_take,List.drop_drop] at taken
      exact taken
    have four : auth.body.take 4 = window 24 2 packet ++ window 26 2 packet := by
      rw [body,List.take_take,min_eq_left (by omega),show 4 = 2 + 2 from rfl,List.take_add,List.drop_drop]
      rfl
    rw [four,window_of_word (by omega),window_of_word (by omega),code]
    congr 2
    refine UInt16.toNat.inj ?_
    rw [digest,narrow]

theorem auth_tlv_validate_iff {ei : Interface} (signs : ei.auth_type.signs) :
    auth_tlv_validate ei packet header_len = true ↔
      (word 22 packet).toNat = ei.auth_type.tlv_size ∧ word 24 packet = ei.auth_type.code ∧
        (word 26 packet).toNat = ei.auth_type.digest_len := by
  simp only [auth_tlv_validate,header_len]
  rcases signs with mode | mode
  · simp only [mode,AuthType.tlv_size,AuthType.code,AuthType.digest_len]
    by_cases short : (word 22 packet).toNat < 40
    · simp only [short,if_true]
      constructor
      · intro no
        cases no
      · rintro ⟨length,_⟩
        omega
    · simp [short,and_left_comm]
  · simp only [mode,AuthType.tlv_size,AuthType.code,AuthType.digest_len]
    by_cases short : (word 22 packet).toNat < 40
    · simp only [short,if_true]
      constructor
      · intro no
        cases no
      · rintro ⟨length,_⟩
        omega
    · simp [short,and_left_comm]

/-- Validation of the header of a packet on an authenticated interface. -/
theorem auth_header_validate_iff {ei : Interface} (signs : ei.auth_type.signs) (material : ei.material_available = true)
    (enough : header_len + ei.auth_type.tlv_size ≤ packet.length) :
    auth_header_validate ei packet = true ↔ Authenticated ei.auth_type packet := by
  have authenticated : ei.auth_type ≠ .none := by
    rcases signs with mode | mode <;> simp [mode]
  have lookup : auth_header_validate ei packet = true ↔
      auth_tlv_lookup packet = some (some header_len) ∧ auth_tlv_validate ei packet header_len = true := by
    unfold auth_header_validate
    cases found : auth_tlv_lookup packet with
    | none => simp
    | some auth_tlv =>
      cases auth_tlv with
      | none => simp [authenticated,material]
      | some offset =>
        by_cases first : offset = header_len
        · simp [authenticated,material,first]
        · simp [authenticated,material,first]
  rw [lookup,auth_tlv_validate_iff signs,authenticated_iff signs enough]
  constructor
  · rintro ⟨found,length,code,digest⟩
    obtain ⟨auth,rest,split,typed,plain⟩ := auth_tlv_lookup_first.1 found
    have header := @tlv_header_word packet (by
      obtain ⟨large,_⟩ := signs.sizes
      simp only [header_len,tlv_hdr_size] at enough ⊢
      omega)
    rw [split,auth.header] at header
    injection header with header
    have type := congrArg Prod.fst header
    have sized := congrArg Prod.snd header
    dsimp only at type sized
    refine ⟨type.symm.trans typed,length,code,digest,?_⟩
    rw [← List.drop_drop,split,← length,← sized,auth.drop]
    exact plain
  · intro fields
    obtain ⟨auth,rest,split,typed,_,_,plain⟩ := (authenticated_iff signs enough).2 fields
    exact ⟨auth_tlv_lookup_first.2 ⟨auth,rest,split,typed,plain⟩,fields.length,fields.code,fields.auth_length⟩

end Fields
/-! ## A signed packet -/

/-- What is signed: the packet with the sequence number, and with zeros for the checksum and the digest. -/
def unsigned (digest_len : Nat) (sequence : UInt32) (packet : List UInt8) : List UInt8 :=
  splice 44 (List.replicate digest_len 0) (splice 2 [0, 0] (splice 32 (stream_putl sequence) packet))

/-- What goes out: the digest in its place, and a checksum over the whole. -/
def signed (digest sum unsigned : List UInt8) : List UInt8 := splice 2 sum (splice 44 digest unsigned)

section Signed
variable {packet digest sum : List UInt8} {sequence : UInt32} {n : Nat}

theorem unsigned_length (within : 44 + n ≤ packet.length) : (unsigned n sequence packet).length = packet.length := by
  have number : (stream_putl sequence).length = 4 := by simp [stream_putl]
  have first : (splice 32 (stream_putl sequence) packet).length = packet.length := splice_length (by omega)
  have second : (splice 2 [0, 0] (splice 32 (stream_putl sequence) packet)).length = packet.length := by
    rw [splice_length (by simp only [List.length_cons,List.length_nil]; omega),first]
  rw [unsigned,splice_length (by rw [second,List.length_replicate]; exact within),second]

theorem unsigned_window (within : 44 + n ≤ packet.length) {place size : Nat} (behind : 4 ≤ place) (before : place + size ≤ 32) :
    window place size (unsigned n sequence packet) = window place size packet := by
  have number : (stream_putl sequence).length = 4 := by simp [stream_putl]
  have first : (splice 32 (stream_putl sequence) packet).length = packet.length := splice_length (by omega)
  have second : (splice 2 [0, 0] (splice 32 (stream_putl sequence) packet)).length = packet.length := by
    rw [splice_length (by simp only [List.length_cons,List.length_nil]; omega),first]
  rw [unsigned,window_splice_other (by rw [second,List.length_replicate]; exact within) (by omega),
    window_splice_other (by simp only [List.length_cons,List.length_nil]; omega)
      (by simp only [List.length_cons,List.length_nil]; omega),
    window_splice_other (by omega) (by omega)]

theorem signed_length (sized : digest.length = n) (summed : sum.length = 2) (within : 44 + n ≤ packet.length) :
    (signed digest sum (unsigned n sequence packet)).length = packet.length := by
  have length := @unsigned_length packet sequence n within
  have first : (splice 44 digest (unsigned n sequence packet)).length = packet.length := by
    rw [splice_length (by omega),length]
  rw [signed,splice_length (by omega),first]

theorem signed_window (sized : digest.length = n) (summed : sum.length = 2) (within : 44 + n ≤ packet.length) {place size : Nat}
    (behind : 4 ≤ place) (before : place + size ≤ 44) :
    window place size (signed digest sum (unsigned n sequence packet)) = window place size (unsigned n sequence packet) := by
  have length := @unsigned_length packet sequence n within
  have first : (splice 44 digest (unsigned n sequence packet)).length = packet.length := by
    rw [splice_length (by omega),length]
  rw [signed,window_splice_other (by omega) (by omega),window_splice_other (by omega) (by omega)]

theorem signed_drop (sized : digest.length = n) (summed : sum.length = 2) (within : 44 + n ≤ packet.length) :
    (signed digest sum (unsigned n sequence packet)).drop (44 + n) = packet.drop (44 + n) := by
  have number : (stream_putl sequence).length = 4 := by simp [stream_putl]
  have length := @unsigned_length packet sequence n within
  have first : (splice 44 digest (unsigned n sequence packet)).length = packet.length := by
    rw [splice_length (by omega),length]
  have numbered : (splice 32 (stream_putl sequence) packet).length = packet.length := splice_length (by omega)
  have summed_zero : (splice 2 [0, 0] (splice 32 (stream_putl sequence) packet)).length = packet.length := by
    rw [splice_length (by simp only [List.length_cons,List.length_nil]; omega),numbered]
  rw [signed,splice_drop (by omega) (by omega),splice_drop (by omega) (by omega),unsigned,
    splice_drop (by rw [summed_zero,List.length_replicate]; exact within) (by rw [List.length_replicate]),
    splice_drop (by simp only [List.length_cons,List.length_nil]; omega) (by simp only [List.length_cons,List.length_nil]; omega),
    splice_drop (by omega) (by omega)]

theorem signed_digest (sized : digest.length = n) (summed : sum.length = 2) (within : 44 + n ≤ packet.length) :
    window 44 n (signed digest sum (unsigned n sequence packet)) = digest := by
  have length := @unsigned_length packet sequence n within
  have first : (splice 44 digest (unsigned n sequence packet)).length = packet.length := by
    rw [splice_length (by omega),length]
  subst sized
  rw [signed,window_splice_other (by omega) (by omega),window_splice (by omega)]

theorem signed_sequence (sized : digest.length = n) (summed : sum.length = 2) (within : 44 + n ≤ packet.length) :
    long 32 (signed digest sum (unsigned n sequence packet)) = sequence := by
  have number : (stream_putl sequence).length = 4 := by simp [stream_putl]
  have numbered : (splice 32 (stream_putl sequence) packet).length = packet.length := splice_length (by omega)
  have summed_zero : (splice 2 [0, 0] (splice 32 (stream_putl sequence) packet)).length = packet.length := by
    rw [splice_length (by simp only [List.length_cons,List.length_nil]; omega),numbered]
  have there : window 32 4 (unsigned n sequence packet) = stream_putl sequence := by
    rw [unsigned,window_splice_other (by rw [summed_zero,List.length_replicate]; exact within) (by omega),
      window_splice_other (by simp only [List.length_cons,List.length_nil]; omega)
        (by simp only [List.length_cons,List.length_nil]; omega)]
    have read : window 32 (stream_putl sequence).length (splice 32 (stream_putl sequence) packet) = stream_putl sequence :=
      window_splice (by omega)
    rw [number] at read
    exact read
  have small := sequence.toNat_lt
  rw [long,signed_window sized summed within (by omega) (by omega),there,stream_putl,number_put,
    Nat.mod_eq_of_lt (by simpa using small),UInt32.ofNat_toNat]

/-- Without digest and checksum a signed packet is what was signed. -/
theorem cleared_signed (sized : digest.length = n) (summed : sum.length = 2) (within : 44 + n ≤ packet.length) :
    cleared n (signed digest sum (unsigned n sequence packet)) = unsigned n sequence packet := by
  have length := @unsigned_length packet sequence n within
  have first : (splice 44 digest (unsigned n sequence packet)).length = packet.length := by
    rw [splice_length (by omega),length]
  have zeros : (List.replicate n (0 : UInt8)).length = n := List.length_replicate
  have none : ([0, 0] : List UInt8).length = 2 := rfl
  have number : (stream_putl sequence).length = 4 := by simp [stream_putl]
  have numbered : (splice 32 (stream_putl sequence) packet).length = packet.length := splice_length (by omega)
  have summed_zero : (splice 2 [0, 0] (splice 32 (stream_putl sequence) packet)).length = packet.length := by
    rw [splice_length (by omega),numbered]
  rw [cleared,signed,splice_splice (by omega) (by omega),
    splice_comm (by rw [zeros,splice_length (by omega)]; omega) (by omega) (by omega),
    splice_splice (by omega) (by omega)]
  have digest_zero : splice 44 (List.replicate n 0) (unsigned n sequence packet) = unsigned n sequence packet := by
    rw [unsigned,splice_splice rfl (by omega)]
  rw [digest_zero]
  refine splice_window (by omega) ?_
  rw [unsigned,window_splice_other (by omega) (by omega)]
  exact window_splice (by omega)

/-- The check leaves the packet as it came. -/
theorem restored_eq (within : 44 + n ≤ packet.length) : restored n packet = packet := by
  have zeros : (List.replicate n (0 : UInt8)).length = n := List.length_replicate
  have none : ([0, 0] : List UInt8).length = 2 := rfl
  have digest := window_length 44 n packet within
  have saved := window_length 2 2 packet (by omega)
  have first : (splice 2 [0, 0] packet).length = packet.length := splice_length (by omega)
  have checksum_kept : splice 2 (window 2 2 packet) packet = packet := splice_window (by omega) (by rw [saved])
  have digest_kept : splice 44 (window 44 n packet) packet = packet := splice_window (by omega) (by rw [digest])
  rw [restored,cleared,splice_splice (by omega) (by omega),splice_comm (by omega) (by omega) (by omega),
    splice_splice (by omega) (by omega),checksum_kept,digest_kept]

end Signed
/-! ## Signing and checking -/

section Checking
variable {lib : Primitives} {packet key : List UInt8}

/-- The digest that both sides compute. -/
def digest_of (lib : Primitives) (auth_type : AuthType) (key source_ip packet : List UInt8) : Option (List UInt8) :=
  match auth_type with
  | .md5 => (md5_compute lib packet key (packet_auth_flags packet)).map Subtype.val
  | .sha256 => some (lib.hmac_sha256 (hmac_key key source_ip) packet).1
  | _ => none

theorem digest_of_length {auth_type : AuthType} {source_ip digest : List UInt8}
    (computed : digest_of lib auth_type key source_ip packet = some digest) : digest.length = auth_type.digest_len := by
  cases auth_type with
  | md5 =>
    obtain ⟨value,_,rfl⟩ := Option.map_eq_some_iff.1 computed
    exact value.2
  | sha256 =>
    cases computed
    exact (lib.hmac_sha256 _ _).2
  | none => cases computed
  | text => cases computed

theorem some_flag (packet : List UInt8) :
    packet_auth_flags packet &&& (basic_hello_flag ||| update_init_flag ||| update_flag) ≠ 0 := by
  unfold packet_auth_flags
  split
  · decide
  · split <;> decide

theorem digest_of_some {auth_type : AuthType} (signs : auth_type.signs) (source_ip : List UInt8)
    (within : header_len + auth_type.tlv_size ≤ packet.length) :
    ∃ digest, digest_of lib auth_type key source_ip packet = some digest := by
  rcases signs with rfl | rfl
  · have size : ¬ packet.length < header_len + 40 := not_lt.2 within
    simp only [digest_of,md5_compute,if_neg (not_or.2 ⟨size,some_flag packet⟩)]
    exact ⟨_,rfl⟩
  · exact ⟨_,rfl⟩

/-- Signing writes the digest into the packet. -/
theorem make_digest {ei : Interface} {sequence : UInt32} (signs : ei.auth_type.signs) (keyed : ei.key_get = some key)
    (within : header_len + ei.auth_type.tlv_size ≤ packet.length) :
    (if ei.auth_type = .md5 then make_md5_digest lib ei (unsigned ei.auth_type.digest_len sequence packet)
        (packet_auth_flags (unsigned ei.auth_type.digest_len sequence packet))
      else make_sha256_digest lib ei (unsigned ei.auth_type.digest_len sequence packet)) =
      (digest_of lib ei.auth_type key (lib.inet_ntop ei.address) (unsigned ei.auth_type.digest_len sequence packet)).map
        fun digest => splice 44 digest (unsigned ei.auth_type.digest_len sequence packet) := by
  obtain ⟨_,sum,_,_⟩ := signs.sizes
  have size : (unsigned ei.auth_type.digest_len sequence packet).length = packet.length := by
    refine unsigned_length ?_
    simp only [header_len] at within
    omega
  rcases signs with mode | mode
  · rw [mode] at size within ⊢
    have long : ¬ (unsigned AuthType.md5.digest_len sequence packet).length < header_len + 40 := by
      rw [size]
      exact not_lt.2 within
    rw [if_pos rfl,make_md5_digest,if_neg long,keyed]
    simp only [digest_of,Option.bind_eq_bind,Option.bind_some,Option.map_map]
    exact Option.map_eq_bind.symm
  · rw [mode] at size within ⊢
    have long : ¬ (unsigned AuthType.sha256.digest_len sequence packet).length < header_len + 56 := by
      rw [size]
      exact not_lt.2 within
    have room : 44 + 32 ≤ packet.length := within
    have numbered : (splice 2 [0, 0] (splice 32 (stream_putl sequence) packet)).length = packet.length := by
      have first : (splice 32 (stream_putl sequence) packet).length = packet.length := by
        refine splice_length ?_
        simp only [stream_putl,put_length]
        omega
      rw [splice_length (by rw [first]; simp only [List.length_cons,List.length_nil]; omega),first]
    have zero : splice 44 (List.replicate 32 0) (unsigned AuthType.sha256.digest_len sequence packet) =
        unsigned AuthType.sha256.digest_len sequence packet := by
      simp only [unsigned,AuthType.digest_len]
      exact splice_splice rfl (by rw [numbered,List.length_replicate]; exact room)
    rw [if_neg (by simp),make_sha256_digest,if_neg long,keyed]
    simp only [digest_of,Option.bind_eq_bind,Option.bind_some,Option.map_some,zero,sha256_source]

/-- What a packet was when an interface that signs could send it, and what it became. -/
structure Sent (lib : Primitives) (ei : Interface) (packet out key digest : List UInt8) : Prop where
  keyed : ei.key_get = some key
  within : header_len + ei.auth_type.tlv_size ≤ packet.length
  type : word 20 packet = tlv_auth
  length : (word 22 packet).toNat = ei.auth_type.tlv_size
  code : word 24 packet = ei.auth_type.code
  computed : digest_of lib ei.auth_type key (lib.inet_ntop ei.address)
    (unsigned ei.auth_type.digest_len (sequence_next ei.crypt_seqnum) packet) = some digest
  finalized : ∃ sum : List UInt8, sum.length = 2 ∧
    out = signed digest sum (unsigned ei.auth_type.digest_len (sequence_next ei.crypt_seqnum) packet)

/-- What an interface that signs asks of a queued packet. -/
structure Ready (ei : Interface) (packet_length : UInt16) (packet : List UInt8) : Prop where
  sized : ¬ (packet_length.toNat < header_len ∨ packet.length ≠ packet_length.toNat)
  keyed : ¬ (packet.length < header_len + ei.auth_type.tlv_size ∨ ei.key_get = none)
  fields : ¬ (word 20 packet ≠ tlv_auth ∨ (word 22 packet).toNat ≠ ei.auth_type.tlv_size ∨ word 24 packet ≠ ei.auth_type.code)

theorem transmit_finalize_ready {ei : Interface} {packet_length : UInt16} (signs : ei.auth_type.signs)
    (sent : (transmit_finalize lib ei packet_length packet).1 = true) : Ready ei packet_length packet := by
  by_cases sized : packet_length.toNat < header_len ∨ packet.length ≠ packet_length.toNat
  · rw [transmit_finalize,if_pos sized] at sent
    cases sent
  by_cases keyed : packet.length < header_len + ei.auth_type.tlv_size ∨ ei.key_get = none
  · rw [transmit_finalize,if_neg sized] at sent
    rcases signs with mode | mode <;> rw [mode] at sent keyed <;> simp only [if_pos keyed] at sent <;> cases sent
  by_cases fields : word 20 packet ≠ tlv_auth ∨ (word 22 packet).toNat ≠ ei.auth_type.tlv_size ∨ word 24 packet ≠ ei.auth_type.code
  · rw [transmit_finalize,if_neg sized] at sent
    rcases signs with mode | mode <;> rw [mode] at sent keyed fields <;> simp only [if_neg keyed,if_pos fields] at sent <;>
      cases sent
  exact ⟨sized,keyed,fields⟩

theorem transmit_finalize_signs {ei : Interface} {packet_length : UInt16} (signs : ei.auth_type.signs)
    (ready : Ready ei packet_length packet) :
    transmit_finalize lib ei packet_length packet =
      match (if ei.auth_type = .md5 then
          make_md5_digest lib { ei with crypt_seqnum := sequence_next ei.crypt_seqnum }
            (unsigned ei.auth_type.digest_len (sequence_next ei.crypt_seqnum) packet)
            (packet_auth_flags (unsigned ei.auth_type.digest_len (sequence_next ei.crypt_seqnum) packet))
        else make_sha256_digest lib { ei with crypt_seqnum := sequence_next ei.crypt_seqnum }
          (unsigned ei.auth_type.digest_len (sequence_next ei.crypt_seqnum) packet)) with
      | none => (false, { ei with crypt_seqnum := sequence_next ei.crypt_seqnum },
          unsigned ei.auth_type.digest_len (sequence_next ei.crypt_seqnum) packet)
      | some signed => (true, { ei with crypt_seqnum := sequence_next ei.crypt_seqnum },
          splice 2 (stream_putw (checksum signed)) signed) := by
  obtain ⟨sized,keyed,fields⟩ := ready
  rw [transmit_finalize,if_neg sized]
  rcases signs with mode | mode
  · rw [mode] at keyed fields ⊢
    simp only
    rw [if_neg keyed,if_neg fields]
    rfl
  · rw [mode] at keyed fields ⊢
    simp only
    rw [if_neg keyed,if_neg fields]
    rfl

theorem transmit_finalize_sent {ei : Interface} {packet_length : UInt16} (signs : ei.auth_type.signs)
    (ready : Ready ei packet_length packet) :
    ∃ key digest, Sent lib ei packet (transmit_finalize lib ei packet_length packet).2.2 key digest := by
  obtain ⟨long,keyed⟩ := not_or.1 ready.keyed
  obtain ⟨type,rest⟩ := not_or.1 ready.fields
  obtain ⟨length,code⟩ := not_or.1 rest
  obtain ⟨key,found⟩ := Option.ne_none_iff_exists'.1 keyed
  have within : header_len + ei.auth_type.tlv_size ≤ packet.length := not_lt.1 long
  obtain ⟨_,sum,_,_⟩ := signs.sizes
  have room : header_len + ei.auth_type.tlv_size ≤
      (unsigned ei.auth_type.digest_len (sequence_next ei.crypt_seqnum) packet).length := by
    rw [unsigned_length (by simp only [header_len] at within; omega)]
    exact within
  obtain ⟨digest,computed⟩ := @digest_of_some lib _ key _ signs (lib.inet_ntop ei.address) room
  have made := @make_digest lib packet key { ei with crypt_seqnum := sequence_next ei.crypt_seqnum }
    (sequence_next ei.crypt_seqnum) signs found within
  rw [transmit_finalize_signs signs ready]
  simp only at made
  rw [made,computed,Option.map_some]
  exact ⟨key,digest,found,within,not_not.1 type,not_not.1 length,not_not.1 code,computed,_,put_length 2 _,rfl⟩

theorem cleared_flags {n : Nat} (within : 44 + n ≤ packet.length) :
    packet_auth_flags (cleared n packet) = packet_auth_flags packet := by
  have zeros : (List.replicate n (0 : UInt8)).length = n := List.length_replicate
  have none : ([0, 0] : List UInt8).length = 2 := rfl
  have first : (splice 2 [0, 0] packet).length = packet.length := splice_length (by omega)
  have flags : window 4 4 (cleared n packet) = window 4 4 packet := by
    rw [cleared,window_splice_other (by omega) (by omega),window_splice_other (by omega) (by omega)]
  have code : opcode (cleared n packet) = opcode packet := by
    simp only [opcode,List.getD_eq_getElem?_getD,cleared]
    rw [splice_getElem? (by omega),if_pos (by omega),splice_getElem? (by omega),if_pos (by omega)]
  unfold packet_auth_flags long
  rw [flags,code]

/-- The check of a digest on an interface that signs. -/
theorem auth_digest_validate_eq {receiver : Interface} {nbr : Neighbor} {source : Source} (signs : receiver.auth_type.signs)
    (keyed : receiver.key_get = some key) (enough : header_len + receiver.auth_type.tlv_size ≤ packet.length)
    (first : auth_tlv_lookup packet = some (some header_len)) (expected : auth_tlv_expected receiver.auth_type packet = true)
    (newer : sequence_newer (long 32 packet) nbr.crypt_seqnum = true) :
    auth_digest_validate lib receiver (some nbr) source packet =
      if digest_of lib receiver.auth_type key (lib.inet_ntop nbr.src) (cleared receiver.auth_type.digest_len packet) =
        some (window 44 receiver.auth_type.digest_len packet) then (true, { nbr with crypt_seqnum := long 32 packet }, packet)
      else (false, nbr, packet) := by
  obtain ⟨_,sum,_,_⟩ := signs.sizes
  have within : 44 + receiver.auth_type.digest_len ≤ packet.length := by
    simp only [header_len] at enough
    omega
  have flags := cleared_flags within
  have kept := restored_eq within
  obtain ⟨digest,computed⟩ := @digest_of_some lib (cleared receiver.auth_type.digest_len packet) key _ signs
    (lib.inet_ntop nbr.src) (by
      have zeros : (List.replicate receiver.auth_type.digest_len (0 : UInt8)).length = receiver.auth_type.digest_len :=
        List.length_replicate
      have none : ([0, 0] : List UInt8).length = 2 := rfl
      have first : (splice 2 [0, 0] packet).length = packet.length := splice_length (by omega)
      rw [cleared,splice_length (by omega),first]
      exact enough)
  rw [computed,auth_digest_validate,if_neg (by rcases signs with mode | mode <;> simp [mode]),if_neg (by simp [first])]
  rcases signs with mode | mode
  · rw [mode] at enough expected computed flags kept ⊢
    obtain ⟨value,found,same⟩ := Option.map_eq_some_iff.1 computed
    rw [flags] at found
    have short : ¬ (packet.length < header_len + 40 ∨ ¬ auth_tlv_expected .md5 packet = true) := by
      simp only [expected,not_true,or_false]
      exact not_lt.2 enough
    simp only [Option.getD_some,check_md5_digest,if_neg short,newer,not_true,if_false,keyed]
    simp only [AuthType.digest_len] at found kept ⊢
    rw [found,← same]
    simp only [kept,Option.some.injEq,eq_comm]
  · rw [mode] at enough expected computed kept ⊢
    have same := Option.some.inj computed
    have short : ¬ (packet.length < header_len + 56 ∨ ¬ auth_tlv_expected .sha256 packet = true) := by
      simp only [expected,not_true,or_false]
      exact not_lt.2 enough
    simp only [Option.getD_some,check_sha256_digest,if_neg short,newer,not_true,if_false,keyed]
    simp only [AuthType.digest_len,sha256_source] at same kept ⊢
    simp only [same,kept,Option.some.injEq,eq_comm]

/-- Both checks take the packet, and what the check leaves behind is the packet. -/
structure Accepted (lib : Primitives) (receiver : Interface) (nbr : Neighbor) (source : Source) (packet : List UInt8) : Prop where
  header : auth_header_validate receiver packet = true
  digest : (auth_digest_validate lib receiver (some nbr) source packet).1 = true
  kept : (auth_digest_validate lib receiver (some nbr) source packet).2.2 = packet

/-- The packet was queued for the mode in which it goes out, and the sender signs for the address that it sends from. -/
structure Template (inet_ntop : Source → List UInt8) (ei : Interface) (source : Source) (packet : List UInt8) : Prop where
  rest : Plain (packet.drop (header_len + ei.auth_type.tlv_size))
  auth_length : ei.auth_type ≠ .none → (word 26 packet).toNat = ei.auth_type.digest_len
  address : ei.auth_type = .sha256 → inet_ntop source = inet_ntop ei.address

theorem Interface.material_of_key {ei : Interface} (keyed : ei.key_get = some key) : ei.material_available = true := by
  unfold Interface.key_get at keyed
  unfold Interface.material_available
  cases password : ei.auth_password with
  | some value => rfl
  | none =>
    cases keychain : ei.auth_keychain with
    | some value => rfl
    | none =>
      rw [password,keychain] at keyed
      cases mode : ei.auth_type <;> rw [mode] at keyed <;> cases keyed

theorem Sent.fields_iff {ei : Interface} {out digest : List UInt8} (signs : ei.auth_type.signs)
    (sent : Sent lib ei packet out key digest) :
    AuthFields ei.auth_type out ↔
      (word 26 packet).toNat = ei.auth_type.digest_len ∧ Plain (packet.drop (header_len + ei.auth_type.tlv_size)) := by
  obtain ⟨_,sum,_,_⟩ := signs.sizes
  obtain ⟨octets,summed,rfl⟩ := sent.finalized
  have sized := digest_of_length sent.computed
  have room := sent.within
  have within : 44 + ei.auth_type.digest_len ≤ packet.length := by
    simp only [header_len] at room
    omega
  have same {place : Nat} (behind : 4 ≤ place) (before : place + 2 ≤ 32) :
      word place (signed digest octets (unsigned ei.auth_type.digest_len (sequence_next ei.crypt_seqnum) packet)) =
        word place packet := by
    rw [word,signed_window sized summed within behind (by omega),unsigned_window within behind before,word]
  have behind := @signed_drop packet digest octets (sequence_next ei.crypt_seqnum) _ sized summed within
  rw [show 44 + ei.auth_type.digest_len = header_len + ei.auth_type.tlv_size by simp only [header_len]; omega] at behind
  constructor
  · rintro ⟨_,_,_,length,rest⟩
    rw [same (by omega) (by omega)] at length
    rw [behind] at rest
    exact ⟨length,rest⟩
  · rintro ⟨length,rest⟩
    refine ⟨?_,?_,?_,?_,?_⟩
    · rw [same (by omega) (by omega)]
      exact sent.type
    · rw [same (by omega) (by omega)]
      exact sent.length
    · rw [same (by omega) (by omega)]
      exact sent.code
    · rw [same (by omega) (by omega)]
      exact length
    · rw [behind]
      exact rest

theorem Sent.length_eq {ei : Interface} {out digest : List UInt8} (signs : ei.auth_type.signs)
    (sent : Sent lib ei packet out key digest) : out.length = packet.length := by
  obtain ⟨_,sum,_,_⟩ := signs.sizes
  obtain ⟨octets,summed,rfl⟩ := sent.finalized
  have room := sent.within
  refine signed_length (digest_of_length sent.computed) summed ?_
  simp only [header_len] at room
  omega

/-- Whether a signed packet is accepted depends on the framing behind its TLV and on the address for which it was signed. -/
theorem Sent.accepted_iff {sender receiver : Interface} {nbr : Neighbor} {source : Source} {out digest : List UInt8}
    (signs : sender.auth_type.signs) (sent : Sent lib sender packet out key digest)
    (same_mode : receiver.auth_type = sender.auth_type) (same_key : receiver.key_get = sender.key_get)
    (newer : sequence_newer (sequence_next sender.crypt_seqnum) nbr.crypt_seqnum = true) :
    Accepted lib receiver nbr source out ↔
      ((word 26 packet).toNat = sender.auth_type.digest_len ∧ Plain (packet.drop (header_len + sender.auth_type.tlv_size))) ∧
        digest_of lib sender.auth_type key (lib.inet_ntop nbr.src)
          (unsigned sender.auth_type.digest_len (sequence_next sender.crypt_seqnum) packet) =
        digest_of lib sender.auth_type key (lib.inet_ntop sender.address)
          (unsigned sender.auth_type.digest_len (sequence_next sender.crypt_seqnum) packet) := by
  have keyed : receiver.key_get = some key := same_key.trans sent.keyed
  have receiver_signs : receiver.auth_type.signs := by
    rw [same_mode]
    exact signs
  have room : header_len + sender.auth_type.tlv_size ≤ out.length := by
    rw [sent.length_eq signs]
    exact sent.within
  have enough : header_len + receiver.auth_type.tlv_size ≤ out.length := by
    rw [same_mode]
    exact room
  have header : auth_header_validate receiver out = true ↔ AuthFields sender.auth_type out := by
    rw [auth_header_validate_iff receiver_signs (Interface.material_of_key keyed) enough,same_mode,authenticated_iff signs room]
  have check (fields : AuthFields sender.auth_type out) :
      auth_digest_validate lib receiver (some nbr) source out =
        if digest_of lib sender.auth_type key (lib.inet_ntop nbr.src)
            (unsigned sender.auth_type.digest_len (sequence_next sender.crypt_seqnum) packet) =
          digest_of lib sender.auth_type key (lib.inet_ntop sender.address)
            (unsigned sender.auth_type.digest_len (sequence_next sender.crypt_seqnum) packet)
        then (true, { nbr with crypt_seqnum := sequence_next sender.crypt_seqnum }, out) else (false, nbr, out) := by
    obtain ⟨auth,rest,split,typed,_,_,plain⟩ := (authenticated_iff signs room).2 fields
    have first : auth_tlv_lookup out = some (some header_len) := auth_tlv_lookup_first.2 ⟨auth,rest,split,typed,plain⟩
    have expected : auth_tlv_expected receiver.auth_type out = true := by
      simp [auth_tlv_expected,same_mode,fields.type,fields.length,fields.code,fields.auth_length]
    obtain ⟨_,sum,_,_⟩ := signs.sizes
    obtain ⟨octets,summed,rfl⟩ := sent.finalized
    have sized := digest_of_length sent.computed
    have within : 44 + sender.auth_type.digest_len ≤ packet.length := by
      have room := sent.within
      simp only [header_len] at room
      omega
    have sequence := @signed_sequence packet digest octets (sequence_next sender.crypt_seqnum) _ sized summed within
    rw [auth_digest_validate_eq receiver_signs keyed enough first expected (by rw [sequence]; exact newer),same_mode,
      cleared_signed sized summed within,signed_digest sized summed within,sequence,sent.computed]
  constructor
  · rintro ⟨headed,verified,_⟩
    have fields := header.1 headed
    refine ⟨(sent.fields_iff signs).1 fields,?_⟩
    rw [check fields] at verified
    by_contra other
    rw [if_neg other] at verified
    cases verified
  · rintro ⟨framed,same⟩
    have fields := (sent.fields_iff signs).2 framed
    refine ⟨header.2 fields,?_,?_⟩
    · rw [check fields,if_pos same]
    · rw [check fields,if_pos same]

/-- In a mode without authentication the packet is accepted as it is when it has no authentication TLV. -/
theorem plain_accepted_iff {receiver : Interface} {nbr : Neighbor} {source : Source} (unsigned : receiver.auth_type = .none)
    (enough : header_len ≤ packet.length) :
    Accepted lib receiver nbr source packet ↔ Plain (packet.drop header_len) := by
  have header : auth_header_validate receiver packet = true ↔ auth_tlv_lookup packet = some none := by
    unfold auth_header_validate
    cases auth_tlv_lookup packet with
    | none => simp
    | some auth_tlv => cases auth_tlv <;> simp [unsigned]
  rw [← auth_tlv_lookup_none enough,← header]
  constructor
  · exact fun accepted => accepted.header
  · intro headed
    refine ⟨headed,?_,?_⟩ <;> rw [auth_digest_validate,if_pos unsigned]

theorem checksummed_length (enough : header_len ≤ packet.length) : (checksummed packet).length = packet.length := by
  simp only [header_len] at enough
  have none : ([0, 0] : List UInt8).length = 2 := rfl
  have first : (splice 2 [0, 0] packet).length = packet.length := splice_length (by omega)
  rw [checksummed,splice_length (by simp only [stream_putw,put_length]; omega),first]

theorem checksummed_drop (enough : header_len ≤ packet.length) :
    (checksummed packet).drop header_len = packet.drop header_len := by
  simp only [header_len] at enough ⊢
  have none : ([0, 0] : List UInt8).length = 2 := rfl
  have first : (splice 2 [0, 0] packet).length = packet.length := splice_length (by omega)
  rw [checksummed,splice_drop (by simp only [stream_putw,put_length]; omega) (by simp [stream_putw]),
    splice_drop (by omega) (by omega)]

/-- The headers that validation lets through. -/
theorem auth_header_validate_sound {ei : Interface} (valid : auth_header_validate ei packet = true) :
    if ei.auth_type = .none then Plain (packet.drop header_len) else Authenticated ei.auth_type packet := by
  unfold auth_header_validate at valid
  cases found : auth_tlv_lookup packet with
  | none =>
    rw [found] at valid
    cases valid
  | some auth_tlv =>
    rw [found] at valid
    simp only at valid
    have enough : header_len ≤ packet.length := by
      by_contra short
      rw [auth_tlv_lookup,if_pos (by omega)] at found
      cases found
    by_cases mode : ei.auth_type = .none
    · rw [if_pos mode] at valid ⊢
      rw [Option.isNone_iff_eq_none.1 valid] at found
      exact (auth_tlv_lookup_none enough).1 found
    · rw [if_neg mode] at valid ⊢
      split at valid
      · cases valid
      · cases auth_tlv with
        | none => cases valid
        | some offset =>
          obtain ⟨place,fields⟩ := Bool.and_eq_true_iff.1 valid
          obtain rfl := beq_iff_eq.1 place
          have signs : ei.auth_type.signs := by
            unfold auth_tlv_validate at fields
            cases type : ei.auth_type with
            | none => exact absurd type mode
            | text => simp [type] at fields
            | md5 => exact .inl rfl
            | sha256 => exact .inr rfl
          obtain ⟨length,code,digest⟩ := (auth_tlv_validate_iff signs).1 fields
          obtain ⟨auth,rest,split,typed,plain⟩ := auth_tlv_lookup_first.1 found
          obtain ⟨large,_⟩ := signs.sizes
          have size := congrArg List.length split
          rw [List.length_append,List.length_drop,auth.bytes_length] at size
          have sized : auth.length = ei.auth_type.tlv_size := by
            have four : tlv_hdr_size ≤ auth.length := by simp [FramedTlv.length]
            have header := @tlv_header_word packet (by omega)
            rw [split,auth.header] at header
            injection header with header
            exact (congrArg Prod.snd header).trans length
          have room : header_len + ei.auth_type.tlv_size ≤ packet.length := by omega
          refine (authenticated_iff signs room).2 ⟨?_,length,code,digest,?_⟩
          · have header := @tlv_header_word packet (by simp only [header_len,tlv_hdr_size] at room ⊢; omega)
            rw [split,auth.header] at header
            injection header with header
            exact (congrArg Prod.fst header).symm.trans typed
          · rw [← List.drop_drop,split,← sized,auth.drop]
            exact plain

/-- Every packet that goes out is accepted, whatever the digests are, exactly when it was queued for the mode in which it
    goes out; and validation of a header lets nothing else through. -/
theorem signed_accepted_iff {inet_ntop : Source → List UInt8} {md5 hmac_sha256} {sender receiver : Interface} {nbr : Neighbor}
    {source : Source} {packet_length : UInt16} {packet : List UInt8}
    (sent : (transmit_finalize ⟨md5,hmac_sha256,inet_ntop⟩ sender packet_length packet).1 = true)
    (same_mode : receiver.auth_type = sender.auth_type) (same_key : receiver.key_get = sender.key_get)
    (known : nbr.src = source) (newer : sequence_newer (sequence_next sender.crypt_seqnum) nbr.crypt_seqnum = true) :
    ((∀ md5 hmac_sha256, Accepted ⟨md5,hmac_sha256,inet_ntop⟩ receiver nbr source
        (transmit_finalize ⟨md5,hmac_sha256,inet_ntop⟩ sender packet_length packet).2.2) ↔
      Template inet_ntop sender source packet) ∧
    ∀ (ei : Interface) (packet : List UInt8), auth_header_validate ei packet = true →
      if ei.auth_type = .none then Plain (packet.drop header_len) else Authenticated ei.auth_type packet := by
  refine ⟨?_,fun ei packet => auth_header_validate_sound⟩
  subst known
  by_cases unsigned : sender.auth_type = .none
  · have enough : ¬ (packet_length.toNat < header_len ∨ packet.length ≠ packet_length.toNat) := by
      intro short
      rw [transmit_finalize,if_pos short] at sent
      cases sent
    have out (md5 hmac_sha256) : (transmit_finalize ⟨md5,hmac_sha256,inet_ntop⟩ sender packet_length packet).2.2 =
        checksummed packet := by
      rw [transmit_finalize,if_neg enough,unsigned]
    have room : header_len ≤ packet.length := by omega
    have taken (md5 hmac_sha256) : Accepted ⟨md5,hmac_sha256,inet_ntop⟩ receiver nbr nbr.src
        (transmit_finalize ⟨md5,hmac_sha256,inet_ntop⟩ sender packet_length packet).2.2 ↔ Plain (packet.drop header_len) := by
      rw [out,plain_accepted_iff (same_mode.trans unsigned) (by rw [checksummed_length room]; exact room),
        checksummed_drop room]
    constructor
    · intro accepted
      refine ⟨?_,fun signs => absurd unsigned signs,?_⟩
      · rw [unsigned]
        exact (taken md5 hmac_sha256).1 (accepted md5 hmac_sha256)
      · intro mode
        rw [unsigned] at mode
        cases mode
    · intro template md5 hmac_sha256
      have rest := template.rest
      rw [unsigned] at rest
      exact (taken md5 hmac_sha256).2 rest
  have signs : sender.auth_type.signs := by
    cases mode : sender.auth_type with
    | none => exact absurd mode unsigned
    | text =>
      rw [transmit_finalize,mode] at sent
      split at sent <;> cases sent
    | md5 => exact .inl rfl
    | sha256 => exact .inr rfl
  have ready := transmit_finalize_ready signs sent
  constructor
  · intro accepted
    obtain ⟨key,digest,was⟩ := @transmit_finalize_sent ⟨md5,hmac_sha256,inet_ntop⟩ packet sender packet_length signs ready
    obtain ⟨⟨length,rest⟩,_⟩ := (was.accepted_iff signs same_mode same_key newer).1 (accepted md5 hmac_sha256)
    refine ⟨rest,fun _ => length,?_⟩
    intro mode
    by_contra other
    -- a digest that tells the two addresses apart
    let zeros : { digest : List UInt8 // digest.length = 32 } := ⟨List.replicate 32 0,rfl⟩
    let ones : { digest : List UInt8 // digest.length = 32 } := ⟨List.replicate 32 1,rfl⟩
    let hmac (octets _ : List UInt8) := if octets = hmac_key key (inet_ntop nbr.src) then zeros else ones
    obtain ⟨found,digest,was'⟩ := @transmit_finalize_sent ⟨md5,hmac,inet_ntop⟩ packet sender packet_length signs ready
    obtain rfl : found = key := Option.some.inj (was'.keyed.symm.trans was.keyed)
    obtain ⟨_,same⟩ := (was'.accepted_iff signs same_mode same_key newer).1 (accepted md5 hmac)
    have differ : hmac_key found (inet_ntop sender.address) ≠ hmac_key found (inet_ntop nbr.src) := by
      intro equal
      exact other (List.append_cancel_left (List.cons.inj equal).2).symm
    simp only [mode,digest_of,hmac,if_neg differ,if_true,Option.some.injEq] at same
    exact absurd same (by decide)
  · intro template md5 hmac_sha256
    obtain ⟨key,digest,was⟩ := @transmit_finalize_sent ⟨md5,hmac_sha256,inet_ntop⟩ packet sender packet_length signs ready
    refine (was.accepted_iff signs same_mode same_key newer).2 ⟨⟨template.auth_length unsigned,template.rest⟩,?_⟩
    rcases signs with mode | mode
    · rw [mode]
      rfl
    · have address := template.address mode
      simp only [address]

end Checking

/-- An UPDATE queued for MD5, with zeros for the sequence number and the digest. -/
def queued_update : List UInt8 :=
  [2, 1, 0, 0] ++ ([0, 0, 0, 0] ++ ([0, 0, 0, 1] ++ ([0, 0, 0, 0] ++ ([0, 0, 0, 100] ++
    ([0, 2, 0, 40, 0, 2, 0, 16] ++ List.replicate 32 0)))))

/-- The dotted text of an IPv4 address. -/
def Source.text (source : Source) : List UInt8 :=
  (String.intercalate "." ((put 4 source.address.toNat).map fun octet => toString octet.toNat)).toUTF8.toList

def router : Interface :=
  { auth_type := .md5, auth_keychain := some (some [107, 101, 121]), address := ⟨.ipv4,0x0a000001⟩, crypt_seqnum := 6 }
def peer : Neighbor := { src := ⟨.ipv4,0x0a000001⟩, crypt_seqnum := 6 }
def digests : Primitives :=
  { md5 := fun _ => ⟨List.replicate 16 7,rfl⟩
    hmac_sha256 := fun _ _ => ⟨List.replicate 32 7,rfl⟩
    inet_ntop := Source.text }

theorem queued_update_accepted : Accepted digests router peer peer.src (transmit_finalize digests router 60 queued_update).2.2 :=
  (@signed_accepted_iff Source.text digests.md5 digests.hmac_sha256 router router peer peer.src 60 queued_update (by decide)
    rfl rfl rfl (by decide)).1.2 ⟨plain_nil,by decide,by decide⟩ digests.md5 digests.hmac_sha256

/-- Authentication is switched off before the UPDATE goes out: it leaves with the TLV that it was queued with, and a
    router without authentication refuses it. -/
theorem queued_update_refused : (transmit_finalize digests { router with auth_type := .none } 60 queued_update).1 = true ∧
    sequence_newer (sequence_next router.crypt_seqnum) peer.crypt_seqnum = true ∧
    ¬ Accepted digests { router with auth_type := .none } peer peer.src
      (transmit_finalize digests { router with auth_type := .none } 60 queued_update).2.2 := by
  refine ⟨by decide,by decide,?_⟩
  intro accepted
  exact absurd accepted.header (by decide)

end Eigrp.Auth
