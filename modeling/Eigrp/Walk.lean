import Eigrp.System
import Eigrp.Tlv

/-!
# Walks over received packets

The loops of the five receive functions over the octets behind a packet header. UPDATE, QUERY and REPLY pass
over a TLV that their decoder returns no route for; the two SIA loops end there. A walk is parameterised by
what it does with a route; run with a log it tells which routes it applied.
-/

namespace Eigrp

/-- A decoder that consumes input on every call. -/
structure Decoder where
  decode : List UInt8 → Option Tlv × List UInt8
  consumes : ∀ {pkt : List UInt8}, pkt ≠ [] → (decode pkt).2.length < pkt.length

/-- The decoder that a neighbor is read with. -/
def Codec.reader (codec : Codec) (afi : Afi) (src : Address) : Decoder :=
  ⟨codec.decoder afi src,fun more => codec.decoder_consumes afi src more⟩

/-! ## The five loops -/

section Loops
variable {σ : Type} (decoder : Decoder) (limit_cleanup_pending : σ → Bool) (apply : Tlv → σ → σ)

/-- A loop that goes on behind a TLV without a route, unless the decoder has consumed nothing. -/
def skipping_walk (pkt : List UInt8) (state : σ) : σ :=
  if _ended : pkt = [] ∨ limit_cleanup_pending state then state
  else
    let rest := (decoder.decode pkt).2
    match (decoder.decode pkt).1 with
    | none => if rest.length = pkt.length then state else skipping_walk rest state
    | some route => skipping_walk rest (apply route state)
termination_by pkt.length
decreasing_by all_goals exact decoder.consumes (not_or.1 _ended).1

/-- A loop that ends at a TLV without a route. -/
def breaking_walk (pkt : List UInt8) (state : σ) : σ :=
  if _ended : pkt = [] then state
  else
    let rest := (decoder.decode pkt).2
    match (decoder.decode pkt).1 with
    | none => state
    | some route => breaking_walk rest (apply route state)
termination_by pkt.length
decreasing_by exact decoder.consumes _ended

/-- The loop of `eigrp_update_receive`; the replay of an accepted INIT is acknowledged before it. -/
def update_walk (replay : Bool) (pkt : List UInt8) (state : σ) : σ :=
  if replay then state else skipping_walk decoder limit_cleanup_pending apply pkt state

/-- The loop of `eigrp_query_receive`. -/
def query_walk (pkt : List UInt8) (state : σ) : σ := skipping_walk decoder limit_cleanup_pending apply pkt state

/-- The loop of `eigrp_reply_receive`. -/
def reply_walk (pkt : List UInt8) (state : σ) : σ := skipping_walk decoder (fun _ => false) apply pkt state

/-- The loop of `eigrp_siaquery_receive`. -/
def siaquery_walk (pkt : List UInt8) (state : σ) : σ := breaking_walk decoder apply pkt state

/-- The loop of `eigrp_siareply_receive`. -/
def siareply_walk (pkt : List UInt8) (state : σ) : σ := breaking_walk decoder apply pkt state

def receive_walk (opcode : Opcode) (replay : Bool) (pkt : List UInt8) (state : σ) : σ :=
  match opcode with
  | .update => update_walk decoder limit_cleanup_pending apply replay pkt state
  | .query => query_walk decoder limit_cleanup_pending apply pkt state
  | .reply => reply_walk decoder apply pkt state
  | .siaquery => siaquery_walk decoder apply pkt state
  | .siareply => siareply_walk decoder apply pkt state

end Loops

/-! ## Walks over framed TLVs -/

section Framed
variable {σ : Type} (codec : Codec) (afi : Afi) (src : Address)
variable (limit_cleanup_pending : σ → Bool) (apply : Tlv → σ → σ)

def packet_bytes (frames : List FramedTlv) : List UInt8 := frames.flatMap FramedTlv.bytes

def Verdict.tlv : Verdict → Option Tlv
  | .route tlv => some tlv
  | _ => none

/-- The TLVs a decoder is called for before it gives up the packet. -/
def Codec.seen (frames : List FramedTlv) : List FramedTlv := frames.takeWhile (codec.verdict afi src · ≠ .abort)

/-- The route TLVs of a packet that the decoder accepts, in order. -/
def Codec.accepted (frames : List FramedTlv) : List Tlv :=
  (codec.seen afi src frames).filterMap fun frame => (codec.verdict afi src frame).tlv

/-- The accepted route TLVs in front of the first TLV that gives none. -/
def Codec.leading : List FramedTlv → List Tlv
  | [] => []
  | frame :: frames =>
    match codec.verdict afi src frame with
    | .route tlv => tlv :: Codec.leading frames
    | _ => []

/-- Routes applied one after the other until the limit of the neighbor is reached. -/
def apply_limited : List Tlv → σ → σ
  | [], state => state
  | tlv :: tlvs, state => if limit_cleanup_pending state then state else apply_limited tlvs (apply tlv state)

theorem apply_limited_pending {state : σ} (full : limit_cleanup_pending state) (tlvs : List Tlv) :
    apply_limited limit_cleanup_pending apply tlvs state = state := by
  cases tlvs with
  | nil => rfl
  | cons tlv tlvs => simp [apply_limited,full]

theorem FramedTlv.bytes_ne_nil (frame : FramedTlv) (rest : List UInt8) : frame.bytes ++ rest ≠ [] := by
  have length := frame.bytes_length
  intro empty
  rw [(List.append_eq_nil_iff.1 empty).1] at length
  simp [FramedTlv.length,tlv_hdr_size] at length
  omega

theorem skipping_walk_frames (frames : List FramedTlv) (state : σ) :
    skipping_walk (codec.reader afi src) limit_cleanup_pending apply (packet_bytes frames) state =
      apply_limited limit_cleanup_pending apply (codec.accepted afi src frames) state := by
  induction frames generalizing state with
  | nil => unfold skipping_walk; simp [packet_bytes,Codec.accepted,Codec.seen,apply_limited]
  | cons frame frames ih =>
    have decoded : (codec.reader afi src).decode (packet_bytes (frame :: frames)) =
        (codec.verdict afi src frame).result (packet_bytes frames) := codec.decoder_frame frame _ afi src
    have more : packet_bytes (frame :: frames) ≠ [] := frame.bytes_ne_nil _
    by_cases full : limit_cleanup_pending state
    · rw [skipping_walk, dif_pos (.inr full), apply_limited_pending _ _ full]
    · rw [skipping_walk, dif_neg (by simp [more,full])]
      have shorter := (codec.reader afi src).consumes more
      rw [decoded] at shorter ⊢
      cases verdict : codec.verdict afi src frame with
      | route tlv =>
        simp only [Verdict.result,ih]
        simp [Codec.accepted,Codec.seen,verdict,Verdict.tlv,apply_limited,full]
      | skip =>
        have shorter : (packet_bytes frames).length < (packet_bytes (frame :: frames)).length := by
          simpa [verdict,Verdict.result] using shorter
        refine (if_neg shorter.ne).trans ((ih state).trans ?_)
        simp [Codec.accepted,Codec.seen,verdict,Verdict.tlv]
      | abort =>
        have ended (state : σ) : skipping_walk (codec.reader afi src) limit_cleanup_pending apply [] state = state := by
          rw [skipping_walk, dif_pos (.inl rfl)]
        simp [Verdict.result,ended,Codec.accepted,Codec.seen,verdict,apply_limited]

theorem breaking_walk_frames (frames : List FramedTlv) (state : σ) :
    breaking_walk (codec.reader afi src) apply (packet_bytes frames) state =
      (codec.leading afi src frames).foldl (fun state tlv => apply tlv state) state := by
  induction frames generalizing state with
  | nil => unfold breaking_walk; simp [packet_bytes,Codec.leading]
  | cons frame frames ih =>
    have decoded : (codec.reader afi src).decode (packet_bytes (frame :: frames)) =
        (codec.verdict afi src frame).result (packet_bytes frames) := codec.decoder_frame frame _ afi src
    have more : packet_bytes (frame :: frames) ≠ [] := frame.bytes_ne_nil _
    rw [breaking_walk, dif_neg more, decoded]
    cases verdict : codec.verdict afi src frame with
    | route tlv => simp [Verdict.result,ih,Codec.leading,verdict]
    | skip => simp [Verdict.result,Codec.leading,verdict]
    | abort => simp [Verdict.result,Codec.leading,verdict]

end Framed

/-! ## The routes that a walk applies -/

section Applied
variable {σ : Type} (decoder : Decoder) (limit_cleanup_pending : σ → Bool) (apply : Tlv → σ → σ)

/-- Apply a route and write it down. -/
def apply_logged (tlv : Tlv) (state : σ × List Tlv) : σ × List Tlv := (apply tlv state.1, state.2 ++ [tlv])

/-- The route TLVs that the receive function of an opcode applies, in order. -/
def tlvs_applied (opcode : Opcode) (replay : Bool) (pkt : List UInt8) (state : σ) : List Tlv :=
  (receive_walk decoder (fun state : σ × List Tlv => limit_cleanup_pending state.1) (apply_logged apply)
    opcode replay pkt (state, [])).2

theorem skipping_walk_logged (pkt : List UInt8) (state : σ) (done : List Tlv) :
    ∃ log, skipping_walk decoder (fun state : σ × List Tlv => limit_cleanup_pending state.1) (apply_logged apply) pkt
        (state, done) = (skipping_walk decoder limit_cleanup_pending apply pkt state, done ++ log)
      ∧ log.foldl (fun state tlv => apply tlv state) state =
        skipping_walk decoder limit_cleanup_pending apply pkt state := by
  fun_induction skipping_walk decoder limit_cleanup_pending apply pkt state generalizing done with
  | case1 pkt state ended => exact ⟨[],by rw [skipping_walk, dif_pos ended]; simp,rfl⟩
  | case2 pkt state more rest unread stuck =>
    exact ⟨[],by rw [skipping_walk, dif_neg more]; simp [unread,rest,stuck],rfl⟩
  | case3 pkt state more rest unread moved ih =>
    obtain ⟨log,same,folded⟩ := ih done
    refine ⟨log,?_,folded⟩
    rw [skipping_walk, dif_neg more]
    simp only [unread]
    rw [if_neg moved, same]
  | case4 pkt state more rest route read ih =>
    obtain ⟨log,same,folded⟩ := ih (done ++ [route])
    refine ⟨route :: log,?_,folded⟩
    rw [skipping_walk, dif_neg more]
    simp only [read,apply_logged]
    rw [same]
    simp

theorem breaking_walk_logged (pkt : List UInt8) (state : σ) (done : List Tlv) :
    ∃ log, breaking_walk decoder (apply_logged apply) pkt (state, done) =
        (breaking_walk decoder apply pkt state, done ++ log)
      ∧ log.foldl (fun state tlv => apply tlv state) state = breaking_walk decoder apply pkt state := by
  fun_induction breaking_walk decoder apply pkt state generalizing done with
  | case1 state => exact ⟨[],by rw [breaking_walk, dif_pos rfl]; simp,rfl⟩
  | case2 pkt state more unread => exact ⟨[],by rw [breaking_walk, dif_neg more]; simp [unread],rfl⟩
  | case3 pkt state more rest route read ih =>
    obtain ⟨log,same,folded⟩ := ih (done ++ [route])
    refine ⟨route :: log,?_,folded⟩
    rw [breaking_walk, dif_neg more]
    simp only [read,apply_logged]
    rw [same]
    simp

/-- The log accounts for the walk: it does nothing but apply the routes it wrote down. -/
theorem receive_walk_applied (opcode : Opcode) (replay : Bool) (pkt : List UInt8) (state : σ) :
    receive_walk decoder limit_cleanup_pending apply opcode replay pkt state =
      (tlvs_applied decoder limit_cleanup_pending apply opcode replay pkt state).foldl (fun state tlv => apply tlv state)
        state := by
  obtain ⟨log,same,folded⟩ := skipping_walk_logged decoder limit_cleanup_pending apply pkt state []
  obtain ⟨reply_log,reply_same,reply_folded⟩ := skipping_walk_logged decoder (fun _ => false) apply pkt state []
  obtain ⟨sia_log,sia_same,sia_folded⟩ := breaking_walk_logged decoder apply pkt state []
  cases opcode with
  | update =>
    cases replay with
    | true => rfl
    | false => simp [receive_walk,update_walk,tlvs_applied,same,folded]
  | query => simp [receive_walk,query_walk,tlvs_applied,same,folded]
  | reply => simp [receive_walk,reply_walk,tlvs_applied,reply_same,reply_folded]
  | siaquery => simp [receive_walk,siaquery_walk,tlvs_applied,sia_same,sia_folded]
  | siareply => simp [receive_walk,siareply_walk,tlvs_applied,sia_same,sia_folded]

end Applied

/-! ## Whole packets -/

section Whole
variable {σ : Type} (codec : Codec) (afi : Afi) (src : Address)
variable (limit_cleanup_pending : σ → Bool) (apply : Tlv → σ → σ)

/-- The limit of the neighbor is not reached before the last of these routes. -/
def LimitFree (tlvs : List Tlv) (state : σ) : Prop :=
  ∀ done, done <+: tlvs → done ≠ tlvs → limit_cleanup_pending (done.foldl (fun state tlv => apply tlv state) state) = false

theorem limitFree_cons (tlv : Tlv) (tlvs : List Tlv) (state : σ) :
    LimitFree limit_cleanup_pending apply (tlv :: tlvs) state ↔
      limit_cleanup_pending state = false ∧ LimitFree limit_cleanup_pending apply tlvs (apply tlv state) := by
  constructor
  · intro free
    refine ⟨free [] (List.nil_prefix) (by simp),?_⟩
    intro done before proper
    exact free (tlv :: done) (List.cons_prefix_cons.2 ⟨rfl,before⟩) (by simpa using proper)
  · rintro ⟨first,free⟩ done before proper
    rcases List.prefix_cons_iff.1 before with rfl | ⟨rest,rfl,rest_before⟩
    · exact first
    · exact free rest rest_before (by simpa using proper)

/-- Every route is applied exactly when none of them finds the limit reached. -/
theorem apply_limited_log (tlvs : List Tlv) (state : σ) (done : List Tlv) :
    (apply_limited (fun state : σ × List Tlv => limit_cleanup_pending state.1) (apply_logged apply) tlvs
        (state, done)).2 = done ++ tlvs ↔ LimitFree limit_cleanup_pending apply tlvs state := by
  induction tlvs generalizing state done with
  | nil => simp [apply_limited,LimitFree]
  | cons tlv tlvs ih =>
    rw [limitFree_cons]
    by_cases full : limit_cleanup_pending state = true
    · simp [apply_limited,full]
    · have next := ih (apply tlv state) (done ++ [tlv])
      simp only [List.append_assoc,List.singleton_append] at next
      simp [apply_limited,full,apply_logged,next]

/-- A log behind a walk that no limit stops. -/
theorem foldl_log (tlvs : List Tlv) (state : σ) (done : List Tlv) :
    (tlvs.foldl (fun state tlv => apply_logged apply tlv state) (state, done)).2 = done ++ tlvs := by
  induction tlvs generalizing state done with
  | nil => simp
  | cons tlv tlvs ih =>
    rw [List.foldl_cons, apply_logged, ih]
    simp

/-- No TLV without a route stands in front of one with a route. -/
def Codec.Ordered (frames : List FramedTlv) : Prop :=
  (codec.seen afi src frames).Pairwise fun first second =>
    codec.verdict afi src first = .skip → (codec.verdict afi src second).tlv = none

theorem Codec.leading_eq_accepted_iff (frames : List FramedTlv) :
    codec.leading afi src frames = codec.accepted afi src frames ↔ codec.Ordered afi src frames := by
  induction frames with
  | nil => simp [Codec.leading,Codec.accepted,Codec.seen,Codec.Ordered]
  | cons frame frames ih =>
    cases verdict : codec.verdict afi src frame with
    | route tlv =>
      have more : codec.accepted afi src (frame :: frames) = tlv :: codec.accepted afi src frames := by
        simp [Codec.accepted,Codec.seen,verdict,Verdict.tlv]
      have ordered : codec.Ordered afi src (frame :: frames) ↔ codec.Ordered afi src frames := by
        simp [Codec.Ordered,Codec.seen,verdict]
      simp [Codec.leading,verdict,more,ordered,ih]
    | skip =>
      have same : codec.accepted afi src (frame :: frames) = codec.accepted afi src frames := by
        simp [Codec.accepted,Codec.seen,verdict,Verdict.tlv]
      have empty : codec.leading afi src (frame :: frames) = [] := by simp [Codec.leading,verdict]
      have seen : codec.seen afi src (frame :: frames) = frame :: codec.seen afi src frames := by
        simp [Codec.seen,verdict]
      rw [same, empty, Codec.Ordered, seen, List.pairwise_cons]
      constructor
      · intro none_accepted
        have none_of (second : FramedTlv) (found : second ∈ codec.seen afi src frames) :
            (codec.verdict afi src second).tlv = none := List.filterMap_eq_nil_iff.1 none_accepted.symm second found
        exact ⟨fun second found _ => none_of second found,List.Pairwise.imp_of_mem (fun _ found _ _ => none_of _ found)
          (List.pairwise_of_forall fun _ _ => trivial)⟩
      · rintro ⟨first,_⟩
        exact (List.filterMap_eq_nil_iff.2 fun second found => first second found verdict).symm
    | abort => simp [Codec.leading,Codec.accepted,Codec.seen,Codec.Ordered,verdict]

/-- A REPLY is walked to its end. -/
theorem tlvs_applied_reply (replay : Bool) (frames : List FramedTlv) (state : σ) :
    tlvs_applied (codec.reader afi src) limit_cleanup_pending apply .reply replay (packet_bytes frames) state =
      codec.accepted afi src frames := by
  have unlimited := apply_limited_log (fun _ => false) apply (codec.accepted afi src frames) state []
  simp only [tlvs_applied,receive_walk,reply_walk,skipping_walk_frames]
  exact unlimited.2 fun _ _ _ => rfl

/-- When the walk of an opcode reaches every route of a packet. -/
def WalkedWhole (opcode : Opcode) (replay : Bool) (frames : List FramedTlv) (state : σ) : Prop :=
  match opcode with
  | .update =>
    (replay → codec.accepted afi src frames = []) ∧
      LimitFree limit_cleanup_pending apply (codec.accepted afi src frames) state
  | .query => LimitFree limit_cleanup_pending apply (codec.accepted afi src frames) state
  | .reply => True
  | .siaquery => codec.Ordered afi src frames
  | .siareply => codec.Ordered afi src frames

/-- The receive function of an opcode applies exactly the route TLVs that the decoder accepts, in order. -/
theorem tlvs_applied_iff (neighbor : Neighbor) (packet : Packet) (frames : List FramedTlv) (state : σ) :
    tlvs_applied (codec.reader afi src) limit_cleanup_pending apply packet.opcode
        (update_reception neighbor packet = .replay) (packet_bytes frames) state = codec.accepted afi src frames ↔
      WalkedWhole codec afi src limit_cleanup_pending apply packet.opcode (update_reception neighbor packet = .replay)
        frames state := by
  have limited := apply_limited_log limit_cleanup_pending apply (codec.accepted afi src frames) state []
  have sia := foldl_log apply (codec.leading afi src frames) state []
  rw [List.nil_append] at limited sia
  cases opcode : packet.opcode with
  | update =>
    by_cases replay : update_reception neighbor packet = .replay
    · simp only [tlvs_applied,receive_walk,update_walk,WalkedWhole,replay,decide_true,if_true,true_implies]
      constructor
      · intro none_accepted
        rw [← none_accepted]
        exact ⟨rfl,fun done before proper => absurd (List.prefix_nil.1 before) proper⟩
      · intro whole
        exact whole.1.symm
    · simp only [tlvs_applied,receive_walk,update_walk,WalkedWhole,replay,decide_false,skipping_walk_frames]
      simpa using limited
  | query =>
    simp only [tlvs_applied,receive_walk,query_walk,WalkedWhole,skipping_walk_frames]
    exact limited
  | reply => simp [tlvs_applied_reply,WalkedWhole]
  | siaquery =>
    simp only [tlvs_applied,receive_walk,siaquery_walk,WalkedWhole,breaking_walk_frames,sia]
    exact codec.leading_eq_accepted_iff afi src frames
  | siareply =>
    simp only [tlvs_applied,receive_walk,siareply_walk,WalkedWhole,breaking_walk_frames,sia]
    exact codec.leading_eq_accepted_iff afi src frames

/-- An SIA-QUERY on an authenticated interface: the authentication TLV ends the walk in front of the one route. -/
def authenticated_frames : List FramedTlv :=
  [⟨0x0002,List.replicate 36 0,by decide⟩,
   ⟨0x0102,stream_putl 0x0a000001 ++ (tlv1_metric_encode { delay := 10, bandwidth := 256 } ++ [24,192,0,2]),by decide⟩]

theorem authenticated_siaquery_ignored :
    tlvs_applied (Codec.tlv1.reader .ipv4 0x0a000001) (fun _ : Unit => false) (fun _ state => state) .siaquery
        (update_reception { id := 1, state := .up } { opcode := .siaquery } = .replay) (packet_bytes authenticated_frames)
        () = [] ∧
      Codec.accepted .tlv1 .ipv4 0x0a000001 authenticated_frames ≠ [] := by
  constructor
  · simp only [tlvs_applied,receive_walk,siaquery_walk,breaking_walk_frames]
    decide +kernel
  · decide +kernel

end Whole

/-! ## Packets of the instance -/

/-- What policy and host answer for the routes of a packet, in the order in which they are applied. -/
structure Answers where
  answer : Nat → Tlv → Received
  about : ∀ n tlv, (answer n tlv).tlv = tlv

/-- One route of a packet: the state is the instance, the number of routes before and the mark of the limit. -/
def receive_step (nbr : Nbr) (answers : Answers) (body : Received → Machine → Machine) (tlv : Tlv)
    (state : Machine × Nat × Bool) : Machine × Nat × Bool :=
  let received := answers.answer state.2.1 tlv
  (body received (limit_mark nbr received state.1), state.2.1 + 1, state.2.2 || received.limit_mark_down)

/-- The routes of a packet as the instance receives them. -/
def Codec.received (codec : Codec) (afi : Afi) (src : Address) (answers : Answers) (opcode : Opcode)
    (frames : List FramedTlv) : List Received :=
  match opcode with
  | .siaquery | .siareply => (codec.leading afi src frames).mapIdx answers.answer
  | _ => (codec.accepted afi src frames).mapIdx answers.answer

/-- UPDATE and QUERY look at the mark of the limit between two routes. -/
def Opcode.stops : Opcode → Bool
  | .update | .query => true
  | _ => false

section Instance
variable (nbr : Nbr) (answers : Answers) (body : Received → Machine → Machine)

theorem walk_limited (tlvs : List Tlv) (n : Nat) (machine : Machine) :
    (apply_limited (fun state => state.2.2) (receive_step nbr answers body) tlvs (machine, n, false)).1 =
      walk nbr true body (tlvs.mapIdx fun index tlv => answers.answer (index + n) tlv) machine := by
  induction tlvs generalizing n machine with
  | nil => rfl
  | cons tlv tlvs ih =>
    simp only [apply_limited,List.mapIdx_cons,walk,Nat.zero_add]
    cases full : (answers.answer n tlv).limit_mark_down with
    | true =>
      rw [if_neg (by simp), apply_limited_pending]
      · simp [receive_step]
      · simp [receive_step,full]
    | false =>
      have next := ih (n + 1) (body (answers.answer n tlv) (limit_mark nbr (answers.answer n tlv) machine))
      simp only [receive_step,full,Bool.or_false,Bool.and_false]
      simpa [Nat.add_assoc,Nat.add_comm 1] using next

theorem walk_foldl (tlvs : List Tlv) (n : Nat) (full : Bool) (machine : Machine) :
    (tlvs.foldl (fun state tlv => receive_step nbr answers body tlv state) (machine, n, full)).1 =
      walk nbr false body (tlvs.mapIdx fun index tlv => answers.answer (index + n) tlv) machine := by
  induction tlvs generalizing n full machine with
  | nil => rfl
  | cons tlv tlvs ih =>
    rw [List.foldl_cons, receive_step, ih]
    simp [walk,Nat.add_assoc,Nat.add_comm 1]

theorem apply_limited_never {σ : Type} (apply : Tlv → σ → σ) (tlvs : List Tlv) (state : σ) :
    apply_limited (fun _ => false) apply tlvs state = tlvs.foldl (fun state tlv => apply tlv state) state := by
  induction tlvs generalizing state with
  | nil => rfl
  | cons tlv tlvs ih => simp [apply_limited,ih]

/-- A walk over the octets of a packet is the walk of the instance over the routes in it. -/
theorem receive_walk_received (codec : Codec) (afi : Afi) (src : Address) (opcode : Opcode)
    (frames : List FramedTlv) (machine : Machine) :
    (receive_walk (codec.reader afi src) (fun state => state.2.2) (receive_step nbr answers body) opcode false
        (packet_bytes frames) (machine, 0, false)).1 =
      walk nbr opcode.stops body (codec.received afi src answers opcode frames) machine := by
  cases opcode with
  | update =>
    simpa [receive_walk,update_walk,skipping_walk_frames,Codec.received,Opcode.stops]
      using walk_limited nbr answers body _ 0 machine
  | query =>
    simpa [receive_walk,query_walk,skipping_walk_frames,Codec.received,Opcode.stops]
      using walk_limited nbr answers body _ 0 machine
  | reply =>
    simpa [receive_walk,reply_walk,skipping_walk_frames,apply_limited_never,Codec.received,Opcode.stops]
      using walk_foldl nbr answers body _ 0 false machine
  | siaquery =>
    simpa [receive_walk,siaquery_walk,breaking_walk_frames,Codec.received,Opcode.stops]
      using walk_foldl nbr answers body _ 0 false machine
  | siareply =>
    simpa [receive_walk,siareply_walk,breaking_walk_frames,Codec.received,Opcode.stops]
      using walk_foldl nbr answers body _ 0 false machine

end Instance

end Eigrp
