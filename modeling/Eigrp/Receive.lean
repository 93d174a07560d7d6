import Eigrp.Decoders
import Eigrp.Walk

/-!
# Receiving from a stream

A call of a decoder is safe on any octets: it moves on within them, a route is made of the octets of its TLV alone, and the
loops of the receive functions end.
-/

namespace Eigrp
open Eigrp.Lib

/-- `nbr->decoder` on a stream. -/
def Codec.stream_decoder (codec : Codec) (afi : Afi) (src : Address) (created : Bool) (pkt : Stream) : Option Tlv × Stream :=
  match codec with
  | .safe => (none, pkt.decode_abort)
  | .tlv1 => pkt.tlv1_decoder afi created
  | .tlv2 => pkt.tlv2_decoder afi src created

theorem Codec.stream_decoder_refines (codec : Codec) (afi : Afi) (src : Address) (created : Bool) (pkt : Stream) :
    ∃ n, Stream.Refines created pkt (codec.stream_decoder afi src created pkt) (codec.decoder afi src pkt.unread) n := by
  cases codec with
  | safe =>
    have aborted := pkt.skip_abort 0
    rw [Stream.skip_zero] at aborted
    rw [Codec.stream_decoder, aborted]
    exact ⟨_,Stream.refines_abort created pkt⟩
  | tlv1 => exact pkt.tlv1_decoder_refines afi created
  | tlv2 => exact pkt.tlv2_decoder_refines afi src created

/-- The octets that a route needs of its TLV: header, vector, external data, attributes and destination. -/
def Codec.route_octets (codec : Codec) (afi : Afi) (body : List UInt8) (route : Tlv) : Nat :=
  match codec with
  | .safe => 0
  | .tlv1 => tlv1_min_length afi route.external + afi.prefix_bytes route.dest.prefix_length.toNat
  | .tlv2 =>
    tlv2_min_length route.external + (body.getD 8 0).toNat * 2 + afi.prefix_bytes route.dest.prefix_length.toNat

/-- A framed TLV with a route is long enough for it. -/
theorem Codec.verdict_octets {codec : Codec} {afi : Afi} {src : Address} {frame : FramedTlv} {route : Tlv}
    (found : codec.verdict afi src frame = .route route) : codec.route_octets afi frame.body route ≤ frame.length := by
  cases codec with
  | safe => cases found
  | tlv1 =>
    simp only [Codec.verdict,tlv1_verdict] at found
    split_ifs at found
    cases decoded : tlv1_body_decode afi (frame.type != afi.classic_internal_tlv_type) frame.body with
    | none => simp [decoded,Verdict.of] at found
    | some tlv =>
      simp only [decoded,Verdict.of] at found
      cases found
      rw [← Stream.tlv1_reader_route] at decoded
      obtain ⟨read,reads,same⟩ := Option.map_eq_some_iff.1 decoded
      obtain ⟨total,counted⟩ := Stream.tlv1_reader_size reads
      have external : read.1.1.external = (frame.type != afi.classic_internal_tlv_type) := Stream.tlv1_reader_external reads
      rw [← same, Codec.route_octets, external]
      simp only [FramedTlv.length]
      omega
  | tlv2 =>
    simp only [Codec.verdict,tlv2_verdict] at found
    split_ifs at found
    cases header : Eigrp.tlv2_header_ext frame.body with
    | none => simp [header] at found
    | some read =>
      obtain ⟨⟨family,tid,rid⟩,body⟩ := read
      simp only [header] at found
      split_ifs at found
      cases decoded : tlv2_body_decode afi src (frame.type != tlv_mp_int) tid rid body with
      | none => simp [decoded,Verdict.of] at found
      | some tlv =>
        simp only [decoded,Verdict.of] at found
        cases found
        rw [← Stream.tlv2_reader_route] at decoded
        obtain ⟨read,reads,same⟩ := Option.map_eq_some_iff.1 decoded
        obtain ⟨total,attr_words,words,counted⟩ := Stream.tlv2_reader_size reads
        obtain ⟨_,header_reads,_⟩ := Stream.tlv2_header_ext_covers
        have external : read.1.1.external = (frame.type != tlv_mp_int) := Stream.tlv2_reader_external reads
        have split := header_reads frame.body
        rw [header] at split
        split_ifs at split with enough
        have behind : body = frame.body.drop 8 := (Prod.mk.inj (Option.some.inj split)).2
        have ninth : frame.body.getD 8 0 = attr_words := by
          rw [behind, List.head?_drop] at words
          rw [List.getD_eq_getElem?_getD, words]
          rfl
        rw [← same, Codec.route_octets, external, ninth]
        have length := congrArg List.length behind
        rw [List.length_drop] at length
        simp only [FramedTlv.length]
        omega

/-- Any octets in front of a decoder are a framed TLV and what follows it, or end the packet. -/
theorem Codec.decoder_route {codec : Codec} {afi : Afi} {src : Address} {pkt : List UInt8} {route : Tlv}
    (found : (codec.decoder afi src pkt).1 = some route) :
    ∃ frame : FramedTlv, pkt = frame.bytes ++ pkt.drop frame.length ∧ codec.verdict afi src frame = .route route ∧
      (codec.decoder afi src pkt).2 = pkt.drop frame.length := by
  have framed {type : UInt16} {length : Nat} (header : tlv_header pkt = some (type, length)) (long : tlv_hdr_size ≤ length)
      (within : length ≤ pkt.length) : ∃ frame : FramedTlv, pkt = frame.bytes ++ pkt.drop frame.length := by
    obtain ⟨frame,_,size,octets⟩ := framed_of_header header long within
    exact ⟨frame,by rw [octets, size, List.take_append_drop]⟩
  have read : ∃ frame : FramedTlv, pkt = frame.bytes ++ pkt.drop frame.length := by
    cases codec with
    | safe => cases found
    | tlv1 =>
      simp only [Codec.decoder,Eigrp.tlv1_decoder] at found
      cases header : tlv_header pkt with
      | none => simp [header] at found
      | some read =>
        simp only [header] at found
        split_ifs at found with _ bad
        · obtain ⟨long,within⟩ := not_or.1 bad
          exact framed header (by simp only [tlv1_min_length] at long; omega) (by omega)
    | tlv2 =>
      simp only [Codec.decoder,Eigrp.tlv2_decoder] at found
      cases header : tlv_header pkt with
      | none => simp [header] at found
      | some read =>
        simp only [header] at found
        split_ifs at found with _ bad
        · obtain ⟨long,within⟩ := not_or.1 bad
          exact framed header (by simp only [tlv2_min_length] at long; omega) (by omega)
  obtain ⟨frame,split⟩ := read
  refine ⟨frame,split,?_⟩
  rw [split, Codec.decoder_frame] at found
  rw [split, Codec.decoder_frame, frame.drop]
  cases verdict : codec.verdict afi src frame with
  | route tlv =>
    rw [verdict] at found
    cases found
    exact ⟨rfl,rfl⟩
  | skip =>
    rw [verdict] at found
    cases found
  | abort =>
    rw [verdict] at found
    cases found

/-- What one call of a decoder does: it moves on within the content and changes nothing else of the stream; a route is made
    of the octets of its TLV alone, and the length of the TLV covers everything that is read for it. -/
structure Codec.Safe (codec : Codec) (afi : Afi) (src : Address) (created : Bool) (pkt : Stream) : Prop where
  advances : pkt.getp < (codec.stream_decoder afi src created pkt).2.getp
  within : (codec.stream_decoder afi src created pkt).2.getp ≤ pkt.endp
  restored : (codec.stream_decoder afi src created pkt).2.endp = pkt.endp
  kept : (codec.stream_decoder afi src created pkt).2.data = pkt.data
  confined : ∀ route, (codec.stream_decoder afi src created pkt).1 = some route → ∃ frame : FramedTlv,
    frame.bytes <+: pkt.unread ∧ (codec.stream_decoder afi src created pkt).2.getp = pkt.getp + frame.length ∧
      codec.route_octets afi frame.body route ≤ frame.length ∧
      ∀ other : Stream, frame.bytes <+: other.unread → (codec.stream_decoder afi src created other).1 = some route

theorem Codec.stream_decoder_safe (codec : Codec) (afi : Afi) (src : Address) (created : Bool) {pkt : Stream}
    (unread : pkt.getp < pkt.endp) : codec.Safe afi src created pkt := by
  obtain ⟨n,refines⟩ := codec.stream_decoder_refines afi src created pkt
  have size : pkt.unread.length = pkt.remaining := pkt.unread_length
  have moves := refines.moves (by simp only [Stream.remaining]; omega)
  have getp : (pkt.skip n).getp = min (pkt.getp + n) pkt.endp := pkt.set_getp_getp _
  refine ⟨?_,?_,?_,?_,?_⟩
  · rw [refines.stream, getp]
    omega
  · rw [refines.stream, getp]
    omega
  · rw [refines.stream, Stream.skip_endp]
  · rw [refines.stream, Stream.skip_data]
  · intro route found
    rw [refines.route] at found
    cases created with
    | false => cases found
    | true =>
      rw [if_pos rfl] at found
      obtain ⟨frame,split,verdict,rest⟩ := Codec.decoder_route found
      have begins : frame.bytes <+: pkt.unread := ⟨_,split.symm⟩
      have fits := begins.length_le
      rw [frame.bytes_length, size, Stream.remaining] at fits
      refine ⟨frame,begins,?_,Codec.verdict_octets verdict,?_⟩
      · have moved := @Stream.skip_eq_of_drop pkt n frame.length (by rw [← rest, refines.rest rfl])
        rw [refines.stream, moved]
        exact pkt.skip_getp (by rw [size, Stream.remaining]; exact fits)
      · rintro other ⟨behind,same⟩
        obtain ⟨_,other_refines⟩ := codec.stream_decoder_refines afi src true other
        rw [other_refines.route, if_pos rfl, ← same, Codec.decoder_frame, verdict]
        rfl

/-! ## Receive loops -/

section Loops
variable {σ : Type} (decoder : Stream → Option Tlv × Stream) (limit_cleanup_pending : σ → Bool) (apply : Tlv → σ → σ)

/-- The loops of `eigrp_update_receive`, `eigrp_query_receive` and, without a limit, `eigrp_reply_receive`, for so many
    turns: none where they are not enough. -/
def receive_loop : Nat → Stream → σ → Option σ
  | 0, pkt, state => if pkt.endp > pkt.getp ∧ ¬ limit_cleanup_pending state then none else some state
  | turns + 1, pkt, state =>
    if pkt.endp > pkt.getp ∧ ¬ limit_cleanup_pending state then
      match decoder pkt with
      | (none, behind) => if behind.getp = pkt.getp then some state else receive_loop turns behind state
      | (some route, behind) => receive_loop turns behind (apply route state)
    else some state

/-- A loop over a decoder that moves on ends in as many turns as there are octets. -/
theorem receive_loop_ends (moves : ∀ pkt, pkt.getp < pkt.endp → pkt.getp < (decoder pkt).2.getp ∧ (decoder pkt).2.endp = pkt.endp)
    (turns : Nat) (pkt : Stream) (state : σ) (enough : pkt.remaining ≤ turns) :
    (receive_loop decoder limit_cleanup_pending apply turns pkt state).isSome := by
  induction turns generalizing pkt state with
  | zero =>
    simp only [Stream.remaining] at enough
    rw [receive_loop, if_neg (by omega)]
    rfl
  | succ turns ih =>
    rw [receive_loop]
    by_cases more : pkt.endp > pkt.getp ∧ ¬ limit_cleanup_pending state
    · obtain ⟨advances,restored⟩ := moves pkt more.1
      have left : (decoder pkt).2.remaining ≤ turns := by
        simp only [Stream.remaining] at *
        omega
      rw [if_pos more]
      rcases read : decoder pkt with ⟨_ | route,behind⟩
      · rw [read] at left
        simp only
        split
        · rfl
        · exact ih behind state left
      · rw [read] at left
        exact ih behind (apply route state) left
    · rw [if_neg more]
      rfl

end Loops

/-- On a stream the loops do what they do on the unread octets. -/
theorem receive_loop_walk {σ : Type} (codec : Codec) (afi : Afi) (src : Address) (limit_cleanup_pending : σ → Bool)
    (apply : Tlv → σ → σ) (turns : Nat) (pkt : Stream) (state : σ) (enough : pkt.remaining ≤ turns) :
    receive_loop (codec.stream_decoder afi src true) limit_cleanup_pending apply turns pkt state =
      some (skipping_walk (codec.reader afi src) limit_cleanup_pending apply pkt.unread state) := by
  have size (pkt : Stream) : pkt.unread.length = pkt.remaining := pkt.unread_length
  induction turns generalizing pkt state with
  | zero =>
    have empty : pkt.unread = [] := List.eq_nil_of_length_eq_zero (by rw [size]; omega)
    simp only [Stream.remaining] at enough
    rw [receive_loop, if_neg (by omega), skipping_walk, dif_pos (.inl empty)]
  | succ turns ih =>
    rw [receive_loop, skipping_walk]
    by_cases more : pkt.endp > pkt.getp ∧ ¬ limit_cleanup_pending state
    · have unread : pkt.unread ≠ [] := by
        intro empty
        have length := size pkt
        rw [empty, List.length_nil, Stream.remaining] at length
        omega
      have safe := codec.stream_decoder_safe afi src true more.1
      obtain ⟨n,refines⟩ := codec.stream_decoder_refines afi src true pkt
      have behind : (codec.stream_decoder afi src true pkt).2.unread = ((codec.reader afi src).decode pkt.unread).2 := by
        rw [refines.stream, Stream.skip_unread, ← refines.rest rfl]
        rfl
      have left : (codec.stream_decoder afi src true pkt).2.remaining ≤ turns := by
        have advances := safe.advances
        have restored := safe.restored
        simp only [Stream.remaining] at *
        omega
      have consumes := (codec.reader afi src).consumes unread
      have next (state : σ) := ih _ state left
      have route : (codec.stream_decoder afi src true pkt).1 = ((codec.reader afi src).decode pkt.unread).1 := refines.route
      rw [behind] at next
      rw [if_pos more, dif_neg (by tauto)]
      simp only
      rw [← route]
      rcases read : codec.stream_decoder afi src true pkt with ⟨_ | tlv,stream⟩
      · have advances := safe.advances
        rw [read] at advances next
        simp only at advances ⊢
        rw [if_neg (by omega), if_neg (by omega)]
        exact next state
      · rw [read] at next
        exact next (apply tlv state)
    · rw [if_neg more, dif_pos]
      by_cases ended : pkt.endp > pkt.getp
      · exact .inr (by simpa [ended] using more)
      · refine .inl (List.eq_nil_of_length_eq_zero ?_)
        rw [size, Stream.remaining]
        omega

/-- Both decoders are safe on every stream with octets left, and the loops over them end in as many turns as there are
    octets. -/
theorem decoders_safe (afi : Afi) (src : Address) (codec : Codec) :
    (∀ (created : Bool) (pkt : Stream), pkt.getp < pkt.endp → codec.Safe afi src created pkt) ∧
      ∀ (σ : Type) (limit_cleanup_pending : σ → Bool) (apply : Tlv → σ → σ) (created : Stream → Bool) (pkt : Stream) (state : σ),
        (receive_loop (fun pkt => codec.stream_decoder afi src (created pkt) pkt) limit_cleanup_pending apply (pkt.endp - pkt.getp) pkt
          state).isSome := by
  refine ⟨fun created pkt unread => codec.stream_decoder_safe afi src created unread,?_⟩
  intro σ limit_cleanup_pending apply created pkt state
  refine receive_loop_ends _ _ _ ?_ _ _ _ le_rfl
  intro pkt unread
  have safe := codec.stream_decoder_safe afi src (created pkt) unread
  exact ⟨safe.advances,safe.restored⟩

/-- A TLV of a type that neither decoder knows. -/
def unknown_tlv : Stream := { data := [0,4,0,6,1,2,9], endp := 7 }

theorem decoders_safe_unknown : (Codec.tlv1.stream_decoder .ipv4 0 true unknown_tlv).2.getp = 6 ∧
    Codec.Safe .tlv1 .ipv4 0 true unknown_tlv :=
  ⟨by decide +kernel,(decoders_safe .ipv4 0 .tlv1).1 true unknown_tlv (by decide)⟩

end Eigrp
