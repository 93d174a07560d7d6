import Eigrp.Wire

/-!
# Metrics across a link

What is left of a metric vector after the sender's offset list, an encoder, the matching decoder and
the receiver's offset list. The closed form of a crossing is computed first; from it follow the exact
conditions under which an unreachable route arrives unreachable and a reachable one is not improved.
-/

namespace Eigrp
open Eigrp.Lib

inductive TlvFormat where
  | tlv1
  | tlv2
deriving DecidableEq, Repr

/-- One link between two routers, for one destination: the codec and both offset policies. -/
structure Crossing where
  format : TlvFormat
  afi : Afi
  router_id : UInt32
  external : Bool
  sender : OffsetPolicy
  receiver : OffsetPolicy

/-- Encoding and decoding of the metric section. -/
def Crossing.wire (link : Crossing) (route : TlvRoute) : Option Metrics :=
  match link.format with
  | .tlv1 => (tlv1_metric_decode (tlv1_metric_encode route.metric)).map (·.1)
  | .tlv2 =>
    (tlv2_metric_decode link.afi link.external {}
      (tlv2_metric_encode link.afi link.router_id route link.external)).map (·.1.metric)

/-- The outbound offset, the wire, and the inbound offset. -/
def Crossing.deliver (link : Crossing) (route : TlvRoute) : Option Metrics :=
  (link.wire { route with metric := offset_metric_update link.sender .outbound route.metric }).map
    (offset_metric_update link.receiver .inbound)

/-! ## The closed form of a crossing -/

/-- A component as it leaves a 48-bit field. -/
def field48 (component : UInt64) : UInt64 :=
  let sent := if component = max_metric then tlv2_inaccessible else component
  let got := UInt64.ofNat (sent.toNat % 2 ^ 48)
  if got = tlv2_inaccessible then max_metric else got

def arrived (format : TlvFormat) (metric : Metrics) : Metrics :=
  match format with
  | .tlv1 =>
    { metric with
      delay := scaled_to_delay (delay_to_scaled metric.delay)
      bandwidth := metric.bandwidth.toUInt32.toUInt64 }
  | .tlv2 => { metric with delay := field48 metric.delay, bandwidth := field48 metric.bandwidth }

theorem tlv1_metric_roundtrip (metric : Metrics) (rest : List UInt8) :
    tlv1_metric_decode (tlv1_metric_encode metric ++ rest) = some (arrived .tlv1 metric, rest) := by
  unfold tlv1_metric_decode tlv1_metric_encode
  simp only [List.append_assoc]
  simp only [↓getl_bind,↓getc_bind,arrived]

theorem tlv2_addpath_data_length (afi : Afi) (router_id : UInt32) (route : TlvRoute) (external : Bool) :
    (tlv2_addpath_data afi router_id route external).length = tlv2_addpath_data_len afi external := by
  cases external <;> simp [tlv2_addpath_data,tlv2_addpath_data_len,stream_putl,stream_putc]

/-- What the attribute of a router says about a route. -/
def addpath_arrived (router_id : UInt32) (sent route : TlvRoute) (external : Bool) : TlvRoute :=
  let extdata := { route.extdata with
                   orig := if sent.extdata.orig ≠ 0 then sent.extdata.orig else router_id, tag := sent.extdata.tag }
  { route with
    nexthop := sent.nexthop
    extdata := if external then { extdata with protocol := sent.extdata.protocol, flags := sent.extdata.flags } else extdata }

/-- The attribute data a router appends is accepted; it holds a whole IPv6 address. -/
theorem tlv2_addpath_roundtrip (router_id : UInt32) (sent route : TlvRoute) (external : Bool) :
    tlv2_addpath_decode .ipv6 external (tlv2_addpath_data .ipv6 router_id sent external) route =
      some (addpath_arrived router_id sent route external) := by
  have address : BitVec.ofNat 128 (sent.nexthop.toNat % 256 ^ 16) = sent.nexthop := by
    rw [Nat.mod_eq_of_lt (by simpa using sent.nexthop.isLt), BitVec.ofNat_toNat, BitVec.setWidth_eq]
  unfold tlv2_addpath_decode
  simp only [tlv2_addpath_data_length]
  cases external <;>
    simp only [tlv2_addpath_data,Afi.packet_address_bytes,guard,if_true,Option.bind_eq_bind,Option.pure_def,Option.bind_some,get_put,
      getl_putl,getc_putc,getc_putc_last,List.append_nil,getl_putl_last,address,addpath_arrived,Bool.false_eq_true,if_false]

/-- One add-path attribute that fills the attribute octets. -/
private theorem tlv2_extended_single {afi : Afi} {external : Bool} {words : UInt8} {data : List UInt8}
    {route got : TlvRoute} (length : data.length = words.toNat * 2)
    (decoded : tlv2_addpath_decode afi external data route = some got) (fuel : Nat) :
    tlv2_extended_decode afi external (fuel + 1) (0x07 :: words :: data) route = some got := by
  simp [tlv2_extended_decode,stream_getc,← length,decoded]

/-- Only IPv6 sends the attribute. -/
def extended_arrived (afi : Afi) (router_id : UInt32) (sent route : TlvRoute) (external : Bool) : TlvRoute :=
  match afi with
  | .ipv4 => route
  | .ipv6 => addpath_arrived router_id sent route external

private theorem tlv2_extended_roundtrip (afi : Afi) (router_id : UInt32) (sent route : TlvRoute) (external : Bool) :
    tlv2_extended_decode afi external (tlv2_addpath_encode afi router_id sent external).length
      (tlv2_addpath_encode afi router_id sent external) route = some (extended_arrived afi router_id sent route external) := by
  cases afi with
  | ipv4 => simp [tlv2_addpath_encode,tlv2_extended_decode,extended_arrived]
  | ipv6 =>
    refine tlv2_extended_single ?_ (tlv2_addpath_roundtrip router_id sent route external) _
    rw [tlv2_addpath_data_length]
    cases external <;> rfl

/-- The octet that counts attribute words loses nothing. -/
private theorem tlv2_attr_words (afi : Afi) (router_id : UInt32) (sent : TlvRoute) (external : Bool) :
    (UInt8.ofNat ((tlv2_addpath_encode afi router_id sent external).length / 2)).toNat * 2 =
      (tlv2_addpath_encode afi router_id sent external).length := by
  have length := tlv2_addpath_data_length .ipv6 router_id sent external
  cases afi with
  | ipv4 => simp [tlv2_addpath_encode]
  | ipv6 =>
    cases external <;>
      simp [tlv2_addpath_encode,length,tlv2_addpath_data_len,Afi.packet_address_bytes,stream_putc]

theorem tlv2_section_roundtrip (attr_words : UInt8) (metric : Metrics) (rest : List UInt8) :
    tlv2_section_decode (tlv2_section_encode attr_words metric ++ rest) =
      some ((attr_words, arrived .tlv2 metric), rest) := by
  unfold tlv2_section_decode tlv2_section_encode
  simp only [List.append_assoc]
  simp only [↓getc_bind,↓get48_bind,↓getw_bind]
  simp [arrived,field48]

theorem tlv2_metric_roundtrip (afi : Afi) (router_id : UInt32) (sent route : TlvRoute) (external : Bool) (rest : List UInt8) :
    tlv2_metric_decode afi external route (tlv2_metric_encode afi router_id sent external ++ rest) =
      some (extended_arrived afi router_id sent { route with metric := arrived .tlv2 sent.metric } external, rest) := by
  have attributes := tlv2_extended_roundtrip afi router_id sent { route with metric := arrived .tlv2 sent.metric } external
  unfold tlv2_metric_decode tlv2_metric_encode
  simp only [List.append_assoc,tlv2_section_roundtrip,Option.bind_eq_bind,Option.bind_some,tlv2_attr_words]
  rw [guard, if_pos (by simp), List.take_left, List.drop_left, attributes]
  rfl

theorem wire_eq (link : Crossing) (route : TlvRoute) : link.wire route = some (arrived link.format route.metric) := by
  unfold Crossing.wire
  cases link.format with
  | tlv1 => simpa using congrArg (Option.map Prod.fst) (tlv1_metric_roundtrip route.metric [])
  | tlv2 =>
    have decoded := tlv2_metric_roundtrip link.afi link.router_id route {} link.external []
    rw [List.append_nil] at decoded
    have metric : (extended_arrived link.afi link.router_id route { metric := arrived .tlv2 route.metric } link.external).metric =
        arrived .tlv2 route.metric := by cases link.afi <;> rfl
    simp only [decoded,Option.map_some,metric]

theorem deliver_eq (link : Crossing) (route : TlvRoute) :
    link.deliver route = some (offset_metric_update link.receiver .inbound
      (arrived link.format (offset_metric_update link.sender .outbound route.metric))) := by
  simp [Crossing.deliver,wire_eq]

/-! ### Components -/

theorem delay_to_scaled_toNat (delay : UInt64) :
    (delay_to_scaled delay).toNat = (max 1 delay.toNat) * 256 % 2 ^ 32 := by
  have bound := delay.toNat_lt
  unfold delay_to_scaled
  by_cases zero : delay = 0
  · subst zero; decide
  · have positive : 1 ≤ delay.toNat := Nat.one_le_iff_ne_zero.mpr fun none => zero (UInt64.toNat_inj.mp none)
    simp only [zero, ne_eq, not_false_eq_true, if_true, UInt64.toNat_toUInt32, UInt64.toNat_mul,
      Nat.max_eq_right positive]
    change delay.toNat * 256 % 2 ^ 64 % 2 ^ 32 = _
    omega

theorem scaled_to_delay_toNat (scaled : UInt32) : (scaled_to_delay scaled).toNat = max 1 (scaled.toNat / 256) := by
  have quotient : (scaled / 256).toNat = scaled.toNat / 256 := by simp
  unfold scaled_to_delay
  by_cases zero : scaled / 256 = 0
  · have none : scaled.toNat / 256 = 0 := by rw [← quotient, zero]; rfl
    simp [zero,none]
  · have positive : scaled.toNat / 256 ≠ 0 := fun none => zero (UInt32.toNat_inj.mp (quotient.trans none))
    simp only [zero, ne_eq, not_false_eq_true, if_true, UInt32.toNat_toUInt64, quotient]
    omega

/-- A delay crosses a classic TLV modulo 24 bits, with zero sent as one. -/
theorem tlv1_delay_toNat (delay : UInt64) :
    (scaled_to_delay (delay_to_scaled delay)).toNat = max 1 (delay.toNat % 2 ^ 24) := by
  have bound := delay.toNat_lt
  rw [scaled_to_delay_toNat, delay_to_scaled_toNat]
  omega

theorem field48_toNat (component : UInt64) :
    (field48 component).toNat =
      if component.toNat = 2 ^ 32 - 1 ∨ component.toNat % 2 ^ 48 = 2 ^ 48 - 1 then 2 ^ 32 - 1
      else component.toNat % 2 ^ 48 := by
  have same : component = max_metric ↔ component.toNat = 2 ^ 32 - 1 := by
    rw [← UInt64.toNat_inj]; exact Iff.rfl
  have low (value : UInt64) : (UInt64.ofNat (value.toNat % 2 ^ 48)).toNat = value.toNat % 2 ^ 48 := by
    have := Nat.mod_lt value.toNat (show 2 ^ 48 > 0 by decide)
    exact UInt64.toNat_ofNat_of_lt' (by simp [UInt64.size]; omega)
  have all (value : UInt64) : UInt64.ofNat (value.toNat % 2 ^ 48) = tlv2_inaccessible ↔
      value.toNat % 2 ^ 48 = 2 ^ 48 - 1 := by
    rw [← UInt64.toNat_inj, low]; rfl
  unfold field48
  by_cases infinite : component = max_metric
  · simp only [infinite]; decide
  · have finite : ¬ component.toNat = 2 ^ 32 - 1 := fun value => infinite (same.mpr value)
    simp only [infinite, if_false, finite, false_or, all]
    split
    · rfl
    · exact low component

theorem delay_infinite_iff (delay : UInt64) : delay = max_metric ↔ delay.toNat = 2 ^ 32 - 1 := by
  rw [← UInt64.toNat_inj]; exact Iff.rfl

theorem offset_delay_toNat (policy : OffsetPolicy) (direction : FilterDirection) (metric : Metrics) :
    (offset_metric_update policy direction metric).delay.toNat =
      if metric.delay.toNat = 2 ^ 32 - 1 then 2 ^ 32 - 1
      else match policy.offset direction with
        | none => metric.delay.toNat
        | some offset => min ((metric.delay.toNat + offset.toNat) % 2 ^ 64) (2 ^ 32 - 1) := by
  unfold offset_metric_update
  by_cases infinite : metric.delay = max_metric
  · rw [if_pos infinite, if_pos ((delay_infinite_iff _).mp infinite)]
    exact (delay_infinite_iff _).mp infinite
  · rw [if_neg infinite, if_neg fun value => infinite ((delay_infinite_iff _).mpr value)]
    cases policy.offset direction with
    | none => rfl
    | some offset =>
      have sum : (metric.delay + offset.toUInt64).toNat = (metric.delay.toNat + offset.toNat) % 2 ^ 64 := by simp
      simp only [ge_iff_le, UInt64.le_iff_toNat_le, max_metric_toNat]
      split
      · rw [max_metric_toNat]; omega
      · rw [sum] at *; omega

/-! ## Poison -/

/-- The receiver stores `EIGRP_MAX_METRIC` for both distances, whatever its K-values and its link. -/
def Infinite (metric : Metrics) : Prop :=
  ∀ (eigrp : MetricConfig) (ei : IntfParams),
    (store (metric_calculate eigrp metric)).toUInt64 = max_metric ∧
      (store (metric_total_calculate eigrp metric ei)).toUInt64 = max_metric

theorem infinite_iff (metric : Metrics) : Infinite metric ↔ metric.Unreachable := by
  constructor
  · intro infinite
    by_contra finite
    simp only [Metrics.Unreachable, not_or] at finite
    have zero : metric_calculate { k1 := 0, k3 := 0 } metric = 0 := by
      simp [metric_calculate,metric_composite,metric_sum,finite.1,finite.2]
    have stored := (infinite { k1 := 0, k3 := 0 } {}).1
    rw [zero] at stored
    exact absurd stored (by decide)
  · intro unreachable eigrp ei
    have total : metric_total eigrp metric ei = metric := if_pos unreachable
    rw [metric_total_calculate, total, and_self]
    rcases unreachable with classic | wide
    · have : metric_calculate eigrp metric = max_metric := by
        unfold metric_calculate
        rw [if_neg (by rw [classic]; decide), if_pos classic]
      rw [this]; decide
    · have : metric_calculate eigrp metric = metric_max := if_pos wide
      rw [this]; decide

/-- The delay at which an unreachable route lands behind the decoder. Only the 64-bit infinity is moved by
    an outbound offset, and the classic field holds no infinity at all. -/
def landing (format : TlvFormat) (delay : UInt64) (offset : Option UInt32) : Nat :=
  let offset := if delay = metric_max then (offset.getD 0).toNat else 0
  match format with
  | .tlv1 => if offset = 0 then 2 ^ 24 - 1 else max 1 ((offset - 1) % 2 ^ 24)
  | .tlv2 => if offset = 0 then 2 ^ 32 - 1 else offset - 1

/-- The delay of an unreachable route behind the outbound offset. -/
private theorem outbound_poison (policy : OffsetPolicy) {metric : Metrics} (unreachable : metric.Unreachable) :
    let offset := if metric.delay = metric_max then ((policy.offset .outbound).getD 0).toNat else 0
    let delay := (offset_metric_update policy .outbound metric).delay.toNat
    (offset = 0 ∧ (delay = 2 ^ 32 - 1 ∨ delay = 2 ^ 64 - 1)) ∨ (0 < offset ∧ offset < 2 ^ 32 ∧ delay = offset - 1) := by
  have moved := offset_delay_toNat policy .outbound metric
  rcases unreachable with classic | wide
  · have value : metric.delay.toNat = 2 ^ 32 - 1 := (delay_infinite_iff _).mp classic
    have narrow : ¬ metric.delay = metric_max := by rw [classic]; decide
    rw [if_pos value] at moved
    simp only [if_neg narrow]
    exact .inl ⟨trivial,.inl moved⟩
  · have value : metric.delay.toNat = 2 ^ 64 - 1 := by rw [wide]; rfl
    rw [if_neg (by rw [value]; decide), value] at moved
    simp only [if_pos wide]
    cases found : policy.offset .outbound with
    | none =>
      rw [found] at moved
      exact .inl ⟨rfl,.inr moved⟩
    | some offset =>
      have bound := offset.toNat_lt
      simp only [found] at moved
      simp only [Option.getD_some]
      rcases Nat.eq_zero_or_pos offset.toNat with none | some
      · rw [none] at moved
        exact .inl ⟨none,.inl (moved.trans (by decide))⟩
      · have wrapped : (2 ^ 64 - 1 + offset.toNat) % 2 ^ 64 = offset.toNat - 1 := by omega
        rw [wrapped, Nat.min_eq_left (by omega)] at moved
        exact .inr ⟨some,bound,moved⟩

theorem landing_eq (format : TlvFormat) (policy : OffsetPolicy) {metric : Metrics} (unreachable : metric.Unreachable) :
    (arrived format (offset_metric_update policy .outbound metric)).delay.toNat =
      landing format metric.delay (policy.offset .outbound) := by
  have sent := outbound_poison policy unreachable
  cases format with
  | tlv1 =>
    simp only [arrived, landing, tlv1_delay_toNat]
    generalize (if metric.delay = metric_max then ((policy.offset .outbound).getD 0).toNat else 0) = offset at *
    split <;> omega
  | tlv2 =>
    simp only [arrived, landing, field48_toNat]
    generalize (if metric.delay = metric_max then ((policy.offset .outbound).getD 0).toNat else 0) = offset at *
    split <;> split <;> omega

/-- An inbound offset makes a decoded delay infinite when it lifts it to `EIGRP_MAX_METRIC`. -/
theorem inbound_unreachable_iff (policy : OffsetPolicy) {metric : Metrics} (field : metric.delay.toNat < 2 ^ 48) :
    (offset_metric_update policy .inbound metric).Unreachable ↔
      metric.delay.toNat = 2 ^ 32 - 1 ∨
        ∃ offset, policy.offset .inbound = some offset ∧ 2 ^ 32 - 1 ≤ metric.delay.toNat + offset.toNat := by
  have moved := offset_delay_toNat policy .inbound metric
  have wide (delay : UInt64) : delay = metric_max ↔ delay.toNat = 2 ^ 64 - 1 := by
    rw [← UInt64.toNat_inj]; exact Iff.rfl
  rw [Metrics.Unreachable, delay_infinite_iff, wide, moved]
  by_cases infinite : metric.delay.toNat = 2 ^ 32 - 1
  · simp [infinite]
  · simp only [infinite, if_false, false_or]
    cases policy.offset .inbound with
    | none => simp; omega
    | some offset =>
      have bound := offset.toNat_lt
      simp only [Option.some.injEq, exists_eq_left']
      omega

/-! ## Reachable vectors -/

/-- The largest delay and bandwidth a decoder of the format returns short of infinity. -/
def TlvFormat.delay_field : TlvFormat → Nat
  | .tlv1 => 2 ^ 24 - 1
  | .tlv2 => 2 ^ 48 - 2
def TlvFormat.bandwidth_field : TlvFormat → Nat
  | .tlv1 => 2 ^ 32 - 1
  | .tlv2 => 2 ^ 48 - 2

/-- A component that was not improved on the way: at least as large, infinite, or at the limit of its field. -/
def NotReduced (limit : Nat) (sent got : UInt64) : Prop :=
  sent ≤ got ∨ got = max_metric ∨ got.toNat = limit

/-- What the wire must do to a vector: keep an unreachable one unreachable behind both offset lists, and never
    improve a reachable one; one whose components fit the format stays reachable. -/
structure Crosses (link : Crossing) (route : TlvRoute) : Prop where
  poison : route.metric.Unreachable → ∃ got, link.deliver route = some got ∧ Infinite got
  kept : ¬ route.metric.Unreachable → ∃ got, link.wire route = some got ∧
    NotReduced link.format.delay_field route.metric.delay got.delay ∧
    NotReduced link.format.bandwidth_field route.metric.bandwidth got.bandwidth
  reachable : ¬ route.metric.Unreachable → route.metric.delay.toNat ≤ link.format.delay_field →
    route.metric.bandwidth.toNat ≤ link.format.bandwidth_field →
    ∃ got, link.wire route = some got ∧ ¬ got.Unreachable

/-- Components the codec carries without reduction: within the field, or reduced onto a value that is not a
    smaller distance. -/
def Carried (format : TlvFormat) (metric : Metrics) : Prop :=
  match format with
  | .tlv1 =>
    (metric.delay.toNat < 2 ^ 24 ∨ metric.delay.toNat % 2 ^ 24 = 2 ^ 24 - 1) ∧
      (metric.bandwidth.toNat < 2 ^ 32 ∨ metric.bandwidth.toNat % 2 ^ 32 = 2 ^ 32 - 1)
  | .tlv2 =>
    (metric.delay.toNat < 2 ^ 48 ∨ metric.delay.toNat % 2 ^ 48 ∈ [2 ^ 48 - 1, 2 ^ 48 - 2, 2 ^ 32 - 1]) ∧
      (metric.bandwidth.toNat < 2 ^ 48 ∨ metric.bandwidth.toNat % 2 ^ 48 ∈ [2 ^ 48 - 1, 2 ^ 48 - 2, 2 ^ 32 - 1])

private theorem tlv1_delay_notReduced (delay : UInt64) :
    NotReduced (2 ^ 24 - 1) delay (scaled_to_delay (delay_to_scaled delay)) ↔
      delay.toNat < 2 ^ 24 ∨ delay.toNat % 2 ^ 24 = 2 ^ 24 - 1 := by
  rw [NotReduced, delay_infinite_iff, UInt64.le_iff_toNat_le, tlv1_delay_toNat]
  omega

private theorem tlv1_bandwidth_notReduced (bandwidth : UInt64) :
    NotReduced (2 ^ 32 - 1) bandwidth bandwidth.toUInt32.toUInt64 ↔
      bandwidth.toNat < 2 ^ 32 ∨ bandwidth.toNat % 2 ^ 32 = 2 ^ 32 - 1 := by
  have got : bandwidth.toUInt32.toUInt64.toNat = bandwidth.toNat % 2 ^ 32 := by simp
  rw [NotReduced, delay_infinite_iff, UInt64.le_iff_toNat_le, got]
  omega

private theorem field48_notReduced (component : UInt64) :
    NotReduced (2 ^ 48 - 2) component (field48 component) ↔
      component.toNat < 2 ^ 48 ∨ component.toNat % 2 ^ 48 ∈ [2 ^ 48 - 1, 2 ^ 48 - 2, 2 ^ 32 - 1] := by
  rw [NotReduced, delay_infinite_iff, UInt64.le_iff_toNat_le, field48_toNat]
  simp only [List.mem_cons, List.not_mem_nil, or_false]
  split <;> omega

private theorem notReduced_iff (format : TlvFormat) (metric : Metrics) :
    (NotReduced format.delay_field metric.delay (arrived format metric).delay ∧
      NotReduced format.bandwidth_field metric.bandwidth (arrived format metric).bandwidth) ↔ Carried format metric := by
  cases format with
  | tlv1 => exact and_congr (tlv1_delay_notReduced _) (tlv1_bandwidth_notReduced _)
  | tlv2 => exact and_congr (field48_notReduced _) (field48_notReduced _)

theorem arrived_delay_field (format : TlvFormat) (metric : Metrics) :
    (arrived format metric).delay.toNat < 2 ^ 48 := by
  cases format with
  | tlv1 => simp only [arrived, tlv1_delay_toNat]; omega
  | tlv2 => simp only [arrived, field48_toNat]; split <;> omega

/-- A delay within the field arrives as a finite one. -/
private theorem arrived_reachable {format : TlvFormat} {metric : Metrics} (finite : ¬ metric.Unreachable)
    (delay : metric.delay.toNat ≤ format.delay_field) : ¬ (arrived format metric).Unreachable := by
  have field := arrived_delay_field format metric
  have infinite : ¬ metric.delay.toNat = 2 ^ 32 - 1 := fun value => finite (.inl ((delay_infinite_iff _).mpr value))
  rintro (classic | wide)
  · rw [delay_infinite_iff] at classic
    cases format with
    | tlv1 => simp only [arrived, tlv1_delay_toNat] at classic; omega
    | tlv2 =>
      simp only [arrived, field48_toNat, TlvFormat.delay_field] at classic delay
      split at classic <;> omega
  · rw [wide] at field
    exact absurd field (by decide)

/-- For every format, pair of offset policies and vector: a crossing keeps poison and improves nothing exactly
    when an unreachable delay lands on `EIGRP_MAX_METRIC` or is lifted there by the inbound offset, and the
    components of a reachable vector are carried by their fields. -/
theorem crosses_iff (link : Crossing) (route : TlvRoute) :
    Crosses link route ↔
      (route.metric.Unreachable →
        landing link.format route.metric.delay (link.sender.offset .outbound) = 2 ^ 32 - 1 ∨
        ∃ offset, link.receiver.offset .inbound = some offset ∧
          2 ^ 32 - 1 ≤ landing link.format route.metric.delay (link.sender.offset .outbound) + offset.toNat) ∧
      (¬ route.metric.Unreachable → Carried link.format route.metric) := by
  constructor
  · rintro ⟨poison,kept,_⟩
    refine ⟨fun unreachable => ?_, fun finite => ?_⟩
    · obtain ⟨got,delivered,infinite⟩ := poison unreachable
      rw [deliver_eq, Option.some.injEq] at delivered
      rw [infinite_iff, ← delivered, inbound_unreachable_iff _ (arrived_delay_field _ _),
        landing_eq _ _ unreachable] at infinite
      exact infinite
    · obtain ⟨got,crossed,delay,bandwidth⟩ := kept finite
      rw [wire_eq, Option.some.injEq] at crossed
      subst crossed
      exact (notReduced_iff _ _).mp ⟨delay,bandwidth⟩
  · rintro ⟨poison,carried⟩
    refine ⟨fun unreachable => ⟨_,deliver_eq link route,?_⟩, fun finite => ⟨_,wire_eq link route,?_⟩,
      fun finite delay _ => ⟨_,wire_eq link route,arrived_reachable finite delay⟩⟩
    · rw [infinite_iff, inbound_unreachable_iff _ (arrived_delay_field _ _), landing_eq _ _ unreachable]
      exact poison unreachable
    · exact (notReduced_iff _ _).mpr (carried finite)

/-- A withdrawal without any offset list, sent in a classic TLV, is decoded with the finite delay 0xffffff. -/
theorem crosses_classic_withdrawal :
    ¬ Crosses ⟨.tlv1,.ipv4,0x0a000001,false,⟨[],none,fun _ => false⟩,⟨[],none,fun _ => false⟩⟩
        { metric := { delay := max_metric } } := by
  intro crosses
  obtain ⟨got,delivered,infinite⟩ := crosses.poison (.inl rfl)
  rw [deliver_eq, Option.some.injEq] at delivered
  subst delivered
  exact absurd (infinite {} {}).1 (by decide)

end Eigrp
