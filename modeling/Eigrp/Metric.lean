import Eigrp.Types

/-!
# The composite metric

`eigrp_metric.c`: conversion of link parameters to the scaled components, the composite of a
metric vector and the total over a link. All arithmetic is that of the C types, 64-bit words that
wrap; a distance is stored by truncation to 32 bits.
-/

namespace Eigrp

/-! ## Conversions -/

/-- `eigrp_bandwidth_to_scaled`. The source divides: callers pass a positive bandwidth. -/
def bandwidth_to_scaled (bandwidth : UInt64) : UInt32 :=
  let scaled : UInt64 :=
    if bandwidth ≠ metric_max then
      let scaled := 2560000000 / bandwidth
      if scaled ≠ 0 then scaled else 1
    else metric_max
  let scaled := if scaled < metric_max then scaled else metric_max
  scaled.toUInt32

/-- `eigrp_delay_to_scaled`. -/
def delay_to_scaled (delay : UInt64) : UInt32 :=
  let delay := if delay ≠ 0 then delay else 1
  (delay * 256).toUInt32

/-- `eigrp_scaled_to_delay`. -/
def scaled_to_delay (scaled : UInt32) : UInt64 :=
  let scaled := scaled / 256
  let scaled := if scaled ≠ 0 then scaled else 1
  scaled.toUInt64

/-- `eigrp_metric_values_convert`. -/
def metric_values_convert (values : MetricValues) : Metrics where
  bandwidth := (bandwidth_to_scaled values.bandwidth.toUInt64).toUInt64
  delay := values.delay.toUInt64
  reliability := values.reliability
  load := values.load
  mtu := { b0 := values.mtu.toUInt8, b1 := (values.mtu >>> 8).toUInt8 }

/-! ## The composite -/

/-- The factor that promotes the 256-scaled components to the wide scale. -/
def metric_scale (eigrp : MetricConfig) : UInt64 := if eigrp.metric_version ≥ tlv_64b_version then 65536 / 256 else 1

/-- Throughput and latency added up, before the reliability factor. -/
def metric_sum (eigrp : MetricConfig) (metric : Metrics) : UInt64 :=
  let scale := metric_scale eigrp
  let throughput := if eigrp.k1 ≠ 0 then eigrp.k1.toUInt64 * metric.bandwidth * scale else 0
  let throughput :=
    if eigrp.k2 ≠ 0 then
      throughput + eigrp.k2.toUInt64 * metric.bandwidth * scale / (256 - metric.load.toUInt64)
    else throughput
  let latency := if eigrp.k3 ≠ 0 then eigrp.k3.toUInt64 * metric.delay * scale else 0
  throughput + latency

/-- The divisor of the reliability factor, used when K5 is set. -/
def metric_denominator (eigrp : MetricConfig) (metric : Metrics) : UInt64 :=
  metric.reliability.toUInt64 + eigrp.k4.toUInt64

/-- The composite as `eigrp_metric_calculate` computes it, before the classic bound. -/
def metric_composite (eigrp : MetricConfig) (metric : Metrics) : UInt64 :=
  if eigrp.k5 ≠ 0 then metric_sum eigrp metric * eigrp.k5.toUInt64 / metric_denominator eigrp metric
  else metric_sum eigrp metric

/-- `eigrp_metric_calculate`. -/
def metric_calculate (eigrp : MetricConfig) (metric : Metrics) : UInt64 :=
  if metric.delay = metric_max then metric_max
  else if metric.delay = max_metric then max_metric
  else if eigrp.k5 ≠ 0 ∧ metric_denominator eigrp metric = 0 then metric_max
  else if eigrp.metric_version < tlv_64b_version ∧ metric_composite eigrp metric > max_metric then max_metric
  else metric_composite eigrp metric

/-- The vector that `eigrp_metric_total_calculate` writes to `entry->total_metric`. -/
def metric_total (eigrp : MetricConfig) (reported_metric : Metrics) (ei : IntfParams) : Metrics :=
  if reported_metric.delay = max_metric ∨ reported_metric.delay = metric_max then reported_metric
  else
    let link_delay := (delay_to_scaled ei.delay.toUInt64).toUInt64
    let delay := if reported_metric.delay ≥ metric_max - link_delay then metric_max else reported_metric.delay + link_delay
    let delay := if reported_metric.hop_count = 255 then metric_max else delay
    let hop_count := if reported_metric.hop_count = 255 then 255 else reported_metric.hop_count + 1
    let delay := if hop_count > eigrp.max_hops then metric_max else delay
    let bw := (bandwidth_to_scaled ei.bandwidth.toUInt64).toUInt64
    { reported_metric with
      delay := delay
      hop_count := hop_count
      bandwidth := if bw > reported_metric.bandwidth then bw else reported_metric.bandwidth }

/-- `eigrp_metric_total_calculate`. -/
def metric_total_calculate (eigrp : MetricConfig) (reported_metric : Metrics) (ei : IntfParams) : UInt64 :=
  metric_calculate eigrp (metric_total eigrp reported_metric ei)

/-- `eigrp_metrics_match`: tag and flags are not compared. -/
def metrics_match (metric1 metric2 : Metrics) : Bool :=
  metric1.bandwidth == metric2.bandwidth && metric1.delay == metric2.delay && metric1.hop_count == metric2.hop_count
    && metric1.load == metric2.load && metric1.reliability == metric2.reliability && metric1.mtu == metric2.mtu

/-- The vector that `eigrp_intf_up` prepares for the connected destination of an interface. -/
def intf_metric (ei : IntfParams) : Metrics where
  bandwidth := (bandwidth_to_scaled ei.bandwidth.toUInt64).toUInt64
  delay := (delay_to_scaled ei.delay.toUInt64).toUInt64
  load := ei.load
  reliability := ei.reliability
  mtu := { b0 := 0xDC, b1 := 0x05, b2 := 0x00 }

/-- A distance field is `uint32_t`: assigning the composite truncates it. -/
def store (distance : UInt64) : UInt32 := distance.toUInt32

/-- `eigrp_topology_redistributed_distance`. -/
def redistributed_distance (eigrp : MetricConfig) (metric : Metrics) : UInt64 :=
  if metric.delay = max_metric then max_metric
  else
    let distance := metric_calculate eigrp { metric with delay := (delay_to_scaled metric.delay).toUInt64 }
    if distance > max_metric then max_metric else distance

end Eigrp
