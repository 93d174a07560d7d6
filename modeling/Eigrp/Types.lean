import Mathlib.Tactic

/-!
# Metric vectors and their parameters

The records of `eigrp.h` and `eigrp_structs.h` that the metric code reads, with the widths of
the C types. The two infinities of the source keep their names: `EIGRP_MAX_METRIC` is the 32-bit
one, `EIGRP_METRIC_MAX` the 64-bit one.
-/

namespace Eigrp

/-- `EIGRP_MAX_METRIC`, also `EIGRP_CLASSIC_MAX`. -/
def max_metric : UInt64 := 0xffffffff

/-- `EIGRP_METRIC_MAX`, also `EIGRP_BANDWIDTH_MAX`. -/
def metric_max : UInt64 := 0xffffffffffffffff

/-- `EIGRP_TLV_64B_VERSION`: the first metric version that uses wide metrics. -/
def tlv_64b_version : UInt8 := 2

/-- The three octets `mtu[0]`, `mtu[1]`, `mtu[2]`, low octet first. -/
structure Mtu where
  b0 : UInt8 := 0
  b1 : UInt8 := 0
  b2 : UInt8 := 0
deriving DecidableEq, Repr

/-- `eigrp_metrics_t`. -/
structure Metrics where
  delay : UInt64 := 0
  bandwidth : UInt64 := 0
  mtu : Mtu := {}
  hop_count : UInt8 := 0
  reliability : UInt8 := 0
  load : UInt8 := 0
  tag : UInt8 := 0
  flags : UInt8 := 0
deriving DecidableEq, Repr

/-- `eigrp_metric_values_t`: a seed metric as the operator writes it. -/
structure MetricValues where
  bandwidth : UInt32
  delay : UInt32
  reliability : UInt8
  load : UInt8
  mtu : UInt16
deriving DecidableEq, Repr

/-- The link parameters of `eigrp_intf_params_t` that enter a metric. -/
structure IntfParams where
  bandwidth : UInt32 := 100000
  delay : UInt32 := 10
  reliability : UInt8 := 255
  load : UInt8 := 1
deriving DecidableEq, Repr

/-- The fields of `eigrp_instance_t` that the composite metric reads. -/
structure MetricConfig where
  k1 : UInt8 := 1
  k2 : UInt8 := 0
  k3 : UInt8 := 1
  k4 : UInt8 := 0
  k5 : UInt8 := 0
  k6 : UInt8 := 0
  metric_version : UInt8 := 2
  max_hops : UInt8 := 100
deriving DecidableEq, Repr

/-- `eigrp_extdata_t`. -/
structure ExtData where
  orig : UInt32 := 0
  as : UInt32 := 0
  tag : UInt32 := 0
  metric : UInt32 := 0
  reserved : UInt16 := 0
  protocol : UInt8 := 0
  flags : UInt8 := 0
deriving DecidableEq, Repr

@[simp] theorem max_metric_toNat : max_metric.toNat = 4294967295 := rfl
@[simp] theorem metric_max_toNat : metric_max.toNat = 18446744073709551615 := rfl

/-- The delay of a vector that stands for no path: one of the two infinities. -/
def Metrics.Unreachable (metric : Metrics) : Prop := metric.delay = max_metric ∨ metric.delay = metric_max

instance (metric : Metrics) : Decidable metric.Unreachable := inferInstanceAs (Decidable (_ ∨ _))

end Eigrp
