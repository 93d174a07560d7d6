import Eigrp.Metric
import Eigrp.Lib.Words

/-!
# Composites and the distances stored from them

The composite metric over unbounded numbers, and when the 64-bit computation and the 32-bit field
it is stored in agree with it.
-/

namespace Eigrp
open Eigrp.Lib

/-! ## The composite over unbounded numbers -/

def exactScale (eigrp : MetricConfig) : Nat := if eigrp.metric_version ≥ tlv_64b_version then 256 else 1

/-- A component weighted by its K-value and scaled. -/
def exactTerm (eigrp : MetricConfig) (k : UInt8) (component : UInt64) : Nat :=
  k.toNat * component.toNat * exactScale eigrp

def exactSum (eigrp : MetricConfig) (metric : Metrics) : Nat :=
  exactTerm eigrp eigrp.k1 metric.bandwidth + exactTerm eigrp eigrp.k2 metric.bandwidth / (256 - metric.load.toNat)
    + exactTerm eigrp eigrp.k3 metric.delay

def exactComposite (eigrp : MetricConfig) (metric : Metrics) : Nat :=
  if eigrp.k5 ≠ 0 then exactSum eigrp metric * eigrp.k5.toNat / (metric.reliability.toNat + eigrp.k4.toNat)
  else exactSum eigrp metric

/-- The vector reaches the formula: neither infinity, and no division by zero. -/
def Composed (eigrp : MetricConfig) (metric : Metrics) : Prop :=
  ¬ metric.Unreachable ∧ ¬ (eigrp.k5 ≠ 0 ∧ metric_denominator eigrp metric = 0)

/-- No weighted term, sum or product of the formula exceeds 64 bits. -/
structure NoOverflow (eigrp : MetricConfig) (metric : Metrics) : Prop where
  load_term : exactTerm eigrp eigrp.k2 metric.bandwidth < 2 ^ 64
  sum : exactSum eigrp metric < 2 ^ 64
  product : exactSum eigrp metric * eigrp.k5.toNat < 2 ^ 64

/-- Wide composites must fit the 32-bit distance field, or be congruent to its largest value. -/
structure Fits (eigrp : MetricConfig) (metric : Metrics) : Prop where
  word : NoOverflow eigrp metric
  field : eigrp.metric_version ≥ tlv_64b_version →
    exactComposite eigrp metric < 2 ^ 32 ∨ exactComposite eigrp metric % 2 ^ 32 = 2 ^ 32 - 1

theorem metric_scale_toNat (eigrp : MetricConfig) : (metric_scale eigrp).toNat = exactScale eigrp := by
  unfold metric_scale exactScale
  split <;> rfl

/-- A weighted term of the source is the exact one modulo the word. -/
theorem term_toNat (eigrp : MetricConfig) (k : UInt8) (component : UInt64) :
    (k.toUInt64 * component * metric_scale eigrp).toNat = exactTerm eigrp k component % 2 ^ 64 := by
  simp [exactTerm, metric_scale_toNat, UInt64.toNat_mul]

theorem exactTerm_zero (eigrp : MetricConfig) (component : UInt64) : exactTerm eigrp 0 component = 0 := by
  simp [exactTerm]

theorem load_divisor (load : UInt8) : (256 - load.toUInt64).toNat = 256 - load.toNat := by
  have bound := load.toNat_lt
  rw [UInt64.toNat_sub_of_le]
  · simp
  · rw [UInt64.le_iff_toNat_le]; simp; omega

/-- The sum of the source, with only the load term divided after it wrapped. -/
theorem metric_sum_toNat (eigrp : MetricConfig) (metric : Metrics) :
    (metric_sum eigrp metric).toNat =
      (exactTerm eigrp eigrp.k1 metric.bandwidth
        + exactTerm eigrp eigrp.k2 metric.bandwidth % 2 ^ 64 / (256 - metric.load.toNat)
        + exactTerm eigrp eigrp.k3 metric.delay) % 2 ^ 64 := by
  have zero (component : UInt64) (k : UInt8) (none : ¬ k ≠ 0) : exactTerm eigrp k component = 0 := by
    rw [not_not.mp none, exactTerm_zero]
  unfold metric_sum
  simp only
  split_ifs with one two three three two three three <;>
    simp only [UInt64.toNat_add, UInt64.toNat_div, term_toNat, load_divisor, UInt64.toNat_zero] <;>
    simp_all [exactTerm_zero]

theorem metric_denominator_toNat (eigrp : MetricConfig) (metric : Metrics) :
    (metric_denominator eigrp metric).toNat = metric.reliability.toNat + eigrp.k4.toNat := by
  have := metric.reliability.toNat_lt
  have := eigrp.k4.toNat_lt
  simp [metric_denominator]
  omega

/-- A sum that wrapped anywhere is far below the exact one. -/
private theorem metric_sum_short {eigrp : MetricConfig} {metric : Metrics}
    (large : ¬ (exactTerm eigrp eigrp.k2 metric.bandwidth < 2 ^ 64 ∧ exactSum eigrp metric < 2 ^ 64)) :
    (metric_sum eigrp metric).toNat + 2 ^ 56 ≤ exactSum eigrp metric := by
  have loadBound := metric.load.toNat_lt
  rw [metric_sum_toNat]
  by_cases term : exactTerm eigrp eigrp.k2 metric.bandwidth < 2 ^ 64
  · have sum : 2 ^ 64 ≤ exactSum eigrp metric := not_lt.mp fun small => large ⟨term,small⟩
    rw [Nat.mod_eq_of_lt term]
    have := wrapped_lt sum (by decide)
    unfold exactSum at *
    omega
  · have lost := wrapped_div_add_le (not_lt.mp term) (d := 256 - metric.load.toNat)
    have rate : 2 ^ 64 / 256 ≤ 2 ^ 64 / (256 - metric.load.toNat) := Nat.div_le_div_left (by omega) (by omega)
    have wrap := Nat.mod_le (exactTerm eigrp eigrp.k1 metric.bandwidth
      + exactTerm eigrp eigrp.k2 metric.bandwidth % 2 ^ 64 / (256 - metric.load.toNat)
      + exactTerm eigrp eigrp.k3 metric.delay) (2 ^ 64)
    unfold exactSum
    omega

theorem metric_sum_exact {eigrp : MetricConfig} {metric : Metrics}
    (term : exactTerm eigrp eigrp.k2 metric.bandwidth < 2 ^ 64) (sum : exactSum eigrp metric < 2 ^ 64) :
    (metric_sum eigrp metric).toNat = exactSum eigrp metric := by
  rw [metric_sum_toNat, Nat.mod_eq_of_lt term]
  exact Nat.mod_eq_of_lt sum

private theorem metric_composite_toNat (eigrp : MetricConfig) (metric : Metrics) :
    (metric_composite eigrp metric).toNat =
      if eigrp.k5 ≠ 0 then
        (metric_sum eigrp metric).toNat * eigrp.k5.toNat % 2 ^ 64 / (metric.reliability.toNat + eigrp.k4.toNat)
      else (metric_sum eigrp metric).toNat := by
  unfold metric_composite
  split
  · simp [metric_denominator_toNat]
  · rfl

/-- The 64-bit composite is the exact one precisely when no step of the formula overflows. -/
theorem composite_exact_iff {eigrp : MetricConfig} {metric : Metrics} (composed : Composed eigrp metric) :
    (metric_composite eigrp metric).toNat = exactComposite eigrp metric ↔ NoOverflow eigrp metric := by
  have weight := eigrp.k5.toNat_lt
  rw [metric_composite_toNat]
  unfold exactComposite
  by_cases k5 : eigrp.k5 ≠ 0
  · have positive : 0 < metric.reliability.toNat + eigrp.k4.toNat := by
      rw [← metric_denominator_toNat]
      exact Nat.pos_of_ne_zero fun zero => composed.2 ⟨k5, UInt64.toNat_inj.mp zero⟩
    have divisor : metric.reliability.toNat + eigrp.k4.toNat ≤ 2 ^ 9 := by
      have := metric.reliability.toNat_lt
      have := eigrp.k4.toNat_lt
      omega
    have k5pos : 1 ≤ eigrp.k5.toNat := Nat.one_le_iff_ne_zero.mpr fun zero => k5 (UInt8.toNat_inj.mp zero)
    simp only [k5, if_true, not_false_eq_true, ne_eq]
    constructor
    · intro same
      by_cases fit : exactTerm eigrp eigrp.k2 metric.bandwidth < 2 ^ 64 ∧ exactSum eigrp metric < 2 ^ 64
      · rw [metric_sum_exact fit.1 fit.2, wrapped_div_eq_iff positive (by omega)] at same
        exact ⟨fit.1,fit.2,same⟩
      · exfalso
        have short := metric_sum_short fit
        have scaled : (metric_sum eigrp metric).toNat * eigrp.k5.toNat + 2 ^ 56 ≤ exactSum eigrp metric * eigrp.k5.toNat := by
          nlinarith
        have below : (metric_sum eigrp metric).toNat * eigrp.k5.toNat % 2 ^ 64 / (metric.reliability.toNat + eigrp.k4.toNat)
            < exactSum eigrp metric * eigrp.k5.toNat / (metric.reliability.toNat + eigrp.k4.toNat) := by
          refine lt_of_le_of_lt wrapped_div_le (div_lt_div_of_add_le positive ?_)
          omega
        omega
    · rintro ⟨term,sum,product⟩
      rw [metric_sum_exact term sum, Nat.mod_eq_of_lt product]
  · have zero : eigrp.k5 = 0 := not_not.mp k5
    simp only [zero, ne_eq, not_true_eq_false, if_false]
    constructor
    · intro same
      by_contra overflow
      have fit : ¬ (exactTerm eigrp eigrp.k2 metric.bandwidth < 2 ^ 64 ∧ exactSum eigrp metric < 2 ^ 64) :=
        fun both => overflow ⟨both.1,both.2,by simp [zero]⟩
      have := metric_sum_short fit
      omega
    · rintro ⟨term,sum,_⟩
      exact metric_sum_exact term sum

/-! ## Stored distances -/

/-- What a distance field must be for its composite: computed without wrapping, the composite itself
    while that is below `EIGRP_MAX_METRIC`, and `EIGRP_MAX_METRIC` from there on. -/
structure Faithful (eigrp : MetricConfig) (metric : Metrics) : Prop where
  exact : Composed eigrp metric → (metric_composite eigrp metric).toNat = exactComposite eigrp metric
  unchanged : metric_calculate eigrp metric < max_metric →
    (store (metric_calculate eigrp metric)).toNat = (metric_calculate eigrp metric).toNat
  saturates : metric_calculate eigrp metric ≥ max_metric → (store (metric_calculate eigrp metric)).toUInt64 = max_metric

/-- Two distances stored under one configuration: each is faithful, and their order is that of the composites. -/
structure StoredFaithfully (eigrp : MetricConfig) (a b : Metrics) : Prop where
  first : Faithful eigrp a
  second : Faithful eigrp b
  monotone : metric_calculate eigrp a ≤ metric_calculate eigrp b →
    store (metric_calculate eigrp a) ≤ store (metric_calculate eigrp b)

/-- The two clauses on the field say together that the assignment saturates. -/
private theorem store_saturates_iff (distance : UInt64) :
    ((distance < max_metric → (store distance).toNat = distance.toNat) ∧
      (distance ≥ max_metric → (store distance).toUInt64 = max_metric)) ↔ store distance = saturate distance := by
  have value : (saturate distance).toNat = min distance.toNat 4294967295 := saturate_toNat distance
  have stored : (store distance).toUInt64 = max_metric ↔ (store distance).toNat = 4294967295 := by
    rw [← UInt64.toNat_inj]; simp
  rw [stored, ← UInt32.toNat_inj, value, UInt64.lt_iff_toNat_lt, ge_iff_le, UInt64.le_iff_toNat_le, max_metric_toNat]
  constructor
  · rintro ⟨below,above⟩
    rcases Nat.lt_or_ge distance.toNat 4294967295 with small | large
    · rw [below small]; omega
    · rw [above large]; omega
  · intro same
    exact ⟨fun small => by omega, fun large => by omega⟩

/-- Outside the formula the code returns an infinity, which truncates to `EIGRP_MAX_METRIC`. -/
theorem metric_calculate_infinite {eigrp : MetricConfig} {metric : Metrics} (infinite : ¬ Composed eigrp metric) :
    metric_calculate eigrp metric = metric_max ∨ metric_calculate eigrp metric = max_metric := by
  unfold metric_calculate
  by_cases wide : metric.delay = metric_max
  · exact .inl (if_pos wide)
  · by_cases classic : metric.delay = max_metric
    · exact .inr (by rw [if_neg wide, if_pos classic])
    · by_cases divisor : eigrp.k5 ≠ 0 ∧ metric_denominator eigrp metric = 0
      · simp [wide,classic,divisor]
      · exact absurd ⟨by simp [Metrics.Unreachable,wide,classic],divisor⟩ infinite

theorem metric_calculate_composed {eigrp : MetricConfig} {metric : Metrics} (composed : Composed eigrp metric) :
    metric_calculate eigrp metric =
      if eigrp.metric_version < tlv_64b_version ∧ metric_composite eigrp metric > max_metric then max_metric
      else metric_composite eigrp metric := by
  obtain ⟨reachable,divisor⟩ := composed
  simp only [Metrics.Unreachable, not_or] at reachable
  simp [metric_calculate,reachable.1,reachable.2,divisor]

/-- With the classic scale the bound keeps every composite in the field. -/
private theorem store_classic {eigrp : MetricConfig} {metric : Metrics} (composed : Composed eigrp metric)
    (classic : eigrp.metric_version < tlv_64b_version) : (metric_calculate eigrp metric).toNat < 2 ^ 32 := by
  rw [metric_calculate_composed composed]
  by_cases large : metric_composite eigrp metric > max_metric
  · simp [classic,large]
  · have := UInt64.le_iff_toNat_le.mp (UInt64.not_lt.mp large)
    simp only [classic, large, and_false, if_false]
    rw [max_metric_toNat] at this
    omega

private theorem metric_calculate_wide {eigrp : MetricConfig} {metric : Metrics} (composed : Composed eigrp metric)
    (wide : eigrp.metric_version ≥ tlv_64b_version) :
    metric_calculate eigrp metric = metric_composite eigrp metric := by
  rw [metric_calculate_composed composed, if_neg fun both => UInt8.not_lt.mpr wide both.1]

/-- One stored distance is faithful exactly when its composite fits the words it passes through. -/
theorem faithful_iff (eigrp : MetricConfig) (metric : Metrics) :
    Faithful eigrp metric ↔ (Composed eigrp metric → Fits eigrp metric) := by
  have split : Faithful eigrp metric ↔
      (Composed eigrp metric → (metric_composite eigrp metric).toNat = exactComposite eigrp metric) ∧
        store (metric_calculate eigrp metric) = saturate (metric_calculate eigrp metric) := by
    rw [← store_saturates_iff]
    exact ⟨fun ⟨exact,unchanged,saturates⟩ => ⟨exact,unchanged,saturates⟩,
      fun ⟨exact,unchanged,saturates⟩ => ⟨exact,unchanged,saturates⟩⟩
  rw [split, store, truncate_saturates_iff]
  by_cases composed : Composed eigrp metric
  · simp only [composed, true_imp_iff]
    constructor
    · rintro ⟨exact,field⟩
      refine ⟨(composite_exact_iff composed).mp exact, fun wide => ?_⟩
      rw [metric_calculate_wide composed wide, exact] at field
      exact field
    · rintro ⟨word,field⟩
      have exact := (composite_exact_iff composed).mpr word
      refine ⟨exact, ?_⟩
      by_cases wide : eigrp.metric_version ≥ tlv_64b_version
      · rw [metric_calculate_wide composed wide, exact]
        exact field wide
      · exact .inl (store_classic composed (UInt8.not_le.mp wide))
  · simp only [composed, false_imp_iff, true_and, iff_true]
    rcases metric_calculate_infinite composed with wide | classic
    · rw [wide]; decide
    · rw [classic]; decide

/-- For all K-values, versions and vectors: the distances stored for two vectors are faithful, ordered as
    their composites, exactly when every composite that is computed fits 64 bits on the way and, with
    wide metrics, the 32-bit field at the end. -/
theorem stored_faithfully_iff (eigrp : MetricConfig) (a b : Metrics) :
    StoredFaithfully eigrp a b ↔
      (Composed eigrp a → Fits eigrp a) ∧ (Composed eigrp b → Fits eigrp b) := by
  rw [← faithful_iff, ← faithful_iff]
  constructor
  · rintro ⟨first,second,_⟩
    exact ⟨first,second⟩
  · rintro ⟨first,second⟩
    refine ⟨first, second, fun le => ?_⟩
    have savedA := (store_saturates_iff _).mp ⟨first.unchanged,first.saturates⟩
    have savedB := (store_saturates_iff _).mp ⟨second.unchanged,second.saturates⟩
    rw [savedA, savedB]
    exact saturate_mono le

/-- Default K-values and wide metrics: a 64 kbit/s link is stored as nearer than a 256 kbit/s link. -/
theorem stored_faithfully_slow_link :
    ¬ StoredFaithfully {} (intf_metric { bandwidth := 256, delay := 2000 })
        (intf_metric { bandwidth := 64, delay := 2000 }) := by
  intro faithful
  exact absurd (faithful.monotone (by decide)) (by decide)

end Eigrp
