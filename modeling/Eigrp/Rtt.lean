import Mathlib.Tactic

/-!
# Round-trip estimation

The estimator of a neighbor in `eigrp_neighbor.c`: a smoothed round-trip time, its variation, and the retransmission timeout
that both ACKs and retransmissions move. A smoothed value goes part of the way from the old value to the new one, the
signed division rounding towards zero, so it never passes either of them.
-/

namespace Eigrp

/-- `EIGRP_TRANSPORT_RTO_INITIAL_MSEC`. -/
def rto_initial_msec : UInt32 := 2000

/-- `EIGRP_TRANSPORT_RTO_MIN_MSEC`. -/
def rto_min_msec : UInt32 := 200

/-- `EIGRP_TRANSPORT_RTO_MAX_MSEC`. -/
def rto_max_msec : UInt32 := 5000

/-- `EIGRP_TRANSPORT_RTO_SRTT_MULTIPLIER`. -/
def rto_srtt_multiplier : UInt64 := 6

/-- `1U << EIGRP_NEIGHBOR_SRTT_ALPHA_SHIFT`. -/
def srtt_alpha : Int := 1 <<< 3

/-- `1U << EIGRP_NEIGHBOR_RTTVAR_BETA_SHIFT`. -/
def rttvar_beta : Int := 1 <<< 2

/-- The fields of `eigrp_nbr_t` that the estimator keeps. -/
structure Rtt where
  srtt_valid : Bool := false
  srtt_msec : UInt32 := 0
  rttvar_msec : UInt32 := 0
  rto_msec : UInt32 := 0
deriving DecidableEq, Repr

/-- `eigrp_nbr_rto_calculate`. -/
def rto_calculate (srtt_msec : UInt32) : UInt32 :=
  let rto := srtt_msec.toUInt64 * rto_srtt_multiplier
  if rto < rto_min_msec.toUInt64 then rto_min_msec
  else if rto_max_msec.toUInt64 < rto then rto_max_msec
  else rto.toUInt32

/-- An `int64_t` that is not negative, as a `uint32_t`. -/
def clamped (value : Int) : UInt32 := UInt32.ofNat (if value < 0 then 0 else value).toNat

namespace Rtt

/-- `eigrp_nbr_rtt_clear`. -/
def clear (_ : Rtt) : Rtt := { rto_msec := rto_initial_msec }

/-- The variation after a sample, before it is clamped. -/
def next_rttvar (nbr : Rtt) (sample_msec : UInt32) : Int :=
  let error : Int := sample_msec.toNat - nbr.srtt_msec.toNat
  let variance_error := (if error < 0 then -error else error) - nbr.rttvar_msec.toNat
  nbr.rttvar_msec.toNat + variance_error.tdiv rttvar_beta

/-- The smoothed time after a sample, before it is clamped. -/
def next_srtt (nbr : Rtt) (sample_msec : UInt32) : Int :=
  let error : Int := sample_msec.toNat - nbr.srtt_msec.toNat
  nbr.srtt_msec.toNat + error.tdiv srtt_alpha

/-- `eigrp_nbr_rtt_sample`. -/
def sample (nbr : Rtt) (sample_msec : UInt32) : Rtt :=
  if nbr.srtt_valid = false then
    { srtt_valid := true
      srtt_msec := sample_msec
      rttvar_msec := sample_msec / 2
      rto_msec := rto_calculate sample_msec }
  else
    let srtt_msec := clamped (nbr.next_srtt sample_msec)
    { nbr with rttvar_msec := clamped (nbr.next_rttvar sample_msec), srtt_msec, rto_msec := rto_calculate srtt_msec }

/-- `eigrp_nbr_rto`. -/
def rto (nbr : Rtt) : UInt32 := if nbr.rto_msec = 0 then rto_initial_msec else nbr.rto_msec

/-- `eigrp_nbr_rto_backoff`. -/
def backoff (nbr : Rtt) : Rtt :=
  let rto := nbr.rto.toUInt64 * 2
  { nbr with rto_msec := (if rto_max_msec.toUInt64 < rto then rto_max_msec.toUInt64 else rto).toUInt32 }

end Rtt

/-! ## One sample -/

/-- A part of the way from one value to another, rounded towards the start, stays between them. -/
theorem tdiv_between {from_value to_value parts : Int} (some_parts : 0 < parts) :
    min from_value to_value ≤ from_value + (to_value - from_value).tdiv parts ∧
      from_value + (to_value - from_value).tdiv parts ≤ max from_value to_value := by
  rcases le_total from_value to_value with up | down
  · have forward : 0 ≤ (to_value - from_value).tdiv parts := Int.tdiv_nonneg (by omega) (by omega)
    have short : (to_value - from_value).tdiv parts ≤ to_value - from_value := by
      rw [Int.tdiv_eq_ediv_of_nonneg (by omega)]
      exact Int.ediv_le_self _ (by omega)
    omega
  · have mirrored : (to_value - from_value).tdiv parts = -((from_value - to_value).tdiv parts) := by
      rw [← Int.neg_tdiv,Int.neg_sub]
    have forward : 0 ≤ (from_value - to_value).tdiv parts := Int.tdiv_nonneg (by omega) (by omega)
    have short : (from_value - to_value).tdiv parts ≤ from_value - to_value := by
      rw [Int.tdiv_eq_ediv_of_nonneg (by omega)]
      exact Int.ediv_le_self _ (by omega)
    omega

theorem clamped_toNat {value : Int} (nonneg : 0 ≤ value) (small : value < 2 ^ 32) : ((clamped value).toNat : Int) = value := by
  unfold clamped
  rw [if_neg (by omega),UInt32.toNat_ofNat',Nat.mod_eq_of_lt (by omega)]
  omega

namespace Rtt
variable {nbr : Rtt} {sample_msec : UInt32}

theorem next_srtt_between : min nbr.srtt_msec.toNat sample_msec.toNat ≤ nbr.next_srtt sample_msec ∧
    nbr.next_srtt sample_msec ≤ max nbr.srtt_msec.toNat sample_msec.toNat := by
  have between := @tdiv_between nbr.srtt_msec.toNat sample_msec.toNat srtt_alpha (by decide)
  unfold next_srtt
  simp only
  omega

/-- The variation stays between the old one and the distance of the sample from the smoothed time. -/
theorem next_rttvar_between : 0 ≤ nbr.next_rttvar sample_msec ∧
    nbr.next_rttvar sample_msec ≤ max nbr.rttvar_msec.toNat (max nbr.srtt_msec.toNat sample_msec.toNat) := by
  unfold next_rttvar
  simp only
  generalize error_size : (if (sample_msec.toNat : Int) - nbr.srtt_msec.toNat < 0 then -((sample_msec.toNat : Int) - nbr.srtt_msec.toNat)
    else (sample_msec.toNat : Int) - nbr.srtt_msec.toNat) = size
  have between := @tdiv_between nbr.rttvar_msec.toNat size rttvar_beta (by decide)
  have nonneg : 0 ≤ size := by split at error_size <;> omega
  have small : size ≤ max nbr.srtt_msec.toNat sample_msec.toNat := by split at error_size <;> omega
  omega

/-! ## Bounds -/

/-- The timeout, once it is set, is within the limits. -/
def Limited (nbr : Rtt) : Prop := nbr.rto_msec = 0 ∨ (rto_min_msec ≤ nbr.rto_msec ∧ nbr.rto_msec ≤ rto_max_msec)

/-- The estimates lie within the samples they are made of. -/
structure Within (nbr : Rtt) (samples : List UInt32) : Prop where
  limited : nbr.Limited
  unset : nbr.srtt_valid = false → samples = []
  above : nbr.srtt_valid = true → ∃ least ∈ samples, least ≤ nbr.srtt_msec
  below : nbr.srtt_valid = true → ∃ most ∈ samples, nbr.srtt_msec ≤ most
  variation : nbr.srtt_valid = true → ∃ most ∈ samples, nbr.rttvar_msec ≤ most

theorem rto_within (limited : nbr.Limited) : rto_min_msec ≤ nbr.rto ∧ nbr.rto ≤ rto_max_msec := by
  unfold rto
  split
  · decide
  · rename_i set
    rcases limited with unset | within
    · exact absurd unset set
    · exact within

theorem calculate_limited (srtt_msec : UInt32) : rto_min_msec ≤ rto_calculate srtt_msec ∧ rto_calculate srtt_msec ≤ rto_max_msec := by
  unfold rto_calculate
  simp only
  split
  · decide
  · split
    · decide
    · rename_i above below
      rw [UInt64.lt_iff_toNat_lt] at above below
      have low : (rto_min_msec.toUInt64).toNat = 200 := rfl
      have high : (rto_max_msec.toUInt64).toNat = 5000 := rfl
      have least : rto_min_msec.toNat = 200 := rfl
      have most : rto_max_msec.toNat = 5000 := rfl
      rw [UInt32.le_iff_toNat_le,UInt32.le_iff_toNat_le,UInt64.toNat_toUInt32,least,most]
      omega

theorem clear_within : Within nbr.clear [] where
  limited := .inr (show rto_min_msec ≤ rto_initial_msec ∧ rto_initial_msec ≤ rto_max_msec by decide)
  unset := fun _ => rfl
  above := fun set => Bool.noConfusion set
  below := fun set => Bool.noConfusion set
  variation := fun set => Bool.noConfusion set

theorem backoff_within {samples : List UInt32} (within : nbr.Within samples) : nbr.backoff.Within samples where
  limited := by
    have bounds := rto_within within.limited
    rw [UInt32.le_iff_toNat_le,UInt32.le_iff_toNat_le] at bounds
    have least : rto_min_msec.toNat = 200 := rfl
    have most : rto_max_msec.toNat = 5000 := rfl
    have high : (rto_max_msec.toUInt64).toNat = 5000 := rfl
    have two : (2 : UInt64).toNat = 2 := rfl
    have doubled : (nbr.rto.toUInt64 * 2).toNat = nbr.rto.toNat * 2 := by
      rw [UInt64.toNat_mul,UInt32.toNat_toUInt64,two]
      omega
    refine .inr ?_
    unfold backoff
    rw [UInt32.le_iff_toNat_le,UInt32.le_iff_toNat_le,least,most,UInt64.toNat_toUInt32]
    split
    · rw [high]
      omega
    · rename_i below
      rw [UInt64.lt_iff_toNat_lt,high,doubled] at below
      rw [doubled]
      omega
  unset := within.unset
  above := within.above
  below := within.below
  variation := within.variation

/-- A sample moves the estimates without passing it or the samples before it. -/
theorem sample_within {samples : List UInt32} (within : nbr.Within samples) : (nbr.sample sample_msec).Within (sample_msec :: samples) := by
  unfold sample
  by_cases fresh : nbr.srtt_valid = false
  · rw [if_pos fresh]
    refine ⟨.inr (calculate_limited _),fun set => Bool.noConfusion set,fun _ => ?_,fun _ => ?_,fun _ => ?_⟩
    · exact ⟨sample_msec,by simp,UInt32.le_refl _⟩
    · exact ⟨sample_msec,by simp,UInt32.le_refl _⟩
    · refine ⟨sample_msec,by simp,?_⟩
      rw [UInt32.le_iff_toNat_le,UInt32.toNat_div]
      exact Nat.div_le_self _ _
  · rw [if_neg fresh]
    have set : nbr.srtt_valid = true := by simpa using fresh
    obtain ⟨least,least_in,least_le⟩ := within.above set
    obtain ⟨most,most_in,le_most⟩ := within.below set
    obtain ⟨widest,widest_in,le_widest⟩ := within.variation set
    rw [UInt32.le_iff_toNat_le] at least_le le_most le_widest
    have bound := sample_msec.toNat_lt
    have srtt_bound := nbr.srtt_msec.toNat_lt
    have rttvar_bound := nbr.rttvar_msec.toNat_lt
    obtain ⟨srtt_above,srtt_below⟩ := @next_srtt_between nbr sample_msec
    obtain ⟨rttvar_nonneg,rttvar_below⟩ := @next_rttvar_between nbr sample_msec
    have srtt := @clamped_toNat (nbr.next_srtt sample_msec) (by omega) (by omega)
    have rttvar := clamped_toNat rttvar_nonneg (by omega)
    refine ⟨.inr (calculate_limited _),fun unset => absurd unset fresh,fun _ => ?_,fun _ => ?_,fun _ => ?_⟩
    · rcases le_total nbr.srtt_msec.toNat sample_msec.toNat with up | down
      · exact ⟨least,by simp [least_in],UInt32.le_iff_toNat_le.2 (by simp only; omega)⟩
      · exact ⟨sample_msec,by simp,UInt32.le_iff_toNat_le.2 (by simp only; omega)⟩
    · rcases le_total nbr.srtt_msec.toNat sample_msec.toNat with up | down
      · exact ⟨sample_msec,by simp,UInt32.le_iff_toNat_le.2 (by simp only; omega)⟩
      · exact ⟨most,by simp [most_in],UInt32.le_iff_toNat_le.2 (by simp only; omega)⟩
    · rcases le_total nbr.rttvar_msec.toNat (max nbr.srtt_msec.toNat sample_msec.toNat) with less | more
      · rcases le_total nbr.srtt_msec.toNat sample_msec.toNat with up | down
        · exact ⟨sample_msec,by simp,UInt32.le_iff_toNat_le.2 (by simp only; omega)⟩
        · exact ⟨most,by simp [most_in],UInt32.le_iff_toNat_le.2 (by simp only; omega)⟩
      · exact ⟨widest,by simp [widest_in],UInt32.le_iff_toNat_le.2 (by simp only; omega)⟩

end Rtt
end Eigrp
