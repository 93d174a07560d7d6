import Mathlib.Tactic
import Eigrp.Lib.Scaled

/-!
# Penalties of the prefix limits

A neighbor, an address family and the redistribution into it are suspended when they exceed a limit. With dampening every
violation adds to a penalty, which decays between violations and multiplies the restart interval. `eigrp_neighbor.c`,
`eigrp_pfxlimits.c` and `eigrp_redistribute.c` each have the arithmetic of their own.
-/

namespace Eigrp.Dampening
open Eigrp.Lib

/-! ## Decay -/

/-- The loop over the bits of the fraction of a half-life, from the highest on. -/
def decay_bits (fraction : UInt32) : UInt32 → List UInt32 → UInt32 → UInt32
  | _, [], score => score
  | bit, factor :: factors, score =>
    decay_bits fraction (bit >>> 1) factors
      (if fraction &&& bit ≠ 0 then ((score.toUInt64 * factor.toUInt64) >>> 16).toUInt32 else score)

/-- The decay with a table of factors. -/
def limit_decay (factor : List UInt32) (score : UInt32) (elapsed half_life : UInt64) : UInt32 :=
  if score = 0 ∨ elapsed = 0 ∨ half_life = 0 then score
  else if elapsed / half_life ≥ 32 then 0
  else
    let fraction := (elapsed % half_life * 256 / half_life).toUInt32
    decay_bits fraction 128 factor (score >>> (elapsed / half_life).toUInt32)

/-- `eigrp_redist_limit_decay`. -/
def redist_limit_decay : UInt32 → UInt64 → UInt64 → UInt32 :=
  limit_decay [46341, 55109, 60097, 62758, 64132, 64830, 65182, 65359]

/-- `eigrp_nbr_limit_decay`. -/
def nbr_limit_decay : UInt32 → UInt64 → UInt64 → UInt32 :=
  limit_decay [46341, 55109, 60097, 62758, 64132, 64830, 65182, 65359]

/-- `eigrp_pfxlimits_penalty_decay`. -/
def pfxlimits_penalty_decay : UInt32 → UInt64 → UInt64 → UInt32 :=
  limit_decay [46341, 55109, 60097, 62758, 64132, 64830, 65182, 65359]

/-! ## Violations -/

/-- `eigrp_prefix_limit_t` behind the threshold. -/
structure Limit where
  dampened : Bool := false
  reset_time_minutes : UInt16 := 0
  restart_minutes : UInt16 := 0
  restart_count : UInt16 := 0
deriving DecidableEq, Repr

inductive LimitState where
  | none
  | suspended
  | locked
deriving DecidableEq, Repr

/-- The fields of a limited object that a violation reads and writes. -/
structure Limited where
  limit_state : LimitState := .none
  restart_cnt : UInt16 := 0
  penalty_q16 : UInt32 := 0
  decay_msec : UInt64 := 0
  restart_due_msec : UInt64 := 0
  reset_due_msec : UInt64 := 0
deriving DecidableEq, Repr

def q16 : UInt32 := 65536
def minute_msec : UInt64 := 60000

/-- The first value that is configured, from the innermost scope outwards. -/
def configured (values : List UInt16) (default : UInt16) : UInt16 := (values.find? (· ≠ 0)).getD default

/-- The limit in effect: its own values, then those of the scopes around it, then the defaults. -/
def effective (scopes : List Limit) : Limit where
  dampened := scopes.any (·.dampened)
  reset_time_minutes := configured (scopes.map (·.reset_time_minutes)) 15
  restart_minutes := configured (scopes.map (·.restart_minutes)) 5
  restart_count := configured (scopes.map (·.restart_count)) 3

def Limit.base (limit : Limit) : UInt64 := limit.restart_minutes.toUInt64 * minute_msec

def Limit.half_life (limit : Limit) : UInt64 := limit.base + limit.base / 2

/-- The penalty behind a violation, and the count of violations. -/
def Limited.charge (decay : UInt32 → UInt64 → UInt64 → UInt32) (limit : Limit) (now : UInt64) (limited : Limited) : Limited :=
  let charged :=
    if limit.dampened then
      let penalty := if limited.decay_msec ≠ 0 ∧ now > limited.decay_msec then
        decay limited.penalty_q16 (now - limited.decay_msec) limit.half_life else limited.penalty_q16
      { limited with penalty_q16 := if penalty > 0xffffffff - q16 then 0xffffffff else penalty + q16, decay_msec := now }
    else { limited with penalty_q16 := 0, decay_msec := 0 }
  { charged with restart_cnt := if charged.restart_cnt < 0xffff then charged.restart_cnt + 1 else charged.restart_cnt }

/-- The restart interval of a neighbor and of redistribution. -/
def restart_interval (limit : Limit) (penalty_q16 : UInt32) : UInt64 :=
  if limit.dampened then limit.base * penalty_q16.toUInt64 / q16.toUInt64 else limit.base

/-- The restart interval of an address family. -/
def pfxlimits_restart_interval (limit : Limit) (penalty_q16 : UInt32) : UInt64 :=
  if limit.dampened then
    if penalty_q16 ≠ 0 ∧ limit.base > 0xffffffffffffffff / penalty_q16.toUInt64 then 0xffffffffffffffff
    else limit.base * penalty_q16.toUInt64 / q16.toUInt64
  else limit.base

def Limited.timers_cancel (limited : Limited) : Limited := { limited with restart_due_msec := 0, reset_due_msec := 0 }

def Limited.locked (limited : Limited) : Limited := { limited.timers_cancel with limit_state := .locked }

/-- A suspension until the two times; `armed` tells whether both timers could be allocated. -/
def Limited.suspended (limit : Limit) (now interval : UInt64) (armed : Bool) (limited : Limited) : Limited :=
  if armed then
    { limited with
      limit_state := .suspended, restart_due_msec := now + interval
      reset_due_msec := now + limit.reset_time_minutes.toUInt64 * minute_msec }
  else limited.locked

/-- `eigrp_redist_limit_exceeded`; the scopes are the limit and the process limit. -/
def redist_limit_exceeded (scopes : List Limit) (now : UInt64) (armed : Bool) (limited : Limited) : Limited :=
  let limit := effective scopes
  if limited.limit_state ≠ .none then limited
  else
    let charged := limited.charge redist_limit_decay limit now
    if charged.restart_cnt ≥ limit.restart_count then charged.locked
    else charged.suspended limit now (restart_interval limit charged.penalty_q16) armed

/-- `eigrp_nbr_limit_exceeded` for a published neighbor and a limit that is enforced; the scopes are the limit, that of all
    neighbors and the process limit. -/
def nbr_limit_exceeded (scopes : List Limit) (now : UInt64) (armed : Bool) (limited : Limited) : Limited :=
  let limit := effective scopes
  if limited.limit_state ≠ .none then limited
  else
    let charged := limited.charge nbr_limit_decay limit now
    if charged.restart_cnt ≥ limit.restart_count then charged.locked
    else if restart_interval limit charged.penalty_q16 > 0xffffffffffffffff - now ∨ limit.base = 0 then charged
    else charged.suspended limit now (restart_interval limit charged.penalty_q16) armed

/-- `eigrp_pfxlimits_prefix_exceeded` for a limit that is enforced. -/
def pfxlimits_prefix_exceeded (limit : Limit) (now : UInt64) (armed : Bool) (limited : Limited) : Limited :=
  let limit := effective [limit]
  if limited.limit_state ≠ .none then limited
  else
    let charged := limited.charge pfxlimits_penalty_decay limit now
    if charged.restart_cnt ≥ limit.restart_count then charged.locked
    else if pfxlimits_restart_interval limit charged.penalty_q16 > 0xffffffffffffffff - now ∨
        limit.reset_time_minutes.toUInt64 * minute_msec > 0xffffffffffffffff - now then charged.locked
    else charged.suspended limit now (pfxlimits_restart_interval limit charged.penalty_q16) armed

/-! ## The decay as a product -/

/-- The weights of the bits of a fraction: a bit that is not set leaves the score alone. -/
def weights (fraction : UInt32) : UInt32 → List UInt32 → List Nat
  | _, [] => []
  | bit, factor :: factors => (if fraction &&& bit ≠ 0 then factor.toNat else 65536) :: weights fraction (bit >>> 1) factors

theorem decay_step_toNat {factor : UInt32} (small : factor.toNat ≤ 65536) (score : UInt32) :
    ((score.toUInt64 * factor.toUInt64) >>> 16).toUInt32.toNat = score.toNat * factor.toNat / 65536 := by
  have bound := score.toNat_lt
  have product : score.toNat * factor.toNat ≤ score.toNat * 65536 := Nat.mul_le_mul_left _ small
  have exact_product : (score.toUInt64 * factor.toUInt64).toNat = score.toNat * factor.toNat := by
    rw [UInt64.toNat_mul,UInt32.toNat_toUInt64,UInt32.toNat_toUInt64]
    exact Nat.mod_eq_of_lt (by omega)
  have shift : (UInt64.toNat 16) % 64 = 16 := by decide
  rw [UInt64.toNat_toUInt32,UInt64.toNat_shiftRight,exact_product,shift,Nat.shiftRight_eq_div_pow]
  exact Nat.mod_eq_of_lt (by omega)

theorem decay_bits_toNat (fraction bit : UInt32) {factors : List UInt32} (small : ∀ factor ∈ factors, factor.toNat ≤ 65536)
    (score : UInt32) :
    (decay_bits fraction bit factors score).toNat = scaled 65536 (weights fraction bit factors) score.toNat := by
  induction factors generalizing bit score with
  | nil => rfl
  | cons factor factors ih =>
    rw [decay_bits,ih _ (fun other member => small other (List.mem_cons_of_mem _ member)),weights,scaled]
    congr 1
    split
    · exact decay_step_toNat (small factor (by simp)) score
    · omega

theorem weights_length (fraction bit : UInt32) (factors : List UInt32) : (weights fraction bit factors).length = factors.length := by
  induction factors generalizing bit with
  | nil => rfl
  | cons factor factors ih => simp [weights,ih]

theorem weights_le (fraction bit : UInt32) {factors : List UInt32} (small : ∀ factor ∈ factors, factor.toNat ≤ 65536) :
    ∀ weight ∈ weights fraction bit factors, weight ≤ 65536 := by
  induction factors generalizing bit with
  | nil => simp [weights]
  | cons factor factors ih =>
    intro weight member
    rcases List.mem_cons.mp member with rfl | behind
    · split
      · exact small factor (by simp)
      · exact le_refl _
    · exact ih _ (fun other member => small other (List.mem_cons_of_mem _ member)) weight behind

/-- The factors 2^(-1/2), 2^(-1/4), … of the three tables. -/
def factors : List UInt32 := [46341, 55109, 60097, 62758, 64132, 64830, 65182, 65359]

theorem factors_le : ∀ factor ∈ factors, factor.toNat ≤ 65536 := by simp [factors]

/-- The product of the weights of a fraction. -/
def decayed (fraction : UInt32) : Nat := (weights fraction 128 factors).prod

theorem decayed_step : ∀ fraction < 255, decayed (UInt32.ofNat (fraction + 1)) ≤ decayed (UInt32.ofNat fraction) := by
  decide +kernel

theorem decayed_antitone {earlier later : Nat} (ordered : earlier ≤ later) (bounded : later < 256) :
    decayed (UInt32.ofNat later) ≤ decayed (UInt32.ofNat earlier) := by
  induction later, ordered using Nat.le_induction with
  | base => exact le_refl _
  | succ later _ ih => exact (decayed_step later (by omega)).trans (ih (by omega))

/-- The largest fraction still leaves half of the score. -/
theorem decayed_half : 65536 ^ 8 ≤ 2 * decayed (UInt32.ofNat 255) := by
  decide +kernel

theorem decay_bits_le (fraction score : UInt32) : (decay_bits fraction 128 factors score).toNat ≤ score.toNat := by
  rw [decay_bits_toNat fraction 128 factors_le]
  exact scaled_le (by decide) (weights_le fraction 128 factors_le) score.toNat

theorem decay_bits_upper (fraction score : UInt32) :
    (decay_bits fraction 128 factors score).toNat * 65536 ^ 8 ≤ score.toNat * decayed fraction := by
  rw [decay_bits_toNat fraction 128 factors_le]
  have upper := @scaled_mul_le 65536 (weights fraction 128 factors) score.toNat
  rwa [weights_length] at upper

theorem decay_bits_lower (fraction score : UInt32) :
    score.toNat * decayed fraction ≤ ((decay_bits fraction 128 factors score).toNat + 8) * 65536 ^ 8 := by
  rw [decay_bits_toNat fraction 128 factors_le]
  have lower := @mul_le_scaled 65536 (by decide) _ (weights_le fraction 128 factors_le) score.toNat
  rwa [weights_length] at lower

/-! ## Decay over time -/

/-- The score behind the whole half-lives. -/
def halved (score : UInt32) (elapsed half_life : UInt64) : UInt32 := score >>> (elapsed / half_life).toUInt32

/-- The fraction of the half-life that is left over. -/
def fraction (elapsed half_life : UInt64) : UInt32 := (elapsed % half_life * 256 / half_life).toUInt32

theorem decay_short {score : UInt32} {elapsed half_life : UInt64} (live : ¬(score = 0 ∨ elapsed = 0 ∨ half_life = 0))
    (short : elapsed / half_life < 32) :
    limit_decay factors score elapsed half_life =
      decay_bits (fraction elapsed half_life) 128 factors (halved score elapsed half_life) := by
  rw [limit_decay,if_neg live,if_neg (UInt64.not_le.mpr short)]
  rfl

theorem decay_long {score : UInt32} {elapsed half_life : UInt64} (live : ¬(score = 0 ∨ elapsed = 0 ∨ half_life = 0))
    (long : ¬elapsed / half_life < 32) : limit_decay factors score elapsed half_life = 0 := by
  rw [limit_decay,if_neg live,if_pos (UInt64.not_lt.mp long)]

theorem halved_toNat (score : UInt32) {elapsed half_life : UInt64} (short : elapsed / half_life < 32) :
    (halved score elapsed half_life).toNat = score.toNat / 2 ^ (elapsed.toNat / half_life.toNat) := by
  have lives : (elapsed / half_life).toNat < 32 := UInt64.lt_iff_toNat_lt.mp short
  have same : (elapsed / half_life).toNat = elapsed.toNat / half_life.toNat := UInt64.toNat_div _ _
  rw [halved,UInt32.toNat_shiftRight,UInt64.toNat_toUInt32,Nat.shiftRight_eq_div_pow,← same]
  congr 2
  omega

theorem halved_le (score : UInt32) {elapsed half_life : UInt64} (short : elapsed / half_life < 32) :
    (halved score elapsed half_life).toNat ≤ score.toNat := by
  rw [halved_toNat score short]
  exact Nat.div_le_self _ _

theorem decay_le (score : UInt32) (elapsed half_life : UInt64) : limit_decay factors score elapsed half_life ≤ score := by
  by_cases live : score = 0 ∨ elapsed = 0 ∨ half_life = 0
  · rw [limit_decay,if_pos live]
    exact UInt32.le_refl _
  by_cases short : elapsed / half_life < 32
  · rw [decay_short live short,UInt32.le_iff_toNat_le]
    exact (decay_bits_le _ _).trans (halved_le score short)
  · rw [decay_long live short]
    exact UInt32.zero_le

theorem decay_mono {score larger : UInt32} (less : score ≤ larger) (elapsed half_life : UInt64) :
    limit_decay factors score elapsed half_life ≤ limit_decay factors larger elapsed half_life := by
  by_cases empty : score = 0
  · rw [limit_decay,if_pos (Or.inl empty),empty]
    exact UInt32.zero_le
  have filled : larger ≠ 0 := by
    rintro rfl
    exact empty (UInt32.le_zero_iff.mp less)
  by_cases live : elapsed = 0 ∨ half_life = 0
  · rw [limit_decay,limit_decay,if_pos (Or.inr live),if_pos (Or.inr live)]
    exact less
  have small_live : ¬(score = 0 ∨ elapsed = 0 ∨ half_life = 0) := by tauto
  have large_live : ¬(larger = 0 ∨ elapsed = 0 ∨ half_life = 0) := by tauto
  by_cases short : elapsed / half_life < 32
  · rw [decay_short small_live short,decay_short large_live short,UInt32.le_iff_toNat_le,
      decay_bits_toNat _ 128 factors_le,decay_bits_toNat _ 128 factors_le,halved_toNat score short,halved_toNat larger short]
    exact scaled_mono _ (Nat.div_le_div_right (UInt32.le_iff_toNat_le.mp less))
  · rw [decay_long small_live short,decay_long large_live short]
    exact UInt32.le_refl _

theorem positive_toNat {half_life : UInt64} (positive : half_life ≠ 0) : 0 < half_life.toNat :=
  Nat.pos_of_ne_zero fun zero => positive (UInt64.toNat_inj.mp zero)

/-- A half-life of at most 2^56 ms leaves room for the fraction. -/
theorem fraction_eq {elapsed half_life : UInt64} (positive : half_life ≠ 0) (bounded : half_life.toNat ≤ 2 ^ 56) :
    fraction elapsed half_life = UInt32.ofNat (elapsed.toNat % half_life.toNat * 256 / half_life.toNat) ∧
      elapsed.toNat % half_life.toNat * 256 / half_life.toNat < 256 := by
  have nonzero : 0 < half_life.toNat := positive_toNat positive
  have rest := Nat.mod_lt elapsed.toNat nonzero
  have small : elapsed.toNat % half_life.toNat * 256 / half_life.toNat < 256 := by
    rw [Nat.div_lt_iff_lt_mul nonzero]
    omega
  refine ⟨?_,small⟩
  apply UInt32.toNat_inj.mp
  have room : elapsed.toNat % half_life.toNat * 256 < 2 ^ 64 := by omega
  rw [fraction,UInt64.toNat_toUInt32,UInt64.toNat_div,UInt64.toNat_mul,UInt64.toNat_mod]
  simp only [UInt32.toNat_ofNat']
  rw [show (256 : UInt64).toNat = 256 from rfl,Nat.mod_eq_of_lt room]

theorem decay_rises {score : UInt32} {elapsed later half_life : UInt64} (passed : elapsed ≤ later)
    (bounded : half_life.toNat ≤ 2 ^ 56) :
    (limit_decay factors score later half_life).toNat ≤ (limit_decay factors score elapsed half_life).toNat + 8 := by
  by_cases still : score = 0 ∨ elapsed = 0 ∨ half_life = 0
  · rw [limit_decay.eq_def factors score elapsed,if_pos still]
    have := UInt32.le_iff_toNat_le.mp (decay_le score later half_life)
    omega
  have moved : ¬(score = 0 ∨ later = 0 ∨ half_life = 0) := by
    rintro (empty | rfl | zero)
    · exact still (Or.inl empty)
    · exact still (Or.inr (Or.inl (UInt64.le_zero_iff.mp passed)))
    · exact still (Or.inr (Or.inr zero))
  have positive : half_life ≠ 0 := fun zero => still (Or.inr (Or.inr zero))
  by_cases gone : later / half_life < 32
  swap
  · rw [decay_long moved gone]
    exact Nat.zero_le _
  have ordered : elapsed.toNat / half_life.toNat ≤ later.toNat / half_life.toNat :=
    Nat.div_le_div_right (UInt64.le_iff_toNat_le.mp passed)
  have short : elapsed / half_life < 32 := by
    rw [UInt64.lt_iff_toNat_lt,UInt64.toNat_div] at gone ⊢
    omega
  rw [decay_short still short,decay_short moved gone]
  obtain ⟨first,first_small⟩ := @fraction_eq elapsed _ positive bounded
  obtain ⟨second,second_small⟩ := @fraction_eq later _ positive bounded
  have lower := decay_bits_lower (fraction elapsed half_life) (halved score elapsed half_life)
  have room : (0 : Nat) < 65536 ^ 8 := by decide
  by_cases same : elapsed.toNat / half_life.toNat = later.toNat / half_life.toNat
  · -- within one half-life the larger fraction has the smaller product of weights
    have scores : halved score later half_life = halved score elapsed half_life := by
      apply UInt32.toNat_inj.mp
      rw [halved_toNat score gone,halved_toNat score short,same]
    have grown : elapsed.toNat % half_life.toNat * 256 / half_life.toNat ≤ later.toNat % half_life.toNat * 256 / half_life.toNat := by
      have split := Nat.div_add_mod elapsed.toNat half_life.toNat
      have split' := Nat.div_add_mod later.toNat half_life.toNat
      rw [same] at split
      have := UInt64.le_iff_toNat_le.mp passed
      exact Nat.div_le_div_right (Nat.mul_le_mul_right 256 (by omega))
    have upper := decay_bits_upper (fraction later half_life) (halved score elapsed half_life)
    have products : decayed (fraction later half_life) ≤ decayed (fraction elapsed half_life) := by
      rw [first,second]
      exact decayed_antitone grown second_small
    rw [scores]
    exact Nat.le_of_mul_le_mul_right (upper.trans ((Nat.mul_le_mul_left _ products).trans lower)) room
  · -- over a half-life the score has halved, and no fraction takes more than the half
    have less : elapsed.toNat / half_life.toNat + 1 ≤ later.toNat / half_life.toNat := by omega
    have half : 2 * (halved score later half_life).toNat ≤ (halved score elapsed half_life).toNat := by
      rw [halved_toNat score gone,halved_toNat score short,Nat.mul_comm,← Nat.le_div_iff_mul_le (by decide),Nat.div_div_eq_div_mul,
        ← Nat.pow_succ]
      exact Nat.div_le_div_left (Nat.pow_le_pow_right (by decide) less) (Nat.pow_pos (by decide))
    have least : decayed (UInt32.ofNat 255) ≤ decayed (fraction elapsed half_life) := by
      rw [first]
      exact decayed_antitone (by omega) (by decide)
    have product : (halved score later half_life).toNat * 65536 ^ 8 ≤
        (halved score elapsed half_life).toNat * decayed (fraction elapsed half_life) :=
      calc (halved score later half_life).toNat * 65536 ^ 8
          ≤ (halved score later half_life).toNat * (2 * decayed (UInt32.ofNat 255)) := Nat.mul_le_mul_left _ decayed_half
        _ = 2 * (halved score later half_life).toNat * decayed (UInt32.ofNat 255) := by ring
        _ ≤ (halved score elapsed half_life).toNat * decayed (fraction elapsed half_life) := Nat.mul_le_mul half least
    exact (decay_bits_le _ _).trans (Nat.le_of_mul_le_mul_right (product.trans lower) room)

theorem decay_gone {score : UInt32} {elapsed half_life : UInt64} (positive : half_life ≠ 0)
    (long : 32 * half_life.toNat ≤ elapsed.toNat) : limit_decay factors score elapsed half_life = 0 := by
  have nonzero := positive_toNat positive
  by_cases empty : score = 0
  · rw [limit_decay,if_pos (Or.inl empty),empty]
  have live : ¬(score = 0 ∨ elapsed = 0 ∨ half_life = 0) := by
    rintro (zero | rfl | zero)
    · exact empty zero
    · rw [UInt64.toNat_zero] at long
      omega
    · exact positive zero
  apply decay_long live
  rw [UInt64.lt_iff_toNat_lt,UInt64.toNat_div]
  exact Nat.not_lt.mpr ((Nat.le_div_iff_mul_le nonzero).mpr long)

/-! ## Restart intervals -/

theorem base_toNat (limit : Limit) : limit.base.toNat = limit.restart_minutes.toNat * 60000 := by
  have small := limit.restart_minutes.toNat_lt
  rw [Limit.base,UInt64.toNat_mul,UInt16.toNat_toUInt64,show minute_msec.toNat = 60000 from rfl]
  exact Nat.mod_eq_of_lt (by omega)

theorem base_lt (limit : Limit) : limit.base.toNat < 2 ^ 32 := by
  have small := limit.restart_minutes.toNat_lt
  rw [base_toNat]
  omega

theorem half_life_toNat (limit : Limit) : limit.half_life.toNat = limit.base.toNat + limit.base.toNat / 2 := by
  have small := base_lt limit
  rw [Limit.half_life,UInt64.toNat_add,UInt64.toNat_div,show (2 : UInt64).toNat = 2 from rfl]
  exact Nat.mod_eq_of_lt (by omega)

theorem configured_ne_zero (values : List UInt16) {default : UInt16} (positive : default ≠ 0) : configured values default ≠ 0 := by
  cases found : values.find? (· ≠ 0) with
  | none => rwa [configured,found]
  | some value =>
    have member := List.find?_some found
    rw [configured,found]
    simpa using member

/-- The half-lives of limits in effect are where the decay is exact. -/
theorem half_life_bounds (scopes : List Limit) :
    (effective scopes).half_life ≠ 0 ∧ (effective scopes).half_life.toNat ≤ 2 ^ 33 := by
  have positive : (effective scopes).restart_minutes ≠ 0 := configured_ne_zero _ (by decide)
  have minutes : 0 < (effective scopes).restart_minutes.toNat :=
    Nat.pos_of_ne_zero fun zero => positive (UInt16.toNat_inj.mp zero)
  have length := half_life_toNat (effective scopes)
  have start := base_toNat (effective scopes)
  have small := base_lt (effective scopes)
  constructor
  · intro zero
    rw [zero,UInt64.toNat_zero] at length
    omega
  · omega

/-- A violation with dampening leaves a penalty of at least one violation. -/
theorem charge_penalty (decay : UInt32 → UInt64 → UInt64 → UInt32) {limit : Limit} (dampened : limit.dampened = true) (now : UInt64)
    (limited : Limited) : 65536 ≤ (limited.charge decay limit now).penalty_q16.toNat := by
  simp only [Limited.charge,dampened,if_true]
  generalize (if limited.decay_msec ≠ 0 ∧ now > limited.decay_msec then _ else _ : UInt32) = penalty
  split
  · decide
  · rename_i room
    rw [gt_iff_lt,UInt32.lt_iff_toNat_lt,show ((0xffffffff : UInt32) - q16).toNat = 4294901759 from rfl] at room
    rw [UInt32.toNat_add,show q16.toNat = 65536 from rfl,Nat.mod_eq_of_lt (by omega)]
    omega

/-- The product with the penalty fits, and the interval is its quotient. -/
theorem restart_interval_toNat {limit : Limit} (dampened : limit.dampened = true) (penalty_q16 : UInt32) :
    limit.base.toNat * penalty_q16.toNat < 2 ^ 64 ∧
      (restart_interval limit penalty_q16).toNat = limit.base.toNat * penalty_q16.toNat / 65536 := by
  have fits : limit.base.toNat * penalty_q16.toNat < 2 ^ 32 * 2 ^ 32 := Nat.mul_lt_mul'' (base_lt limit) penalty_q16.toNat_lt
  refine ⟨fits,?_⟩
  rw [restart_interval,if_pos dampened,UInt64.toNat_div,UInt64.toNat_mul,UInt32.toNat_toUInt64,UInt32.toNat_toUInt64,
    show q16.toNat = 65536 from rfl]
  congr 1
  exact Nat.mod_eq_of_lt fits

/-- The address family never takes the branch of a product that does not fit. -/
theorem pfxlimits_restart_interval_eq (limit : Limit) (penalty_q16 : UInt32) :
    pfxlimits_restart_interval limit penalty_q16 = restart_interval limit penalty_q16 := by
  by_cases dampened : limit.dampened = true
  swap
  · rw [pfxlimits_restart_interval,restart_interval,if_neg dampened,if_neg dampened]
  rw [pfxlimits_restart_interval,restart_interval,if_pos dampened,if_pos dampened]
  apply if_neg
  rintro ⟨charged,large⟩
  have penalty : 0 < penalty_q16.toNat := Nat.pos_of_ne_zero fun zero => charged (UInt32.toNat_inj.mp zero)
  have small := base_lt limit
  rw [gt_iff_lt,UInt64.lt_iff_toNat_lt,UInt64.toNat_div,UInt32.toNat_toUInt64,Nat.div_lt_iff_lt_mul penalty] at large
  have fits : limit.base.toNat * penalty_q16.toNat < 2 ^ 32 * 2 ^ 32 := Nat.mul_lt_mul'' small penalty_q16.toNat_lt
  have all : (0xffffffffffffffff : UInt64).toNat = 2 ^ 64 - 1 := rfl
  omega

/-- The interval behind a violation: the exact quotient with dampening, and at least the base. -/
structure Restarts (limit : Limit) (penalty_q16 : UInt32) (interval : UInt64) : Prop where
  fits : limit.base.toNat * penalty_q16.toNat < 2 ^ 64
  quotient : interval.toNat = if limit.dampened then limit.base.toNat * penalty_q16.toNat / 65536 else limit.base.toNat
  undamped : limit.base ≤ interval

theorem charge_restarts (decay : UInt32 → UInt64 → UInt64 → UInt32) (limit : Limit) (now : UInt64) (limited : Limited) :
    Restarts limit (limited.charge decay limit now).penalty_q16
      (restart_interval limit (limited.charge decay limit now).penalty_q16) := by
  by_cases dampened : limit.dampened = true
  · have penalty := charge_penalty decay dampened now limited
    obtain ⟨fits,quotient⟩ := restart_interval_toNat dampened (limited.charge decay limit now).penalty_q16
    refine ⟨fits,?_,?_⟩
    · rw [quotient,if_pos dampened]
    · rw [UInt64.le_iff_toNat_le,quotient,Nat.le_div_iff_mul_le (by decide)]
      exact Nat.mul_le_mul_left _ penalty
  · have cleared : (limited.charge decay limit now).penalty_q16 = 0 := by simp [Limited.charge,dampened]
    have plain : restart_interval limit 0 = limit.base := if_neg dampened
    rw [cleared,plain]
    exact ⟨by rw [UInt32.toNat_zero,Nat.mul_zero]; decide,by rw [if_neg dampened],UInt64.le_refl _⟩

/-- The restart that a suspension is armed with. -/
def Rearmed (limit : Limit) (now : UInt64) (limited : Limited) : Prop :=
  limited.limit_state = .suspended →
    ∃ interval, Restarts limit limited.penalty_q16 interval ∧ limited.restart_due_msec = now + interval

theorem rearmed_locked (limit : Limit) (now : UInt64) (limited : Limited) : Rearmed limit now limited.locked :=
  fun suspended => by cases suspended

theorem rearmed_suspended {limit : Limit} {now interval : UInt64} (armed : Bool) {limited : Limited}
    (restarts : Restarts limit limited.penalty_q16 interval) : Rearmed limit now (limited.suspended limit now interval armed) := by
  rw [Limited.suspended]
  split
  · intro _
    exact ⟨interval,restarts,rfl⟩
  · exact rearmed_locked limit now limited

theorem redist_rearmed (scopes : List Limit) (now : UInt64) (armed : Bool) {limited : Limited} (up : limited.limit_state = .none) :
    Rearmed (effective scopes) now (redist_limit_exceeded scopes now armed limited) := by
  rw [redist_limit_exceeded]
  simp only [up,ne_eq,not_true_eq_false,if_false]
  split
  · exact rearmed_locked _ _ _
  · exact rearmed_suspended armed (charge_restarts _ _ _ _)

theorem charge_limit_state (decay : UInt32 → UInt64 → UInt64 → UInt32) (limit : Limit) (now : UInt64) (limited : Limited) :
    (limited.charge decay limit now).limit_state = limited.limit_state := by
  rw [Limited.charge]
  split <;> rfl

theorem nbr_rearmed (scopes : List Limit) (now : UInt64) (armed : Bool) {limited : Limited} (up : limited.limit_state = .none) :
    Rearmed (effective scopes) now (nbr_limit_exceeded scopes now armed limited) := by
  rw [nbr_limit_exceeded]
  simp only [up,ne_eq,not_true_eq_false,if_false]
  split
  · exact rearmed_locked _ _ _
  split
  · intro suspended
    rw [charge_limit_state,up] at suspended
    cases suspended
  · exact rearmed_suspended armed (charge_restarts _ _ _ _)

theorem pfxlimits_rearmed (limit : Limit) (now : UInt64) (armed : Bool) {limited : Limited} (up : limited.limit_state = .none) :
    Rearmed (effective [limit]) now (pfxlimits_prefix_exceeded limit now armed limited) := by
  rw [pfxlimits_prefix_exceeded]
  simp only [up,ne_eq,not_true_eq_false,if_false]
  split
  · exact rearmed_locked _ _ _
  split
  · exact rearmed_locked _ _ _
  · rw [pfxlimits_restart_interval_eq]
    exact rearmed_suspended armed (charge_restarts _ _ _ _)

/-- The three computations agree; the penalty decays with the score and the time, and what it makes of a restart interval is no
    shorter than the base. -/
theorem penalties_decay :
    (redist_limit_decay = nbr_limit_decay ∧ pfxlimits_penalty_decay = nbr_limit_decay) ∧
    (∀ score elapsed half_life, nbr_limit_decay score elapsed half_life ≤ score) ∧
    (∀ score larger elapsed half_life, score ≤ larger →
      nbr_limit_decay score elapsed half_life ≤ nbr_limit_decay larger elapsed half_life) ∧
    (∀ score elapsed later half_life, elapsed ≤ later → half_life.toNat ≤ 2 ^ 56 →
      (nbr_limit_decay score later half_life).toNat ≤ (nbr_limit_decay score elapsed half_life).toNat + 8) ∧
    (∀ score elapsed half_life, half_life ≠ 0 → 32 * half_life.toNat ≤ elapsed.toNat → nbr_limit_decay score elapsed half_life = 0) ∧
    (∀ scopes, (effective scopes).half_life ≠ 0 ∧ (effective scopes).half_life.toNat ≤ 2 ^ 33) ∧
    ∀ now armed limited, limited.limit_state = .none →
      (∀ scopes, Rearmed (effective scopes) now (redist_limit_exceeded scopes now armed limited)) ∧
      (∀ scopes, Rearmed (effective scopes) now (nbr_limit_exceeded scopes now armed limited)) ∧
      ∀ limit, Rearmed (effective [limit]) now (pfxlimits_prefix_exceeded limit now armed limited) := by
  refine ⟨⟨rfl,rfl⟩,decay_le,?_,?_,?_,half_life_bounds,?_⟩
  · intro score larger elapsed half_life less
    exact decay_mono less elapsed half_life
  · intro score elapsed later half_life passed bounded
    exact decay_rises passed bounded
  · intro score elapsed half_life positive long
    exact decay_gone positive long
  · intro now armed limited up
    exact ⟨fun scopes => redist_rearmed scopes now armed up,fun scopes => nbr_rearmed scopes now armed up,
      fun limit => pfxlimits_rearmed limit now armed up⟩

theorem penalties_decay_second_violation :
    (nbr_limit_decay 65536 1000 450000).toNat ≤ (nbr_limit_decay 65536 0 450000).toNat + 8 ∧
    nbr_limit_decay 65536 14400000 450000 = 0 ∧
    Rearmed (effective [{ dampened := true }]) 2000 (redist_limit_exceeded [{ dampened := true }] 2000 true
      { restart_cnt := 1, penalty_q16 := 65536, decay_msec := 1000 }) ∧
    (redist_limit_exceeded [{ dampened := true }] 2000 true { restart_cnt := 1, penalty_q16 := 65536, decay_msec := 1000 }).limit_state =
      .suspended := by
  obtain ⟨_,_,_,rises,expires,_,violation⟩ := penalties_decay
  refine ⟨rises _ _ _ _ (by decide) (by decide),expires _ _ _ (by decide) (by decide),?_,by decide⟩
  exact (violation 2000 true _ rfl).1 _

/-- A half-life of 0 is no half-life, and beyond 2^56 ms the fraction wraps. -/
theorem half_lives_outside :
    ¬(∀ score elapsed half_life, 32 * half_life.toNat ≤ elapsed.toNat → nbr_limit_decay score elapsed half_life = 0) ∧
    ¬(∀ score elapsed later half_life, elapsed ≤ later →
      (nbr_limit_decay score later half_life).toNat ≤ (nbr_limit_decay score elapsed half_life).toNat + 8) := by
  constructor
  · intro expires
    exact absurd (expires 65536 1000 0 (by decide)) (by decide)
  · intro rises
    exact absurd (rises 0xffffffff (2 ^ 56 - 1) (2 ^ 56) (2 ^ 60) (by decide)) (by decide)

end Eigrp.Dampening
