import Eigrp.Lib.Bucket

/-!
# Pacing

The byte budget of an interface in `eigrp_packet.c`. Rate and charge share one unit: the bandwidth in kbps times the percentage
is what a millisecond gives, and a byte costs 800 of it. The budget holds at most one millisecond of bandwidth, or the packet
that is asked about.
-/

namespace Eigrp
open Eigrp.Lib

/-- `EIGRP_BANDWIDTH_DEFAULT`. -/
def bandwidth_default : UInt32 := 100000

/-- What the rate is computed from: `params.bandwidth`, the bandwidth of the link, and the percentage that
    `eigrp_intf_bandwidth_percent_update` admits. -/
structure PacedIntf where
  bandwidth : UInt32 := bandwidth_default
  curr_bandwidth : UInt32 := 0
  bandwidth_percent : UInt32 := 50
  admitted : bandwidth_percent ≤ 999999 := by decide

/-- The fields of `eigrp_intf_t` that the budget keeps. -/
structure Pacing where
  pacing_initialized : Bool := false
  pacing_last_msec : UInt64 := 0
  pacing_rate : UInt64 := 0
  pacing_credit : UInt64 := 0
deriving DecidableEq

/-- The bandwidth that the budget is computed from. -/
def PacedIntf.bandwidth_used (ei : PacedIntf) : UInt32 :=
  if ei.bandwidth = 0 then (if ei.curr_bandwidth ≠ 0 then ei.curr_bandwidth else bandwidth_default) else ei.bandwidth

def PacedIntf.percent_used (ei : PacedIntf) : UInt32 := if ei.bandwidth_percent = 0 then 50 else ei.bandwidth_percent

/-- `eigrp_packet_pacing_rate`. -/
def PacedIntf.pacing_rate (ei : PacedIntf) : UInt64 := ei.bandwidth_used.toUInt64 * ei.percent_used.toUInt64

namespace Pacing

/-- What a packet costs. -/
def charge_of (packet_length : UInt16) : UInt64 := packet_length.toUInt64 * 800

/-- The most that the budget holds while this packet is asked about. -/
def capacity_of (rate : UInt64) (packet_length : UInt16) : UInt64 :=
  if charge_of packet_length < rate then rate else charge_of packet_length

/-- The first half of `eigrp_packet_pacing_delay_msec`: the credit at this time. -/
def refresh (pacing : Pacing) (rate : UInt64) (packet_length : UInt16) (now_msec : UInt64) : Pacing :=
  let capacity := capacity_of rate packet_length
  if pacing.pacing_initialized = false ∨ pacing.pacing_rate ≠ rate ∨ now_msec < pacing.pacing_last_msec then
    { pacing_initialized := true, pacing_last_msec := now_msec, pacing_rate := rate, pacing_credit := capacity }
  else
    let elapsed := now_msec - pacing.pacing_last_msec
    let credit :=
      if (capacity + rate - 1) / rate ≤ elapsed then capacity
      else if pacing.pacing_credit + elapsed * rate < capacity then pacing.pacing_credit + elapsed * rate else capacity
    { pacing with pacing_last_msec := now_msec, pacing_credit := if capacity < credit then capacity else credit }

/-- `eigrp_packet_pacing_delay_msec`. -/
def delay_msec (ei : PacedIntf) (pacing : Pacing) (packet_length : UInt16) (now_msec : UInt64) : Pacing × UInt32 :=
  if packet_length = 0 then (pacing,0)
  else
    let rate := ei.pacing_rate
    let pacing := pacing.refresh rate packet_length now_msec
    if charge_of packet_length ≤ pacing.pacing_credit then (pacing,0)
    else
      let needed := charge_of packet_length - pacing.pacing_credit
      let elapsed := (needed + rate - 1) / rate
      (pacing,if 0xffffffff < elapsed then 0xffffffff else elapsed.toUInt32)

/-- `eigrp_packet_pacing_charge`. -/
def charge (pacing : Pacing) (packet_length : UInt16) : Pacing :=
  if pacing.pacing_initialized = false then pacing
  else
    { pacing with
      pacing_credit :=
        if charge_of packet_length ≤ pacing.pacing_credit then pacing.pacing_credit - charge_of packet_length else 0 }

/-! ## Numbers -/

theorem used_pos (value fallback : UInt32) (other : fallback ≠ 0) : 0 < (if value = 0 then fallback else value).toNat := by
  split
  · exact Nat.pos_of_ne_zero fun zero => other (UInt32.toNat_inj.1 zero)
  · exact Nat.pos_of_ne_zero fun zero => (by assumption : ¬ value = 0) (UInt32.toNat_inj.1 zero)

theorem rate_product (ei : PacedIntf) : ei.bandwidth_used.toNat * ei.percent_used.toNat < 2 ^ 52 := by
  have admitted := UInt32.le_iff_toNat_le.1 ei.admitted
  have percent : ei.percent_used.toNat ≤ 999999 := by
    unfold PacedIntf.percent_used
    split
    · decide
    · exact admitted
  have bandwidth : ei.bandwidth_used.toNat ≤ 4294967295 := by
    have := ei.bandwidth_used.toNat_lt
    omega
  have product := Nat.mul_le_mul bandwidth percent
  omega

theorem pacing_rate_toNat (ei : PacedIntf) : ei.pacing_rate.toNat = ei.bandwidth_used.toNat * ei.percent_used.toNat := by
  rw [PacedIntf.pacing_rate,UInt64.toNat_mul,UInt32.toNat_toUInt64,UInt32.toNat_toUInt64]
  exact Nat.mod_eq_of_lt ((rate_product ei).trans (by decide))

theorem pacing_rate_pos (ei : PacedIntf) : 0 < ei.pacing_rate.toNat := by
  rw [pacing_rate_toNat]
  refine Nat.mul_pos (used_pos ei.bandwidth _ ?_) (used_pos ei.bandwidth_percent 50 (by decide))
  split
  · assumption
  · decide

theorem pacing_rate_lt (ei : PacedIntf) : ei.pacing_rate.toNat < 2 ^ 52 := by
  rw [pacing_rate_toNat]
  exact rate_product ei

theorem charge_of_toNat (packet_length : UInt16) : (charge_of packet_length).toNat = packet_length.toNat * 800 := by
  have small := packet_length.toNat_lt
  rw [charge_of,UInt64.toNat_mul,UInt16.toNat_toUInt64]
  exact Nat.mod_eq_of_lt (by simp; omega)

theorem capacity_of_toNat (rate : UInt64) (packet_length : UInt16) :
    (capacity_of rate packet_length).toNat = max rate.toNat (packet_length.toNat * 800) := by
  rw [capacity_of,← charge_of_toNat]
  split
  · have less := UInt64.lt_iff_toNat_lt.1 (by assumption : charge_of packet_length < rate)
    omega
  · have more : ¬ (charge_of packet_length).toNat < rate.toNat := fun less => absurd (UInt64.lt_iff_toNat_lt.2 less) (by assumption)
    omega

/-- What holds in every state: the credit is at most a millisecond of bandwidth, or one packet. -/
structure Bounded (pacing : Pacing) : Prop where
  rate : pacing.pacing_rate.toNat < 2 ^ 52
  credit : pacing.pacing_credit.toNat ≤ max pacing.pacing_rate.toNat (65535 * 800)

theorem bounded_new : Bounded {} := ⟨by decide,by decide⟩

/-- The rate has not changed, nor did the clock go back. -/
def Continues (pacing : Pacing) (rate now_msec : UInt64) : Prop :=
  pacing.pacing_initialized = true ∧ pacing.pacing_rate = rate ∧ pacing.pacing_last_msec ≤ now_msec

/-- Each sum and product of a call fits 64 bits as a number. -/
structure Fits (ei : PacedIntf) (pacing : Pacing) (packet_length : UInt16) (now_msec : UInt64) : Prop where
  rate : ei.bandwidth_used.toNat * ei.percent_used.toNat < 2 ^ 64
  charge : packet_length.toNat * 800 < 2 ^ 64
  ceiling : (capacity_of ei.pacing_rate packet_length).toNat + ei.pacing_rate.toNat < 2 ^ 64
  gain : pacing.Continues ei.pacing_rate now_msec →
    now_msec.toNat - pacing.pacing_last_msec.toNat < pause ei.pacing_rate.toNat (capacity_of ei.pacing_rate packet_length).toNat →
    pacing.pacing_credit.toNat + (now_msec.toNat - pacing.pacing_last_msec.toNat) * ei.pacing_rate.toNat < 2 ^ 64
  needed : (charge_of packet_length).toNat + ei.pacing_rate.toNat < 2 ^ 64

section Numbers
variable {ei : PacedIntf} {pacing : Pacing} {packet_length : UInt16} {now_msec : UInt64}

theorem charge_lt : packet_length.toNat * 800 < 2 ^ 26 := by
  have := packet_length.toNat_lt
  omega

theorem Bounded.fits (bounded : Bounded pacing) : Fits ei pacing packet_length now_msec := by
  have rate := pacing_rate_lt ei
  have charge := @charge_lt packet_length
  have capacity := capacity_of_toNat ei.pacing_rate packet_length
  have needed : (charge_of packet_length).toNat + ei.pacing_rate.toNat < 2 ^ 64 := by
    have number := charge_of_toNat packet_length
    omega
  refine ⟨(rate_product ei).trans (by decide),charge.trans (by decide),by omega,?_,needed⟩
  rintro ⟨_,same,_⟩ early
  have gain := mul_lt_of_lt_pause (pacing_rate_pos ei) early
  have credit := bounded.credit
  rw [same] at credit
  omega

theorem pause_toNat {missing rate : UInt64} (fits : missing.toNat + rate.toNat < 2 ^ 64) (positive : 0 < rate.toNat) :
    ((missing + rate - 1) / rate).toNat = pause rate.toNat missing.toNat := by
  have sum : (missing + rate).toNat = missing.toNat + rate.toNat := by
    rw [UInt64.toNat_add]
    exact Nat.mod_eq_of_lt fits
  have one : (1 : UInt64) ≤ missing + rate := by
    rw [UInt64.le_iff_toNat_le,sum]
    exact positive.trans_le (Nat.le_add_left _ _)
  rw [UInt64.toNat_div,UInt64.toNat_sub_of_le _ _ one,sum]
  rfl

/-- A new budget is full. -/
theorem refresh_new (fresh : ¬ pacing.Continues ei.pacing_rate now_msec) :
    pacing.refresh ei.pacing_rate packet_length now_msec =
      { pacing_initialized := true, pacing_last_msec := now_msec, pacing_rate := ei.pacing_rate,
        pacing_credit := capacity_of ei.pacing_rate packet_length } := by
  refine if_pos ?_
  by_contra continues
  push Not at continues
  obtain ⟨initialized,same,order⟩ := continues
  exact fresh ⟨by simpa using initialized,same,UInt64.not_lt.1 order⟩

/-- A budget goes on with what the time gave, also where the multiplication is avoided. -/
theorem refresh_continues (bounded : Bounded pacing) (continues : pacing.Continues ei.pacing_rate now_msec) :
    ∃ credit, pacing.refresh ei.pacing_rate packet_length now_msec =
        { pacing_initialized := true, pacing_last_msec := now_msec, pacing_rate := ei.pacing_rate, pacing_credit := credit } ∧
      credit.toNat = refill ei.pacing_rate.toNat (max ei.pacing_rate.toNat (packet_length.toNat * 800))
        (now_msec.toNat - pacing.pacing_last_msec.toNat) pacing.pacing_credit.toNat := by
  have fits := @Bounded.fits ei _ packet_length now_msec bounded
  have positive := pacing_rate_pos ei
  obtain ⟨initialized,same,order⟩ := id continues
  have elapsed : (now_msec - pacing.pacing_last_msec).toNat = now_msec.toNat - pacing.pacing_last_msec.toNat :=
    UInt64.toNat_sub_of_le _ _ order
  have capacity := capacity_of_toNat ei.pacing_rate packet_length
  have goes_on : ¬ (pacing.pacing_initialized = false ∨ pacing.pacing_rate ≠ ei.pacing_rate ∨ now_msec < pacing.pacing_last_msec) := by
    push Not
    exact ⟨by simpa using initialized,same,UInt64.not_lt.2 order⟩
  unfold refresh
  simp only [if_neg goes_on]
  refine ⟨_,by rw [initialized,same],?_⟩
  rw [← capacity]
  have ceiling := pause_toNat fits.ceiling positive
  by_cases long : (capacity_of ei.pacing_rate packet_length + ei.pacing_rate - 1) / ei.pacing_rate ≤ now_msec - pacing.pacing_last_msec
  · have enough := UInt64.le_iff_toNat_le.1 long
    rw [elapsed,ceiling] at enough
    rw [if_pos long,if_neg (UInt64.lt_irrefl _),refill_full positive enough]
  · have early : now_msec.toNat - pacing.pacing_last_msec.toNat <
        pause ei.pacing_rate.toNat (capacity_of ei.pacing_rate packet_length).toNat := by
      have less := UInt64.lt_iff_toNat_lt.1 (UInt64.not_le.1 long)
      rwa [elapsed,ceiling] at less
    have sum_fits := fits.gain continues early
    have sum : (pacing.pacing_credit + (now_msec - pacing.pacing_last_msec) * ei.pacing_rate).toNat =
        pacing.pacing_credit.toNat + (now_msec.toNat - pacing.pacing_last_msec.toNat) * ei.pacing_rate.toNat := by
      have product : ((now_msec - pacing.pacing_last_msec) * ei.pacing_rate).toNat =
          (now_msec.toNat - pacing.pacing_last_msec.toNat) * ei.pacing_rate.toNat := by
        rw [UInt64.toNat_mul,elapsed]
        exact Nat.mod_eq_of_lt ((Nat.le_add_left _ _).trans_lt sum_fits)
      rw [UInt64.toNat_add,product]
      exact Nat.mod_eq_of_lt sum_fits
    rw [if_neg long,refill,← sum]
    by_cases less : pacing.pacing_credit + (now_msec - pacing.pacing_last_msec) * ei.pacing_rate < capacity_of ei.pacing_rate packet_length
    · have below := UInt64.lt_iff_toNat_lt.1 less
      rw [if_pos less,if_neg (UInt64.lt_asymm less),Nat.min_eq_left below.le]
    · have above := UInt64.le_iff_toNat_le.1 (UInt64.not_lt.1 less)
      rw [if_neg less,if_neg (UInt64.lt_irrefl _),Nat.min_eq_right above]

/-- What a call for a packet leaves behind: the budget at this time, with at most what the call allows. -/
structure Asked (ei : PacedIntf) (packet_length : UInt16) (now_msec : UInt64) (pacing : Pacing) : Prop where
  initialized : pacing.pacing_initialized = true
  last : pacing.pacing_last_msec = now_msec
  rate : pacing.pacing_rate = ei.pacing_rate
  most : pacing.pacing_credit.toNat ≤ max ei.pacing_rate.toNat (packet_length.toNat * 800)

theorem refresh_asked (bounded : Bounded pacing) : Asked ei packet_length now_msec (pacing.refresh ei.pacing_rate packet_length now_msec) := by
  by_cases continues : pacing.Continues ei.pacing_rate now_msec
  · obtain ⟨credit,refreshed,number⟩ := @refresh_continues _ _ packet_length _ bounded continues
    rw [refreshed]
    exact ⟨rfl,rfl,rfl,number ▸ refill_le_capacity⟩
  · rw [refresh_new continues]
    exact ⟨rfl,rfl,rfl,(capacity_of_toNat _ _).le⟩

theorem Asked.bounded (asked : Asked ei packet_length now_msec pacing) : Bounded pacing := by
  have small : packet_length.toNat ≤ 65535 := Nat.le_of_lt_succ packet_length.toNat_lt
  refine ⟨asked.rate ▸ pacing_rate_lt ei,?_⟩
  rw [asked.rate]
  exact asked.most.trans (max_le_max le_rfl (Nat.mul_le_mul_right 800 small))

theorem delay_msec_empty : delay_msec ei pacing 0 now_msec = (pacing,0) := if_pos rfl

theorem delay_msec_state (real : packet_length ≠ 0) :
    (delay_msec ei pacing packet_length now_msec).1 = pacing.refresh ei.pacing_rate packet_length now_msec := by
  unfold delay_msec
  rw [if_neg real]
  simp only
  split <;> rfl

/-- The delay is the shortest one that gives the missing credit, as far as 32 bits go. -/
theorem delay_msec_value (real : packet_length ≠ 0) :
    (delay_msec ei pacing packet_length now_msec).2.toNat =
      min (pause ei.pacing_rate.toNat
        (packet_length.toNat * 800 - (pacing.refresh ei.pacing_rate packet_length now_msec).pacing_credit.toNat)) 0xffffffff := by
  have positive := pacing_rate_pos ei
  have charge := charge_of_toNat packet_length
  unfold delay_msec
  rw [if_neg real]
  simp only
  generalize pacing.refresh ei.pacing_rate packet_length now_msec = after
  by_cases enough : charge_of packet_length ≤ after.pacing_credit
  · have number := UInt64.le_iff_toNat_le.1 enough
    rw [if_pos enough,← charge,Nat.sub_eq_zero_of_le number,pause_zero positive]
    rfl
  · have less := UInt64.lt_iff_toNat_lt.1 (UInt64.not_le.1 enough)
    have missing : (charge_of packet_length - after.pacing_credit).toNat = packet_length.toNat * 800 - after.pacing_credit.toNat := by
      rw [UInt64.toNat_sub_of_le _ _ (UInt64.le_of_lt (UInt64.not_le.1 enough)),charge]
    have fits : (charge_of packet_length - after.pacing_credit).toNat + ei.pacing_rate.toNat < 2 ^ 64 := by
      have small := @charge_lt packet_length
      have rate := pacing_rate_lt ei
      omega
    have value := pause_toNat fits positive
    rw [if_neg enough,← missing,← value]
    generalize (charge_of packet_length - after.pacing_credit + ei.pacing_rate - 1) / ei.pacing_rate = elapsed
    split
    · have long := UInt64.lt_iff_toNat_lt.1 (by assumption : 0xffffffff < elapsed)
      exact (Nat.min_eq_right long.le).symm
    · have short : elapsed.toNat ≤ 4294967295 :=
        UInt64.le_iff_toNat_le.1 (UInt64.not_lt.1 (by assumption : ¬ 0xffffffff < elapsed))
      rw [UInt64.toNat_toUInt32,Nat.min_eq_left short]
      exact Nat.mod_eq_of_lt (by omega)

/-- No delay is asked for exactly when the credit covers the packet. -/
theorem delay_msec_eq_zero (real : packet_length ≠ 0) :
    (delay_msec ei pacing packet_length now_msec).2 = 0 ↔
      packet_length.toNat * 800 ≤ (pacing.refresh ei.pacing_rate packet_length now_msec).pacing_credit.toNat := by
  have value := @delay_msec_value ei pacing packet_length now_msec real
  constructor
  · intro zero
    by_contra short
    have wait := pause_pos (pacing_rate_pos ei) (by omega : 0 < packet_length.toNat * 800 -
      (pacing.refresh ei.pacing_rate packet_length now_msec).pacing_credit.toNat)
    rw [zero] at value
    have none : (0 : UInt32).toNat = 0 := rfl
    omega
  · intro enough
    rw [Nat.sub_eq_zero_of_le enough,pause_zero (pacing_rate_pos ei)] at value
    exact UInt32.toNat_inj.1 value

theorem charge_credit (packet_length : UInt16) : (pacing.charge packet_length).pacing_credit.toNat ≤ pacing.pacing_credit.toNat := by
  unfold charge
  split
  · exact le_rfl
  · simp only
    split
    · rw [UInt64.toNat_sub_of_le _ _ (by assumption)]
      exact Nat.sub_le _ _
    · exact Nat.zero_le _

theorem charge_rate (packet_length : UInt16) : (pacing.charge packet_length).pacing_rate = pacing.pacing_rate ∧
    (pacing.charge packet_length).pacing_last_msec = pacing.pacing_last_msec ∧
    (pacing.charge packet_length).pacing_initialized = pacing.pacing_initialized := by
  unfold charge
  split <;> exact ⟨rfl,rfl,rfl⟩

/-- A packet is charged in full, or as far as there is credit. -/
theorem charge_credit_eq (initialized : pacing.pacing_initialized = true) (packet_length : UInt16) :
    (pacing.charge packet_length).pacing_credit.toNat = pacing.pacing_credit.toNat - packet_length.toNat * 800 := by
  have number := charge_of_toNat packet_length
  unfold charge
  rw [if_neg (by simp [initialized])]
  simp only
  split
  · rw [UInt64.toNat_sub_of_le _ _ (by assumption),number]
  · have less := UInt64.lt_iff_toNat_lt.1 (UInt64.not_le.1 (by assumption : ¬ charge_of packet_length ≤ pacing.pacing_credit))
    have zero : (0 : UInt64).toNat = 0 := rfl
    omega

end Numbers

/-! ## Runs -/

inductive Call where
  | delay (packet_length : UInt16) (now_msec : UInt64)
  | charge (packet_length : UInt16)
deriving DecidableEq

def call (ei : PacedIntf) (pacing : Pacing) : Call → Pacing
  | .delay packet_length now_msec => (pacing.delay_msec ei packet_length now_msec).1
  | .charge packet_length => pacing.charge packet_length

/-- The calls of one interface, whose parameters may change. -/
def run (history : List (PacedIntf × Call)) : Pacing := history.foldl (fun pacing step => pacing.call step.1 step.2) {}

/-- The calls under one rate. -/
def after (ei : PacedIntf) (start : Pacing) (calls : List Call) : Pacing := calls.foldl (call ei) start

def Call.time : Call → Option UInt64
  | .delay _ now_msec => some now_msec
  | .charge _ => none

/-- The clock does not go back. -/
def Ordered (calls : List Call) : Prop := (calls.filterMap Call.time).Pairwise (· ≤ ·)

instance (calls : List Call) : Decidable (Ordered calls) := inferInstanceAs (Decidable (List.Pairwise _ _))

/-- The time of the latest call that was told it, and what was charged at which time, 800 for each byte. -/
def books (calls : List Call) : Nat × List (Nat × Nat) :=
  calls.foldl (fun reached call =>
    match call with
    | .delay _ now_msec => (now_msec.toNat,reached.2)
    | .charge packet_length => (reached.1,reached.2 ++ [(reached.1,packet_length.toNat * 800)])) (0,[])

/-- Each packet is charged at a time at which no delay was asked for it, with only calls of this kind in between. -/
def Granted (between : Call → Prop) (ei : PacedIntf) (start : Pacing) (calls : List Call) : Prop :=
  ∀ front packet_length back, calls = front ++ .charge packet_length :: back →
    ∃ first now_msec middle, front = first ++ .delay packet_length now_msec :: middle ∧
      ((after ei start first).delay_msec ei packet_length now_msec).2 = 0 ∧
      ∀ call ∈ middle, (∀ time ∈ call.time, time = now_msec) ∧ between call

/-- The call does not charge. -/
def Call.Asks : Call → Prop
  | .delay _ _ => True
  | .charge _ => False

section Runs
variable {ei : PacedIntf} {start pacing : Pacing} {calls front : List Call} {now_msec : UInt64}

theorem after_append (more : List Call) : after ei start (calls ++ more) = after ei (after ei start calls) more := List.foldl_append

theorem after_snoc (last : Call) : after ei start (calls ++ [last]) = (after ei start calls).call ei last := after_append [last]

theorem books_delay (packet_length : UInt16) : books (calls ++ [.delay packet_length now_msec]) = (now_msec.toNat,(books calls).2) := by
  rw [books,List.foldl_append]
  rfl

theorem books_charge (packet_length : UInt16) :
    books (calls ++ [.charge packet_length]) = ((books calls).1,(books calls).2 ++ [((books calls).1,packet_length.toNat * 800)]) := by
  rw [books,List.foldl_append]
  rfl

/-- Every call keeps the bounds, whatever the parameters of the interface are. -/
theorem call_bounded (bounded : Bounded pacing) (next : Call) : Bounded (pacing.call ei next) := by
  cases next with
  | delay packet_length now_msec =>
    by_cases empty : packet_length = 0
    · rw [call,empty,delay_msec_empty]
      exact bounded
    · rw [call,delay_msec_state empty]
      exact (refresh_asked bounded).bounded
  | charge packet_length =>
    have kept := @charge_rate pacing packet_length
    refine ⟨?_,?_⟩
    · rw [call,kept.1]
      exact bounded.rate
    · rw [call,kept.1]
      exact (charge_credit packet_length).trans bounded.credit

theorem run_bounded (history : List (PacedIntf × Call)) : Bounded (run history) := by
  induction history using List.reverseRecOn with
  | nil => exact bounded_new
  | append_singleton history step ih =>
    rw [run,List.foldl_append]
    exact call_bounded ih step.2

theorem after_bounded (bounded : Bounded start) (calls : List Call) : Bounded (after ei start calls) := by
  induction calls using List.reverseRecOn with
  | nil => exact bounded
  | append_singleton calls last ih =>
    rw [after_snoc]
    exact call_bounded ih last

theorem Granted.init {between : Call → Prop} {more : List Call} (granted : Granted between ei start (calls ++ more)) :
    Granted between ei start calls := by
  intro front packet_length back cut
  refine granted front packet_length (back ++ more) ?_
  rw [cut,List.append_assoc]
  rfl

theorem Ordered.init {more : List Call} (ordered : Ordered (calls ++ more)) : Ordered calls := by
  rw [Ordered,List.filterMap_append] at ordered
  exact (List.pairwise_append.1 ordered).1

/-- The clock shows the time of a call, or no call has told it. -/
theorem clock_cases (calls : List Call) : (books calls).1 = 0 ∨ ∃ time ∈ calls.filterMap Call.time, time.toNat = (books calls).1 := by
  induction calls using List.reverseRecOn with
  | nil => exact .inl rfl
  | append_singleton calls last ih =>
    cases last with
    | delay packet_length now_msec =>
      rw [books_delay,List.filterMap_append]
      exact .inr ⟨now_msec,by simp [Call.time],rfl⟩
    | charge packet_length =>
      rw [books_charge,List.filterMap_append]
      simpa [Call.time] using ih

theorem clock_le {packet_length : UInt16} (ordered : Ordered (calls ++ [.delay packet_length now_msec])) :
    (books calls).1 ≤ now_msec.toNat := by
  rcases clock_cases calls with unset | ⟨time,told,same⟩
  · rw [unset]
    exact Nat.zero_le _
  · rw [Ordered,List.filterMap_append] at ordered
    rw [← same]
    exact UInt64.le_iff_toNat_le.1 ((List.pairwise_append.1 ordered).2.2 time told now_msec (by simp [Call.time]))

/-- Calls at the same time that charge nothing do not raise the credit. -/
theorem asking_keeps {middle : List Call} (bounded : Bounded pacing) (initialized : pacing.pacing_initialized = true)
    (rate : pacing.pacing_rate = ei.pacing_rate) (last : pacing.pacing_last_msec = now_msec)
    (same_time : ∀ call ∈ middle, (∀ time ∈ call.time, time = now_msec) ∧ call.Asks) :
    (after ei pacing middle).pacing_last_msec = now_msec ∧ (after ei pacing middle).pacing_rate = ei.pacing_rate ∧
      (after ei pacing middle).pacing_initialized = true ∧ (after ei pacing middle).pacing_credit.toNat ≤ pacing.pacing_credit.toNat := by
  induction middle generalizing pacing with
  | nil => exact ⟨last,rate,initialized,le_rfl⟩
  | cons next middle ih =>
    obtain ⟨time,asks⟩ := same_time next List.mem_cons_self
    have later : ∀ call ∈ middle, (∀ time ∈ call.time, time = now_msec) ∧ call.Asks :=
      fun call member => same_time call (List.mem_cons_of_mem _ member)
    cases next with
    | charge packet_length => exact absurd asks id
    | delay packet_length told =>
      obtain rfl : told = now_msec := time told rfl
      rw [after,List.foldl_cons]
      by_cases empty : packet_length = 0
      · rw [call,empty,delay_msec_empty]
        exact ih bounded initialized rate last later
      · rw [call,delay_msec_state empty]
        have asked := @refresh_asked ei pacing packet_length told bounded
        obtain ⟨credit,refreshed,number⟩ := @refresh_continues _ _ packet_length _ bounded
          ⟨initialized,rate,UInt64.le_iff_toNat_le.2 (by rw [last])⟩
        have less : credit.toNat ≤ pacing.pacing_credit.toNat := by
          have most := number ▸ refill_le
          rw [last,Nat.sub_self,Nat.zero_mul,Nat.add_zero] at most
          exact most
        obtain ⟨last',rate',initialized',credit'⟩ := ih asked.bounded asked.initialized asked.rate asked.last later
        refine ⟨last',rate',initialized',credit'.trans ?_⟩
        rw [refreshed]
        exact less

theorem asking_books {middle : List Call} (at_time : (books front).1 = now_msec.toNat)
    (same_time : ∀ call ∈ middle, (∀ time ∈ call.time, time = now_msec) ∧ call.Asks) : books (front ++ middle) = books front := by
  induction middle generalizing front with
  | nil => rw [List.append_nil]
  | cons next middle ih =>
    obtain ⟨time,asks⟩ := same_time next List.mem_cons_self
    cases next with
    | charge packet_length => exact absurd asks id
    | delay packet_length told =>
      obtain rfl : told = now_msec := time told rfl
      have one : books (front ++ [.delay packet_length told]) = books front := by
        rw [books_delay,← at_time]
      rw [List.append_cons,ih (by rw [one,at_time]) fun call member => same_time call (List.mem_cons_of_mem _ member),one]

/-- What was charged is covered, whenever the count begins. -/
structure Balanced (ei : PacedIntf) (pacing : Pacing) (clock : Nat) (ledger : List (Nat × Nat)) : Prop where
  past : ∀ entry ∈ ledger, entry.1 ≤ clock
  running : spent ledger ≠ 0 → pacing.pacing_initialized = true ∧ pacing.pacing_rate = ei.pacing_rate ∧ pacing.pacing_last_msec.toNat ≤ clock
  covered : ∀ begin most, (∀ entry ∈ since begin ledger, entry.2 ≤ most) →
    Covered ei.pacing_rate.toNat (max ei.pacing_rate.toNat most) begin pacing.pacing_credit.toNat pacing.pacing_last_msec.toNat ledger

theorem delay_balanced {clock : Nat} {ledger : List (Nat × Nat)} (balanced : Balanced ei pacing clock ledger) (bounded : Bounded pacing)
    (order : clock ≤ now_msec.toNat) (packet_length : UInt16) :
    Balanced ei (pacing.delay_msec ei packet_length now_msec).1 now_msec.toNat ledger := by
  refine ⟨fun entry member => (balanced.past entry member).trans order,?_,?_⟩
  · intro some_spent
    by_cases empty : packet_length = 0
    · obtain ⟨initialized,rate,last⟩ := balanced.running some_spent
      rw [empty,delay_msec_empty]
      exact ⟨initialized,rate,last.trans order⟩
    · have asked := @refresh_asked ei pacing packet_length now_msec bounded
      rw [delay_msec_state empty]
      exact ⟨asked.initialized,asked.rate,by rw [asked.last]⟩
  · intro begin most small
    by_cases idle : spent ledger = 0
    · exact covered_of_spent idle
    obtain ⟨initialized,rate,last⟩ := balanced.running idle
    by_cases empty : packet_length = 0
    · rw [empty,delay_msec_empty]
      exact balanced.covered begin most small
    · rw [delay_msec_state empty]
      have later : pacing.pacing_last_msec ≤ now_msec := UInt64.le_iff_toNat_le.2 (last.trans order)
      obtain ⟨credit,refreshed,number⟩ := @refresh_continues _ _ packet_length _ bounded ⟨initialized,rate,later⟩
      rw [refreshed]
      refine (balanced.covered begin most small).wait (last.trans order) ?_
      exact number ▸ refill_le

theorem empty_charge_balanced {clock : Nat} {ledger : List (Nat × Nat)} (balanced : Balanced ei pacing clock ledger) :
    Balanced ei (pacing.charge 0) clock (ledger ++ [(clock,0)]) := by
  have unchanged : pacing.charge 0 = pacing := by
    unfold charge
    split
    · rfl
    · have free : charge_of 0 = 0 := rfl
      rw [free,if_pos (UInt64.le_iff_toNat_le.2 (Nat.zero_le _)),UInt64.sub_zero]
  have total : spent (ledger ++ [(clock,0)]) = spent ledger := by
    rw [spent_append]
    rfl
  rw [unchanged]
  refine ⟨?_,fun some_spent => balanced.running (total ▸ some_spent),fun begin most small => ?_⟩
  · intro entry member
    rcases List.mem_append.1 member with old | new
    · exact balanced.past entry old
    · rw [List.mem_singleton.1 new]
  · refine (balanced.covered begin most fun entry member => small entry ?_).idle clock
    rw [since_append]
    exact List.mem_append_left _ member

/-- A packet is charged for which no delay was asked, with no other charge in between. -/
theorem charge_balanced {asked : Pacing} {packet_length : UInt16} {ledger : List (Nat × Nat)}
    (balanced : Balanced ei asked now_msec.toNat ledger) (asked_for : Asked ei packet_length now_msec asked)
    (enough : packet_length.toNat * 800 ≤ asked.pacing_credit.toNat) (initialized : pacing.pacing_initialized = true)
    (rate : pacing.pacing_rate = ei.pacing_rate) (last : pacing.pacing_last_msec = now_msec)
    (less : pacing.pacing_credit.toNat ≤ asked.pacing_credit.toNat) :
    Balanced ei (pacing.charge packet_length) now_msec.toNat (ledger ++ [(now_msec.toNat,packet_length.toNat * 800)]) := by
  obtain ⟨rate_kept,last_kept,initialized_kept⟩ := @charge_rate pacing packet_length
  refine ⟨?_,fun _ => ⟨initialized_kept.trans initialized,rate_kept.trans rate,by rw [last_kept,last]⟩,fun begin most small => ?_⟩
  · intro entry member
    rcases List.mem_append.1 member with old | new
    · exact balanced.past entry old
    · rw [List.mem_singleton.1 new]
  · have before := balanced.covered begin most fun entry member => small entry (by
      rw [since_append]
      exact List.mem_append_left _ member)
    rw [asked_for.last] at before
    rw [last_kept,last]
    refine before.spend enough ?_ fun begun _ _ => ?_
    · rw [charge_credit_eq initialized]
      exact Nat.sub_le_sub_right less _
    · have here : (now_msec.toNat,packet_length.toNat * 800) ∈ since begin (ledger ++ [(now_msec.toNat,packet_length.toNat * 800)]) := by
        rw [since_append]
        exact List.mem_append_right _ (by simp [since,begun])
      exact asked_for.most.trans (max_le_max le_rfl (small _ here))

theorem books_balanced (bounded : Bounded start) (length : Nat) : ∀ calls : List Call, calls.length = length → Ordered calls →
    Granted Call.Asks ei start calls → Balanced ei (after ei start calls) (books calls).1 (books calls).2 := by
  -- a charge looks back to the call that granted it, so the induction is over all shorter runs
  induction length using Nat.strong_induction_on with
  | _ length ih =>
  intro calls size ordered granted
  rcases List.eq_nil_or_concat' calls with rfl | ⟨before,last,rfl⟩
  · refine ⟨fun _ member => ?_,fun some_spent => absurd rfl some_spent,fun _ _ _ => covered_of_spent rfl⟩
    cases member
  rw [List.length_append,List.length_singleton] at size
  cases last with
  | delay packet_length now_msec =>
    have old := ih before.length (by omega) before rfl ordered.init granted.init
    rw [after_snoc,books_delay]
    exact delay_balanced old (after_bounded bounded before) (clock_le ordered) packet_length
  | charge packet_length =>
    rw [after_snoc,books_charge]
    by_cases empty : packet_length = 0
    · rw [empty]
      exact empty_charge_balanced (ih before.length (by omega) before rfl ordered.init granted.init)
    obtain ⟨first,now_msec,middle,rfl,grant,same_time⟩ := granted before packet_length [] rfl
    have asked_in : first ++ .delay packet_length now_msec :: middle = (first ++ [.delay packet_length now_msec]) ++ middle := by simp
    rw [asked_in] at ordered granted ⊢
    have shorter : (first ++ [Call.delay packet_length now_msec]).length < length := by
      simp only [List.length_append,List.length_cons,List.length_nil] at size ⊢
      omega
    have old := ih _ shorter _ rfl ordered.init.init granted.init.init
    have first_bounded := @after_bounded ei start bounded first
    have asked := @refresh_asked ei (after ei start first) packet_length now_msec first_bounded
    have state : after ei start (first ++ [.delay packet_length now_msec]) =
        (after ei start first).refresh ei.pacing_rate packet_length now_msec := by
      rw [after_snoc,call,delay_msec_state empty]
    have clock : (books (first ++ [.delay packet_length now_msec])).1 = now_msec.toNat := by rw [books_delay]
    rw [after_append,asking_books clock same_time,call]
    rw [clock,state] at old
    rw [clock,state]
    obtain ⟨last,rate,initialized,less⟩ := asking_keeps asked.bounded asked.initialized asked.rate asked.last same_time
    exact charge_balanced old asked ((delay_msec_eq_zero empty).1 grant) initialized rate last less

/-- In every stretch of time the charges are covered by the rate and one burst. -/
theorem charges_covered (bounded : Bounded start) (ordered : Ordered calls) (granted : Granted Call.Asks ei start calls) (begin span most : Nat)
    (small : ∀ entry ∈ within begin span (books calls).2, entry.2 ≤ most) :
    spent (within begin span (books calls).2) ≤ span * ei.pacing_rate.toNat + max ei.pacing_rate.toNat most := by
  induction calls using List.reverseRecOn with
  | nil => exact Nat.zero_le _
  | append_singleton calls last ih =>
    cases last with
    | delay packet_length now_msec =>
      rw [books_delay] at small ⊢
      exact ih ordered.init granted.init small
    | charge packet_length =>
      have balanced := books_balanced bounded _ _ rfl ordered granted
      rw [books_charge] at small balanced ⊢
      by_cases inside : begin ≤ (books calls).1 ∧ (books calls).1 ≤ begin + span
      · have whole := within_eq_since balanced.past inside.2
        rw [whole] at small ⊢
        have covered := balanced.covered begin most small
        by_cases idle : spent (since begin ((books calls).2 ++ [((books calls).1,packet_length.toNat * 800)])) = 0
        · rw [idle]
          exact Nat.zero_le _
        · have bound := covered.covered idle
          have late := (balanced.running fun none => idle (Nat.le_zero.1 (none ▸ spent_since_le))).2.2
          have gain : ((after ei start (calls ++ [.charge packet_length])).pacing_last_msec.toNat - begin) * ei.pacing_rate.toNat ≤
              span * ei.pacing_rate.toNat := Nat.mul_le_mul_right _ (by omega)
          omega
      · have outside : within begin span ((books calls).2 ++ [((books calls).1,packet_length.toNat * 800)]) = within begin span (books calls).2 := by
          rw [within_append]
          simp [within,inside]
        rw [outside] at small ⊢
        exact ih ordered.init granted.init small

/-- The call asks about a packet for which the budget may hold what the other packet costs. -/
def Call.Spares (ei : PacedIntf) (packet_length : UInt16) : Call → Prop
  | .delay other _ => other = 0 ∨ packet_length.toNat * 800 ≤ max ei.pacing_rate.toNat (other.toNat * 800)
  | .charge _ => False

/-- The credit reaches the cost of the packet in time. -/
theorem waited {packet_length : UInt16} {later : UInt64} {meanwhile : List Call} (bounded : Bounded pacing)
    (initialized : pacing.pacing_initialized = true) (rate : pacing.pacing_rate = ei.pacing_rate)
    (order : ((pacing.pacing_last_msec :: meanwhile.filterMap Call.time) ++ [later]).Pairwise (· ≤ ·))
    (spares : ∀ call ∈ meanwhile, call.Spares ei packet_length)
    (in_time : packet_length.toNat * 800 ≤
      pacing.pacing_credit.toNat + (later.toNat - pacing.pacing_last_msec.toNat) * ei.pacing_rate.toNat) :
    ((after ei pacing meanwhile).delay_msec ei packet_length later).2 = 0 := by
  induction meanwhile generalizing pacing with
  | nil =>
    by_cases empty : packet_length = 0
    · rw [empty,delay_msec_empty]
    have last : pacing.pacing_last_msec ≤ later := (List.pairwise_append.1 order).2.2 _ (by simp) _ (by simp)
    obtain ⟨credit,refreshed,number⟩ := @refresh_continues _ _ packet_length _ bounded ⟨initialized,rate,last⟩
    rw [after,List.foldl_nil,delay_msec_eq_zero empty,refreshed]
    simp only [number]
    exact Nat.le_min.2 ⟨in_time,Nat.le_max_right _ _⟩
  | cons next meanwhile ih =>
    have spared := spares next List.mem_cons_self
    have rest : ∀ call ∈ meanwhile, call.Spares ei packet_length := fun call member => spares call (List.mem_cons_of_mem _ member)
    cases next with
    | charge other => exact absurd spared id
    | delay other told =>
      rw [after,List.foldl_cons,call]
      have times : ((pacing.pacing_last_msec :: told :: meanwhile.filterMap Call.time) ++ [later]).Pairwise (· ≤ ·) := order
      rw [List.cons_append] at times
      by_cases empty : other = 0
      · rw [empty,delay_msec_empty]
        refine ih bounded initialized rate ?_ rest in_time
        rw [List.cons_append]
        exact times.sublist (List.Sublist.cons_cons _ (List.sublist_cons_self _ _))
      · rw [delay_msec_state empty]
        have first : pacing.pacing_last_msec ≤ told := (List.pairwise_cons.1 times).1 told (by simp)
        have then_later : told ≤ later := (List.pairwise_cons.1 (List.pairwise_cons.1 times).2).1 later (by simp)
        have early := UInt64.le_iff_toNat_le.1 first
        have late := UInt64.le_iff_toNat_le.1 then_later
        have asked := @refresh_asked ei pacing other told bounded
        obtain ⟨credit,refreshed,number⟩ := @refresh_continues _ _ other _ bounded ⟨initialized,rate,first⟩
        refine ih asked.bounded asked.initialized asked.rate ?_ rest ?_
        · rw [asked.last]
          exact (List.pairwise_cons.1 times).2
        · rw [refreshed]
          simp only [number]
          have split : (later.toNat - pacing.pacing_last_msec.toNat) * ei.pacing_rate.toNat =
              (told.toNat - pacing.pacing_last_msec.toNat) * ei.pacing_rate.toNat + (later.toNat - told.toNat) * ei.pacing_rate.toNat := by
            rw [← Nat.add_mul]
            congr 1
            omega
          have holds : packet_length.toNat * 800 ≤ max ei.pacing_rate.toNat (other.toNat * 800) := spared.resolve_left empty
          unfold refill
          rcases Nat.le_total (pacing.pacing_credit.toNat + (told.toNat - pacing.pacing_last_msec.toNat) * ei.pacing_rate.toNat)
            (max ei.pacing_rate.toNat (other.toNat * 800)) with below | full
          · rw [Nat.min_eq_left below]
            omega
          · rw [Nat.min_eq_right full]
            exact holds.trans (Nat.le_add_right _ _)

/-- The packet may be sent after the delay that was asked for. -/
theorem delay_suffices {packet_length : UInt16} {later : UInt64} {meanwhile : List Call} (bounded : Bounded pacing)
    (order : Ordered ((.delay packet_length now_msec :: meanwhile) ++ [.delay packet_length later]))
    (spares : ∀ call ∈ meanwhile, call.Spares ei packet_length)
    (short : (pacing.delay_msec ei packet_length now_msec).2 < 0xffffffff)
    (waits : later.toNat = now_msec.toNat + (pacing.delay_msec ei packet_length now_msec).2.toNat) :
    ((after ei (pacing.delay_msec ei packet_length now_msec).1 meanwhile).delay_msec ei packet_length later).2 = 0 := by
  by_cases empty : packet_length = 0
  · rw [empty,delay_msec_empty]
  have asked := @refresh_asked ei pacing packet_length now_msec bounded
  have value := @delay_msec_value ei pacing packet_length now_msec empty
  have less := UInt32.lt_iff_toNat_lt.1 short
  have below : (pacing.delay_msec ei packet_length now_msec).2.toNat < 4294967295 := less
  rw [delay_msec_state empty]
  refine waited asked.bounded asked.initialized asked.rate ?_ spares ?_
  · rw [asked.last]
    rw [Ordered,List.filterMap_append] at order
    exact order
  · have enough := @le_pause_mul ei.pacing_rate.toNat
      (packet_length.toNat * 800 - (pacing.refresh ei.pacing_rate packet_length now_msec).pacing_credit.toNat) (pacing_rate_pos ei)
    have exact_pause : later.toNat - now_msec.toNat = pause ei.pacing_rate.toNat
        (packet_length.toNat * 800 - (pacing.refresh ei.pacing_rate packet_length now_msec).pacing_credit.toNat) := by
      omega
    rw [asked.last,exact_pause]
    omega

/-- The budget of an interface is a token bucket: while its rate stays, charges that are granted one by one are covered by the
rate and one burst, a packet may be sent after its delay unless a shorter one was asked about, and all sums fit 64 bits. -/
theorem token_bucket (history : List (PacedIntf × Call)) (ei : PacedIntf) (calls : List Call) :
    (Ordered calls → Granted Call.Asks ei (run history) calls → ∀ begin span most,
      (∀ entry ∈ within begin span (books calls).2, entry.2 ≤ 800 * most) →
      spent (within begin span (books calls).2) ≤ span * ei.pacing_rate.toNat + max ei.pacing_rate.toNat (800 * most)) ∧
    (∀ (packet_length : UInt16) (now_msec later : UInt64) (meanwhile : List Call),
      let asked := (after ei (run history) calls).delay_msec ei packet_length now_msec
      asked.2 < 0xffffffff → later.toNat = now_msec.toNat + asked.2.toNat →
      Ordered ((.delay packet_length now_msec :: meanwhile) ++ [.delay packet_length later]) →
      (∀ call ∈ meanwhile, call.Spares ei packet_length) →
      ((after ei asked.1 meanwhile).delay_msec ei packet_length later).2 = 0) ∧
    ∀ (other : PacedIntf) (packet_length : UInt16) (now_msec : UInt64), Fits other (after ei (run history) calls) packet_length now_msec := by
  have bounded := run_bounded history
  refine ⟨fun ordered granted begin span most small => charges_covered bounded ordered granted begin span _ small,?_,?_⟩
  · intro packet_length now_msec later meanwhile asked short waits order spares
    exact delay_suffices (after_bounded bounded calls) order spares short waits
  · exact fun other packet_length now_msec => (after_bounded bounded calls).fits

end Runs

/-- A link of 1 kbps of which a percent is used. -/
def slow : PacedIntf := { bandwidth := 1, bandwidth_percent := 1 }

theorem granted_one : Granted Call.Asks slow (run []) [.delay 1500 10,.charge 1500] := by
  intro front packet_length back cut
  rcases front with _ | ⟨first,_ | ⟨second,front⟩⟩
  · cases cut
  · cases cut
    exact ⟨[],10,[],rfl,by decide,fun _ member => by cases member⟩
  · simp at cut

/-- A packet is charged, and another one is sent after the delay. -/
theorem slow_link_paced : spent (within 10 0 (books [.delay 1500 10,.charge 1500]).2) ≤ 1200000 ∧
    ((after slow (run []) [.delay 1500 10,.charge 1500,.delay 1 10]).delay_msec slow 1 810).2 = 0 := by
  obtain ⟨covered,suffices_,_⟩ := token_bucket [] slow [.delay 1500 10,.charge 1500]
  exact ⟨covered (by decide) granted_one 10 0 1500 (by decide),
    suffices_ 1 10 810 [] (by decide) (by decide) (by decide) fun _ member => by cases member⟩

/-- Two packets are granted before either is charged, and both are. -/
def paired : List Call := [.delay 1500 10,.delay 1500 10,.charge 1500,.charge 1500]

/-- The second of two grants at one time is not covered; and a packet is delayed again when a shorter one was asked about while
it waited. -/
theorem grants_do_not_add_up :
    (Ordered paired ∧ Granted (fun _ => True) slow (run []) paired ∧
      ¬ spent (within 10 0 (books paired).2) ≤ 0 * slow.pacing_rate.toNat + max slow.pacing_rate.toNat (800 * 1500)) ∧
    let asked := (after slow (run []) [.delay 1500 10,.charge 1500]).delay_msec slow 1500 10
    asked.2 = 1200000 ∧ ((after slow asked.1 [.delay 1 1200009]).delay_msec slow 1500 1200010).2 ≠ 0 := by
  refine ⟨⟨by decide,?_,by decide⟩,by decide,by decide⟩
  intro front packet_length back cut
  rcases front with _ | ⟨first,_ | ⟨second,_ | ⟨third,_ | ⟨fourth,front⟩⟩⟩⟩
  · cases cut
  · cases cut
  · cases cut
    exact ⟨[.delay 1500 10],10,[],rfl,by decide,fun _ member => by cases member⟩
  · cases cut
    refine ⟨[.delay 1500 10],10,[.charge 1500],rfl,by decide,fun call member => ?_⟩
    cases List.mem_singleton.1 member
    refine ⟨fun _ told => ?_,trivial⟩
    cases told
  · simp [paired] at cut

end Pacing
end Eigrp
