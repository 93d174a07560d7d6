import Eigrp.Types
import Mathlib.Logic.Function.Basic

/-!
# Configuration of an interface

The settings of a runtime interface come from two retained profiles, the one named `default` and the one with the name
of the interface. `eigrp_intf_config_update` builds them from both; each command besides pushes its own setting to the
runtime interface, and most of them rebuild every interface when they change the default profile.
-/

namespace Eigrp.AfInterface

/-- The settings with a number. -/
inductive Numeric where
  | bandwidth_percent
  | bandwidth
  | delay
  | hello_interval
  | hold_time
deriving DecidableEq, Repr

/-- What `eigrp_intf_runtime_create` gives a setting, and a RESET of it. -/
def Numeric.initial : Numeric → UInt32
  | .bandwidth_percent => 50
  | .bandwidth => 100000
  | .delay => 10
  | .hello_interval => 5
  | .hold_time => 15

/-- `eigrp_intf_config_t`; a number is none while its `_configured` is unset, and so is `passive`. -/
structure Profile where
  numeric : Numeric → Option UInt32 := fun _ => none
  passive : Option Bool := none
  next_hop_self : Bool := true
  split_horizon : Bool := true

/-- The settings of `eigrp_intf_t`. -/
@[ext] structure Runtime where
  numeric : Numeric → UInt32 := Numeric.initial
  passive : Bool := false
  next_hop_self : Bool := true
  split_horizon : Bool := true

/-- The runtime interface that `eigrp_intf_runtime_create` returns. -/
def fresh : Runtime := {}

inductive Target where
  | default
  | specific
deriving DecidableEq, Repr

def Target.other : Target → Target
  | .default => .specific
  | .specific => .default

/-- The profiles of `af->interfaces` that concern the interface. -/
structure Retained where
  default : Option Profile := none
  specific : Option Profile := none

def Retained.profile (retained : Retained) : Target → Option Profile
  | .default => retained.default
  | .specific => retained.specific

def Retained.put (retained : Retained) (target : Target) (profile : Option Profile) : Retained :=
  match target with
  | .default => { retained with default := profile }
  | .specific => { retained with specific := profile }

/-- The settings that `eigrp_intf_config_update` starts from the protocol's defaults. -/
def Numeric.rebuilt : Numeric → Bool
  | .hello_interval => true
  | .hold_time => true
  | _ => false

/-- `eigrp_intf_config_update`; `is_default` says that `config` is the default profile. -/
def config_update (runtime : Runtime) (defaults : Option Profile) (config : Profile) (is_default : Bool) : Runtime :=
  let runtime : Runtime :=
    { runtime with numeric := fun setting => if setting.rebuilt then setting.initial else runtime.numeric setting
                   passive := false
                   split_horizon := true }
  let runtime : Runtime :=
    match defaults with
    | some defaults =>
      if is_default then runtime
      else
        { numeric := fun setting => (defaults.numeric setting).getD (runtime.numeric setting)
          passive := defaults.passive.getD runtime.passive
          split_horizon := defaults.split_horizon
          next_hop_self := defaults.next_hop_self }
    | none => runtime
  { numeric := fun setting => (config.numeric setting).getD (runtime.numeric setting)
    passive := if is_default then config.passive.getD false else config.passive.getD runtime.passive
    split_horizon := config.split_horizon
    next_hop_self := config.next_hop_self }

/-- The update of an interface with its own profile, or with the default profile when it has none. -/
def Retained.bind (retained : Retained) (runtime : Runtime) : Runtime :=
  match retained.specific, retained.default with
  | some specific, defaults => config_update runtime defaults specific false
  | none, some defaults => config_update runtime (some defaults) defaults true
  | none, none => runtime

structure State where
  retained : Retained := {}
  runtime : Runtime := {}

/-! ## Commands -/

/-- A command on a retained profile: a change of the default profile reaches the interface through
    `eigrp_intf_context_runtime_rebind` or not at all, one of its own profile directly. Without the profile the
    command has no context. -/
def State.update (st : State) (target : Target) (rebinds : Bool) (change : Profile → Profile)
    (push : Runtime → Runtime) : State :=
  match st.retained.profile target with
  | none => st
  | some profile =>
    let retained := st.retained.put target (some (change profile))
    match target with
    | .default => { retained := retained, runtime := if rebinds then retained.bind st.runtime else st.runtime }
    | .specific => { retained := retained, runtime := push st.runtime }

/-- A command for a number: SET with some value, which has to be in its range, and RESET with none. -/
def State.numeric_update (st : State) (setting : Numeric) (valid : UInt32 → Bool) (rebinds : Bool) (target : Target)
    (value : Option UInt32) : State :=
  if value.all valid then
    st.update target rebinds
      (fun profile => { profile with numeric := Function.update profile.numeric setting value })
      (fun runtime => { runtime with numeric := Function.update runtime.numeric setting (value.getD setting.initial) })
  else st

namespace State

/-- `eigrp_intf_bandwidth_percent_update`. -/
def bandwidth_percent_update (st : State) (target : Target) (percent : Option UInt32) : State :=
  st.numeric_update .bandwidth_percent (fun percent => percent ≠ 0 && percent ≤ 999999) true target percent

/-- `eigrp_intf_bandwidth_update`. -/
def bandwidth_update (st : State) (target : Target) (bandwidth : Option UInt32) : State :=
  st.numeric_update .bandwidth (fun bandwidth => 1 ≤ bandwidth && bandwidth ≤ 10000000) false target bandwidth

/-- `eigrp_intf_delay_update`. -/
def delay_update (st : State) (target : Target) (delay : Option UInt32) : State :=
  st.numeric_update .delay (fun delay => 1 ≤ delay && delay ≤ 16777215) false target delay

/-- `eigrp_intf_hello_interval_update`. -/
def hello_interval_update (st : State) (target : Target) (seconds : Option UInt16) : State :=
  st.numeric_update .hello_interval (fun seconds => seconds ≠ 0) true target (seconds.map UInt16.toUInt32)

/-- `eigrp_intf_hold_time_update`. -/
def hold_time_update (st : State) (target : Target) (seconds : Option UInt16) : State :=
  st.numeric_update .hold_time (fun seconds => seconds ≠ 0) true target (seconds.map UInt16.toUInt32)

/-- `eigrp_intf_passive_update`, SET with true and RESET with false. -/
def passive_update (st : State) (target : Target) (passive : Bool) : State :=
  st.update target true (fun profile => { profile with passive := some passive })
    (fun runtime => { runtime with passive := passive })

/-- `eigrp_intf_nexthop_self_update`. -/
def nexthop_self_update (st : State) (target : Target) (enabled : Bool) : State :=
  st.update target true (fun profile => { profile with next_hop_self := enabled })
    (fun runtime => { runtime with next_hop_self := enabled })

/-- `eigrp_intf_split_horizon_update`. -/
def split_horizon_update (st : State) (target : Target) (enabled : Bool) : State :=
  st.update target false (fun profile => { profile with split_horizon := enabled })
    (fun runtime => { runtime with split_horizon := enabled })

/-- `eigrp_intf_config_create`. -/
def config_create (st : State) (target : Target) : State :=
  match st.retained.profile target with
  | some _ => st
  | none => { st with retained := st.retained.put target (some {}) }

/-- `eigrp_intf_config_delete`. -/
def config_delete (st : State) (target : Target) : State :=
  match st.retained.profile target with
  | none => st
  | some _ =>
    let retained := st.retained.put target none
    { retained := retained, runtime := retained.bind st.runtime }

end State

inductive Command where
  | create
  | delete
  | bandwidth_percent (percent : Option UInt32)
  | bandwidth (bandwidth : Option UInt32)
  | delay (delay : Option UInt32)
  | hello_interval (seconds : Option UInt16)
  | hold_time (seconds : Option UInt16)
  | passive (passive : Bool)
  | nexthop_self (enabled : Bool)
  | split_horizon (enabled : Bool)
deriving DecidableEq, Repr

def State.step (st : State) : Target × Command → State
  | (target, .create) => st.config_create target
  | (target, .delete) => st.config_delete target
  | (target, .bandwidth_percent percent) => st.bandwidth_percent_update target percent
  | (target, .bandwidth bandwidth) => st.bandwidth_update target bandwidth
  | (target, .delay delay) => st.delay_update target delay
  | (target, .hello_interval seconds) => st.hello_interval_update target seconds
  | (target, .hold_time seconds) => st.hold_time_update target seconds
  | (target, .passive passive) => st.passive_update target passive
  | (target, .nexthop_self enabled) => st.nexthop_self_update target enabled
  | (target, .split_horizon enabled) => st.split_horizon_update target enabled

/-- The state after the commands, from a fresh interface without profiles. -/
def run (commands : List (Target × Command)) : State := commands.foldl State.step {}

/-! ## What an interface should have -/

namespace Retained

/-- A number of the interface's own profile, else of the default profile. -/
def value (retained : Retained) (setting : Numeric) : Option UInt32 :=
  (retained.specific.bind fun profile => profile.numeric setting).or
    (retained.default.bind fun profile => profile.numeric setting)

def passive (retained : Retained) : Option Bool :=
  (retained.specific.bind Profile.passive).or (retained.default.bind Profile.passive)

/-- The profile that decides the settings which every profile has. -/
def closest (retained : Retained) : Profile := (retained.specific.or retained.default).getD {}

/-- A fresh interface to which the retained configuration is applied once. -/
def applied (retained : Retained) : Runtime := retained.bind fresh

/-- The settings of the interface's own profile over those of the default profile over those of the protocol. -/
def layered (retained : Retained) : Runtime where
  numeric setting := (retained.value setting).getD setting.initial
  passive := retained.passive.getD false
  next_hop_self := retained.closest.next_hop_self
  split_horizon := retained.closest.split_horizon

/-- Applied to any interface, the configuration leaves the numbers that no profile sets and that are not rebuilt. -/
theorem bind_layered (retained : Retained) (runtime : Runtime)
    (some_profile : (retained.specific.or retained.default).isSome) :
    retained.bind runtime =
      { retained.layered with
        numeric := fun setting =>
          (retained.value setting).getD (if setting.rebuilt then setting.initial else runtime.numeric setting) } := by
  obtain ⟨defaults,specific⟩ := retained
  cases specific with
  | some specific =>
    cases defaults with
    | some defaults =>
      ext setting
      · cases own : specific.numeric setting <;> cases other : defaults.numeric setting <;>
          simp [bind,config_update,value,own,other]
      · cases own : specific.passive <;> cases other : defaults.passive <;>
          simp [bind,config_update,layered,passive,own,other]
      · rfl
      · rfl
    | none =>
      ext setting
      · cases own : specific.numeric setting <;> simp [bind,config_update,value,own]
      · cases own : specific.passive <;> simp [bind,config_update,layered,passive,own]
      · rfl
      · rfl
  | none =>
    cases defaults with
    | some defaults =>
      ext setting
      · cases own : defaults.numeric setting <;> simp [bind,config_update,value,own]
      · cases own : defaults.passive <;> simp [bind,config_update,layered,passive,own]
      · rfl
      · rfl
    | none => simp at some_profile

theorem applied_layered (retained : Retained) : retained.applied = retained.layered := by
  by_cases some_profile : (retained.specific.or retained.default).isSome
  · unfold applied
    rw [bind_layered retained fresh some_profile]
    ext setting
    · simp [layered,fresh]
    · rfl
    · rfl
    · rfl
  · obtain ⟨defaults,specific⟩ := retained
    cases specific with
    | some specific => simp at some_profile
    | none =>
      cases defaults with
      | some defaults => simp at some_profile
      | none => rfl

end Retained

/-! ## When a command keeps them -/

def State.Matches (st : State) : Prop := st.runtime = st.retained.applied

/-- The profile sets no other number than that of the protocol. -/
def Profile.at_initial (profile : Profile) (setting : Numeric) : Prop :=
  (profile.numeric setting).getD setting.initial = setting.initial

/-- The profile sets nothing but what the protocol has. -/
structure Profile.Neutral (profile : Profile) : Prop where
  numeric : ∀ setting, profile.at_initial setting
  passive : profile.passive.getD false = false
  next_hop_self : profile.next_hop_self = true
  split_horizon : profile.split_horizon = true

namespace Retained

/-- A number reaches the interface. In the interface's own profile its RESET finds no other number in the default profile;
    in the default profile, where the own profile does not set it, the interface is rebuilt and the RESET is of a setting that
    this starts anew or had its initial number, or it is not rebuilt and the number is the old one. -/
def numeric_kept (retained : Retained) (setting : Numeric) (valid : UInt32 → Bool) (rebinds : Bool) (target : Target)
    (value : Option UInt32) : Prop :=
  value.all valid → ∀ profile, retained.profile target = some profile →
    match target with
    | .specific => value = none → ∀ defaults, retained.default = some defaults → defaults.at_initial setting
    | .default =>
      retained.specific.bind (fun specific => specific.numeric setting) = none →
        if rebinds then setting.rebuilt = false → value = none → profile.at_initial setting
        else value.getD setting.initial = (profile.numeric setting).getD setting.initial

/-- The command takes the interface to what the retained configuration says after it. -/
def kept (retained : Retained) : Target × Command → Prop
  | (target, .create) =>
    target = .specific → retained.specific = none →
      ∀ defaults, retained.default = some defaults → defaults.next_hop_self = true ∧ defaults.split_horizon = true
  | (target, .delete) =>
    ∀ profile, retained.profile target = some profile →
      match retained.profile target.other with
      | none => profile.Neutral
      | some remaining =>
        ∀ setting : Numeric, setting.rebuilt = false → remaining.numeric setting = none → profile.at_initial setting
  | (target, .bandwidth_percent percent) =>
    retained.numeric_kept .bandwidth_percent (fun percent => percent ≠ 0 && percent ≤ 999999) true target percent
  | (target, .bandwidth bandwidth) =>
    retained.numeric_kept .bandwidth (fun bandwidth => 1 ≤ bandwidth && bandwidth ≤ 10000000) false target bandwidth
  | (target, .delay delay) =>
    retained.numeric_kept .delay (fun delay => 1 ≤ delay && delay ≤ 16777215) false target delay
  | (target, .hello_interval seconds) =>
    retained.numeric_kept .hello_interval (fun seconds => seconds ≠ 0) true target (seconds.map UInt16.toUInt32)
  | (target, .hold_time seconds) =>
    retained.numeric_kept .hold_time (fun seconds => seconds ≠ 0) true target (seconds.map UInt16.toUInt32)
  | (_, .passive _) => True
  | (_, .nexthop_self _) => True
  | (target, .split_horizon enabled) =>
    target = .default → retained.specific = none →
      ∀ defaults, retained.default = some defaults → defaults.split_horizon = enabled

theorem layered_eq_iff (before after : Retained) :
    before.layered = after.layered ↔
      (∀ setting : Numeric, (before.value setting).getD setting.initial = (after.value setting).getD setting.initial) ∧
        before.passive.getD false = after.passive.getD false ∧
        before.closest.next_hop_self = after.closest.next_hop_self ∧
        before.closest.split_horizon = after.closest.split_horizon := by
  rw [Runtime.ext_iff,funext_iff]
  rfl

/-- An interface that matches is rebuilt to match unless it keeps a number that no profile sets any more. -/
theorem rebound_iff (before after : Retained) (some_profile : (after.specific.or after.default).isSome) :
    after.bind before.layered = after.layered ↔
      ∀ setting : Numeric, setting.rebuilt = false → after.value setting = none →
        (before.value setting).getD setting.initial = setting.initial := by
  rw [bind_layered after _ some_profile,Runtime.ext_iff,funext_iff]
  simp only [and_true]
  refine forall_congr' fun setting => ?_
  cases set : after.value setting with
  | some value => simp [layered,set]
  | none => cases setting.rebuilt <;> simp [layered,set]

end Retained

namespace State
variable {st : State}

theorem matches_iff (st : State) : st.Matches ↔ st.runtime = st.retained.layered := by
  rw [Matches,Retained.applied_layered]

theorem config_create_matches (accounted : st.Matches) (target : Target) :
    (st.config_create target).Matches ↔ st.retained.kept (target,.create) := by
  obtain ⟨⟨defaults,specific⟩,runtime⟩ := st
  rw [matches_iff] at accounted
  dsimp only at accounted
  subst accounted
  cases target with
  | default =>
    cases defaults with
    | some defaults => simp [config_create,Retained.profile,Retained.kept,matches_iff]
    | none =>
      simp only [config_create,Retained.profile,Retained.kept,matches_iff,Retained.put,reduceCtorEq,false_implies,iff_true]
      rw [Retained.layered_eq_iff]
      cases specific <;> simp [Retained.value,Retained.passive,Retained.closest]
  | specific =>
    cases specific with
    | some specific => simp [config_create,Retained.profile,Retained.kept,matches_iff]
    | none =>
      simp only [config_create,Retained.profile,Retained.kept,matches_iff,Retained.put,forall_const]
      rw [Retained.layered_eq_iff]
      cases defaults <;> simp [Retained.value,Retained.passive,Retained.closest]

theorem config_delete_matches (accounted : st.Matches) (target : Target) :
    (st.config_delete target).Matches ↔ st.retained.kept (target,.delete) := by
  obtain ⟨⟨defaults,specific⟩,runtime⟩ := st
  rw [matches_iff] at accounted
  dsimp only at accounted
  subst accounted
  have neutral_iff (profile : Profile) : profile.Neutral ↔
      (∀ setting, profile.at_initial setting) ∧ profile.passive.getD false = false ∧ profile.next_hop_self = true ∧
        profile.split_horizon = true :=
    ⟨fun neutral => ⟨neutral.numeric,neutral.passive,neutral.next_hop_self,neutral.split_horizon⟩,
      fun ⟨numeric,passive,next_hop_self,split_horizon⟩ => ⟨numeric,passive,next_hop_self,split_horizon⟩⟩
  cases target with
  | default =>
    cases defaults with
    | none => simp [config_delete,Retained.profile,Retained.kept,matches_iff]
    | some defaults =>
      cases specific with
      | none =>
        simp only [config_delete,Retained.profile,Retained.kept,matches_iff,Retained.put,Retained.bind,Target.other]
        rw [Retained.layered_eq_iff]
        simp [Retained.value,Retained.passive,Retained.closest,Profile.at_initial,neutral_iff]
      | some specific =>
        simp only [config_delete,Retained.profile,Retained.kept,matches_iff,Retained.put,Target.other]
        rw [Retained.rebound_iff _ _ (by simp)]
        simp +contextual [Retained.value,Profile.at_initial]
  | specific =>
    cases specific with
    | none => simp [config_delete,Retained.profile,Retained.kept,matches_iff]
    | some specific =>
      cases defaults with
      | none =>
        simp only [config_delete,Retained.profile,Retained.kept,matches_iff,Retained.put,Retained.bind,Target.other]
        rw [Retained.layered_eq_iff]
        simp [Retained.value,Retained.passive,Retained.closest,Profile.at_initial,neutral_iff]
      | some defaults =>
        simp only [config_delete,Retained.profile,Retained.kept,matches_iff,Retained.put,Target.other]
        rw [Retained.rebound_iff _ _ (by simp)]
        simp +contextual [Retained.value,Profile.at_initial]

theorem numeric_update_matches (accounted : st.Matches) (setting : Numeric) (valid : UInt32 → Bool) (rebinds : Bool)
    (target : Target) (value : Option UInt32) :
    (st.numeric_update setting valid rebinds target value).Matches ↔
      st.retained.numeric_kept setting valid rebinds target value := by
  obtain ⟨⟨defaults,specific⟩,runtime⟩ := st
  have given := accounted
  rw [matches_iff] at accounted
  dsimp only at accounted
  subst accounted
  unfold numeric_update Retained.numeric_kept
  by_cases in_range : value.all valid
  · simp only [in_range,if_true,forall_const]
    cases target with
    | specific =>
      cases specific with
      | none => simpa [update,Retained.profile] using given
      | some specific =>
        simp only [update,Retained.profile,Retained.put,matches_iff]
        rw [Runtime.ext_iff,funext_iff]
        constructor
        · rintro ⟨numbers,_⟩ profile _ unset found same
          have number := numbers setting
          subst same unset
          simpa [Retained.layered,Retained.value,Profile.at_initial,eq_comm] using number
        · intro initial
          refine ⟨fun other => ?_,rfl,rfl,rfl⟩
          by_cases own : other = setting
          · subst own
            cases value with
            | some value => simp [Retained.layered,Retained.value]
            | none =>
              cases defaults with
              | none => simp [Retained.layered,Retained.value]
              | some found =>
                have number : found.at_initial other := initial specific rfl rfl found rfl
                simpa [Retained.layered,Retained.value] using (show (found.numeric other).getD other.initial = _ from number).symm
          · simp [Retained.layered,Retained.value,own]
    | default =>
      cases defaults with
      | none => simpa [update,Retained.profile] using given
      | some defaults =>
        simp only [update,Retained.profile,Retained.put,matches_iff]
        cases rebinds with
        | true =>
          simp only [if_true]
          rw [Retained.rebound_iff _ _ (by cases specific <;> simp)]
          constructor
          · rintro numbers profile same unowned rebuilt unset
            cases same
            have number := numbers setting rebuilt (by simp [Retained.value,unowned,unset])
            simpa [Retained.value,unowned,Profile.at_initial] using number
          · intro initial other rebuilt unset
            simp only [Retained.value,Option.or_eq_none_iff] at unset
            by_cases own : other = setting
            · subst own
              have number : defaults.at_initial other := initial defaults rfl unset.1 rebuilt (by simpa using unset.2)
              simpa [Retained.value,unset.1] using (show (defaults.numeric other).getD other.initial = _ from number)
            · have none_set : defaults.numeric other = none := by simpa [own] using unset.2
              simp [Retained.value,unset.1,none_set]
        | false =>
          simp only [Bool.false_eq_true,if_false]
          rw [Retained.layered_eq_iff]
          constructor
          · rintro ⟨numbers,_⟩ profile same unowned
            cases same
            have number := numbers setting
            simpa [Retained.value,unowned,eq_comm] using number
          · intro same
            refine ⟨fun other => ?_,rfl,by cases specific <;> rfl,by cases specific <;> rfl⟩
            by_cases own : other = setting
            · subst own
              cases set : specific.bind fun specific => specific.numeric other with
              | some number => simp [Retained.value,set]
              | none =>
                have number := same defaults rfl set
                simpa [Retained.value,set] using number.symm
            · simp [Retained.value,own]
  · simpa [in_range] using given

/-- A default profile that changes nothing but a setting which the update always takes from a profile. -/
theorem flag_rebound (accounted : st.Matches) (change : Profile → Profile) (push : Runtime → Runtime)
    (numbers : ∀ profile, (change profile).numeric = profile.numeric)
    (own : ∀ specific defaults, push (Retained.layered ⟨defaults,some specific⟩) =
      Retained.layered ⟨defaults,some (change specific)⟩) (target : Target) :
    (st.update target true change push).Matches := by
  obtain ⟨⟨defaults,specific⟩,runtime⟩ := st
  have given := accounted
  rw [matches_iff] at accounted
  dsimp only at accounted
  subst accounted
  cases target with
  | specific =>
    cases specific with
    | none => simpa [update,Retained.profile] using given
    | some specific =>
      rw [matches_iff]
      exact own specific defaults
  | default =>
    cases defaults with
    | none => simpa [update,Retained.profile] using given
    | some defaults =>
      simp only [update,Retained.profile,Retained.put,matches_iff,if_true]
      rw [Retained.rebound_iff _ _ (by cases specific <;> simp)]
      intro setting _ unset
      have same : Retained.value ⟨some defaults,specific⟩ setting = none := by
        simpa [Retained.value,numbers] using unset
      simp [same]

theorem passive_update_matches (accounted : st.Matches) (target : Target) (passive : Bool) :
    (st.passive_update target passive).Matches :=
  flag_rebound accounted (fun profile => { profile with passive := some passive })
    (fun runtime => { runtime with passive := passive }) (fun _ => rfl) (fun _ _ => rfl) target

theorem nexthop_self_update_matches (accounted : st.Matches) (target : Target) (enabled : Bool) :
    (st.nexthop_self_update target enabled).Matches :=
  flag_rebound accounted (fun profile => { profile with next_hop_self := enabled })
    (fun runtime => { runtime with next_hop_self := enabled }) (fun _ => rfl) (fun _ _ => rfl) target

theorem split_horizon_update_matches (accounted : st.Matches) (target : Target) (enabled : Bool) :
    (st.split_horizon_update target enabled).Matches ↔ st.retained.kept (target,.split_horizon enabled) := by
  obtain ⟨⟨defaults,specific⟩,runtime⟩ := st
  have given := accounted
  rw [matches_iff] at accounted
  dsimp only at accounted
  subst accounted
  cases target with
  | specific =>
    cases specific with
    | none => simpa [split_horizon_update,update,Retained.profile,Retained.kept] using given
    | some specific =>
      simp only [split_horizon_update,update,Retained.profile,Retained.put,Retained.kept,matches_iff,reduceCtorEq,
        false_implies,iff_true]
      rfl
  | default =>
    cases defaults with
    | none => simpa [split_horizon_update,update,Retained.profile,Retained.kept] using given
    | some defaults =>
      simp only [split_horizon_update,update,Retained.profile,Retained.put,Retained.kept,matches_iff,Bool.false_eq_true,
        if_false,forall_const]
      rw [Retained.layered_eq_iff]
      cases specific <;> simp [Retained.value,Retained.passive,Retained.closest]

theorem step_matches (accounted : st.Matches) (command : Target × Command) :
    (st.step command).Matches ↔ st.retained.kept command := by
  obtain ⟨target,command⟩ := command
  cases command with
  | create => exact config_create_matches accounted target
  | delete => exact config_delete_matches accounted target
  | bandwidth_percent percent => exact numeric_update_matches accounted _ _ _ target percent
  | bandwidth bandwidth => exact numeric_update_matches accounted _ _ _ target bandwidth
  | delay delay => exact numeric_update_matches accounted _ _ _ target delay
  | hello_interval seconds => exact numeric_update_matches accounted _ _ _ target _
  | hold_time seconds => exact numeric_update_matches accounted _ _ _ target _
  | passive passive => exact iff_of_true (passive_update_matches accounted target passive) trivial
  | nexthop_self enabled => exact iff_of_true (nexthop_self_update_matches accounted target enabled) trivial
  | split_horizon enabled => exact split_horizon_update_matches accounted target enabled

end State

/-! ## Runs -/

theorem run_take (commands : List (Target × Command)) (n : Nat) (more : n < commands.length) :
    run (commands.take (n + 1)) = (run (commands.take n)).step commands[n] := by
  unfold run
  rw [List.take_succ_eq_append_getElem more,List.foldl_append]
  rfl

theorem run_start : (run []).Matches := rfl

/-- After every command of a run the interface has what the retained configuration gives a fresh one if and only if each
    command meets its condition on the configuration before it. -/
theorem configuration_applied_iff (commands : List (Target × Command)) :
    (∀ n, (run (commands.take n)).runtime = (run (commands.take n)).retained.applied) ↔
      ∀ n (more : n < commands.length), (run (commands.take n)).retained.kept commands[n] := by
  constructor
  · intro accounted n more
    have before : (run (commands.take n)).Matches := accounted n
    have after : (run (commands.take (n + 1))).Matches := accounted (n + 1)
    rw [run_take commands n more] at after
    exact (State.step_matches before _).1 after
  · intro kept n
    have accounted : (run (commands.take n)).Matches := by
      induction n with
      | zero => exact run_start
      | succ n ih =>
        by_cases more : n < commands.length
        · rw [run_take commands n more]
          exact (State.step_matches ih _).2 (kept n more)
        · have all (m : Nat) (past : commands.length ≤ m) : commands.take m = commands := List.take_of_length_le past
          rw [all (n + 1) (by omega)]
          rwa [all n (by omega)] at ih
    exact accounted

/-- The default profile loses split horizon, and the interface without a profile of its own keeps it. -/
theorem default_split_horizon_stale :
    ¬ ∀ commands : List (Target × Command), (run commands).runtime = (run commands).retained.applied := by
  intro always
  have stale := congrArg Runtime.split_horizon (always [(.default,.create),(.default,.split_horizon false)])
  exact absurd stale (by decide)

end Eigrp.AfInterface
