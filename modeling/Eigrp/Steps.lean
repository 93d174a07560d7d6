import Eigrp.Calls

/-!
# What a step does

The recorded steps of an instance, seen from one descriptor: where it comes from, which call it
went through, and what else a step may have done to it.
-/

namespace Eigrp
open Eigrp.Lib

/-! ## Effects and descriptors -/

/-- An effect reaches the list of changes, the table, the queue and the host's routes, and nothing else of the instance. -/
theorem effect_frame (pd : PrefixDescriptor) (eigrp : Instance) (effect : Effect) :
    ∃ topology_changes topology_table packetizer rib,
      eigrp.effect pd effect = { eigrp with topology_changes, topology_table, packetizer, rib } := by
  cases effect with
  | topology_change_once =>
    simp only [Instance.effect]
    split <;> exact ⟨_,_,_,_,rfl⟩
  | rib_route_add route =>
    simp only [Instance.effect]
    split <;> exact ⟨_,_,_,_,rfl⟩
  | detach =>
    simp only [Instance.effect,Instance.prefix_detach]
    split <;> exact ⟨_,_,_,_,rfl⟩
  | _ => exact ⟨_,_,_,_,rfl⟩

theorem effects_frame (pd : PrefixDescriptor) (out : List Effect) (eigrp : Instance) :
    ∃ topology_changes topology_table packetizer rib,
      eigrp.effects pd out = { eigrp with topology_changes, topology_table, packetizer, rib } := by
  unfold Instance.effects
  induction out generalizing eigrp with
  | nil => exact ⟨_,_,_,_,rfl⟩
  | cons effect out ih =>
    obtain ⟨_,_,_,_,first⟩ := effect_frame pd eigrp effect
    obtain ⟨_,_,_,_,rest⟩ := ih (eigrp.effect pd effect)
    exact ⟨_,_,_,_,by rw [List.foldl_cons,rest,first]⟩

theorem effect_prefixes (pd : PrefixDescriptor) (eigrp : Instance) (effect : Effect) :
    (eigrp.effect pd effect).prefixes = eigrp.prefixes := by
  obtain ⟨_,_,_,_,same⟩ := effect_frame pd eigrp effect
  rw [same]

theorem effects_prefixes (pd : PrefixDescriptor) (out : List Effect) (eigrp : Instance) :
    (eigrp.effects pd out).prefixes = eigrp.prefixes := by
  obtain ⟨_,_,_,_,same⟩ := effects_frame pd out eigrp
  rw [same]

theorem effects_next_id (pd : PrefixDescriptor) (out : List Effect) (eigrp : Instance) :
    (eigrp.effects pd out).next_id = eigrp.next_id ∧ (eigrp.effects pd out).fault = eigrp.fault := by
  obtain ⟨_,_,_,_,same⟩ := effects_frame pd out eigrp
  rw [same]
  exact ⟨rfl,rfl⟩

/-- What calls read of the configuration. -/
theorem effect_env (pd : PrefixDescriptor) (eigrp : Instance) (effect : Effect) : (eigrp.effect pd effect).env = eigrp.env := by
  obtain ⟨_,_,_,_,same⟩ := effect_frame pd eigrp effect
  rw [same]
  rfl

theorem effects_env (pd : PrefixDescriptor) (out : List Effect) (eigrp : Instance) : (eigrp.effects pd out).env = eigrp.env := by
  obtain ⟨_,_,_,_,same⟩ := effects_frame pd out eigrp
  rw [same]
  rfl

/-- The step makes the call on the descriptor, as it finds it. -/
def Finds (step : Step Instance Label) (call : Call) (pd : PrefixDescriptor) : Prop :=
  ∃ id, step.label = .perform id call ∧ step.before.descriptor id = some pd

theorem Finds.peer {step : Step Instance Label} {call : Call} {pd : PrefixDescriptor} (allowed : Allowed step)
    (finds : Finds step call pd) : call.nbr ≠ some .self := by
  obtain ⟨id,label,_⟩ := finds
  cases allowed with
  | other _ => cases label
  | act permitted _ =>
    cases label
    exact permitted.peer

theorem descriptor_mem {eigrp : Instance} {id : Nat} {pd : PrefixDescriptor} (found : eigrp.descriptor id = some pd) :
    pd ∈ eigrp.prefixes ∧ pd.id = id :=
  ⟨List.mem_of_find?_eq_some found,by simpa using List.find?_some found⟩

theorem Allowed.permitted {step : Step Instance Label} (allowed : Allowed step) (named : step.label ≠ .other) :
    Permitted step.before step.label := by
  cases allowed with
  | act permitted _ => exact permitted
  | other _ => exact absurd rfl named

/-- Where a descriptor behind an allowed step comes from. -/
theorem Allowed.origin {step : Step Instance Label} (allowed : Allowed step) {next : PrefixDescriptor}
    (present : next ∈ step.after.prefixes) :
    next ∈ step.before.prefixes ∨
    (∃ call pd out, Finds step call pd ∧ exec step.before.env pd call = some (next, out)) ∨
      ∃ creation out, step.label = .create creation ∧
        creation.build step.before.env step.before.next_id = some (next, out) := by
  cases allowed with
  | other frame => exact .inl (frame.prefixes ▸ present)
  | @act label before permitted _ =>
    cases label with
    | other => exact absurd rfl permitted.named
    | perform id call =>
      simp only [Instance.act,Instance.perform] at present
      split at present
      · exact .inl present
      · rename_i pd found
        split at present
        · exact .inl present
        · rename_i result out done
          rw [effects_prefixes] at present
          obtain ⟨other,member,same⟩ := List.mem_map.mp present
          split at same
          · subst same
            exact .inr (.inl ⟨call,pd,out,⟨id,rfl,found⟩,done⟩)
          · subst same
            exact .inl member
    | create creation =>
      simp only [Instance.act,Instance.create] at present
      split at present
      · exact .inl present
      · rename_i pd out built
        rw [effects_prefixes] at present
        rcases List.mem_append.mp present with member | member
        · exact .inl member
        · simp only [List.mem_singleton] at member
          subst member
          exact .inr (.inr ⟨creation,out,rfl,built⟩)
    | detach id =>
      simp only [Instance.act] at present
      split at present
      · exact .inl present
      · simp only [Instance.prefix_detach] at present
        split at present <;> exact .inl present
    | delete id =>
      simp only [Instance.act,Instance.delete] at present
      split at present
      · exact .inl present
      · split at present
        · exact .inl (List.mem_of_mem_filter present)
        · exact .inl present
    | free id => exact .inl (List.mem_of_mem_filter present)

/-! ## The history of one descriptor -/

/-- The step carries out a call on the descriptor with this number. -/
structure Performs (step : Step Instance Label) (id : Nat) (call : Call) (pd next : PrefixDescriptor) (out : List Effect) :
    Prop where
  label : step.label = .perform id call
  before : step.before.descriptor id = some pd
  done : exec step.before.env pd call = some (next, out)
  after : step.after.descriptor id = some next

theorem Performs.finds {step : Step Instance Label} {id : Nat} {call : Call} {pd next : PrefixDescriptor} {out : List Effect}
    (performs : Performs step id call pd next out) : Finds step call pd := ⟨id,performs.label,performs.before⟩

/-- The effects of the call that the step makes. -/
def step_effects (step : Step Instance Label) : Option (List Effect) :=
  match step.label with
  | .perform id call => (step.before.descriptor id).bind fun pd => (exec step.before.env pd call).map (·.2)
  | _ => none

theorem Performs.effects {step : Step Instance Label} {id : Nat} {call : Call} {pd next : PrefixDescriptor} {out : List Effect}
    (performs : Performs step id call pd next out) : step_effects step = some out := by
  simp [step_effects,performs.label,performs.before,performs.done]

theorem descriptor_of_prefixes {eigrp other : Instance} (same : other.prefixes = eigrp.prefixes) (id : Nat) :
    other.descriptor id = eigrp.descriptor id := by
  unfold Instance.descriptor
  rw [same]

/-- Storing a changed descriptor under its number. -/
theorem descriptor_write {eigrp : Instance} {id : Nat} {pd next : PrefixDescriptor} (found : eigrp.descriptor id = some pd)
    (same : next.id = pd.id) (other : Nat) :
    (eigrp.prefixes.map fun stored : PrefixDescriptor => if stored.id = id then next else stored).find? (fun pd => pd.id = other) =
      if other = id then some next else eigrp.descriptor other := by
  have number : pd.id = id := (descriptor_mem found).2
  have keys : ((fun pd : PrefixDescriptor => decide (pd.id = other)) ∘
      fun stored : PrefixDescriptor => if stored.id = id then next else stored) = fun pd => decide (pd.id = other) := by
    funext stored
    by_cases here : stored.id = id
    · simp [here,same,number]
    · simp [here]
  rw [List.find?_map,keys]
  by_cases wanted : other = id
  · subst wanted
    have found : eigrp.prefixes.find? (fun pd => decide (pd.id = other)) = some pd := found
    simp [found,number]
  · cases stored : eigrp.descriptor other with
    | none =>
      have stored : eigrp.prefixes.find? (fun pd => decide (pd.id = other)) = none := stored
      simp [stored,wanted]
    | some kept =>
      have different : kept.id ≠ id := by
        rw [(descriptor_mem stored).2]
        exact wanted
      have stored : eigrp.prefixes.find? (fun pd => decide (pd.id = other)) = some kept := stored
      simp [stored,wanted,different]

theorem descriptor_filter (eigrp : Instance) (id other : Nat) :
    (eigrp.prefixes.filter fun pd : PrefixDescriptor => pd.id ≠ id).find? (fun pd => pd.id = other) =
      if other = id then none else eigrp.descriptor other := by
  unfold Instance.descriptor
  by_cases wanted : other = id
  · subst wanted
    simp [List.find?_filter]
  · rw [List.find?_filter]
    simp only [wanted,if_false]
    congr 1
    funext pd
    by_cases here : pd.id = other
    · simp [here,wanted]
    · simp [here]

theorem perform_step (eigrp : Instance) (id : Nat) (call : Call) (sound : (eigrp.perform id call).fault = none) :
    ∃ pd next out, eigrp.descriptor id = some pd ∧ exec eigrp.env pd call = some (next, out) ∧
      ∀ other, (eigrp.perform id call).descriptor other = if other = id then some next else eigrp.descriptor other := by
  unfold Instance.perform at sound ⊢
  split at sound
  · simp [Instance.fail] at sound
  · rename_i pd found
    split at sound
    · simp [Instance.fail] at sound
    · rename_i next out done
      refine ⟨pd,next,out,found,done,fun other => ?_⟩
      rw [descriptor_of_prefixes (effects_prefixes next out _)]
      exact descriptor_write found (exec_identity done).id other

theorem create_step (eigrp : Instance) (creation : Creation) (sound : (eigrp.create creation).fault = none) :
    ∃ pd out, creation.build eigrp.env eigrp.next_id = some (pd, out) ∧
      (eigrp.create creation).next_id = eigrp.next_id + 1 ∧ ∀ other, (eigrp.create creation).descriptor other =
        if other = eigrp.next_id then (eigrp.descriptor other).or (some pd) else eigrp.descriptor other := by
  unfold Instance.create at sound ⊢
  dsimp only at sound ⊢
  split at sound
  · simp [Instance.fail] at sound
  · rename_i pd out built
    refine ⟨pd,out,built,(effects_next_id pd out _).1,fun other => ?_⟩
    rw [descriptor_of_prefixes (effects_prefixes pd out _)]
    unfold Instance.descriptor
    rw [List.find?_append]
    by_cases wanted : other = eigrp.next_id
    · simp [wanted,(creation_fresh built).id]
    · have different : eigrp.next_id ≠ other := fun same => wanted same.symm
      simp [wanted,(creation_fresh built).id,different]

/-- What an allowed step does to the descriptor with a given number, unless it fails. -/
theorem Allowed.descriptor {step : Step Instance Label} (allowed : Allowed step) (id : Nat) (sound : step.after.fault = none) :
    (step.after.descriptor id = step.before.descriptor id ∧ ∀ call, step.label ≠ .perform id call) ∨
    (∃ call pd next out, Performs step id call pd next out) ∨
    (∃ creation pd out, step.label = .create creation ∧ step.before.next_id = id ∧
      creation.build step.before.env id = some (pd, out) ∧ step.after.next_id = id + 1 ∧
        step.after.descriptor id = (step.before.descriptor id).or (some pd)) ∨
      (step.after.descriptor id = none ∧ ∀ call, step.label ≠ .perform id call) := by
  cases allowed with
  | other frame => exact .inl ⟨descriptor_of_prefixes frame.prefixes id,by simp⟩
  | @act label before permitted _ =>
    cases label with
    | other => exact absurd rfl permitted.named
    | perform target call =>
      obtain ⟨pd,next,out,found,done,after⟩ := perform_step before target call sound
      by_cases wanted : id = target
      · subst wanted
        exact .inr (.inl ⟨call,pd,next,out,rfl,found,done,(after id).trans (if_pos rfl)⟩)
      · refine .inl ⟨(after id).trans (if_neg wanted),?_⟩
        intro other same
        cases same
        exact wanted rfl
    | create creation =>
      obtain ⟨pd,out,built,numbered,after⟩ := create_step before creation sound
      by_cases wanted : id = before.next_id
      · subst wanted
        exact .inr (.inr (.inl ⟨creation,pd,out,rfl,rfl,built,numbered,(after before.next_id).trans (if_pos rfl)⟩))
      · exact .inl ⟨(after id).trans (if_neg wanted),by simp⟩
    | detach target =>
      refine .inl ⟨?_,by simp⟩
      simp only [Instance.act]
      split
      · rfl
      · simp only [Instance.prefix_detach]
        split <;> rfl
    | delete target =>
      simp only [Instance.act,Instance.delete]
      split
      · exact .inl ⟨rfl,by simp⟩
      · split
        · have after := descriptor_filter before target id
          by_cases wanted : id = target
          · exact .inr (.inr (.inr ⟨after.trans (if_pos wanted),by simp⟩))
          · exact .inl ⟨after.trans (if_neg wanted),by simp⟩
        · exact .inl ⟨rfl,by simp⟩
    | free target =>
      have after := descriptor_filter before target id
      by_cases wanted : id = target
      · exact .inr (.inr (.inr ⟨after.trans (if_pos wanted),by simp⟩))
      · exact .inl ⟨after.trans (if_neg wanted),by simp⟩

theorem Allowed.before_sound {step : Step Instance Label} (allowed : Allowed step) (sound : step.after.fault = none) :
    step.before.fault = none := by
  cases allowed with
  | act _ before => exact before
  | other frame =>
    rcases frame.fault with same | failed
    · rw [← same]
      exact sound
    · rw [failed] at sound
      cases sound

theorem Allowed.next_id_le {step : Step Instance Label} (allowed : Allowed step) : step.before.next_id ≤ step.after.next_id := by
  cases allowed with
  | other frame => exact frame.next_id.ge
  | @act label before permitted _ =>
    cases label with
    | other => exact le_rfl
    | free target => exact le_rfl
    | perform target call =>
      simp only [Instance.act,Instance.perform]
      split
      · exact le_rfl
      · split
        · exact le_rfl
        · rw [(effects_next_id _ _ _).1]
    | create creation =>
      simp only [Instance.act,Instance.create]
      split
      · exact le_rfl
      · rw [(effects_next_id _ _ _).1]
        exact Nat.le_succ _
    | detach target =>
      simp only [Instance.act]
      split
      · exact le_rfl
      · simp only [Instance.prefix_detach]
        split <;> exact le_rfl
    | delete target =>
      simp only [Instance.act,Instance.delete]
      split
      · exact le_rfl
      · split <;> exact le_rfl

/-- A step that fails leaves the descriptors alone. -/
theorem Allowed.failed {step : Step Instance Label} (allowed : Allowed step) (failed : step.after.fault ≠ none) :
    step.after.prefixes = step.before.prefixes := by
  cases allowed with
  | other frame => exact frame.prefixes
  | @act label before permitted sound =>
    cases label with
    | other => exact absurd rfl permitted.named
    | free target => exact absurd sound failed
    | perform target call =>
      simp only [Instance.act,Instance.perform] at failed ⊢
      split
      · rfl
      · rename_i found
        split
        · rfl
        · rename_i done
          simp only [found,done,(effects_next_id _ _ _).2] at failed
          exact absurd sound failed
    | create creation =>
      simp only [Instance.act,Instance.create] at failed ⊢
      split
      · rfl
      · rename_i built
        simp only [built,(effects_next_id _ _ _).2] at failed
        exact absurd sound failed
    | detach target =>
      simp only [Instance.act]
      split
      · rfl
      · simp only [Instance.prefix_detach]
        split <;> rfl
    | delete target =>
      simp only [Instance.act,Instance.delete] at failed ⊢
      split
      · rfl
      · rename_i found
        simp only [found] at failed
        split
        · rename_i linked
          simp only [linked,if_true] at failed
          exact absurd sound failed
        · rfl

/-- Whatever a step changes in a descriptor that is there before and after it, it changes by a call. -/
theorem Allowed.performs {step : Step Instance Label} (allowed : Allowed step) {id : Nat} {pd next : PrefixDescriptor}
    (before : step.before.descriptor id = some pd) (after : step.after.descriptor id = some next) (changed : next ≠ pd) :
    step.before.fault = none ∧ ∃ call out, Performs step id call pd next out := by
  by_cases sound : step.after.fault = none
  · refine ⟨allowed.before_sound sound,?_⟩
    rcases allowed.descriptor id sound with ⟨same,_⟩ | ⟨call,pd',next',out,performs⟩ | ⟨_,_,_,_,_,_,_,same⟩ | ⟨gone,_⟩
    · rw [same,before] at after
      exact absurd (Option.some.inj after).symm changed
    · have found := performs.before
      rw [before] at found
      obtain rfl := Option.some.inj found
      have stored := performs.after
      rw [after] at stored
      obtain rfl := Option.some.inj stored
      exact ⟨call,out,performs⟩
    · rw [same,before] at after
      exact absurd (Option.some.inj after).symm changed
    · rw [gone] at after
      cases after
  · rw [descriptor_of_prefixes (allowed.failed sound),before] at after
    exact absurd (Option.some.inj after).symm changed

end Eigrp
