import Eigrp.Runs

/-!
# The topology table

The table has one node for a destination, so in every state of a run two descriptors that it finds
stand for different destinations, and the host's route of a destination is written on behalf of one
descriptor only.
-/

namespace Eigrp
open Eigrp.Lib

/-! ## Effects -/

/-- The effect leaves the table and the host's routes alone. -/
def Effect.silent : Effect → Bool
  | .rib_route_add _ | .rib_route_del | .detach => false
  | .topology_change | .topology_change_once | .enqueue _ | .dual_state_change _ _ _ | .stuck _ => true

theorem mem_table_without {eigrp : Instance} {destination : Prefix} {id : Nat}
    (member : id ∈ eigrp.table_without destination) : id ∈ eigrp.topology_table := List.mem_of_mem_filter member

theorem effect_table (pd : PrefixDescriptor) (eigrp : Instance) (effect : Effect) :
    (eigrp.effect pd effect).topology_table ⊆ eigrp.topology_table := by
  cases effect with
  | topology_change_once =>
    simp only [Instance.effect]
    split <;> exact List.Subset.refl _
  | rib_route_add route =>
    simp only [Instance.effect]
    split <;> exact List.Subset.refl _
  | detach =>
    simp only [Instance.effect,Instance.prefix_detach]
    split
    · exact fun _ => mem_table_without
    · exact List.Subset.refl _
  | _ => exact List.Subset.refl _

theorem effects_table (pd : PrefixDescriptor) (out : List Effect) (eigrp : Instance) :
    (eigrp.effects pd out).topology_table ⊆ eigrp.topology_table := by
  unfold Instance.effects
  induction out generalizing eigrp with
  | nil => exact List.Subset.refl _
  | cons effect out ih => exact List.Subset.trans (ih _) (effect_table pd eigrp effect)

/-- The effects of a call touch at most the route of the call's own destination. -/
theorem effect_rib (pd : PrefixDescriptor) (eigrp : Instance) {effect : Effect} {destination : Prefix}
    (other : destination ≠ pd.destination ∨ effect.silent) :
    (eigrp.effect pd effect).rib destination = eigrp.rib destination := by
  have written (route : Option RibRoute) (different : destination ≠ pd.destination) :
      Function.update eigrp.rib pd.destination route destination = eigrp.rib destination := Function.update_of_ne different _ _
  cases effect with
  | topology_change_once =>
    simp only [Instance.effect]
    split <;> rfl
  | rib_route_add route =>
    simp only [Instance.effect]
    split
    · exact written _ (by simpa [Effect.silent] using other)
    · rfl
  | rib_route_del => exact written _ (by simpa [Effect.silent] using other)
  | detach =>
    simp only [Instance.effect,Instance.prefix_detach]
    split
    · exact written _ (by simpa [Effect.silent] using other)
    · rfl
  | _ => rfl

theorem effects_rib {pd : PrefixDescriptor} {out : List Effect} {destination : Prefix}
    (other : destination ≠ pd.destination ∨ ∀ effect ∈ out, effect.silent) (eigrp : Instance) :
    (eigrp.effects pd out).rib destination = eigrp.rib destination := by
  unfold Instance.effects
  induction out generalizing eigrp with
  | nil => rfl
  | cons effect out ih =>
    rw [List.foldl_cons,ih]
    · refine effect_rib pd eigrp (other.imp_right fun silent => silent effect ?_)
      exact List.mem_cons_self
    · exact other.imp_right fun silent later member => silent later (List.mem_cons_of_mem _ member)

/-! ## One descriptor for a destination -/

/-- Numbers are not used again, and the table finds one descriptor for a destination. -/
structure Indexed (eigrp : Instance) : Prop where
  fresh : ∀ id, eigrp.next_id ≤ id → eigrp.descriptor id = none
  unique : ∀ first ∈ eigrp.topology_table, ∀ second ∈ eigrp.topology_table, ∀ pd other,
    eigrp.descriptor first = some pd → eigrp.descriptor second = some other → pd.destination = other.destination → first = second

theorem lookup_none {eigrp : Instance} {destination : Prefix} (missing : eigrp.topology_table_lookup destination = none)
    {id : Nat} {pd : PrefixDescriptor} (linked : id ∈ eigrp.topology_table) (found : eigrp.descriptor id = some pd) :
    pd.destination ≠ destination := by
  have absent := List.find?_eq_none.mp missing pd (List.mem_filterMap.mpr ⟨id,linked,found⟩)
  simpa using absent

theorem Allowed.table {step : Step Instance Label} (allowed : Allowed step) {id : Nat} (linked : id ∈ step.after.topology_table) :
    id ∈ step.before.topology_table ∨ ((∃ creation, step.label = .create creation) ∧ id = step.before.next_id) := by
  cases allowed with
  | other frame => exact .inl (frame.topology_table ▸ linked)
  | @act label before permitted _ =>
    cases label with
    | other => exact .inl linked
    | free target => exact .inl linked
    | perform target call =>
      simp only [Instance.act,Instance.perform] at linked
      split at linked
      · exact .inl linked
      · split at linked
        · exact .inl linked
        · have kept := effects_table _ _ _ linked
          exact .inl kept
    | create creation =>
      simp only [Instance.act,Instance.create] at linked
      split at linked
      · exact .inl linked
      · rcases List.mem_append.mp (effects_table _ _ _ linked) with linked | new
        · exact .inl linked
        · exact .inr ⟨⟨creation,rfl⟩,List.mem_singleton.mp new⟩
    | detach target =>
      simp only [Instance.act] at linked
      split at linked
      · exact .inl linked
      · simp only [Instance.prefix_detach] at linked
        split at linked
        · exact .inl (mem_table_without linked)
        · exact .inl linked
    | delete target =>
      simp only [Instance.act,Instance.delete] at linked
      split at linked
      · exact .inl linked
      · split at linked
        · exact .inl (mem_table_without linked)
        · exact .inl linked

/-- A descriptor behind a step was there before, for the same destination, or is the one that the step created. -/
theorem Allowed.stored {step : Step Instance Label} (allowed : Allowed step) {id : Nat} {next : PrefixDescriptor}
    (found : step.after.descriptor id = some next) :
    (∃ pd, step.before.descriptor id = some pd ∧ next.destination = pd.destination) ∨
      ∃ creation, step.label = .create creation ∧ step.before.next_id = id ∧ step.after.next_id = id + 1 ∧
        next.destination = creation.destination := by
  by_cases sound : step.after.fault = none
  · rcases allowed.descriptor id sound with ⟨same,_⟩ | ⟨call,pd,result,out,performs⟩ |
      ⟨creation,pd,out,label,number,built,next_id,after⟩ | ⟨gone,_⟩
    · exact .inl ⟨next,same ▸ found,rfl⟩
    · rw [performs.after] at found
      obtain rfl := Option.some.inj found
      exact .inl ⟨pd,performs.before,(exec_identity performs.done).destination⟩
    · rw [after] at found
      cases stored : step.before.descriptor id with
      | some kept =>
        rw [stored] at found
        obtain rfl := Option.some.inj found
        exact .inl ⟨kept,rfl,rfl⟩
      | none =>
        rw [stored] at found
        obtain rfl := Option.some.inj found
        exact .inr ⟨creation,label,number,next_id,(creation_fresh built).destination⟩
    · rw [gone] at found
      cases found
  · rw [descriptor_of_prefixes (allowed.failed sound)] at found
    exact .inl ⟨next,found,rfl⟩

theorem Allowed.indexed {step : Step Instance Label} (allowed : Allowed step) (indexed : Indexed step.before) :
    Indexed step.after where
  fresh := by
    intro id handed
    by_contra present
    obtain ⟨next,found⟩ := Option.ne_none_iff_exists'.mp present
    rcases allowed.stored found with ⟨pd,stored,_⟩ | ⟨_,_,_,next_id,_⟩
    · rw [indexed.fresh id (allowed.next_id_le.trans handed)] at stored
      cases stored
    · omega
  unique := by
    have linked {id : Nat} {pd : PrefixDescriptor} (here : id ∈ step.after.topology_table)
        (stored : step.before.descriptor id = some pd) : id ∈ step.before.topology_table := by
      rcases allowed.table here with linked | ⟨_,rfl⟩
      · exact linked
      · rw [indexed.fresh _ le_rfl] at stored
        cases stored
    have vacant {id : Nat} {pd : PrefixDescriptor} {creation : Creation} (label : step.label = .create creation)
        (here : id ∈ step.after.topology_table) (stored : step.before.descriptor id = some pd) :
        pd.destination ≠ creation.destination :=
      lookup_none ((allowed.permitted (by simp [label])).vacant creation label) (linked here stored) stored
    intro first here second there next last found final same
    rcases allowed.stored found with ⟨pd,stored,equal⟩ | ⟨creation,label,number,_,equal⟩
    · rcases allowed.stored final with ⟨other,present,alike⟩ | ⟨creation,label,_,_,alike⟩
      · exact indexed.unique first (linked here stored) second (linked there present) pd other stored present
          ((equal.symm.trans same).trans alike)
      · exact absurd ((equal.symm.trans same).trans alike) (vacant label here stored)
    · rcases allowed.stored final with ⟨other,present,alike⟩ | ⟨_,_,again,_,_⟩
      · exact absurd ((alike.symm.trans same.symm).trans equal) (vacant label there present)
      · exact number.symm.trans again

/-! ## Every destination of the table -/

/-- Something holds of every destination of the table. -/
def Everywhere (P : PrefixDescriptor → Prop) (eigrp : Instance) : Prop :=
  ∀ id ∈ eigrp.topology_table, ∀ pd, eigrp.descriptor id = some pd → P pd

theorem Everywhere.mono {P Q : PrefixDescriptor → Prop} {eigrp : Instance} (implies : ∀ pd, P pd → Q pd)
    (holds : Everywhere P eigrp) : Everywhere Q eigrp :=
  fun id linked pd found => implies pd (holds id linked pd found)

theorem Everywhere.of_frame {P : PrefixDescriptor → Prop} {before after : Instance} (frame : Frame before after)
    (holds : Everywhere P before) : Everywhere P after := by
  intro id linked pd found
  rw [frame.topology_table] at linked
  rw [descriptor_of_prefixes frame.prefixes] at found
  exact holds id linked pd found

/-- What holds of new destinations and is kept by a call holds everywhere behind the step. -/
theorem Allowed.everywhere {P : PrefixDescriptor → Prop} {step : Step Instance Label} (allowed : Allowed step)
    (indexed : Indexed step.before)
    (created : ∀ creation pd out, step.label = .create creation →
      creation.build step.before.env step.before.next_id = some (pd, out) → P pd)
    (kept : ∀ id call pd next out, Performs step id call pd next out → P pd → P next) (holds : Everywhere P step.before) :
    Everywhere P step.after := by
  intro id linked result found
  have earlier {pd : PrefixDescriptor} (stored : step.before.descriptor id = some pd) : id ∈ step.before.topology_table := by
    rcases allowed.table linked with before | ⟨_,rfl⟩
    · exact before
    · rw [indexed.fresh _ le_rfl] at stored
      cases stored
  by_cases sound : step.after.fault = none
  · rcases allowed.descriptor id sound with ⟨same,_⟩ | ⟨call,pd,next,out,performs⟩ |
      ⟨creation,pd,out,label,number,built,_,after⟩ | ⟨gone,_⟩
    · rw [same] at found
      exact holds id (earlier found) result found
    · have changed := performs.after.symm.trans found
      obtain rfl := Option.some.inj changed
      exact kept id call pd next out performs (holds id (earlier performs.before) pd performs.before)
    · subst number
      rw [after,indexed.fresh _ le_rfl,Option.none_or] at found
      obtain rfl := Option.some.inj found
      exact created creation pd out label built
    · rw [gone] at found
      cases found
  · rw [descriptor_of_prefixes (allowed.failed sound)] at found
    exact holds id (earlier found) result found

theorem run_indexed {metric : MetricConfig} {events : List Event} {eigrp : Instance} (reached : Reached metric events eigrp) :
    Indexed eigrp := by
  obtain ⟨linked,allowed⟩ := run_linked metric events
  have start : Indexed ({ metric } : Instance) := ⟨by simp [Instance.descriptor],by simp⟩
  have invariant := linked.invariant start fun step member => (allowed step member).indexed
  rcases reached with rfl | ⟨step,member,rfl | rfl⟩
  · exact invariant.1
  · exact (invariant.2 step member).1
  · exact (invariant.2 step member).2

end Eigrp
