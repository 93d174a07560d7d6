import Mathlib.Data.List.Basic

/-!
# Machines that record their steps

A run is a list of steps, each with the state before and after it. Invariants and
monitors of a run follow from what one step preserves.
-/

namespace Eigrp.Lib

structure Step (State Label : Type*) where
  label : Label
  before : State
  after : State

variable {State Label Monitor : Type*}

/-- The steps lead from one state to the other, each beginning where the previous one ended. -/
inductive Linked : State → List (Step State Label) → State → Prop
  | nil (state : State) : Linked state [] state
  | cons {step : Step State Label} {steps : List (Step State Label)} {final : State} :
      Linked step.after steps final → Linked step.before (step :: steps) final

theorem Linked.append {start middle final : State} {first second : List (Step State Label)}
    (left : Linked start first middle) (right : Linked middle second final) : Linked start (first ++ second) final := by
  induction left with
  | nil => exact right
  | cons _ ih => exact .cons (ih right)

/-- What holds at the start and is kept by every step holds before and after each of them. -/
theorem Linked.invariant {start final : State} {steps : List (Step State Label)} {Inv : State → Prop}
    (linked : Linked start steps final) (initial : Inv start)
    (kept : ∀ step ∈ steps, Inv step.before → Inv step.after) :
    Inv final ∧ ∀ step ∈ steps, Inv step.before ∧ Inv step.after := by
  induction linked with
  | nil => exact ⟨initial,by simp⟩
  | @cons step steps final _ ih =>
    have next : Inv step.after := kept step (by simp) initial
    obtain ⟨last,all⟩ := ih next (fun other member => kept other (by simp [member]))
    refine ⟨last,fun other member => ?_⟩
    rcases List.mem_cons.mp member with rfl | member
    · exact ⟨initial,next⟩
    · exact all other member

/-- What holds at the end, and before every step after which it holds, holds all along. -/
theorem Linked.backward {start final : State} {steps : List (Step State Label)} {Inv : State → Prop}
    (linked : Linked start steps final) (last : Inv final) (kept : ∀ step ∈ steps, Inv step.after → Inv step.before) :
    Inv start ∧ ∀ step ∈ steps, Inv step.after := by
  induction linked with
  | nil => exact ⟨last,by simp⟩
  | @cons step steps final _ ih =>
    obtain ⟨after,all⟩ := ih last (fun other member => kept other (by simp [member]))
    refine ⟨kept step (by simp) after,fun other member => ?_⟩
    rcases List.mem_cons.mp member with rfl | member
    · exact after
    · exact all other member

theorem Linked.of_append {start final : State} {first second : List (Step State Label)}
    (linked : Linked start (first ++ second) final) : ∃ middle, Linked start first middle ∧ Linked middle second final := by
  induction first generalizing start with
  | nil => exact ⟨start,.nil start,linked⟩
  | cons step first ih =>
    cases linked with
    | cons rest =>
      obtain ⟨middle,left,right⟩ := ih rest
      exact ⟨middle,.cons left,right⟩

/-- What no step of a stretch changes is at every point of it as it was at its beginning. -/
theorem Linked.stretch {α : Type*} {start final : State} {earlier during later : List (Step State Label)}
    {first : Step State Label} {value : State → α} (linked : Linked start (earlier ++ (first :: during) ++ later) final)
    (kept : ∀ step ∈ first :: during, value step.after = value step.before) :
    ∀ step ∈ first :: during, value step.after = value first.before := by
  obtain ⟨_,front,_⟩ := linked.of_append
  obtain ⟨_,_,stretch⟩ := front.of_append
  cases stretch with
  | cons rest =>
    have same := @Linked.invariant _ _ _ _ _ (fun state => value state = value first.before) (.cons rest) rfl
      (fun step member equal => (kept step member).trans equal)
    exact fun step member => (same.2 step member).2

/-- A state with the steps that led to it. -/
structure Recorded (State Label : Type*) where
  state : State
  trace : List (Step State Label)

namespace Recorded

def record (label : Label) (update : State → State) (machine : Recorded State Label) : Recorded State Label where
  state := update machine.state
  trace := machine.trace ++ [⟨label,machine.state,update machine.state⟩]

/-- The second machine continues the first by steps that are all allowed. -/
def Extends (Allowed : Step State Label → Prop) (machine next : Recorded State Label) : Prop :=
  ∃ steps, next.trace = machine.trace ++ steps ∧ Linked machine.state steps next.state ∧ ∀ step ∈ steps, Allowed step

variable {Allowed : Step State Label → Prop}

theorem Extends.refl (machine : Recorded State Label) : Extends Allowed machine machine :=
  ⟨[],by simp,.nil _,by simp⟩

theorem Extends.trans {machine next last : Recorded State Label} (first : Extends Allowed machine next)
    (second : Extends Allowed next last) : Extends Allowed machine last := by
  obtain ⟨left,tracesLeft,linkedLeft,allowedLeft⟩ := first
  obtain ⟨right,tracesRight,linkedRight,allowedRight⟩ := second
  refine ⟨left ++ right,by simp [tracesRight,tracesLeft],linkedLeft.append linkedRight,fun step member => ?_⟩
  rcases List.mem_append.mp member with member | member
  · exact allowedLeft step member
  · exact allowedRight step member

theorem Extends.mono {Admitted : Step State Label → Prop} (admits : ∀ step, Allowed step → Admitted step)
    {machine next : Recorded State Label} (steps : Extends Allowed machine next) : Extends Admitted machine next := by
  obtain ⟨steps,trace,linked,allowed⟩ := steps
  exact ⟨steps,trace,linked,fun step member => admits step (allowed step member)⟩

/-- The steps are read off the record, so two conditions on them hold together. -/
theorem Extends.both {Admitted : Step State Label → Prop} {machine next : Recorded State Label}
    (first : Extends Allowed machine next) (second : Extends Admitted machine next) :
    Extends (fun step => Allowed step ∧ Admitted step) machine next := by
  obtain ⟨steps,trace,linked,allowed⟩ := first
  obtain ⟨others,same,_,admitted⟩ := second
  obtain rfl : steps = others := List.append_cancel_left (trace.symm.trans same)
  exact ⟨steps,trace,linked,fun step member => ⟨allowed step member,admitted step member⟩⟩

theorem Extends.record (label : Label) (update : State → State) (machine : Recorded State Label)
    (allowed : Allowed ⟨label,machine.state,update machine.state⟩) :
    Extends Allowed machine (machine.record label update) := by
  refine ⟨[⟨label,machine.state,update machine.state⟩],rfl,?_,by simpa using allowed⟩
  exact @Linked.cons _ _ ⟨label,machine.state,update machine.state⟩ _ _ (.nil _)

/-- What every step keeps, the steps being read off the longer record, is kept. -/
theorem Extends.invariant {machine next : Recorded State Label} {Inv : State → Prop} (steps : Extends Allowed machine next)
    (kept : ∀ step ∈ next.trace, Allowed step → Inv step.before → Inv step.after) (initial : Inv machine.state) :
    Inv next.state := by
  obtain ⟨steps,trace,linked,allowed⟩ := steps
  refine (linked.invariant initial fun step member => kept step ?_ (allowed step member)).1
  rw [trace]
  exact List.mem_append_right _ member

/-- A loop extends a machine when its body does for every item. -/
theorem Extends.foldl_mem {α : Type*} (body : Recorded State Label → α → Recorded State Label) (items : List α)
    (turn : ∀ item ∈ items, ∀ machine, Extends Allowed machine (body machine item)) (machine : Recorded State Label) :
    Extends Allowed machine (items.foldl body machine) := by
  induction items generalizing machine with
  | nil => exact .refl machine
  | cons item items ih =>
    have first := turn item (by simp) machine
    exact first.trans (ih (fun other member => turn other (by simp [member])) _)

theorem Extends.foldl {α : Type*} (body : Recorded State Label → α → Recorded State Label)
    (turn : ∀ machine item, Extends Allowed machine (body machine item)) (items : List α) (machine : Recorded State Label) :
    Extends Allowed machine (items.foldl body machine) :=
  foldl_mem body items (fun item _ machine => turn machine item) machine

end Recorded

end Eigrp.Lib
