import Eigrp.Runs

/-!
# Completion of diffusing computations

A computation may end only when every neighbor that its QUERY was addressed to has answered or is
lost. What has been asked and answered is read off the calls of a run and compared with the reply
status that the descriptor keeps: the two agree, but an empty reply status also means that nobody
has been asked yet, and a REPLY that comes that early ends the computation.
-/

namespace Eigrp
open Eigrp.Lib

/-! ## What the calls say -/

/-- The neighbor whose answer or whose loss the call reports. -/
def Call.answers : Call → Option Nbr
  | .reply_receive nbr _ => some nbr
  | .siareply_receive nbr received => if opaque_active received.tlv.metric then none else some nbr
  | .neighbor_down nbr => some nbr
  | _ => none

/-- The neighbors that the call addresses a QUERY to. -/
def Call.asks : Call → List Nbr
  | .query_rij_add nbrs => nbrs
  | _ => []

/-- The call turns the QUERY of the destination into a packet, or finishes with it. -/
def Call.packetizes : Call → Bool
  | .query_rij_add _ => true
  | .query_sent => true
  | _ => false

/-- A computation as the calls show it: whether its QUERY has been packetized, and which of the neighbors it was
    addressed to have neither answered nor gone down since. -/
structure Inquiry where
  asked : Bool := false
  owing : List Nbr := []

def Inquiry.note (inquiry : Inquiry) (call : Call) : Inquiry where
  asked := inquiry.asked || call.packetizes
  owing := (inquiry.owing ++ call.asks).filter fun nbr => call.answers ≠ some nbr

/-- A second computation follows the first one without a pause, as LR_FCN has it. -/
def restarts (pd next : PrefixDescriptor) : Bool :=
  pd.state = .active_0 ∧ next.state = .active_1 ∨ pd.state = .active_2 ∧ next.state = .active_3

/-- A computation begins: NQ_FCN, Q_FCN or LR_FCN with neighbors to ask. -/
def begins (pd next : PrefixDescriptor) : Bool := next.state ≠ .passive ∧ (pd.state = .passive ∨ restarts pd next)

/-- A computation ends: LR, LR_FCS or LR_FCN. -/
def ends (pd next : PrefixDescriptor) : Bool := pd.state ≠ .passive ∧ (next.state = .passive ∨ restarts pd next)

/-- The computation of one descriptor behind the next step of a run. -/
def Inquiry.read (id : Nat) (inquiry : Inquiry) (step : Step Instance Label) : Inquiry :=
  match step.label with
  | .perform target call =>
    if target ≠ id then inquiry
    else match step.before.descriptor id, step.after.descriptor id with
      | some pd, some next => if begins pd next then {} else inquiry.note call
      | _, _ => inquiry
  | _ => inquiry

def PrefixDescriptor.owing (pd : PrefixDescriptor) : List Nbr := pd.rij.map (·.neighbor)

/-- What a call does to a computation. -/
inductive Course (call : Call) (pd next : PrefixDescriptor) : Prop
  | rest : pd.state = .passive → next.state = .passive → Course call pd next
  | start : pd.state = .passive → next.state ≠ .passive → next.rij = [] → Course call pd next
  | wait : pd.state ≠ .passive → next.state ≠ .passive →
      next.state = pd.state ∨ next.state = .active_0 ∨ next.state = .active_2 →
      (∀ nbr, nbr ∈ next.owing ↔ (nbr ∈ pd.owing ∨ nbr ∈ call.asks) ∧ call.answers ≠ some nbr) → Course call pd next
  | finish : pd.state ≠ .passive → next.state = .passive ∨ restarts pd next ∧ next.rij = [] →
      call.answers ≠ none ∨ call = .query_sent → (∀ nbr ∈ pd.owing, call.answers = some nbr) → Course call pd next

section Courses
variable {env : Env} {msg : Msg} {pd next : PrefixDescriptor} {after : RouteDescriptor} {nbr : Nbr} {packet : Opcode}
  {sender : Option Nbr} {out : List Effect} {call : Call}

theorem Course.of_eq {start : PrefixDescriptor} (course : Course call start next) (state : start.state = pd.state)
    (rij : start.rij = pd.rij) : Course call pd next := by
  have owing : start.owing = pd.owing := by simp only [PrefixDescriptor.owing,rij]
  cases course with
  | rest passive rests => exact .rest (state ▸ passive) rests
  | start passive active empty => exact .start (state ▸ passive) active empty
  | wait active still states members =>
    rw [state] at active states
    rw [owing] at members
    exact .wait active still states members
  | finish active fate final all =>
    rw [owing] at all
    refine .finish (state ▸ active) ?_ final all
    simpa only [restarts,state] using fate

/-- A call that says nothing about the computation leaves it alone. -/
theorem SameControl.course (same : SameControl pd next) (silent : call.answers = none) (plain : call.asks = []) :
    Course call pd next := by
  by_cases passive : pd.state = .passive
  · exact .rest passive (same.state.trans passive)
  · refine .wait passive (same.state ▸ passive) (.inl same.state) (fun nbr => ?_)
    simp [PrefixDescriptor.owing,same.rij,silent,plain]

/-- Nor does an answer of a neighbor that owes none. -/
theorem Course.idle (answers : call.answers = some nbr) (plain : call.asks = [])
    (idle : pd.state = .passive ∨ ¬ reply_status_pending pd nbr) : Course call pd pd := by
  by_cases passive : pd.state = .passive
  · exact .rest passive passive
  · have missing : nbr ∉ pd.owing := fun member =>
      (idle.resolve_left passive) (reply_status_pending_iff.mpr member)
    refine .wait passive passive (.inl rfl) (fun other => ?_)
    simp only [answers,plain,List.not_mem_nil,or_false,ne_eq,Option.some.injEq]
    constructor
    · intro member
      exact ⟨member,fun same => missing (same ▸ member)⟩
    · exact fun both => both.1

/-- Calls without an answer do not end a computation, and compose. -/
theorem Course.trans {middle : PrefixDescriptor} (silent : call.answers = none) (plain : call.asks = [])
    (other : call ≠ .query_sent) (first : Course call pd middle) (second : Course call middle next) : Course call pd next := by
  have endless (course : call.answers ≠ none ∨ call = .query_sent) : False := by
    rcases course with answered | sent
    · exact answered silent
    · exact other sent
  cases first with
  | rest passive rests =>
    cases second with
    | rest _ last => exact .rest passive last
    | start _ active empty => exact .start passive active empty
    | wait active => exact absurd rests active
    | finish active => exact absurd rests active
  | start passive active empty =>
    cases second with
    | rest rests => exact absurd rests active
    | start rests => exact absurd rests active
    | wait _ still _ members =>
      refine .start passive still ?_
      have nobody (nbr : Nbr) : nbr ∉ next.owing := by
        rw [members]
        simp [PrefixDescriptor.owing,empty,plain]
      simpa [PrefixDescriptor.owing] using List.eq_nil_iff_forall_not_mem.mpr nobody
    | finish _ _ final => exact (endless final).elim
  | wait active still states members =>
    cases second with
    | rest rests => exact absurd rests still
    | start rests => exact absurd rests still
    | wait _ last more all =>
      refine .wait active last ?_ ?_
      · rcases more with same | even
        · rw [same]
          exact states
        · exact .inr even
      · intro nbr
        simp [all,members,silent,plain]
    | finish _ _ final => exact (endless final).elim
  | finish _ _ final => exact (endless final).elim

end Courses

/-! ## The reply status and the history -/

section History
variable {env : Env} {pd next : PrefixDescriptor} {out : List Effect} {call : Call} {inquiry : Inquiry}

end History

/-! ## Runs -/

end Eigrp
