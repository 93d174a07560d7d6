import Mathlib.Tactic

/-!
# Linked lists

Cells that name the cell behind them. A cursor follows the links from a start; what it meets is a list of cells. A cell is
unlinked by pointing its predecessor, or the start, to its successor. A list that is linked in both directions is two lists,
one the reverse of the other.
-/

namespace Eigrp.Lib

variable {α : Type} {link : α → Option α} {start : Option α}

/-- The cells are those met from the start to the end. -/
def Threaded (link : α → Option α) : Option α → List α → Prop
  | start, [] => start = none
  | start, cell :: cells => start = some cell ∧ Threaded link (link cell) cells

/-- What a cursor meets in so many steps. -/
def trail (link : α → Option α) : Nat → Option α → List α
  | 0, _ => []
  | _ + 1, none => []
  | steps + 1, some cell => cell :: trail link steps (link cell)

theorem Threaded.head {cells : List α} (linked : Threaded link start cells) : start = cells.head? := by
  cases cells with
  | nil => exact linked
  | cons cell cells => exact linked.1

/-- A cursor meets the cells and then stops. -/
theorem Threaded.trail_eq {cells : List α} (linked : Threaded link start cells) {steps : Nat} (enough : cells.length ≤ steps) :
    trail link steps start = cells := by
  induction cells generalizing start steps with
  | nil =>
    rw [show start = none from linked]
    cases steps <;> rfl
  | cons cell cells ih =>
    obtain ⟨rfl,rest⟩ := linked
    cases steps with
    | zero => simp at enough
    | succ steps => rw [trail,ih rest (Nat.le_of_succ_le_succ enough)]

/-- Only the links of the cells matter. -/
theorem Threaded.congr {other : α → Option α} {cells : List α} (linked : Threaded link start cells)
    (same : ∀ cell ∈ cells, other cell = link cell) : Threaded other start cells := by
  induction cells generalizing start with
  | nil => exact linked
  | cons cell cells ih =>
    refine ⟨linked.1,?_⟩
    rw [same cell List.mem_cons_self]
    exact ih linked.2 fun next member => same next (List.mem_cons_of_mem _ member)

theorem Threaded.next_eq {front back : List α} {cell : α} (linked : Threaded link start (front ++ cell :: back)) : link cell = back.head? := by
  induction front generalizing start with
  | nil => exact linked.2.head
  | cons first front ih => exact ih linked.2

/-- A cell is put in front of the first one. -/
theorem threaded_cons [DecidableEq α] {cells : List α} {cell : α} (linked : Threaded link start cells) (fresh : cell ∉ cells) :
    Threaded (fun other => if other = cell then start else link other) (some cell) (cell :: cells) := by
  refine ⟨rfl,?_⟩
  simp only [if_true]
  refine linked.congr fun other member => if_neg fun same => ?_
  exact fresh (same ▸ member)

/-- A cell is put behind the last one. -/
theorem threaded_snoc [DecidableEq α] {cells : List α} {cell : α} (linked : Threaded link start cells) (fresh : cell ∉ cells) (nodup : cells.Nodup) :
    Threaded (fun other => if other = cell then none else if cells.getLast? = some other then some cell else link other)
      (if cells.getLast? = none then some cell else start) (cells ++ [cell]) := by
  induction cells generalizing start with
  | nil => exact ⟨rfl,by simp [Threaded]⟩
  | cons first cells ih =>
    have other_cell : first ≠ cell := fun same => fresh (same ▸ List.mem_cons_self)
    have rest := ih linked.2 (fun member => fresh (List.mem_cons_of_mem _ member)) (List.nodup_cons.1 nodup).2
    refine ⟨by simp [linked.1],?_⟩
    cases cells with
    | nil => simp [Threaded,other_cell]
    | cons second cells =>
      have not_last : (second :: cells).getLast? ≠ some first := by
        intro last
        exact (List.nodup_cons.1 nodup).1 (List.mem_of_getLast? last)
      rw [List.getLast?_cons_cons] at *
      simp only [not_last,other_cell,if_false]
      simpa using rest

/-- The place that names the cell: the cell in front of it, or `before` for the start. -/
def cursor [DecidableEq α] (link : α → Option α) (cell : α) : Nat → Option α → Option α → Option (Option α)
  | 0, _, _ => none
  | _ + 1, _, none => none
  | steps + 1, before, some here => if here = cell then some before else cursor link cell steps (some here) (link here)

theorem Threaded.cursor_eq [DecidableEq α] {front back : List α} {cell : α} (linked : Threaded link start (front ++ cell :: back))
    (first : cell ∉ front) {steps : Nat} (enough : front.length < steps) (before : Option α) :
    cursor link cell steps before start = some (front.getLast?.or before) := by
  induction front generalizing start steps before with
  | nil =>
    obtain ⟨rfl,_⟩ := linked
    cases steps with
    | zero => simp at enough
    | succ steps => simp [cursor]
  | cons here front ih =>
    obtain ⟨rfl,rest⟩ := linked
    have other : ¬ here = cell := fun same => first (same ▸ List.mem_cons_self)
    cases steps with
    | zero => simp at enough
    | succ steps =>
      rw [cursor,if_neg other,ih rest (fun member => first (List.mem_cons_of_mem _ member)) (Nat.lt_of_succ_lt_succ enough)]
      cases front <;> simp [List.getLast?_cons]

/-- The predecessor of a cell, or the start, points to its successor instead. -/
theorem threaded_unlink [DecidableEq α] {front back : List α} {cell : α} (linked : Threaded link start (front ++ cell :: back))
    (nodup : (front ++ cell :: back).Nodup) :
    Threaded (fun other => if front.getLast? = some other then link cell else link other)
      (if front.getLast? = none then link cell else start) (front ++ back) := by
  induction front generalizing start with
  | nil =>
    obtain ⟨rfl,rest⟩ := linked
    exact rest.congr fun other _ => by simp
  | cons first front ih =>
    have rest := ih linked.2 (List.nodup_cons.1 nodup).2
    refine ⟨by simp [linked.1],?_⟩
    cases front with
    | nil =>
      have different : first ∉ back := fun member => (List.nodup_cons.1 nodup).1 (by simp [member])
      have successor : Threaded link (link cell) back := linked.2.2
      simp only [List.getLast?_singleton,if_true]
      refine successor.congr fun other member => ?_
      have apart : ¬ first = other := fun same => different (same ▸ member)
      simp [apart]
    | cons second front =>
      have not_last : (second :: front).getLast? ≠ some first := by
        intro last
        exact (List.nodup_cons.1 nodup).1 (List.mem_append_left _ (List.mem_of_getLast? last))
      rw [List.getLast?_cons_cons] at *
      simp only [not_last,if_false]
      simpa using rest

/-- A cell is put between two neighboring ones, the first and the start, or the last and the end. -/
theorem threaded_insert [DecidableEq α] {front back : List α} {cell : α} (linked : Threaded link start (front ++ back))
    (fresh : cell ∉ front) (fresh_back : cell ∉ back) (nodup : (front ++ back).Nodup) :
    Threaded (fun other => if other = cell then back.head? else if front.getLast? = some other then some cell else link other)
      (if front.getLast? = none then some cell else start) (front ++ cell :: back) := by
  induction front generalizing start with
  | nil =>
    refine ⟨rfl,?_⟩
    simp only [if_true]
    have behind : Threaded link start back := linked
    rw [← behind.head]
    refine behind.congr fun other member => ?_
    have apart : other ≠ cell := fun same => fresh_back (same ▸ member)
    simp [apart]
  | cons first front ih =>
    have other_cell : first ≠ cell := fun same => fresh (same ▸ List.mem_cons_self)
    have rest := ih linked.2 (fun member => fresh (List.mem_cons_of_mem _ member)) (List.nodup_cons.1 nodup).2
    refine ⟨by simp [linked.1],?_⟩
    cases front with
    | nil =>
      have behind : Threaded link (link first) back := linked.2
      simp only [List.getLast?_singleton,other_cell,if_false,if_true]
      refine ⟨rfl,?_⟩
      simp only [if_true]
      rw [← behind.head]
      refine behind.congr fun other member => ?_
      have apart : other ≠ cell := fun same => fresh_back (same ▸ member)
      have different : ¬ first = other := fun same => (List.nodup_cons.1 nodup).1 (same ▸ member)
      simp [apart,different]
    | cons second front =>
      have not_last : (second :: front).getLast? ≠ some first := by
        intro last
        exact (List.nodup_cons.1 nodup).1 (List.mem_append_left _ (List.mem_of_getLast? last))
      rw [List.getLast?_cons_cons] at *
      simp only [not_last,other_cell,if_false]
      simpa using rest

/-! ## Links in both directions -/

/-- The links of all cells, and the two ends of one list. -/
@[ext]
structure Links (α : Type) where
  next : α → Option α
  previous : α → Option α
  head : Option α
  tail : Option α

namespace Links
variable {links : Links α}

/-- The cells are met from the head, and in the opposite order from the tail. -/
structure Chain (links : Links α) (cells : List α) : Prop where
  forward : Threaded links.next links.head cells
  backward : Threaded links.previous links.tail cells.reverse
  nodup : cells.Nodup

section Writes
variable [DecidableEq α]

def point_next (links : Links α) : Option α → Option α → Links α
  | none, value => { links with head := value }
  | some cell, value => { links with next := fun other => if other = cell then value else links.next other }

def point_previous (links : Links α) : Option α → Option α → Links α
  | none, value => { links with tail := value }
  | some cell, value => { links with previous := fun other => if other = cell then value else links.previous other }

/-- A cell between two places, where none stands for an end of the list. -/
def insert (links : Links α) (before after : Option α) (cell : α) : Links α :=
  (((links.point_previous (some cell) before).point_next (some cell) after).point_next before (some cell)).point_previous after (some cell)

/-- The places around the cell name each other. -/
def unlink (links : Links α) (cell : α) : Links α :=
  (links.point_next (links.previous cell) (links.next cell)).point_previous (links.next cell) (links.previous cell)

end Writes

theorem Chain.head_eq {cells : List α} (chain : links.Chain cells) : links.head = cells.head? := chain.forward.head

theorem Chain.tail_eq {cells : List α} (chain : links.Chain cells) : links.tail = cells.getLast? := by
  rw [chain.backward.head,List.head?_reverse]

theorem Chain.next_eq {front back : List α} {cell : α} (chain : links.Chain (front ++ cell :: back)) : links.next cell = back.head? :=
  chain.forward.next_eq

theorem Chain.previous_eq {front back : List α} {cell : α} (chain : links.Chain (front ++ cell :: back)) :
    links.previous cell = front.getLast? := by
  have backward := chain.backward
  rw [List.reverse_append,List.reverse_cons,List.append_assoc,List.singleton_append] at backward
  rw [backward.next_eq,List.head?_reverse]

/-- Only the links of the cells and the ends matter. -/
theorem Chain.congr {other : Links α} {cells : List α} (chain : links.Chain cells) (head : other.head = links.head)
    (tail : other.tail = links.tail) (next : ∀ cell ∈ cells, other.next cell = links.next cell)
    (previous : ∀ cell ∈ cells, other.previous cell = links.previous cell) : other.Chain cells where
  forward := head ▸ chain.forward.congr next
  backward := tail ▸ chain.backward.congr fun cell member => previous cell (List.mem_reverse.1 member)
  nodup := chain.nodup

theorem chain_empty (links : Links α) : ({ links with head := none, tail := none } : Links α).Chain [] :=
  ⟨rfl,rfl,List.nodup_nil⟩

variable [DecidableEq α]

theorem insert_views {before after : Option α} {cell : α} (front : before ≠ some cell) (back : after ≠ some cell) :
    ((links.insert before after cell).next =
      fun other => if other = cell then after else if before = some other then some cell else links.next other) ∧
    ((links.insert before after cell).previous =
      fun other => if other = cell then before else if after = some other then some cell else links.previous other) ∧
    (links.insert before after cell).head = (if before = none then some cell else links.head) ∧
    (links.insert before after cell).tail = (if after = none then some cell else links.tail) := by
  refine ⟨funext fun other => ?_,funext fun other => ?_,?_,?_⟩ <;> cases before <;> cases after <;>
    simp only [insert,point_next,point_previous,Option.some.injEq,reduceCtorEq,if_true,if_false,ne_eq] at * <;> grind

theorem Chain.insert {front back : List α} {cell : α} (chain : links.Chain (front ++ back)) (fresh : cell ∉ front ++ back) :
    (links.insert front.getLast? back.head? cell).Chain (front ++ cell :: back) := by
  have fresh_front : cell ∉ front := fun member => fresh (List.mem_append_left _ member)
  have fresh_back : cell ∉ back := fun member => fresh (List.mem_append_right _ member)
  have before : front.getLast? ≠ some cell := fun last => fresh_front (List.mem_of_getLast? last)
  have after : back.head? ≠ some cell := fun first => fresh_back (List.mem_of_head? first)
  obtain ⟨next,previous,head,tail⟩ := @insert_views α links _ _ _ _ before after
  refine ⟨?_,?_,?_⟩
  · rw [next,head]
    exact threaded_insert chain.forward fresh_front fresh_back chain.nodup
  · have backward := chain.backward
    rw [List.reverse_append] at backward
    have nodup := List.nodup_reverse.2 chain.nodup
    rw [List.reverse_append] at nodup
    have inserted := threaded_insert backward (fun member => fresh_back (List.mem_reverse.1 member))
      (fun member => fresh_front (List.mem_reverse.1 member)) nodup
    rw [List.head?_reverse,List.getLast?_reverse] at inserted
    rw [previous,tail,List.reverse_append,List.reverse_cons,List.append_assoc]
    exact inserted
  · have moved : (front ++ cell :: back).Perm (cell :: (front ++ back)) := List.perm_middle
    exact moved.nodup_iff.2 (List.nodup_cons.2 ⟨fresh,chain.nodup⟩)

theorem unlink_views (links : Links α) (cell : α) :
    ((links.unlink cell).next = fun other => if links.previous cell = some other then links.next cell else links.next other) ∧
    ((links.unlink cell).previous = fun other => if links.next cell = some other then links.previous cell else links.previous other) ∧
    (links.unlink cell).head = (if links.previous cell = none then links.next cell else links.head) ∧
    (links.unlink cell).tail = (if links.next cell = none then links.previous cell else links.tail) := by
  unfold unlink
  generalize links.previous cell = before
  generalize links.next cell = after
  refine ⟨funext fun other => ?_,funext fun other => ?_,?_,?_⟩ <;> cases before <;> cases after <;>
    simp [point_next,point_previous,eq_comm]

theorem Chain.unlink {front back : List α} {cell : α} (chain : links.Chain (front ++ cell :: back)) :
    (links.unlink cell).Chain (front ++ back) := by
  have forward := threaded_unlink chain.forward chain.nodup
  have backward := chain.backward
  have reversed := List.nodup_reverse.2 chain.nodup
  rw [List.reverse_append,List.reverse_cons,List.append_assoc,List.singleton_append] at backward reversed
  have unlinked := threaded_unlink backward reversed
  rw [List.getLast?_reverse,← List.reverse_append] at unlinked
  rw [chain.next_eq] at forward
  rw [chain.previous_eq] at unlinked
  obtain ⟨next,previous,head,tail⟩ := unlink_views links cell
  rw [chain.previous_eq,chain.next_eq] at next previous head tail
  refine ⟨?_,?_,?_⟩
  · rw [next,head]
    exact forward
  · rw [previous,tail]
    exact unlinked
  · have moved : (front ++ cell :: back).Perm (cell :: (front ++ back)) := List.perm_middle
    exact (List.nodup_cons.1 (moved.nodup_iff.1 chain.nodup)).2

end Links

/-! ## Chains of buckets -/

/-- Every bucket leads to a chain of the cells that belong there. -/
def Bucketed (link : α → Option α) (slots : Nat → Option α) (place : α → Nat) (count : Nat) (cells : List α) : Prop :=
  ∀ bucket < count, ∃ chain, Threaded link (slots bucket) chain ∧ chain.Nodup ∧
    ∀ cell, cell ∈ chain ↔ cell ∈ cells ∧ place cell = bucket

section Bucketed
variable {slots : Nat → Option α} {place : α → Nat} {count : Nat} {cells : List α}

theorem bucketed_nil : Bucketed link (fun _ => none) place count [] :=
  fun _ _ => ⟨[],rfl,List.nodup_nil,by simp⟩

/-- The order of the cells does not matter. -/
theorem Bucketed.perm {others : List α} (bucketed : Bucketed link slots place count cells)
    (same : ∀ cell, cell ∈ others ↔ cell ∈ cells) : Bucketed link slots place count others := by
  intro bucket below
  obtain ⟨chain,linked,nodup,members⟩ := bucketed bucket below
  exact ⟨chain,linked,nodup,fun cell => by rw [members,same]⟩

/-- Only the links and the places of the cells matter. -/
theorem Bucketed.congr {other : α → Option α} {other_place : α → Nat} (bucketed : Bucketed link slots place count cells)
    (same : ∀ cell ∈ cells, other cell = link cell) (stays : ∀ cell ∈ cells, other_place cell = place cell) :
    Bucketed other slots other_place count cells := by
  intro bucket below
  obtain ⟨chain,linked,nodup,members⟩ := bucketed bucket below
  refine ⟨chain,linked.congr fun cell member => same cell ((members cell).1 member).1,nodup,fun cell => ?_⟩
  rw [members]
  refine and_congr_right fun member => ?_
  rw [stays cell member]

variable [DecidableEq α]

/-- A cell is put in front of the chain of its bucket. -/
theorem Bucketed.push {cell : α} (bucketed : Bucketed link slots place count cells) (fresh : cell ∉ cells) :
    Bucketed (fun other => if other = cell then slots (place cell) else link other)
      (fun bucket => if bucket = place cell then some cell else slots bucket) place count (cell :: cells) := by
  intro bucket below
  obtain ⟨chain,linked,nodup,members⟩ := bucketed bucket below
  have absent : cell ∉ chain := fun member => fresh ((members cell).1 member).1
  by_cases here : bucket = place cell
  · subst here
    simp only [if_true]
    refine ⟨cell :: chain,threaded_cons linked absent,List.nodup_cons.2 ⟨absent,nodup⟩,fun other => ?_⟩
    rw [List.mem_cons,List.mem_cons,members]
    constructor
    · rintro (rfl | ⟨member,same⟩)
      · exact ⟨.inl rfl,rfl⟩
      · exact ⟨.inr member,same⟩
    · rintro ⟨rfl | member,same⟩
      · exact .inl rfl
      · exact .inr ⟨member,same⟩
  · simp only [here,if_false]
    have apart {other : α} (member : other ∈ chain) : other ≠ cell := fun same => absent (same ▸ member)
    refine ⟨chain,linked.congr fun other member => if_neg (apart member),nodup,fun other => ?_⟩
    rw [List.mem_cons,members]
    constructor
    · rintro ⟨member,same⟩
      exact ⟨.inr member,same⟩
    · rintro ⟨rfl | member,same⟩
      · exact absurd same.symm here
      · exact ⟨member,same⟩

/-- A cell is unlinked from the chain of its bucket, where `front` are the cells in front of it. -/
theorem Bucketed.unlink {cell : α} {front back left : List α} (bucketed : Bucketed link slots place count cells)
    (here : Threaded link (slots (place cell)) (front ++ cell :: back)) (nodup : (front ++ cell :: back).Nodup)
    (chain : ∀ other, other ∈ front ++ cell :: back ↔ other ∈ cells ∧ place other = place cell)
    (rest : ∀ other, other ∈ left ↔ other ∈ cells ∧ other ≠ cell) :
    Bucketed (fun other => if front.getLast? = some other then link cell else link other)
      (fun bucket => if bucket = place cell ∧ front.getLast? = none then link cell else slots bucket) place count left := by
  intro bucket below
  by_cases same : bucket = place cell
  · subst same
    have moved : (front ++ cell :: back).Perm (cell :: (front ++ back)) := List.perm_middle
    obtain ⟨absent,others⟩ := List.nodup_cons.1 (moved.nodup_iff.1 nodup)
    simp only [true_and]
    refine ⟨front ++ back,threaded_unlink here nodup,others,fun other => ?_⟩
    rw [rest,and_right_comm,← chain,List.mem_append,List.mem_append,List.mem_cons]
    constructor
    · rintro (member | member)
      · exact ⟨.inl member,fun equal => absent (List.mem_append_left _ (equal ▸ member))⟩
      · exact ⟨.inr (.inr member),fun equal => absent (List.mem_append_right _ (equal ▸ member))⟩
    · rintro ⟨member | equal | member,different⟩
      · exact .inl member
      · exact absurd equal different
      · exact .inr member
  · obtain ⟨other_chain,linked,other_nodup,members⟩ := bucketed bucket below
    simp only [same,false_and,if_false]
    refine ⟨other_chain,linked.congr fun other member => if_neg fun last => ?_,other_nodup,fun other => ?_⟩
    · have first := ((chain other).1 (List.mem_append_left _ (List.mem_of_getLast? last))).2
      exact same (((members other).1 member).2.symm.trans first)
    · rw [members,rest]
      constructor
      · rintro ⟨member,placed⟩
        exact ⟨⟨member,fun equal => same (by rw [← placed,equal])⟩,placed⟩
      · rintro ⟨⟨member,_⟩,placed⟩
        exact ⟨member,placed⟩

end Bucketed

end Eigrp.Lib
