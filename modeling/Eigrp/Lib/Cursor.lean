import Mathlib.Data.List.Basic
import Mathlib.Data.List.Nodup

/-!
# Cursors into a list that is edited

A walk over a list remembers the item it visited last. Between two turns items are taken out of the list
and new ones are put at its end. As long as the remembered item stays, nothing in front of the walk is lost.
-/

namespace Eigrp.Lib

variable {α : Type*}

/-- Items are taken out and new ones are put at the end. -/
def Edited (before after : List α) : Prop :=
  ∃ kept fresh, after = kept ++ fresh ∧ kept.Sublist before ∧ ∀ item ∈ fresh, item ∉ before

variable [DecidableEq α]

/-- What follows an item. -/
def behind (item : α) (items : List α) : List α := (items.dropWhile (· ≠ item)).tail

/-- What a walk has not visited yet. -/
def ahead (cursor : Option α) (items : List α) : List α :=
  match cursor with
  | none => items
  | some item => behind item items

theorem behind_cons (item : α) (items : List α) : behind item (item :: items) = items := by simp [behind]

theorem behind_cons_ne {item first : α} (different : first ≠ item) (items : List α) :
    behind item (first :: items) = behind item items := by simp [behind,different]

theorem behind_subset (item : α) (items : List α) : behind item items ⊆ items :=
  ((List.tail_sublist _).trans (List.dropWhile_sublist _)).subset

theorem behind_split {item : α} {items : List α} {first : α} {rest : List α} (nodup : items.Nodup)
    (split : behind item items = first :: rest) : behind first items = rest := by
  induction items with
  | nil => simp [behind] at split
  | cons head items ih =>
    obtain ⟨fresh,nodup⟩ := List.nodup_cons.mp nodup
    by_cases here : head = item
    · subst here
      rw [behind_cons] at split
      subst split
      have different : head ≠ first := fun same => fresh (by simp [same])
      rw [behind_cons_ne different,behind_cons]
    · rw [behind_cons_ne here] at split
      have member : first ∈ items := behind_subset item items (by simp [split])
      have different : head ≠ first := fun same => fresh (same ▸ member)
      rw [behind_cons_ne different]
      exact ih nodup split

/-- The walk goes on behind the item it visits next. -/
theorem ahead_advance {cursor : Option α} {items : List α} {first : α} {rest : List α} (nodup : items.Nodup)
    (split : ahead cursor items = first :: rest) : ahead (some first) items = rest := by
  cases cursor with
  | none =>
    have split : items = first :: rest := split
    rw [split]
    exact behind_cons first rest
  | some item => exact behind_split nodup split

theorem ahead_subset (cursor : Option α) (items : List α) : ahead cursor items ⊆ items := by
  cases cursor with
  | none => exact List.Subset.refl _
  | some item => exact behind_subset item items

theorem behind_sublist {item other : α} {kept items : List α} (sublist : kept.Sublist items) (nodup : items.Nodup) (here : item ∈ kept)
    (follows : other ∈ behind item items) (stays : other ∈ kept) : other ∈ behind item kept := by
  induction sublist with
  | slnil => cases here
  | @cons kept items first sublist ih =>
    obtain ⟨fresh,nodup⟩ := List.nodup_cons.mp nodup
    have different : first ≠ item := fun same => fresh (same ▸ sublist.subset here)
    rw [behind_cons_ne different] at follows
    exact ih nodup here follows stays
  | @cons_cons kept items first sublist ih =>
    obtain ⟨fresh,nodup⟩ := List.nodup_cons.mp nodup
    by_cases same : first = item
    · subst same
      rw [behind_cons] at follows ⊢
      rcases List.mem_cons.mp stays with rfl | stays
      · exact absurd follows fresh
      · exact stays
    · rw [behind_cons_ne same] at follows ⊢
      have member : other ∈ items := behind_subset item items follows
      refine ih nodup ?_ follows ?_
      · exact (List.mem_cons.mp here).resolve_left fun equal => same equal.symm
      · exact (List.mem_cons.mp stays).resolve_left fun equal => fresh (equal ▸ member)

theorem behind_append {item : α} {items : List α} (here : item ∈ items) (more : List α) :
    behind item (items ++ more) = behind item items ++ more := by
  induction items with
  | nil => cases here
  | cons first items ih =>
    by_cases same : first = item
    · subst same
      rw [List.cons_append,behind_cons,behind_cons]
    · rw [List.cons_append,behind_cons_ne same,behind_cons_ne same]
      exact ih ((List.mem_cons.mp here).resolve_left fun equal => same equal.symm)

/-- What was ahead of a walk and stays in the list is still ahead of it, if the item it remembers stays. -/
theorem Edited.ahead {before after : List α} {cursor : Option α} {item : α} (edited : Edited before after) (nodup : before.Nodup)
    (remembered : ∀ item ∈ cursor, item ∈ before ∧ item ∈ after) (waits : item ∈ Lib.ahead cursor before) (stays : item ∈ after) :
    item ∈ Lib.ahead cursor after := by
  obtain ⟨kept,fresh,rfl,sublist,new⟩ := edited
  cases cursor with
  | none => exact stays
  | some last =>
    obtain ⟨known,present⟩ := remembered last rfl
    have old (item : α) (member : item ∈ kept ++ fresh) (earlier : item ∈ before) : item ∈ kept :=
      (List.mem_append.mp member).resolve_right fun late => new item late earlier
    have here := old last present known
    have kept_item := old item stays (behind_subset last before waits)
    rw [Lib.ahead,behind_append here]
    exact List.mem_append_left _ (behind_sublist sublist nodup here waits kept_item)

end Eigrp.Lib
