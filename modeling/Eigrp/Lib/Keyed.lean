import Mathlib.Data.List.Nodup
import Mathlib.Logic.Function.Basic

/-!
# Keyed lists

A list with at most one entry a key: an entry is written in the place of the one under its key, and comes first where the
key is not listed. What such a list holds is a map from keys to entries, and the map says everything but the order.
-/

namespace Eigrp.Lib.Keyed

variable {α κ : Type} [DecidableEq κ] (key : α → κ)

/-- The entry under a key. -/
def lookup (wanted : κ) (entries : List α) : Option α := entries.find? fun entry => key entry = wanted

/-- The list with an entry in the place of the first one under its key, if there is one. -/
def replace (entry : α) : List α → Option (List α)
  | [] => none
  | first :: rest => if key first = key entry then some (entry :: rest) else (replace entry rest).map (first :: ·)

def put (entry : α) (entries : List α) : List α := (replace key entry entries).getD (entry :: entries)

def remove (wanted : κ) (entries : List α) : List α := entries.eraseP fun entry => key entry = wanted

/-- No key is listed twice. -/
def Distinct (entries : List α) : Prop := (entries.map key).Nodup

variable {key} {entry : α} {wanted : κ} {entries others : List α}

theorem lookup_key (found : lookup key wanted entries = some entry) : key entry = wanted := by
  simpa using List.find?_some found

theorem lookup_mem (found : lookup key wanted entries = some entry) : entry ∈ entries := List.mem_of_find?_eq_some found

theorem lookup_eq_none : lookup key wanted entries = none ↔ wanted ∉ entries.map key := by
  simp [lookup]

/-! ## Writing -/

theorem replace_none : replace key entry entries = none ↔ key entry ∉ entries.map key := by
  induction entries with
  | nil => simp [replace]
  | cons first rest ih =>
    by_cases same : key first = key entry
    · simp [replace,same]
    · have different : ¬ key entry = key first := fun eq => same eq.symm
      simp [replace,same,different,ih]

/-- Writing in place changes the entry under one key and no key. -/
theorem replace_some (written : replace key entry entries = some others) :
    others.map key = entries.map key ∧
      ∀ wanted, lookup key wanted others = if wanted = key entry then some entry else lookup key wanted entries := by
  induction entries generalizing others with
  | nil => cases written
  | cons first rest ih =>
    rw [replace] at written
    by_cases same : key first = key entry
    · rw [if_pos same] at written
      cases written
      refine ⟨by simp [same],fun wanted => ?_⟩
      by_cases asked : wanted = key entry
      · simp [lookup,asked]
      · have other : ¬ key entry = wanted := fun eq => asked eq.symm
        simp [lookup,asked,same,other]
    · rw [if_neg same] at written
      obtain ⟨tail,done,rfl⟩ := Option.map_eq_some_iff.mp written
      obtain ⟨keys,found⟩ := ih done
      refine ⟨by simp [keys],fun wanted => ?_⟩
      by_cases here : key first = wanted
      · have other : ¬ wanted = key entry := fun eq => same (here.trans eq)
        simp [lookup,here,other]
      · have step := found wanted
        simp only [lookup] at step ⊢
        simp [here,step]

/-- Where no key is listed twice, writing in place is writing wherever the key is. -/
theorem replace_map (distinct : Distinct key entries) (listed : key entry ∈ entries.map key) :
    replace key entry entries = some (entries.map fun other => if key other = key entry then entry else other) := by
  induction entries with
  | nil => cases listed
  | cons first rest ih =>
    obtain ⟨fresh,distinct⟩ := List.nodup_cons.mp distinct
    rw [replace,List.map_cons]
    by_cases same : key first = key entry
    · have others : rest.map (fun other => if key other = key entry then entry else other) = rest := by
        refine (List.map_congr_left fun other member => ?_).trans (List.map_id rest)
        have apart : ¬ key other = key entry := fun there => fresh (same.trans there.symm ▸ List.mem_map_of_mem member)
        exact if_neg apart
      rw [if_pos same,if_pos same,others]
    · have behind : key entry ∈ rest.map key := by
        rcases List.mem_cons.mp listed with here | behind
        · exact absurd here.symm same
        · exact behind
      rw [if_neg same,if_neg same,ih distinct behind,Option.map_some]

theorem lookup_put : lookup key wanted (put key entry entries) = if wanted = key entry then some entry else lookup key wanted entries := by
  unfold put
  cases written : replace key entry entries with
  | some others => exact (replace_some written).2 wanted
  | none =>
    by_cases asked : wanted = key entry
    · simp [lookup,asked]
    · have other : ¬ key entry = wanted := fun eq => asked eq.symm
      simp [lookup,asked,other]

theorem Distinct.put (distinct : Distinct key entries) : Distinct key (put key entry entries) := by
  unfold Keyed.put Distinct
  cases written : replace key entry entries with
  | some others =>
    rw [Option.getD_some,(replace_some written).1]
    exact distinct
  | none => exact List.nodup_cons.mpr ⟨replace_none.mp written,distinct⟩

theorem mem_replace {other : α} (written : replace key other entries = some others) (member : entry ∈ others) :
    entry = other ∨ entry ∈ entries := by
  induction entries generalizing others with
  | nil => cases written
  | cons first rest ih =>
    rw [replace] at written
    split at written
    · cases written
      rcases List.mem_cons.mp member with here | behind
      · exact .inl here
      · exact .inr (List.mem_cons_of_mem _ behind)
    · obtain ⟨tail,done,rfl⟩ := Option.map_eq_some_iff.mp written
      rcases List.mem_cons.mp member with here | behind
      · exact .inr (here ▸ List.mem_cons_self)
      · exact (ih done behind).imp_right (List.mem_cons_of_mem _)

theorem mem_put {other : α} (member : entry ∈ put key other entries) : entry = other ∨ entry ∈ entries := by
  unfold put at member
  cases written : replace key other entries with
  | none => simpa [written] using member
  | some others =>
    rw [written,Option.getD_some] at member
    exact mem_replace written member

/-! ## Taking out -/

theorem Distinct.remove (distinct : Distinct key entries) : Distinct key (remove key wanted entries) :=
  distinct.sublist (List.eraseP_sublist.map key)

theorem lookup_remove (distinct : Distinct key entries) (other : κ) :
    lookup key other (remove key wanted entries) = if other = wanted then none else lookup key other entries := by
  induction entries with
  | nil => simp [remove,lookup]
  | cons first rest ih =>
    obtain ⟨fresh,distinct⟩ := List.nodup_cons.mp distinct
    by_cases same : key first = wanted
    · have erased : remove key wanted (first :: rest) = rest := by simp [remove,same]
      rw [erased]
      by_cases asked : other = wanted
      · rw [if_pos asked,lookup_eq_none,asked,← same]
        exact fresh
      · have different : ¬ wanted = other := fun eq => asked eq.symm
        simp [lookup,asked,same,different]
    · have kept : remove key wanted (first :: rest) = first :: remove key wanted rest := by simp [remove,same]
      rw [kept]
      by_cases here : key first = other
      · have different : ¬ other = wanted := fun eq => same (here.trans eq)
        simp [lookup,here,different]
      · have step := ih distinct
        simp only [lookup] at step ⊢
        simp [here,step]

/-- Taking out by a finer test takes out the entry under the key, if the test finds one. -/
theorem eraseP_eq_remove {test : α → Bool} (distinct : Distinct key entries) (tests : ∀ entry, test entry → key entry = wanted)
    (found : (entries.find? test).isSome) : entries.eraseP test = remove key wanted entries := by
  induction entries with
  | nil => cases found
  | cons first rest ih =>
    obtain ⟨fresh,distinct⟩ := List.nodup_cons.mp distinct
    by_cases here : test first = true
    · simp [remove,here,tests first here]
    · rw [List.find?_cons_of_neg here] at found
      obtain ⟨entry,holds⟩ := Option.isSome_iff_exists.mp found
      have apart : ¬ key first = wanted := by
        rintro rfl
        exact fresh (tests entry (List.find?_some holds) ▸ List.mem_map_of_mem (List.mem_of_find?_eq_some holds))
      rw [List.eraseP_cons_of_neg here,ih distinct found]
      simp [remove,apart]

/-! ## The map says everything but the order -/

theorem mem_iff (distinct : Distinct key entries) : entry ∈ entries ↔ lookup key (key entry) entries = some entry := by
  constructor
  · intro member
    induction entries with
    | nil => cases member
    | cons first rest ih =>
      obtain ⟨fresh,distinct⟩ := List.nodup_cons.mp distinct
      rcases List.mem_cons.mp member with rfl | behind
      · simp [lookup]
      · have different : ¬ key first = key entry := fun eq => fresh (eq ▸ List.mem_map_of_mem behind)
        have step := ih distinct behind
        simp only [lookup] at step ⊢
        simp [different,step]
  · exact lookup_mem

/-- An entry is found when it is the only one under its key. -/
theorem lookup_iff (single : ∀ one ∈ entries, ∀ other ∈ entries, key one = key other → one = other) :
    lookup key wanted entries = some entry ↔ entry ∈ entries ∧ key entry = wanted := by
  constructor
  · intro found
    exact ⟨lookup_mem found,lookup_key found⟩
  · rintro ⟨member,here⟩
    cases found : lookup key wanted entries with
    | none => exact absurd (here ▸ List.mem_map_of_mem member) (lookup_eq_none.mp found)
    | some other => rw [single other (lookup_mem found) entry member ((lookup_key found).trans here.symm)]

theorem lookup_congr (single : ∀ one ∈ entries, ∀ other ∈ entries, key one = key other → one = other)
    (same : ∀ entry, entry ∈ entries ↔ entry ∈ others) : lookup key wanted entries = lookup key wanted others := by
  have single_others : ∀ one ∈ others, ∀ other ∈ others, key one = key other → one = other := by
    intro one one_member other other_member
    exact single one ((same one).mpr one_member) other ((same other).mpr other_member)
  refine Option.ext fun entry => ?_
  rw [lookup_iff single,lookup_iff single_others,same]

theorem mem_congr (distinct : Distinct key entries) (other_distinct : Distinct key others)
    (same : ∀ wanted, lookup key wanted entries = lookup key wanted others) : entry ∈ entries ↔ entry ∈ others := by
  rw [mem_iff distinct,mem_iff other_distinct,same]

end Eigrp.Lib.Keyed
