import Mathlib.Tactic
import Eigrp.Lib.Links

/-!
# Lists with an index

`eigrp_list.c` keeps lists that are linked in both directions. A list may have an index beside its links: buckets of chained
items, found by a hash of the data pointer. The index grows with the list where the allocator allows it.
-/

namespace Eigrp.IndexedList
open Eigrp.Lib

/-- `eigrp_list_t` without its index: the links and the data of the allocated items, and what `del` was called with. -/
structure Plain extends Links Nat where
  allocated : List Nat
  data : Nat → UInt64
  count : UInt32
  del : Bool
  deleted : List UInt64

structure Indexed extends Plain where
  hash_next : Nat → Option Nat
  buckets : Option (Nat → Option Nat)
  bucket_count : Nat

/-- `eigrp_list_create`. -/
def create (del : Bool) : Indexed where
  next _ := none
  previous _ := none
  head := none
  tail := none
  allocated := []
  data _ := 0
  count := 0
  del := del
  deleted := []
  hash_next _ := none
  buckets := none
  bucket_count := 0

def write (cells : Nat → Option Nat) (cell : Nat) (value : Option Nat) : Nat → Option Nat :=
  fun other => if other = cell then value else cells other

theorem write_write (cells : Nat → Option Nat) (cell : Nat) (first second : Option Nat) :
    write (write cells cell first) cell second = write cells cell second := by
  funext other
  unfold write
  split <;> rfl

/-- `eigrp_list_pointer_hash`. -/
def pointer_hash (data : UInt64) : UInt64 :=
  let key := data >>> 3
  let key := key ^^^ (key >>> 17)
  key ^^^ (key >>> 9)

def bucket_of (size : Nat) (data : UInt64) : Nat := (pointer_hash data).toNat % size

def index_initial_buckets : Nat := 1024
def size_max : Nat := 2 ^ 64 - 1

namespace Indexed

/-! ## Operations

A result of `none` is an item that is read when it was freed, or a loop that does not end: a loop over links that meets more
items than are allocated has come round. -/

def read (list : Indexed) (node : Nat) : Option UInt64 := if node ∈ list.allocated then some (list.data node) else none

def steps (list : Indexed) : Nat := list.allocated.length + 1

def set_next (list : Indexed) (node : Nat) (value : Option Nat) : Indexed := { list with next := write list.next node value }

def set_previous (list : Indexed) (node : Nat) (value : Option Nat) : Indexed := { list with previous := write list.previous node value }

/-- The loop of `eigrp_list_index_resize`, over the items from the head on. -/
def rechain (list : Indexed) (size : Nat) :
    Nat → Option Nat → (Nat → Option Nat) → (Nat → Option Nat) → Option ((Nat → Option Nat) × (Nat → Option Nat))
  | 0, _, _, _ => none
  | _ + 1, none, hash_next, buckets => some (hash_next, buckets)
  | steps + 1, some node, hash_next, buckets => do
    let data ← list.read node
    let bucket := bucket_of size data
    rechain list size steps (list.next node) (write hash_next node (buckets bucket)) (write buckets bucket (some node))

/-- `eigrp_list_index_resize`; there is no list behind it where the buckets could not be allocated. -/
def index_resize (list : Indexed) (size : Nat) (calloc : Bool) : Option (Option Indexed) :=
  if calloc then do
    let (hash_next, buckets) ← rechain list size list.steps list.head list.hash_next fun _ => none
    some (some { list with hash_next, buckets := some buckets, bucket_count := size })
  else some none

/-- `eigrp_list_index_enable`. -/
def index_enable (list : Indexed) (calloc : Bool) : Option Indexed :=
  if list.buckets.isSome then some list
  else do
    let resized ← list.index_resize index_initial_buckets calloc
    some (resized.getD list)

/-- The growth in `eigrp_list_index_add`. -/
def index_grow (list : Indexed) (calloc : Bool) : Option (Option Indexed) :=
  if list.count.toNat ≥ list.bucket_count * 2 ∧ list.bucket_count ≤ size_max / 2 then list.index_resize (list.bucket_count * 2) calloc
  else some none

/-- `eigrp_list_index_add`. -/
def index_add (list : Indexed) (node : Nat) (calloc : Bool) : Option Indexed :=
  match list.buckets with
  | none => some list
  | some buckets => do
    match ← list.index_grow calloc with
    | some resized => some resized
    | none =>
      let data ← list.read node
      let bucket := bucket_of list.bucket_count data
      some { list with hash_next := write list.hash_next node (buckets bucket), buckets := some (write buckets bucket (some node)) }

/-- The place that names the item: the item in front of it, or the bucket. -/
def index_cursor (list : Indexed) (node : Nat) : Nat → Option Nat → Option Nat → Option (Option (Option Nat))
  | 0, _, _ => none
  | _ + 1, _, none => some none
  | steps + 1, before, some here =>
    if here = node then some (some before)
    else do
      let _ ← list.read here
      index_cursor list node steps (some here) (list.hash_next here)

/-- `eigrp_list_index_remove`. -/
def index_remove (list : Indexed) (node : Nat) : Option Indexed :=
  match list.buckets with
  | none => some list
  | some buckets => do
    let data ← list.read node
    let bucket := bucket_of list.bucket_count data
    match ← index_cursor list node list.steps none (buckets bucket) with
    | none => some list
    | some none => some { list with buckets := some (write buckets bucket (list.hash_next node)) }
    | some (some before) => some { list with hash_next := write list.hash_next before (list.hash_next node) }

/-- `eigrp_list_remove`. -/
def remove (list : Indexed) (node : Nat) : Option Indexed := do
  let data ← list.read node
  let list ← list.index_remove node
  let list := match list.previous node with
    | some previous => list.set_next previous (list.next node)
    | none => { list with head := list.next node }
  let list := match list.next node with
    | some next => list.set_previous next (list.previous node)
    | none => { list with tail := list.previous node }
  some { list with
    count := if list.count ≠ 0 then list.count - 1 else list.count
    deleted := if list.del ∧ data ≠ 0 then list.deleted ++ [data] else list.deleted
    allocated := list.allocated.erase node }

/-- `eigrp_list_item_create` where the allocator returned `node`. -/
def item_create (list : Indexed) (node : Nat) (data : UInt64) : Indexed :=
  { list with
    allocated := node :: list.allocated
    data := fun other => if other = node then data else list.data other
    next := write list.next node none
    previous := write list.previous node none
    hash_next := write list.hash_next node none }

/-- `eigrp_list_add`; there is no `node` where the item could not be allocated. -/
def add (list : Indexed) (data : UInt64) (node : Option Nat) (calloc : Bool) : Option Indexed :=
  match node with
  | none => some list
  | some node =>
    let list := list.item_create node data
    let list := list.set_previous node list.tail
    let list := match list.tail with
      | some tail => list.set_next tail (some node)
      | none => { list with head := some node }
    index_add { list with tail := some node, count := list.count + 1 } node calloc

/-- The loop of `eigrp_list_insert`. -/
def insert_loop (list : Indexed) (data : UInt64) (cmp : UInt64 → UInt64 → Int) : Nat → Option Nat → Option (Option Nat)
  | 0, _ => none
  | _ + 1, none => some none
  | steps + 1, some node => do
    let other ← list.read node
    if cmp data other < 0 then some (some node) else insert_loop list data cmp steps (list.next node)

/-- `eigrp_list_insert`; `cmp` is what the function of the list answers at the time. -/
def insert (list : Indexed) (data : UInt64) (cmp : Option (UInt64 → UInt64 → Int)) (node : Option Nat) (calloc : Bool) : Option Indexed :=
  match cmp with
  | none => list.add data node calloc
  | some cmp => do
    match ← list.insert_loop data cmp list.steps list.head with
    | none => list.add data node calloc
    | some behind =>
      match node with
      | none => some list
      | some node =>
        let list := list.item_create node data
        let list := (list.set_next node (some behind)).set_previous node (list.previous behind)
        let list := match list.previous behind with
          | some previous => list.set_next previous (some node)
          | none => { list with head := some node }
        let list := list.set_previous behind (some node)
        index_add { list with count := list.count + 1 } node calloc

def lookup_loop (list : Indexed) (data : UInt64) (link : Nat → Option Nat) : Nat → Option Nat → Option (Option Nat)
  | 0, _ => none
  | _ + 1, none => some none
  | steps + 1, some node => do
    let other ← list.read node
    if other = data then some (some node) else lookup_loop list data link steps (link node)

/-- `eigrp_list_lookup`. -/
def lookup (list : Indexed) (data : UInt64) : Option (Option Nat) :=
  match list.buckets with
  | some buckets => list.lookup_loop data list.hash_next list.steps (buckets (bucket_of list.bucket_count data))
  | none => list.lookup_loop data list.next list.steps list.head

/-- `eigrp_list_delete_data`. -/
def delete_data (list : Indexed) (data : UInt64) : Option Indexed := do
  match ← list.lookup data with
  | some node => list.remove node
  | none => some list

end Indexed

/-! ## Runs -/

/-- A call with what the allocator answers in it. -/
inductive Call where
  | add (data : UInt64) (node : Option Nat) (calloc : Bool)
  | insert (data : UInt64) (cmp : Option (UInt64 → UInt64 → Int)) (node : Option Nat) (calloc : Bool)
  | remove (node : Nat)
  | delete_data (data : UInt64)
  | index_enable (calloc : Bool)
  | index_resize (size : Nat) (calloc : Bool)

def Indexed.exec (list : Indexed) : Call → Option Indexed
  | .add data node calloc => list.add data node calloc
  | .insert data cmp node calloc => list.insert data cmp node calloc
  | .remove node => list.remove node
  | .delete_data data => list.delete_data data
  | .index_enable calloc => list.index_enable calloc
  | .index_resize size calloc => do
    let resized ← list.index_resize size calloc
    some (resized.getD list)

/-- The allocator returns an item that is not in use, an item that is removed is one of the list, and there are some buckets. -/
def Call.Possible (list : Indexed) : Call → Prop
  | .add _ node _ | .insert _ _ node _ => ∀ new ∈ node, new ∉ list.allocated
  | .remove node => node ∈ list.allocated
  | .index_resize size _ => 0 < size
  | _ => True

inductive Run (del : Bool) : List Call → Indexed → Prop where
  | create : Run del [] (create del)
  | step {calls : List Call} {call : Call} {list after : Indexed} (run : Run del calls list) (possible : call.Possible list)
      (step : list.exec call = some after) : Run del (calls ++ [call]) after

/-- What a call may do to a list without an index: data is deleted from any one of the items that hold it. -/
def Call.Plainly (list : Indexed) : Call → Indexed → Prop
  | .index_enable _, after | .index_resize _ _, after => after = list
  | .delete_data data, after =>
    (∃ node ∈ list.allocated, list.data node = data ∧ list.remove node = some after) ∨
      (∀ node ∈ list.allocated, list.data node ≠ data) ∧ after = list
  | call, after => list.exec call = some after

inductive PlainRun (del : Bool) : List Call → Indexed → Prop where
  | create : PlainRun del [] (create del)
  | step {calls : List Call} {call : Call} {list after : Indexed} (run : PlainRun del calls list) (plainly : call.Plainly list after) :
      PlainRun del (calls ++ [call]) after

/-! ## What a list holds -/

/-- The items from the head to the tail are the allocated ones. -/
structure Plain.Holds (list : Plain) (nodes : List Nat) : Prop where
  chain : list.toLinks.Chain nodes
  allocated : list.allocated.Perm nodes

def Indexed.place (list : Indexed) (node : Nat) : Nat := bucket_of list.bucket_count (list.data node)

/-- Where there is an index, its chains are the items by their buckets. -/
def Indexed.Indexes (list : Indexed) (nodes : List Nat) : Prop :=
  ∀ buckets, list.buckets = some buckets →
    0 < list.bucket_count ∧ Bucketed list.hash_next buckets list.place list.bucket_count nodes

structure Indexed.Holds (list : Indexed) (nodes : List Nat) : Prop where
  plain : list.toPlain.Holds nodes
  index : list.Indexes nodes

section Index
variable {list : Indexed} {nodes : List Nat} {node : Nat}

theorem read_eq (holds : list.toPlain.Holds nodes) (member : node ∈ nodes) : list.read node = some (list.data node) :=
  if_pos (holds.allocated.mem_iff.2 member)

theorem enough_steps (holds : list.toPlain.Holds nodes) {some_nodes : List Nat} (nodup : some_nodes.Nodup)
    (members : ∀ other ∈ some_nodes, other ∈ nodes) : some_nodes.length < list.steps := by
  have fewer : some_nodes.length ≤ nodes.length := (nodup.subperm members).length_le
  rw [Indexed.steps,holds.allocated.length_eq]
  exact Nat.lt_succ_of_le fewer

/-- The loop chains the items that are ahead. -/
theorem rechain_spec {size : Nat} (rest : List Nat) : ∀ (done : List Nat) (steps : Nat) (cursor : Option Nat)
    (hash_next buckets : Nat → Option Nat), rest.length < steps → Threaded list.next cursor rest → (done ++ rest).Nodup →
    (∀ other ∈ rest, list.read other = some (list.data other)) →
    Bucketed hash_next buckets (fun other => bucket_of size (list.data other)) size done →
    ∃ hash_next' buckets', list.rechain size steps cursor hash_next buckets = some (hash_next',buckets') ∧
      Bucketed hash_next' buckets' (fun other => bucket_of size (list.data other)) size (done ++ rest) := by
  induction rest with
  | nil =>
    intro done steps cursor hash_next buckets enough linked _ _ bucketed
    have ended : cursor = none := linked
    subst ended
    cases steps with
    | zero => simp at enough
    | succ steps => exact ⟨hash_next,buckets,rfl,by rwa [List.append_nil]⟩
  | cons node rest ih =>
    intro done steps cursor hash_next buckets enough linked nodup live bucketed
    obtain ⟨rfl,linked⟩ := linked
    cases steps with
    | zero => simp at enough
    | succ steps =>
      have fresh : node ∉ done := fun member => (List.nodup_append.1 nodup).2.2 _ member _ List.mem_cons_self rfl
      have moved : (done ++ node :: rest).Perm ((node :: done) ++ rest) := List.perm_middle
      obtain ⟨hash_next',buckets',run,spec⟩ := ih (node :: done) steps (list.next node) _ _ (Nat.lt_of_succ_lt_succ enough) linked
        (moved.nodup_iff.1 nodup) (fun other member => live other (List.mem_cons_of_mem _ member)) (bucketed.push fresh)
      refine ⟨hash_next',buckets',?_,spec.perm fun other => moved.mem_iff⟩
      rw [Indexed.rechain,live node List.mem_cons_self]
      exact run

theorem index_resize_spec (holds : list.toPlain.Holds nodes) {size : Nat} (some_size : 0 < size) (calloc : Bool) :
    ∃ resized, list.index_resize size calloc = some resized ∧
      ∀ after, resized = some after → after.toPlain = list.toPlain ∧ after.Indexes nodes ∧ after.buckets ≠ none := by
  rw [Indexed.index_resize]
  cases calloc with
  | false => exact ⟨none,rfl,fun _ nothing => by cases nothing⟩
  | true =>
    obtain ⟨hash_next,buckets,run,spec⟩ := rechain_spec nodes [] list.steps list.head list.hash_next (fun _ => none)
      (enough_steps holds holds.chain.nodup fun _ => id) holds.chain.forward holds.chain.nodup
      (fun other member => read_eq holds member) bucketed_nil
    refine ⟨_,by rw [if_pos rfl,run]; rfl,?_⟩
    rintro after ⟨⟩
    refine ⟨rfl,?_,Option.some_ne_none _⟩
    rintro _ ⟨⟩
    exact ⟨some_size,spec⟩

theorem index_add_spec (holds : list.toPlain.Holds nodes) {others : List Nat} (index : list.Indexes others) (fresh : node ∉ others)
    (members : ∀ other, other ∈ nodes ↔ other ∈ node :: others) (calloc : Bool) :
    ∃ after, list.index_add node calloc = some after ∧ after.toPlain = list.toPlain ∧ after.Indexes nodes ∧
      (list.buckets = none → after.buckets = none) := by
  rw [Indexed.index_add]
  cases some_buckets : list.buckets with
  | none =>
    refine ⟨list,rfl,rfl,fun buckets present => ?_,fun _ => some_buckets⟩
    rw [some_buckets] at present
    cases present
  | some buckets =>
    obtain ⟨positive,bucketed⟩ := index buckets some_buckets
    have grown : ∃ resized, list.index_grow calloc = some resized ∧
        ∀ after, resized = some after → after.toPlain = list.toPlain ∧ after.Indexes nodes ∧ after.buckets ≠ none := by
      rw [Indexed.index_grow]
      split
      · exact index_resize_spec holds (by omega) calloc
      · exact ⟨none,rfl,fun _ nothing => by cases nothing⟩
    obtain ⟨resized,run,spec⟩ := grown
    simp only [Option.bind_eq_bind]
    rw [run]
    cases resized with
    | some after =>
      obtain ⟨same,indexes,_⟩ := spec after rfl
      exact ⟨after,rfl,same,indexes,fun nothing => by cases nothing⟩
    | none =>
      have data := read_eq holds ((members node).2 List.mem_cons_self)
      refine ⟨{ list with
        hash_next := write list.hash_next node (buckets (list.place node)),
        buckets := some (write buckets (list.place node) (some node)) },?_,rfl,?_,fun nothing => by cases nothing⟩
      · rw [Option.bind_some,data]
        rfl
      · rintro _ ⟨⟩
        exact ⟨positive,(bucketed.push fresh).perm members⟩

theorem index_cursor_eq (front : List Nat) {back : List Nat} {here : Option Nat}
    (linked : Threaded list.hash_next here (front ++ node :: back)) (absent : node ∉ front)
    (live : ∀ other ∈ front, ∃ data, list.read other = some data) {steps : Nat} (enough : front.length < steps) (before : Option Nat) :
    list.index_cursor node steps before here = some (some (front.getLast?.or before)) := by
  induction front generalizing here steps before with
  | nil =>
    obtain ⟨rfl,_⟩ := linked
    cases steps with
    | zero => simp at enough
    | succ steps => simp [Indexed.index_cursor]
  | cons first front ih =>
    obtain ⟨rfl,linked⟩ := linked
    obtain ⟨data,read⟩ := live first List.mem_cons_self
    have different : first ≠ node := fun same => absent (same ▸ List.mem_cons_self)
    cases steps with
    | zero => simp at enough
    | succ steps =>
      rw [Indexed.index_cursor,if_neg different,read]
      simp only [Option.bind_eq_bind,Option.bind_some]
      rw [ih linked (fun member => absent (List.mem_cons_of_mem _ member)) (fun other member => live other (List.mem_cons_of_mem _ member))
        (Nat.lt_of_succ_lt_succ enough)]
      cases front <;> simp [List.getLast?_cons]

theorem index_remove_spec (holds : list.Holds nodes) (member : node ∈ nodes) {left : List Nat}
    (rest : ∀ other, other ∈ left ↔ other ∈ nodes ∧ other ≠ node) :
    ∃ after, list.index_remove node = some after ∧ after.toPlain = list.toPlain ∧ after.Indexes left ∧
      (list.buckets = none → after.buckets = none) := by
  rw [Indexed.index_remove]
  cases some_buckets : list.buckets with
  | none =>
    refine ⟨list,rfl,rfl,fun buckets present => ?_,fun _ => some_buckets⟩
    rw [some_buckets] at present
    cases present
  | some buckets =>
    obtain ⟨positive,bucketed⟩ := holds.index buckets some_buckets
    have place : list.place node < list.bucket_count := Nat.mod_lt _ positive
    obtain ⟨chain,linked,nodup,members⟩ := bucketed _ place
    obtain ⟨front,back,split⟩ := List.append_of_mem ((members node).2 ⟨member,rfl⟩)
    subst split
    have absent : node ∉ front := fun inside => (List.nodup_append.1 nodup).2.2 _ inside _ List.mem_cons_self rfl
    have listed : ∀ other ∈ front, other ∈ nodes := fun other inside => ((members other).1 (List.mem_append_left _ inside)).1
    have cursor := @index_cursor_eq list node front _ _ linked absent (fun other inside => ⟨_,read_eq holds.plain (listed other inside)⟩)
      _ (enough_steps holds.plain (List.nodup_append.1 nodup).1 listed) none
    have unlinked := bucketed.unlink linked nodup members rest
    rw [Option.or_none] at cursor
    simp only [Option.bind_eq_bind]
    rw [read_eq holds.plain member,Option.bind_some]
    change ∃ after, (list.index_cursor node list.steps none (buckets (list.place node)) >>= _) = some after ∧ _
    rw [cursor]
    cases last : front.getLast? with
    | none =>
      refine ⟨_,rfl,rfl,?_,fun nothing => by cases nothing⟩
      rintro _ ⟨⟩
      simp only [last,and_true] at unlinked
      exact ⟨positive,unlinked⟩
    | some before =>
      refine ⟨_,rfl,rfl,?_,fun nothing => by cases nothing⟩
      rintro _ ⟨⟩
      simp only [last,reduceCtorEq,and_false,if_false,Option.some.injEq] at unlinked
      have links : write list.hash_next before (list.hash_next node) =
          fun other => if before = other then list.hash_next node else list.hash_next other := by
        funext other
        rw [write]
        simp only [eq_comm]
      refine ⟨positive,?_⟩
      rw [← links] at unlinked
      exact unlinked

theorem lookup_loop_eq {data : UInt64} {link : Nat → Option Nat} (chain : List Nat) {here : Option Nat} (linked : Threaded link here chain)
    (live : ∀ other ∈ chain, list.read other = some (list.data other)) {steps : Nat} (enough : chain.length < steps) :
    list.lookup_loop data link steps here = some (chain.find? fun other => list.data other = data) := by
  induction chain generalizing here steps with
  | nil =>
    have ended : here = none := linked
    subst ended
    cases steps with
    | zero => simp at enough
    | succ steps => rfl
  | cons first chain ih =>
    obtain ⟨rfl,linked⟩ := linked
    cases steps with
    | zero => simp at enough
    | succ steps =>
      rw [Indexed.lookup_loop,live first List.mem_cons_self,List.find?_cons]
      simp only [Option.bind_eq_bind,Option.bind_some]
      by_cases found : list.data first = data
      · simp [found]
      · simp only [found,if_false,decide_false]
        exact ih linked (fun other member => live other (List.mem_cons_of_mem _ member)) (Nat.lt_of_succ_lt_succ enough)

/-- A lookup finds an item of the list with the data, if there is one. -/
theorem lookup_spec (holds : list.Holds nodes) (data : UInt64) :
    ∃ found, list.lookup data = some found ∧ (∀ other, found = some other → other ∈ nodes ∧ list.data other = data) ∧
      (found = none → ∀ other ∈ nodes, list.data other ≠ data) := by
  have live : ∀ other ∈ nodes, list.read other = some (list.data other) := fun other member => read_eq holds.plain member
  rw [Indexed.lookup]
  cases some_buckets : list.buckets with
  | none =>
    refine ⟨_,lookup_loop_eq nodes holds.plain.chain.forward live (enough_steps holds.plain holds.plain.chain.nodup fun _ => id),?_,?_⟩
    · intro other found
      exact ⟨List.mem_of_find?_eq_some found,by simpa using List.find?_some found⟩
    · intro missing other member
      simpa using List.find?_eq_none.1 missing other member
  | some buckets =>
    obtain ⟨positive,bucketed⟩ := holds.index buckets some_buckets
    obtain ⟨chain,linked,nodup,members⟩ := bucketed (bucket_of list.bucket_count data) (Nat.mod_lt _ positive)
    have listed : ∀ other ∈ chain, other ∈ nodes := fun other member => ((members other).1 member).1
    refine ⟨_,lookup_loop_eq chain linked (fun other member => live other (listed other member)) (enough_steps holds.plain nodup listed),?_,?_⟩
    · intro other found
      exact ⟨listed other (List.mem_of_find?_eq_some found),by simpa using List.find?_some found⟩
    · intro missing other member same
      have inside : other ∈ chain := (members other).2 ⟨member,by rw [Indexed.place,same]⟩
      have other_data := List.find?_eq_none.1 missing other inside
      simp [same] at other_data

end Index

/-! ## What the operations do to it -/

/-- A new item between two others, where none stands for an end of the list. -/
def Plain.inserted (list : Plain) (data : UInt64) (node : Nat) (before after : Option Nat) : Plain :=
  { list with
    toLinks := list.toLinks.insert before after node
    allocated := node :: list.allocated
    data := fun other => if other = node then data else list.data other
    count := list.count + 1 }

def Plain.removed (list : Plain) (node : Nat) : Plain :=
  { list with
    toLinks := list.toLinks.unlink node
    allocated := list.allocated.erase node
    count := if list.count ≠ 0 then list.count - 1 else list.count
    deleted := if list.del ∧ list.data node ≠ 0 then list.deleted ++ [list.data node] else list.deleted }

section Operations
variable {list : Indexed} {nodes : List Nat} {node : Nat} {data : UInt64}

theorem inserted_holds {list : Plain} {front back : List Nat} (holds : list.Holds (front ++ back)) (fresh : node ∉ list.allocated) :
    (list.inserted data node front.getLast? back.head?).Holds (front ++ node :: back) where
  chain := holds.chain.insert fun member => fresh (holds.allocated.mem_iff.2 member)
  allocated := (holds.allocated.cons node).trans List.perm_middle.symm

theorem removed_holds {list : Plain} {front back : List Nat} (holds : list.Holds (front ++ node :: back)) :
    (list.removed node).Holds (front ++ back) where
  chain := holds.chain.unlink
  allocated := by
    have moved := (holds.allocated.trans List.perm_middle).erase node
    rwa [List.erase_cons_head] at moved

/-- An item that was linked is indexed. -/
theorem linked_spec {front back : List Nat} (holds : list.Holds (front ++ back)) (fresh : node ∉ list.allocated) {linked : Indexed}
    (plain : linked.toPlain = list.toPlain.inserted data node front.getLast? back.head?)
    (hash_next : linked.hash_next = write list.hash_next node none) (buckets : linked.buckets = list.buckets)
    (bucket_count : linked.bucket_count = list.bucket_count) (calloc : Bool) :
    ∃ after, linked.index_add node calloc = some after ∧ after.toPlain = list.toPlain.inserted data node front.getLast? back.head? ∧
      after.Holds (front ++ node :: back) ∧ (list.buckets = none → after.buckets = none) := by
  have absent : node ∉ front ++ back := fun member => fresh (holds.plain.allocated.mem_iff.2 member)
  have base : linked.toPlain.Holds (front ++ node :: back) := plain ▸ inserted_holds holds.plain fresh
  have moved : (front ++ node :: back).Perm (node :: (front ++ back)) := List.perm_middle
  have index : linked.Indexes (front ++ back) := by
    intro some_buckets present
    obtain ⟨positive,bucketed⟩ := holds.index some_buckets (buckets ▸ present)
    rw [bucket_count]
    refine ⟨positive,bucketed.congr (fun other member => ?_) fun other member => ?_⟩
    · have different : other ≠ node := fun same => absent (same ▸ member)
      rw [hash_next,write,if_neg different]
    · have different : other ≠ node := fun same => absent (same ▸ member)
      rw [Indexed.place,Indexed.place,bucket_count,plain,Plain.inserted]
      simp only [different,if_false]
  obtain ⟨after,run,same,indexes,none_stays⟩ := index_add_spec base index absent (fun _ => moved.mem_iff) calloc
  exact ⟨after,run,same.trans plain,⟨same ▸ base,indexes⟩,fun nothing => none_stays (buckets.trans nothing)⟩

theorem add_spec (holds : list.Holds nodes) (fresh : node ∉ list.allocated) (calloc : Bool) :
    ∃ after, list.add data (some node) calloc = some after ∧
      after.toPlain = list.toPlain.inserted data node nodes.getLast? none ∧ after.Holds (nodes ++ [node]) ∧
      (list.buckets = none → after.buckets = none) := by
  have tail : list.tail = nodes.getLast? := holds.plain.chain.tail_eq
  have spec {linked : Indexed} := @linked_spec list node data nodes [] (by rwa [List.append_nil]) fresh linked
  rw [Indexed.add]
  cases last : nodes.getLast? with
  | none =>
    rw [last] at tail spec
    refine spec ?_ ?_ ?_ ?_ calloc
    · simp only [Indexed.item_create,Indexed.set_previous,tail,write_write]
      rfl
    all_goals simp [Indexed.item_create,Indexed.set_previous,tail]
  | some before =>
    rw [last] at tail spec
    refine spec ?_ ?_ ?_ ?_ calloc
    · simp only [Indexed.item_create,Indexed.set_previous,Indexed.set_next,tail,write_write]
      rfl
    all_goals simp [Indexed.item_create,Indexed.set_previous,Indexed.set_next,tail]

/-- The items in front of which the data is not to stand, and the rest. -/
def ahead (list : Plain) (data : UInt64) (cmp : UInt64 → UInt64 → Int) (other : Nat) : Bool := !(cmp data (list.data other) < 0)

theorem insert_loop_eq {cmp : UInt64 → UInt64 → Int} (rest : List Nat) {here : Option Nat} (linked : Threaded list.next here rest)
    (live : ∀ other ∈ rest, list.read other = some (list.data other)) {steps : Nat} (enough : rest.length < steps) :
    list.insert_loop data cmp steps here = some (rest.dropWhile (ahead list.toPlain data cmp)).head? := by
  induction rest generalizing here steps with
  | nil =>
    have ended : here = none := linked
    subst ended
    cases steps with
    | zero => simp at enough
    | succ steps => rfl
  | cons first rest ih =>
    obtain ⟨rfl,linked⟩ := linked
    cases steps with
    | zero => simp at enough
    | succ steps =>
      rw [Indexed.insert_loop,live first List.mem_cons_self]
      simp only [Option.bind_eq_bind,Option.bind_some]
      by_cases less : cmp data (list.data first) < 0
      · rw [if_pos less,List.dropWhile_cons_of_neg (by simp [ahead,less])]
        rfl
      · rw [if_neg less,List.dropWhile_cons_of_pos (by simp [ahead,less])]
        exact ih linked (fun other member => live other (List.mem_cons_of_mem _ member)) (Nat.lt_of_succ_lt_succ enough)

theorem insert_spec (holds : list.Holds nodes) (fresh : node ∉ list.allocated) (cmp : UInt64 → UInt64 → Int) (calloc : Bool)
    {front back : List Nat} (front_eq : nodes.takeWhile (ahead list.toPlain data cmp) = front)
    (back_eq : nodes.dropWhile (ahead list.toPlain data cmp) = back) :
    ∃ after, list.insert data (some cmp) (some node) calloc = some after ∧
      after.toPlain = list.toPlain.inserted data node front.getLast? back.head? ∧ after.Holds (front ++ node :: back) ∧
      (list.buckets = none → after.buckets = none) := by
  have split : nodes = front ++ back := by rw [← front_eq,← back_eq,List.takeWhile_append_dropWhile]
  have loop := @insert_loop_eq list data cmp nodes _ holds.plain.chain.forward (fun other member => read_eq holds.plain member) _
    (enough_steps holds.plain holds.plain.chain.nodup fun _ => id)
  rw [back_eq] at loop
  rw [Indexed.insert]
  simp only [Option.bind_eq_bind]
  rw [loop,Option.bind_some]
  cases back with
  | nil =>
    rw [List.append_nil] at split
    subst split
    exact add_spec holds fresh calloc
  | cons behind back =>
    subst split
    have spec {linked : Indexed} := @linked_spec list node data front (behind :: back) holds fresh linked
    have previous : list.previous behind = front.getLast? := holds.plain.chain.previous_eq
    have different : behind ≠ node := fun same => fresh (holds.plain.allocated.mem_iff.2 (by simp [same]))
    have other (cells : Nat → Option Nat) (value : Option Nat) : write cells node value behind = cells behind := if_neg different
    simp only [List.head?_cons,Indexed.item_create,Indexed.set_previous,Indexed.set_next,write_write,other,previous] at spec ⊢
    cases before : front.getLast? with
    | none =>
      rw [before] at spec
      refine spec ?_ ?_ ?_ ?_ calloc <;> rfl
    | some last =>
      rw [before] at spec
      refine spec ?_ ?_ ?_ ?_ calloc <;> rfl

theorem remove_spec {front back : List Nat} (holds : list.Holds (front ++ node :: back)) :
    ∃ after, list.remove node = some after ∧ after.toPlain = list.toPlain.removed node ∧ after.Holds (front ++ back) ∧
      (list.buckets = none → after.buckets = none) := by
  have member : node ∈ front ++ node :: back := by simp
  have moved : (front ++ node :: back).Perm (node :: (front ++ back)) := List.perm_middle
  obtain ⟨absent,_⟩ := List.nodup_cons.1 (moved.nodup_iff.1 holds.plain.chain.nodup)
  have rest : ∀ other, other ∈ front ++ back ↔ other ∈ front ++ node :: back ∧ other ≠ node := by
    intro other
    rw [moved.mem_iff,List.mem_cons]
    constructor
    · intro inside
      exact ⟨.inr inside,fun same => absent (same ▸ inside)⟩
    · rintro ⟨same | inside,different⟩
      · exact absurd same different
      · exact inside
  obtain ⟨⟨plain,hash_next,buckets,bucket_count⟩,run,same,index,none_stays⟩ := index_remove_spec holds member rest
  subst same
  have previous : list.previous node = front.getLast? := holds.plain.chain.previous_eq
  have next : list.next node = back.head? := holds.plain.chain.next_eq
  have last {other : Nat} (last : front.getLast? = some other) : node ≠ other := by
    rintro rfl
    exact absent (List.mem_append_left _ (List.mem_of_getLast? last))
  have stays {other : Nat} (at_end : front.getLast? = some other) (value : Option Nat) : write list.next other value node = list.next node :=
    if_neg (last at_end)
  have removed := removed_holds holds.plain
  rw [Indexed.remove,read_eq holds.plain member]
  simp only [Option.bind_eq_bind,Option.bind_some]
  rw [run,Option.bind_some]
  have unlinked : list.toLinks.unlink node =
      (list.toLinks.point_next front.getLast? back.head?).point_previous back.head? front.getLast? := by
    rw [Links.unlink,previous,next]
  refine ⟨{ toPlain := list.toPlain.removed node, hash_next, buckets, bucket_count },?_,rfl,⟨removed,fun _ present => index _ present⟩,
    none_stays⟩
  simp only [Plain.removed,unlinked]
  cases before : front.getLast? with
  | none =>
    cases behind : back.head? <;> simp only [previous,next,before,behind,Indexed.set_previous,Links.point_next,Links.point_previous]
    rfl
  | some other =>
    cases behind : back.head?
    all_goals
      simp only [previous,next,before,behind,Indexed.set_next,Indexed.set_previous,Links.point_next,Links.point_previous,stays before]
      rfl

end Operations

/-! ## The list without the index -/

section Mirrors
variable {list plain : Indexed} {nodes : List Nat} {data : UInt64}

/-- The same list without an index. -/
structure Mirrors (list plain : Indexed) : Prop where
  buckets : plain.buckets = none
  same : plain.toPlain = list.toPlain

theorem Mirrors.holds (mirrors : Mirrors list plain) (holds : list.Holds nodes) : plain.Holds nodes where
  plain := mirrors.same ▸ holds.plain
  index _ present := by
    rw [mirrors.buckets] at present
    cases present

theorem remove_mirrors (holds : list.Holds nodes) (mirrors : Mirrors list plain) {node : Nat} (member : node ∈ nodes) :
    ∃ after left plain_after, list.remove node = some after ∧ after.Holds left ∧ plain.remove node = some plain_after ∧
      Mirrors after plain_after := by
  obtain ⟨front,back,split⟩ := List.append_of_mem member
  subst split
  obtain ⟨after,run,same,spec,_⟩ := remove_spec holds
  obtain ⟨plain_after,plain_run,plain_same,_,none_stays⟩ := remove_spec (mirrors.holds holds)
  exact ⟨after,_,plain_after,run,spec,plain_run,none_stays mirrors.buckets,by rw [plain_same,same,mirrors.same]⟩

theorem add_mirrors (holds : list.Holds nodes) (mirrors : Mirrors list plain) {node : Option Nat}
    (fresh : ∀ new ∈ node, new ∉ list.allocated) (calloc : Bool) :
    ∃ after more plain_after, list.add data node calloc = some after ∧ after.Holds more ∧ plain.add data node calloc = some plain_after ∧
      Mirrors after plain_after := by
  cases node with
  | none => exact ⟨list,nodes,plain,rfl,holds,rfl,mirrors⟩
  | some node =>
    have plain_fresh : node ∉ plain.allocated := mirrors.same ▸ fresh node rfl
    obtain ⟨after,run,same,spec,_⟩ := @add_spec list nodes node data holds (fresh node rfl) calloc
    obtain ⟨plain_after,plain_run,plain_same,_,none_stays⟩ := @add_spec plain nodes node data (mirrors.holds holds) plain_fresh calloc
    exact ⟨after,_,plain_after,run,spec,plain_run,none_stays mirrors.buckets,by rw [plain_same,same,mirrors.same]⟩

theorem insert_mirrors (holds : list.Holds nodes) (mirrors : Mirrors list plain) (cmp : UInt64 → UInt64 → Int) {node : Option Nat}
    (fresh : ∀ new ∈ node, new ∉ list.allocated) (calloc : Bool) :
    ∃ after more plain_after, list.insert data (some cmp) node calloc = some after ∧ after.Holds more ∧
      plain.insert data (some cmp) node calloc = some plain_after ∧ Mirrors after plain_after := by
  cases node with
  | none =>
    have stays {other : Indexed} (other_holds : other.Holds nodes) : other.insert data (some cmp) none calloc = some other := by
      have loop := @insert_loop_eq other data cmp nodes _ other_holds.plain.chain.forward
        (fun _ member => read_eq other_holds.plain member) _ (enough_steps other_holds.plain other_holds.plain.chain.nodup fun _ => id)
      rw [Indexed.insert]
      simp only [Option.bind_eq_bind]
      rw [loop,Option.bind_some]
      cases (nodes.dropWhile (ahead other.toPlain data cmp)).head? <;> rfl
    exact ⟨list,nodes,plain,stays holds,holds,stays (mirrors.holds holds),mirrors⟩
  | some node =>
    have plain_fresh : node ∉ plain.allocated := mirrors.same ▸ fresh node rfl
    obtain ⟨after,run,same,spec,_⟩ := @insert_spec list nodes node data holds (fresh node rfl) cmp calloc _ _ rfl rfl
    obtain ⟨plain_after,plain_run,plain_same,_,none_stays⟩ :=
      @insert_spec plain nodes node data (mirrors.holds holds) plain_fresh cmp calloc _ _ rfl rfl
    exact ⟨after,_,plain_after,run,spec,plain_run,none_stays mirrors.buckets,by rw [plain_same,same,mirrors.same]⟩

theorem resize_mirrors (holds : list.Holds nodes) (mirrors : Mirrors list plain) {size : Nat} (some_size : 0 < size) (calloc : Bool) :
    ∃ resized, list.index_resize size calloc = some resized ∧ (resized.getD list).Holds nodes ∧ Mirrors (resized.getD list) plain := by
  obtain ⟨resized,run,spec⟩ := index_resize_spec holds.plain some_size calloc
  refine ⟨resized,run,?_⟩
  cases resized with
  | none => exact ⟨holds,mirrors⟩
  | some after =>
    obtain ⟨same,indexes,_⟩ := spec after rfl
    exact ⟨⟨same ▸ holds.plain,indexes⟩,⟨mirrors.buckets,mirrors.same.trans same.symm⟩⟩

/-- Every call finds the items it reads, ends, and does to the list what it may do without the index. -/
theorem exec_mirrors (holds : list.Holds nodes) (mirrors : Mirrors list plain) {call : Call} (possible : call.Possible list) :
    ∃ after more plain_after, list.exec call = some after ∧ after.Holds more ∧ call.Plainly plain plain_after ∧ Mirrors after plain_after := by
  cases call with
  | add data node calloc => exact add_mirrors holds mirrors possible calloc
  | insert data cmp node calloc =>
    cases cmp with
    | none => exact add_mirrors holds mirrors possible calloc
    | some cmp => exact insert_mirrors holds mirrors cmp possible calloc
  | remove node => exact remove_mirrors holds mirrors (holds.plain.allocated.mem_iff.1 possible)
  | delete_data data =>
    obtain ⟨found,run,some_found,none_found⟩ := lookup_spec holds data
    have listed : ∀ other, other ∈ plain.allocated ↔ other ∈ nodes := fun other => (mirrors.holds holds).plain.allocated.mem_iff
    have datum : ∀ other, plain.data other = list.data other := fun other => by rw [mirrors.same]
    rw [Indexed.exec,Indexed.delete_data,run]
    cases found with
    | none =>
      refine ⟨list,nodes,plain,rfl,holds,.inr ⟨fun other member => ?_,rfl⟩,mirrors⟩
      rw [datum]
      exact none_found rfl other ((listed other).1 member)
    | some node =>
      obtain ⟨member,holds_data⟩ := some_found node rfl
      obtain ⟨after,left,plain_after,removed,spec,plain_removed,mirrored⟩ := remove_mirrors holds mirrors member
      exact ⟨after,left,plain_after,removed,spec,.inl ⟨node,(listed node).2 member,(datum node).trans holds_data,plain_removed⟩,mirrored⟩
  | index_enable calloc =>
    rw [Indexed.exec,Indexed.index_enable]
    split
    · exact ⟨list,nodes,plain,rfl,holds,rfl,mirrors⟩
    · obtain ⟨resized,run,spec,mirrored⟩ := resize_mirrors holds mirrors (by decide : 0 < index_initial_buckets) calloc
      exact ⟨resized.getD list,nodes,plain,by rw [run]; rfl,spec,rfl,mirrored⟩
  | index_resize size calloc =>
    obtain ⟨resized,run,spec,mirrored⟩ := resize_mirrors holds mirrors possible calloc
    exact ⟨resized.getD list,nodes,plain,by rw [Indexed.exec,run]; rfl,spec,rfl,mirrored⟩

theorem create_holds (del : Bool) : (create del).Holds [] where
  plain := ⟨⟨rfl,rfl,List.nodup_nil⟩,List.Perm.nil⟩
  index _ present := by cases present

theorem run_mirrors {del : Bool} {calls : List Call} (run : Run del calls list) :
    ∃ nodes plain, list.Holds nodes ∧ PlainRun del calls plain ∧ Mirrors list plain := by
  induction run with
  | create => exact ⟨[],create del,create_holds del,.create,⟨rfl,rfl⟩⟩
  | step _ possible step ih =>
    obtain ⟨nodes,plain,holds,plain_run,mirrors⟩ := ih
    obtain ⟨after,more,plain_after,run,spec,plainly,mirrored⟩ := exec_mirrors holds mirrors possible
    rw [step] at run
    cases run
    exact ⟨more,plain_after,spec,.step plain_run plainly,mirrored⟩

/-- Where one item at most holds the data, a deletion without the index is determined. -/
theorem delete_plainly (holds : plain.Holds nodes)
    (single : ∀ one ∈ plain.allocated, ∀ two ∈ plain.allocated, plain.data one = data → plain.data two = data → one = two)
    {after : Indexed} (plainly : (Call.delete_data data).Plainly plain after) : plain.exec (.delete_data data) = some after := by
  obtain ⟨found,run,some_found,none_found⟩ := lookup_spec holds data
  have listed : ∀ other, other ∈ plain.allocated ↔ other ∈ nodes := fun other => holds.plain.allocated.mem_iff
  rw [Indexed.exec,Indexed.delete_data,run]
  rcases plainly with ⟨node,member,same,removed⟩ | ⟨absent,rfl⟩
  · cases found with
    | none => exact absurd same (none_found rfl node ((listed node).1 member))
    | some other =>
      obtain ⟨inside,other_same⟩ := some_found other rfl
      rw [single other ((listed other).2 inside) node member other_same same]
      exact removed
  · cases found with
    | none => rfl
    | some other =>
      obtain ⟨inside,other_same⟩ := some_found other rfl
      exact absurd other_same (absent other ((listed other).2 inside))

/-- Whether a call only changes the index. -/
def Call.indexes : Call → Bool
  | .index_enable _ | .index_resize _ _ => true
  | _ => false

/-- What the code does without the index is one of the things it may do. -/
theorem exec_plainly (holds : plain.Holds nodes) {call : Call} (list_call : call.indexes = false) {after : Indexed}
    (step : plain.exec call = some after) : call.Plainly plain after := by
  cases call with
  | delete_data data =>
    obtain ⟨found,run,some_found,none_found⟩ := lookup_spec holds data
    have listed : ∀ other, other ∈ plain.allocated ↔ other ∈ nodes := fun other => holds.plain.allocated.mem_iff
    rw [Indexed.exec,Indexed.delete_data,run] at step
    cases found with
    | none => exact .inr ⟨fun other member => none_found rfl other ((listed other).1 member),(Option.some.inj step).symm⟩
    | some node =>
      obtain ⟨member,same⟩ := some_found node rfl
      exact .inl ⟨node,(listed node).2 member,same,step⟩
  | index_enable calloc => cases list_call
  | index_resize size calloc => cases list_call
  | add data node calloc => exact step
  | insert data cmp node calloc => exact step
  | remove node => exact step

end Mirrors

/-- A list as one reads it: the items from both ends, what is found, and where the buckets lead. -/
structure Indexed.Reads (list : Indexed) (nodes : List Nat) : Prop where
  forward : ∀ steps, nodes.length ≤ steps → trail list.next steps list.head = nodes
  backward : ∀ steps, nodes.length ≤ steps → trail list.previous steps list.tail = nodes.reverse
  once : nodes.Nodup
  allocated : ∀ node, node ∈ list.allocated ↔ node ∈ nodes
  lookup : ∀ data, ∃ found, list.lookup data = some found ∧ (∀ node, found = some node → node ∈ nodes ∧ list.data node = data) ∧
    (found = none ↔ ¬∃ node ∈ nodes, list.data node = data)
  buckets : ∀ buckets, list.buckets = some buckets → ∀ bucket < list.bucket_count, ∃ chain,
    (∀ steps, chain.length ≤ steps → trail list.hash_next steps (buckets bucket) = chain) ∧
      ∀ node, node ∈ chain ↔ node ∈ nodes ∧ bucket_of list.bucket_count (list.data node) = bucket

theorem Indexed.Holds.reads {list : Indexed} {nodes : List Nat} (holds : list.Holds nodes) : list.Reads nodes where
  forward _ enough := holds.plain.chain.forward.trail_eq enough
  backward _ enough := holds.plain.chain.backward.trail_eq (by rwa [List.length_reverse])
  once := holds.plain.chain.nodup
  allocated _ := holds.plain.allocated.mem_iff
  lookup data := by
    obtain ⟨found,run,some_found,none_found⟩ := lookup_spec holds data
    refine ⟨found,run,some_found,fun missing => ?_,fun absent => ?_⟩
    · rintro ⟨node,member,same⟩
      exact none_found missing node member same
    · cases found with
      | none => rfl
      | some node => exact absurd ⟨node,some_found node rfl⟩ absent
  buckets buckets present bucket below := by
    obtain ⟨_,bucketed⟩ := holds.index buckets present
    obtain ⟨chain,linked,_,members⟩ := bucketed bucket below
    exact ⟨chain,fun _ enough => linked.trail_eq enough,members⟩

/-- A list with an index is the list without it behind the same calls, up to which of several items with the same data is deleted,
    and what is looked up is found where it is linked. -/
theorem index_refines {del : Bool} {calls : List Call} {list : Indexed} (run : Run del calls list) :
    ∃ nodes plain, list.Reads nodes ∧ PlainRun del calls plain ∧ plain.buckets = none ∧ plain.toPlain = list.toPlain ∧
      (∀ call : Call, call.Possible list → ∃ after, list.exec call = some after) ∧
      (∀ (call : Call) (after : Indexed), call.indexes = false → plain.exec call = some after → call.Plainly plain after) ∧
      ∀ (data : UInt64) (after : Indexed),
        (∀ one ∈ nodes, ∀ two ∈ nodes, list.data one = data → list.data two = data → one = two) →
          (Call.delete_data data).Plainly plain after → plain.exec (.delete_data data) = some after := by
  obtain ⟨nodes,plain,holds,plain_run,mirrors⟩ := run_mirrors run
  have plain_holds := mirrors.holds holds
  refine ⟨nodes,plain,holds.reads,plain_run,mirrors.buckets,mirrors.same,fun call possible => ?_,fun call after list_call step => ?_,
    fun data after single plainly => ?_⟩
  · obtain ⟨after,_,_,executed,_⟩ := exec_mirrors holds mirrors possible
    exact ⟨after,executed⟩
  · exact exec_plainly plain_holds list_call step
  · refine delete_plainly plain_holds (fun one first two second one_data two_data => ?_) plainly
    rw [plain_holds.plain.allocated.mem_iff] at first second
    rw [mirrors.same] at one_data two_data
    exact single one first two second one_data two_data

theorem index_refines_duplicates :
    ∃ list, Run false [.add 8 (some 1) true,.index_enable true,.add 8 (some 2) true,.delete_data 8] list ∧
      ∃ nodes plain, list.Reads nodes ∧
        PlainRun false [.add 8 (some 1) true,.index_enable true,.add 8 (some 2) true,.delete_data 8] plain ∧
        plain.toPlain = list.toPlain := by
  have first : Run false [.add 8 (some 1) true] _ := .step .create (by rintro _ ⟨⟩; exact List.not_mem_nil) rfl
  have second : Run false [.add 8 (some 1) true,.index_enable true] _ := .step first trivial rfl
  have third : Run false [.add 8 (some 1) true,.index_enable true,.add 8 (some 2) true] _ :=
    .step second (by rintro _ ⟨⟩; decide) rfl
  have last : Run false [.add 8 (some 1) true,.index_enable true,.add 8 (some 2) true,.delete_data 8] _ := .step third trivial rfl
  obtain ⟨nodes,plain,reads,plain_run,_,same,_⟩ := index_refines last
  exact ⟨_,last,nodes,plain,reads,plain_run,same⟩

end Eigrp.IndexedList
