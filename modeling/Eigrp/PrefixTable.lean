import Eigrp.Lib.Links
import Eigrp.Portable

/-!
# The prefix table

`eigrp_table.c`: nodes that are linked in the order of their insertion and hashed by their prefixes. A node is a cell of the
heap that is known by a number; `info` is whatever the caller keeps at the node. The naive table is the list of the live nodes.
-/

namespace Eigrp.Portable
open Eigrp.Lib

variable {α : Type}

/-! ## Table -/

/-- `eigrp_table_node_t`; the source's `prefix` is `network`. -/
structure Node (α : Type) where
  next : Option Nat := none
  previous : Option Nat := none
  hash_next : Option Nat := none
  network : Prefix
  info : Option α := none

/-- `eigrp_table_t` with its nodes; `bucket_count` is the length of `buckets`. -/
structure Table (α : Type) where
  nodes : Nat → Option (Node α) := fun _ => none
  next_id : Nat := 0
  head : Option Nat := none
  tail : Option Nat := none
  buckets : List (Option Nat) := []
  size : Nat := 0

/-- `EIGRP_TABLE_INITIAL_BUCKETS`. -/
def initial_buckets : Nat := 1024

def afi_number : Option Afi → UInt64
  | some .ipv4 => 4
  | some .ipv6 => 6
  | none => 0

/-- The octets of an address that count. -/
def key_bytes (network : Prefix) : Nat := if network.address.afi = some .ipv4 then 4 else 16

/-- `eigrp_table_prefix_hash`. -/
def prefix_hash (network : Prefix) : UInt64 :=
  let hash : UInt64 := 2166136261
  let hash := (hash ^^^ afi_number network.address.afi) * 16777619
  let hash := (hash ^^^ network.prefix_length.toUInt64) * 16777619
  (network.address.bytes.toList.take (key_bytes network)).foldl (fun hash byte => (hash ^^^ byte.toUInt64) * 16777619) hash

/-- `eigrp_table_prefix_match`. -/
def prefix_match (first second : Prefix) : Bool :=
  first.address.afi == second.address.afi && first.prefix_length == second.prefix_length &&
    memcmp first.address.bytes second.address.bytes (key_bytes first)

def bucket_of (count : Nat) (network : Prefix) : Nat := (prefix_hash network).toNat % count

/-- `buckets[bucket]`. -/
def slot_of (buckets : List (Option Nat)) (bucket : Nat) : Option Nat := (buckets[bucket]?).join

namespace Table

def next (table : Table α) (id : Nat) : Option Nat := (table.nodes id).bind Node.next

def previous (table : Table α) (id : Nat) : Option Nat := (table.nodes id).bind Node.previous

def hash_next (table : Table α) (id : Nat) : Option Nat := (table.nodes id).bind Node.hash_next

/-- What a node holds for its caller. -/
def content (table : Table α) (id : Nat) : Option (Prefix × Option α) := (table.nodes id).map fun node => (node.network,node.info)

/-- A node is written through a pointer to it. -/
def write (table : Table α) (id : Nat) (update : Node α → Node α) : Table α :=
  { table with nodes := fun other => if other = id then (table.nodes id).map update else table.nodes other }

/-- The loop of `eigrp_table_resize` over the nodes from the cursor on. -/
def rehash (count : Nat) : Nat → Option Nat → Table α → List (Option Nat) → Table α × List (Option Nat)
  | 0, _, table, buckets => (table,buckets)
  | _ + 1, none, table, buckets => (table,buckets)
  | steps + 1, some id, table, buckets =>
    match table.nodes id with
    | none => (table,buckets)
    | some node =>
      let bucket := bucket_of count node.network
      let table := table.write id fun node => { node with hash_next := slot_of buckets bucket }
      rehash count steps (table.next id) table (buckets.set bucket (some id))

/-- `eigrp_table_resize`; `calloc` says whether there is memory for the buckets. -/
def resize (table : Table α) (count : Nat) (calloc : Bool) : Table α :=
  if calloc then
    let (table,buckets) := rehash count table.size table.head table (.replicate count none)
    { table with buckets }
  else table

/-- `eigrp_table_create`, where there is memory for it. -/
def create : Table α := resize {} initial_buckets true

/-- `eigrp_table_node_lookup`. A chain holds at most all nodes. -/
def node_lookup (table : Table α) (network : Prefix) : Option Nat :=
  if network.valid = false ∨ table.buckets.length = 0 then none
  else
    let key := network.normalize
    (trail table.hash_next table.size (slot_of table.buckets (bucket_of table.buckets.length key))).find? fun id =>
      (table.nodes id).any fun node => prefix_match node.network key

/-- `next` of the node is written, or `head` where there is none. -/
def point_next (table : Table α) (place value : Option Nat) : Table α :=
  match place with
  | some id => table.write id fun node => { node with next := value }
  | none => { table with head := value }

/-- `previous` of the node is written, or `tail` where there is none. -/
def point_previous (table : Table α) (place value : Option Nat) : Table α :=
  match place with
  | some id => table.write id fun node => { node with previous := value }
  | none => { table with tail := value }

/-- `hash_next` of the node is written, or the bucket where there is none. -/
def point_hash (table : Table α) (bucket : Nat) (place value : Option Nat) : Table α :=
  match place with
  | some id => table.write id fun node => { node with hash_next := value }
  | none => { table with buckets := table.buckets.set bucket value }

/-- The new node, with all pointers clear. -/
def alloc (table : Table α) (key : Prefix) : Table α :=
  { table with
    nodes := fun other => if other = table.next_id then some { network := key } else table.nodes other
    next_id := table.next_id + 1 }

/-- The new node of `eigrp_table_node_lookup_or_create` is linked. -/
def insert (table : Table α) (key : Prefix) : Table α :=
  let id := table.next_id
  let bucket := bucket_of table.buckets.length key
  let linked := (table.alloc key).point_hash bucket (some id) (slot_of table.buckets bucket)
  let linked := linked.point_hash bucket none (some id)
  let linked := linked.point_previous (some id) table.tail
  let linked := linked.point_next table.tail (some id)
  { linked with tail := some id, size := table.size + 1 }

/-- `eigrp_table_node_lookup_or_create`, with what the two allocations give. -/
def node_lookup_or_create (table : Table α) (network : Prefix) (buckets_alloc node_alloc : Bool) : Table α × Option Nat :=
  if network.valid = false then (table,none)
  else
    match table.node_lookup network with
    | some id => (table,some id)
    | none =>
      let table :=
        if table.size ≥ table.buckets.length * 2 ∧ table.buckets.length ≤ (2 ^ 64 - 1) / 2 then
          table.resize (table.buckets.length * 2) buckets_alloc
        else table
      if node_alloc then (table.insert network.normalize,some table.next_id) else (table,none)

/-- The node that was found behind the cursor leaves the chain and the list and is freed. -/
def unlink (table : Table α) (id : Nat) (node : Node α) (bucket : Nat) (before : Option Nat) : Table α :=
  let left := table.point_hash bucket before node.hash_next
  let left := left.point_next node.previous node.next
  let left := left.point_previous node.next node.previous
  { left with nodes := fun other => if other = id then none else left.nodes other, size := table.size - 1 }

/-- `eigrp_table_node_remove` of a node that may be in the table. -/
def node_remove (table : Table α) (id : Nat) : Table α :=
  match table.nodes id with
  | none => table
  | some node =>
    if table.buckets.length = 0 then table
    else
      let bucket := bucket_of table.buckets.length node.network
      match cursor table.hash_next id table.size none (slot_of table.buckets bucket) with
      | none => table
      | some before => table.unlink id node bucket before

/-- The lookups of `eigrp_table_node_match`, from this length down to zero. -/
def probe (table : Table α) (network : Prefix) : Nat → Option Nat
  | 0 => found 0
  | bitlen + 1 => (found (bitlen + 1)).or (probe table network bitlen)
where
  found (bitlen : Nat) : Option Nat :=
    (table.node_lookup { network with prefix_length := UInt8.ofNat bitlen }).filter fun id => (table.nodes id).any (·.info.isSome)

/-- `eigrp_table_node_match`. -/
def node_match (table : Table α) (network : Prefix) : Option Nat :=
  if network.valid then table.probe network network.prefix_length.toNat else none

/-- A caller keeps something at a node. -/
def set_info (table : Table α) (id : Nat) (info : Option α) : Table α := table.write id fun node => { node with info }

end Table

/-! ## The naive table -/

structure Entry (α : Type) where
  id : Nat
  network : Prefix
  info : Option α

/-- The live nodes in the order of their insertion. -/
structure Naive (α : Type) where
  entries : List (Entry α) := []
  next_id : Nat := 0

namespace Naive

def ids (naive : Naive α) : List Nat := naive.entries.map Entry.id

/-- The node of this prefix. -/
def lookup (naive : Naive α) (network : Prefix) : Option Nat :=
  if network.valid then (naive.entries.find? (·.network = network.normalize)).map Entry.id else none

def lookup_or_create (naive : Naive α) (network : Prefix) (node_alloc : Bool) : Naive α × Option Nat :=
  if network.valid = false then (naive,none)
  else
    match naive.lookup network with
    | some id => (naive,some id)
    | none =>
      if node_alloc then
        ({ entries := naive.entries ++ [{ id := naive.next_id, network := network.normalize, info := none }], next_id := naive.next_id + 1 },
          some naive.next_id)
      else (naive,none)

def remove (naive : Naive α) (id : Nat) : Naive α := { naive with entries := naive.entries.filter (·.id ≠ id) }

def set_info (naive : Naive α) (id : Nat) (info : Option α) : Naive α :=
  { naive with entries := naive.entries.map fun entry => if entry.id = id then { entry with info } else entry }

/-- The entry is no longer than the query, covers its address and has something at it. -/
def Covers (network : Prefix) (entry : Entry α) : Bool :=
  entry.network.prefix_length ≤ network.prefix_length && entry.network.address_match network.address && entry.info.isSome

/-- The longest of the covering entries, in one pass over the table. -/
def scan (naive : Naive α) (network : Prefix) : Option (Entry α) :=
  naive.entries.foldl (fun best entry =>
    if Covers network entry ∧ ∀ other ∈ best, other.network.prefix_length < entry.network.prefix_length then some entry else best) none

def longest_match (naive : Naive α) (network : Prefix) : Option Nat :=
  if network.valid then (naive.scan network).map Entry.id else none

end Naive

/-! ## Chains -/

/-- Each bucket starts a chain of the nodes that are hashed to it. -/
def Chained (hash_next : Nat → Option Nat) (buckets : List (Option Nat)) (entries : List (Entry α)) : Prop :=
  ∀ bucket < buckets.length, ∃ chain, Threaded hash_next (slot_of buckets bucket) chain ∧ chain.Nodup ∧
    ∀ id, id ∈ chain ↔ ∃ entry ∈ entries, entry.id = id ∧ bucket_of buckets.length entry.network = bucket

section Chains
variable {hash_next : Nat → Option Nat} {buckets : List (Option Nat)} {entries : List (Entry α)}

theorem slot_of_set (bucket : Nat) (cell : Option Nat) (other : Nat) (inside : other < buckets.length) :
    slot_of (buckets.set bucket cell) other = if bucket = other then cell else slot_of buckets other := by
  unfold slot_of
  rw [List.getElem?_set]
  by_cases here : bucket = other
  · subst here
    simp [inside]
  · simp [here]

theorem slot_of_replicate (count bucket : Nat) : slot_of (.replicate count none) bucket = none := by
  unfold slot_of
  rw [List.getElem?_replicate]
  split <;> rfl

theorem chained_nil (count : Nat) : Chained hash_next (.replicate count none) ([] : List (Entry α)) := by
  intro bucket _
  rw [slot_of_replicate]
  exact ⟨[],rfl,List.nodup_nil,by simp⟩

theorem Chained.congr {other : Nat → Option Nat} (chained : Chained hash_next buckets entries)
    (same : ∀ entry ∈ entries, other entry.id = hash_next entry.id) : Chained other buckets entries := by
  intro bucket inside
  obtain ⟨chain,linked,nodup,members⟩ := chained bucket inside
  refine ⟨chain,linked.congr fun id member => ?_,nodup,members⟩
  obtain ⟨entry,here,rfl,_⟩ := (members id).1 member
  exact same entry here

/-- A node is put in front of its chain. -/
theorem Chained.push (chained : Chained hash_next buckets entries) (entry : Entry α) (fresh : ∀ other ∈ entries, other.id ≠ entry.id) :
    Chained
      (fun id => if id = entry.id then slot_of buckets (bucket_of buckets.length entry.network) else hash_next id)
      (buckets.set (bucket_of buckets.length entry.network) (some entry.id)) (entries ++ [entry]) := by
  intro bucket inside
  rw [List.length_set] at inside ⊢
  obtain ⟨chain,linked,nodup,members⟩ := chained bucket inside
  have new : entry.id ∉ chain := by
    intro member
    obtain ⟨other,here,same,_⟩ := (members _).1 member
    exact fresh other here same
  rw [slot_of_set _ _ _ inside]
  by_cases here : bucket_of buckets.length entry.network = bucket
  · subst here
    rw [if_pos rfl]
    refine ⟨entry.id :: chain,threaded_cons linked new,List.nodup_cons.2 ⟨new,nodup⟩,fun id => ?_⟩
    rw [List.mem_cons,members id]
    constructor
    · rintro (rfl | ⟨other,there,same,hashed⟩)
      · exact ⟨entry,by simp,rfl,rfl⟩
      · exact ⟨other,by simp [there],same,hashed⟩
    · rintro ⟨other,there,same,hashed⟩
      rcases List.mem_append.1 there with old | last
      · exact .inr ⟨other,old,same,hashed⟩
      · rw [List.mem_singleton.1 last] at same
        exact .inl same.symm
  · rw [if_neg here]
    refine ⟨chain,linked.congr fun id member => if_neg fun (same : id = entry.id) => new (same ▸ member),nodup,fun id => ?_⟩
    rw [members id]
    constructor
    · rintro ⟨other,there,same,hashed⟩
      exact ⟨other,by simp [there],same,hashed⟩
    · rintro ⟨other,there,same,hashed⟩
      rcases List.mem_append.1 there with old | last
      · exact ⟨other,old,same,hashed⟩
      · rw [List.mem_singleton.1 last] at hashed
        exact absurd hashed here

end Chains

/-! ## Views of a table -/

namespace Table

section Views
variable {table : Table α} {id : Nat} {update : Node α → Node α}

theorem write_view {β : Type} (view : Node α → β) (same : ∀ node, view (update node) = view node) (other : Nat) :
    ((table.write id update).nodes other).map view = (table.nodes other).map view := by
  unfold write
  simp only
  by_cases here : other = id
  · subst here
    rw [if_pos rfl,Option.map_map]
    exact congrArg (fun f => Option.map f _) (funext same)
  · rw [if_neg here]

theorem bind_of_map {β : Type} {first second : Option (Node α)} {view : Node α → Option β} (same : first.map view = second.map view) :
    first.bind view = second.bind view := by
  cases first <;> cases second <;> simp_all

theorem write_next (same : ∀ node, (update node).next = node.next) : (table.write id update).next = table.next :=
  funext fun other => bind_of_map (write_view Node.next same other)

theorem write_previous (same : ∀ node, (update node).previous = node.previous) : (table.write id update).previous = table.previous :=
  funext fun other => bind_of_map (write_view Node.previous same other)

theorem write_hash_next (same : ∀ node, (update node).hash_next = node.hash_next) : (table.write id update).hash_next = table.hash_next :=
  funext fun other => bind_of_map (write_view Node.hash_next same other)

theorem write_content (same : ∀ node, (update node).network = node.network ∧ (update node).info = node.info) :
    (table.write id update).content = table.content :=
  funext fun other => write_view (fun node => (node.network,node.info)) (fun node => by rw [(same node).1,(same node).2]) other

/-- A pointer of a live node is written. -/
theorem write_bind (view : Node α → Option Nat) {value : Option Nat} (set : ∀ node, view (update node) = value) {content : Prefix × Option α}
    (live : table.content id = some content) (other : Nat) :
    ((table.write id update).nodes other).bind view = if other = id then value else (table.nodes other).bind view := by
  unfold write
  simp only
  by_cases here : other = id
  · subst here
    obtain ⟨node,at_node,_⟩ := Option.map_eq_some_iff.1 live
    rw [if_pos rfl,if_pos rfl,at_node]
    exact set node
  · rw [if_neg here,if_neg here]

/-- A pointer may be written: it is one of the table, or of a live node. -/
def Writable (table : Table α) (place : Option Nat) : Prop := ∀ id ∈ place, table.content id ≠ none

theorem write_pointer (view : Node α → Option Nat) {value : Option Nat} (set : ∀ node, view (update node) = value)
    (live : table.content id ≠ none) (other : Nat) :
    ((table.write id update).nodes other).bind view = if some id = some other then value else (table.nodes other).bind view := by
  obtain ⟨content,at_content⟩ := Option.ne_none_iff_exists'.1 live
  rw [write_bind view set at_content]
  simp only [Option.some.injEq,eq_comm]

theorem point_next_views {place value : Option Nat} (writable : table.Writable place) :
    ((table.point_next place value).next = fun other => if place = some other then value else table.next other) ∧
    (table.point_next place value).previous = table.previous ∧ (table.point_next place value).hash_next = table.hash_next ∧
    (table.point_next place value).content = table.content ∧ (table.point_next place value).head = (if place = none then value else table.head) ∧
    (table.point_next place value).tail = table.tail ∧ (table.point_next place value).buckets = table.buckets ∧
    (table.point_next place value).next_id = table.next_id := by
  cases place with
  | none => exact ⟨by simp; rfl,rfl,rfl,rfl,rfl,rfl,rfl,rfl⟩
  | some id =>
    exact ⟨funext (@write_pointer α table id (fun node => { node with next := value }) Node.next value (fun _ => rfl) (writable id rfl)),
      write_previous fun _ => rfl,write_hash_next fun _ => rfl,write_content fun _ => ⟨rfl,rfl⟩,rfl,rfl,rfl,rfl⟩

theorem point_previous_views {place value : Option Nat} (writable : table.Writable place) :
    ((table.point_previous place value).previous = fun other => if place = some other then value else table.previous other) ∧
    (table.point_previous place value).next = table.next ∧ (table.point_previous place value).hash_next = table.hash_next ∧
    (table.point_previous place value).content = table.content ∧
    (table.point_previous place value).tail = (if place = none then value else table.tail) ∧
    (table.point_previous place value).head = table.head ∧ (table.point_previous place value).buckets = table.buckets ∧
    (table.point_previous place value).next_id = table.next_id := by
  cases place with
  | none => exact ⟨by simp; rfl,rfl,rfl,rfl,rfl,rfl,rfl,rfl⟩
  | some id =>
    exact ⟨funext (@write_pointer α table id (fun node => { node with previous := value }) Node.previous value (fun _ => rfl) (writable id rfl)),
      write_next fun _ => rfl,write_hash_next fun _ => rfl,write_content fun _ => ⟨rfl,rfl⟩,rfl,rfl,rfl,rfl⟩

theorem point_hash_views {bucket : Nat} {place value : Option Nat} (writable : table.Writable place) :
    ((table.point_hash bucket place value).hash_next = fun other => if place = some other then value else table.hash_next other) ∧
    (table.point_hash bucket place value).next = table.next ∧ (table.point_hash bucket place value).previous = table.previous ∧
    (table.point_hash bucket place value).content = table.content ∧
    (table.point_hash bucket place value).buckets = (if place = none then table.buckets.set bucket value else table.buckets) ∧
    (table.point_hash bucket place value).head = table.head ∧ (table.point_hash bucket place value).tail = table.tail ∧
    (table.point_hash bucket place value).next_id = table.next_id := by
  cases place with
  | none => exact ⟨by simp; rfl,rfl,rfl,rfl,rfl,rfl,rfl,rfl⟩
  | some id =>
    exact ⟨funext (@write_pointer α table id (fun node => { node with hash_next := value }) Node.hash_next value (fun _ => rfl) (writable id rfl)),
      write_next fun _ => rfl,write_previous fun _ => rfl,write_content fun _ => ⟨rfl,rfl⟩,rfl,rfl,rfl,rfl⟩

end Views

end Table

/-! ## Representation -/

/-- The table holds the entries: in the order of their insertion from both ends, and each in the chain of its bucket. -/
structure Represents (table : Table α) (naive : Naive α) : Prop where
  content : ∀ entry ∈ naive.entries, table.content entry.id = some (entry.network,entry.info)
  live : ∀ id, table.content id ≠ none → id ∈ naive.ids
  nodup : naive.ids.Nodup
  forward : Threaded table.next table.head naive.ids
  backward : Threaded table.previous table.tail naive.ids.reverse
  some_bucket : 0 < table.buckets.length
  chained : Chained table.hash_next table.buckets naive.entries
  size : table.size = naive.entries.length
  normal : ∀ entry ∈ naive.entries, entry.network.valid = true ∧ entry.network.normalize = entry.network
  distinct : (naive.entries.map Entry.network).Nodup
  fresh : ∀ id ∈ naive.ids, id < naive.next_id
  next_id : table.next_id = naive.next_id

section Rehash
variable {table : Table α} {entries : List (Entry α)}

/-- The loop chains the nodes that are left and touches nothing else. -/
theorem rehash_spec {count : Nat} (rest : List (Entry α)) : ∀ (done : List (Entry α)) (steps : Nat) (cursor : Option Nat)
    (table : Table α) (buckets : List (Option Nat)), rest.length ≤ steps → Threaded table.next cursor (rest.map Entry.id) →
    ((done ++ rest).map Entry.id).Nodup → (∀ entry ∈ rest, table.content entry.id = some (entry.network,entry.info)) →
    buckets.length = count → Chained table.hash_next buckets done →
    let (left,buckets) := Table.rehash count steps cursor table buckets
    (left.next = table.next ∧ left.previous = table.previous ∧ left.content = table.content) ∧
      (left.head = table.head ∧ left.tail = table.tail ∧ left.size = table.size ∧ left.next_id = table.next_id) ∧
      buckets.length = count ∧ Chained left.hash_next buckets (done ++ rest) := by
  induction rest with
  | nil =>
    intro done steps cursor table buckets _ linked _ _ length chained
    have ended : cursor = none := linked
    subst ended
    cases steps <;> exact ⟨⟨rfl,rfl,rfl⟩,⟨rfl,rfl,rfl,rfl⟩,length,by simpa using chained⟩
  | cons entry rest ih =>
    intro done steps cursor table buckets enough linked nodup content length chained
    obtain ⟨rfl,linked⟩ := linked
    cases steps with
    | zero => simp at enough
    | succ steps =>
      have here := content entry List.mem_cons_self
      obtain ⟨node,at_node,same⟩ := Option.map_eq_some_iff.1 here
      have network : node.network = entry.network := congrArg Prod.fst same
      rw [Table.rehash,at_node]
      simp only [network]
      generalize written : table.write entry.id (fun node => { node with hash_next := slot_of buckets (bucket_of count entry.network) }) = left
      have next : left.next = table.next := by
        rw [← written]
        exact Table.write_next fun _ => rfl
      have previous : left.previous = table.previous := by
        rw [← written]
        exact Table.write_previous fun _ => rfl
      have contents : left.content = table.content := by
        rw [← written]
        exact Table.write_content fun _ => ⟨rfl,rfl⟩
      have pointers : left.head = table.head ∧ left.tail = table.tail ∧ left.size = table.size ∧ left.next_id = table.next_id := by
        rw [← written]
        exact ⟨rfl,rfl,rfl,rfl⟩
      have moved : (done ++ entry :: rest) = (done ++ [entry]) ++ rest := by simp
      have apart : ∀ other ∈ done, other.id ≠ entry.id := by
        intro other member same
        rw [List.map_append,List.map_cons] at nodup
        exact (List.nodup_append.1 nodup).2.2 _ (List.mem_map_of_mem member) _ List.mem_cons_self same
      have pushed := chained.push entry apart
      rw [length] at pushed
      have hash_next : left.hash_next = fun id => if id = entry.id then slot_of buckets (bucket_of count entry.network) else table.hash_next id := by
        rw [← written]
        have live : table.content entry.id ≠ none := by
          rw [here]
          exact Option.some_ne_none _
        have written := (@Table.point_hash_views α table 0 (some entry.id) (slot_of buckets (bucket_of count entry.network))
          fun id same => by cases same; exact live).1
        refine written.trans (funext fun other => ?_)
        simp only [Option.some.injEq,eq_comm]
      rw [← hash_next] at pushed
      have after := ih (done ++ [entry]) steps (left.next entry.id) left (buckets.set (bucket_of count entry.network) (some entry.id))
        (Nat.le_of_succ_le_succ enough) (by rw [next]; exact linked) (by rwa [moved] at nodup)
        (fun other member => by rw [contents]; exact content other (List.mem_cons_of_mem _ member)) (by rw [List.length_set,length]) pushed
      rw [moved]
      generalize Table.rehash count steps (left.next entry.id) left _ = result at after ⊢
      obtain ⟨⟨next',previous',contents'⟩,⟨head',tail',size',id'⟩,rest'⟩ := after
      exact ⟨⟨next'.trans next,previous'.trans previous,contents'.trans contents⟩,
        ⟨head'.trans pointers.1,tail'.trans pointers.2.1,size'.trans pointers.2.2.1,id'.trans pointers.2.2.2⟩,rest'⟩

/-- A resize changes the chains only. -/
theorem resize_represents {naive : Naive α} (represents : Represents table naive) {count : Nat} (some_bucket : 0 < count) (calloc : Bool) :
    Represents (table.resize count calloc) naive := by
  unfold Table.resize
  cases calloc with
  | false => exact represents
  | true =>
    have spec := rehash_spec naive.entries [] table.size table.head table (.replicate count none) represents.size.ge
      represents.forward represents.nodup represents.content List.length_replicate (chained_nil count)
    rw [if_pos rfl]
    generalize Table.rehash count table.size table.head table (.replicate count none) = result at spec ⊢
    obtain ⟨left,buckets⟩ := result
    obtain ⟨⟨next,previous,contents⟩,⟨head,tail,size,next_id⟩,length,chained⟩ := spec
    have views : ({ left with buckets } : Table α).next = table.next ∧ ({ left with buckets } : Table α).previous = table.previous ∧
        ({ left with buckets } : Table α).content = table.content := ⟨next,previous,contents⟩
    refine ⟨?_,?_,represents.nodup,?_,?_,by rw [length]; exact some_bucket,chained,size.trans represents.size,represents.normal,
      represents.distinct,represents.fresh,next_id.trans represents.next_id⟩
    · rw [views.2.2]
      exact represents.content
    · rw [views.2.2]
      exact represents.live
    · rw [views.1]
      exact head ▸ represents.forward
    · rw [views.2.1]
      exact tail ▸ represents.backward

end Rehash

/-! ## Insertion and removal -/

section Changes
variable {table : Table α} {naive : Naive α}

theorem Represents.tail_eq (represents : Represents table naive) : table.tail = naive.ids.getLast? := by
  rw [represents.backward.head,List.head?_reverse]

theorem mem_ids {entry : Entry α} (member : entry ∈ naive.entries) : entry.id ∈ naive.ids := List.mem_map_of_mem member

theorem Represents.content_of (represents : Represents table naive) {id : Nat} (member : id ∈ naive.ids) :
    ∃ entry ∈ naive.entries, entry.id = id ∧ table.content id = some (entry.network,entry.info) := by
  obtain ⟨entry,here,rfl⟩ := List.mem_map.1 member
  exact ⟨entry,here,rfl,represents.content entry here⟩

theorem Represents.fresh_id (represents : Represents table naive) : table.next_id ∉ naive.ids := by
  intro member
  have below := represents.fresh _ member
  rw [represents.next_id] at below
  exact Nat.lt_irrefl _ below

theorem Represents.writable (represents : Represents table naive) {place : Option Nat} (known : ∀ id ∈ place, id ∈ naive.ids) :
    table.Writable place := by
  intro id here
  obtain ⟨entry,_,_,content⟩ := represents.content_of (known id here)
  rw [content]
  exact Option.some_ne_none _

/-- What the pointers are when a node was inserted. -/
theorem insert_views (represents : Represents table naive) (key : Prefix) :
    ((table.insert key).content = fun other => if other = table.next_id then some (key,none) else table.content other) ∧
    ((table.insert key).next = fun other =>
      if other = table.next_id then none else if table.tail = some other then some table.next_id else table.next other) ∧
    ((table.insert key).previous = fun other => if other = table.next_id then table.tail else table.previous other) ∧
    ((table.insert key).hash_next = fun other => if other = table.next_id then
      slot_of table.buckets (bucket_of table.buckets.length key) else table.hash_next other) ∧
    (table.insert key).head = (if table.tail = none then some table.next_id else table.head) ∧ (table.insert key).tail = some table.next_id ∧
    (table.insert key).buckets = table.buckets.set (bucket_of table.buckets.length key) (some table.next_id) ∧
    (table.insert key).size = table.size + 1 ∧ (table.insert key).next_id = table.next_id + 1 := by
  have content : (table.alloc key).content = fun other => if other = table.next_id then some (key,none) else table.content other := by
    funext other
    unfold Table.content Table.alloc
    by_cases here : other = table.next_id <;> simp [here]
  have next : (table.alloc key).next = fun other => if other = table.next_id then none else table.next other := by
    funext other
    unfold Table.next Table.alloc
    by_cases here : other = table.next_id <;> simp [here]
  have previous : (table.alloc key).previous = fun other => if other = table.next_id then none else table.previous other := by
    funext other
    unfold Table.previous Table.alloc
    by_cases here : other = table.next_id <;> simp [here]
  have hash_next : (table.alloc key).hash_next = fun other => if other = table.next_id then none else table.hash_next other := by
    funext other
    unfold Table.hash_next Table.alloc
    by_cases here : other = table.next_id <;> simp [here]
  have tail_known : ∀ id ∈ table.tail, id ∈ naive.ids := by
    rw [represents.tail_eq]
    exact fun id last => List.mem_of_getLast? last
  have live : (table.alloc key).content table.next_id ≠ none := by simp [content]
  have tail_live : ∀ id ∈ table.tail, (table.alloc key).content id ≠ none := by
    intro id last
    have old : id ≠ table.next_id := fun same => represents.fresh_id (same ▸ tail_known id last)
    rw [content]
    simp only [old,if_false]
    exact represents.writable tail_known id last
  unfold Table.insert
  simp only
  generalize at_bucket : bucket_of table.buckets.length key = bucket
  have first := @Table.point_hash_views α (table.alloc key) bucket (some table.next_id) (slot_of table.buckets bucket) fun id same => by
    cases same
    exact live
  generalize (table.alloc key).point_hash bucket (some table.next_id) (slot_of table.buckets bucket) = hashed at first ⊢
  have second := @Table.point_hash_views α hashed bucket none (some table.next_id) fun id none_here => by cases none_here
  generalize hashed.point_hash bucket none (some table.next_id) = chained at second ⊢
  have third := @Table.point_previous_views α chained (some table.next_id) table.tail fun id same => by
    cases same
    rw [second.2.2.2.1,first.2.2.2.1]
    exact live
  generalize chained.point_previous (some table.next_id) table.tail = behind at third ⊢
  have fourth := @Table.point_next_views α behind table.tail (some table.next_id) fun id last => by
    rw [third.2.2.2.1,second.2.2.2.1,first.2.2.2.1]
    exact tail_live id last
  generalize behind.point_next table.tail (some table.next_id) = linked at fourth ⊢
  obtain ⟨hash1,next1,previous1,content1,buckets1,head1,tail1,id1⟩ := first
  obtain ⟨hash2,next2,previous2,content2,buckets2,head2,tail2,id2⟩ := second
  obtain ⟨previous3,next3,hash3,content3,tail3,head3,buckets3,id3⟩ := third
  obtain ⟨next4,previous4,hash4,content4,head4,tail4,buckets4,id4⟩ := fourth
  refine ⟨?_,?_,?_,?_,?_,trivial,?_,trivial,?_⟩
  · exact content4.trans (content3.trans (content2.trans (content1.trans content)))
  · refine next4.trans (funext fun other => ?_)
    rw [next3,next2,next1,next]
    by_cases here : other = table.next_id
    · subst here
      have apart : table.tail ≠ some table.next_id := fun last => represents.fresh_id (tail_known _ last)
      simp [apart]
    · simp [here]
  · refine previous4.trans (previous3.trans (funext fun other => ?_))
    rw [previous2,previous1,previous]
    by_cases here : other = table.next_id
    · simp [here]
    · simp [here,Ne.symm here]
  · refine hash4.trans (hash3.trans (hash2.trans (funext fun other => ?_)))
    rw [hash1,hash_next]
    by_cases here : other = table.next_id
    · simp [here]
    · simp [here,Ne.symm here]
  · refine head4.trans ?_
    rw [head3,head2,head1]
    rfl
  · refine buckets4.trans (buckets3.trans (buckets2.trans ?_))
    rw [if_pos rfl,buckets1]
    rfl
  · exact id4.trans (id3.trans (id2.trans id1))

/-- A new node is the last one, and the first of its chain. -/
theorem insert_represents (represents : Represents table naive) {key : Prefix} (valid : key.valid = true) (normal : key.normalize = key)
    (absent : key ∉ naive.entries.map Entry.network) :
    Represents (table.insert key)
      { entries := naive.entries ++ [{ id := naive.next_id, network := key, info := none }], next_id := naive.next_id + 1 } := by
  obtain ⟨content,next,previous,hash_next,head,tail,buckets,size,next_id⟩ := insert_views represents key
  have fresh := represents.fresh_id
  have apart {entry : Entry α} (member : entry ∈ naive.entries) : entry.id ≠ table.next_id := fun same => fresh (same ▸ mem_ids member)
  have ids : (Naive.ids { entries := naive.entries ++ [{ id := naive.next_id, network := key, info := none }], next_id := naive.next_id + 1 } :
      List Nat) = naive.ids ++ [table.next_id] := by
    rw [Naive.ids,List.map_append,represents.next_id]
    rfl
  refine ⟨?_,?_,?_,?_,?_,?_,?_,?_,?_,?_,?_,?_⟩
  · intro entry member
    rw [content]
    rcases List.mem_append.1 member with old | new
    · simp only [apart old,if_false]
      exact represents.content entry old
    · rw [List.mem_singleton.1 new,represents.next_id]
      simp
  · intro id some_content
    rw [ids,List.mem_append,List.mem_singleton]
    rw [content] at some_content
    by_cases here : id = table.next_id
    · exact .inr here
    · simp only [here,if_false] at some_content
      exact .inl (represents.live id some_content)
  · rw [ids]
    exact List.nodup_append.2 ⟨represents.nodup,List.nodup_singleton _,fun id member other last same =>
      fresh ((same.trans (List.mem_singleton.1 last)) ▸ member)⟩
  · rw [ids,next,head,represents.tail_eq]
    exact threaded_snoc represents.forward fresh represents.nodup
  · rw [ids,previous,tail,List.reverse_append]
    exact threaded_cons represents.backward fun member => fresh (List.mem_reverse.1 member)
  · rw [buckets,List.length_set]
    exact represents.some_bucket
  · rw [hash_next,buckets]
    have pushed := represents.chained.push { id := naive.next_id, network := key, info := none } fun other member => by
      rw [← represents.next_id]
      exact apart member
    rw [represents.next_id]
    exact pushed
  · rw [size,represents.size,List.length_append]
    rfl
  · intro entry member
    rcases List.mem_append.1 member with old | new
    · exact represents.normal entry old
    · rw [List.mem_singleton.1 new]
      exact ⟨valid,normal⟩
  · rw [List.map_append]
    refine List.nodup_append.2 ⟨represents.distinct,List.nodup_singleton _,fun network member other last same => ?_⟩
    have is_key : network = key := same.trans (List.mem_singleton.1 last)
    exact absent (is_key ▸ member)
  · intro id member
    rw [ids] at member
    rcases List.mem_append.1 member with old | new
    · exact (represents.fresh id old).trans (Nat.lt_succ_self _)
    · rw [List.mem_singleton.1 new,represents.next_id]
      exact Nat.lt_succ_self _
  · rw [next_id,represents.next_id]

/-- A node is cut out of its chain: the place that named it names its successor. -/
theorem Chained.cut {hash_next : Nat → Option Nat} {buckets : List (Option Nat)} {front back : List (Entry α)} {entry : Entry α}
    {before after : List Nat} (chained : Chained hash_next buckets (front ++ entry :: back))
    (nodup : ((front ++ entry :: back).map Entry.id).Nodup) (inside : bucket_of buckets.length entry.network < buckets.length)
    (linked : Threaded hash_next (slot_of buckets (bucket_of buckets.length entry.network)) (before ++ entry.id :: after))
    (chain_nodup : (before ++ entry.id :: after).Nodup) (members : ∀ id, id ∈ before ++ entry.id :: after ↔
      ∃ other ∈ front ++ entry :: back, other.id = id ∧ bucket_of buckets.length other.network = bucket_of buckets.length entry.network) :
    Chained (fun other => if other = entry.id then none else if before.getLast? = some other then hash_next entry.id else hash_next other)
      (if before.getLast? = none then buckets.set (bucket_of buckets.length entry.network) (hash_next entry.id) else buckets) (front ++ back) := by
  have kept (other : Entry α) : other ∈ front ++ back ↔ other ∈ front ++ entry :: back ∧ other.id ≠ entry.id := by
    have once : entry.id ∉ (front ++ back).map Entry.id := by
      rw [List.map_append,List.map_cons] at nodup
      rw [List.map_append]
      exact (List.nodup_cons.1 (List.nodup_middle.1 nodup)).1
    constructor
    · intro member
      refine ⟨?_,fun same => once (same ▸ List.mem_map_of_mem member)⟩
      rcases List.mem_append.1 member with left | right
      · simp [left]
      · simp [right]
    · rintro ⟨member,different⟩
      rcases List.mem_append.1 member with left | right
      · simp [left]
      · rcases List.mem_cons.1 right with rfl | right
        · exact absurd rfl different
        · simp [right]
  have length : (if before.getLast? = none then buckets.set (bucket_of buckets.length entry.network) (hash_next entry.id) else buckets).length =
      buckets.length := by
    split
    · exact List.length_set
    · rfl
  intro bucket in_range
  rw [length] at in_range ⊢
  by_cases here : bucket_of buckets.length entry.network = bucket
  · subst here
    have cut := threaded_unlink linked chain_nodup
    obtain ⟨away,rest_nodup⟩ := List.nodup_cons.1 (List.nodup_middle.1 chain_nodup)
    refine ⟨before ++ after,?_,rest_nodup,fun id => ?_⟩
    · have slot : slot_of (if before.getLast? = none then buckets.set (bucket_of buckets.length entry.network) (hash_next entry.id) else buckets)
          (bucket_of buckets.length entry.network) =
          if before.getLast? = none then hash_next entry.id else slot_of buckets (bucket_of buckets.length entry.network) := by
        split
        · rw [slot_of_set _ _ _ inside,if_pos rfl]
        · rfl
      rw [slot]
      refine cut.congr fun id member => ?_
      have different : id ≠ entry.id := fun same => away (same ▸ member)
      simp [different]
    · have old := members id
      rw [List.mem_append,List.mem_cons] at old
      rw [List.mem_append]
      constructor
      · intro member
        have different : id ≠ entry.id := fun same => away (same ▸ List.mem_append.2 member)
        obtain ⟨other,there,same,hashed⟩ := old.1 (member.imp_right .inr)
        exact ⟨other,(kept other).2 ⟨there,same ▸ different⟩,same,hashed⟩
      · rintro ⟨other,there,same,hashed⟩
        obtain ⟨there,different⟩ := (kept other).1 there
        rcases old.2 ⟨other,there,same,hashed⟩ with left | is_entry | right
        · exact .inl left
        · exact absurd (same.trans is_entry) different
        · exact .inr right
  · obtain ⟨chain,chain_linked,nodup',chain_members⟩ := chained bucket in_range
    have foreign (id : Nat) (member : id ∈ chain) : id ∉ before ++ entry.id :: after := by
      intro also
      obtain ⟨first,first_in,first_id,first_hashed⟩ := (chain_members id).1 member
      obtain ⟨second,second_in,second_id,second_hashed⟩ := (members id).1 also
      have same : first = second := List.inj_on_of_nodup_map nodup first_in second_in (first_id.trans second_id.symm)
      rw [same] at first_hashed
      exact here (second_hashed.symm.trans first_hashed)
    refine ⟨chain,?_,nodup',fun id => ?_⟩
    · have slot : slot_of (if before.getLast? = none then buckets.set (bucket_of buckets.length entry.network) (hash_next entry.id) else buckets)
          bucket = slot_of buckets bucket := by
        split
        · rw [slot_of_set _ _ _ in_range,if_neg here]
        · rfl
      rw [slot]
      refine chain_linked.congr fun id member => ?_
      have outside := foreign id member
      have different : id ≠ entry.id := fun same => outside (by simp [same])
      have not_last : before.getLast? ≠ some id := fun last => outside (List.mem_append_left _ (List.mem_of_getLast? last))
      simp [different,not_last]
    · rw [chain_members id]
      constructor
      · rintro ⟨other,there,same,hashed⟩
        refine ⟨other,(kept other).2 ⟨there,fun is_entry => ?_⟩,same,hashed⟩
        have equal : other = entry := List.inj_on_of_nodup_map nodup there (by simp) is_entry
        exact here (equal ▸ hashed)
      · rintro ⟨other,there,same,hashed⟩
        exact ⟨other,((kept other).1 there).1,same,hashed⟩

theorem bucket_of_lt {count : Nat} (some_bucket : 0 < count) (network : Prefix) : bucket_of count network < count := Nat.mod_lt _ some_bucket

theorem Chained.length_le {buckets : List (Option Nat)} {entries : List (Entry α)} {chain : List Nat} {bucket : Nat}
    (nodup : chain.Nodup) (members : ∀ id, id ∈ chain ↔ ∃ entry ∈ entries, entry.id = id ∧ bucket_of buckets.length entry.network = bucket) :
    chain.length ≤ entries.length := by
  have subset : chain ⊆ entries.map Entry.id := by
    intro id member
    obtain ⟨entry,here,same,_⟩ := (members id).1 member
    exact List.mem_map.2 ⟨entry,here,same⟩
  have shorter := (nodup.subperm subset).length_le
  rwa [List.length_map] at shorter

/-- What the pointers are when a node was unlinked. -/
theorem unlink_views (represents : Represents table naive) {id : Nat} {node : Node α} {bucket : Nat} {before : Option Nat}
    (before_known : ∀ other ∈ before, other ∈ naive.ids) (previous_known : ∀ other ∈ node.previous, other ∈ naive.ids)
    (next_known : ∀ other ∈ node.next, other ∈ naive.ids) :
    ((table.unlink id node bucket before).content = fun other => if other = id then none else table.content other) ∧
    ((table.unlink id node bucket before).next = fun other =>
      if other = id then none else if node.previous = some other then node.next else table.next other) ∧
    ((table.unlink id node bucket before).previous = fun other =>
      if other = id then none else if node.next = some other then node.previous else table.previous other) ∧
    ((table.unlink id node bucket before).hash_next = fun other =>
      if other = id then none else if before = some other then node.hash_next else table.hash_next other) ∧
    (table.unlink id node bucket before).head = (if node.previous = none then node.next else table.head) ∧
    (table.unlink id node bucket before).tail = (if node.next = none then node.previous else table.tail) ∧
    (table.unlink id node bucket before).buckets = (if before = none then table.buckets.set bucket node.hash_next else table.buckets) ∧
    (table.unlink id node bucket before).size = table.size - 1 ∧ (table.unlink id node bucket before).next_id = table.next_id := by
  unfold Table.unlink
  simp only
  have first := @Table.point_hash_views α table bucket before node.hash_next (represents.writable before_known)
  generalize table.point_hash bucket before node.hash_next = hashed at first ⊢
  have second := @Table.point_next_views α hashed node.previous node.next fun other here => by
    rw [first.2.2.2.1]
    exact represents.writable previous_known other here
  generalize hashed.point_next node.previous node.next = forward at second ⊢
  have third := @Table.point_previous_views α forward node.next node.previous fun other here => by
    rw [second.2.2.2.1,first.2.2.2.1]
    exact represents.writable next_known other here
  generalize forward.point_previous node.next node.previous = backward at third ⊢
  obtain ⟨hash1,next1,previous1,content1,buckets1,head1,tail1,id1⟩ := first
  obtain ⟨next2,previous2,hash2,content2,head2,tail2,buckets2,id2⟩ := second
  obtain ⟨previous3,next3,hash3,content3,tail3,head3,buckets3,id3⟩ := third
  have freed {β : Type} (view : Node α → Option β) (other : Nat) :
      (if other = id then none else backward.nodes other).bind view = if other = id then none else (backward.nodes other).bind view := by
    split <;> rfl
  refine ⟨?_,?_,?_,?_,?_,?_,?_,trivial,id3.trans (id2.trans id1)⟩
  · rw [← content1,← content2,← content3]
    funext other
    unfold Table.content
    simp only
    split <;> rfl
  · refine funext fun other => (freed Node.next other).trans ?_
    have there : (backward.nodes other).bind Node.next = _ := congrFun (next3.trans next2) other
    rw [there,next1]
  · refine funext fun other => (freed Node.previous other).trans ?_
    have there : (backward.nodes other).bind Node.previous = _ := congrFun previous3 other
    rw [there,previous2,previous1]
  · refine funext fun other => (freed Node.hash_next other).trans ?_
    have there : (backward.nodes other).bind Node.hash_next = _ := congrFun (hash3.trans (hash2.trans hash1)) other
    rw [there]
  · rw [head3,head2,head1]
  · rw [tail3,tail2,tail1]
  · rw [buckets3,buckets2,buckets1]

/-- A live node is unlinked from both lists. -/
theorem unlink_represents (represents : Represents table naive) {front back : List (Entry α)} {entry : Entry α} {node : Node α}
    {before after : List Nat} (entries : naive.entries = front ++ entry :: back) (at_node : table.nodes entry.id = some node)
    (linked : Threaded table.hash_next (slot_of table.buckets (bucket_of table.buckets.length entry.network)) (before ++ entry.id :: after))
    (chain_nodup : (before ++ entry.id :: after).Nodup) (members : ∀ id, id ∈ before ++ entry.id :: after ↔ ∃ other ∈ naive.entries,
      other.id = id ∧ bucket_of table.buckets.length other.network = bucket_of table.buckets.length entry.network) :
    Represents (table.unlink entry.id node (bucket_of table.buckets.length entry.network) before.getLast?)
      { naive with entries := front ++ back } := by
  have ids : naive.ids = front.map Entry.id ++ entry.id :: back.map Entry.id := by rw [Naive.ids,entries,List.map_append,List.map_cons]
  have left_ids : (Naive.ids { naive with entries := front ++ back } : List Nat) = front.map Entry.id ++ back.map Entry.id := List.map_append
  have nodup := represents.nodup
  rw [ids] at nodup
  obtain ⟨away,rest_nodup⟩ := List.nodup_cons.1 (List.nodup_middle.1 nodup)
  have forward := represents.forward
  rw [ids] at forward
  have backward := represents.backward
  rw [ids,List.reverse_append,List.reverse_cons,List.append_assoc,List.singleton_append] at backward
  have reverse_nodup : ((back.map Entry.id).reverse ++ entry.id :: (front.map Entry.id).reverse).Nodup := by
    have reversed := List.nodup_reverse.2 nodup
    rwa [List.reverse_append,List.reverse_cons,List.append_assoc,List.singleton_append] at reversed
  have next : node.next = table.next entry.id := by rw [Table.next,at_node]; rfl
  have previous : node.previous = table.previous entry.id := by rw [Table.previous,at_node]; rfl
  have hash_next : node.hash_next = table.hash_next entry.id := by rw [Table.hash_next,at_node]; rfl
  have next_eq : node.next = (back.map Entry.id).reverse.getLast? := by rw [next,forward.next_eq,List.getLast?_reverse]
  have previous_eq : node.previous = (front.map Entry.id).getLast? := by rw [previous,backward.next_eq,List.head?_reverse]
  obtain ⟨content',next',previous',hash',head',tail',buckets',size',id'⟩ := @unlink_views α table naive represents entry.id node
    (bucket_of table.buckets.length entry.network) before.getLast?
    (fun other last => by
      obtain ⟨found,here,same,_⟩ := (members other).1 (List.mem_append_left _ (List.mem_of_getLast? last))
      exact same ▸ mem_ids here)
    (fun other last => by
      rw [previous_eq] at last
      rw [ids]
      exact List.mem_append_left _ (List.mem_of_getLast? last))
    (fun other last => by
      rw [next_eq] at last
      rw [ids]
      exact List.mem_append_right _ (List.mem_cons_of_mem _ (List.mem_reverse.1 (List.mem_of_getLast? last))))
  have kept {other : Entry α} (member : other ∈ front ++ back) : other ∈ naive.entries ∧ other.id ≠ entry.id := by
    refine ⟨?_,fun same => away (same ▸ left_ids ▸ List.mem_map_of_mem member)⟩
    rw [entries]
    rcases List.mem_append.1 member with left | right
    · exact List.mem_append_left _ left
    · exact List.mem_append_right _ (List.mem_cons_of_mem _ right)
  have inside := bucket_of_lt represents.some_bucket entry.network
  refine ⟨?_,?_,?_,?_,?_,?_,?_,?_,?_,?_,?_,?_⟩
  · intro other member
    obtain ⟨old,different⟩ := kept member
    rw [content']
    simp only [different,if_false]
    exact represents.content other old
  · intro id some_content
    rw [content'] at some_content
    by_cases here : id = entry.id
    · simp [here] at some_content
    · simp only [here,if_false] at some_content
      have old := represents.live id some_content
      rw [ids] at old
      rw [left_ids]
      rcases List.mem_append.1 old with left | right
      · exact List.mem_append_left _ left
      · exact List.mem_append_right _ ((List.mem_cons.1 right).resolve_left here)
  · rw [left_ids]
    exact rest_nodup
  · rw [left_ids,next',head',previous_eq,next]
    refine (threaded_unlink forward nodup).congr fun id member => ?_
    have different : id ≠ entry.id := fun same => away (same ▸ member)
    simp [different]
  · rw [left_ids,previous',tail',next_eq,previous,List.reverse_append]
    refine (threaded_unlink backward reverse_nodup).congr fun id member => ?_
    have different : id ≠ entry.id := by
      intro same
      refine away (same ▸ ?_)
      rw [← List.mem_reverse,List.reverse_append]
      exact member
    simp [different]
  · rw [buckets']
    split
    · rw [List.length_set]
      exact represents.some_bucket
    · exact represents.some_bucket
  · rw [hash',buckets',hash_next]
    have chained := represents.chained
    rw [entries] at chained members
    exact chained.cut (by rw [List.map_append,List.map_cons]; exact nodup) inside linked chain_nodup members
  · rw [size',represents.size,entries]
    simp
  · exact fun other member => represents.normal other (kept member).1
  · have distinct := represents.distinct
    rw [entries,List.map_append,List.map_cons] at distinct
    rw [List.map_append]
    exact (List.nodup_cons.1 (List.nodup_middle.1 distinct)).2
  · intro id member
    refine represents.fresh id ?_
    rw [left_ids] at member
    rw [ids]
    rcases List.mem_append.1 member with left | right
    · exact List.mem_append_left _ left
    · exact List.mem_append_right _ (List.mem_cons_of_mem _ right)
  · rw [id',represents.next_id]

theorem remove_represents (represents : Represents table naive) (id : Nat) : Represents (table.node_remove id) (naive.remove id) := by
  unfold Table.node_remove
  cases at_node : table.nodes id with
  | none =>
    have absent : id ∉ naive.ids := by
      intro member
      obtain ⟨_,_,_,content⟩ := represents.content_of member
      rw [Table.content,at_node] at content
      cases content
    have all : naive.entries.filter (·.id ≠ id) = naive.entries := by
      refine List.filter_eq_self.2 fun entry member => ?_
      have different : entry.id ≠ id := fun same => absent (same ▸ mem_ids member)
      simp [different]
    rw [Naive.remove,all]
    exact represents
  | some node =>
    have member : id ∈ naive.ids := represents.live id (by rw [Table.content,at_node]; exact Option.some_ne_none _)
    obtain ⟨entry,entry_in,rfl,content⟩ := represents.content_of member
    have network : node.network = entry.network := by
      rw [Table.content,at_node] at content
      exact congrArg Prod.fst (Option.some.inj content)
    obtain ⟨front,back,entries⟩ := List.append_of_mem entry_in
    obtain ⟨chain,linked,chain_nodup,members⟩ := represents.chained _ (bucket_of_lt represents.some_bucket entry.network)
    have chain_length := Chained.length_le chain_nodup members
    obtain ⟨before,after,rfl⟩ := List.append_of_mem ((members _).2 ⟨entry,entry_in,rfl,rfl⟩)
    have first : entry.id ∉ before := fun twice =>
      (List.nodup_cons.1 (List.nodup_middle.1 chain_nodup)).1 (List.mem_append_left _ twice)
    have enough : before.length < table.size := by
      rw [List.length_append,List.length_cons] at chain_length
      rw [represents.size]
      omega
    have found := linked.cursor_eq first enough none
    rw [Option.or_none] at found
    have removed : naive.remove entry.id = { naive with entries := front ++ back } := by
      have nodup := represents.nodup
      rw [Naive.ids,entries,List.map_append,List.map_cons] at nodup
      have away := (List.nodup_cons.1 (List.nodup_middle.1 nodup)).1
      rw [← List.map_append] at away
      have others : ∀ other ∈ front ++ back, other.id ≠ entry.id := fun other here same => away (same ▸ List.mem_map_of_mem here)
      have front_kept : front.filter (·.id ≠ entry.id) = front :=
        List.filter_eq_self.2 fun other here => by simpa using others other (List.mem_append_left _ here)
      have back_kept : back.filter (·.id ≠ entry.id) = back :=
        List.filter_eq_self.2 fun other here => by simpa using others other (List.mem_append_right _ here)
      rw [Naive.remove,entries,List.filter_append,List.filter_cons_of_neg (by simp),front_kept,back_kept]
    simp only [network,if_neg represents.some_bucket.ne',found]
    rw [removed]
    exact unlink_represents represents entries at_node linked chain_nodup members

end Changes

/-- A table without entries, after its buckets are allocated. -/
theorem create_represents : Represents (Table.create : Table α) {} where
  content := fun _ member => by cases member
  live := fun _ some_content => absurd rfl some_content
  nodup := List.nodup_nil
  forward := rfl
  backward := rfl
  some_bucket := by
    rw [Table.create,Table.resize,if_pos rfl]
    simp only [Table.rehash,List.length_replicate]
    decide
  chained := chained_nil initial_buckets
  size := rfl
  normal := fun _ member => by cases member
  distinct := List.nodup_nil
  fresh := fun _ member => by cases member
  next_id := rfl

/-! ## Lookups -/

section Lookups
variable {table : Table α} {naive : Naive α}

/-- Prefixes in normal form that match are the same. -/
theorem prefix_match_iff {first second : Prefix} (valid : first.valid = true) (normal : first.normalize = first)
    (other_valid : second.valid = true) (other_normal : second.normalize = second) : prefix_match first second = true ↔ first = second := by
  constructor
  · intro matches_
    simp only [prefix_match,Bool.and_eq_true,beq_iff_eq] at matches_
    obtain ⟨⟨family,length⟩,same⟩ := matches_
    have octets := memcmp_iff.1 same
    have behind {network : Prefix} (valid : network.valid = true) (normal : network.normalize = network)
        (ipv4 : network.address.afi = some .ipv4) {place : Nat} (inside : place < 16) (far : 4 ≤ place) :
        octet network.address.bytes place = 0 := by
      have short := (Prefix.valid_iff ipv4).1 valid
      have most : Afi.max_bitlen .ipv4 = 32 := rfl
      rw [← normal,Prefix.normalize_octet valid inside,if_neg (by omega)]
      split
      · rw [show network.prefix_length.toNat % 8 = 0 by omega,show leading 0 = 0 by decide,UInt8.and_zero]
      · rfl
    have bytes : first.address.bytes = second.address.bytes := by
      refine vector_ext fun place inside => ?_
      by_cases near : place < key_bytes first
      · exact octets place near
      · unfold key_bytes at near
        split at near
        · rename_i ipv4
          rw [behind valid normal ipv4 inside (by omega),behind other_valid other_normal (family ▸ ipv4) inside (by omega)]
        · omega
    obtain ⟨⟨_,_⟩,_⟩ := first
    obtain ⟨⟨_,_⟩,_⟩ := second
    simp_all
  · rintro rfl
    simp [prefix_match,memcmp]

theorem Represents.matches_key (represents : Represents table naive) {entry : Entry α} (member : entry ∈ naive.entries) {key : Prefix}
    (valid : key.valid = true) (normal : key.normalize = key) :
    ((table.nodes entry.id).any fun node => prefix_match node.network key) = true ↔ entry.network = key := by
  have content := represents.content entry member
  obtain ⟨node,at_node,same⟩ := Option.map_eq_some_iff.1 content
  have network : node.network = entry.network := congrArg Prod.fst same
  obtain ⟨entry_valid,entry_normal⟩ := represents.normal entry member
  rw [at_node,Option.any_some,network]
  exact prefix_match_iff entry_valid entry_normal valid normal

/-- The chain of a prefix holds its node, if there is one. -/
theorem lookup_eq (represents : Represents table naive) (network : Prefix) : table.node_lookup network = naive.lookup network := by
  unfold Table.node_lookup Naive.lookup
  by_cases valid : network.valid = true
  · rw [if_neg (by simp [valid,represents.some_bucket.ne']),if_pos valid]
    simp only
    have key_valid : network.normalize.valid = true := by rw [Prefix.normalize_valid,valid]
    have key_normal : network.normalize.normalize = network.normalize := Prefix.normalize_normalize
    generalize network.normalize = key at key_valid key_normal
    obtain ⟨chain,linked,nodup,members⟩ := represents.chained _ (bucket_of_lt represents.some_bucket key)
    rw [linked.trail_eq (by rw [represents.size]; exact Chained.length_le nodup members)]
    cases found : naive.entries.find? (·.network = key) with
    | none =>
      refine List.find?_eq_none.2 fun id member hit => ?_
      obtain ⟨entry,here,rfl,_⟩ := (members id).1 member
      have absent := List.find?_eq_none.1 found entry here
      have same := (represents.matches_key here key_valid key_normal).1 hit
      simp [same] at absent
    | some entry =>
      have here := List.mem_of_find?_eq_some found
      have is_key : entry.network = key := by simpa using List.find?_some found
      have in_chain : entry.id ∈ chain := (members _).2 ⟨entry,here,rfl,by rw [is_key]⟩
      have hit := (represents.matches_key here key_valid key_normal).2 is_key
      have some_hit : (chain.find? fun id => (table.nodes id).any fun node => prefix_match node.network key).isSome = true :=
        List.find?_isSome.2 ⟨entry.id,in_chain,hit⟩
      obtain ⟨id,first⟩ := Option.isSome_iff_exists.1 some_hit
      rw [first]
      have other_hit := List.find?_some first
      obtain ⟨other,other_here,rfl,_⟩ := (members id).1 (List.mem_of_find?_eq_some first)
      have other_key := (represents.matches_key other_here key_valid key_normal).1 other_hit
      have same : other = entry := List.inj_on_of_nodup_map represents.distinct other_here here (other_key.trans is_key.symm)
      rw [same]
      rfl
  · rw [if_pos (.inl (by simpa using valid)),if_neg valid]

theorem lookup_or_create_represents (represents : Represents table naive) (network : Prefix) (buckets_alloc node_alloc : Bool) :
    Represents (table.node_lookup_or_create network buckets_alloc node_alloc).1 (naive.lookup_or_create network node_alloc).1 ∧
      (table.node_lookup_or_create network buckets_alloc node_alloc).2 = (naive.lookup_or_create network node_alloc).2 := by
  unfold Table.node_lookup_or_create Naive.lookup_or_create
  by_cases valid : network.valid = true
  · have not_invalid : ¬ network.valid = false := by simp [valid]
    rw [if_neg not_invalid,if_neg not_invalid,lookup_eq represents network]
    cases found : naive.lookup network with
    | some id => exact ⟨represents,rfl⟩
    | none =>
      simp only
      generalize at_resized : (if table.size ≥ table.buckets.length * 2 ∧ table.buckets.length ≤ (2 ^ 64 - 1) / 2 then
        table.resize (table.buckets.length * 2) buckets_alloc else table) = resized
      have kept : Represents resized naive := by
        rw [← at_resized]
        split
        · exact resize_represents represents (Nat.mul_pos represents.some_bucket (by decide)) buckets_alloc
        · exact represents
      cases node_alloc with
      | false => exact ⟨kept,rfl⟩
      | true =>
        refine ⟨?_,congrArg some kept.next_id⟩
        refine insert_represents kept (by rw [Prefix.normalize_valid,valid]) Prefix.normalize_normalize fun member => ?_
        obtain ⟨entry,here,same⟩ := List.mem_map.1 member
        rw [Naive.lookup,if_pos valid,Option.map_eq_none_iff,List.find?_eq_none] at found
        have absent := found entry here
        simp [same] at absent
  · rw [if_pos (by simpa using valid),if_pos (by simpa using valid)]
    exact ⟨represents,rfl⟩

/-- Only what is kept at the node changes. -/
theorem set_info_represents (represents : Represents table naive) (id : Nat) (info : Option α) :
    Represents (table.set_info id info) (naive.set_info id info) := by
  have same_id (entry : Entry α) : (if entry.id = id then { entry with info } else entry).id = entry.id := by split <;> rfl
  have same_network (entry : Entry α) : (if entry.id = id then { entry with info } else entry).network = entry.network := by split <;> rfl
  have ids : (naive.set_info id info).ids = naive.ids := by
    rw [Naive.ids,Naive.set_info,List.map_map]
    exact List.map_congr_left fun entry _ => same_id entry
  have next : (table.set_info id info).next = table.next := Table.write_next fun _ => rfl
  have previous : (table.set_info id info).previous = table.previous := Table.write_previous fun _ => rfl
  have hash_next : (table.set_info id info).hash_next = table.hash_next := Table.write_hash_next fun _ => rfl
  have content (other : Nat) : (table.set_info id info).content other =
      if other = id then (table.content id).map fun content => (content.1,info) else table.content other := by
    unfold Table.set_info Table.write Table.content
    simp only
    by_cases here : other = id
    · rw [if_pos here,if_pos here,Option.map_map,Option.map_map]
      rfl
    · rw [if_neg here,if_neg here]
  refine ⟨?_,?_,?_,?_,?_,represents.some_bucket,?_,?_,?_,?_,?_,represents.next_id⟩
  · intro entry member
    obtain ⟨old,here,rfl⟩ := List.mem_map.1 member
    rw [same_id,content]
    by_cases is_id : old.id = id
    · rw [if_pos is_id,← is_id,represents.content old here,if_pos rfl]
      rfl
    · rw [if_neg is_id,if_neg is_id]
      exact represents.content old here
  · intro other some_content
    rw [ids]
    refine represents.live other fun none_there => some_content ?_
    rw [content]
    by_cases here : other = id
    · rw [if_pos here,← here,none_there]
      rfl
    · rw [if_neg here,none_there]
  · rw [ids]
    exact represents.nodup
  · rw [ids,next]
    exact represents.forward
  · rw [ids,previous]
    exact represents.backward
  · rw [hash_next]
    intro bucket inside
    obtain ⟨chain,linked,nodup,members⟩ := represents.chained bucket inside
    refine ⟨chain,linked,nodup,fun other => (members other).trans ?_⟩
    constructor
    · rintro ⟨entry,here,same,hashed⟩
      exact ⟨_,List.mem_map_of_mem here,(same_id entry).trans same,by rw [same_network]; exact hashed⟩
    · rintro ⟨entry,here,same,hashed⟩
      obtain ⟨old,there,rfl⟩ := List.mem_map.1 here
      rw [same_network] at hashed
      exact ⟨old,there,(same_id old).symm.trans same,hashed⟩
  · rw [Naive.set_info,List.length_map]
    exact represents.size
  · intro entry member
    obtain ⟨old,here,rfl⟩ := List.mem_map.1 member
    rw [same_network]
    exact represents.normal old here
  · rw [Naive.set_info,List.map_map]
    have networks : naive.entries.map (Entry.network ∘ fun entry => if entry.id = id then { entry with info } else entry) =
        naive.entries.map Entry.network := List.map_congr_left fun entry _ => same_network entry
    rw [networks]
    exact represents.distinct
  · rw [ids]
    exact represents.fresh

end Lookups

/-! ## The longest match -/

section Longest
variable {table : Table α} {naive : Naive α} {network : Prefix}

/-- An entry and a length that fit the query. -/
def Fits (network : Prefix) (bound : Nat) (entry : Entry α) : Prop :=
  entry.network.prefix_length.toNat ≤ bound ∧ entry.network.address_match network.address = true ∧ entry.info.isSome = true

theorem covers_iff {entry : Entry α} : Naive.Covers network entry = true ↔ Fits network network.prefix_length.toNat entry := by
  unfold Naive.Covers Fits
  simp only [Bool.and_eq_true,decide_eq_true_eq,UInt8.le_iff_toNat_le,and_assoc]

/-- Entries of one length that cover an address are the same. -/
theorem Represents.cover_unique (represents : Represents table naive) {first second : Entry α} (here : first ∈ naive.entries)
    (there : second ∈ naive.entries) (covers : first.network.address_match network.address = true)
    (also : second.network.address_match network.address = true) (length : first.network.prefix_length = second.network.prefix_length) :
    first = second := by
  obtain ⟨valid,family,same⟩ := Prefix.address_match_iff.1 covers
  obtain ⟨other_valid,other_family,other_same⟩ := Prefix.address_match_iff.1 also
  refine List.inj_on_of_nodup_map represents.distinct here there ?_
  rw [← (represents.normal first here).2,← (represents.normal second there).2]
  refine (Prefix.normalize_eq_iff valid other_valid).2 ⟨family.trans other_family.symm,length,fun place before => ?_⟩
  rw [same place before,other_same place (by rwa [← length])]

/-- A probe finds the entry of its length that covers the query. -/
theorem found_iff (represents : Represents table naive) (valid : network.valid = true) {bitlen : Nat} (shorter : bitlen ≤ network.prefix_length.toNat)
    {id : Nat} : Table.probe.found table network bitlen = some id ↔
      ∃ entry ∈ naive.entries, entry.id = id ∧ entry.network.prefix_length.toNat = bitlen ∧
        entry.network.address_match network.address = true ∧ entry.info.isSome = true := by
  have small := network.prefix_length.toNat_lt
  have length : (UInt8.ofNat bitlen).toNat = bitlen := by
    rw [UInt8.toNat_ofNat']
    exact Nat.mod_eq_of_lt (by omega)
  generalize at_candidate : ({ network with prefix_length := UInt8.ofNat bitlen } : Prefix) = candidate
  have candidate_length : candidate.prefix_length.toNat = bitlen := by rw [← at_candidate]; exact length
  have candidate_address : candidate.address = network.address := by rw [← at_candidate]
  obtain ⟨afi,family,within⟩ := Prefix.valid_family valid
  have candidate_valid : candidate.valid = true := by
    refine (Prefix.valid_iff (by rw [candidate_address]; exact family)).2 ?_
    omega
  have has_info {entry : Entry α} (member : entry ∈ naive.entries) :
      (table.nodes entry.id).any (·.info.isSome) = true ↔ entry.info.isSome = true := by
    obtain ⟨node,at_node,same⟩ := Option.map_eq_some_iff.1 (represents.content entry member)
    have info : node.info = entry.info := congrArg Prod.snd same
    rw [at_node,Option.any_some,info]
  have is_key {entry : Entry α} (member : entry ∈ naive.entries) : entry.network = candidate.normalize ↔
      entry.network.prefix_length.toNat = bitlen ∧ entry.network.address_match network.address = true := by
    obtain ⟨entry_valid,entry_normal⟩ := represents.normal entry member
    have normal := Prefix.normalize_eq_iff entry_valid candidate_valid
    rw [entry_normal,candidate_address,← UInt8.toNat_inj,candidate_length] at normal
    rw [normal,Prefix.address_match_iff]
    constructor
    · rintro ⟨same_family,same_length,same_bits⟩
      exact ⟨same_length,entry_valid,same_family,same_bits⟩
    · rintro ⟨same_length,_,same_family,same_bits⟩
      exact ⟨same_family,same_length,same_bits⟩
  unfold Table.probe.found
  rw [at_candidate,lookup_eq represents,Naive.lookup,if_pos candidate_valid,Option.filter_eq_some_iff,Option.map_eq_some_iff]
  constructor
  · rintro ⟨⟨entry,found,rfl⟩,info⟩
    have here := List.mem_of_find?_eq_some found
    have key : entry.network = candidate.normalize := by simpa using List.find?_some found
    obtain ⟨same_length,covers⟩ := (is_key here).1 key
    exact ⟨entry,here,rfl,same_length,covers,(has_info here).1 info⟩
  · rintro ⟨entry,here,rfl,same_length,covers,info⟩
    refine ⟨?_,(has_info here).2 info⟩
    have key := (is_key here).2 ⟨same_length,covers⟩
    have some_hit : (naive.entries.find? (·.network = candidate.normalize)).isSome = true :=
      List.find?_isSome.2 ⟨entry,here,by simpa using key⟩
    obtain ⟨other,first⟩ := Option.isSome_iff_exists.1 some_hit
    have other_key : other.network = candidate.normalize := by simpa using List.find?_some first
    have same : other = entry :=
      List.inj_on_of_nodup_map represents.distinct (List.mem_of_find?_eq_some first) here (other_key.trans key.symm)
    exact ⟨other,first,by rw [same]⟩

/-- From a length down the probes find the longest entry, if there is one. -/
theorem probe_spec (represents : Represents table naive) (valid : network.valid = true) {bound : Nat} (shorter : bound ≤ network.prefix_length.toNat) :
    (∀ id, table.probe network bound = some id → ∃ entry ∈ naive.entries, entry.id = id ∧ Fits network bound entry ∧
      ∀ other ∈ naive.entries, Fits network bound other → other.network.prefix_length.toNat ≤ entry.network.prefix_length.toNat) ∧
    (table.probe network bound = none → ∀ entry ∈ naive.entries, ¬ Fits network bound entry) := by
  induction bound with
  | zero =>
    constructor
    · intro id found
      obtain ⟨entry,here,same,length,covers,info⟩ := (found_iff represents valid shorter).1 found
      refine ⟨entry,here,same,⟨length.le,covers,info⟩,fun other _ fits => ?_⟩
      rw [length]
      exact fits.1
    · intro nothing entry here fits
      have found := (found_iff represents valid shorter).2 ⟨entry,here,rfl,Nat.le_zero.1 fits.1,fits.2⟩
      rw [Table.probe,found] at nothing
      cases nothing
  | succ bound ih =>
    obtain ⟨finds,misses⟩ := ih (Nat.le_of_succ_le shorter)
    rw [Table.probe]
    cases found : Table.probe.found table network (bound + 1) with
    | some hit =>
      rw [Option.some_or]
      constructor
      · rintro id ⟨⟩
        obtain ⟨entry,here,same,length,covers,info⟩ := (found_iff represents valid shorter).1 found
        refine ⟨entry,here,same,⟨length.le,covers,info⟩,fun other _ fits => ?_⟩
        rw [length]
        exact fits.1
      · intro nothing
        cases nothing
    | none =>
      rw [Option.none_or]
      have down {entry : Entry α} (here : entry ∈ naive.entries) (fits : Fits network (bound + 1) entry) : Fits network bound entry := by
        refine ⟨?_,fits.2⟩
        by_contra longer
        have length : entry.network.prefix_length.toNat = bound + 1 := Nat.le_antisymm fits.1 (Nat.lt_of_not_le longer)
        have hit := (found_iff represents valid shorter).2 ⟨entry,here,rfl,length,fits.2⟩
        rw [found] at hit
        cases hit
      constructor
      · intro id probed
        obtain ⟨entry,here,same,fits,longest⟩ := finds id probed
        exact ⟨entry,here,same,⟨Nat.le_succ_of_le fits.1,fits.2⟩,fun other there other_fits => longest other there (down there other_fits)⟩
      · exact fun nothing entry here fits => misses nothing entry here (down here fits)

theorem scan_spec (entries : List (Entry α)) (next_id : Nat) :
    (∀ entry, Naive.scan { entries, next_id } network = some entry → entry ∈ entries ∧ Naive.Covers network entry = true ∧
      ∀ other ∈ entries, Naive.Covers network other = true → other.network.prefix_length.toNat ≤ entry.network.prefix_length.toNat) ∧
    (Naive.scan { entries, next_id } network = none → ∀ entry ∈ entries, ¬ Naive.Covers network entry = true) := by
  induction entries using List.reverseRecOn with
  | nil => exact ⟨fun _ found => by (cases found),fun _ _ member => by (cases member)⟩
  | append_singleton entries last ih =>
    obtain ⟨finds,misses⟩ := ih
    have step : Naive.scan { entries := entries ++ [last], next_id } network =
        if Naive.Covers network last ∧ ∀ other ∈ Naive.scan { entries, next_id } network,
          other.network.prefix_length < last.network.prefix_length then some last else Naive.scan { entries, next_id } network := by
      rw [Naive.scan,List.foldl_append]
      rfl
    rw [step]
    generalize Naive.scan { entries, next_id } network = best at finds misses
    by_cases better : Naive.Covers network last = true ∧ ∀ other ∈ best, other.network.prefix_length < last.network.prefix_length
    · rw [if_pos better]
      constructor
      · rintro entry ⟨⟩
        refine ⟨by simp,better.1,fun other member covers => ?_⟩
        rcases List.mem_append.1 member with old | new
        · cases best with
          | none => exact absurd covers (misses rfl other old)
          | some entry =>
            have less := UInt8.lt_iff_toNat_lt.1 (better.2 entry rfl)
            exact ((finds entry rfl).2.2 other old covers).trans less.le
        · rw [List.mem_singleton.1 new]
      · intro nothing
        cases nothing
    · rw [if_neg better]
      constructor
      · intro entry found
        obtain ⟨here,covers,longest⟩ := finds entry found
        refine ⟨by simp [here],covers,fun other member other_covers => ?_⟩
        rcases List.mem_append.1 member with old | new
        · exact longest other old other_covers
        · rw [List.mem_singleton.1 new] at other_covers ⊢
          by_contra longer
          refine better ⟨other_covers,fun best_entry is_best => ?_⟩
          rw [found] at is_best
          cases is_best
          exact UInt8.lt_iff_toNat_lt.2 (Nat.lt_of_not_le longer)
      · intro nothing entry member covers
        rcases List.mem_append.1 member with old | new
        · exact misses nothing entry old covers
        · rw [List.mem_singleton.1 new] at covers
          refine better ⟨covers,fun best_entry is_best => ?_⟩
          rw [nothing] at is_best
          cases is_best

/-- The probes find what one pass over the table finds. -/
theorem match_eq (represents : Represents table naive) (network : Prefix) : table.node_match network = naive.longest_match network := by
  unfold Table.node_match Naive.longest_match
  by_cases valid : network.valid = true
  · rw [if_pos valid,if_pos valid]
    obtain ⟨finds,misses⟩ := probe_spec represents valid le_rfl
    obtain ⟨scans,scan_misses⟩ := @scan_spec α network naive.entries naive.next_id
    cases probed : table.probe network network.prefix_length.toNat with
    | none =>
      cases scanned : naive.scan network with
      | none => rfl
      | some entry =>
        obtain ⟨here,covers,_⟩ := scans entry scanned
        exact absurd (covers_iff.1 covers) (misses probed entry here)
    | some id =>
      obtain ⟨entry,here,rfl,fits,longest⟩ := finds id probed
      cases scanned : naive.scan network with
      | none => exact absurd (covers_iff.2 fits) (scan_misses scanned entry here)
      | some other =>
        obtain ⟨there,covers,also_longest⟩ := scans other scanned
        have other_fits := covers_iff.1 covers
        have length : entry.network.prefix_length = other.network.prefix_length :=
          UInt8.toNat_inj.1 (Nat.le_antisymm (also_longest entry here (covers_iff.2 fits)) (longest other there other_fits))
        rw [represents.cover_unique here there fits.2.1 other_fits.2.1 length]
        rfl
  · rw [if_neg valid,if_neg valid]

end Longest

/-! ## Runs -/

/-- What callers do with a table; the flags say which allocations succeed. -/
inductive Operation (α : Type) where
  | lookup_or_create (network : Prefix) (buckets_alloc node_alloc : Bool)
  | remove (id : Nat)
  | set_info (id : Nat) (info : Option α)

def Table.perform (table : Table α) : Operation α → Table α
  | .lookup_or_create network buckets_alloc node_alloc => (table.node_lookup_or_create network buckets_alloc node_alloc).1
  | .remove id => table.node_remove id
  | .set_info id info => table.set_info id info

def Naive.perform (naive : Naive α) : Operation α → Naive α
  | .lookup_or_create network _ node_alloc => (naive.lookup_or_create network node_alloc).1
  | .remove id => naive.remove id
  | .set_info id info => naive.set_info id info

def Table.run (operations : List (Operation α)) : Table α := operations.foldl Table.perform Table.create

def Naive.run (operations : List (Operation α)) : Naive α := operations.foldl Naive.perform {}

theorem run_represents (operations : List (Operation α)) : Represents (Table.run operations) (Naive.run operations) := by
  induction operations using List.reverseRecOn with
  | nil => exact create_represents
  | append_singleton operations operation ih =>
    rw [Table.run,Naive.run,List.foldl_append,List.foldl_append]
    cases operation with
    | lookup_or_create network buckets_alloc node_alloc => exact (lookup_or_create_represents ih network buckets_alloc node_alloc).1
    | remove id => exact remove_represents ih id
    | set_info id info => exact set_info_represents ih id info

/-- After any operations, with any outcome of the allocations, the table answers as the list of its nodes does: the node of a prefix,
the nodes in the order of their insertion, their number and the longest match. -/
theorem table_agrees (operations : List (Operation α)) :
    let table := Table.run operations
    let naive := Naive.run operations
    (∀ network, table.node_lookup network = naive.lookup network) ∧
    (∀ network, network.valid = true → ∀ id, table.node_lookup network = some id ↔
      ∃ entry ∈ naive.entries, entry.id = id ∧ entry.network = network.normalize) ∧
    (Threaded table.next table.head naive.ids ∧ naive.ids.Nodup ∧ ∀ id, table.nodes id ≠ none ↔ id ∈ naive.ids) ∧
    table.size = naive.entries.length ∧
    (∀ network, table.node_match network = naive.longest_match network) ∧
    ∀ network buckets_alloc node_alloc,
      (table.node_lookup_or_create network buckets_alloc node_alloc).2 = (naive.lookup_or_create network node_alloc).2 := by
  intro table naive
  have represents := run_represents operations
  refine ⟨lookup_eq represents,fun network valid id => ?_,⟨represents.forward,represents.nodup,fun id => ?_⟩,represents.size,match_eq represents,
    fun network buckets_alloc node_alloc => (lookup_or_create_represents represents network buckets_alloc node_alloc).2⟩
  · rw [lookup_eq represents,Naive.lookup,if_pos valid,Option.map_eq_some_iff]
    constructor
    · rintro ⟨entry,found,same⟩
      exact ⟨entry,List.mem_of_find?_eq_some found,same,by simpa using List.find?_some found⟩
    · rintro ⟨entry,here,same,key⟩
      have some_hit : (naive.entries.find? (·.network = network.normalize)).isSome = true :=
        List.find?_isSome.2 ⟨entry,here,by simpa using key⟩
      obtain ⟨other,first⟩ := Option.isSome_iff_exists.1 some_hit
      have other_key : other.network = network.normalize := by simpa using List.find?_some first
      have equal : other = entry :=
        List.inj_on_of_nodup_map represents.distinct (List.mem_of_find?_eq_some first) here (other_key.trans key.symm)
      exact ⟨other,first,by rw [equal,same]⟩
  · constructor
    · intro live
      refine represents.live id ?_
      unfold Table.content
      simpa using live
    · intro member none_there
      obtain ⟨_,_,_,content⟩ := represents.content_of member
      have empty : (Table.run operations).nodes id = none := none_there
      rw [Table.content,empty] at content
      cases content

/-- 10.0.0.0/8 and 10.1.0.0/16, both in use. -/
def nested : List (Operation Unit) :=
  [.lookup_or_create { address := { afi := some .ipv4, bytes := memcpy (.replicate 16 0) [10] }, prefix_length := 8 } true true,
    .lookup_or_create { address := { afi := some .ipv4, bytes := memcpy (.replicate 16 0) [10,1] }, prefix_length := 16 } false true,
    .set_info 0 (some ()),.set_info 1 (some ())]

theorem nested_networks_matched :
    (Table.run nested).node_match { address := { afi := some .ipv4, bytes := memcpy (.replicate 16 0) [10,1,2,3] }, prefix_length := 32 } = some 1 ∧
      (Table.run nested).node_lookup { address := { afi := some .ipv4, bytes := memcpy (.replicate 16 0) [10,9,9,9] }, prefix_length := 8 } =
        some 0 := by
  obtain ⟨_,lookups,_,_,matches_,_⟩ := table_agrees nested
  refine ⟨(matches_ _).trans (by decide +kernel),(lookups _ (by decide) 0).2 ?_⟩
  have entries : ∃ entry ∈ (Naive.run nested).entries, entry.id = 0 ∧ entry.network =
      Prefix.normalize { address := { afi := some .ipv4, bytes := memcpy (.replicate 16 0) [10,9,9,9] }, prefix_length := 8 } := by
    decide +kernel
  exact entries

end Eigrp.Portable
