import Lrd.Cache.LruCache
import Lrd.Foundation.Machine
import Lrd.Foundation.Recency
import Lrd.Foundation.Records
import Mathlib.Algebra.Ring.Nat

/-!
# The LRU discipline

What the cache is for: a list of entries, most recently used first, of which the last
makes room for a new key (`Reference`). The cache with its two containers answers every
sequence of operations as that list does and holds the same entries in the same order
(`exact_lru`).
-/

namespace Lrd.Cache

open Foundation

/-- A `shared_ptr` to a value, which may be null. -/
abbrev ValuePtr (V : Type) : Type := Option V

/-- The operations of an LRU cache. -/
inductive LruOperation (K V : Type) where
  | get (key : K)
  | peek (key : K)
  | put (key : K) (value : V)
  | putShared (key : K) (value : ValuePtr V)
  | erase (key : K)
  | clear
deriving DecidableEq, Repr

/-- What an operation answers. A lookup that found nothing and one that found a null
pointer look alike to the caller, to whom both are null. `clear` returns nothing; how
many entries it dropped is kept for the count. -/
inductive LruAnswer (V : Type) where
  | looked (found : Option (ValuePtr V))
  | stored
  | erased (present : Bool)
  | cleared (count : Nat)
deriving DecidableEq, Repr

namespace LruCache

variable {K V : Type} [DecidableEq K] {capacity : Capacity}

/-- The cache as a machine. `put` makes a shared pointer of its value first. -/
def machine (K V : Type) [DecidableEq K] (capacity : Capacity) :
    Machine (LruCache K (ValuePtr V) capacity) (LruOperation K V) (LruAnswer V) where
  step cache
    | .get key => (.looked (cache.get key).1, (cache.get key).2)
    | .peek key => (.looked (cache.peek key), cache)
    | .put key value => (.stored, cache.put key (some value))
    | .putShared key value => (.stored, cache.put key value)
    | .erase key => (.erased (cache.erase key).1, (cache.erase key).2)
    | .clear => (.cleared cache.size, cache.clear)

end LruCache

/-! ## The reference -/

namespace Reference

variable {K V : Type} [DecidableEq K]

/-- The entries of other keys. -/
def without (entries : List (K × V)) (key : K) : List (K × V) :=
  entries.filter fun entry => ¬ entry.1 = key

/-- Put an entry at the front. A new key at full capacity costs the last entry its
place. -/
def store (capacity : Nat) (entries : List (K × V)) (key : K) (value : V) : List (K × V) :=
  if key ∈ entries.map Prod.fst then (key, value) :: without entries key
  else if capacity ≤ entries.length then (key, value) :: entries.dropLast
  else (key, value) :: entries

/-- A list of entries, most recently used first. -/
def machine (K V : Type) [DecidableEq K] (capacity : Nat) :
    Machine (List (K × ValuePtr V)) (LruOperation K V) (LruAnswer V) where
  step entries
    | .get key =>
        match entries.lookup key with
        | none => (.looked none, entries)
        | some value => (.looked (some value), (key, value) :: without entries key)
    | .peek key => (.looked (entries.lookup key), entries)
    | .put key value => (.stored, store capacity entries key (some value))
    | .putShared key value => (.stored, store capacity entries key value)
    | .erase key => (.erased (decide (key ∈ entries.map Prod.fst)), without entries key)
    | .clear => (.cleared entries.length, [])

theorem without_sublist (entries : List (K × V)) (key : K) :
    (without entries key).Sublist entries :=
  List.filter_sublist

/-- The key is out. -/
theorem not_mem_without (entries : List (K × V)) (key : K) :
    key ∉ (without entries key).map Prod.fst := by
  intro member
  obtain ⟨entry, kept, same⟩ := List.mem_map.mp member
  exact of_decide_eq_true (List.mem_filter.mp kept).2 same

theorem lookup_without_self (entries : List (K × V)) (key : K) :
    (without entries key).lookup key = none :=
  lookup_eq_none_iff_not_mem.mpr (not_mem_without entries key)

/-- The others are found as before. -/
theorem lookup_without (entries : List (K × V)) {key other : K} (different : other ≠ key) :
    (without entries key).lookup other = entries.lookup other := by
  induction entries with
  | nil => rfl
  | cons entry entries ih =>
      by_cases same : entry.1 = key
      · have dropped : without (entry :: entries) key = without entries key :=
          List.filter_cons_of_neg (by rw [decide_eq_true_eq]; exact fun apart => apart same)
        have skipped : (other == entry.1) = false := by
          rw [beq_eq_false_iff_ne, same]
          exact different
        rw [dropped, ih, List.lookup_cons, skipped]
      · have kept : without (entry :: entries) key = entry :: without entries key :=
          List.filter_cons_of_pos (decide_eq_true same)
        rw [kept, List.lookup_cons, List.lookup_cons, ih]

/-- A put leaves its entry before some of the others, none of them under its key. -/
theorem store_split (capacity : Nat) (entries : List (K × V)) (key : K) (value : V) :
    ∃ others, store capacity entries key value = (key, value) :: others ∧
      others.Sublist entries ∧ key ∉ others.map Prod.fst := by
  unfold store
  split
  · exact ⟨_, rfl, without_sublist entries key, not_mem_without entries key⟩
  · rename_i absent
    split
    · refine ⟨_, rfl, List.dropLast_sublist entries, fun member => absent ?_⟩
      exact ((List.dropLast_sublist entries).map Prod.fst).subset member
    · exact ⟨_, rfl, List.Sublist.refl entries, absent⟩

/-- Of distinct keys, leaving out the last one is leaving out the end. -/
theorem without_last {front : List (K × V)} {last : K × V}
    (nodup : ((front ++ [last]).map Prod.fst).Nodup) :
    without (front ++ [last]) last.1 = front := by
  rw [List.map_append, List.nodup_append] at nodup
  have kept : without front last.1 = front := by
    apply List.filter_eq_self.mpr
    intro entry member
    rw [decide_eq_true_eq]
    exact nodup.2.2 entry.1 (List.mem_map_of_mem member) last.1 (by simp)
  rw [without, List.filter_append, ← without, kept]
  simp

end Reference

/-! ## What each operation does to the entries -/

namespace LruCache

variable {K V : Type} [DecidableEq K] {capacity : Capacity} (cache : LruCache K V capacity)

theorem mem_index_iff (key : K) : key ∈ cache.index ↔ key ∈ cache.toList.map Prod.fst :=
  cache.agree.mem_iff key

theorem size_eq : cache.size = cache.toList.length := by
  rw [size, cache.agree.size_eq, toList, StableList.toList, List.length_map]

variable {key : K}

/-- A key that the index finds has a node, whose value is what the list holds. -/
theorem node_of_found {handle : Nat} (found : cache.index.lookup key = some handle) :
    ∃ value, (handle, (key, value)) ∈ cache.entries.nodes ∧
      cache.toList.lookup key = some value := by
  obtain ⟨⟨stored, value⟩, present, same⟩ := (cache.agree key handle).mp found
  obtain rfl : stored = key := same
  exact ⟨value, present, lookup_of_mem cache.nodup_keys (List.mem_map_of_mem present)⟩

/-- A key that the index does not have is not in the list. -/
theorem lookup_of_unfound (unfound : cache.index.lookup key = none) :
    cache.toList.lookup key = none := by
  rw [lookup_eq_none_iff_not_mem, ← cache.mem_index_iff]
  exact AList.lookup_eq_none.mp unfound

/-- `peek` is the lookup in the list. -/
theorem peek_eq (key : K) : cache.peek key = cache.toList.lookup key := by
  unfold peek
  split
  · rename_i unfound
    rw [cache.lookup_of_unfound unfound]
  · rename_i handle found
    obtain ⟨value, present, held⟩ := cache.node_of_found found
    rw [StableList.get?_of_mem present, held]
    rfl

/-- A miss changes nothing. -/
theorem get_miss (missing : cache.toList.lookup key = none) :
    (cache.get key).1 = none ∧ (cache.get key).2.toList = cache.toList := by
  unfold get
  split
  · exact ⟨rfl, rfl⟩
  · rename_i handle found
    obtain ⟨value, _, held⟩ := cache.node_of_found found
    rw [missing] at held
    cases held

/-- A hit moves its entry to the front. -/
theorem get_hit {value : V} (held : cache.toList.lookup key = some value) :
    (cache.get key).1 = some value ∧
      (cache.get key).2.toList = (key, value) :: Reference.without cache.toList key := by
  unfold get
  split
  · rename_i unfound
    rw [cache.lookup_of_unfound unfound] at held
    cases held
  · rename_i handle found
    obtain ⟨stored, present, again⟩ := cache.node_of_found found
    obtain rfl : stored = value := Option.some.inj (again.symm.trans held)
    have moved := cache.agree.toList_spliceFront found present
    refine ⟨?_, moved⟩
    change (cache.entries.spliceFront handle).toList.head?.map Prod.snd = some stored
    rw [moved]
    rfl

/-- `get` answers as the lookup in the list. -/
theorem get_fst (key : K) : (cache.get key).1 = cache.toList.lookup key := by
  cases held : cache.toList.lookup key with
  | none => exact (cache.get_miss held).1
  | some value => exact (cache.get_hit held).1

/-- The list of a full cache ends in the entry that makes room. -/
theorem toList_makeRoom :
    cache.makeRoom.toList =
      if capacity.value ≤ cache.toList.length then cache.toList.dropLast else cache.toList := by
  rw [makeRoom, cache.size_eq]
  split
  · unfold evictLru
    split
    · rename_i empty
      have none : cache.toList = [] := List.getLast?_eq_none_iff.mp empty
      rw [none, List.dropLast_nil]
    · exact cache.entries.toList_popBack
  · rfl

/-- `put` does to the list what the reference does. -/
theorem toList_put (key : K) (value : V) :
    (cache.put key value).toList = Reference.store capacity.value cache.toList key value := by
  unfold put Reference.store
  split
  · rename_i handle found
    obtain ⟨stored, _, held⟩ := cache.node_of_found found
    rw [if_pos (List.mem_map_of_mem (mem_of_lookup held))]
    exact cache.agree.toList_set_spliceFront found
  · rename_i unfound
    rw [if_neg (lookup_eq_none_iff_not_mem.mp (cache.lookup_of_unfound unfound))]
    have front := cache.toList_makeRoom
    split at front
    · rename_i full
      rw [if_pos full, ← front]
      rfl
    · rename_i room
      rw [if_neg room]
      exact congrArg _ front

/-- `erase` answers whether the key was there, and takes it out. -/
theorem erase_eq (key : K) :
    (cache.erase key).1 = decide (key ∈ cache.toList.map Prod.fst) ∧
      (cache.erase key).2.toList = Reference.without cache.toList key := by
  unfold erase
  split
  · rename_i unfound
    have absent := lookup_eq_none_iff_not_mem.mp (cache.lookup_of_unfound unfound)
    refine ⟨(decide_eq_false absent).symm, ?_⟩
    symm
    apply List.filter_eq_self.mpr
    intro entry member
    rw [decide_eq_true_eq]
    rintro rfl
    exact absent (List.mem_map_of_mem member)
  · rename_i handle found
    obtain ⟨stored, _, held⟩ := cache.node_of_found found
    refine ⟨(decide_eq_true ?_).symm, cache.agree.toList_erase found⟩
    exact List.mem_map_of_mem (mem_of_lookup held)

/-! ## Lookups after an operation -/

/-- A lookup changes the answer to no other lookup. -/
theorem lookup_get (key other : K) :
    (cache.get key).2.toList.lookup other = cache.toList.lookup other := by
  cases held : cache.toList.lookup key with
  | none => rw [(cache.get_miss held).2]
  | some value =>
      rw [(cache.get_hit held).2, List.lookup_cons]
      by_cases same : other = key
      · subst same
        rw [beq_self_eq_true, held]
      · rw [beq_eq_false_iff_ne.mpr same]
        exact Reference.lookup_without _ same

/-- Erasing a key changes the answer about that key only. -/
theorem lookup_erase (key other : K) :
    (cache.erase key).2.toList.lookup other =
      if other = key then none else cache.toList.lookup other := by
  rw [(cache.erase_eq key).2]
  split
  · rename_i same
    rw [same, Reference.lookup_without_self]
  · rename_i different
    exact Reference.lookup_without _ different

/-- A put that need not evict changes the lookup of its own key only. -/
theorem lookup_put_of_room (room : key ∈ cache.index ∨ cache.size < capacity.value) (value : V)
    (other : K) :
    (cache.put key value).toList.lookup other =
      if other = key then some value else cache.toList.lookup other := by
  rw [mem_index_iff, size_eq] at room
  rw [toList_put, Reference.store]
  by_cases same : other = key
  · rw [if_pos same, same]
    split
    · exact List.lookup_cons_self
    · rw [if_neg (Nat.not_le.mpr (room.resolve_left (by assumption)))]
      exact List.lookup_cons_self
  · have skipped : (other == key) = false := beq_eq_false_iff_ne.mpr same
    rw [if_neg same]
    split
    · rw [List.lookup_cons, skipped]
      exact Reference.lookup_without _ same
    · rw [if_neg (Nat.not_le.mpr (room.resolve_left (by assumption))), List.lookup_cons, skipped]

/-- A lookup evicts nothing. -/
theorem evictions_get (key : K) :
    (cache.get key).2.metrics.evictions = cache.metrics.evictions := by
  unfold get
  split
  · rfl
  · rfl

/-- Erasing is no eviction. -/
theorem evictions_erase (key : K) :
    (cache.erase key).2.metrics.evictions = cache.metrics.evictions := by
  unfold erase
  split
  · rfl
  · rfl

/-- The cache does what its list of entries does. -/
theorem machine_simulates {K V : Type} [DecidableEq K] {capacity : Capacity}
    (cache : LruCache K (ValuePtr V) capacity) (operation : LruOperation K V) :
    ((machine K V capacity).step cache operation).1 =
        ((Reference.machine K V capacity.value).step cache.toList operation).1 ∧
      ((machine K V capacity).step cache operation).2.toList =
        ((Reference.machine K V capacity.value).step cache.toList operation).2 := by
  cases operation with
  | get key =>
      simp only [machine, Reference.machine]
      cases held : cache.toList.lookup key with
      | none =>
          obtain ⟨answer, same⟩ := cache.get_miss held
          rw [answer, same]
          exact ⟨rfl, rfl⟩
      | some value =>
          obtain ⟨answer, moved⟩ := cache.get_hit held
          rw [answer, moved]
          exact ⟨rfl, rfl⟩
  | peek key => exact ⟨congrArg LruAnswer.looked (cache.peek_eq key), rfl⟩
  | put key value => exact ⟨rfl, cache.toList_put key (some value)⟩
  | putShared key value => exact ⟨rfl, cache.toList_put key value⟩
  | erase key =>
      obtain ⟨answer, kept⟩ := cache.erase_eq key
      exact ⟨congrArg LruAnswer.erased answer, kept⟩
  | clear => exact ⟨congrArg LruAnswer.cleared cache.size_eq, rfl⟩

/-! ## What the metrics count -/

/-- The insertions that neither an eviction nor the present size accounts for. -/
def outstanding : UInt64 :=
  cache.metrics.insertions - cache.metrics.evictions - UInt64.ofNat cache.size

/-- A lookup leaves the balance. -/
theorem outstanding_get (key : K) : (cache.get key).2.outstanding = cache.outstanding := by
  unfold get
  split
  · rfl
  · rfl

/-- What is evicted has been counted. -/
theorem outstanding_makeRoom : cache.makeRoom.outstanding = cache.outstanding := by
  unfold makeRoom
  split
  · unfold evictLru
    split
    · rfl
    · rename_i last back
      have member : last.1 ∈ cache.index := by
        rw [cache.agree.mem_iff]
        exact List.mem_map_of_mem (List.mem_of_getLast? back)
      have occupied : 0 < cache.size := List.length_pos_of_mem (AList.mem_keys.mp member)
      obtain ⟨others, count⟩ : ∃ others, cache.size = others + 1 :=
        ⟨cache.size - 1, by omega⟩
      simp only [outstanding, size, AList.keys_erase,
        List.length_erase_of_mem (AList.mem_keys.mp member)]
      simp only [size] at count
      rw [count, Nat.add_sub_cancel, UInt64.ofNat_add, UInt64.ofNat_one]
      grind
  · rfl

/-- A put leaves the balance: an insertion is an entry or an eviction. -/
theorem outstanding_put (key : K) (value : V) :
    (cache.put key value).outstanding = cache.outstanding := by
  rw [← cache.outstanding_makeRoom]
  unfold put
  split
  · exact cache.outstanding_makeRoom.symm
  · rename_i unfound
    have absent := makeRoom_absent (AList.lookup_eq_none.mp unfound)
    simp only [outstanding, size, AList.keys_insert, List.length_cons,
      List.erase_of_not_mem (fun member => absent (AList.mem_keys.mpr member)),
      UInt64.ofNat_add, UInt64.ofNat_one]
    grind

/-- An erased entry is one that was inserted and not evicted. -/
theorem outstanding_erase (key : K) :
    (cache.erase key).2.outstanding =
      cache.outstanding + UInt64.ofNat (cache.erase key).1.toNat := by
  unfold erase
  split
  · simp
  · rename_i handle found
    have member : key ∈ cache.index.keys :=
      AList.mem_keys.mp (AList.lookup_isSome.mp (Option.isSome_of_eq_some found))
    have occupied := List.length_pos_of_mem member
    obtain ⟨others, count⟩ : ∃ others, cache.index.keys.length = others + 1 :=
      ⟨cache.index.keys.length - 1, by omega⟩
    simp only [outstanding, size, AList.keys_erase, List.length_erase_of_mem member, count,
      Nat.add_sub_cancel, UInt64.ofNat_add, UInt64.ofNat_one, Bool.toNat_true]
    grind

/-- Entries that are cleared were inserted and not evicted. -/
theorem outstanding_clear :
    cache.clear.outstanding = cache.outstanding + UInt64.ofNat cache.size := by
  change cache.metrics.insertions - cache.metrics.evictions - 0 = _
  rw [outstanding]
  grind

end LruCache

/-! ## What a transcript tells -/

namespace LruOperation

variable {K V : Type} [DecidableEq K]

/-- What a call of `put` or `put_shared` writes. -/
def written : LruOperation K V → Option (K × ValuePtr V)
  | .put key value => some (key, some value)
  | .putShared key value => some (key, value)
  | _ => none

/-- The key that a call uses: a lookup by `get` that hits, or a put. -/
def used : LruOperation K V × LruAnswer V → Option K
  | (.get key, .looked (some _)) => some key
  | (.put key _, _) => some key
  | (.putShared key _, _) => some key
  | _ => none

end LruOperation

/-- The entries that a call removes other than by eviction. -/
def LruAnswer.removed {V : Type} : LruAnswer V → Nat
  | .erased present => present.toNat
  | .cleared count => count
  | _ => 0

namespace LruCache

section Transcript

variable {K V : Type}

/-- The writes of a transcript, in order. -/
def writes (transcript : List (LruOperation K V × LruAnswer V)) : List (K × ValuePtr V) :=
  transcript.filterMap fun entry => entry.1.written

/-- The keys used in a transcript, in order. -/
def uses (transcript : List (LruOperation K V × LruAnswer V)) : List K :=
  transcript.filterMap LruOperation.used

/-- How many entries were erased or cleared. -/
def removed (transcript : List (LruOperation K V × LruAnswer V)) : Nat :=
  (transcript.map fun entry => entry.2.removed).sum

variable (transcript : List (LruOperation K V × LruAnswer V))
  (entry : LruOperation K V × LruAnswer V)

theorem writes_snoc : writes (transcript ++ [entry]) =
    writes transcript ++ entry.1.written.toList :=
  filterMap_snoc _ transcript entry

theorem uses_snoc : uses (transcript ++ [entry]) =
    uses transcript ++ (LruOperation.used entry).toList :=
  filterMap_snoc _ transcript entry

theorem removed_snoc : removed (transcript ++ [entry]) =
    removed transcript + entry.2.removed := by
  simp [removed]

end Transcript

variable {K V : Type} [DecidableEq K] {capacity : Capacity}

/-- The cache holds under each key what was last written there, in the order of last
use, and its metrics account for every entry that was inserted. -/
structure Disciplined (transcript : List (LruOperation K V × LruAnswer V))
    (cache : LruCache K (ValuePtr V) capacity) : Prop where
  current : ∀ entry ∈ cache.toList, latest (writes transcript) entry.1 = some entry.2
  ordered : OrderedByUse (uses transcript) (cache.toList.map Prod.fst)
  accounted : cache.outstanding = UInt64.ofNat (removed transcript)

namespace Disciplined

variable {transcript : List (LruOperation K V × LruAnswer V)}
  {cache after : LruCache K (ValuePtr V) capacity}

/-- A call that uses no key and writes nothing may drop entries. -/
theorem drop (disciplined : Disciplined transcript cache)
    {entry : LruOperation K V × LruAnswer V} (unused : LruOperation.used entry = none)
    (unwritten : entry.1.written = none) (fewer : after.toList.Sublist cache.toList)
    (count : after.outstanding = cache.outstanding + UInt64.ofNat entry.2.removed) :
    Disciplined (transcript ++ [entry]) after where
  current := by
    rw [writes_snoc, unwritten, Option.toList_none, List.append_nil]
    exact fun held member => disciplined.current held (fewer.subset member)
  ordered := by
    rw [uses_snoc, unused, Option.toList_none, List.append_nil]
    exact disciplined.ordered.sublist (fewer.map Prod.fst)
  accounted := by
    rw [count, disciplined.accounted, removed_snoc, UInt64.ofNat_add]

/-- A call that uses a key puts its entry before others with other keys. -/
theorem front (disciplined : Disciplined transcript cache)
    {entry : LruOperation K V × LruAnswer V} {key : K} {value : ValuePtr V}
    {others : List (K × ValuePtr V)} (used : LruOperation.used entry = some key)
    (written : entry.1.written = some (key, value) ∨
      entry.1.written = none ∧ (key, value) ∈ cache.toList)
    (entries : after.toList = (key, value) :: others) (fewer : others.Sublist cache.toList)
    (absent : key ∉ others.map Prod.fst)
    (kept : after.outstanding = cache.outstanding) (removedNone : entry.2.removed = 0) :
    Disciplined (transcript ++ [entry]) after where
  current := by
    rw [writes_snoc, entries]
    rcases written with wrote | ⟨unwritten, held⟩
    · rw [wrote, Option.toList_some]
      intro stored member
      rcases List.mem_cons.mp member with rfl | earlier
      · exact latest_snoc_self ..
      · have other : stored.1 ≠ key := fun same =>
          absent (List.mem_map.mpr ⟨stored, earlier, same⟩)
        rw [latest_snoc_of_ne _ _ other]
        exact disciplined.current stored (fewer.subset earlier)
    · rw [unwritten, Option.toList_none, List.append_nil]
      intro stored member
      rcases List.mem_cons.mp member with rfl | earlier
      · exact disciplined.current _ held
      · exact disciplined.current stored (fewer.subset earlier)
  ordered := by
    rw [uses_snoc, used, Option.toList_some, entries, List.map_cons]
    exact (disciplined.ordered.sublist (fewer.map Prod.fst)).use absent
  accounted := by
    rw [kept, disciplined.accounted, removed_snoc, removedNone, Nat.add_zero]

/-- A put keeps the discipline. -/
theorem put (disciplined : Disciplined transcript cache) {operation : LruOperation K V}
    {key : K} {value : ValuePtr V} (wrote : operation.written = some (key, value))
    (used : LruOperation.used (operation, LruAnswer.stored) = some key) :
    Disciplined (transcript ++ [(operation, .stored)]) (cache.put key value) := by
  obtain ⟨others, split, fewer, absent⟩ :=
    Reference.store_split capacity.value cache.toList key value
  exact disciplined.front used (Or.inl wrote) ((cache.toList_put key value).trans split) fewer
    absent (cache.outstanding_put key value) rfl

/-- A lookup keeps the discipline. -/
theorem get (disciplined : Disciplined transcript cache) (key : K) :
    Disciplined (transcript ++ [(.get key, .looked (cache.get key).1)]) (cache.get key).2 := by
  cases held : cache.toList.lookup key with
  | none =>
      obtain ⟨answer, same⟩ := cache.get_miss held
      rw [answer]
      refine disciplined.drop rfl rfl ?_ ?_
      · rw [same]
      · rw [cache.outstanding_get]
        exact (UInt64.add_zero _).symm
  | some value =>
      obtain ⟨answer, moved⟩ := cache.get_hit held
      rw [answer]
      exact disciplined.front rfl (Or.inr ⟨rfl, mem_of_lookup held⟩) moved
        (Reference.without_sublist ..) (Reference.not_mem_without cache.toList key)
        (cache.outstanding_get key) rfl

end Disciplined

/-- Every operation keeps the discipline. -/
theorem disciplined_step {transcript : List (LruOperation K V × LruAnswer V)}
    {cache : LruCache K (ValuePtr V) capacity} (disciplined : Disciplined transcript cache)
    (operation : LruOperation K V) :
    Disciplined (transcript ++ [(operation, ((machine K V capacity).step cache operation).1)])
      ((machine K V capacity).step cache operation).2 := by
  cases operation with
  | get key => exact disciplined.get key
  | peek key =>
      refine disciplined.drop rfl rfl (List.Sublist.refl _) ?_
      exact (UInt64.add_zero _).symm
  | put key value => exact disciplined.put rfl rfl
  | putShared key value => exact disciplined.put rfl rfl
  | erase key =>
      refine disciplined.drop rfl rfl ?_ (cache.outstanding_erase key)
      rw [show ((machine K V capacity).step cache (.erase key)).2 = (cache.erase key).2 from rfl,
        (cache.erase_eq key).2]
      exact Reference.without_sublist ..
  | clear => exact disciplined.drop rfl rfl (List.nil_sublist _) cache.outstanding_clear

/-- The cache after a sequence of operations, with what it answered. -/
def ran (K V : Type) [DecidableEq K] (capacity : Capacity) (operations : List (LruOperation K V)) :
    List (LruOperation K V × LruAnswer V) × LruCache K (ValuePtr V) capacity :=
  (machine K V capacity).run (create K (ValuePtr V) capacity) operations

/-- Every run keeps the discipline. -/
theorem ran_disciplined (operations : List (LruOperation K V)) :
    Disciplined (ran K V capacity operations).1 (ran K V capacity operations).2 := by
  refine Machine.run_invariant Disciplined ?_ ?_ operations
  · refine ⟨fun entry member => absurd member List.not_mem_nil, OrderedByUse.nil _, ?_⟩
    simp [outstanding, create, size, removed]
  · intro transcript cache operation disciplined
    exact disciplined_step disciplined operation

/-- What a disciplined cache finds under a key. -/
theorem Disciplined.lookup {transcript : List (LruOperation K V × LruAnswer V)}
    {cache : LruCache K (ValuePtr V) capacity} (disciplined : Disciplined transcript cache)
    (key : K) :
    cache.toList.lookup key =
      if key ∈ cache.toList.map Prod.fst then latest (writes transcript) key else none := by
  cases held : cache.toList.lookup key with
  | none => rw [if_neg (lookup_eq_none_iff_not_mem.mp held)]
  | some value =>
      have member := mem_of_lookup held
      rw [if_pos (List.mem_map_of_mem member), disciplined.current _ member]

/-- A put of a new key into a full cache costs the key whose last use is oldest its
place, and nothing else. -/
theorem Disciplined.evicts {transcript : List (LruOperation K V × LruAnswer V)}
    {cache : LruCache K (ValuePtr V) capacity} (disciplined : Disciplined transcript cache)
    {key : K} (value : ValuePtr V) (absent : key ∉ cache.toList.map Prod.fst)
    (full : cache.size = capacity.value) :
    ∃ oldest ∈ cache.toList.map Prod.fst,
      (∀ other ∈ cache.toList.map Prod.fst, other ≠ oldest →
        lastUse (uses transcript) oldest < lastUse (uses transcript) other) ∧
      (cache.put key value).toList = (key, value) :: Reference.without cache.toList oldest := by
  have long : cache.toList.length = capacity.value := cache.size_eq.symm.trans full
  obtain ⟨front, last, split⟩ : ∃ front last, cache.toList = front ++ [last] := by
    have positive := capacity.positive
    have nonempty : cache.toList ≠ [] := List.ne_nil_of_length_pos (by omega)
    exact ⟨_, _, (List.dropLast_concat_getLast nonempty).symm⟩
  have nodup := cache.nodup_keys
  have ordered := disciplined.ordered
  have stored := cache.toList_put key value
  rw [Reference.store, if_neg absent, if_pos (Nat.le_of_eq long.symm)] at stored
  rw [split] at nodup ordered stored
  rw [List.map_append] at ordered
  refine ⟨last.1, ?_, ?_, ?_⟩
  · rw [split]
    exact List.mem_map_of_mem (List.mem_append_right _ (List.mem_singleton_self _))
  · intro other member different
    rw [split, List.map_append, List.mem_append] at member
    rcases member with earlier | isLast
    · exact ordered.last_oldest other earlier
    · exact absurd (List.mem_singleton.mp isLast) different
  · rw [stored, split, Reference.without_last nodup, List.dropLast_concat]

/-- The cache is exact LRU. After every sequence of operations its containers agree,
it has answered as the reference does and holds the reference's entries in the same
order, a lookup finds what was last put under a key that is still held, the entries
stand in the order of last use, a put of a new key into a full cache removes the key
whose last use is oldest, and the metrics account for the size. -/
theorem exact_lru (operations : List (LruOperation K V)) :
    let transcript := (ran K V capacity operations).1
    let cache := (ran K V capacity operations).2
    let reference := (Reference.machine K V capacity.value).run [] operations
    (StableList.Indexes Prod.fst cache.entries cache.index ∧
        (cache.toList.map Prod.fst).Nodup ∧ cache.size ≤ capacity.value) ∧
      (transcript = reference.1 ∧ cache.toList = reference.2) ∧
      (∀ key, let held := if key ∈ cache.toList.map Prod.fst then latest (writes transcript) key
          else none
        (cache.get key).1 = held ∧ cache.peek key = held) ∧
      OrderedByUse (uses transcript) (cache.toList.map Prod.fst) ∧
      (∀ key value, key ∉ cache.toList.map Prod.fst → cache.size = capacity.value →
        ∃ oldest ∈ cache.toList.map Prod.fst,
          (∀ other ∈ cache.toList.map Prod.fst, other ≠ oldest →
            lastUse (uses transcript) oldest < lastUse (uses transcript) other) ∧
          (cache.put key value).toList = (key, value) :: Reference.without cache.toList oldest) ∧
      UInt64.ofNat cache.size = cache.metrics.insertions - cache.metrics.evictions -
        UInt64.ofNat (removed transcript) := by
  intro transcript cache reference
  have disciplined : Disciplined transcript cache := ran_disciplined operations
  refine ⟨⟨cache.agree, cache.nodup_keys, cache.bounded⟩, ?_, ?_, disciplined.ordered, ?_, ?_⟩
  · refine Machine.run_simulates
      (fun (state : LruCache K (ValuePtr V) capacity) entries => state.toList = entries) ?_ rfl
      operations
    rintro state _ operation rfl
    exact state.machine_simulates operation
  · intro key held
    exact ⟨(cache.get_fst key).trans (disciplined.lookup key),
      (cache.peek_eq key).trans (disciplined.lookup key)⟩
  · intro key value absent full
    exact disciplined.evicts value absent full
  · rw [← disciplined.accounted, outstanding]
    grind

end LruCache

end Lrd.Cache
